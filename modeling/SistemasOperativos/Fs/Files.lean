import SistemasOperativos.Fs.Cache

/-!
# Files

`fs/fs.c` after `fs_init`. A `struct File *` is the address of the structure.
-/

namespace SistemasOperativos.Fs

open Library Kern

def eInval : ℤ := 3
def eNoMem : ℤ := 4
def eNoDisk : ℤ := 9
def eMaxOpen : ℤ := 10
def eNotFound : ℤ := 11
def eBadPath : ℤ := 12
def eFileExists : ℤ := 13

def ndirect : ℕ := 10
def nindirect : ℕ := 1024
def maxnamelen : ℕ := 128
def blkfiles : ℕ := 16
def sizeofFile : ℕ := 256
def ftypeReg : Word := 0
def ftypeDir : Word := 1

/-- A character of a C string. -/
abbrev CChar := { b : Byte // b ≠ 0 }
abbrev CString := List CChar

def slash : CChar := ⟨0x2f, by decide⟩

/-! ### The fields of a `struct File` -/

def fSize (f : ℕ) : ℕ := f + 128
def fType (f : ℕ) : ℕ := f + 132
def fDirect (f i : ℕ) : ℕ := f + 136 + 4 * i
def fIndirect (f : ℕ) : ℕ := f + 176

/-! ### The bitmap -/

def blockIsFree (b : ℕ) : FsM Bool := do
  if nblocksOf (← get).content ≤ b then return false
  return (← loadWord (bitmapAddr + 4 * (b / 32))).getLsbD (b % 32)

def freeBlock (b : ℕ) : FsM Unit := do
  if b = 0 then throw .freeZero
  let w ← loadWord (bitmapAddr + 4 * (b / 32))
  storeWord (bitmapAddr + 4 * (b / 32)) (w ||| BitVec.twoPow 32 (b % 32))

/-- The loop of `alloc_block` from `nb` on, with `n` blocks to go. -/
def allocFrom : ℕ → ℕ → FsM (Except ℤ ℕ)
  | 0, _ => return .error (-eNoDisk)
  | n + 1, nb => do
    if ← blockIsFree nb then
      let w ← loadWord (bitmapAddr + 4 * (nb / 32))
      storeWord (bitmapAddr + 4 * (nb / 32)) (w &&& ~~~BitVec.twoPow 32 (nb % 32))
      flushBlock bitmapAddr
      return .ok nb
    else
      allocFrom n (nb + 1)

def allocBlock : FsM (Except ℤ ℕ) := do
  allocFrom (nblocksOf (← get).content) 0

/-- The `int` that a function returns, as the word that an unsigned variable takes. -/
def asWord : Except ℤ ℕ → Word
  | .ok n => BitVec.ofNat 32 n
  | .error r => BitVec.ofInt 32 r

/-! ### The blocks of a file -/

/-- The part of `file_block_walk` that allocates the indirect block. -/
def allocIndirect (f : ℕ) : FsM (Except ℤ Unit) := do
  match ← allocBlock with
  | .error _ => return .error (-eNoDisk)
  | .ok blockno =>
    storeWord (fIndirect f) (BitVec.ofNat 32 blockno)
    let blockaddr ← diskaddr blockno
    pageAllocAt blockno
    clearBlock blockno
    flushBlock blockaddr
    return .ok ()

/-- The end of `file_block_walk`. -/
def indirectSlot (f filebno : ℕ) : FsM (Except ℤ ℕ) := do
  let blk ← diskaddr (← loadWord (fIndirect f)).toNat
  return .ok (blk + 4 * (filebno - ndirect))

def fileBlockWalk (f filebno : ℕ) (alloc : Bool) : FsM (Except ℤ ℕ) := do
  if ndirect + nindirect ≤ filebno then return .error (-eInval)
  if filebno < ndirect then return .ok (fDirect f filebno)
  if (← loadWord (fIndirect f)) = 0 then
    if !alloc then return .error (-eNotFound)
    match ← allocIndirect f with
    | .error r => return .error r
    | .ok _ => indirectSlot f filebno
  else
    indirectSlot f filebno

/-- The block that the slot `blkno` of a file gets in `file_get_block`. -/
def fillSlot (blkno : ℕ) : FsM Unit := do
  if (← loadWord blkno) = 0 then
    -- `*blkno < 0` never holds of an unsigned number
    storeWord blkno (asWord (← allocBlock))

def fileGetBlock (f filebno : ℕ) : FsM (Except ℤ ℕ) := do
  match ← fileBlockWalk f filebno true with
  | .error r => return .error r
  | .ok blkno =>
    fillSlot blkno
    let blk ← diskaddr (← loadWord blkno).toNat
    flushBlock blkno
    return .ok blk

/-! ### Directories -/

/-- `strcmp` of the string at `a` with `name`, for equality. -/
def strcmpEq (a : ℕ) : CString → FsM Bool
  | [] => return (← loadByte a) = 0
  | x :: xs => do
    if (← loadByte a) = x.val then strcmpEq (a + 1) xs else return false

/-- The first of the `n` structures from `f` on that passes the test `p`. -/
def searchBlock (p : ℕ → FsM Bool) : ℕ → ℕ → FsM (Option ℕ)
  | 0, _ => return none
  | n + 1, f => do
    if ← p f then return some f else searchBlock p n (f + sizeofFile)

/-- The same for the `n` blocks of the directory `dir` from `i` on. -/
def searchDir (p : ℕ → FsM Bool) (dir : ℕ) : ℕ → ℕ → FsM (Except ℤ (Option ℕ))
  | 0, _ => return .ok none
  | n + 1, i => do
    match ← fileGetBlock dir i with
    | .error r => return .error r
    | .ok blk =>
      match ← searchBlock p blkfiles blk with
      | some f => return .ok (some f)
      | none => searchDir p dir n (i + 1)

/-- The number of blocks of a directory, after the assertion about its size. -/
def dirBlocks (dir : ℕ) : FsM ℕ := do
  let size := (← loadWord (fSize dir)).toInt
  if size.tmod 4096 ≠ 0 then throw .assertion
  return (BitVec.ofInt 32 (size.tdiv 4096)).toNat

def dirLookup (dir : ℕ) (name : CString) : FsM (Except ℤ ℕ) := do
  match ← searchDir (fun f => strcmpEq f name) dir (← dirBlocks dir) 0 with
  | .error r => return .error r
  | .ok none => return .error (-eNotFound)
  | .ok (some f) => return .ok f

/-- The test of `dir_alloc_file`. -/
def isFreeEntry (f : ℕ) : FsM Bool := do
  return (← loadByte f) = 0

def dirAllocFile (dir : ℕ) : FsM (Except ℤ ℕ) := do
  let nblock ← dirBlocks dir
  match ← searchDir isFreeEntry dir nblock 0 with
  | .error r => return .error r
  | .ok (some f) => return .ok f
  | .ok none =>
    let size ← loadWord (fSize dir)
    storeWord (fSize dir) (size + 4096)
    fileGetBlock dir nblock

def skipSlash (path : CString) : CString := path.dropWhile (· = slash)

/-- The rest of a path after its first element. -/
def nextElem (path : CString) : CString := skipSlash (path.dropWhile (· ≠ slash))

lemma length_nextElem {path : CString} (h : path ≠ []) : (nextElem path).length < path.length := by
  unfold nextElem skipSlash
  cases path with
  | nil => exact absurd rfl h
  | cons x xs =>
    by_cases hx : x = slash
    · have hle := (List.dropWhile_sublist (· = slash) (l := xs)).length_le
      rw [List.dropWhile_cons_of_neg (by simp [hx]), List.dropWhile_cons_of_pos (by simp [hx]),
        List.length_cons]
      omega
    · have hle := (List.dropWhile_sublist (· ≠ slash) (l := xs)).length_le
      have hle' := (List.dropWhile_sublist (· = slash) (l := xs.dropWhile (· ≠ slash))).length_le
      rw [List.dropWhile_cons_of_pos (by simp [hx]), List.length_cons]
      omega

/-- The loop of `walk_path` at the file `f` in the directory `dir`: the directory and the file, or the
error and, where only the last element is missing, its directory and its name. -/
def walkFrom (dir f : ℕ) (path : CString) : FsM (Except (ℤ × Option (ℕ × CString)) (ℕ × ℕ)) :=
  if _h : path = [] then return .ok (dir, f)
  else do
    let name := path.takeWhile (· ≠ slash)
    if maxnamelen ≤ name.length then return .error (-eBadPath, none)
    if (← loadWord (fType f)) ≠ ftypeDir then return .error (-eNotFound, none)
    match ← dirLookup f name with
    | .error r =>
      return .error (r, if r = -eNotFound ∧ nextElem path = [] then some (f, name) else none)
    | .ok g => walkFrom f g (nextElem path)
termination_by path.length
decreasing_by exact length_nextElem _h

/-- The root has no directory: `dir = 0` then. -/
def walkPath (path : CString) : FsM (Except (ℤ × Option (ℕ × CString)) (ℕ × ℕ)) :=
  walkFrom 0 rootAddr (skipSlash path)

/-! ### File operations -/

/-- The number of blocks of a file of size `size`, in `int` arithmetic. -/
def blocksFor (size : Word) : Word := (size + 4095).sdiv 4096

/-- The loop body of `file_flush`. -/
def flushFileBlock (f i : ℕ) : FsM Unit := do
  match ← fileBlockWalk f i false with
  | .error _ => return
  | .ok pdiskbno =>
    let w ← loadWord pdiskbno
    if w ≠ 0 then flushBlock (← diskaddr w.toNat)

def fileFlush (f : ℕ) : FsM Unit := do
  let size ← loadWord (fSize f)
  (List.range (blocksFor size).toInt.toNat).forM (flushFileBlock f)
  flushBlock f
  let ind ← loadWord (fIndirect f)
  if ind ≠ 0 then flushBlock (← diskaddr ind.toNat)

def fileCreate (path : CString) : FsM (Except ℤ ℕ) := do
  match ← walkPath path with
  | .ok _ => return .error (-eFileExists)
  | .error (r, none) => return .error r
  | .error (_, some (dir, name)) =>
    match ← dirAllocFile dir with
    | .error r => return .error r
    | .ok f =>
      storeBytes f (name.map (·.val) ++ [0])
      fileFlush dir
      return .ok f

def fileOpen (path : CString) : FsM (Except ℤ ℕ) := do
  match ← walkPath path with
  | .ok (_, f) => return .ok f
  | .error (r, _) => return .error r

def fileFreeBlock (f filebno : ℕ) : FsM (Except ℤ Unit) := do
  match ← fileBlockWalk f filebno false with
  | .error r => return .error r
  | .ok ptr =>
    let w ← loadWord ptr
    if w ≠ 0 then
      freeBlock w.toNat
      storeWord ptr 0
    return .ok ()

/-- A failed `file_free_block` is a warning only. -/
def fileTruncateBlocks (f : ℕ) (newsize : Word) : FsM Unit := do
  let oldNblocks := (blocksFor (← loadWord (fSize f))).toNat
  let newNblocks := (blocksFor newsize).toNat
  (List.range' newNblocks (oldNblocks - newNblocks)).forM (fun bno => do
    let _ ← fileFreeBlock f bno)
  let ind ← loadWord (fIndirect f)
  if newNblocks ≤ ndirect ∧ ind ≠ 0 then
    freeBlock ind.toNat
    storeWord (fIndirect f) 0

def fileSetSize (f : ℕ) (newsize : Word) : FsM Unit := do
  let size ← loadWord (fSize f)
  if newsize.slt size then fileTruncateBlocks f newsize
  storeWord (fSize f) newsize
  flushBlock f

/-- The address of position `pos` in the block at `blk`; before the block for a negative `pos`. -/
def posAddr (blk : ℕ) (pos : Word) : ℕ := ((blk : ℤ) + (pos.srem 4096).toInt).toNat

/-- `MIN` of unsigned numbers. -/
def minWord (x y : Word) : Word := if x ≤ y then x else y

/-- The number of bytes that are moved at once. -/
def chunk (pos stop : Word) : Word := minWord (4096 - pos.srem 4096) (stop - pos)

def loadBytes (a : ℕ) : ℕ → FsM (List Byte)
  | 0 => return []
  | n + 1 => do
    let x ← loadByte a
    return x :: (← loadBytes (a + 1) n)

/-- The loop of `file_read`. Every turn moves at least one byte, so that `stop - pos` turns are
enough. -/
def readLoop (f : ℕ) (stop : Word) : ℕ → Word → FsM (Except ℤ (List Byte))
  | 0, _ => return .ok []
  | n + 1, pos => do
    if pos < stop then
      match ← fileGetBlock f (pos.sdiv 4096).toNat with
      | .error r => return .error r
      | .ok blk =>
        let bs ← loadBytes (posAddr blk pos) (chunk pos stop).toNat
        match ← readLoop f stop n (pos + chunk pos stop) with
        | .error r => return .error r
        | .ok rest => return .ok (bs ++ rest)
    else
      return .ok []

/-- The bytes that `file_read` puts into the buffer, as many as it returns. -/
def fileRead (f : ℕ) (count offset : Word) : FsM (Except ℤ (List Byte)) := do
  let size ← loadWord (fSize f)
  if size.sle offset then return .ok []
  let count := minWord count (size - offset)
  readLoop f (offset + count) count.toNat offset

/-- The loop of `file_write`, with the rest of the buffer. -/
def writeLoop (f : ℕ) (stop : Word) : ℕ → Word → List Byte → FsM (Except ℤ Unit)
  | 0, _, _ => return .ok ()
  | n + 1, pos, buf => do
    if pos < stop then
      match ← fileGetBlock f (pos.sdiv 4096).toNat with
      | .error r => return .error r
      | .ok blk =>
        let bn := (chunk pos stop).toNat
        storeBytes (posAddr blk pos) (buf.take bn)
        writeLoop f stop n (pos + chunk pos stop) (buf.drop bn)
    else
      return .ok ()

def fileWrite (f : ℕ) (buf : List Byte) (offset : Word) : FsM (Except ℤ ℕ) := do
  let count := BitVec.ofNat 32 buf.length
  let size ← loadWord (fSize f)
  if size < offset + count then fileSetSize f (offset + count)
  match ← writeLoop f (offset + count) buf.length offset buf with
  | .error r => return .error r
  | .ok _ => return .ok buf.length

def fsSync : FsM Unit := do
  (List.range' 1 (nblocksOf (← get).content - 1)).forM (fun i => do flushBlock (← diskaddr i))

end SistemasOperativos.Fs
