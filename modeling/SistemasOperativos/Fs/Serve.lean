import SistemasOperativos.Fs.Files

/-!
# The server

`fs/serv.c`: the table of open files and the requests of clients. Pages that are shared with clients
have numbers of their own; a `union Fsipc *` and a `struct Fd *` are such a page.
-/

namespace SistemasOperativos.Fs

open Library Kern

def maxopen : ℕ := 1024
def maxpathlen : ℕ := 1024

def oCreat : Word := 0x100
def oTrunc : Word := 0x200
def oExcl : Word := 0x400
def oAccmode : Word := 3

/-- `devfile.dev_id`. -/
def devId : Word := 0x66

/-! ### Fields of a request and of a `struct Fd` -/

def reqFileid : ℕ := 0
def reqSize : ℕ := 4
def reqN : ℕ := 4
def reqBuf : ℕ := 8
def reqOmode : ℕ := 1024
/-- `sizeof req_buf`. -/
def reqBufSize : ℕ := 4088
def retSize : ℕ := 128
def retIsdir : ℕ := 132

def fdDevId : ℕ := 0
def fdOffset : ℕ := 4
def fdOmode : ℕ := 8
def fdFileId : ℕ := 12

/-- `struct OpenFile` without `o_fd`, which is an address that depends on the slot only. -/
structure OpenFile where
  fileid : Word
  file : ℕ
  mode : Word

/-- How the server can stop, or leave the buffer of a request. -/
inductive ServeExit
  | fs (e : FsExit)
  /-- an access behind the buffer in the request page -/
  | overrun
  deriving DecidableEq

structure Server where
  fs : Fs
  opentab : ℕ → OpenFile
  /-- the page at `o_fd` of a slot -/
  fdPage : ℕ → Option ℕ
  /-- the page at `fsreq`, and whether the server can write it -/
  fsreq : Option ℕ
  writable : Bool
  page : ℕ → ℕ → Byte
  /-- how often a page is mapped, by the server and by clients -/
  mapped : ℕ → ℕ
  /-- the page that the kernel hands out next -/
  fresh : ℕ

abbrev ServM := EStateM ServeExit Server

/-- What the file system does for a request. -/
def onFs {α : Type} (m : FsM α) : ServM α := fun s =>
  match m s.fs with
  | .ok a t => .ok a { s with fs := t }
  | .error e t => .error (.fs e) { s with fs := t }

def loadPage (p a : ℕ) : ServM Word := return wordAt ((← get).page p) a

def storePage (p a : ℕ) (w : Word) : ServM Unit :=
  modify fun s => { s with page := Function.update s.page p (putWord (s.page p) a w) }

/-- The request page. -/
def reqPage : ServM ℕ := do
  match (← get).fsreq with
  | some q => return q
  | none => throw (.fs .outside)

def fdOf (i : ℕ) : ServM ℕ := do
  match (← get).fdPage i with
  | some p => return p
  | none => throw (.fs .outside)

/-! ### The table of open files -/

/-- `pageref` of the Fd page of a slot. `pp_ref` has 16 bits. -/
def pageref (s : Server) (i : ℕ) : ℕ :=
  match s.fdPage i with
  | some p => s.mapped p % 65536
  | none => 0

/-- `sys_page_alloc` at `o_fd`. -/
def fdAlloc (i : ℕ) : ServM Bool := do
  let s ← get
  if s.fs.frames = 0 then return false
  let mapped := match s.fdPage i with
    | some p => Function.update s.mapped p (s.mapped p - 1)
    | none => s.mapped
  set { s with
    fs := { s.fs with frames := s.fs.frames - 1 }
    fdPage := Function.update s.fdPage i (some s.fresh)
    page := Function.update s.page s.fresh (fun _ => 0)
    mapped := Function.update mapped s.fresh 1
    fresh := s.fresh + 1 }
  return true

/-- The slot `i` is taken: the file id that is returned is an `int`. -/
def takeSlot (i : ℕ) : ServM (Except ℤ (ℕ × ℤ)) := do
  let o := (← get).opentab i
  let fileid := o.fileid + BitVec.ofNat 32 maxopen
  modify fun s => { s with opentab := Function.update s.opentab i { o with fileid := fileid } }
  let p ← fdOf i
  modify fun s => { s with page := Function.update s.page p (fun _ => 0) }
  return .ok (i, fileid.toInt)

/-- The loop of `openfile_alloc` from slot `i` on, with `n` slots to go. -/
def allocSlot : ℕ → ℕ → ServM (Except ℤ (ℕ × ℤ))
  | 0, _ => return .error (-eMaxOpen)
  | n + 1, i => do
    match pageref (← get) i with
    | 0 =>
      if ← fdAlloc i then takeSlot i else return .error (-eNoMem)
    | 1 => takeSlot i
    | _ => allocSlot n (i + 1)

def openfileAlloc : ServM (Except ℤ (ℕ × ℤ)) := allocSlot maxopen 0

def openfileLookup (fileid : Word) : ServM (Except ℤ ℕ) := do
  let s ← get
  let i := fileid.toNat % maxopen
  if pageref s i ≤ 1 ∨ (s.opentab i).fileid ≠ fileid then return .error (-eInval)
  return .ok i

/-! ### Opening -/

/-- The string of at most `n` characters at `a` in a page. -/
def cstringAt (data : ℕ → Byte) (a : ℕ) : ℕ → CString
  | 0 => []
  | n + 1 => if h : data a = 0 then [] else ⟨data a, h⟩ :: cstringAt data (a + 1) n

/-- The file that is opened, before it is truncated. -/
def openOrCreate (path : CString) (omode : Word) : FsM (Except ℤ ℕ) := do
  if omode &&& oCreat ≠ 0 then
    match ← fileCreate path with
    | .ok f => return .ok f
    | .error r =>
      if omode &&& oExcl = 0 ∧ r = -eFileExists then fileOpen path else return .error r
  else
    fileOpen path

def openFile (path : CString) (omode : Word) : FsM (Except ℤ ℕ) := do
  match ← openOrCreate path omode with
  | .error r => return .error r
  | .ok f =>
    if omode &&& oTrunc ≠ 0 then fileSetSize f 0
    fileOpen path

/-- The result and the page that is sent to the client. -/
def serveOpen : ServM (ℤ × Option ℕ) := do
  let q ← reqPage
  let path := cstringAt ((← get).page q) 0 (maxpathlen - 1)
  let omode ← loadPage q reqOmode
  match ← openfileAlloc with
  | .error r => return (r, none)
  | .ok (i, fileid) =>
    if fileid < 0 then return (fileid, none)
    match ← onFs (openFile path omode) with
    | .error r => return (r, none)
    | .ok f =>
      let p ← fdOf i
      modify fun s => { s with
        opentab := Function.update s.opentab i { s.opentab i with file := f } }
      storePage p fdFileId ((← get).opentab i).fileid
      storePage p fdOmode (omode &&& oAccmode)
      storePage p fdDevId devId
      modify fun s => { s with
        opentab := Function.update s.opentab i { s.opentab i with mode := omode } }
      return (0, some p)

def serveSetSize : ServM ℤ := do
  let q ← reqPage
  match ← openfileLookup (← loadPage q reqFileid) with
  | .error r => return r
  | .ok i =>
    onFs (fileSetSize ((← get).opentab i).file (← loadPage q reqSize))
    return 0

/-! ### Reading and writing -/

/-- A byte of the reply, at `k` in the buffer. -/
def storeReply (q k : ℕ) (x : Byte) : ServM Unit := do
  if 4096 ≤ k then throw .overrun
  if !(← get).writable then throw (.fs .outside)
  modify fun s => { s with page := Function.update s.page q (Function.update (s.page q) k x) }

/-- The `memmove` of `n` bytes from `a` to `k` in the reply. -/
def copyOut (q : ℕ) : ℕ → ℕ → ℕ → ServM Unit
  | 0, _, _ => return
  | n + 1, a, k => do
    storeReply q k (← onFs (loadByte a))
    copyOut q n (a + 1) (k + 1)

/-- A byte of the data of a request, at `k` in the buffer. -/
def loadData (q k : ℕ) : ServM Byte := do
  if reqBufSize ≤ k then throw .overrun
  return (← get).page q (reqBuf + k)

/-- The `memmove` of `n` bytes from `k` in the data to `a`. -/
def copyIn (q : ℕ) : ℕ → ℕ → ℕ → ServM Unit
  | 0, _, _ => return
  | n + 1, a, k => do
    onFs (storeByte a (← loadData q k))
    copyIn q n (a + 1) (k + 1)

/-- The loop of `file_read` or `file_write`, with the `memmove` between the file and the place `k` in
a buffer. Every turn moves at least one byte. -/
def moveLoop (move : ℕ → ℕ → ℕ → ServM Unit) (f : ℕ) (stop : Word) :
    ℕ → Word → ℕ → ServM (Except ℤ Unit)
  | 0, _, _ => return .ok ()
  | n + 1, pos, k => do
    if pos < stop then
      match ← onFs (fileGetBlock f (pos.sdiv 4096).toNat) with
      | .error r => return .error r
      | .ok blk =>
        move (chunk pos stop).toNat (posAddr blk pos) k
        moveLoop move f stop n (pos + chunk pos stop) (k + (chunk pos stop).toNat)
    else
      return .ok ()

/-- `file_read` into the reply. -/
def fileReadTo (q f : ℕ) (count offset : Word) : ServM (Except ℤ Word) := do
  let size ← onFs (loadWord (fSize f))
  if size.sle offset then return .ok 0
  let count := minWord count (size - offset)
  match ← moveLoop (copyOut q) f (offset + count) count.toNat offset 0 with
  | .error r => return .error r
  | .ok _ => return .ok count

/-- `file_write` from the data of a request. -/
def fileWriteFrom (q f : ℕ) (count offset : Word) : ServM (Except ℤ Word) := do
  let size ← onFs (loadWord (fSize f))
  if size < offset + count then onFs (fileSetSize f (offset + count))
  match ← moveLoop (copyIn q) f (offset + count) count.toNat offset 0 with
  | .error r => return .error r
  | .ok _ => return .ok count

/-- `serve_read` and `serve_write`, which differ in what they do with the file. The count that is
clamped to the buffer is not used. -/
def serveData (transfer : ℕ → ℕ → Word → Word → ServM (Except ℤ Word)) : ServM ℤ := do
  let q ← reqPage
  match ← openfileLookup (← loadPage q reqFileid) with
  | .error r => return r
  | .ok i =>
    let p ← fdOf i
    match ← transfer q ((← get).opentab i).file (← loadPage q reqN) (← loadPage p fdOffset) with
    | .error r => return r
    | .ok n =>
      if n.toInt < 0 then return n.toInt
      storePage p fdOffset ((← loadPage p fdOffset) + n)
      return n.toInt

def serveRead : ServM ℤ := serveData fileReadTo

def serveWrite : ServM ℤ := serveData fileWriteFrom

/-! ### Other requests -/

/-- `strcpy` of the string at `a` to `k` in the reply. -/
def copyName (q : ℕ) : ℕ → ℕ → ℕ → ServM Unit
  | 0, _, _ => throw .overrun
  | n + 1, a, k => do
    let x ← onFs (loadByte a)
    storeReply q k x
    if x ≠ 0 then copyName q n (a + 1) (k + 1)

def serveStat : ServM ℤ := do
  let q ← reqPage
  match ← openfileLookup (← loadPage q reqFileid) with
  | .error r => return r
  | .ok i =>
    let f := ((← get).opentab i).file
    copyName q 4096 f 0
    -- the name has been stored, so that the page is writable
    storePage q retSize (← onFs (loadWord (fSize f)))
    storePage q retIsdir (if (← onFs (loadWord (fType f))) = ftypeDir then 1 else 0)
    return 0

def serveFlush : ServM ℤ := do
  let q ← reqPage
  match ← openfileLookup (← loadPage q reqFileid) with
  | .error r => return r
  | .ok i =>
    onFs (fileFlush ((← get).opentab i).file)
    return 0

def serveSync : ServM ℤ := do
  onFs fsSync
  return 0

/-- The part of `serve` for a request with an argument page. -/
def serveRequest (req : Word) : ServM (ℤ × Option ℕ) := do
  if req = 1 then serveOpen
  else if req = 2 then return (← serveSetSize, none)
  else if req = 3 then return (← serveRead, none)
  else if req = 4 then return (← serveWrite, none)
  else if req = 5 then return (← serveStat, none)
  else if req = 6 then return (← serveFlush, none)
  else if req = 8 then return (← serveSync, none)
  else return (-eInval, none)

end SistemasOperativos.Fs
