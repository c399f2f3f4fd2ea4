import SistemasOperativos.Library.Exits
import SistemasOperativos.Library.PageTables
import SistemasOperativos.Kern.Mmu

/-!
# Physical pages and page tables

`kern/pmap.c` after `mem_init`. Physical memory is an array of frames of 1024 words; a
`struct PageInfo *` is the number of its frame, and a pointer to a page table entry is the
frame of its table with an index. `page_free_list` is threaded through the `pp_link` fields,
`none` being the null pointer.
-/

namespace SistemasOperativos.Kern

open Library

/-- How kernel code ends without returning to its caller. -/
inductive Exit
  /-- the processor goes back to user mode or halts -/
  | leave
  /-- no environment is left to run: the monitor takes over -/
  | monitor
  /-- `panic()` -/
  | panic
  /-- a page fault in ring 0 -/
  | fault
  deriving DecidableEq, Repr

structure Pmap where
  npages : ℕ
  kernPgdir : ℕ
  mem : ℕ → ℕ → Word
  ppRef : ℕ → BitVec 16
  ppLink : ℕ → Option ℕ
  pageFreeList : Option ℕ

abbrev PmapM := EStateM Exit Pmap

/-- A pointer to an entry: the frame of the table and the index in it. -/
structure PtePtr where
  table : ℕ
  idx : ℕ

/-! ### Return codes -/

def eBadEnv : Word := 2
def eInval : Word := 3
def eNoMem : Word := 4
def eNoFreeEnv : Word := 5
def eIpcNotRecv : Word := 7

/-! ### Memory -/

def readPte (p : PtePtr) : PmapM Word := do return (← get).mem p.table p.idx

def writePte (p : PtePtr) (w : Word) : PmapM Unit :=
  modify fun s => { s with mem := setWord s.mem p.table p.idx w }

/-- `KADDR`: the frame behind a physical address. -/
def kaddr (pa : Word) : PmapM ℕ := do
  if pgnum pa ≥ (← get).npages then throw .panic
  return pgnum pa

def pa2page (pa : Word) : PmapM ℕ := do
  if pgnum pa ≥ (← get).npages then throw .panic
  return pgnum pa

def page2kva (pp : ℕ) : PmapM ℕ := kaddr (page2pa pp)

/-- Fill a frame with zeros. -/
def memsetZero (f : ℕ) : PmapM Unit :=
  modify fun s => { s with mem := Function.update s.mem f (fun _ => 0) }

/-- `page_init`: the frames it puts on the free list, last one first. `pagesEnd` is
`PADDR(boot_alloc(0))`. -/
def pageInit (npages pagesEnd : ℕ) : List ℕ :=
  (List.range npages).foldl (fun list i =>
    let physaddres := i * pgsize
    if i ≠ 0 ∧ (physaddres < iophysmem ∨ physaddres > pagesEnd) ∧
        physaddres < npages * pgsize - 1 ∧ i * pgsize ≠ mpentryPaddr then i :: list
    else list) []

/-! ### Page allocator -/

def pageAlloc (zero : Bool) : PmapM (Option ℕ) := do
  match (← get).pageFreeList with
  | none => return none
  | some allocatedPage =>
    modify fun s => { s with
      pageFreeList := s.ppLink allocatedPage
      ppLink := Function.update s.ppLink allocatedPage none }
    if zero then memsetZero (← page2kva allocatedPage)
    return some allocatedPage

def pageFree (pp : ℕ) : PmapM Unit := do
  let s ← get
  if s.ppRef pp ≠ 0 ∨ s.ppLink pp ≠ none then throw .panic
  modify fun s => { s with
    ppLink := Function.update s.ppLink pp s.pageFreeList
    pageFreeList := some pp }

def incRef (pp : ℕ) : PmapM Unit :=
  modify fun s => { s with ppRef := Function.update s.ppRef pp (s.ppRef pp + 1) }

def pageDecref (pp : ℕ) : PmapM Unit := do
  modify fun s => { s with ppRef := Function.update s.ppRef pp (s.ppRef pp - 1) }
  if (← get).ppRef pp = 0 then pageFree pp

/-! ### Page tables -/

def createPageTable (pageDirecEntry : PtePtr) : PmapM Bool := do
  match ← pageAlloc true with
  | none => return false
  | some page =>
    incRef page
    writePte pageDirecEntry (page2pa page ||| pteP ||| pteW ||| pteU)
    return true

/-- The entry for `va`, with its table created on demand. A null page directory is a ring-0
access to an address the kernel never maps. -/
def pgdirWalk (pgdir : Option ℕ) (va : Word) (create : Bool) : PmapM (Option PtePtr) := do
  let some d := pgdir | throw .fault
  let pageDirecEntry : PtePtr := ⟨d, pdx va⟩
  if !has (← readPte pageDirecEntry) pteP then
    if !create then return none
    if !(← createPageTable pageDirecEntry) then return none
  let pageTable ← kaddr (pteAddr (← readPte pageDirecEntry))
  return some ⟨pageTable, ptx va⟩

/-- The page mapped at `va` and its entry. The source tests `!(*pgTable | PTE_P)`. -/
def pageLookup (pgdir : Option ℕ) (va : Word) : PmapM (Option (ℕ × PtePtr)) := do
  match ← pgdirWalk pgdir va false with
  | none => return none
  | some pgTable =>
    let pte ← readPte pgTable
    if pte ||| pteP = 0 then return none
    return some (← pa2page (pteAddr pte), pgTable)

def pageRemove (pgdir : Option ℕ) (va : Word) : PmapM Unit := do
  match ← pageLookup pgdir va with
  | none => return
  | some (pp, pte) =>
    pageDecref pp
    if (← readPte pte) ≠ 0 then writePte pte 0

def pageInsert (pgdir : Option ℕ) (pp : ℕ) (va perm : Word) : PmapM Word := do
  match ← pgdirWalk pgdir va true with
  | none => return -eNoMem
  | some pte =>
    incRef pp
    if has (← readPte pte) pteP then pageRemove pgdir va
    writePte pte (page2pa pp ||| perm ||| pteP)
    return 0

/-! ### User memory checks -/

/-- The loop of `user_mem_check` from `auxPage` on; `none` if every page passes, else the
value given to `user_mem_check_addr`. `fuel` bounds the pages of the address space. -/
def userMemCheckLoop (pgdir : Option ℕ) (va lastPage perm : Word) : ℕ → Word → PmapM (Option Word)
  | 0, _ => return none
  | fuel + 1, auxPage => do
    if ¬ auxPage < lastPage then return none
    let bad := if auxPage < va then va else auxPage
    if auxPage ≥ ulim then return some bad
    match ← pageLookup pgdir auxPage with
    | none => return some bad
    | some (_, pte) =>
      if (← readPte pte) &&& perm = 0 then return some bad
      userMemCheckLoop pgdir va lastPage perm fuel (auxPage + 0x1000)

def userMemCheck (pgdir : Option ℕ) (va len perm : Word) : PmapM (Option Word) :=
  userMemCheckLoop pgdir va (roundup (va + len)) perm (npdentries * nptentries) (rounddown va)

/-! ### Accesses through the page tables -/

/-- The directory and table entries of the page of `va`, if both are present. -/
def walk (mem : ℕ → ℕ → Word) (pgdir : ℕ) (va : Word) : Option (Word × Word) := do
  let table ← target (mem pgdir (pdx va))
  let _ ← target (mem table (ptx va))
  return (mem pgdir (pdx va), mem table (ptx va))

/-- The byte at offset `off` of a frame. -/
def getByte (mem : ℕ → ℕ → Word) (f off : ℕ) : Byte :=
  (mem f (off / 4) >>> (8 * (off % 4))).truncate 8

/-- Replace the byte at offset `off` of a frame. -/
def setByte (mem : ℕ → ℕ → Word) (f off : ℕ) (b : Byte) : ℕ → ℕ → Word :=
  let k := 8 * (off % 4)
  setWord mem f (off / 4) (mem f (off / 4) &&& ~~~((0xff : Word) <<< k) ||| b.zeroExtend 32 <<< k)

/-- A ring-0 load through the page directory `cr3`. -/
def loadByte (cr3 : ℕ) (va : Word) : PmapM Byte := do
  match walk (← get).mem cr3 va with
  | none => throw .fault
  | some (_, pte) => return getByte (← get).mem (pgnum pte) (pgoff va)

/-- A ring-0 store through the page directory `cr3`; `CR0_WP` is set. -/
def storeByte (cr3 : ℕ) (va : Word) (b : Byte) : PmapM Unit := do
  match walk (← get).mem cr3 va with
  | none => throw .fault
  | some (pde, pte) =>
    if !(has pde pteW && has pte pteW) then throw .fault
    modify fun s => { s with mem := setByte s.mem (pgnum pte) (pgoff va) b }

def load16 (cr3 : ℕ) (va : Word) : PmapM (BitVec 16) := do
  let b0 ← loadByte cr3 va
  let b1 ← loadByte cr3 (va + 1)
  return b1 ++ b0

def load32 (cr3 : ℕ) (va : Word) : PmapM Word := do
  let h0 ← load16 cr3 va
  let h1 ← load16 cr3 (va + 2)
  return h1 ++ h0

def store32 (cr3 : ℕ) (va w : Word) : PmapM Unit := do
  storeByte cr3 va (w.truncate 8)
  storeByte cr3 (va + 1) ((w >>> 8).truncate 8)
  storeByte cr3 (va + 2) ((w >>> 16).truncate 8)
  storeByte cr3 (va + 3) ((w >>> 24).truncate 8)

end SistemasOperativos.Kern
