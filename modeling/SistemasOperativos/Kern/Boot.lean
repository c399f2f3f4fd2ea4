import SistemasOperativos.Library.Chain
import SistemasOperativos.Library.Runs
import SistemasOperativos.Kern.Trap

/-!
# Booting

What `i386_init` leaves behind. `Boot` is the machine after `mem_init` and `mp_init`:
`page_init` has built the free list and the kernel has taken some of its pages for the page
tables above `UTOP`. Then `env_create` makes the first environments, and every processor
enters the scheduler.
-/

namespace SistemasOperativos.Kern

open Library

/-- The page state after `mem_init`. -/
structure Boot where
  npages : ℕ
  /-- `PADDR(boot_alloc(0))` -/
  pagesEnd : ℕ
  kernPgdir : ℕ
  mem : ℕ → ℕ → Word
  /-- the page tables `pgdir_walk` made for the mappings above `UTOP` -/
  kernTables : List ℕ
  /-- `page_free_list` -/
  freeList : List ℕ
  npages_le : npages ≤ 65536
  kernPgdir_lt : kernPgdir < npages
  kernPgdir_notMem : kernPgdir ∉ pageInit npages pagesEnd
  perm : (kernTables ++ freeList).Perm (pageInit npages pagesEnd)
  /-- nothing is mapped below `UTOP` -/
  empty : ∀ x, x < pdxUtop → mem kernPgdir x = 0
  /-- `kern_pgdir` maps itself at `UVPT` -/
  selfMap : mem kernPgdir (pdx uvpt) = page2pa kernPgdir ||| pteP ||| pteU
  tables : ∀ x, pdxUtop ≤ x → x < npdentries → x ≠ pdx uvpt →
    mem kernPgdir x = 0 ∨ ∃ t ∈ kernTables, target (mem kernPgdir x) = some t
  /-- the mappings of `pages` and `envs` are of physical memory -/
  frames : ∀ x t, pdxUtop ≤ x → x < pdx uvpt → target (mem kernPgdir x) = some t →
    ∀ y, pgnum (mem t y) < npages
  /-- no mapping above `UTOP` is writable in user mode -/
  protect : ∀ t ∈ kernTables, ∀ y, (has (mem t y) pteU && has (mem t y) pteW) = false

def Boot.pmap (B : Boot) : Pmap where
  npages := B.npages
  kernPgdir := B.kernPgdir
  mem := B.mem
  ppRef := fun f => if f ∈ B.kernTables then 1 else 0
  ppLink := linksOf B.freeList
  pageFreeList := B.freeList.head?

/-- `env_init`: slot `i` links to slot `i + 1`. -/
def envInit (i : EnvIdx) : Env where
  envTf := .zero
  envLink := if h : i.val + 1 < 1024 then some ⟨i.val + 1, h⟩ else none
  envId := 0
  envParentId := 0
  envType := .user
  envStatus := .free
  envRuns := 0
  envCpunum := 0
  envPgdir := none
  envPgfaultUpcall := 0
  envIpcRecving := false
  envIpcDstva := 0
  envIpcValue := 0
  envIpcFrom := 0
  envIpcPerm := 0

def Kernel.boot (B : Boot) : Kernel where
  pm := B.pmap
  envs := envInit
  envFreeList := some 0
  cpus := fun _ => ⟨none, B.kernPgdir⟩

/-! ### `env_create` -/

def elfMagic : Word := 0x464C457F
def elfProgLoad : Word := 1

/-- A program image in kernel memory, by offset. -/
abbrev Binary := ℕ → Byte

def Binary.half (b : Binary) (off : ℕ) : BitVec 16 := b (off + 1) ++ b off
def Binary.word (b : Binary) (off : ℕ) : Word := b.half (off + 2) ++ b.half off

def Binary.eMagic (b : Binary) : Word := b.word 0
def Binary.eEntry (b : Binary) : Word := b.word 24
def Binary.ePhoff (b : Binary) : ℕ := (b.word 28).toNat
def Binary.ePhnum (b : Binary) : ℕ := (b.half 44).toNat

/-- A program header. -/
structure Proghdr where
  pType : Word
  pOffset : Word
  pVa : Word
  pFilesz : Word
  pMemsz : Word

def Binary.ph (b : Binary) (i : ℕ) : Proghdr :=
  let p := b.ePhoff + 32 * i
  ⟨b.word p, b.word (p + 4), b.word (p + 8), b.word (p + 16), b.word (p + 20)⟩

/-- The pages of `region_alloc`, from `va_aux` up to `va_len`. -/
def regionAllocLoop (e : EnvIdx) (vaLen : Word) : ℕ → Word → KernM Unit
  | 0, _ => return
  | fuel + 1, vaAux => do
    if vaAux < vaLen then
      match ← liftPm (pageAlloc true) with
      | none => throw .panic
      | some page =>
        let r ← liftPm (pageInsert ((← get).envs e).envPgdir page vaAux (pteW ||| pteU))
        if r.slt 0 then throw .panic
        regionAllocLoop e vaLen fuel (vaAux + 0x1000)

def regionAlloc (e : EnvIdx) (va len : Word) : KernM Unit :=
  regionAllocLoop e (roundup (va + len)) (npdentries * nptentries) (rounddown va)

/-- One program header of `load_icode`; the copies go through the page directory `cr3`. -/
def loadSegment (e : EnvIdx) (binary : Binary) (cr3 i : ℕ) : KernM Unit := do
  let ph := binary.ph i
  if ph.pType = elfProgLoad then
    if ph.pFilesz > ph.pMemsz then throw .panic
    regionAlloc e ph.pVa ph.pMemsz
    forM (List.range ph.pFilesz.toNat) fun k =>
      liftPm (storeByte cr3 (ph.pVa + BitVec.ofNat 32 k) (binary (ph.pOffset.toNat + k)))
    forM (List.range (ph.pMemsz - ph.pFilesz).toNat) fun k =>
      liftPm (storeByte cr3 (ph.pVa + ph.pFilesz + BitVec.ofNat 32 k) 0)

def loadIcode (cpu : Cpu) (e : EnvIdx) (binary : Binary) : KernM Unit := do
  if binary.eMagic ≠ elfMagic then throw .panic
  let d ← paddr ((← get).envs e).envPgdir
  lcr3 cpu d
  forM (List.range binary.ePhnum) (loadSegment e binary d)
  lcr3 cpu (← get).pm.kernPgdir
  modifyEnv e fun env => { env with envTf := { env.envTf with tfEip := binary.eEntry } }
  regionAlloc e (ustacktop - 0x1000) 0x1000

def envCreate (cpu : Cpu) (binary : Binary) (type : EnvType) : KernM Unit := do
  match ← envAlloc 0 with
  | .error _ => throw .panic
  | .ok e =>
    loadIcode cpu e binary
    modifyEnv e fun env => { env with envParentId := 0, envType := type }
    if type = .fs then
      modifyEnv e fun env => { env with
        envTf := { env.envTf with tfEflags := env.envTf.tfEflags ||| flIopl3 } }

/-- The linker puts the segments of a user program below `UTOP`. -/
def Binary.BelowUtop (b : Binary) : Prop :=
  ∀ i < b.ePhnum, (b.ph i).pType = elfProgLoad →
    (b.ph i).pVa.toNat + (b.ph i).pMemsz.toNat ≤ utop.toNat

/-- The states in which the processors enter the scheduler. -/
inductive Booted (B : Boot) : Kernel → Prop
  | memInit : Booted B (Kernel.boot B)
  | envCreate {s t : Kernel} {binary : Binary} {type : EnvType} {cpu : Cpu} (hs : Booted B s)
      (hb : binary.BelowUtop) (ht : Kern.envCreate cpu binary type s = .ok () t) : Booted B t

/-- A run of the machine: the transitions made since boot and the state reached. -/
abbrev Runs (B : Boot) := Run (Booted B) Step

end SistemasOperativos.Kern
