import SistemasOperativos.Kern.PageAlloc

/-!
# The memory set up by `mem_init`

`kern/pmap.c` up to `page_init`: what `i386_detect_memory` finds, `boot_alloc` and the first free
list. Sizes and addresses are 32-bit words here, as they are in the source.
-/

namespace SistemasOperativos.Kern

open Library

/-- The variables of `kern/pmap.c` while `mem_init` runs. -/
structure MemInit where
  /-- `end`, the first address behind the kernel -/
  kend : Word
  npages : Word
  /-- the static variable of `boot_alloc` -/
  nextfree : Word
  ppRef : ℕ → BitVec 16
  ppLink : ℕ → Option ℕ
  pageFreeList : Option ℕ

namespace MemInit

abbrev MemM := EStateM Exit MemInit

/-- `KADDR` -/
def kaddr (pa : Word) : MemM Word := do
  if pgnum pa ≥ (← get).npages.toNat then throw .panic
  return pa + kernbase

/-- `PADDR` -/
def paddr (kva : Word) : MemM Word := do
  if kva < kernbase then throw .panic
  return kva - kernbase

def page2kva (pp : ℕ) : MemM Word := kaddr (page2pa pp)

def pa2page (pa : Word) : MemM ℕ := do
  if pgnum pa ≥ (← get).npages.toNat then throw .panic
  return pgnum pa

/-- `i386_detect_memory`: the number of pages. The readings are kilobytes, the last one units of 64. -/
def i386DetectMemory (basemem extmem ext16mem : BitVec 16) : Word :=
  let ext16mem := ext16mem.setWidth 32 * 64
  let totalmem :=
    if ext16mem ≠ 0 then 16 * 1024 + ext16mem
    else if extmem.setWidth 32 ≠ (0 : Word) then 1 * 1024 + extmem.setWidth 32
    else basemem.setWidth 32
  totalmem / 4

/-- The first call of `boot_alloc` starts behind the kernel. -/
def initNextfree : MemM Unit := do
  if (← get).nextfree = 0 then modify fun s => { s with nextfree := roundup s.kend }

def bootAlloc (n : Word) : MemM Word := do
  initNextfree
  let result := (← get).nextfree
  if n = 0 then return result
  modify fun s => { s with nextfree := roundup (s.nextfree + n) }
  if result > (← kaddr ((← get).npages * 0x1000 - 1)) then throw .panic
  return result

/-- One frame of the loop of `page_init`. -/
def initPage (pagesEnd : Word) (i : ℕ) : MemM Unit := do
  let physaddres := page2pa i
  if i ≠ 0 ∧ (physaddres.toNat < iophysmem ∨ physaddres > pagesEnd) ∧
      physaddres < (← get).npages * 0x1000 - 1 ∧ (BitVec.ofNat 32 i * 0x1000).toNat ≠ mpentryPaddr then
    modify fun s => { s with
      ppRef := Function.update s.ppRef i 0
      ppLink := Function.update s.ppLink i s.pageFreeList
      pageFreeList := some i }

def pageInit : MemM Unit := do
  let pagesEnd ← paddr (← bootAlloc 0)
  forM (List.range (← get).npages.toNat) (initPage pagesEnd)

/-- The `memset` of a part of memory: the entry page directory maps four megabytes. -/
def memset (kva n : Word) : MemM Unit := do
  if kva < kernbase ∨ kernbase.toNat + ptsize.toNat < kva.toNat + n.toNat then throw .fault

/-- `sizeof(struct PageInfo)` -/
def pageInfoSize : Word := 8
/-- `sizeof(struct Env)` -/
def envSize : Word := 124

/-- `mem_init` up to `page_init`. -/
def memInit (basemem extmem ext16mem : BitVec 16) : MemM Unit := do
  modify fun s => { s with npages := i386DetectMemory basemem extmem ext16mem }
  let kernPgdir ← bootAlloc 0x1000
  memset kernPgdir 0x1000
  let _ ← paddr kernPgdir
  let sizePages := (← get).npages * pageInfoSize
  let pages ← bootAlloc sizePages
  memset pages sizePages
  let envs ← bootAlloc (1024 * envSize)
  memset envs (1024 * envSize)
  pageInit

/-- Where the next region starts. -/
def cursor (s : MemInit) : Word := if s.nextfree = 0 then roundup s.kend else s.nextfree

/-- The end of memory, as a kernel address. -/
def limit (s : MemInit) : ℕ := kernbase.toNat + s.npages.toNat * pgsize

@[simp] lemma limit_nextfree (s : MemInit) (w : Word) : ({ s with nextfree := w } : MemInit).limit = s.limit :=
  rfl

/-! ### `boot_alloc` -/

/-- `boot_alloc` finds no memory behind the cursor. -/
def NoMemory (s : MemInit) : Prop :=
  s.npages.toNat ≤ pgnum (s.npages * 0x1000 - 1) ∨ s.cursor > s.npages * 0x1000 - 1 + kernbase

variable {s t : MemInit} {n : Word}

lemma initNextfree_eq (s : MemInit) : initNextfree s = .ok () { s with nextfree := s.cursor } := by
  have hsat : Sat initNextfree s (fun _ t => t = { s with nextfree := s.cursor }) (fun _ _ => False) := by
    unfold initNextfree cursor
    simp only [sat_bind, sat_get, sat_ite, sat_modify, sat_pure]
    refine ⟨fun hzero => ?_, fun hne => ?_⟩
    · rw [if_pos hzero]
    · rw [if_neg hne]
  obtain ⟨⟨⟩, t, hrun, rfl⟩ := hsat.exists_ok
  exact hrun

lemma bootAlloc_zero (s : MemInit) : bootAlloc 0 s = .ok s.cursor { s with nextfree := s.cursor } := by
  have hsat : Sat (bootAlloc 0) s (fun r t => r = s.cursor ∧ t = { s with nextfree := s.cursor })
      (fun _ _ => False) := by
    unfold bootAlloc
    rw [sat_bind, sat_of_ok (initNextfree_eq s), sat_bind, sat_get, if_pos rfl, sat_pure]
    exact ⟨rfl, rfl⟩
  obtain ⟨r, t, hrun, rfl, rfl⟩ := hsat.exists_ok
  exact hrun

lemma bootAlloc_sat (hn : n ≠ 0) : Sat (bootAlloc n) s
    (fun r t => r = s.cursor ∧ t = { s with nextfree := roundup (s.cursor + n) } ∧ ¬s.NoMemory)
    (fun e _ => e = .panic ∧ s.NoMemory) := by
  unfold bootAlloc NoMemory kaddr
  rw [sat_bind, sat_of_ok (initNextfree_eq s)]
  simp only [sat_bind, sat_get, sat_ite, sat_modify, sat_pure, sat_throw, if_neg hn]
  refine ⟨fun hno => ⟨trivial, .inl hno⟩, fun hin => ⟨fun hgt => ⟨trivial, .inr hgt⟩,
    fun hle => ⟨trivial, trivial, ?_⟩⟩⟩
  rintro (hno | hgt)
  · exact hin hno
  · exact hle hgt

/-- A look at the next address changes nothing that a later call can see. -/
lemma bootAlloc_peek (n : Word) (s : MemInit) :
    bootAlloc n { s with nextfree := s.cursor } = bootAlloc n s := by
  have hcursor : ({ s with nextfree := s.cursor } : MemInit).cursor = s.cursor := by
    unfold cursor
    by_cases hzero : s.nextfree = 0
    · simp only [if_pos hzero, ite_self]
    · simp only [if_neg hzero]
  unfold bootAlloc
  simp only [bind, EStateM.bind, initNextfree_eq, hcursor]

end MemInit

/-! ### Runs of `boot_alloc` -/

open MemInit

/-- The boot allocator with the regions it has returned, the last one first. -/
structure BootRun where
  mem : MemInit
  regions : List (Word × Word)

/-- A call that returns. -/
inductive BootStep (s : BootRun) : Word → BootRun → Prop
  | peek {r : Word} {t : MemInit} (hrun : bootAlloc 0 s.mem = .ok r t) :
      BootStep s 0 { s with mem := t }
  | alloc {n r : Word} {t : MemInit} (hn : n ≠ 0) (hrun : bootAlloc n s.mem = .ok r t) :
      BootStep s n { mem := t, regions := (r, n) :: s.regions }

def BootStart (s : BootRun) : Prop :=
  s.mem.npages.toNat ≤ 65536 ∧ s.mem.nextfree = 0 ∧ s.regions = []

/-- What is promised of the regions. -/
structure RegionsOk (s : BootRun) : Prop where
  aligned : ∀ p ∈ s.regions, p.1.toNat % pgsize = 0
  kernel : ∀ p ∈ s.regions, s.mem.kend.toNat ≤ p.1.toNat
  below : ∀ p ∈ s.regions, p.1.toNat + p.2.toNat ≤ s.mem.limit
  apart : s.regions.Pairwise (fun p q => q.1.toNat + q.2.toNat ≤ p.1.toNat)

/-- A look at the start of the next region changes nothing. -/
def PeekOk (s : BootRun) : Prop :=
  ∃ c t, bootAlloc 0 s.mem = .ok c t ∧ (∀ n, bootAlloc n t = bootAlloc n s.mem) ∧
    ∀ n r u, n ≠ 0 → bootAlloc n s.mem = .ok r u → r = c

/-- A request is served with a region as promised, or it panics. -/
def RequestOk (s : BootRun) (n : Word) : Prop :=
  Sat (bootAlloc n) s.mem (fun r t => RegionsOk { mem := t, regions := (r, n) :: s.regions })
    (fun e _ => e = .panic)

/-- The condition on a call: the allocator has not gone round, and the request fits or starts behind
the end of memory; the kernel does not end in the last page. -/
def BootGuard (s : BootRun) (n : Word) : Prop :=
  (s.mem.nextfree ≠ 0 ∨ s.regions = []) ∧ (n = 0 ∨ (s.mem.kend.toNat ≤ 2 ^ 32 - pgsize ∧
    (s.mem.cursor.toNat + n.toNat ≤ s.mem.limit ∨ s.mem.limit ≤ s.mem.cursor.toNat)))

/-- The invariant: the cursor is behind everything, unless it has gone round. -/
structure BootIn (s : BootRun) : Prop where
  ok : RegionsOk s
  npages_le : s.mem.npages.toNat ≤ 65536
  aligned : s.mem.nextfree.toNat % pgsize = 0
  kernel : s.mem.nextfree ≠ 0 → s.mem.kend.toNat ≤ s.mem.nextfree.toNat
  regions : s.mem.nextfree ≠ 0 → ∀ p ∈ s.regions, p.1.toNat + p.2.toNat ≤ s.mem.nextfree.toNat

variable {s s' : BootRun} {n : Word}

lemma peekOk (s : BootRun) : PeekOk s := by
  refine ⟨s.mem.cursor, _, bootAlloc_zero s.mem, fun n => bootAlloc_peek n s.mem, ?_⟩
  intro n r u hn hrun
  exact ((bootAlloc_sat hn).of_ok hrun).1

lemma toNat_roundup_of_le {a : Word} (ha : a.toNat ≤ 2 ^ 32 - 4096) :
    a.toNat ≤ (roundup a).toNat ∧ (roundup a).toNat % 4096 = 0 := by
  rw [roundup_toNat]
  omega

lemma roundup_eq_zero {a : Word} (ha : 2 ^ 32 - 4096 < a.toNat) : roundup a = 0 := by
  have hlt := a.isLt
  apply BitVec.eq_of_toNat_eq
  rw [roundup_toNat, show (0 : Word).toNat = 0 from rfl]
  omega

lemma RegionsOk.move (hs : RegionsOk s) (w : Word) :
    RegionsOk { s with mem := { s.mem with nextfree := w } } where
  aligned := hs.aligned
  kernel := hs.kernel
  below p hp := by
    rw [limit_nextfree]
    exact hs.below p hp
  apart := hs.apart

namespace BootIn

/-- The cursor before a request. -/
lemma cursor (hs : BootIn s) (hend : s.mem.kend.toNat ≤ 2 ^ 32 - pgsize)
    (hgone : s.mem.nextfree ≠ 0 ∨ s.regions = []) :
    s.mem.cursor.toNat % 4096 = 0 ∧ s.mem.kend.toNat ≤ s.mem.cursor.toNat ∧
      ∀ p ∈ s.regions, p.1.toNat + p.2.toNat ≤ s.mem.cursor.toNat := by
  unfold MemInit.cursor
  split
  · rename_i hzero
    obtain ⟨hle, hal⟩ := toNat_roundup_of_le hend
    refine ⟨hal, hle, ?_⟩
    rw [hgone.resolve_left (fun h => h hzero)]
    exact fun p hp => absurd hp List.not_mem_nil
  · rename_i hne
    exact ⟨hs.aligned, hs.kernel hne, hs.regions hne⟩

/-- No memory is left at or behind the end. -/
lemma noMemory (hs : BootIn s) (hle : s.mem.limit ≤ s.mem.cursor.toNat) : s.mem.NoMemory := by
  have hcursor := s.mem.cursor.isLt
  have hpages := hs.npages_le
  unfold limit at hle
  rw [show kernbase.toNat = 4026531840 from rfl, show pgsize = 4096 from rfl] at hle
  by_cases hzero : s.mem.npages.toNat = 0
  · left
    rw [hzero]
    exact Nat.zero_le _
  · right
    show (s.mem.npages * 0x1000 - 1 + kernbase).toNat < s.mem.cursor.toNat
    have hmul : (s.mem.npages * 0x1000).toNat = s.mem.npages.toNat * 4096 := by
      rw [BitVec.toNat_mul, show (0x1000 : Word).toNat = 4096 from rfl]
      omega
    rw [BitVec.toNat_add, BitVec.toNat_sub, hmul, show (1 : Word).toNat = 1 from rfl,
      show kernbase.toNat = 4026531840 from rfl]
    omega

lemma grow (hs : BootIn s) (hn : n ≠ 0) (hg : BootGuard s n) (hmem : ¬s.mem.NoMemory) :
    BootIn { mem := { s.mem with nextfree := roundup (s.mem.cursor + n) }
             regions := (s.mem.cursor, n) :: s.regions } := by
  obtain ⟨hgone, hcall⟩ := hg
  obtain ⟨hend, hfits⟩ := hcall.resolve_left hn
  obtain ⟨hal, hkernel, hregions⟩ := hs.cursor hend hgone
  have hfit : s.mem.cursor.toNat + n.toNat ≤ s.mem.limit := hfits.resolve_right (fun h => hmem (hs.noMemory h))
  have hlimit : s.mem.limit ≤ 2 ^ 32 := by
    have hpages := hs.npages_le
    unfold limit
    rw [show kernbase.toNat = 4026531840 from rfl, show pgsize = 4096 from rfl]
    omega
  -- the new cursor is behind the region, unless it is the end of the address space
  have hnew : roundup (s.mem.cursor + n) ≠ 0 →
      s.mem.cursor.toNat + n.toNat ≤ (roundup (s.mem.cursor + n)).toNat := by
    intro hne
    have hlt : (s.mem.cursor + n).toNat ≤ 2 ^ 32 - 4096 := by
      by_contra hgt
      exact hne (roundup_eq_zero (by omega))
    have hsum : (s.mem.cursor + n).toNat = (s.mem.cursor.toNat + n.toNat) % 2 ^ 32 := BitVec.toNat_add _ _
    by_cases hwrap : s.mem.cursor.toNat + n.toNat = 2 ^ 32
    · exfalso
      apply hne
      have hzero : s.mem.cursor + n = 0 := BitVec.eq_of_toNat_eq (by rw [hsum, hwrap]; rfl)
      rw [hzero]
      decide
    · have hle := (toNat_roundup_of_le hlt).1
      omega
  refine ⟨⟨?_, ?_, ?_, ?_⟩, hs.npages_le, ?_, ?_, ?_⟩
  · intro p hp
    rcases List.mem_cons.mp hp with rfl | hp
    · exact hal
    · exact hs.ok.aligned p hp
  · intro p hp
    rcases List.mem_cons.mp hp with rfl | hp
    · exact hkernel
    · exact hs.ok.kernel p hp
  · intro p hp
    rw [limit_nextfree]
    rcases List.mem_cons.mp hp with rfl | hp
    · exact hfit
    · exact hs.ok.below p hp
  · exact List.pairwise_cons.mpr ⟨hregions, hs.ok.apart⟩
  · exact rounddown_aligned _
  · intro hne
    have hle := hnew hne
    dsimp only
    omega
  · intro hne p hp
    have hle := hnew hne
    dsimp only at hp ⊢
    rcases List.mem_cons.mp hp with rfl | hp
    · exact hle
    · have hbefore := hregions p hp
      omega

lemma peek (hs : BootIn s) (hgone : s.mem.nextfree ≠ 0 ∨ s.regions = []) :
    BootIn { s with mem := { s.mem with nextfree := s.mem.cursor } } := by
  by_cases hzero : s.mem.nextfree = 0
  · have hcursor : s.mem.cursor = roundup s.mem.kend := if_pos hzero
    refine ⟨hs.ok.move _, hs.npages_le, ?_, ?_, ?_⟩
    · dsimp only
      rw [hcursor]
      exact rounddown_aligned _
    · intro hne
      dsimp only at hne ⊢
      rw [hcursor] at hne ⊢
      apply (toNat_roundup_of_le _).1
      by_contra hgt
      exact hne (roundup_eq_zero (by omega))
    · intro _
      dsimp only
      rw [hgone.resolve_left (fun h => h hzero)]
      exact fun p hp => absurd hp List.not_mem_nil
  · have hcursor : s.mem.cursor = s.mem.nextfree := if_neg hzero
    refine ⟨hs.ok.move _, hs.npages_le, ?_, ?_, ?_⟩
    · dsimp only
      rw [hcursor]
      exact hs.aligned
    · dsimp only
      rw [hcursor]
      exact hs.kernel
    · dsimp only
      rw [hcursor]
      exact hs.regions

lemma start (hs : BootStart s) : BootIn s := by
  obtain ⟨hpages, hzero, hnil⟩ := hs
  have hno : ∀ p, p ∉ s.regions := by
    rw [hnil]
    exact fun p hp => absurd hp List.not_mem_nil
  refine ⟨⟨fun p hp => absurd hp (hno p), fun p hp => absurd hp (hno p), fun p hp => absurd hp (hno p), ?_⟩,
    hpages, ?_, fun hne => absurd hzero hne, fun hne => absurd hzero hne⟩
  · rw [hnil]
    exact List.Pairwise.nil
  · rw [hzero]
    rfl

lemma step (hs : BootIn s) (hg : BootGuard s n) (hstep : BootStep s n s') : BootIn s' := by
  cases hstep with
  | peek hrun =>
    rw [bootAlloc_zero] at hrun
    cases hrun
    exact hs.peek hg.1
  | alloc hn hrun =>
    obtain ⟨rfl, rfl, hmem⟩ := (bootAlloc_sat hn).of_ok hrun
    exact hs.grow hn hg hmem

lemma request (hs : BootIn s) (hn : n ≠ 0) (hg : BootGuard s n) : RequestOk s n := by
  refine (bootAlloc_sat hn).mono ?_ (fun _ _ he => he.1)
  rintro r t ⟨rfl, rfl, hmem⟩
  exact (hs.grow hn hg hmem).ok

end BootIn

/-- In every run whose calls meet the condition the regions are as promised, and so is the answer to a
next call that meets it. -/
theorem bootAlloc_of_run {h : List (Move BootRun Word)} (hr : Run BootStart BootStep h s)
    (hg : ∀ m ∈ h, BootGuard m.pre m.label) :
    RegionsOk s ∧ PeekOk s ∧ ∀ n, n ≠ 0 → BootGuard s n → RequestOk s n := by
  have hs : BootIn s := hr.induct hg (fun _ s => BootIn s) (fun _ hs => .start hs)
    (fun _ _ _ _ hs hi hstep => hs.step hi hstep)
  exact ⟨hs.ok, peekOk s, fun n hn hg => hs.request hn hg⟩

/-- A machine with four megabytes. -/
def smallMem : MemInit where
  kend := 0xf0112345
  npages := 1024
  nextfree := 0
  ppRef := fun _ => 0
  ppLink := fun _ => none
  pageFreeList := none

lemma smallMem_start : BootStart ⟨smallMem, []⟩ := ⟨by decide, rfl, rfl⟩

/-- The page directory is allocated, and then nine pages for a request of a byte more than eight. -/
theorem bootAlloc_of_small_run : ∃ s, s.regions = [(0xf0114000, 0x8001), (0xf0113000, 0x1000)] ∧
    RegionsOk s ∧ PeekOk s ∧ ∀ n, n ≠ 0 → BootGuard s n → RequestOk s n := by
  have hdir : bootAlloc 0x1000 smallMem = .ok 0xf0113000 (after (bootAlloc 0x1000) smallMem) :=
    eq_ok_of_resultOf (by decide +kernel)
  have hpages : bootAlloc 0x8001 (after (bootAlloc 0x1000) smallMem) = .ok 0xf0114000 _ :=
    eq_ok_of_resultOf (by decide +kernel)
  have hr := ((Run.start smallMem_start).next (BootStep.alloc (by decide) hdir)).next
    (BootStep.alloc (by decide) hpages)
  refine ⟨_, rfl, bootAlloc_of_run hr ?_⟩
  intro m hm
  rcases List.mem_append.mp hm with hm | hm
  · obtain rfl := List.mem_singleton.mp hm
    exact ⟨.inr rfl, .inr ⟨by decide, .inl (by decide)⟩⟩
  · obtain rfl := List.mem_singleton.mp hm
    exact ⟨.inl (by decide +kernel), .inr ⟨by decide +kernel, .inl (by decide +kernel)⟩⟩

/-- A request for sixteen megabytes is served on the machine with four. -/
theorem bootAlloc_behind_memory :
    ¬∀ h s, Run BootStart BootStep h s → RegionsOk s := by
  intro hall
  obtain ⟨t, hrun⟩ : ∃ t, bootAlloc 0x1000000 smallMem = .ok 0xf0113000 t :=
    ⟨_, eq_ok_of_resultOf (by decide +kernel)⟩
  have hr := (Run.start smallMem_start).next (BootStep.alloc (by decide) hrun)
  have hpages : t.npages = 1024 := by
    obtain ⟨-, rfl, -⟩ := (bootAlloc_sat (by decide)).of_ok hrun
    rfl
  have hbelow := (hall _ _ hr).below _ List.mem_cons_self
  unfold limit at hbelow
  dsimp only at hbelow
  rw [hpages] at hbelow
  exact absurd hbelow (by decide)

/-! ### `page_init` -/

/-- The condition under which `page_init` frees the frame `i`. -/
def Inits (npages pagesEnd : Word) (i : ℕ) : Prop :=
  i ≠ 0 ∧ ((page2pa i).toNat < iophysmem ∨ page2pa i > pagesEnd) ∧ page2pa i < npages * 0x1000 - 1 ∧
    (BitVec.ofNat 32 i * 0x1000).toNat ≠ mpentryPaddr

instance (npages pagesEnd : Word) : DecidablePred (Inits npages pagesEnd) :=
  fun i => inferInstanceAs (Decidable (i ≠ 0 ∧ _ ∧ _ ∧ _))

/-- The numbers below `n` that pass, the last one first. -/
def countedDown (P : ℕ → Prop) [DecidablePred P] : ℕ → List ℕ
  | 0 => []
  | n + 1 => if P n then n :: countedDown P n else countedDown P n

section CountedDown

variable {P : ℕ → Prop} [DecidablePred P] {i m : ℕ}

lemma countedDown_succ (P : ℕ → Prop) [DecidablePred P] (m : ℕ) :
    countedDown P (m + 1) = if P m then m :: countedDown P m else countedDown P m := rfl

lemma mem_countedDown : i ∈ countedDown P m ↔ i < m ∧ P i := by
  induction m with
  | zero => exact ⟨fun h => absurd h List.not_mem_nil, fun h => absurd h.1 (Nat.not_lt_zero i)⟩
  | succ m ih =>
    rw [countedDown_succ]
    by_cases hm : P m
    · rw [if_pos hm, List.mem_cons, ih]
      constructor
      · rintro (rfl | ⟨hlt, hi⟩)
        · exact ⟨Nat.lt_succ_self i, hm⟩
        · exact ⟨Nat.lt_succ_of_lt hlt, hi⟩
      · rintro ⟨hlt, hi⟩
        rcases Nat.eq_or_lt_of_le (Nat.le_of_lt_succ hlt) with rfl | hlt'
        · exact .inl rfl
        · exact .inr ⟨hlt', hi⟩
    · rw [if_neg hm, ih]
      constructor
      · exact fun ⟨hlt, hi⟩ => ⟨Nat.lt_succ_of_lt hlt, hi⟩
      · rintro ⟨hlt, hi⟩
        rcases Nat.eq_or_lt_of_le (Nat.le_of_lt_succ hlt) with rfl | hlt'
        · exact absurd hi hm
        · exact ⟨hlt', hi⟩

lemma nodup_countedDown : (countedDown P m).Nodup := by
  induction m with
  | zero => exact List.nodup_nil
  | succ m ih =>
    rw [countedDown_succ]
    split
    · refine List.nodup_cons.mpr ⟨fun h => ?_, ih⟩
      exact Nat.lt_irrefl m (mem_countedDown.mp h).1
    · exact ih

end CountedDown

lemma initPage_sat {t : MemInit} {E : Word} {i : ℕ} (hlist : Linked t.ppLink t.pageFreeList
    (countedDown (Inits t.npages E) i)) :
    Sat (initPage E i) t (fun _ u => u.npages = t.npages ∧
      Linked u.ppLink u.pageFreeList (countedDown (Inits t.npages E) (i + 1))) (fun _ _ => False) := by
  unfold initPage
  simp only [sat_bind, sat_get, sat_ite, sat_modify, sat_pure]
  rw [countedDown_succ]
  constructor
  · intro hi
    rw [if_pos (show Inits t.npages E i from hi)]
    exact ⟨trivial, hlist.push (fun h => Nat.lt_irrefl i (mem_countedDown.mp h).1)⟩
  · intro hi
    rw [if_neg (show ¬Inits t.npages E i from hi)]
    exact ⟨trivial, hlist⟩

/-- `page_init` threads the free list through the frames that pass. -/
lemma pageInit_sat {s : MemInit} (hbase : kernbase.toNat ≤ s.cursor.toNat) (hempty : s.pageFreeList = none) :
    Sat MemInit.pageInit s
      (fun _ t => t.npages = s.npages ∧ Linked t.ppLink t.pageFreeList
        (countedDown (Inits s.npages (s.cursor - kernbase)) s.npages.toNat))
      (fun _ _ => False) := by
  unfold MemInit.pageInit MemInit.paddr
  have hpaddr : ¬s.cursor < kernbase := Nat.not_lt.mpr hbase
  simp only [sat_bind, sat_of_ok (bootAlloc_zero s), sat_ite, sat_throw, sat_pure, sat_get]
  refine ⟨fun hlt => hpaddr hlt, fun _ => ?_⟩
  refine sat_forM_range (fun i (t : MemInit) => t.npages = s.npages ∧ Linked t.ppLink t.pageFreeList
    (countedDown (Inits s.npages (s.cursor - kernbase)) i)) s.npages.toNat ?_ ⟨rfl, hempty⟩
  rintro i t - ⟨hpages, hlist⟩
  rw [← hpages] at hlist ⊢
  exact (initPage_sat hlist).post (fun _ _ h => h)

/-- Without overflow the condition is the one on numbers. -/
lemma inits_iff {npages E : Word} {i : ℕ} (hn : npages.toNat * pgsize < 2 ^ 32) (hi : i < npages.toNat) :
    Inits npages E i ↔ i ≠ 0 ∧ (i * pgsize < iophysmem ∨ E.toNat < i * pgsize) ∧
      i * pgsize ≠ mpentryPaddr := by
  have hsize : pgsize = 4096 := rfl
  rw [hsize] at hn ⊢
  have hbelow : i * 4096 < npages.toNat * 4096 - 1 := by
    clear hn
    omega
  have hpa : (page2pa i).toNat = i * 4096 := by
    unfold page2pa
    rw [BitVec.toNat_shiftLeft, BitVec.toNat_ofNat, Nat.shiftLeft_eq]
    omega
  have hmul : (BitVec.ofNat 32 i * 0x1000).toNat = i * 4096 := by
    rw [BitVec.toNat_mul, BitVec.toNat_ofNat, show (0x1000 : Word).toNat = 4096 from rfl]
    omega
  have hlast : page2pa i < npages * 0x1000 - 1 := by
    show (page2pa i).toNat < (npages * 0x1000 - 1).toNat
    have hend : (npages * 0x1000).toNat = npages.toNat * 4096 := by
      rw [BitVec.toNat_mul, show (0x1000 : Word).toNat = 4096 from rfl]
      omega
    have hone : (1 : Word) ≤ npages * 0x1000 := by
      show (1 : Word).toNat ≤ (npages * 0x1000).toNat
      rw [hend, show (1 : Word).toNat = 1 from rfl]
      omega
    rw [hpa, BitVec.toNat_sub_of_le hone, hend]
    exact hbelow
  have hgt : page2pa i > E ↔ E.toNat < i * 4096 := by
    rw [← hpa]
    exact Iff.rfl
  unfold Inits
  rw [hpa, hmul, hgt]
  constructor
  · rintro ⟨hne, hout, -, hentry⟩
    exact ⟨hne, hout, hentry⟩
  · rintro ⟨hne, hout, hentry⟩
    exact ⟨hne, hout, hlast, hentry⟩

/-- The free list has precisely the frames that are not in use. -/
def FreesUnused (s : MemInit) (E : ℕ) : Prop :=
  Sat MemInit.pageInit s
    (fun _ t => ∃ l, Linked t.ppLink t.pageFreeList l ∧ l.Nodup ∧
      ∀ i, i ∈ l ↔ (1 ≤ i ∧ i < s.npages.toNat) ∧ i * pgsize ≠ mpentryPaddr ∧
        ¬(iophysmem ≤ i * pgsize ∧ i * pgsize < E))
    (fun _ _ => False)

/-- The frame at the end of what `boot_alloc` has handed out is on no list. -/
lemma pageInit_frees {s : MemInit} {E : ℕ} (hn : s.npages.toNat * pgsize < 2 ^ 32)
    (hE : kernbase.toNat + E = s.cursor.toNat) (hempty : s.pageFreeList = none) :
    Sat MemInit.pageInit s
      (fun _ t => ∃ l, Linked t.ppLink t.pageFreeList l ∧ l.Nodup ∧
        ∀ i, i ∈ l ↔ i < s.npages.toNat ∧ i ≠ 0 ∧ (i * pgsize < iophysmem ∨ E < i * pgsize) ∧
          i * pgsize ≠ mpentryPaddr)
      (fun _ _ => False) := by
  have hend : (s.cursor - kernbase).toNat = E := by
    rw [BitVec.toNat_sub_of_le (show kernbase.toNat ≤ s.cursor.toNat by omega)]
    omega
  refine (pageInit_sat (by omega) hempty).post ?_
  rintro - t ⟨-, hlist⟩
  refine ⟨_, hlist, nodup_countedDown, fun i => ?_⟩
  rw [mem_countedDown]
  constructor
  · rintro ⟨hlt, hi⟩
    rw [inits_iff hn hlt, hend] at hi
    exact ⟨hlt, hi⟩
  · rintro ⟨hlt, hi⟩
    refine ⟨hlt, ?_⟩
    rw [inits_iff hn hlt, hend]
    exact hi

/-- The frame at the next address of `boot_alloc` is free and on no list. -/
lemma not_freesUnused {s : MemInit} {E : ℕ} (hn : s.npages.toNat * pgsize < 2 ^ 32)
    (hE : kernbase.toNat + E = s.cursor.toNat) (haligned : E % pgsize = 0) (hlo : extphysmem ≤ E)
    (hlt : E < s.npages.toNat * pgsize) (hempty : s.pageFreeList = none) : ¬FreesUnused s E := by
  have hsize : pgsize = 4096 := rfl
  have hext : extphysmem = 1048576 := rfl
  have hio : iophysmem = 655360 := rfl
  have hmp : mpentryPaddr = 28672 := rfl
  have hfrees := pageInit_frees hn hE hempty
  unfold FreesUnused
  rw [hsize] at haligned hlt hfrees ⊢
  intro hall
  obtain ⟨⟨⟩, t, hrun, l, hl, -, hmem⟩ := hall.exists_ok
  obtain ⟨l', hl', -, hmem'⟩ := hfrees.of_ok hrun
  obtain rfl := hl.unique hl'
  have hin : E / 4096 ∈ l := (hmem _).mpr ⟨by omega, by omega, by omega⟩
  obtain ⟨-, -, hout, -⟩ := (hmem' _).mp hin
  omega

/-- `page_init` frees precisely what is not in use if `boot_alloc` has handed out all memory. -/
theorem pageInit_frees_iff {s : MemInit} {E : ℕ} (hn : s.npages.toNat * pgsize < 2 ^ 32)
    (hE : kernbase.toNat + E = s.cursor.toNat) (haligned : E % pgsize = 0) (hlo : extphysmem ≤ E)
    (hhi : E ≤ s.npages.toNat * pgsize) (hempty : s.pageFreeList = none) :
    FreesUnused s E ↔ E = s.npages.toNat * pgsize := by
  constructor
  · intro hall
    by_contra hne
    exact not_freesUnused hn hE haligned hlo (by omega) hempty hall
  · intro heq
    have hio : iophysmem < extphysmem := by decide
    refine (pageInit_frees hn hE hempty).post ?_
    rintro - t ⟨l, hl, hnodup, hmem⟩
    refine ⟨l, hl, hnodup, fun i => ?_⟩
    have hle : i < s.npages.toNat ↔ i * pgsize < s.npages.toNat * pgsize :=
      (Nat.mul_lt_mul_right (by decide)).symm
    rw [hmem i, hle]
    omega

/-- Four megabytes, of which the kernel has two. -/
theorem pageInit_frees_iff_small : FreesUnused { smallMem with nextfree := 0xf0200000 } 0x200000 ↔
    0x200000 = (1024 : Word).toNat * pgsize :=
  pageInit_frees_iff (s := { smallMem with nextfree := 0xf0200000 }) (by decide) (by decide) (by decide)
    (by decide) (by decide) rfl

/-- The frame 512 is lost. -/
theorem pageInit_loses : ¬FreesUnused { smallMem with nextfree := 0xf0200000 } 0x200000 :=
  not_freesUnused (s := { smallMem with nextfree := 0xf0200000 }) (by decide) (by decide) (by decide)
    (by decide) (by decide) rfl

/-- The list of `page_init` is the one that the page allocator starts with. -/
lemma countedDown_inits {npages E : Word} (hn : npages.toNat * pgsize < 2 ^ 32) :
    countedDown (Inits npages E) npages.toNat = pageInit npages.toNat E.toNat := by
  have key : ∀ m ≤ npages.toNat, countedDown (Inits npages E) m =
      (List.range m).foldl (fun list i =>
        let physaddres := i * pgsize
        if i ≠ 0 ∧ (physaddres < iophysmem ∨ physaddres > E.toNat) ∧
            physaddres < npages.toNat * pgsize - 1 ∧ i * pgsize ≠ mpentryPaddr then i :: list
        else list) [] := by
    intro m
    induction m with
    | zero => exact fun _ => rfl
    | succ m ih =>
      intro hm
      rw [List.range_succ, List.foldl_append, ← ih (by omega), List.foldl_cons, List.foldl_nil]
      have hlast : m * pgsize < npages.toNat * pgsize - 1 := by
        have hsize : pgsize = 4096 := rfl
        rw [hsize]
        clear hn
        omega
      rw [countedDown_succ]
      by_cases hi : Inits npages E m
      · obtain ⟨hne, hout, hentry⟩ := (inits_iff hn (by omega)).mp hi
        rw [if_pos hi, if_pos ⟨hne, hout, hlast, hentry⟩]
      · rw [if_neg hi, if_neg]
        rintro ⟨hne, hout, -, hentry⟩
        exact hi ((inits_iff hn (by omega)).mpr ⟨hne, hout, hentry⟩)
  exact key _ le_rfl

/-! ### Addresses of pages -/

/-- Where the linker puts the end of the kernel: behind its start, in what the entry page directory
maps. -/
structure KernelEnd where
  kend : Word
  lo : 0xf0100000 ≤ kend
  hi : kend ≤ kernbase + ptsize

/-- The variables of `kern/pmap.c` before `mem_init`. -/
def KernelEnd.atBoot (K : KernelEnd) : MemInit where
  kend := K.kend
  npages := 0
  nextfree := 0
  ppRef := fun _ => 0
  ppLink := fun _ => none
  pageFreeList := none

/-- The kernel reaches every free page through its own mapping, and finds it from its address. -/
def PagesReachable (t : MemInit) : Prop :=
  ∀ l, Linked t.ppLink t.pageFreeList l → ∀ p ∈ l,
    Sat (MemInit.page2kva p) t (fun kva u => kernbase ≤ kva ∧
      Sat (MemInit.paddr kva) u (fun pa _ => pa = page2pa p) (fun _ _ => False)) (fun _ _ => False) ∧
    Sat (MemInit.pa2page (page2pa p)) t (fun q _ => q = p) (fun _ _ => False)

/-- The size of memory does not wrap and every page that `mem_init` frees is reachable. -/
def DetectOk (K : KernelEnd) (basemem extmem ext16mem : BitVec 16) : Prop :=
  (i386DetectMemory basemem extmem ext16mem).toNat * pgsize < 2 ^ 32 ∧
    Sat (memInit basemem extmem ext16mem) K.atBoot (fun _ t => PagesReachable t) (fun _ _ => True)

variable {basemem extmem ext16mem : BitVec 16}

lemma i386DetectMemory_toNat : (i386DetectMemory basemem extmem ext16mem).toNat =
    if ext16mem.toNat ≠ 0 then (16384 + ext16mem.toNat * 64) / 4
    else if extmem.toNat ≠ 0 then (1024 + extmem.toNat) / 4 else basemem.toNat / 4 := by
  have hb := basemem.isLt
  have he := extmem.isLt
  have hx := ext16mem.isLt
  have hmul : (ext16mem.setWidth 32 * 64 : Word).toNat = ext16mem.toNat * 64 := by
    rw [BitVec.toNat_mul, BitVec.toNat_setWidth, show (64 : Word).toNat = 64 from rfl]
    omega
  have hzero : (ext16mem.setWidth 32 * 64 : Word) ≠ 0 ↔ ext16mem.toNat ≠ 0 := by
    rw [Ne, ← BitVec.toNat_inj, hmul, show (0 : Word).toNat = 0 from rfl]
    omega
  have hext : (extmem.setWidth 32 : Word).toNat = extmem.toNat := by
    rw [BitVec.toNat_setWidth]
    omega
  have hextzero : (extmem.setWidth 32 : Word) ≠ 0 ↔ extmem.toNat ≠ 0 := by
    rw [Ne, ← BitVec.toNat_inj, hext, show (0 : Word).toNat = 0 from rfl]
  have hfour : (4 : Word).toNat = 4 := rfl
  unfold i386DetectMemory
  dsimp only
  rw [BitVec.toNat_udiv, hfour]
  by_cases hx0 : ext16mem.toNat ≠ 0
  · rw [if_pos (hzero.mpr hx0), if_pos hx0, BitVec.toNat_add, hmul,
      show (16 * 1024 : Word).toNat = 16384 from rfl]
    omega
  · rw [if_neg (fun h => hx0 (hzero.mp h)), if_neg hx0]
    by_cases he0 : extmem.toNat ≠ 0
    · rw [if_pos (hextzero.mpr he0), if_pos he0, BitVec.toNat_add, hext,
        show (1 * 1024 : Word).toNat = 1024 from rfl]
      omega
    · rw [if_neg (fun h => he0 (hextzero.mp h)), if_neg he0, BitVec.toNat_setWidth]
      omega

/-- Memory wraps from four gigabytes on. -/
lemma detected_lt_iff : (i386DetectMemory basemem extmem ext16mem).toNat * pgsize < 2 ^ 32 ↔
    ext16mem.toNat < 65280 := by
  have hb := basemem.isLt
  have he := extmem.isLt
  have hsize : pgsize = 4096 := rfl
  rw [i386DetectMemory_toNat, hsize]
  split
  · omega
  · split
    · omega
    · omega

/-- The variables that the allocations leave alone. -/
def Untouched (N : Word) (t : MemInit) : Prop := t.npages = N ∧ t.pageFreeList = none

lemma bootAlloc_untouched (N n : Word) : Keeps (Untouched N) (fun _ _ => True) (bootAlloc n) := by
  intro s hs
  by_cases hn : n = 0
  · rw [hn, sat_of_ok (bootAlloc_zero s)]
    exact ⟨hs.1, hs.2⟩
  · refine (bootAlloc_sat hn).mono ?_ (fun _ _ _ => trivial)
    rintro r t ⟨-, rfl, -⟩
    exact ⟨hs.1, hs.2⟩

lemma memset_untouched (N kva n : Word) : Keeps (Untouched N) (fun _ _ => True) (memset kva n) := by
  intro s hs
  unfold memset
  simp only [sat_ite, sat_throw, sat_pure]
  exact ⟨fun _ => trivial, fun _ => hs⟩

lemma paddr_untouched (N kva : Word) : Keeps (Untouched N) (fun _ _ => True) (MemInit.paddr kva) := by
  intro s hs
  unfold MemInit.paddr
  simp only [sat_bind, sat_ite, sat_throw, sat_pure]
  exact ⟨fun _ => trivial, fun _ => hs⟩

/-- All memory below `KERNBASE` from above is mapped by the kernel. -/
lemma pagesReachable_of_le {t : MemInit} {P : ℕ → Prop} [DecidablePred P] (hle : t.npages.toNat ≤ 65536)
    (hlist : Linked t.ppLink t.pageFreeList (countedDown P t.npages.toNat)) : PagesReachable t := by
  intro l hl p hp
  obtain rfl := hl.unique hlist
  have hlt : p < t.npages.toNat := (mem_countedDown.mp hp).1
  have hnum : pgnum (page2pa p) = p := pgnum_page2pa (by omega)
  have hpa : (page2pa p).toNat = p * 4096 := by
    unfold page2pa
    rw [BitVec.toNat_shiftLeft, BitVec.toNat_ofNat, Nat.shiftLeft_eq]
    omega
  have hbase : kernbase.toNat = 4026531840 := rfl
  have hkva : kernbase ≤ page2pa p + kernbase := by
    show kernbase.toNat ≤ (page2pa p + kernbase).toNat
    rw [BitVec.toNat_add, hpa, hbase]
    omega
  unfold MemInit.page2kva MemInit.kaddr MemInit.pa2page MemInit.paddr
  simp only [sat_bind, sat_get, sat_ite, sat_throw, sat_pure, hnum]
  have hno : ¬p ≥ t.npages.toNat := Nat.not_le.mpr hlt
  refine ⟨⟨hno, fun _ => ⟨hkva, fun h => absurd hkva (BitVec.not_le.mpr h), fun _ => ?_⟩⟩, hno, fun _ => trivial⟩
  exact BitVec.add_sub_cancel _ _

/-- Behind 256 megabytes the first allocation finds no memory: the end of memory has no kernel address. -/
lemma noMemory_of_big (K : KernelEnd) {N : Word} (hwrap : N.toNat * pgsize < 2 ^ 32) (hbig : 65536 < N.toNat) :
    ({ K.atBoot with npages := N } : MemInit).NoMemory := by
  right
  show (N * 0x1000 - 1 + kernbase).toNat < (roundup K.kend).toNat
  have hlo : (0xf0100000 : Word).toNat ≤ K.kend.toNat := K.lo
  have hhi : K.kend.toNat ≤ (kernbase + ptsize).toNat := K.hi
  rw [show (0xf0100000 : Word).toNat = 4027580416 from rfl] at hlo
  rw [show (kernbase + ptsize).toNat = 4030726144 from rfl] at hhi
  have hround := (toNat_roundup_of_le (a := K.kend) (by omega)).1
  have hmul : (N * 0x1000).toNat = N.toNat * 4096 := by
    rw [BitVec.toNat_mul, show (0x1000 : Word).toNat = 4096 from rfl]
    exact Nat.mod_eq_of_lt hwrap
  rw [show pgsize = 4096 from rfl] at hwrap
  have hsum : (N * 0x1000 - 1 + kernbase).toNat = N.toNat * 4096 - 1 - 268435456 := by
    rw [BitVec.toNat_add, BitVec.toNat_sub, hmul, show (1 : Word).toNat = 1 from rfl,
      show kernbase.toNat = 4026531840 from rfl]
    omega
  rw [hsum]
  omega

/-- The size of memory does not wrap, and every page that is freed is reachable, up to four gigabytes. -/
theorem detectOk_iff (K : KernelEnd) : DetectOk K basemem extmem ext16mem ↔ ext16mem.toNat < 65280 := by
  unfold DetectOk
  rw [detected_lt_iff]
  refine ⟨fun h => h.1, fun hlt => ⟨hlt, ?_⟩⟩
  have hwrap : (i386DetectMemory basemem extmem ext16mem).toNat * pgsize < 2 ^ 32 := detected_lt_iff.mpr hlt
  generalize hN : i386DetectMemory basemem extmem ext16mem = N at hwrap
  unfold memInit
  rw [hN, sat_bind, sat_modify]
  by_cases hbig : 65536 < N.toNat
  · rw [sat_bind]
    refine (bootAlloc_sat (by decide)).mono ?_ (fun _ _ _ => trivial)
    rintro r t ⟨-, -, hmem⟩
    exact absurd (noMemory_of_big K hwrap hbig) hmem
  · -- the allocations leave the number of pages and the free list alone
    have hstart : Untouched N { K.atBoot with npages := N } := ⟨rfl, rfl⟩
    rw [sat_bind]
    refine (bootAlloc_untouched N _ _ hstart).post ?_
    intro kernPgdir s hs
    rw [sat_bind]
    refine (memset_untouched N _ _ s hs).post ?_
    rintro - s hs
    rw [sat_bind]
    refine (paddr_untouched N _ s hs).post ?_
    rintro - s hs
    rw [sat_bind, sat_get, sat_bind]
    refine (bootAlloc_untouched N _ s hs).post ?_
    intro pages s hs
    rw [sat_bind]
    refine (memset_untouched N _ _ s hs).post ?_
    rintro - s hs
    rw [sat_bind]
    refine (bootAlloc_untouched N _ s hs).post ?_
    intro envs s hs
    rw [sat_bind]
    refine (memset_untouched N _ _ s hs).post ?_
    rintro - s ⟨hpages, hempty⟩
    by_cases hbase : kernbase.toNat ≤ s.cursor.toNat
    · refine (pageInit_sat hbase hempty).mono ?_ (fun _ _ h => h.elim)
      rintro - t ⟨hsame, hlist⟩
      rw [← hsame] at hlist
      refine pagesReachable_of_le ?_ hlist
      rw [hsame, hpages]
      exact Nat.not_lt.mp hbig
    · unfold MemInit.pageInit MemInit.paddr
      have hlow : s.cursor < kernbase := Nat.not_le.mp hbase
      simp only [sat_bind, sat_of_ok (bootAlloc_zero s), sat_ite, sat_throw, hlow, not_true, false_implies,
        implies_true, and_self]

/-- A reading of four gigabytes. -/
theorem detectOk_fails : ¬∀ (K : KernelEnd) (basemem extmem ext16mem : BitVec 16),
    DetectOk K basemem extmem ext16mem := by
  intro hall
  have hlt := (hall ⟨0xf0112345, by decide, by decide⟩ 0 0 65535).1
  exact absurd hlt (by decide)

end SistemasOperativos.Kern
