import SistemasOperativos.Kern.KernelRuns

/-!
# The books of the page allocator

Between two kernel entries the reference count of every page is the number of its references,
and the free list holds exactly the pages without one, each once.
-/

namespace SistemasOperativos.Kern

open Library

/-- The references to frame `f`: live page directories, page directory entries and mappings
below `UTOP`, and the entries above `UTOP` that `mem_init` made. -/
def references (B : Boot) (s : Kernel) (f : ℕ) : ℕ :=
  refs (pointers (dirsOf s) s.pm.mem) f + if f ∈ B.kernTables then 1 else 0

/-- The books are right: reference counts are numbers of references, and the free list holds
each page that `page_init` put on it as often as it should, and no other. -/
structure BooksOk (B : Boot) (s : Kernel) : Prop where
  count : ∀ f ∈ pageInit B.npages B.pagesEnd, (s.pm.ppRef f).toNat = references B s f
  free : ∃ l, Linked s.pm.ppLink s.pm.pageFreeList l ∧ ∀ f, l.count f =
    if f ∈ pageInit B.npages B.pagesEnd ∧ references B s f = 0 then 1 else 0

variable {B : Boot} {s : Kernel} {h : List (Move Kernel Event)}

/-- The page tables above `UTOP` have no reference below. -/
lemma refs_kernTable (hok : MemOk B s) {f : ℕ} (hf : f ∉ B.freeList) :
    refs (pointers (dirsOf s) s.pm.mem) f = 0 := by
  rw [refs_eq_zero_iff]
  exact fun r hr => hf (hok.tables.managed r f hr)

lemma MemOk.books (hok : MemOk B s) : BooksOk B s := by
  constructor
  · intro f hf
    unfold references
    by_cases hk : f ∈ B.kernTables
    · have hne : f ≠ 0 := (mem_pageInit hf).2
      have hfree : f ∉ B.freeList := fun hc => B.notMem_kernTables hc hk
      rw [hok.alloc.other f hfree hne, refs_kernTable hok hfree, if_pos hk]
      show (if f ∈ B.kernTables then (1 : BitVec 16) else 0).toNat = _
      rw [if_pos hk]
      rfl
    · have hfree : f ∈ B.freeList :=
        (List.mem_append.mp (B.perm.mem_iff.mpr hf)).resolve_left hk
      rw [hok.alloc.count f hfree, Pi.add_apply, Pi.zero_apply, if_neg hk, BitVec.toNat_ofNat,
        Nat.add_zero]
      exact Nat.mod_eq_of_lt (hok.bound f)
  · obtain ⟨l, hlink, hnd, hl, -⟩ := hok.alloc.list
    refine ⟨l, hlink, fun f => ?_⟩
    have hiff : f ∈ l ↔ f ∈ pageInit B.npages B.pagesEnd ∧ references B s f = 0 := by
      rw [hl, Pi.add_apply, Pi.zero_apply, Nat.add_zero]
      unfold references
      constructor
      · rintro ⟨hf, h0, -⟩
        refine ⟨B.mem_pageInit_of_freeList hf, ?_⟩
        rw [if_neg (B.notMem_kernTables hf), Nat.add_zero]
        exact h0
      · rintro ⟨hf, h0⟩
        have hk : f ∉ B.kernTables := by
          intro hk
          rw [if_pos hk] at h0
          omega
        exact ⟨(List.mem_append.mp (B.perm.mem_iff.mpr hf)).resolve_left hk, by omega,
          Finset.notMem_empty f⟩
    by_cases hf : f ∈ l
    · rw [if_pos (hiff.mp hf)]
      exact List.count_eq_one_of_mem hnd hf
    · rw [if_neg (fun hc => hf (hiff.mpr hc))]
      exact List.count_eq_zero_of_not_mem hf

/-- In a run whose calls pass the guard the books are right in every state. -/
theorem books_of_run (hr : Runs B h s) (hg : Guarded h) : BooksOk B s :=
  (kernelOk_of_run hr hg).mem.books

theorem books_of_run_alloc : BooksOk smallBoot (smallAlloc 7) :=
  books_of_run (smallAlloc_run 7 (by decide +kernel)) (smallAlloc_guarded 7)

/-- The small machine after `sys_page_map` of an unmapped page below the stack. -/
def smallMap : Kernel :=
  after (trap 0 (callFrame 5 0 0xeebfb000 0 0xeebfa000 5) 0 0) smallStart

/-- Then the new mapping is removed. -/
def smallMapUnmap : Kernel :=
  after (trap 0 (callFrame 6 0 0xeebfa000 0 0 0) 0 0) smallMap

/-- `sys_page_map` accepts an unmapped source that has a page table and maps frame 0;
`sys_page_unmap` then puts frame 0 on the free list. -/
theorem books_fail : ∃ h, Runs smallBoot h smallMapUnmap ∧ ¬ BooksOk smallBoot smallMapUnmap := by
  have hmap := Run.call smallStart_run (by decide +kernel)
    (show exitOf (trap 0 (callFrame 5 0 0xeebfb000 0 0xeebfa000 5) 0 0) smallStart =
      some .leave by decide +kernel)
  have hunmap := Run.call hmap (by decide +kernel)
    (show exitOf (trap 0 (callFrame 6 0 0xeebfa000 0 0 0) 0 0) smallMap = some .leave by
      decide +kernel)
  refine ⟨_, hunmap, fun hb => ?_⟩
  have hhead : smallMapUnmap.pm.pageFreeList = some 0 := by decide +kernel
  obtain ⟨l, hlink, hcount⟩ := hb.free
  rw [hhead] at hlink
  obtain ⟨l', rfl, -⟩ := linked_some hlink
  have h0 := hcount 0
  rw [List.count_cons_self, if_neg (fun hc => (mem_pageInit hc.1).2 rfl)] at h0
  omega

end SistemasOperativos.Kern
