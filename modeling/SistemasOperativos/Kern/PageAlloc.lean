import Mathlib.Data.Finset.Basic
import SistemasOperativos.Kern.Boot

/-!
# The page allocator keeps its books

`AllocOk B cnt hand s`: the free list of `s` is threaded through exactly the frames that are
managed, have no reference and are not in the hands of the running kernel code, and `pp_ref`
is the 16-bit image of the number of references `cnt`. The four operations of the allocator
keep this with the evident change of `cnt` and `hand`.
-/

namespace SistemasOperativos.Kern

open Library

section PageInit

variable {npages pagesEnd : ℕ}

lemma mem_pageInit {f : ℕ} (h : f ∈ pageInit npages pagesEnd) : f < npages ∧ f ≠ 0 := by
  have key : ∀ (l acc : List ℕ), (∀ i ∈ l, i < npages) → (∀ i ∈ acc, i < npages ∧ i ≠ 0) →
      ∀ i ∈ l.foldl (fun list i =>
        let physaddres := i * pgsize
        if i ≠ 0 ∧ (physaddres < iophysmem ∨ physaddres > pagesEnd) ∧
            physaddres < npages * pgsize - 1 ∧ i * pgsize ≠ mpentryPaddr then i :: list
        else list) acc, i < npages ∧ i ≠ 0 := by
    intro l
    induction l with
    | nil => intro acc _ hacc; exact hacc
    | cons a l ih =>
      intro acc hl hacc
      rw [List.foldl_cons]
      apply ih
      · exact fun i hi => hl i (List.mem_cons_of_mem a hi)
      · intro i hi
        dsimp only at hi
        split at hi
        · rename_i hc
          rcases List.mem_cons.mp hi with rfl | hi
          · exact ⟨hl i List.mem_cons_self, hc.1⟩
          · exact hacc i hi
        · exact hacc i hi
  exact key (List.range npages) [] (fun i hi => List.mem_range.mp hi) (by simp) f h

lemma nodup_pageInit : (pageInit npages pagesEnd).Nodup := by
  have key : ∀ (l acc : List ℕ), l.Nodup → acc.Nodup → (∀ i ∈ acc, i ∉ l) →
      (l.foldl (fun list i =>
        let physaddres := i * pgsize
        if i ≠ 0 ∧ (physaddres < iophysmem ∨ physaddres > pagesEnd) ∧
            physaddres < npages * pgsize - 1 ∧ i * pgsize ≠ mpentryPaddr then i :: list
        else list) acc).Nodup := by
    intro l
    induction l with
    | nil => intro acc _ hacc _; exact hacc
    | cons a l ih =>
      intro acc hl hacc hdis
      obtain ⟨ha, hl⟩ := List.nodup_cons.mp hl
      rw [List.foldl_cons]
      have ha' : a ∉ acc := fun h => hdis a h List.mem_cons_self
      dsimp only
      split
      · apply ih _ hl (List.nodup_cons.mpr ⟨ha', hacc⟩)
        intro i hi
        rcases List.mem_cons.mp hi with rfl | hi
        · exact ha
        · exact fun h => hdis i hi (List.mem_cons_of_mem a h)
      · exact ih _ hl hacc (fun i hi h => hdis i hi (List.mem_cons_of_mem a h))
  exact key (List.range npages) [] List.nodup_range List.nodup_nil (by simp)

end PageInit

namespace Boot

variable (B : Boot)

lemma nodup_append : (B.kernTables ++ B.freeList).Nodup := B.perm.nodup_iff.mpr nodup_pageInit

lemma nodup_freeList : B.freeList.Nodup := (List.nodup_append.mp B.nodup_append).2.1

lemma notMem_kernTables {f : ℕ} (h : f ∈ B.freeList) : f ∉ B.kernTables := by
  intro hk
  exact (List.nodup_append.mp B.nodup_append).2.2 f hk f h rfl

lemma mem_pageInit_of_freeList {f : ℕ} (h : f ∈ B.freeList) : f ∈ pageInit B.npages B.pagesEnd :=
  B.perm.mem_iff.mp (List.mem_append_right _ h)

lemma mem_pageInit_of_kernTables {f : ℕ} (h : f ∈ B.kernTables) :
    f ∈ pageInit B.npages B.pagesEnd :=
  B.perm.mem_iff.mp (List.mem_append_left _ h)

lemma freeList_lt {f : ℕ} (h : f ∈ B.freeList) : f < B.npages :=
  (mem_pageInit (B.mem_pageInit_of_freeList h)).1

lemma freeList_ne_zero {f : ℕ} (h : f ∈ B.freeList) : f ≠ 0 :=
  (mem_pageInit (B.mem_pageInit_of_freeList h)).2

lemma kernTables_lt {f : ℕ} (h : f ∈ B.kernTables) : f < B.npages :=
  (mem_pageInit (B.mem_pageInit_of_kernTables h)).1

lemma kernPgdir_notMem_freeList : B.kernPgdir ∉ B.freeList :=
  fun h => B.kernPgdir_notMem (B.mem_pageInit_of_freeList h)

lemma npages_lt : B.npages < 2 ^ 20 := Nat.lt_of_le_of_lt B.npages_le (by decide)

lemma npages_pos : 0 < B.npages := Nat.lt_of_le_of_lt (Nat.zero_le _) B.kernPgdir_lt

end Boot

/-- The books of the page allocator. `bound` allows for the reference `page_insert` takes
before it drops the one of the mapping it replaces. -/
structure AllocOk (B : Boot) (cnt : ℕ → ℕ) (hand : Finset ℕ) (s : Pmap) : Prop where
  list : ∃ l : List ℕ, Linked s.ppLink s.pageFreeList l ∧ l.Nodup ∧
    (∀ f, f ∈ l ↔ f ∈ B.freeList ∧ cnt f = 0 ∧ f ∉ hand) ∧ ∀ f, f ∉ l → s.ppLink f = none
  count : ∀ f ∈ B.freeList, s.ppRef f = BitVec.ofNat 16 (cnt f)
  bound : ∀ f, cnt f ≤ 65536
  other : ∀ f, f ∉ B.freeList → f ≠ 0 → s.ppRef f = B.pmap.ppRef f

namespace AllocOk

variable {B : Boot} {cnt : ℕ → ℕ} {hand : Finset ℕ} {s : Pmap} {p : ℕ}

/-- The books do not mention the contents of memory. -/
lemma congr {t : Pmap} (h : AllocOk B cnt hand s) (hr : t.ppRef = s.ppRef)
    (hl : t.ppLink = s.ppLink) (hf : t.pageFreeList = s.pageFreeList) :
    AllocOk B cnt hand t := by
  obtain ⟨l, c, b, o⟩ := h
  refine ⟨?_, ?_, b, ?_⟩
  · rw [hl, hf]
    exact l
  · rw [hr]
    exact c
  · rw [hr]
    exact o

lemma ref_eq_zero (h : AllocOk B cnt hand s) (hp : p ∈ B.freeList) (hc : cnt p = 0) :
    s.ppRef p = 0 := by
  rw [h.count p hp, hc]
  rfl

lemma link_eq_none (h : AllocOk B cnt hand s) (hp : cnt p ≠ 0 ∨ p ∈ hand) :
    s.ppLink p = none := by
  obtain ⟨l, -, -, hl, hno⟩ := h.list
  apply hno
  rw [hl]
  rintro ⟨-, h0, hh⟩
  exact hp.elim (fun hc => hc h0) hh

/-- Taking the first page of the free list. -/
lemma pop (h : AllocOk B cnt hand s) (hp : s.pageFreeList = some p) (mem : ℕ → ℕ → Word) :
    (p ∈ B.freeList ∧ cnt p = 0 ∧ p ∉ hand) ∧
      AllocOk B cnt (insert p hand) { s with
        mem := mem
        pageFreeList := s.ppLink p
        ppLink := Function.update s.ppLink p none } := by
  obtain ⟨l, hlink, hnd, hl, hno⟩ := h.list
  rw [hp] at hlink
  obtain ⟨l', rfl, hlink'⟩ := linked_some hlink
  obtain ⟨hpl, hnd'⟩ := List.nodup_cons.mp hnd
  have hpm := (hl p).mp List.mem_cons_self
  refine ⟨hpm, ⟨l', hlink'.update hpl none, hnd', ?_, ?_⟩, h.count, h.bound, h.other⟩
  · intro f
    constructor
    · intro hf
      obtain ⟨h1, h2, h3⟩ := (hl f).mp (List.mem_cons_of_mem p hf)
      have hfp : f ≠ p := fun e => hpl (e ▸ hf)
      exact ⟨h1, h2, by simp [hfp, h3]⟩
    · rintro ⟨h1, h2, h3⟩
      rw [Finset.mem_insert, not_or] at h3
      have hf := (hl f).mpr ⟨h1, h2, h3.2⟩
      exact (List.mem_cons.mp hf).resolve_left h3.1
  · intro f hf
    dsimp only
    by_cases hfp : f = p
    · subst hfp
      rw [Function.update_self]
    · rw [Function.update_of_ne hfp]
      exact hno f (by simp [hfp, hf])

/-- Giving back a page that has no reference. -/
lemma push (h : AllocOk B cnt hand s) (hp : p ∈ B.freeList) (hc : cnt p = 0) (hh : p ∈ hand) :
    AllocOk B cnt (hand.erase p) { s with
      ppLink := Function.update s.ppLink p s.pageFreeList
      pageFreeList := some p } := by
  obtain ⟨l, hlink, hnd, hl, hno⟩ := h.list
  have hpl : p ∉ l := fun hpl => ((hl p).mp hpl).2.2 hh
  refine ⟨⟨p :: l, hlink.push hpl, List.nodup_cons.mpr ⟨hpl, hnd⟩, ?_, ?_⟩, h.count, h.bound,
    h.other⟩
  · intro f
    rw [List.mem_cons, hl, Finset.mem_erase]
    constructor
    · rintro (rfl | ⟨h1, h2, h3⟩)
      · exact ⟨hp, hc, fun h => h.1 rfl⟩
      · exact ⟨h1, h2, fun h => h3 h.2⟩
    · rintro ⟨h1, h2, h3⟩
      by_cases hfp : f = p
      · exact Or.inl hfp
      · exact Or.inr ⟨h1, h2, fun hf => h3 ⟨hfp, hf⟩⟩
  · intro f hf
    rw [List.mem_cons, not_or] at hf
    dsimp only
    rw [Function.update_of_ne hf.1]
    exact hno f hf.2

/-- One more reference to a page that is not free. -/
lemma inc (h : AllocOk B cnt hand s) (hp : p ∈ B.freeList) (hc : cnt p ≠ 0 ∨ p ∈ hand)
    (hb : cnt p < 65536) :
    AllocOk B (Function.update cnt p (cnt p + 1)) (hand.erase p)
      { s with ppRef := Function.update s.ppRef p (s.ppRef p + 1) } := by
  obtain ⟨l, hlink, hnd, hl, hno⟩ := h.list
  have hpl : p ∉ l := by
    rw [hl]
    rintro ⟨-, h0, hh⟩
    exact hc.elim (fun hc => hc h0) hh
  refine ⟨⟨l, hlink, hnd, ?_, hno⟩, ?_, ?_, ?_⟩
  · intro f
    by_cases hfp : f = p
    · subst hfp
      simp [hpl]
    · rw [Function.update_of_ne hfp, Finset.mem_erase, hl]
      simp [hfp]
  · intro f hf
    dsimp only
    by_cases hfp : f = p
    · subst hfp
      rw [Function.update_self, Function.update_self, h.count f hf, BitVec.ofNat_add]
      rfl
    · rw [Function.update_of_ne hfp, Function.update_of_ne hfp]
      exact h.count f hf
  · intro f
    by_cases hfp : f = p
    · subst hfp
      rw [Function.update_self]
      omega
    · rw [Function.update_of_ne hfp]
      exact h.bound f
  · intro f hf h0
    have hfp : f ≠ p := fun e => hf (e ▸ hp)
    dsimp only
    rw [Function.update_of_ne hfp]
    exact h.other f hf h0

/-- One reference less; the page is then in the hands of `page_decref` if it was the last. -/
lemma dec (h : AllocOk B cnt hand s) (hp : p ∈ B.freeList) (hc : cnt p ≠ 0) :
    AllocOk B (Function.update cnt p (cnt p - 1)) (insert p hand)
      { s with ppRef := Function.update s.ppRef p (s.ppRef p - 1) } := by
  obtain ⟨l, hlink, hnd, hl, hno⟩ := h.list
  have hpl : p ∉ l := by
    rw [hl]
    exact fun h => hc h.2.1
  refine ⟨⟨l, hlink, hnd, ?_, hno⟩, ?_, ?_, ?_⟩
  · intro f
    by_cases hfp : f = p
    · subst hfp
      simp [hpl]
    · rw [Function.update_of_ne hfp, Finset.mem_insert, hl]
      simp [hfp]
  · intro f hf
    dsimp only
    by_cases hfp : f = p
    · subst hfp
      rw [Function.update_self, Function.update_self, h.count f hf]
      obtain ⟨k, hk⟩ := Nat.exists_eq_succ_of_ne_zero hc
      rw [hk, Nat.succ_sub_one, Nat.succ_eq_add_one, BitVec.ofNat_add]
      exact BitVec.add_sub_cancel _ _
    · rw [Function.update_of_ne hfp, Function.update_of_ne hfp]
      exact h.count f hf
  · intro f
    by_cases hfp : f = p
    · subst hfp
      rw [Function.update_self]
      have := h.bound f
      omega
    · rw [Function.update_of_ne hfp]
      exact h.bound f
  · intro f hf h0
    have hfp : f ≠ p := fun e => hf (e ▸ hp)
    dsimp only
    rw [Function.update_of_ne hfp]
    exact h.other f hf h0

/-- A page with a reference need not be held. -/
lemma drop (h : AllocOk B cnt hand s) (hc : cnt p ≠ 0) : AllocOk B cnt (hand.erase p) s := by
  obtain ⟨l, hlink, hnd, hl, hno⟩ := h.list
  refine ⟨⟨l, hlink, hnd, ?_, hno⟩, h.count, h.bound, h.other⟩
  intro f
  rw [hl, Finset.mem_erase]
  by_cases hfp : f = p
  · subst hfp
    simp [hc]
  · simp [hfp]

/-- Frames outside the allocator may change their counter if they are frame 0. -/
lemma setRefZero (h : AllocOk B cnt hand s) (r : BitVec 16) :
    AllocOk B cnt hand { s with ppRef := Function.update s.ppRef 0 r } := by
  refine ⟨h.list, ?_, h.bound, ?_⟩
  · intro f hf
    have h0 := B.freeList_ne_zero hf
    dsimp only
    rw [Function.update_of_ne h0]
    exact h.count f hf
  · intro f hf h0
    dsimp only
    rw [Function.update_of_ne h0]
    exact h.other f hf h0

end AllocOk

/-! ### Rules of the operations -/

section Rules

variable {B : Boot} {cnt : ℕ → ℕ} {hand : Finset ℕ} {s : Pmap} {p : ℕ}

lemma pgnum_page2pa_lt (hp : p < B.npages) : pgnum (page2pa p) = p :=
  pgnum_page2pa (Nat.lt_trans hp B.npages_lt)

/-- What `page_alloc(ALLOC_ZERO)` does. -/
def allocated (s : Pmap) (p : ℕ) : Pmap :=
  { s with
    mem := Function.update s.mem p (fun _ => 0)
    pageFreeList := s.ppLink p
    ppLink := Function.update s.ppLink p none }

lemma pageAlloc_none (h : s.pageFreeList = none) : pageAlloc true s = .ok none s := by
  have hsat : Sat (pageAlloc true) s (fun r t => r = none ∧ t = s) (fun _ _ => False) := by
    unfold pageAlloc
    simp only [sat_bind, sat_get]
    rw [h]
    exact sat_pure.mpr ⟨rfl, rfl⟩
  obtain ⟨r, t, hrun, rfl, rfl⟩ := hsat.exists_ok
  exact hrun

lemma pageAlloc_sat (h : AllocOk B cnt hand s) (hn : s.npages = B.npages) :
    Sat (pageAlloc true) s
      (fun r t => match r with
        | none => s.pageFreeList = none ∧ t = s
        | some p => s.pageFreeList = some p ∧ t = allocated s p ∧
            (p ∈ B.freeList ∧ cnt p = 0 ∧ p ∉ hand) ∧ AllocOk B cnt (insert p hand) t)
      (fun _ _ => False) := by
  unfold pageAlloc
  simp only [sat_bind, sat_get]
  cases hf : s.pageFreeList with
  | none => exact sat_pure.mpr ⟨rfl, rfl⟩
  | some p =>
    obtain ⟨hp, hok⟩ := h.pop hf (Function.update s.mem p (fun _ => 0))
    have hlt := B.freeList_lt hp.1
    have hpa : ¬ p ≥ s.npages := by
      rw [hn]
      exact Nat.not_le.mpr hlt
    simp only [sat_bind, sat_modify, if_true, page2kva, kaddr, sat_get, pgnum_page2pa_lt hlt,
      if_neg hpa, sat_pure, memsetZero]
    exact ⟨trivial, rfl, hp, hok⟩

lemma pageFree_sat (h : AllocOk B cnt hand s) (hp : p ∈ B.freeList) (hc : cnt p = 0)
    (hh : p ∈ hand) :
    Sat (pageFree p) s
      (fun _ t => t = { s with
          ppLink := Function.update s.ppLink p s.pageFreeList
          pageFreeList := some p } ∧ AllocOk B cnt (hand.erase p) t)
      (fun _ _ => False) := by
  have hr := h.ref_eq_zero hp hc
  have hl := h.link_eq_none (p := p) (Or.inr hh)
  unfold pageFree
  simp only [sat_bind, sat_get, hr, hl, ne_eq, not_true_eq_false, or_self, if_false,
    sat_modify]
  exact ⟨trivial, h.push hp hc hh⟩

/-- `page_decref` on a page with a reference, and what it leaves alone. -/
lemma pageDecref_sat (h : AllocOk B cnt hand s) (hp : p ∈ B.freeList) (hc : cnt p ≠ 0)
    (hh : p ∉ hand) :
    Sat (pageDecref p) s
      (fun _ t => AllocOk B (Function.update cnt p (cnt p - 1)) hand t ∧ t.mem = s.mem ∧
        t.npages = s.npages ∧ t.kernPgdir = s.kernPgdir ∧ ∀ f ≠ p, t.ppRef f = s.ppRef f)
      (fun _ _ => False) := by
  have hrest : ∀ f ≠ p, Function.update s.ppRef p (s.ppRef p - 1) f = s.ppRef f :=
    fun f hf => Function.update_of_ne hf ..
  have hdec := h.dec hp hc
  unfold pageDecref
  simp only [sat_bind, sat_modify, sat_get]
  rw [sat_ite]
  constructor
  · intro hz
    have hc0 : Function.update cnt p (cnt p - 1) p = 0 := by
      have hcount : (0 : BitVec 16) = BitVec.ofNat 16 (Function.update cnt p (cnt p - 1) p) :=
        hz.symm.trans (hdec.count p hp)
      rw [Function.update_self] at hcount ⊢
      have hb := h.bound p
      have := congrArg BitVec.toNat hcount
      simp only [BitVec.toNat_ofNat] at this
      rw [show (0 : BitVec 16).toNat = 0 from rfl, Nat.mod_eq_of_lt (by omega)] at this
      exact this.symm
    refine (pageFree_sat hdec hp hc0 (Finset.mem_insert_self _ _)).mono ?_ (fun _ _ h => h)
    rintro - t ⟨rfl, hok⟩
    rw [Finset.erase_insert hh] at hok
    exact ⟨hok, rfl, rfl, rfl, hrest⟩
  · intro hz
    have hc0 : Function.update cnt p (cnt p - 1) p ≠ 0 := by
      intro h0
      exact hz (hdec.ref_eq_zero hp h0)
    have hok := hdec.drop hc0
    rw [Finset.erase_insert hh] at hok
    exact sat_pure.mpr ⟨hok, rfl, rfl, rfl, hrest⟩

end Rules

end SistemasOperativos.Kern
