import SistemasOperativos.Kern.KernelRuns

/-!
# What an environment gives back

`env_free` takes every reference that the environment holds off the books, and no other.
-/

namespace SistemasOperativos.Kern

open Library

/-- The environment whose directory or tables hold the pointer. -/
def owner : PageRef EnvIdx → EnvIdx
  | .dir i => i
  | .pde i _ => i
  | .pte i _ _ => i

/-- The number of references to the frame `f` that the environment `e` holds. -/
def heldBy (s : Kernel) (e : EnvIdx) (f : ℕ) : ℕ :=
  refs (fun r => if owner r = e then pointers (dirsOf s) s.pm.mem r else none) f

/-- `e` has been freed: its references are gone, the frames without any other are free, and the
memory of the others is as it was. -/
structure Released (B : Boot) (e : EnvIdx) (s t : Kernel) : Prop where
  count : ∀ f, (t.pm.ppRef f).toNat + heldBy s e f = (s.pm.ppRef f).toNat
  free : ∃ l l' : List ℕ, Linked s.pm.ppLink s.pm.pageFreeList l ∧
    Linked t.pm.ppLink t.pm.pageFreeList l' ∧ l'.Nodup ∧
    (∀ f, f ∈ l' ↔ f ∈ l ∨ (heldBy s e f ≠ 0 ∧ t.pm.ppRef f = 0)) ∧
    ∀ r : PageRef EnvIdx, owner r = e → r.Interior → ∀ f,
      pointers (dirsOf s) s.pm.mem r = some f → f ∈ l'
  others : ∀ r : PageRef EnvIdx, owner r ≠ e →
    pointers (dirsOf t) t.pm.mem r = pointers (dirsOf s) s.pm.mem r
  entries : ∀ j ≠ e, spacesOf t j = spacesOf s j
  directories : ∀ j d, dirsOf t j = some d → ∀ x, pdxUtop ≤ x → x < npdentries →
    t.pm.mem d x = s.pm.mem d x
  kernel : ∀ f, f ∉ B.freeList → t.pm.mem f = s.pm.mem f

variable {B : Boot} {s t : Kernel} {e : EnvIdx} {d f : ℕ}

/-- The pointers that are left. -/
lemma pointers_freed (hdirs : dirsOf t = Function.update (dirsOf s) e none)
    (hsp : spacesOf t = clearSpace (spacesOf s) e) (htab : OtherTables e s t) :
    pointers (dirsOf t) t.pm.mem =
      fun r => if owner r = e then none else pointers (dirsOf s) s.pm.mem r := by
  have hnone : dirsOf t e = none := by
    rw [hdirs, Function.update_self]
  funext r
  cases r with
  | dir j =>
    change dirsOf t j = if j = e then none else dirsOf s j
    rw [hdirs, Function.update_apply]
  | pde j x =>
    change tableAt target (dirsOf t) t.pm.mem j x =
      if j = e then none else tableAt target (dirsOf s) s.pm.mem j x
    by_cases hj : j = e
    · subst hj
      rw [if_pos rfl]
      unfold tableAt
      rw [hnone]
      rfl
    · rw [if_neg hj]
      exact htab.tables j hj x
  | pte j x y =>
    rw [pointers_pte, pointers_pte]
    change target (spacesOf t j (x, y)) = if j = e then none else target (spacesOf s j (x, y))
    rw [hsp]
    unfold clearSpace
    by_cases hj : j = e
    · rw [if_pos hj, if_pos hj, target_zero]
    · rw [if_neg hj, if_neg hj]

lemma heldBy_add (hptr : pointers (dirsOf t) t.pm.mem =
    fun r => if owner r = e then none else pointers (dirsOf s) s.pm.mem r) (f : ℕ) :
    refs (pointers (dirsOf t) t.pm.mem) f + heldBy s e f = refs (pointers (dirsOf s) s.pm.mem) f := by
  rw [hptr]
  exact refs_add_refs _ (fun r => owner r = e) f

/-- A managed frame has as many references as its counter says. -/
lemma PmapIn.ppRef_toNat (h : MemOk B s) (hf : f ∈ B.freeList) :
    (s.pm.ppRef f).toNat = refs (pointers (dirsOf s) s.pm.mem) f := by
  have hcount := h.alloc.count f hf
  have hbound := h.bound f
  rw [Pi.add_apply, Pi.zero_apply, Nat.add_zero] at hcount
  rw [hcount, BitVec.toNat_ofNat]
  exact Nat.mod_eq_of_lt hbound

lemma heldBy_of_unmanaged (h : MemOk B s) (hf : f ∉ B.freeList) : heldBy s e f = 0 := by
  unfold heldBy
  rw [refs_eq_zero_iff]
  intro r hr
  by_cases ho : owner r = e
  · rw [if_pos ho] at hr
    exact hf (h.tables.managed r f hr)
  · rw [if_neg ho] at hr
    cases hr

/-- Above `UTOP` all directories are alike, but for the entry that points back. -/
lemma TablesOk.above {ι : Type} {dirs dirs' : ι → Option ℕ} {mem mem' : ℕ → ℕ → Word} {i : ι}
    {x : ℕ} (h : TablesOk B dirs mem) (h' : TablesOk B dirs' mem') (hd : dirs i = some d)
    (hd' : dirs' i = some d) (hx : pdxUtop ≤ x) (hlt : x < npdentries) : mem' d x = mem d x := by
  by_cases hux : x = pdx uvpt
  · rw [hux, h.selfMap i d hd, h'.selfMap i d hd']
  · rw [h.kern i d x hd hx hlt hux, h'.kern i d x hd' hx hlt hux]

lemma released_of (h : MemOk B s) (ht : MemOk B t)
    (hdirs : dirsOf t = Function.update (dirsOf s) e none)
    (hsp : spacesOf t = clearSpace (spacesOf s) e) (htab : OtherTables e s t) :
    Released B e s t := by
  have hptr := pointers_freed hdirs hsp htab
  have hadd := heldBy_add hptr
  have hcount : ∀ f, (t.pm.ppRef f).toNat + heldBy s e f = (s.pm.ppRef f).toNat := by
    intro f
    by_cases hf : f ∈ B.freeList
    · rw [ht.ppRef_toNat hf, h.ppRef_toNat hf]
      exact hadd f
    · rw [heldBy_of_unmanaged h hf, Nat.add_zero]
      by_cases hzero : f = 0
      · rw [hzero, htab.zero]
      · rw [ht.alloc.other f hf hzero, h.alloc.other f hf hzero]
  constructor
  · exact hcount
  · obtain ⟨l, hl, -, hmem, -⟩ := h.alloc.list
    obtain ⟨l', hl', hnodup, hmem', -⟩ := ht.alloc.list
    have hiff : ∀ f, f ∈ l ↔ f ∈ B.freeList ∧ refs (pointers (dirsOf s) s.pm.mem) f = 0 := by
      intro f
      rw [hmem, Pi.add_apply, Pi.zero_apply, Nat.add_zero]
      simp
    have hiff' : ∀ f, f ∈ l' ↔ f ∈ B.freeList ∧ refs (pointers (dirsOf t) t.pm.mem) f = 0 := by
      intro f
      rw [hmem', Pi.add_apply, Pi.zero_apply, Nat.add_zero]
      simp
    refine ⟨l, l', hl, hl', hnodup, ?_, ?_⟩
    · intro f
      have hf := hadd f
      rw [hiff, hiff']
      constructor
      · rintro ⟨hfree, hzero⟩
        by_cases hheld : heldBy s e f = 0
        · exact .inl ⟨hfree, by omega⟩
        · have hnat := (ht.ppRef_toNat hfree).trans hzero
          exact .inr ⟨hheld, BitVec.eq_of_toNat_eq hnat⟩
      · rintro (⟨hfree, hzero⟩ | ⟨hheld, hzero⟩)
        · exact ⟨hfree, by omega⟩
        · have hfree : f ∈ B.freeList := by
            by_contra hno
            exact hheld (heldBy_of_unmanaged h hno)
          have hnat := ht.ppRef_toNat hfree
          rw [hzero] at hnat
          exact ⟨hfree, hnat.symm⟩
    · intro r ho hint f hr
      rw [hiff']
      refine ⟨h.tables.managed r f hr, ?_⟩
      rw [refs_eq_zero_iff]
      intro r' hr'
      rw [hptr] at hr'
      dsimp only at hr'
      -- a directory or a table has one pointer to it
      by_cases ho' : owner r' = e
      · rw [if_pos ho'] at hr'
        cases hr'
      · rw [if_neg ho'] at hr'
        rw [h.tables.excl r r' f hint hr hr'] at ho'
        exact ho' ho
  · intro r ho
    rw [hptr]
    dsimp only
    rw [if_neg ho]
  · intro j hj
    rw [hsp]
    funext n
    unfold clearSpace
    rw [if_neg hj]
  · intro j d hd x hx hlt
    have hd' : dirsOf s j = some d := by
      rw [hdirs, Function.update_apply] at hd
      split at hd
      · cases hd
      · exact hd
    exact TablesOk.above h.tables ht.tables hd' hd hx hlt
  · intro f hf
    rw [h.tables.other f hf, ht.tables.other f hf]

/-- `env_free` returns, and gives back what the environment held. -/
theorem envFree_releases (cpu : Cpu) (h : MemOk B s) (hlive : (s.envs e).envPgdir ≠ none) :
    ∃ t, envFree cpu e s = .ok ⟨⟩ t ∧ Released B e s t := by
  obtain ⟨d, hd⟩ := Option.ne_none_iff_exists'.mp hlive
  obtain ⟨⟨⟩, t, hrun, ht, hsp, hdirs, htab⟩ := (envFree_mem cpu (d := d) hd h).exists_ok
  exact ⟨t, hrun, released_of h ht hdirs hsp htab⟩

theorem envFree_releases_small : (smallStart.envs 0).envPgdir ≠ none ∧
    ∃ t, envFree 0 0 smallStart = .ok ⟨⟩ t ∧ Released smallBoot 0 smallStart t := by
  have hlive : (smallStart.envs 0).envPgdir ≠ none := by decide +kernel
  exact ⟨hlive, envFree_releases 0 (kernelOk_of_run smallStart_run smallStart_guarded).mem hlive⟩

end SistemasOperativos.Kern
