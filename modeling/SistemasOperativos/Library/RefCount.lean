import Mathlib.Data.Fintype.Card
import Mathlib.Data.Finset.Card

/-!
# Reference counts of a finite map

`refs m f` is the number of slots of `m` that hold `f`. The lemmas say how it changes when
one slot is filled, cleared or overwritten.
-/

namespace SistemasOperativos.Library

variable {R F : Type} [Fintype R] [DecidableEq F]

/-- The number of slots holding `f`. -/
def refs (m : R → Option F) (f : F) : ℕ := (Finset.univ.filter (fun r => m r = some f)).card

lemma refs_pos_iff {m : R → Option F} {f : F} : 0 < refs m f ↔ ∃ r, m r = some f := by
  unfold refs
  rw [Finset.card_pos]
  constructor
  · rintro ⟨r, hr⟩
    exact ⟨r, by simpa using hr⟩
  · rintro ⟨r, hr⟩
    exact ⟨r, by simpa using hr⟩

lemma refs_eq_zero_iff {m : R → Option F} {f : F} : refs m f = 0 ↔ ∀ r, m r ≠ some f := by
  rw [← not_iff_not, ← Ne, ← Nat.pos_iff_ne_zero, refs_pos_iff]
  push Not
  rfl

/-- The slots that satisfy `p` and the others. -/
lemma refs_add_refs (m : R → Option F) (p : R → Prop) [DecidablePred p] (f : F) :
    refs (fun r => if p r then none else m r) f + refs (fun r => if p r then m r else none) f =
      refs m f := by
  have hrest : Finset.univ.filter (fun r => (if p r then none else m r) = some f) =
      (Finset.univ.filter (fun r => m r = some f)).filter (fun r => ¬p r) := by
    ext r
    by_cases hp : p r
    · simp [hp]
    · simp [hp]
  have hpart : Finset.univ.filter (fun r => (if p r then m r else none) = some f) =
      (Finset.univ.filter (fun r => m r = some f)).filter p := by
    ext r
    by_cases hp : p r
    · simp [hp]
    · simp [hp]
  unfold refs
  rw [hrest, hpart, Nat.add_comm]
  exact Finset.card_filter_add_card_filter_not p

variable [DecidableEq R]

/-- Filling an empty slot. -/
lemma refs_fill {m : R → Option F} {r : R} {f : F} (h : m r = none) (g : F) :
    refs (Function.update m r (some f)) g = refs m g + if g = f then 1 else 0 := by
  unfold refs
  by_cases hg : g = f
  · subst hg
    have hset : Finset.univ.filter (fun x => Function.update m r (some g) x = some g) =
        insert r (Finset.univ.filter (fun x => m x = some g)) := by
      ext x
      by_cases hx : x = r
      · subst hx; simp
      · simp [hx]
    rw [hset, Finset.card_insert_of_notMem (by simp [h]), if_pos rfl]
  · have hset : Finset.univ.filter (fun x => Function.update m r (some f) x = some g) =
        Finset.univ.filter (fun x => m x = some g) := by
      ext x
      by_cases hx : x = r
      · subst hx; simp [h, Ne.symm hg]
      · simp [hx]
    rw [hset, if_neg hg, Nat.add_zero]

/-- Clearing a slot. -/
lemma refs_clear {m : R → Option F} {r : R} {f : F} (h : m r = some f) (g : F) :
    refs (Function.update m r none) g + (if g = f then 1 else 0) = refs m g := by
  have hm : m = Function.update (Function.update m r none) r (some f) := by
    rw [Function.update_idem, ← h, Function.update_eq_self]
  have hr : (Function.update m r none : R → Option F) r = none := Function.update_self ..
  conv_rhs => rw [hm]
  rw [refs_fill hr]

lemma refs_update_some {m : R → Option F} {r : R} (h : m r = none) (f : F) :
    refs (Function.update m r (some f)) = Function.update (refs m) f (refs m f + 1) := by
  funext g
  rw [refs_fill h, Function.update_apply]
  split
  · rename_i hg
    rw [hg]
  · rfl

lemma refs_update_none {m : R → Option F} {r : R} {f : F} (h : m r = some f) :
    refs (Function.update m r none) = Function.update (refs m) f (refs m f - 1) := by
  funext g
  have hg := refs_clear h g
  rw [Function.update_apply]
  split at hg
  · rename_i hgf
    rw [if_pos hgf, ← hgf]
    omega
  · rename_i hgf
    rw [if_neg hgf]
    omega

end SistemasOperativos.Library
