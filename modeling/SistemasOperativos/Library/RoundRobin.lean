import Mathlib.Data.Nat.ModEq
import Mathlib.Data.Fintype.Basic
import Mathlib.Order.WellFounded
import Mathlib.Tactic.Common

/-!
# Round robin

The slots `Fin n` in circular order. A search takes the slot nearest to a position and the next
search starts just behind it. While one slot waits, no other slot is taken twice.
-/

namespace SistemasOperativos.Library

variable {n : ℕ} {p : Fin n → Prop} {k k' : ℕ} {i j x y : Fin n}

/-- The number of steps from position `k` up and around to slot `j`. -/
def ahead (k : ℕ) (j : Fin n) : ℕ := (j + n - k % n) % n

/-- Slot `j` is the first one from position `k` on with property `p`. -/
structure Nearest (p : Fin n → Prop) (k : ℕ) (j : Fin n) : Prop where
  holds : p j
  least : ∀ i, p i → ahead k j ≤ ahead k i

/-- Searches from position `k` on have led to position `k'`; slot `x` could have been taken by
each of them and was taken by none. -/
inductive Passed (x : Fin n) (k : ℕ) : ℕ → Prop
  | start : Passed x k k
  | turn {p : Fin n → Prop} {k' : ℕ} {j : Fin n} (h : Passed x k k') (hj : Nearest p k' j)
      (hx : p x) (hne : j ≠ x) : Passed x k (j + 1)

lemma ahead_lt (k : ℕ) (j : Fin n) : ahead k j < n := by
  have hj := j.isLt
  exact Nat.mod_lt _ (by omega)

lemma add_ahead (k : ℕ) (j : Fin n) : (k + ahead k j) % n = j := by
  have hj := j.isLt
  have hk : k % n < n := Nat.mod_lt _ (by omega)
  have hdiv := Nat.div_add_mod k n
  have hsum : k + (j + n - k % n) = j + n * (k / n + 1) := by
    rw [Nat.mul_add, Nat.mul_one]
    omega
  unfold ahead
  rw [Nat.add_mod_mod, hsum, Nat.add_mul_mod_self_left, Nat.mod_eq_of_lt hj]

/-- The distance is the only number of steps that leads to the slot. -/
lemma ahead_eq {d : ℕ} (hd : d < n) (hk : (k + d) % n = j) : ahead k j = d := by
  have hmod : k + ahead k j ≡ k + d [MOD n] := (add_ahead k j).trans hk.symm
  exact (Nat.ModEq.add_left_cancel' k hmod).eq_of_lt_of_lt (ahead_lt k j) hd

lemma ahead_inj (h : ahead k i = ahead k j) : i = j := by
  apply Fin.ext
  rw [← add_ahead k i, h, add_ahead]

lemma ahead_of_le (h : k ≤ j) : ahead k j = j - k := by
  have hj := j.isLt
  apply ahead_eq (by omega)
  rw [Nat.add_sub_cancel' h, Nat.mod_eq_of_lt hj]

lemma ahead_of_lt (h : j < k) (hk : k ≤ n) : ahead k j = j + n - k := by
  have hj := j.isLt
  apply ahead_eq (by omega)
  rw [Nat.add_sub_cancel' (by omega), Nat.add_mod_right, Nat.mod_eq_of_lt hj]

/-- From behind a nearer slot the way is shorter. -/
lemma ahead_succ (h : ahead k i < ahead k j) : ahead (i + 1) j < ahead k j := by
  have hj := ahead_lt k j
  have hstep : ahead (i + 1) j = ahead k j - ahead k i - 1 := by
    apply ahead_eq (by omega)
    have hsum : k + ahead k i + (1 + (ahead k j - ahead k i - 1)) = k + ahead k j := by omega
    rw [← add_ahead k i, Nat.add_assoc, Nat.mod_add_mod, hsum, add_ahead]
  omega

namespace Nearest

lemma exists_of (hx : p x) (k : ℕ) : ∃ j, Nearest p k j := by
  obtain ⟨j, hj, hleast⟩ := WellFounded.has_min (measure (ahead (n := n) k)).wf {i | p i} ⟨x, hx⟩
  exact ⟨j, hj, fun i hi => not_lt.mp (hleast i hi)⟩

/-- A slot that is passed over gets nearer. -/
lemma approach (hj : Nearest p k j) (hx : p x) (hne : j ≠ x) : ahead (j + 1) x < ahead k x := by
  have hle := hj.least x hx
  exact ahead_succ (lt_of_le_of_ne hle (fun h => hne (ahead_inj h)))

/-- Searches from 0 and from `k` that take the same slot have all candidates on one side. -/
lemma side {i i' : Fin n} (h0 : Nearest p 0 j) (hj : Nearest p k j) (hk : k ≤ n) (hi : p i)
    (hi' : p i') (hlt : i < k) : i' < k := by
  by_contra hge
  have h0i := h0.least i hi
  rw [ahead_of_le (Nat.zero_le _), ahead_of_le (Nat.zero_le _)] at h0i
  have hki := hj.least i' hi'
  rw [ahead_of_lt (by omega) hk, ahead_of_le (by omega)] at hki
  omega

/-- With all candidates on one side of `k` a search may as well start at 0. -/
lemma of_side (hj : Nearest p k j) (hk : k ≤ n)
    (hside : ∀ i i', p i → p i' → i.val < k → i'.val < k) : Nearest p 0 j := by
  refine ⟨hj.holds, fun i hi => ?_⟩
  have hle := hj.least i hi
  rw [ahead_of_le (Nat.zero_le _), ahead_of_le (Nat.zero_le _)]
  by_cases hlt : j < k
  · have hi' := hside j i hj.holds hi hlt
    rw [ahead_of_lt hlt hk, ahead_of_lt hi' hk] at hle
    omega
  · by_cases hi' : i < k
    · exact absurd (hside i j hi hj.holds hi') hlt
    · rw [ahead_of_le (by omega), ahead_of_le (by omega)] at hle
      omega

end Nearest

namespace Passed

lemma ahead_le (h : Passed x k k') : ahead k' x ≤ ahead k x := by
  induction h with
  | start => exact Nat.le_refl _
  | turn h hj hx hne ih => exact (hj.approach hx hne).le.trans ih

/-- No slot is taken twice while `x` is passed over. -/
lemma not_again (h : Passed x (y + 1) k') (hy : Nearest p k' y) (hx : p x) : y = x := by
  by_contra hne
  have hlt := hy.approach hx hne
  have hle := h.ahead_le
  omega

end Passed

end SistemasOperativos.Library
