import Mathlib.Data.Nat.Notation
import Mathlib.Logic.Function.Basic
import Mathlib.Tactic.Common

/-!
# Words in a memory of bytes

Little-endian words of four bytes, and strings of bytes, at addresses of a flat memory.
-/

namespace SistemasOperativos.Library

/-- The four bytes of a word make it up. -/
lemma bytes_append (w : BitVec 32) : (w >>> 24).setWidth 8 ++ (w >>> 16).setWidth 8 ++
    (w >>> 8).setWidth 8 ++ w.setWidth 8 = w := by
  apply BitVec.eq_of_getLsbD_eq
  intro i hi
  simp only [BitVec.getLsbD_append, BitVec.getLsbD_setWidth, BitVec.getLsbD_ushiftRight]
  split
  · simp [*]
  · split
    · have h8 : 8 + (i - 8) = i := by omega
      simp [*]
    · split
      · have h16 : 16 + (i - 8 - 8) = i := by omega
        simp [*]
      · have h24 : 24 + (i - 8 - 8 - 8) = i := by omega
        have hlt : i - 8 - 8 - 8 < 8 := by omega
        simp [*]

variable {c c' : ℕ → BitVec 8} {a b : ℕ} {w : BitVec 32} {bs : List (BitVec 8)}

/-- The word at `a`. -/
def wordAt (c : ℕ → BitVec 8) (a : ℕ) : BitVec 32 := c (a + 3) ++ c (a + 2) ++ c (a + 1) ++ c a

def putWord (c : ℕ → BitVec 8) (a : ℕ) (w : BitVec 32) : ℕ → BitVec 8 := fun i =>
  if a ≤ i ∧ i < a + 4 then (w >>> (8 * (i - a))).setWidth 8 else c i

/-- The bytes `bs` from `a` on. -/
def putBytes (c : ℕ → BitVec 8) (a : ℕ) : List (BitVec 8) → ℕ → BitVec 8
  | [] => c
  | x :: bs => putBytes (Function.update c a x) (a + 1) bs

lemma wordAt_congr (h : ∀ i, a ≤ i → i < a + 4 → c' i = c i) : wordAt c' a = wordAt c a := by
  unfold wordAt
  rw [h a (by omega) (by omega), h (a + 1) (by omega) (by omega), h (a + 2) (by omega) (by omega),
    h (a + 3) (by omega) (by omega)]

lemma putWord_of_ne {i : ℕ} (h : i < a ∨ a + 4 ≤ i) : putWord c a w i = c i := by
  unfold putWord
  rw [if_neg]
  omega

@[simp] lemma wordAt_putWord : wordAt (putWord c a w) a = w := by
  have hbyte : ∀ k < 4, putWord c a w (a + k) = (w >>> (8 * k)).setWidth 8 := by
    intro k hk
    unfold putWord
    rw [if_pos (by omega), Nat.add_sub_cancel_left]
  have h0 : putWord c a w a = (w >>> 0).setWidth 8 := hbyte 0 (by decide)
  unfold wordAt
  rw [h0, hbyte 1 (by decide), hbyte 2 (by decide), hbyte 3 (by decide), BitVec.ushiftRight_zero]
  exact bytes_append w

lemma wordAt_putWord_of_ne (h : b + 4 ≤ a ∨ a + 4 ≤ b) : wordAt (putWord c a w) b = wordAt c b := by
  apply wordAt_congr
  intro i hi hi'
  apply putWord_of_ne
  omega

/-- Aligned words are the same or have no byte in common. -/
lemma wordAt_putWord_aligned (ha : a % 4 = 0) (hb : b % 4 = 0) :
    wordAt (putWord c a w) b = if b = a then w else wordAt c b := by
  by_cases h : b = a
  · subst h
    rw [if_pos rfl, wordAt_putWord]
  · rw [if_neg h, wordAt_putWord_of_ne]
    omega

/-- A byte of a word. -/
lemma byte_wordAt (c : ℕ → BitVec 8) (a : ℕ) {k : ℕ} (hk : k < 4) :
    (wordAt c a >>> (8 * k)).setWidth 8 = c (a + k) := by
  apply BitVec.eq_of_getLsbD_eq
  intro i hi
  unfold wordAt
  rw [BitVec.getLsbD_setWidth, BitVec.getLsbD_ushiftRight]
  simp only [BitVec.getLsbD_append]
  obtain rfl | rfl | rfl | rfl : k = 0 ∨ k = 1 ∨ k = 2 ∨ k = 3 := by omega
  · simp [hi]
  · have h : 8 + i - 8 = i := by omega
    simp [hi, h]
  · have h : 8 * 2 + i - 8 - 8 = i := by omega
    simp [hi, h, show ¬8 * 2 + i < 8 by omega, show ¬8 * 2 + i - 8 < 8 by omega]
  · have h : 8 * 3 + i - 8 - 8 - 8 = i := by omega
    simp [hi, h, show ¬8 * 3 + i < 8 by omega, show ¬8 * 3 + i - 8 < 8 by omega,
      show ¬8 * 3 + i - 8 - 8 < 8 by omega]

lemma wordAt_eq_iff : wordAt c' a = wordAt c a ↔ ∀ i, a ≤ i → i < a + 4 → c' i = c i := by
  refine ⟨fun h i hi hi' => ?_, wordAt_congr⟩
  obtain ⟨k, rfl⟩ := Nat.exists_eq_add_of_le hi
  have hk : k < 4 := by omega
  rw [← byte_wordAt c' a hk, h, byte_wordAt c a hk]

@[simp] lemma putWord_wordAt (c : ℕ → BitVec 8) (a : ℕ) : putWord c a (wordAt c a) = c := by
  funext i
  unfold putWord
  split
  · rename_i h
    rw [byte_wordAt c a (by omega), Nat.add_sub_cancel' h.1]
  · rfl

@[simp] lemma putWord_putWord (v : BitVec 32) :
    putWord (putWord c a v) a w = putWord c a w := by
  funext i
  unfold putWord
  split
  · rfl
  · rfl

lemma putBytes_of_ne {i : ℕ} (h : i < a ∨ a + bs.length ≤ i) : putBytes c a bs i = c i := by
  induction bs generalizing c a with
  | nil => rfl
  | cons x bs ih =>
    rw [List.length_cons] at h
    have hne : i ≠ a := by omega
    unfold putBytes
    rw [ih (by omega), Function.update_of_ne hne]

lemma putBytes_of_lt {i : ℕ} (h : i < bs.length) : putBytes c a bs (a + i) = bs[i] := by
  induction bs generalizing c a i with
  | nil => exact absurd h (Nat.not_lt_zero i)
  | cons x bs ih =>
    unfold putBytes
    cases i with
    | zero =>
      rw [putBytes_of_ne (by omega)]
      exact Function.update_self a x c
    | succ i =>
      rw [List.length_cons] at h
      have hadd : a + (i + 1) = a + 1 + i := by omega
      rw [hadd, ih (by omega), List.getElem_cons_succ]

lemma putBytes_append (c : ℕ → BitVec 8) (a : ℕ) (bs bs' : List (BitVec 8)) :
    putBytes c a (bs ++ bs') = putBytes (putBytes c a bs) (a + bs.length) bs' := by
  induction bs generalizing c a with
  | nil => rfl
  | cons x bs ih =>
    have hadd : a + (x :: bs).length = a + 1 + bs.length := by
      rw [List.length_cons]
      omega
    rw [hadd]
    exact ih (Function.update c a x) (a + 1)

end SistemasOperativos.Library
