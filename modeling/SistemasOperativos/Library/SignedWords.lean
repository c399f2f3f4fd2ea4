import Mathlib.Algebra.Group.Nat.Defs
import Mathlib.Data.Nat.Notation
import Mathlib.Tactic.Common

/-!
# Signed words as natural numbers

Comparison, division and remainder of signed 32-bit words below `2 ^ 31` are those of natural numbers.
A negative quotient is rounded towards zero, and the remainder has the sign of the dividend.
-/

namespace SistemasOperativos.Library

variable {x y : BitVec 32} {n : ℕ}

lemma toInt_of_small (h : x.toNat < 2 ^ 31) : x.toInt = x.toNat := by
  rw [BitVec.toInt_eq_toNat_cond, if_pos (by omega)]

lemma small_of_toInt (h : 0 ≤ x.toInt) : x.toNat < 2 ^ 31 := by
  have hlt := x.isLt
  rw [BitVec.toInt_eq_toNat_cond] at h
  split at h
  · omega
  · omega

lemma msb_of_small (h : x.toNat < 2 ^ 31) : x.msb = false := by
  rw [BitVec.msb_eq_false_iff_two_mul_lt]
  omega

lemma slt_of_small (hx : x.toNat < 2 ^ 31) (hy : y.toNat < 2 ^ 31) :
    x.slt y = true ↔ x.toNat < y.toNat := by
  rw [BitVec.slt_iff_toInt_lt, toInt_of_small hx, toInt_of_small hy]
  omega

lemma sle_of_small (hx : x.toNat < 2 ^ 31) (hy : y.toNat < 2 ^ 31) :
    x.sle y = true ↔ x.toNat ≤ y.toNat := by
  rw [BitVec.sle_iff_toInt_le, toInt_of_small hx, toInt_of_small hy]
  omega

lemma toNat_sdiv_of_small (hx : x.toNat < 2 ^ 31) (hy : y.toNat < 2 ^ 31) :
    (x.sdiv y).toNat = x.toNat / y.toNat := by
  rw [BitVec.sdiv_eq, msb_of_small hx, msb_of_small hy]
  exact BitVec.toNat_udiv

lemma toNat_srem_of_small (hx : x.toNat < 2 ^ 31) (hy : y.toNat < 2 ^ 31) :
    (x.srem y).toNat = x.toNat % y.toNat := by
  rw [BitVec.srem_eq, msb_of_small hx, msb_of_small hy]
  exact BitVec.toNat_umod

lemma msb_of_large (h : 2 ^ 31 ≤ x.toNat) : x.msb = true := by
  rw [BitVec.msb_eq_true_iff_two_mul_ge]
  omega

lemma toNat_sdiv_of_large (hx : 2 ^ 31 ≤ x.toNat) (hy : y.toNat < 2 ^ 31) :
    (x.sdiv y).toNat = (2 ^ 32 - (2 ^ 32 - x.toNat) / y.toNat) % 2 ^ 32 := by
  have hlt := x.isLt
  rw [BitVec.sdiv_eq, msb_of_large hx, msb_of_small hy]
  change (-((-x).udiv y)).toNat = _
  rw [BitVec.toNat_neg]
  change (2 ^ 32 - ((-x) / y).toNat) % 2 ^ 32 = _
  have hneg : (2 ^ 32 - x.toNat) % 2 ^ 32 = 2 ^ 32 - x.toNat := Nat.mod_eq_of_lt (by omega)
  rw [BitVec.toNat_udiv, BitVec.toNat_neg, hneg]

lemma toNat_srem_of_large (hx : 2 ^ 31 ≤ x.toNat) (hy : y.toNat < 2 ^ 31) :
    (x.srem y).toNat = (2 ^ 32 - (2 ^ 32 - x.toNat) % y.toNat) % 2 ^ 32 := by
  have hlt := x.isLt
  rw [BitVec.srem_eq, msb_of_large hx, msb_of_small hy]
  change (-((-x).umod y)).toNat = _
  rw [BitVec.toNat_neg]
  change (2 ^ 32 - ((-x) % y).toNat) % 2 ^ 32 = _
  have hneg : (2 ^ 32 - x.toNat) % 2 ^ 32 = 2 ^ 32 - x.toNat := Nat.mod_eq_of_lt (by omega)
  rw [BitVec.toNat_umod, BitVec.toNat_neg, hneg]

end SistemasOperativos.Library
