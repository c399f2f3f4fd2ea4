import Mathlib.Logic.Basic
import Mathlib.Tactic.Common
import Mathlib.Tactic.IntervalCases

/-!
# Linear addresses and page table entries

The constants and macros of `inc/mmu.h`, `inc/memlayout.h` and `inc/types.h` on 32-bit words,
and the few facts about their bits that page tables rest on.
-/

namespace SistemasOperativos.Kern

abbrev Word := BitVec 32
abbrev Byte := BitVec 8

def pgsize : ℕ := 4096
def npdentries : ℕ := 1024
def nptentries : ℕ := 1024

/-- Page number of an address, or frame number of a page table entry. -/
def pgnum (la : Word) : ℕ := (la >>> 12).toNat
def pdx (la : Word) : ℕ := ((la >>> 22) &&& 0x3ff).toNat
def ptx (la : Word) : ℕ := ((la >>> 12) &&& 0x3ff).toNat
def pgoff (la : Word) : ℕ := (la &&& 0xfff).toNat
def pgaddr (d t o : ℕ) : Word :=
  BitVec.ofNat 32 d <<< 22 ||| BitVec.ofNat 32 t <<< 12 ||| BitVec.ofNat 32 o

def pteP : Word := 0x001
def pteW : Word := 0x002
def pteU : Word := 0x004
def pteA : Word := 0x020
def pteD : Word := 0x040
def pteAvail : Word := 0xe00
def pteSyscall : Word := pteAvail ||| pteP ||| pteW ||| pteU
/-- Address part of a page table or page directory entry. -/
def pteAddr (pte : Word) : Word := pte &&& ~~~0xfff

def kernbase : Word := 0xf0000000
def ptsize : Word := 0x400000
def iophysmem : ℕ := 0x0a0000
def extphysmem : ℕ := 0x100000
def mpentryPaddr : ℕ := 0x7000
def kstacktop : Word := kernbase
def mmiolim : Word := kstacktop - ptsize
def mmiobase : Word := mmiolim - ptsize
def ulim : Word := mmiobase
def uvpt : Word := ulim - ptsize
def upages : Word := uvpt - ptsize
def uenvs : Word := upages - ptsize
def utop : Word := uenvs
def uxstacktop : Word := utop
def ustacktop : Word := utop - 2 * 0x1000

/-- Number of page directory entries below `utop`. -/
def pdxUtop : ℕ := 955

example : pdxUtop = pdx utop := by decide

/-- `ROUNDDOWN(a, PGSIZE)`. -/
def rounddown (a : Word) : Word := a - a % 0x1000
/-- `ROUNDUP(a, PGSIZE)`. -/
def roundup (a : Word) : Word := rounddown (a + 0x1000 - 1)

/-- Does the entry or permission word `w` have the flag `k`? -/
def has (w flag : Word) : Bool := w &&& flag ≠ 0

/-- The frame a present entry points to. -/
def target (w : Word) : Option ℕ := if has w pteP then some (pgnum w) else none

/-! ### Bits -/

lemma has_twoPow (w : Word) (k : ℕ) (hk : k < 32) :
    has w (BitVec.twoPow 32 k) = w.getLsbD k := by
  unfold has
  rw [BitVec.and_twoPow]
  have hne : (BitVec.twoPow 32 k) ≠ 0 := by
    intro h
    have := congrArg (fun v : Word => v.getLsbD k) h
    simp [hk] at this
  by_cases h : w.getLsbD k
  · simp only [h, if_true, decide_eq_true_eq]
    exact hne
  · simp [h]

lemma has_pteP (w : Word) : has w pteP = w.getLsbD 0 := has_twoPow w 0 (by decide)
lemma has_pteW (w : Word) : has w pteW = w.getLsbD 1 := has_twoPow w 1 (by decide)
lemma has_pteU (w : Word) : has w pteU = w.getLsbD 2 := has_twoPow w 2 (by decide)

lemma pdx_lt (w : Word) : pdx w < 1024 := by
  have h : (w >>> 22 &&& 0x3ff).toNat ≤ (0x3ff : Word).toNat := by
    rw [BitVec.toNat_and]
    exact Nat.and_le_right
  exact Nat.lt_of_le_of_lt h (by decide)

lemma ptx_lt (w : Word) : ptx w < 1024 := by
  have h : (w >>> 12 &&& 0x3ff).toNat ≤ (0x3ff : Word).toNat := by
    rw [BitVec.toNat_and]
    exact Nat.and_le_right
  exact Nat.lt_of_le_of_lt h (by decide)

lemma pdx_eq_div (w : Word) : pdx w = w.toNat / 2 ^ 22 := by
  unfold pdx
  rw [BitVec.toNat_and, BitVec.toNat_ushiftRight, Nat.shiftRight_eq_div_pow]
  have h : (0x3ff : Word).toNat = 2 ^ 10 - 1 := by decide
  rw [h, Nat.and_two_pow_sub_one_eq_mod, Nat.mod_eq_of_lt]
  have := w.isLt
  omega

lemma ptx_eq_mod (w : Word) : ptx w = w.toNat / 2 ^ 12 % 2 ^ 10 := by
  unfold ptx
  rw [BitVec.toNat_and, BitVec.toNat_ushiftRight, Nat.shiftRight_eq_div_pow]
  have h : (0x3ff : Word).toNat = 2 ^ 10 - 1 := by decide
  rw [h, Nat.and_two_pow_sub_one_eq_mod]

lemma pdx_lt_pdxUtop {va : Word} (h : va < utop) : pdx va < pdxUtop := by
  rw [pdx_eq_div]
  have : va.toNat < utop.toNat := h
  have hu : utop.toNat = 955 * 2 ^ 22 := by decide
  unfold pdxUtop
  omega

/-- The frame number does not depend on the flags. -/
lemma pgnum_pteAddr (w : Word) : pgnum (pteAddr w) = pgnum w := by
  unfold pgnum pteAddr
  congr 1
  apply BitVec.eq_of_getLsbD_eq
  intro i hi
  rw [BitVec.getLsbD_ushiftRight, BitVec.getLsbD_ushiftRight, BitVec.getLsbD_and,
    BitVec.getLsbD_not]
  by_cases h : 12 + i < 32
  · have hb : (0xfff : Word).getLsbD (12 + i) = false := by
      have : i < 20 := by omega
      interval_cases i <;> decide
    rw [hb]
    simp [h]
  · rw [BitVec.getLsbD_of_ge w (12 + i) (by omega), Bool.false_and]

/-- `page2pa`: the physical address of a frame. -/
def page2pa (pp : ℕ) : Word := BitVec.ofNat 32 pp <<< 12

lemma pgnum_page2pa {f : ℕ} (hf : f < 2 ^ 20) : pgnum (page2pa f) = f := by
  unfold pgnum page2pa
  rw [BitVec.toNat_ushiftRight, BitVec.toNat_shiftLeft, BitVec.toNat_ofNat,
    Nat.shiftRight_eq_div_pow, Nat.shiftLeft_eq]
  omega

lemma pgnum_or (a b : Word) : pgnum (a ||| b) = pgnum a ||| pgnum b := by
  unfold pgnum
  rw [BitVec.ushiftRight_or_distrib, BitVec.toNat_or]

lemma pgnum_flags {p : Word} (hp : p.toNat < 4096) : pgnum p = 0 := by
  unfold pgnum
  rw [BitVec.toNat_ushiftRight, Nat.shiftRight_eq_div_pow]
  omega

/-- The entry written for frame `f` points to `f` when the permission word is below 4096. -/
lemma pgnum_entry {f : ℕ} {p : Word} (hf : f < 2 ^ 20) (hp : p.toNat < 4096) :
    pgnum (page2pa f ||| p ||| pteP) = f := by
  rw [pgnum_or, pgnum_or, pgnum_page2pa hf, pgnum_flags hp,
    pgnum_flags (show pteP.toNat < 4096 by decide)]
  simp

lemma getLsbD_page2pa (f : ℕ) {k : ℕ} (hk : k < 12) : (page2pa f).getLsbD k = false := by
  unfold page2pa
  simp [BitVec.getLsbD_shiftLeft, hk]

lemma getLsbD_entry (f : ℕ) (p : Word) {k : ℕ} (hk : k < 12) (hk0 : k ≠ 0) :
    (page2pa f ||| p ||| pteP).getLsbD k = p.getLsbD k := by
  have hP : pteP.getLsbD k = false := by interval_cases k <;> first | rfl | exact absurd rfl hk0
  simp [BitVec.getLsbD_or, getLsbD_page2pa f hk, hP]

lemma has_or (a b flag : Word) : has (a ||| b) flag = (has a flag || has b flag) := by
  unfold has
  rw [BitVec.and_or_distrib_right]
  by_cases ha : a &&& flag = 0 <;> by_cases hb : b &&& flag = 0 <;>
    simp_all [BitVec.or_eq_zero_iff]

lemma has_entry_P (f : ℕ) (p : Word) : has (page2pa f ||| p ||| pteP) pteP = true := by
  rw [has_or, show has pteP pteP = true by decide, Bool.or_true]

lemma has_entry_W (f : ℕ) (p : Word) : has (page2pa f ||| p ||| pteP) pteW = has p pteW := by
  rw [has_pteW, has_pteW, getLsbD_entry f p (by decide) (by decide)]

lemma has_entry_U (f : ℕ) (p : Word) : has (page2pa f ||| p ||| pteP) pteU = has p pteU := by
  rw [has_pteU, has_pteU, getLsbD_entry f p (by decide) (by decide)]

lemma target_entry {f : ℕ} {p : Word} (hf : f < 2 ^ 20) (hp : p.toNat < 4096) :
    target (page2pa f ||| p ||| pteP) = some f := by
  unfold target
  rw [has_entry_P, if_pos rfl, pgnum_entry hf hp]

@[simp] lemma target_zero : target 0 = none := by decide

lemma target_eq_some {w : Word} {f : ℕ} (h : target w = some f) :
    has w pteP = true ∧ pgnum w = f := by
  unfold target at h
  split at h
  · exact ⟨‹_›, Option.some.inj h⟩
  · cases h

/-! ### Page addresses -/

lemma pgaddr_toNat {d t : ℕ} (hd : d < 1024) (ht : t < 1024) :
    (pgaddr d t 0).toNat = d * 2 ^ 22 + t * 2 ^ 12 := by
  unfold pgaddr
  rw [show BitVec.ofNat 32 0 = 0#32 from rfl, BitVec.or_zero, BitVec.toNat_or,
    BitVec.toNat_shiftLeft, BitVec.toNat_shiftLeft, BitVec.toNat_ofNat, BitVec.toNat_ofNat,
    Nat.mod_eq_of_lt (show d < 2 ^ 32 by omega), Nat.mod_eq_of_lt (show t < 2 ^ 32 by omega),
    Nat.shiftLeft_eq t, Nat.mod_eq_of_lt (show t * 2 ^ 12 < 2 ^ 32 by omega),
    Nat.mod_eq_of_lt (show d <<< 22 < 2 ^ 32 by rw [Nat.shiftLeft_eq]; omega),
    ← Nat.shiftLeft_add_eq_or_of_lt (show t * 2 ^ 12 < 2 ^ 22 by omega), Nat.shiftLeft_eq]

lemma pdx_pgaddr {d t : ℕ} (hd : d < 1024) (ht : t < 1024) : pdx (pgaddr d t 0) = d := by
  rw [pdx_eq_div, pgaddr_toNat hd ht]
  omega

lemma ptx_pgaddr {d t : ℕ} (hd : d < 1024) (ht : t < 1024) : ptx (pgaddr d t 0) = t := by
  rw [ptx_eq_mod, pgaddr_toNat hd ht]
  omega

/-! ### Rounding -/

lemma rounddown_toNat (a : Word) : (rounddown a).toNat = a.toNat - a.toNat % 4096 := by
  unfold rounddown
  have hmod : (a % 0x1000).toNat = a.toNat % 4096 := by
    rw [BitVec.toNat_umod]
    rfl
  have hle : a % 0x1000 ≤ a := by
    rw [BitVec.le_def, hmod]
    exact Nat.mod_le _ _
  rw [BitVec.toNat_sub_of_le hle, hmod]

lemma rounddown_aligned (a : Word) : (rounddown a).toNat % 4096 = 0 := by
  rw [rounddown_toNat]
  omega

lemma roundup_toNat (w : Word) :
    (roundup w).toNat = (w.toNat + 4095) % 2 ^ 32 - (w.toNat + 4095) % 2 ^ 32 % 4096 := by
  have hsum : w + 0x1000 - 1 = w + 0xfff := by bv_omega
  unfold roundup
  rw [rounddown_toNat, hsum, BitVec.toNat_add, show (0xfff : Word).toNat = 4095 from rfl]

end SistemasOperativos.Kern
