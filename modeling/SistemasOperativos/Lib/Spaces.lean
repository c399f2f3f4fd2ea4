import SistemasOperativos.Kern.Mmu

/-!
# Address spaces as user programs see them

The library code of `lib/` works on the page table entries that it reads through `uvpt` and that
it changes with the page system calls. An entry is a frame and a permission word; frames are
numbered in the order of their allocation, so that a freed frame does not come back under its
old number.
-/

namespace SistemasOperativos.Lib

open Kern (Word pteP pteW pteU pteSyscall has)

def pteShare : Word := 0x400
def pteCow : Word := 0x800

/-- The number of pages below `UTOP`. -/
def utopPage : ℕ := 0xeec00

/-- The page of the user exception stack, `UXSTACKTOP - PGSIZE`. -/
def uxstackPage : ℕ := 0xeebff

/-- The page `PFTEMP`. -/
def pftempPage : ℕ := 0x7ff

/-- A present page table entry. -/
structure Pte where
  frame : ℕ
  perm : Word
deriving DecidableEq

namespace Pte

def writable (p : Pte) : Bool := has p.perm pteW

def cow (p : Pte) : Bool := has p.perm pteCow

def shared (p : Pte) : Bool := has p.perm pteShare

end Pte

/-- The mappings below `UTOP`, by environment and page number. -/
abbrev Spaces (ι : Type) := ι → ℕ → Option Pte

variable {ι : Type} [DecidableEq ι]

/-- One mapping is made, replaced or removed. -/
def Spaces.set (S : Spaces ι) (e : ι) (pn : ℕ) (x : Option Pte) : Spaces ι :=
  Function.update S e (Function.update (S e) pn x)

/-- All mappings of an environment are removed. -/
def Spaces.clear (S : Spaces ι) (e : ι) : Spaces ι := Function.update S e (fun _ => none)

variable {S : Spaces ι} {e j : ι} {pn k : ℕ} {x : Option Pte}

lemma Spaces.set_apply : S.set e pn x j k = if j = e ∧ k = pn then x else S j k := by
  unfold Spaces.set
  by_cases hj : j = e
  · subst hj
    by_cases hk : k = pn
    · subst hk
      simp
    · simp [hk]
  · simp [hj]

@[simp] lemma Spaces.set_self : S.set e pn x e pn = x := by
  rw [Spaces.set_apply, if_pos ⟨rfl, rfl⟩]

lemma Spaces.set_of_ne (h : j ≠ e) : S.set e pn x j = S j := by
  funext k
  rw [Spaces.set_apply, if_neg (fun hc => h hc.1)]

lemma Spaces.set_of_page_ne (h : k ≠ pn) : S.set e pn x j k = S j k := by
  rw [Spaces.set_apply, if_neg (fun hc => h hc.2)]

lemma Spaces.clear_apply : S.clear e j k = if j = e then none else S j k := by
  unfold Spaces.clear
  by_cases hj : j = e
  · subst hj
    simp
  · simp [hj]

lemma Spaces.clear_of_ne (h : j ≠ e) : S.clear e j = S j := by
  funext k
  rw [Spaces.clear_apply, if_neg h]

/-- The frame of a page that is mapped with `PTE_SHARE`. -/
def sharedFrame (space : ℕ → Option Pte) (pn : ℕ) : Option ℕ :=
  (space pn).bind fun p => if p.shared then some p.frame else none

lemma sharedFrame_set :
    sharedFrame (S.set e pn x j) k =
      if j = e ∧ k = pn then x.bind (fun p => if p.shared then some p.frame else none)
      else sharedFrame (S j) k := by
  unfold sharedFrame
  rw [Spaces.set_apply]
  by_cases h : j = e ∧ k = pn
  · rw [if_pos h, if_pos h]
  · rw [if_neg h, if_neg h]

lemma sharedFrame_eq_some {space : ℕ → Option Pte} {f : ℕ} :
    sharedFrame space pn = some f ↔ ∃ p, space pn = some p ∧ p.shared = true ∧ p.frame = f := by
  unfold sharedFrame
  cases space pn with
  | none => simp
  | some p =>
    by_cases hp : p.shared = true
    · simp [hp]
    · simp [hp]

/-- `sys_page_map` with `pte & PTE_SYSCALL` keeps the flags a user may set. -/
lemma has_syscall {p k : Word} (hk : pteSyscall &&& k = k) : has (p &&& pteSyscall) k = has p k := by
  unfold has
  rw [BitVec.and_assoc, hk]

end SistemasOperativos.Lib
