import Mathlib.Data.List.Basic
import Mathlib.Tactic.Common

/-!
# Terminated strings in blocks

A block is the list of its cells. A string ends at the first terminator; what is read or written
past the end of the block has no result.
-/

namespace SistemasOperativos.Library

variable {α : Type*}

/-! ### Blocks -/

/-- Stores from the front of the block on. -/
def memcpy (b s : List α) : Option (List α) :=
  if s.length ≤ b.length then some (s ++ b.drop s.length) else none

/-- `strcpy` of a string without terminators. -/
def strcpy (nul : α) (b s : List α) : Option (List α) := memcpy b (s ++ [nul])

/-- The block with `n` cells; `fresh` are those behind the old ones. -/
def realloc (fresh : ℕ → α) (b : List α) (n : ℕ) : List α :=
  b.take n ++ (List.range (n - b.length)).map fresh

variable {b s : List α}

@[simp] lemma length_realloc (fresh : ℕ → α) (b : List α) (n : ℕ) :
    (realloc fresh b n).length = n := by
  unfold realloc
  rw [List.length_append, List.length_take, List.length_map, List.length_range]
  omega

lemma realloc_of_le (fresh : ℕ → α) {n : ℕ} (h : n ≤ b.length) : realloc fresh b n = b.take n := by
  unfold realloc
  rw [Nat.sub_eq_zero_of_le h]
  exact List.append_nil _

lemma memcpy_of_le (h : s.length ≤ b.length) : memcpy b s = some (s ++ b.drop s.length) := if_pos h

lemma memcpy_of_lt (h : b.length < s.length) : memcpy b s = none := if_neg (by omega)

lemma strcpy_realloc (nul : α) (fresh : ℕ → α) (b s : List α) :
    strcpy nul (realloc fresh b (s.length + 1)) s = some (s ++ [nul]) := by
  unfold strcpy
  rw [memcpy_of_le (by simp), List.drop_of_length_le (by simp), List.append_nil]

/-! ### Strings -/

variable [DecidableEq α] {nul : α}

/-- The string at the front of a block. -/
def cstr (nul : α) (b : List α) : List α := b.takeWhile (· ≠ nul)

/-- The string at offset `i`, which has to end inside the block. -/
def strAt? (nul : α) (b : List α) (i : ℕ) : Option (List α) :=
  if nul ∈ b.drop i then some (cstr nul (b.drop i)) else none

lemma cstr_append (hs : nul ∉ s) (t : List α) : cstr nul (s ++ nul :: t) = s := by
  have hpos : ∀ a ∈ s, decide (a ≠ nul) = true := by
    intro a ha
    have hne : a ≠ nul := fun h => hs (h ▸ ha)
    simpa using hne
  unfold cstr
  rw [List.takeWhile_append_of_pos hpos, List.takeWhile_cons_of_neg (by simp), List.append_nil]

lemma cstr_append_of_not_mem (hs : nul ∉ s) (t : List α) : cstr nul (s ++ t) = s ++ cstr nul t := by
  apply List.takeWhile_append_of_pos
  intro a ha
  have hne : a ≠ nul := fun h => hs (h ▸ ha)
  simpa using hne

lemma strAt?_zero (hs : nul ∉ s) (t : List α) : strAt? nul (s ++ nul :: t) 0 = some s := by
  unfold strAt?
  rw [List.drop_zero, if_pos (by simp), cstr_append hs]

lemma strAt?_cons (a : α) (hs : nul ∉ s) (t : List α) :
    strAt? nul (a :: s ++ nul :: t) 1 = some s := by
  unfold strAt?
  rw [List.cons_append, List.drop_succ_cons, List.drop_zero, if_pos (by simp), cstr_append hs]

end SistemasOperativos.Library
