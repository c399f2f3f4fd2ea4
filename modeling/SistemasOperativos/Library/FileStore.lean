import Mathlib.Data.List.Basic
import Mathlib.Logic.Function.Basic

/-!
# A store of named files

What is known of a store of files: where names lead, how long the files are, and which bytes stand in
them. Operations add to what is known, or take from it.
-/

namespace SistemasOperativos.Library

variable {α κ ι : Type}

/-- What is known of a file. -/
@[ext]
structure View (α : Type) where
  size : Option ℕ
  byte : ℕ → Option α

namespace View

/-- Nothing is known. -/
def unknown : View α := ⟨none, fun _ => none⟩

/-- The bytes `data` stand from `lo` on. -/
def learn (v : View α) (lo : ℕ) (data : List α) : View α :=
  { v with byte := fun p => if lo ≤ p ∧ p < lo + data.length then data[p - lo]? else v.byte p }

/-- The bytes from `lo` up to `hi` may have changed. -/
def forget (v : View α) (lo hi : ℕ) : View α :=
  { v with byte := fun p => if lo ≤ p ∧ p < hi then none else v.byte p }

/-- The file reaches to `n` at least. -/
def extend (v : View α) (n : ℕ) : View α := { v with size := v.size.map (max · n) }

/-- The file has `n` bytes now. -/
def resize (v : View α) (n : ℕ) : View α := ⟨some n, fun p => if p < n then v.byte p else none⟩

variable {v : View α} {lo hi n p : ℕ} {data : List α} {x : α}

/-- A byte is known from the data, or it was known before. -/
lemma learn_byte (h : (v.learn lo data).byte p = some x) :
    (∃ i, ∃ hi : i < data.length, p = lo + i ∧ data[i] = x) ∨
      (¬(lo ≤ p ∧ p < lo + data.length) ∧ v.byte p = some x) := by
  unfold learn at h
  dsimp only at h
  by_cases hin : lo ≤ p ∧ p < lo + data.length
  · rw [if_pos hin] at h
    obtain ⟨hlt, heq⟩ := List.getElem?_eq_some_iff.mp h
    exact .inl ⟨p - lo, hlt, by omega, heq⟩
  · rw [if_neg hin] at h
    exact .inr ⟨hin, h⟩

lemma forget_byte (h : (v.forget lo hi).byte p = some x) : ¬(lo ≤ p ∧ p < hi) ∧ v.byte p = some x := by
  unfold forget at h
  dsimp only at h
  by_cases hin : lo ≤ p ∧ p < hi
  · rw [if_pos hin] at h
    cases h
  · rw [if_neg hin] at h
    exact ⟨hin, h⟩

lemma resize_byte (h : (v.resize n).byte p = some x) : p < n ∧ v.byte p = some x := by
  unfold resize at h
  dsimp only at h
  by_cases hlt : p < n
  · rw [if_pos hlt] at h
    exact ⟨hlt, h⟩
  · rw [if_neg hlt] at h
    cases h

lemma extend_size (h : (v.extend n).size = some p) : ∃ m, v.size = some m ∧ p = max m n := by
  obtain ⟨m, hm, rfl⟩ := Option.map_eq_some_iff.mp h
  exact ⟨m, hm, rfl⟩

end View

/-- What is known of names and of files. -/
structure Store (κ ι α : Type) where
  name : κ → Option ι
  file : ι → View α

namespace Store

def unknown : Store κ ι α := ⟨fun _ => none, fun _ => .unknown⟩

variable [DecidableEq κ] [DecidableEq ι] {A : Store κ ι α} {k k' : κ} {f g : ι} {v : View α}

def setName (A : Store κ ι α) (k : κ) (f : ι) : Store κ ι α :=
  { A with name := Function.update A.name k (some f) }

def setFile (A : Store κ ι α) (f : ι) (v : View α) : Store κ ι α :=
  { A with file := Function.update A.file f v }

omit [DecidableEq ι] in
lemma setName_name (h : (A.setName k f).name k' = some g) : (k' = k ∧ g = f) ∨ A.name k' = some g := by
  unfold setName at h
  dsimp only at h
  by_cases hk : k' = k
  · rw [hk, Function.update_self] at h
    exact .inl ⟨hk, (Option.some.inj h).symm⟩
  · rw [Function.update_of_ne hk] at h
    exact .inr h

omit [DecidableEq κ] in
lemma setFile_self : (A.setFile f v).file f = v := by
  unfold setFile
  exact Function.update_self f v A.file

omit [DecidableEq κ] in
lemma setFile_ne (h : g ≠ f) : (A.setFile f v).file g = A.file g := by
  unfold setFile
  exact Function.update_of_ne h v A.file

end Store

end SistemasOperativos.Library
