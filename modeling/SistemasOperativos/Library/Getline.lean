import Mathlib.Data.List.Infix
import Mathlib.Tactic.Common

/-!
# Reading line by line

What `getline` returns on a stream of characters, one call after the other: each line with its
terminator, which only the last line can lack.
-/

namespace SistemasOperativos.Library

variable {α : Type} [DecidableEq α]

/-- One call of `getline`: the line and what is left. -/
def getline (nl : α) : List α → List α × List α
  | [] => ([], [])
  | c :: s =>
    if c = nl then ([c], s)
    else (c :: (getline nl s).1, (getline nl s).2)

/-- The lines that `getline` returns until the end of the stream. -/
def rawLines (nl : α) : List α → List (List α)
  | [] => []
  | c :: s =>
    if c = nl then [c] :: rawLines nl s
    else
      match rawLines nl s with
      | [] => [[c]]
      | l :: ls => (c :: l) :: ls

/-- A line without its terminator. -/
def lineText (nl : α) (l : List α) : List α := if l.getLast? = some nl then l.dropLast else l

variable {nl : α} {s l : List α}

lemma rawLines_eq_nil : rawLines nl s = [] ↔ s = [] := by
  cases s with
  | nil => exact iff_of_true rfl rfl
  | cons c s =>
    refine iff_of_false ?_ (List.cons_ne_nil c s)
    unfold rawLines
    split
    · exact List.cons_ne_nil _ _
    · split
      · exact List.cons_ne_nil _ _
      · exact List.cons_ne_nil _ _

/-- The lines are the results of the calls one after the other. -/
lemma rawLines_getline (h : s ≠ []) :
    rawLines nl s = (getline nl s).1 :: rawLines nl (getline nl s).2 := by
  induction s with
  | nil => exact absurd rfl h
  | cons c s ih =>
    conv_lhs => unfold rawLines
    unfold getline
    by_cases hc : c = nl
    · rw [if_pos hc, if_pos hc]
    · rw [if_neg hc, if_neg hc]
      cases hs : s with
      | nil => rfl
      | cons d s' =>
        rw [← hs, ih (by rw [hs]; exact List.cons_ne_nil d s')]

lemma flatten_rawLines (s : List α) : (rawLines nl s).flatten = s := by
  induction s with
  | nil => rfl
  | cons c s ih =>
    unfold rawLines
    split
    · rw [List.flatten_cons, ih, List.singleton_append]
    · split
      · rename_i hnil
        rw [rawLines_eq_nil.mp hnil]
        rfl
      · rename_i l ls hls
        rw [hls, List.flatten_cons] at ih
        rw [List.flatten_cons, List.cons_append, ih]

lemma rawLines_ne_nil (h : l ∈ rawLines nl s) : l ≠ [] := by
  induction s generalizing l with
  | nil => cases h
  | cons c s ih =>
    unfold rawLines at h
    split at h
    · rcases List.mem_cons.mp h with rfl | h
      · exact List.cons_ne_nil c []
      · exact ih h
    · split at h
      · rw [List.mem_singleton.mp h]
        exact List.cons_ne_nil c []
      · rename_i l' ls hls
        rcases List.mem_cons.mp h with rfl | h
        · exact List.cons_ne_nil c l'
        · exact ih (hls ▸ List.mem_cons_of_mem l' h)

/-- Every line but the last has its terminator. -/
lemma getLast?_of_mem_dropLast (h : l ∈ (rawLines nl s).dropLast) : l.getLast? = some nl := by
  induction s generalizing l with
  | nil => cases h
  | cons c s ih =>
    unfold rawLines at h
    split at h
    · rename_i hc
      cases hs : rawLines nl s with
      | nil =>
        rw [hs] at h
        cases h
      | cons l' ls =>
        rw [hs, List.dropLast_cons_cons] at h
        rcases List.mem_cons.mp h with rfl | h
        · rw [hc]
          rfl
        · exact ih (hs ▸ h)
    · split at h
      · cases h
      · rename_i l' ls hls
        cases ls with
        | nil => cases h
        | cons l'' ls =>
          rw [List.dropLast_cons_cons] at h
          have hfirst : l'.getLast? = some nl := by
            apply ih
            rw [hls, List.dropLast_cons_cons]
            exact List.mem_cons_self
          rcases List.mem_cons.mp h with rfl | h
          · have hne : l' ≠ [] := rawLines_ne_nil (hls ▸ List.mem_cons_self)
            rw [List.getLast?_cons, hfirst]
            rfl
          · apply ih
            rw [hls, List.dropLast_cons_cons]
            exact List.mem_cons_of_mem l' h

/-- A terminator is the end of a line. -/
lemma not_mem_dropLast (h : l ∈ rawLines nl s) : nl ∉ l.dropLast := by
  induction s generalizing l with
  | nil => cases h
  | cons c s ih =>
    unfold rawLines at h
    split at h
    · rcases List.mem_cons.mp h with rfl | h
      · exact List.not_mem_nil
      · exact ih h
    · rename_i hc
      split at h
      · rw [List.mem_singleton.mp h]
        exact List.not_mem_nil
      · rename_i l' ls hls
        rcases List.mem_cons.mp h with rfl | h
        · have hne : l' ≠ [] := rawLines_ne_nil (hls ▸ List.mem_cons_self)
          rw [List.dropLast_cons_of_ne_nil hne]
          intro hmem
          rcases List.mem_cons.mp hmem with heq | hmem
          · exact hc heq.symm
          · exact ih (hls ▸ List.mem_cons_self) hmem
        · exact ih (hls ▸ List.mem_cons_of_mem l' h)

/-- The last line has its terminator when the stream has it. -/
lemma getLast?_rawLines (h : l ∈ (rawLines nl s).getLast?) : l.getLast? = s.getLast? := by
  have hs : (rawLines nl s).flatten = s := flatten_rawLines s
  obtain ⟨ls, hls⟩ := List.getLast?_eq_some_iff.mp h
  have hne : l ≠ [] := rawLines_ne_nil (hls ▸ List.mem_append_right ls List.mem_cons_self)
  rw [← hs, hls, List.flatten_append, List.flatten_singleton, List.getLast?_append_of_ne_nil _ hne]

end SistemasOperativos.Library
