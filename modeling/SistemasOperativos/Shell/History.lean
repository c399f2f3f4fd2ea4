import Mathlib.Data.List.TakeWhile
import SistemasOperativos.Library.Getline
import SistemasOperativos.Library.Strings
import SistemasOperativos.Shell.Parsing

/-!
# The history file

`history.c` on the characters of the file. `find_command` and `show_history` skip the same lines, but
the first one takes the last character off whatever the last `getline` has left in its buffer.
-/

namespace SistemasOperativos.Shell

open Library

def endLine : Char := '\n'
def intMax : ℤ := 2147483647

/-- A result of type `int`; `none` when it overflows. -/
def int? (z : ℤ) : Option ℤ := if -intMax - 1 ≤ z ∧ z ≤ intMax then some z else none

/-- The lines of a file as `getline` returns them. -/
abbrev fileLines (file : List Char) : List (List Char) := rawLines endLine file

/-- The loop of `count_lines` (`utils.c`). -/
def countFrom (cant : ℤ) : List (List Char) → Option ℤ
  | [] => some cant
  | _ :: ls => (int? (cant + 1)).bind fun cant => countFrom cant ls

def countLines (file : List Char) : Option ℤ := countFrom 0 (fileLines file)

/-! ### `find_command` -/

/-- The loop of `find_command`: what the last `getline` has read. -/
def findFrom (saltar i : ℤ) : List (List Char) → Option (List Char)
  | [] => none
  | l :: ls => if i < saltar then findFrom saltar (i + 1) ls else some l

/-- `linea[strlen(linea) - 1] = '\0'`; `none` when it leaves the buffer. -/
def stripLast (buf : List Char) : Option (List Char) :=
  (strAt? endString buf 0).bind fun linea => if linea = [] then none else some linea.dropLast

/-- `find_command`; `none` when an `int` overflows or memory outside of the line buffer is touched.
`junk` is what is in the buffer that `getline` has allocated when there is nothing to read. -/
def findCommand (junk : List Char) (file : List Char) (n : ℤ) : Option (List Char) := do
  let cant ← countLines file
  let diff ← int? (cant - n)
  let saltar := if 0 < diff then diff else 0
  match findFrom saltar 0 (fileLines file) with
  | some l => stripLast (l ++ [endString])
  | none => stripLast junk

/-! ### `show_history` -/

/-- The loop of `show_history`: the lines that are still in the file. -/
def skipFrom (innecesarias contador : ℤ) : List (List Char) → List (List Char)
  | [] => []
  | l :: ls => if contador < innecesarias then skipFrom innecesarias (contador + 1) ls else l :: ls

def allHistory : ℤ := -1

/-- `lineas_innecesarias`. -/
def lineasInnecesarias (cant n : ℤ) : Option ℤ := if n < cant then int? (cant - n) else some 0

/-- `show_history`: what it prints; `none` when an `int` overflows. -/
def showHistory (file : List Char) (n : ℤ) : Option (List Char) :=
  if n = 0 then some []
  else if n = allHistory then some file
  else do
    let cant ← countLines file
    let innecesarias ← lineasInnecesarias cant n
    return (skipFrom innecesarias 0 (fileLines file)).flatten

/-! ### The contract -/

/-- `!-n` finds the text of a line and `history n` prints from that line on; where there is no such
line nothing is found, whatever the buffer holds. -/
structure HistoryOk (file : List Char) (n : ℕ) : Prop where
  found : 0 < n → file ≠ [] → ∀ junk, ∃ l, (fileLines file)[(fileLines file).length - n]? = some l ∧
    findCommand junk file n = some (lineText endLine l)
  shown : showHistory file n =
    some ((fileLines file).drop ((fileLines file).length - n)).flatten
  nothing : n = 0 ∨ file = [] → ∀ junk, findCommand junk file n = some []

/-- There is a line, it has its newline and no null character, and the lines can be counted. -/
def Findable (file : List Char) (n : ℕ) : Prop :=
  0 < n ∧ (fileLines file).length ≤ intMax ∧
    ∃ l, (fileLines file)[(fileLines file).length - n]? = some l ∧ l.getLast? = some endLine ∧
      endString ∉ l

variable {file junk l : List Char} {ls : List (List Char)} {n : ℕ}

lemma countFrom_eq {cant : ℤ} (h : 0 ≤ cant) (ls : List (List Char)) :
    countFrom cant ls = if cant + ls.length ≤ intMax ∨ ls = [] then some (cant + ls.length) else none := by
  induction ls generalizing cant with
  | nil =>
    unfold countFrom
    rw [if_pos (.inr rfl), List.length_nil, Int.ofNat_zero, Int.add_zero]
  | cons l ls ih =>
    have hlow : -intMax - 1 ≤ cant + 1 := by
      unfold intMax
      omega
    unfold countFrom int?
    by_cases hmax : cant + 1 ≤ intMax
    · rw [if_pos ⟨hlow, hmax⟩, Option.bind_some, ih (by omega), List.length_cons]
      have hsum : cant + 1 + (ls.length : ℤ) = cant + ((ls.length + 1 : ℕ) : ℤ) := by omega
      rw [hsum]
      refine if_congr ?_ rfl rfl
      constructor
      · rintro (hle | rfl)
        · exact .inl hle
        · exact .inl (by simpa using hmax)
      · rintro (hle | hnil)
        · exact .inl hle
        · cases hnil
    · rw [if_neg (fun h => hmax h.2), Option.bind_none, if_neg]
      rintro (hle | hnil)
      · rw [List.length_cons] at hle
        omega
      · cases hnil

lemma countLines_eq : countLines file =
    if (fileLines file).length ≤ intMax then some ((fileLines file).length : ℤ) else none := by
  unfold countLines
  rw [countFrom_eq (Int.le_refl 0), Int.zero_add]
  refine if_congr ⟨?_, .inl⟩ rfl rfl
  rintro (hle | hnil)
  · exact hle
  · rw [hnil]
    decide

lemma findFrom_eq (k : ℕ) (i : ℤ) (ls : List (List Char)) : findFrom (i + k) i ls = ls[k]? := by
  induction ls generalizing k i with
  | nil => rfl
  | cons l ls ih =>
    unfold findFrom
    cases k with
    | zero =>
      rw [if_neg (by omega)]
      rfl
    | succ k =>
      have hsum : i + ((k + 1 : ℕ) : ℤ) = i + 1 + (k : ℤ) := by omega
      rw [if_pos (by omega), hsum, ih, List.getElem?_cons_succ]

lemma skipFrom_eq (k : ℕ) (i : ℤ) (ls : List (List Char)) : skipFrom (i + k) i ls = ls.drop k := by
  induction ls generalizing k i with
  | nil => rw [List.drop_nil]; rfl
  | cons l ls ih =>
    unfold skipFrom
    cases k with
    | zero =>
      rw [if_neg (by omega)]
      rfl
    | succ k =>
      have hsum : i + ((k + 1 : ℕ) : ℤ) = i + 1 + (k : ℤ) := by omega
      rw [if_pos (by omega), hsum, ih, List.drop_succ_cons]

lemma int?_some {z : ℤ} (hlow : -intMax - 1 ≤ z) (hmax : z ≤ intMax) : int? z = some z := by
  unfold int?
  rw [if_pos ⟨hlow, hmax⟩]

/-- `find_command` skips all but the last `n` lines. -/
lemma findCommand_eq (hn : (n : ℤ) ≤ intMax) (hmax : (fileLines file).length ≤ intMax) :
    findCommand junk file n =
      match (fileLines file)[(fileLines file).length - n]? with
      | some l => stripLast (l ++ [endString])
      | none => stripLast junk := by
  have hdiff : int? ((fileLines file).length - (n : ℤ)) = some ((fileLines file).length - (n : ℤ)) :=
    int?_some (by unfold intMax at *; omega) (by omega)
  have hskip : (if (0 : ℤ) < (fileLines file).length - (n : ℤ) then
      ((fileLines file).length : ℤ) - n else 0) = 0 + ((fileLines file).length - n : ℕ) := by
    split
    · omega
    · omega
  unfold findCommand
  rw [countLines_eq, if_pos hmax]
  simp only [Option.bind_eq_bind, Option.bind_some, hdiff]
  rw [hskip, findFrom_eq]

/-- `show_history` too. -/
lemma showHistory_eq (hmax : (fileLines file).length ≤ intMax) :
    showHistory file n = some ((fileLines file).drop ((fileLines file).length - n)).flatten := by
  unfold showHistory
  by_cases hzero : n = 0
  · rw [if_pos (by rw [hzero]; rfl), hzero, Nat.sub_zero, List.drop_length, List.flatten_nil]
  have hskip : lineasInnecesarias (fileLines file).length n =
      some (0 + (((fileLines file).length - n : ℕ) : ℤ)) := by
    unfold lineasInnecesarias
    split
    · rw [int?_some (by unfold intMax at *; omega) (by omega)]
      congr 1
      omega
    · congr 1
      omega
  have hall : ¬ (n : ℤ) = allHistory := by
    unfold allHistory
    omega
  rw [if_neg (by omega), if_neg hall, countLines_eq, if_pos hmax]
  simp only [Option.bind_eq_bind, Option.bind_some, hskip]
  rw [skipFrom_eq]
  rfl

lemma strAt?_zero (buf : List Char) :
    strAt? endString buf 0 = if endString ∈ buf then some (cstr endString buf) else none := rfl

lemma stripLast_line (hne : l ≠ []) (hnul : endString ∉ l) :
    stripLast (l ++ [endString]) = some l.dropLast := by
  unfold stripLast
  rw [strAt?_zero, if_pos (List.mem_append_right l List.mem_cons_self), cstr_append hnul,
    Option.bind_some, if_neg hne]

lemma not_mem_stripLast {buf r : List Char} (h : stripLast buf = some r) : endString ∉ r := by
  unfold stripLast at h
  rw [strAt?_zero] at h
  split at h
  · rw [Option.bind_some] at h
    split at h
    · cases h
    · cases h
      intro hmem
      have htake := List.mem_takeWhile_imp (List.mem_of_mem_dropLast hmem)
      simp at htake
  · cases h

/-- The buffer of a `getline` that has read nothing need not hold a string. -/
lemma findCommand_nothing (h : (fileLines file)[(fileLines file).length - n]? = none)
    (hn : (n : ℤ) ≤ intMax) : findCommand [] file n = none := by
  by_cases hmax : (fileLines file).length ≤ intMax
  · rw [findCommand_eq hn hmax, h]
    rfl
  · unfold findCommand
    rw [countLines_eq, if_neg hmax]
    rfl

/-- `!-n` and `history n` agree on the line exactly if it has its newline and no null character. -/
theorem historyOk_iff (file : List Char) (n : ℕ) (hn : (n : ℤ) ≤ intMax) :
    HistoryOk file n ↔ Findable file n := by
  constructor
  · intro h
    have hpos : 0 < n := by
      by_contra hzero
      obtain rfl : n = 0 := by omega
      have hnone := findCommand_nothing (List.getElem?_eq_none (Nat.le_refl _) :
        (fileLines file)[(fileLines file).length - 0]? = none) hn
      rw [h.nothing (.inl rfl)] at hnone
      cases hnone
    have hne : file ≠ [] := by
      rintro rfl
      have hnone : findCommand [] [] n = none := findCommand_nothing rfl hn
      rw [h.nothing (.inr rfl)] at hnone
      cases hnone
    obtain ⟨l, hl, hfound⟩ := h.found hpos hne []
    have hmax : (fileLines file).length ≤ intMax := by
      by_contra hmax
      unfold findCommand at hfound
      rw [countLines_eq, if_neg hmax] at hfound
      cases hfound
    rw [findCommand_eq hn hmax, hl] at hfound
    have hclean := not_mem_stripLast hfound
    have hlne : l ≠ [] := rawLines_ne_nil (List.mem_of_getElem? hl)
    refine ⟨hpos, hmax, l, hl, ?_⟩
    by_cases hlast : l.getLast? = some endLine
    · refine ⟨hlast, ?_⟩
      unfold lineText at hclean
      rw [if_pos hlast] at hclean
      obtain ⟨ls, rfl⟩ := List.getLast?_eq_some_iff.mp hlast
      rw [List.dropLast_concat] at hclean
      intro hmem
      rcases List.mem_append.mp hmem with hmem | hmem
      · exact hclean hmem
      · exact absurd (List.mem_singleton.mp hmem) (by decide)
    · -- the last character of the line is lost
      unfold lineText at hclean hfound
      rw [if_neg hlast] at hclean hfound
      dsimp only at hfound
      rw [stripLast_line hlne hclean] at hfound
      have hlen := congrArg List.length (Option.some.inj hfound)
      have hpos' := List.length_pos_of_ne_nil hlne
      rw [List.length_dropLast] at hlen
      omega
  · rintro ⟨hpos, hmax, l, hl, hlast, hclean⟩
    have hlne : l ≠ [] := rawLines_ne_nil (List.mem_of_getElem? hl)
    refine ⟨fun _ _ junk => ⟨l, hl, ?_⟩, showHistory_eq hmax, ?_⟩
    · unfold lineText
      rw [findCommand_eq hn hmax, hl, if_pos hlast]
      exact stripLast_line hlne hclean
    · rintro (rfl | rfl)
      · exact absurd hpos (Nat.lt_irrefl 0)
      · cases hl

theorem historyOk_two : HistoryOk "ls\npwd\n".toList 2 ↔ Findable "ls\npwd\n".toList 2 :=
  historyOk_iff "ls\npwd\n".toList 2 (by decide)

/-- A last line without newline loses its last character. -/
theorem historyOk_fails : ¬ ∀ (file : List Char) (n : ℕ), (n : ℤ) ≤ intMax → HistoryOk file n := by
  intro h
  obtain ⟨l, hl, hfound⟩ := (h ['l', 's'] 1 (by decide)).found (by decide) (by decide) []
  cases hl
  exact absurd hfound (by decide)

end SistemasOperativos.Shell
