import SistemasOperativos.Shell.History
import SistemasOperativos.Shell.Status
import SistemasOperativos.Shell.Tokens

/-!
# The commands of the shell

`builtin.c` and the part of `run_cmd` that tries them one after the other on a line. Each command
recognises itself by a test of its own on the whole line.
-/

namespace SistemasOperativos.Shell

open Library

/-! ### `atoi` -/

def isSpaceChar (c : Char) : Bool :=
  c = ' ' || c = '\t' || c = '\n' || c = '\x0b' || c = '\x0c' || c = '\r'

/-- The value of a string of digits. -/
def natOf (ds : List Char) : ℕ := ds.foldl (fun n c => 10 * n + (c.toNat - '0'.toNat)) 0

/-- `atoi`; `none` when the value is no `int`. -/
def atoi? (s : List Char) : Option ℤ :=
  match s.dropWhile isSpaceChar with
  | '-' :: t => int? (-(natOf (t.takeWhile Char.isDigit) : ℤ))
  | '+' :: t => int? (natOf (t.takeWhile Char.isDigit))
  | t => int? (natOf (t.takeWhile Char.isDigit))

/-! ### `builtin.c` -/

/-- What a line finds outside the shell: `HOME`, whether `chdir` succeeds, the result of `getcwd` and
the history file if it can be opened (with the line, which has been saved before). -/
structure Outside where
  home : Option (List Char)
  chdir : List Char → Bool
  getcwd : Option (List Char)
  history : Option (List Char)

/-- What the shell does about a line. `program`: it is parsed and executed in a child. -/
inductive Reaction
  | prompt
  | changed (dir : List Char)
  | exit
  | workingDir (path : List Char)
  | history (shown : Option (List Char))
  | program (line : List Char)

def cdName : List Char := ['c', 'd']
def exitName : List Char := ['e', 'x', 'i', 't']
def pwdName : List Char := ['p', 'w', 'd']
def historyName : List Char := ['h', 'i', 's', 't', 'o', 'r', 'y']

def exitShell (cmd : List Char) : Bool := cmd = exitName

/-- `cd`; `none` when it returns 0. -/
def cd (env : Outside) (cmd : List Char) : Option Reaction :=
  if cmd = cdName then
    match blockContains cmd space with
    | some pos =>
      if env.chdir (cmd.drop (pos + 1)) = false then none
      else env.getcwd.map fun _ => .changed (cmd.drop (pos + 1))
    | none =>
      match env.home with
      | none => none
      | some home => if env.chdir home = false then none else some (.changed home)
  else none

/-- `pwd`; `none` when it returns 0. -/
def pwd (env : Outside) (cmd : List Char) : Option Reaction :=
  if cmd = pwdName then env.getcwd.map .workingDir else none

/-- `history`; `none` when it returns 0. -/
def history (env : Outside) (cmd : List Char) : Option Reaction :=
  if historyName <:+: cmd then
    env.history.map fun file =>
      if cmd = historyName then .history (showHistory file allHistory)
      -- `cmd + strlen("history ")`
      else .history ((atoi? (cmd.drop 8)).bind (showHistory file))
  else none

/-- `run_cmd` on a line that is no event designator, and `run_cmd_without_history`. -/
def runLine (env : Outside) (cmd : List Char) : Reaction :=
  if cmd = [] then .prompt
  else
    match cd env cmd with
    | some r => r
    | none =>
      if exitShell cmd then .exit
      else
        match pwd env cmd with
        | some r => r
        | none =>
          match history env cmd with
          | some r => r
          | none => .program cmd

/-! ### The contract -/

def firstWord (cmd : List Char) : Option (List Char) := (tokens cmd).head?

def builtinNames : List (List Char) := [cdName, exitName, pwdName, historyName]

def Numeral (d : List Char) : Prop := d ≠ [] ∧ ∀ c ∈ d, c.isDigit = true

/-- The text of the last `n` lines. -/
def lastLines (file : List Char) (n : ℕ) : List Char :=
  ((fileLines file).drop ((fileLines file).length - n)).flatten

/-- The first word decides: the four commands are handled in the shell and do what they should, any
other line is a program. -/
structure DispatchOk (env : Outside) (cmd : List Char) : Prop where
  cd : firstWord cmd = some cdName → ∃ dir, runLine env cmd = .changed dir
  cdHome : tokens cmd = [cdName] → ∃ home, env.home = some home ∧ runLine env cmd = .changed home
  cdDir : ∀ dir, tokens cmd = [cdName, dir] → runLine env cmd = .changed dir
  exit : firstWord cmd = some exitName → runLine env cmd = .exit
  pwd : firstWord cmd = some pwdName → ∃ path, runLine env cmd = .workingDir path
  history : firstWord cmd = some historyName → ∃ shown, runLine env cmd = .history shown
  historyAll : tokens cmd = [historyName] → ∃ file, env.history = some file ∧
    runLine env cmd = .history (some file)
  historyLast : ∀ d, tokens cmd = [historyName, d] → Numeral d → ∃ file, env.history = some file ∧
    runLine env cmd = .history (some (lastLines file (natOf d)))
  program : (∀ w ∈ firstWord cmd, w ∉ builtinNames) → runLine env cmd = .program cmd

/-- The spaces before the first word. -/
def indent (cmd : List Char) : ℕ := (cmd.takeWhile (· = space)).length

/-- The number is found behind `history`, or makes no difference. -/
structure Shows (file cmd : List Char) : Prop where
  all : tokens cmd = [historyName] → cmd = historyName ∨ file = []
  last : ∀ d, tokens cmd = [historyName, d] → Numeral d →
    indent cmd ≤ 1 ∧ natOf d ≤ intMax ∧ (fileLines file).length ≤ intMax ∨ natOf d = 0 ∨
      2 ≤ indent cmd ∧ file = []

/-- The commands stand alone on the line (`history` with a number behind it) and their calls succeed;
the other lines are not empty, and `history` is nowhere in them or has no file. -/
structure Dispatchable (env : Outside) (cmd : List Char) : Prop where
  cd : firstWord cmd = some cdName →
    cmd = cdName ∧ ∃ home, env.home = some home ∧ env.chdir home = true
  exit : firstWord cmd = some exitName → cmd = exitName
  pwd : firstWord cmd = some pwdName → cmd = pwdName ∧ env.getcwd ≠ none
  history : firstWord cmd = some historyName → ∃ file, env.history = some file ∧ Shows file cmd
  other : (∀ w ∈ firstWord cmd, w ∉ builtinNames) →
    cmd ≠ [] ∧ (¬ historyName <:+: cmd ∨ env.history = none)

/-! ### Words -/

variable {env : Outside} {cmd w rest s d file : List Char} {ws : List (List Char)}

lemma tokens_space (s : List Char) : tokens (space :: s) = tokens s := by
  have hsplit : (space :: s).splitOn space = [] :: s.splitOn space :=
    List.splitOn_append_cons_self_of_not_mem (List.not_mem_nil : space ∉ []) s
  unfold tokens
  rw [hsplit]
  rfl

lemma tokens_word (hw : w ≠ []) (hspace : space ∉ w)
    (hrest : rest = [] ∨ ∃ r, rest = space :: r) : tokens (w ++ rest) = w :: tokens rest := by
  have hkeep (ls : List (List Char)) : (w :: ls).filter (· ≠ []) = w :: ls.filter (· ≠ []) :=
    List.filter_cons_of_pos (by simpa using hw)
  rcases hrest with rfl | ⟨r, rfl⟩
  · unfold tokens
    rw [List.append_nil, List.splitOn_eq_singleton hspace, hkeep]
    rfl
  · rw [tokens_space]
    unfold tokens
    rw [List.splitOn_append_cons_self_of_not_mem hspace, hkeep]

/-- The first word, with what is before it and behind it. -/
structure Starts (w rest : List Char) : Prop where
  ne_nil : w ≠ []
  noSpace : space ∉ w
  apart : rest = [] ∨ ∃ r, rest = space :: r

lemma exists_word (cmd : List Char) : ∃ k, cmd = List.replicate k space ∧ tokens cmd = [] ∨
    ∃ w rest, cmd = List.replicate k space ++ (w ++ rest) ∧ Starts w rest ∧
      tokens cmd = w :: tokens rest := by
  induction cmd with
  | nil => exact ⟨0, .inl ⟨rfl, rfl⟩⟩
  | cons c cmd ih =>
    by_cases hc : c = space
    · subst hc
      rw [tokens_space]
      obtain ⟨k, ⟨rfl, htok⟩ | ⟨w, rest, rfl, hstarts, htok⟩⟩ := ih
      · exact ⟨k + 1, .inl ⟨rfl, htok⟩⟩
      · exact ⟨k + 1, .inr ⟨w, rest, rfl, ⟨hstarts.ne_nil, hstarts.noSpace, hstarts.apart⟩, htok⟩⟩
    · refine ⟨0, .inr ⟨(c :: cmd).takeWhile (· ≠ space), (c :: cmd).dropWhile (· ≠ space), ?_, ?_⟩⟩
      · exact List.takeWhile_append_dropWhile.symm
      have hne : (c :: cmd).takeWhile (· ≠ space) ≠ [] := by
        rw [List.takeWhile_cons_of_pos (by simpa using hc)]
        exact List.cons_ne_nil _ _
      have hspace : space ∉ (c :: cmd).takeWhile (· ≠ space) := by
        intro hmem
        simpa using List.mem_takeWhile_imp hmem
      have hrest : (c :: cmd).dropWhile (· ≠ space) = [] ∨
          ∃ r, (c :: cmd).dropWhile (· ≠ space) = space :: r := by
        cases hdrop : (c :: cmd).dropWhile (· ≠ space) with
        | nil => exact .inl rfl
        | cons a r =>
          right
          have hnot := List.head_dropWhile_not (· ≠ space) (hdrop ▸ List.cons_ne_nil a r)
          simp only [hdrop, List.head_cons] at hnot
          have ha : a = space := by simpa using hnot
          exact ⟨r, by rw [ha]⟩
      refine ⟨⟨hne, hspace, hrest⟩, ?_⟩
      have htok := tokens_word hne hspace hrest
      rwa [List.takeWhile_append_dropWhile] at htok

/-! ### Reactions -/

lemma history_cases (env : Outside) (cmd : List Char) :
    history env cmd = none ∨ ∃ shown, history env cmd = some (.history shown) := by
  unfold history
  split
  · cases env.history with
    | none => exact .inl rfl
    | some file =>
      rw [Option.map_some]
      split
      · exact .inr ⟨_, rfl⟩
      · exact .inr ⟨_, rfl⟩
  · exact .inl rfl

lemma history_eq_none : history env cmd = none ↔ ¬ historyName <:+: cmd ∨ env.history = none := by
  unfold history
  split
  · rename_i h
    rw [Option.map_eq_none_iff]
    exact ⟨.inr, fun hor => hor.resolve_left (not_not_intro h)⟩
  · rename_i h
    exact iff_of_true rfl (.inl h)

/-- A line that is not exactly one of the first three names. -/
lemma runLine_of_ne (hne : cmd ≠ []) (hcd : cmd ≠ cdName) (hexit : cmd ≠ exitName)
    (hpwd : cmd ≠ pwdName) : runLine env cmd = (history env cmd).getD (.program cmd) := by
  have hcd' : cd env cmd = none := by
    unfold cd
    rw [if_neg hcd]
  have hexit' : exitShell cmd = false := by
    unfold exitShell
    simpa using hexit
  have hpwd' : pwd env cmd = none := by
    unfold pwd
    rw [if_neg hpwd]
  unfold runLine
  rw [if_neg hne, hcd', hexit', hpwd']
  cases history env cmd with
  | none => rfl
  | some r => rfl

lemma runLine_cd (env : Outside) : runLine env cdName =
    match env.home with
    | some home => if env.chdir home = true then .changed home else .program cdName
    | none => .program cdName := by
  have hhistory : history env cdName = none := history_eq_none.mpr (.inl (by decide))
  have hblock : blockContains cdName space = none := by decide
  have hne : cdName ≠ [] := List.cons_ne_nil _ _
  unfold runLine cd
  rw [if_neg hne, if_pos rfl, hblock]
  cases env.home with
  | none =>
    dsimp only
    rw [hhistory]
    rfl
  | some home =>
    dsimp only
    cases env.chdir home with
    | true => rfl
    | false =>
      rw [if_pos rfl, if_neg Bool.false_ne_true, hhistory]
      rfl

lemma runLine_exit (env : Outside) : runLine env exitName = .exit := rfl

lemma runLine_pwd (env : Outside) : runLine env pwdName =
    match env.getcwd with
    | some path => .workingDir path
    | none => .program pwdName := by
  have hhistory : history env pwdName = none := history_eq_none.mpr (.inl (by decide))
  have hcd : cd env pwdName = none := rfl
  have hexit : exitShell pwdName = false := rfl
  have hne : pwdName ≠ [] := List.cons_ne_nil _ _
  unfold runLine pwd
  rw [if_neg hne, hcd, hexit, if_pos rfl, hhistory]
  cases env.getcwd with
  | none => rfl
  | some path => rfl

/-- Each of the first three reactions comes from one line only. -/
lemma eq_of_runLine (env : Outside) (cmd : List Char) : (∀ dir, runLine env cmd = .changed dir → cmd = cdName) ∧
    (runLine env cmd = .exit → cmd = exitName) ∧
    ∀ path, runLine env cmd = .workingDir path → cmd = pwdName := by
  by_cases hcd : cmd = cdName
  · subst hcd
    refine ⟨fun _ _ => rfl, ?_, ?_⟩
    · intro h
      rw [runLine_cd] at h
      split at h
      · split at h <;> cases h
      · cases h
    · intro path h
      rw [runLine_cd] at h
      split at h
      · split at h <;> cases h
      · cases h
  by_cases hexit : cmd = exitName
  · subst hexit
    exact ⟨nofun, fun _ => rfl, nofun⟩
  by_cases hpwd : cmd = pwdName
  · subst hpwd
    refine ⟨?_, ?_, fun _ _ => rfl⟩
    · intro dir h
      rw [runLine_pwd] at h
      split at h <;> cases h
    · intro h
      rw [runLine_pwd] at h
      split at h <;> cases h
  by_cases hne : cmd = []
  · subst hne
    exact ⟨nofun, nofun, nofun⟩
  · rw [runLine_of_ne hne hcd hexit hpwd]
    rcases history_cases env cmd with hnone | ⟨shown, hsome⟩
    · rw [hnone]
      exact ⟨nofun, nofun, nofun⟩
    · rw [hsome]
      exact ⟨nofun, nofun, nofun⟩

/-- The results of the calls of the commands. -/
def Outside.calls (env : Outside) : Calls where
  chdir := env.home.any env.chdir
  getcwd := env.getcwd.isSome
  fopen := env.history.isSome

lemma handled_name (calls : Calls) : handled cdName calls = calls.chdir ∧
    handled exitName calls = true ∧ handled pwdName calls = calls.getcwd := by
  obtain ⟨chdir, getcwd, fopen⟩ := calls
  revert chdir getcwd fopen
  decide

/-- A program is run exactly where no command has handled the line. -/
lemma program_iff (hne : cmd ≠ []) : runLine env cmd = .program cmd ↔ handled cmd env.calls = false := by
  by_cases hcd : cmd = cdName
  · subst hcd
    rw [(handled_name env.calls).1, runLine_cd]
    unfold Outside.calls
    cases env.home with
    | none => exact iff_of_true rfl rfl
    | some home =>
      dsimp only
      rw [Option.any_some]
      by_cases hok : env.chdir home = true
      · rw [if_pos hok, hok]
        exact iff_of_false nofun nofun
      · rw [if_neg hok]
        exact iff_of_true rfl (Bool.eq_false_iff.mpr hok)
  by_cases hexit : cmd = exitName
  · subst hexit
    rw [(handled_name env.calls).2.1]
    exact iff_of_false nofun nofun
  by_cases hpwd : cmd = pwdName
  · subst hpwd
    rw [(handled_name env.calls).2.2, runLine_pwd]
    unfold Outside.calls
    cases env.getcwd with
    | none => exact iff_of_true rfl rfl
    | some path => exact iff_of_false nofun nofun
  have hhandled : handled cmd env.calls = false ↔ history env cmd = none := by
    rw [history_eq_none]
    unfold cdName at hcd
    unfold exitName at hexit
    unfold pwdName at hpwd
    unfold handled Outside.calls historyName
    simp [hcd, hexit, hpwd, imp_iff_not_or]
  rw [runLine_of_ne hne hcd hexit hpwd, hhandled]
  rcases history_cases env cmd with hnone | ⟨shown, hsome⟩
  · rw [hnone]
    exact iff_of_true rfl rfl
  · rw [hsome]
    exact iff_of_false nofun nofun

/-! ### Numbers -/

lemma isDigit_not_space {c : Char} (h : c.isDigit = true) : isSpaceChar c = false := by
  by_contra hsp
  rw [Bool.not_eq_false] at hsp
  unfold isSpaceChar at hsp
  simp only [Bool.or_eq_true, decide_eq_true_eq] at hsp
  rcases hsp with ((((rfl | rfl) | rfl) | rfl) | rfl) | rfl <;> exact absurd h (by decide)

lemma dropWhile_replicate (k : ℕ) (s : List Char) :
    (List.replicate k space ++ s).dropWhile isSpaceChar = s.dropWhile isSpaceChar := by
  induction k with
  | zero => rfl
  | succ k ih =>
    rw [List.replicate_succ, List.cons_append, List.dropWhile_cons_of_pos (by decide), ih]

/-- A number behind spaces. -/
lemma atoi?_numeral (k : ℕ) (hd : Numeral d) (hrest : rest = [] ∨ ∃ r, rest = space :: r) :
    atoi? (List.replicate k space ++ (d ++ rest)) = int? (natOf d) := by
  obtain ⟨hne, hdigits⟩ := hd
  have htake : (d ++ rest).takeWhile Char.isDigit = d := by
    rw [List.takeWhile_append_of_pos hdigits]
    rcases hrest with rfl | ⟨r, rfl⟩
    · rw [List.takeWhile_nil, List.append_nil]
    · rw [List.takeWhile_cons_of_neg (by decide), List.append_nil]
  cases d with
  | nil => exact absurd rfl hne
  | cons c d =>
    have hc := hdigits c List.mem_cons_self
    have hspace : ¬ isSpaceChar c = true := by
      rw [isDigit_not_space hc]
      exact Bool.false_ne_true
    rw [List.cons_append] at htake ⊢
    unfold atoi?
    rw [dropWhile_replicate, List.dropWhile_cons_of_neg hspace]
    split
    · rename_i heq
      cases heq
      exact absurd hc (by decide)
    · rename_i heq
      cases heq
      exact absurd hc (by decide)
    · rw [htake]

/-- No number behind spaces. -/
lemma atoi?_other (k : ℕ) {c : Char} (hc : isSpaceChar c = false ∧ c ≠ '-' ∧ c ≠ '+' ∧
    c.isDigit = false) (s : List Char) : atoi? (List.replicate k space ++ c :: s) = some 0 := by
  obtain ⟨hspace, hminus, hplus, hdigit⟩ := hc
  have hspace' : ¬ isSpaceChar c = true := by
    rw [hspace]
    exact Bool.false_ne_true
  have hdigit' : ¬ c.isDigit = true := by
    rw [hdigit]
    exact Bool.false_ne_true
  unfold atoi?
  rw [dropWhile_replicate, List.dropWhile_cons_of_neg hspace']
  split
  · rename_i heq
    cases heq
    exact absurd rfl hminus
  · rename_i heq
    cases heq
    exact absurd rfl hplus
  · rw [List.takeWhile_cons_of_neg hdigit']
    rfl

lemma atoi?_spaces (k : ℕ) : atoi? (List.replicate k space) = some 0 := by
  have hdrop := dropWhile_replicate k []
  rw [List.append_nil] at hdrop
  unfold atoi?
  rw [hdrop]
  rfl

/-- Position 8 is inside the word `history` or before it. -/
lemma atoi?_indented (j : ℕ) (rest : List Char) :
    atoi? ((List.replicate (j + 2) space ++ (historyName ++ rest)).drop 8) = some 0 := by
  match j with
  | 0 => exact atoi?_other 0 (by decide) rest
  | 1 => exact atoi?_other 0 (by decide) ('y' :: rest)
  | 2 => exact atoi?_other 0 (by decide) ('r' :: 'y' :: rest)
  | 3 => exact atoi?_other 0 (by decide) ('o' :: 'r' :: 'y' :: rest)
  | 4 => exact atoi?_other 0 (by decide) ('t' :: 'o' :: 'r' :: 'y' :: rest)
  | 5 => exact atoi?_other 0 (by decide) ('s' :: 't' :: 'o' :: 'r' :: 'y' :: rest)
  | i + 6 =>
    have hsplit : List.replicate (i + 6 + 2) space = List.replicate 8 space ++ List.replicate i space := by
      rw [← List.replicate_add, Nat.add_comm 8]
    rw [hsplit, List.append_assoc]
    exact atoi?_other i (by decide) ('i' :: 's' :: 't' :: 'o' :: 'r' :: 'y' :: rest)

lemma indent_eq (k : ℕ) (hw : Starts w rest) :
    indent (List.replicate k space ++ (w ++ rest)) = k := by
  obtain ⟨hne, hspace, -⟩ := hw
  cases w with
  | nil => exact absurd rfl hne
  | cons c w =>
    have hc : c ≠ space := fun h => hspace (List.mem_cons.mpr (.inl h.symm))
    have htail : (c :: (w ++ rest)).takeWhile (· = space) = [] :=
      List.takeWhile_cons_of_neg (by simpa using hc)
    have hall : ∀ a ∈ List.replicate k space, decide (a = space) = true := fun a ha =>
      decide_eq_true (List.eq_of_mem_replicate ha)
    unfold indent
    rw [List.takeWhile_append_of_pos hall, List.cons_append, htail, List.append_nil,
      List.length_replicate]

/-- The number of a line that begins with `history`. -/
lemma atoi?_history (k : ℕ) (hrest : rest = [] ∨ ∃ r, rest = space :: r)
    (hne : List.replicate k space ++ (historyName ++ rest) ≠ historyName) :
    atoi? ((List.replicate k space ++ (historyName ++ rest)).drop 8) =
      if k ≤ 1 then atoi? rest else some 0 := by
  match k with
  | 0 =>
    rcases hrest with rfl | ⟨r, rfl⟩
    · exact absurd rfl hne
    · rfl
  | 1 => rfl
  | j + 2 =>
    rw [if_neg (by omega)]
    exact atoi?_indented j rest

/-! ### Results -/

lemma exists_of_tokens (h : tokens cmd = w :: ws) : ∃ k rest,
    cmd = List.replicate k space ++ (w ++ rest) ∧ Starts w rest ∧ tokens rest = ws := by
  obtain ⟨k, ⟨-, htok⟩ | ⟨w', rest, heq, hstarts, htok⟩⟩ := exists_word cmd
  · rw [htok] at h
    cases h
  · rw [htok] at h
    cases h
    exact ⟨k, rest, heq, hstarts, rfl⟩

lemma eq_of_tokens_nil (h : tokens s = []) : ∃ k, s = List.replicate k space := by
  obtain ⟨k, ⟨heq, -⟩ | ⟨w, rest, -, -, htok⟩⟩ := exists_word s
  · exact ⟨k, heq⟩
  · rw [htok] at h
    cases h

lemma tokens_of_firstWord (h : firstWord cmd = some w) : ∃ ws, tokens cmd = w :: ws := by
  unfold firstWord at h
  obtain ⟨ws, hws⟩ := List.head?_eq_some_iff.mp h
  exact ⟨ws, hws⟩

lemma infix_of_firstWord (h : firstWord cmd = some w) : w <:+: cmd := by
  obtain ⟨ws, hws⟩ := tokens_of_firstWord h
  obtain ⟨k, rest, heq, -, -⟩ := exists_of_tokens hws
  exact ⟨List.replicate k space, rest, by rw [heq, List.append_assoc]⟩

lemma lastLines_eq_nil {n : ℕ} : lastLines file n = [] ↔ n = 0 ∨ file = [] := by
  unfold lastLines
  constructor
  · intro h
    by_contra hnot
    rw [not_or, ← Ne, ← Ne] at hnot
    obtain ⟨hn, hfile⟩ := hnot
    have hlines : 0 < (fileLines file).length :=
      List.length_pos_of_ne_nil fun hnil => hfile (rawLines_eq_nil.mp hnil)
    have hlt : (fileLines file).length - n < (fileLines file).length := by omega
    rw [List.flatten_eq_nil_iff, List.drop_eq_getElem_cons hlt] at h
    exact rawLines_ne_nil (List.getElem_mem hlt) (h _ List.mem_cons_self)
  · rintro (rfl | rfl)
    · rw [Nat.sub_zero, List.drop_length, List.flatten_nil]
    · have hnil : fileLines [] = [] := rfl
      rw [hnil, List.drop_nil, List.flatten_nil]

/-- The last lines are shown if both numbers are of type `int`. -/
lemma showHistory_last {n : ℕ} : (int? n).bind (showHistory file) = some (lastLines file n) ↔
    n = 0 ∨ (n : ℤ) ≤ intMax ∧ (fileLines file).length ≤ intMax := by
  by_cases hzero : n = 0
  · subst hzero
    refine iff_of_true ?_ (.inl rfl)
    rw [lastLines_eq_nil.mpr (.inl rfl)]
    rfl
  rw [or_iff_right hzero]
  by_cases hn : (n : ℤ) ≤ intMax
  · rw [int?_some (by unfold intMax; omega) hn, Option.bind_some, and_iff_right hn]
    constructor
    · intro h
      by_contra hmax
      have hall : ¬ (n : ℤ) = allHistory := by
        unfold allHistory
        omega
      unfold showHistory at h
      rw [if_neg (by omega), if_neg hall, countLines_eq, if_neg hmax] at h
      cases h
    · exact showHistory_eq
  · refine iff_of_false ?_ (fun h => hn h.1)
    unfold int?
    rw [if_neg (fun h => hn h.2)]
    exact nofun

lemma history_file (h : historyName <:+: cmd) (hfile : env.history = some file)
    (hne : cmd ≠ historyName) :
    history env cmd = some (.history ((atoi? (cmd.drop 8)).bind (showHistory file))) := by
  unfold history
  rw [if_pos h, hfile, Option.map_some, if_neg hne]

lemma history_all (h : tokens cmd = [historyName]) (hfile : env.history = some file) :
    history env cmd = some (.history (some file)) ↔ cmd = historyName ∨ file = [] := by
  have hinfix : historyName <:+: cmd := infix_of_firstWord (by unfold firstWord; rw [h]; rfl)
  by_cases hne : cmd = historyName
  · refine iff_of_true ?_ (.inl hne)
    subst hne
    unfold history
    rw [if_pos hinfix, hfile, Option.map_some, if_pos rfl]
    rfl
  · obtain ⟨k, rest, rfl, hstarts, hrest⟩ := exists_of_tokens h
    obtain ⟨m, rfl⟩ := eq_of_tokens_nil hrest
    have hzero : atoi? ((List.replicate k space ++ (historyName ++ List.replicate m space)).drop 8) =
        some 0 := by
      rw [atoi?_history k hstarts.apart hne]
      split
      · exact atoi?_spaces m
      · rfl
    rw [history_file hinfix hfile hne, hzero, or_iff_right hne]
    constructor
    · intro heq
      cases heq
      rfl
    · rintro rfl
      rfl

lemma history_last (h : tokens cmd = [historyName, d]) (hd : Numeral d)
    (hfile : env.history = some file) :
    history env cmd = some (.history (some (lastLines file (natOf d)))) ↔
      indent cmd ≤ 1 ∧ natOf d ≤ intMax ∧ (fileLines file).length ≤ intMax ∨ natOf d = 0 ∨
        2 ≤ indent cmd ∧ file = [] := by
  have hinfix : historyName <:+: cmd := infix_of_firstWord (by unfold firstWord; rw [h]; rfl)
  obtain ⟨k, rest, rfl, hstarts, hrest⟩ := exists_of_tokens h
  obtain ⟨m, rest', rfl, hstarts', -⟩ := exists_of_tokens hrest
  have hne : List.replicate k space ++ (historyName ++ (List.replicate m space ++ (d ++ rest'))) ≠
      historyName := by
    intro heq
    have hlen := congrArg List.length heq
    have hpos := List.length_pos_of_ne_nil hstarts'.ne_nil
    simp only [List.length_append] at hlen
    omega
  rw [history_file hinfix hfile hne, atoi?_history k hstarts.apart hne, indent_eq k hstarts]
  simp only [Option.some.injEq, Reaction.history.injEq]
  by_cases hk : k ≤ 1
  · rw [if_pos hk, atoi?_numeral m hd hstarts'.apart, showHistory_last]
    have hk' : ¬ 2 ≤ k := by omega
    simp only [hk, hk', true_and, false_and, or_false]
    exact or_comm
  · have hk' : 2 ≤ k := by omega
    rw [if_neg hk]
    simp only [hk, hk', true_and, false_and, false_or]
    rw [← lastLines_eq_nil]
    constructor
    · intro heq
      exact (Option.some.inj heq).symm
    · intro heq
      rw [heq]
      rfl

/-- Any line but the first three names goes to `history` or to a program. -/
lemma runLine_other (hne : cmd ≠ []) (hcd : firstWord cmd ≠ some cdName)
    (hexit : firstWord cmd ≠ some exitName) (hpwd : firstWord cmd ≠ some pwdName) :
    runLine env cmd = (history env cmd).getD (.program cmd) := by
  apply runLine_of_ne hne
  · rintro rfl
    exact hcd rfl
  · rintro rfl
    exact hexit rfl
  · rintro rfl
    exact hpwd rfl

lemma runLine_history (h : firstWord cmd = some historyName) {shown : Option (List Char)} :
    runLine env cmd = .history shown ↔ history env cmd = some (.history shown) := by
  have hne : cmd ≠ [] := by
    rintro rfl
    cases h
  have hcd : some historyName ≠ some cdName := by decide
  have hexit : some historyName ≠ some exitName := by decide
  have hpwd : some historyName ≠ some pwdName := by decide
  rw [runLine_other hne (h ▸ hcd) (h ▸ hexit) (h ▸ hpwd)]
  constructor
  · intro hrun
    rcases history_cases env cmd with hnone | ⟨shown', hsome⟩
    · rw [hnone] at hrun
      cases hrun
    · rw [hsome] at hrun
      cases hrun
      exact hsome
  · intro hrun
    rw [hrun]
    rfl

/-- The shell treats a line as its first word says exactly if the line is dispatchable. -/
theorem dispatchOk_iff (env : Outside) (cmd : List Char) :
    DispatchOk env cmd ↔ Dispatchable env cmd := by
  obtain ⟨hchanged, hexited, hworking⟩ := eq_of_runLine env cmd
  constructor
  · intro h
    refine ⟨?_, fun hw => hexited (h.exit hw), ?_, ?_, ?_⟩
    · intro hw
      obtain ⟨dir, hrun⟩ := h.cd hw
      obtain rfl := hchanged dir hrun
      rw [runLine_cd] at hrun
      refine ⟨rfl, ?_⟩
      cases hhome : env.home with
      | none =>
        rw [hhome] at hrun
        cases hrun
      | some home =>
        rw [hhome] at hrun
        refine ⟨home, rfl, ?_⟩
        by_contra hfail
        dsimp only at hrun
        rw [if_neg hfail] at hrun
        cases hrun
    · intro hw
      obtain ⟨path, hrun⟩ := h.pwd hw
      obtain rfl := hworking path hrun
      refine ⟨rfl, fun hnone => ?_⟩
      rw [runLine_pwd, hnone] at hrun
      cases hrun
    · intro hw
      obtain ⟨shown, hrun⟩ := h.history hw
      rw [runLine_history hw] at hrun
      cases hfile : env.history with
      | none =>
        rw [history_eq_none.mpr (.inr hfile)] at hrun
        cases hrun
      | some file =>
        refine ⟨file, rfl, fun htok => ?_, fun d htok hd => ?_⟩
        · obtain ⟨file', hfile', hall⟩ := h.historyAll htok
          rw [hfile] at hfile'
          cases hfile'
          exact (history_all htok hfile).mp ((runLine_history hw).mp hall)
        · obtain ⟨file', hfile', hlast⟩ := h.historyLast d htok hd
          rw [hfile] at hfile'
          cases hfile'
          exact (history_last htok hd hfile).mp ((runLine_history hw).mp hlast)
    · intro hw
      have hrun := h.program hw
      have hne : cmd ≠ [] := by
        rintro rfl
        cases hrun
      have hnot : ∀ w ∈ builtinNames, firstWord cmd ≠ some w := fun w hmem heq => hw w heq hmem
      rw [runLine_other hne (hnot _ (by decide)) (hnot _ (by decide)) (hnot _ (by decide))] at hrun
      refine ⟨hne, history_eq_none.mp ?_⟩
      rcases history_cases env cmd with hnone | ⟨shown, hsome⟩
      · exact hnone
      · rw [hsome] at hrun
        cases hrun
  · intro h
    have hcdRun : firstWord cmd = some cdName → cmd = cdName ∧ ∃ home, env.home = some home ∧
        runLine env cmd = .changed home := by
      intro hw
      obtain ⟨rfl, home, hhome, hok⟩ := h.cd hw
      refine ⟨rfl, home, hhome, ?_⟩
      rw [runLine_cd, hhome]
      exact if_pos hok
    have hword : ∀ {w ws}, tokens cmd = w :: ws → firstWord cmd = some w := by
      intro w ws htok
      unfold firstWord
      rw [htok]
      rfl
    refine ⟨?_, ?_, ?_, ?_, ?_, ?_, ?_, ?_, ?_⟩
    · intro hw
      obtain ⟨-, home, -, hrun⟩ := hcdRun hw
      exact ⟨home, hrun⟩
    · intro htok
      exact (hcdRun (hword htok)).2
    · intro dir htok
      -- such a line is not the name alone
      obtain ⟨rfl, -⟩ := hcdRun (hword htok)
      cases htok
    · intro hw
      obtain rfl := h.exit hw
      exact runLine_exit env
    · intro hw
      obtain ⟨rfl, hcwd⟩ := h.pwd hw
      obtain ⟨path, hpath⟩ := Option.ne_none_iff_exists'.mp hcwd
      refine ⟨path, ?_⟩
      rw [runLine_pwd, hpath]
    · intro hw
      obtain ⟨file, hfile, -⟩ := h.history hw
      rcases history_cases env cmd with hnone | ⟨shown, hsome⟩
      · rcases history_eq_none.mp hnone with hinfix | hnofile
        · exact absurd (infix_of_firstWord hw) hinfix
        · rw [hfile] at hnofile
          cases hnofile
      · exact ⟨shown, (runLine_history hw).mpr hsome⟩
    · intro htok
      obtain ⟨file, hfile, hshows⟩ := h.history (hword htok)
      exact ⟨file, hfile, (runLine_history (hword htok)).mpr ((history_all htok hfile).mpr (hshows.all htok))⟩
    · intro d htok hd
      obtain ⟨file, hfile, hshows⟩ := h.history (hword htok)
      exact ⟨file, hfile, (runLine_history (hword htok)).mpr
        ((history_last htok hd hfile).mpr (hshows.last d htok hd))⟩
    · intro hw
      obtain ⟨hne, hnone⟩ := h.other hw
      have hnot : ∀ w ∈ builtinNames, firstWord cmd ≠ some w := fun w hmem heq => hw w heq hmem
      rw [runLine_other hne (hnot _ (by decide)) (hnot _ (by decide)) (hnot _ (by decide)),
        history_eq_none.mpr hnone]
      rfl

/-- `cd a` is run as a program. -/
theorem dispatchOk_fails : ¬ ∀ (env : Outside) (cmd : List Char), DispatchOk env cmd := by
  intro h
  have hcd := (h ⟨some ['/'], fun _ => true, some ['/'], none⟩ ['c', 'd', ' ', 'a']).cd rfl
  obtain ⟨dir, hrun⟩ := hcd
  cases hrun

end SistemasOperativos.Shell
