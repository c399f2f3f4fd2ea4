import Mathlib.Data.List.Infix
import SistemasOperativos.Shell.Lines

/-!
# The exit status

`run_cmd` of `runcmd.c`, as far as it changes the global `status`, with `printstatus.c` and the
tests of `builtin.c`. The value of `$?` is right as long as nothing decodes the status a second
time or leaves it as `waitpid` has written it.
-/

namespace SistemasOperativos.Shell

/-- How a process ends. -/
inductive Exit
  | exited (code : Fin 256)
  | killed (sig : ℕ) (core : Bool) (hsig : 0 < sig ∧ sig < 127)

/-- The status that `waitpid` writes. -/
def Exit.raw : Exit → ℤ
  | .exited code => code * 256
  | .killed sig core _ => sig + if core then 128 else 0

/-- What `$?` should show. -/
def Exit.value : Exit → ℤ
  | .exited code => code
  | .killed sig _ _ => -sig

/-! ### `printstatus.c` -/

def wtermsig (status : ℤ) : ℤ := status % 128
def wexitstatus (status : ℤ) : ℤ := status / 256 % 256

/-- The text of a command; a pipe has none. -/
def Cmd.scmd : Cmd → List Char
  | .exec e => e.scmd
  | .back c => c.scmd
  | _ => []

def Cmd.isPipe : Cmd → Bool
  | .pipe _ _ => true
  | _ => false

def printStatusInfo (c : Cmd) (status : ℤ) : ℤ :=
  if c.scmd = [] ∨ c.isPipe = true then status
  else if wtermsig status = 0 then wexitstatus status
  else if wtermsig status ≠ 127 then -wtermsig status
  else -wexitstatus status

/-! ### `run_cmd` -/

/-- The results of the calls that the built-in commands make. -/
structure Calls where
  chdir : Bool
  getcwd : Bool
  fopen : Bool

/-- The line is handled by `cd`, `exit_shell`, `pwd` or `history`. -/
def handled (cmd : List Char) (calls : Calls) : Bool :=
  (cmd = ['c', 'd'] && calls.chdir) || cmd = ['e', 'x', 'i', 't'] ||
    (cmd = ['p', 'w', 'd'] && calls.getcwd) ||
    (['h', 'i', 's', 't', 'o', 'r', 'y'] <:+: cmd && calls.fopen)

/-- A line, what it finds outside the shell and how its processes end. -/
structure Line where
  cmd : List Char
  before : Char
  rest : List Char
  getenv : List Char → Option (List Char)
  heap : List Char → List Char → List Char
  calls : Calls
  /-- how the child of the shell ends -/
  child : Exit
  /-- whether the child of a background command has ended when the shell looks -/
  ended : Bool
  /-- how the last program of a pipeline ends -/
  last : Exit

/-- The command of a line when `$?` is `status`. -/
def Line.tree (l : Line) (status : ℤ) : Cmd :=
  parsed ⟨l.getenv, status, l.heap⟩ l.before l.cmd l.rest

/-- What `waitpid` leaves in `status`. -/
def Line.waited (l : Line) (status : ℤ) : ℤ :=
  match l.tree status with
  | .back _ => if l.ended then l.child.raw else status
  | _ => l.child.raw

/-- `run_cmd`: the status after a line in which event designators are expanded already, or `none` when
the shell uses a null pointer, that of the whole command or, in `free_command`, one in its tree. -/
def runCmd (status : ℤ) (l : Line) : Option ℤ :=
  if l.cmd = [] then some status
  else if handled l.cmd l.calls then some status
  else if (l.tree status).noNull then some (printStatusInfo (l.tree status) (l.waited status))
  else none

/-! ### What `$?` should be -/

/-- The commands of the shell itself, by their documentation. -/
def builtin (cmd : List Char) : Bool :=
  cmd = ['c', 'd'] || ['c', 'd', ' '].isPrefixOf cmd || cmd = ['e', 'x', 'i', 't'] ||
    cmd = ['p', 'w', 'd'] || cmd = ['h', 'i', 's', 't', 'o', 'r', 'y'] ||
    ['h', 'i', 's', 't', 'o', 'r', 'y', ' '].isPrefixOf cmd

/-- The line runs no program in the foreground. -/
def Line.quiet (l : Line) : Bool := l.cmd.isEmpty || handled l.cmd l.calls || builtin l.cmd

/-- The result of the last foreground program, when it was `v` before the line. -/
def Line.value (v : ℤ) (l : Line) : ℤ :=
  if l.quiet then v
  else
    match l.tree v with
    | .pipe _ _ => l.last.value
    | .exec _ => l.child.value
    | _ => v

/-- The result of the last foreground program of a session. -/
def valueOf (lines : List Line) : ℤ := lines.foldl Line.value 0

/-- The global `status` after a session. -/
def statusOf (lines : List Line) : Option ℤ := lines.foldlM runCmd 0

/-- What `$?` shows after a session is the result of the last foreground program. -/
def Shown (lines : List Line) : Prop :=
  ∃ status, statusOf lines = some status ∧ status = valueOf lines ∧ ∀ getenv heap,
    expandEnvironVar ⟨getenv, status, heap⟩ ['$', '?'] = (toString (valueOf lines)).toList

/-- The line keeps `$?` right when it is `v` before. -/
def StepOk (v : ℤ) (l : Line) : Prop :=
  if l.cmd = [] ∨ handled l.cmd l.calls = true then True
  else
    (l.tree v).noNull = true ∧
    match l.tree v with
    | .null => False
    -- a documented built-in runs as a program
    | .exec _ => builtin l.cmd = true → l.child.value = v
    | .pipe _ _ => l.child.raw = if builtin l.cmd then v else l.last.value
    | .back c =>
      if l.ended then if c.scmd = [] then l.child.raw = v else l.child.value = v
      else c.scmd = [] ∨ v = 0 ∨ v = -64

variable {lines : List Line} {l : Line} {v status : ℤ} {e : Exit}

/-! ### Decoding -/

lemma printStatusInfo_of_scmd {c : Cmd} (h : c.scmd ≠ []) (status : ℤ) :
    printStatusInfo c status = if wtermsig status = 0 then wexitstatus status
      else if wtermsig status ≠ 127 then -wtermsig status else -wexitstatus status := by
  unfold printStatusInfo
  rw [if_neg]
  rintro (hs | hs)
  · exact h hs
  · cases c with
    | pipe l r => exact h rfl
    | _ => cases hs

/-- Decoding what `waitpid` has written. -/
lemma decode_raw {c : Cmd} (h : c.scmd ≠ []) (e : Exit) : printStatusInfo c e.raw = e.value := by
  rw [printStatusInfo_of_scmd h]
  unfold wtermsig wexitstatus
  cases e with
  | exited code =>
    have hlt := code.isLt
    have hraw : (Exit.exited code).raw = code * 256 := rfl
    have hvalue : (Exit.exited code).value = code := rfl
    rw [hvalue, if_pos (by omega)]
    omega
  | killed sig core hsig =>
    have hraw : (Exit.killed sig core hsig).raw = sig + if core then 128 else 0 := rfl
    have hvalue : (Exit.killed sig core hsig).value = -sig := rfl
    have hmod : (Exit.killed sig core hsig).raw % 128 = sig := by
      rw [hraw]
      split <;> omega
    rw [hvalue, hmod, if_neg (by omega), if_pos (by omega)]

/-- What `$?` may be. -/
def Decoded (v : ℤ) : Prop := -127 < v ∧ v < 256

lemma Exit.value_decoded (e : Exit) : Decoded e.value := by
  unfold Decoded Exit.value
  cases e with
  | exited code =>
    have hlt := code.isLt
    dsimp only
    omega
  | killed sig core hsig =>
    dsimp only
    omega

/-- Decoding a value once more. -/
lemma decode_decoded {c : Cmd} (h : c.scmd ≠ []) (hv : Decoded v) :
    printStatusInfo c v = v ↔ v = 0 ∨ v = -64 := by
  obtain ⟨hlow, hhigh⟩ := hv
  rw [printStatusInfo_of_scmd h]
  unfold wtermsig wexitstatus
  split
  · omega
  · split <;> omega

/-! ### Trees -/

lemma parseCmd_scmd {env : Environ} {b : Buffer} {p : ℕ} {x : ExecCmd}
    (h : (parseCmd env b p).1 = .exec x) : x.scmd ≠ [] := by
  have hexec : ∀ s, s ≠ [] → (parseExec env s).scmd ≠ [] := by
    intro s hs
    rwa [parseExec_scmd]
  unfold parseCmd parseBack at h
  dsimp only at h
  split at h
  · cases h
  · rename_i hs
    split at h
    · split at h
      · cases h
      · cases h
        exact hexec _ hs
    · cases h
      exact hexec _ hs

/-- A single command that is parsed has a text. -/
lemma tree_scmd {x : ExecCmd} (h : l.tree status = .exec x) : x.scmd ≠ [] := by
  have hpipe : ∀ {a r : Cmd}, pipeCmdCreate a r = .exec x → a = .exec x := by
    intro a r har
    unfold pipeCmdCreate at har
    split at har
    · exact har
    · cases har
  unfold Line.tree parsed at h
  rw [parseLine] at h
  dsimp only at h
  split at h
  · exact parseCmd_scmd (hpipe h)
  · exact parseCmd_scmd (hpipe h)

/-! ### Sessions -/

lemma value_decoded (hv : Decoded v) (l : Line) : Decoded (l.value v) := by
  unfold Line.value
  split
  · exact hv
  · split
    · exact l.last.value_decoded
    · exact l.child.value_decoded
    · exact hv

lemma valueOf_decoded (lines : List Line) : Decoded (valueOf lines) := by
  have hgen : ∀ (lines : List Line) (v : ℤ), Decoded v → Decoded (lines.foldl Line.value v) := by
    intro lines
    induction lines with
    | nil => exact fun v hv => hv
    | cons l ls ih => exact fun v hv => ih _ (value_decoded hv l)
  exact hgen lines 0 (by unfold Decoded; omega)

/-- One line, when `$?` is right before it. -/
lemma runCmd_iff (hv : Decoded v) (l : Line) :
    runCmd v l = some (l.value v) ↔ StepOk v l := by
  unfold runCmd StepOk Line.value Line.quiet
  by_cases hcmd : l.cmd = []
  · simp [hcmd]
  by_cases hhandled : handled l.cmd l.calls = true
  · simp [hhandled]
  have hempty : l.cmd.isEmpty = false := List.isEmpty_eq_false_iff.mpr hcmd
  have hnot : handled l.cmd l.calls = false := by simpa using hhandled
  have hor : ¬ (l.cmd = [] ∨ handled l.cmd l.calls = true) := not_or.mpr ⟨hcmd, hhandled⟩
  rw [if_neg hcmd, if_neg hhandled, if_neg hor, hempty, hnot]
  by_cases hnull : (l.tree v).noNull = true
  swap
  · rw [if_neg hnull]
    exact iff_of_false nofun fun h => hnull h.1
  rw [if_pos hnull, and_iff_right hnull]
  unfold Line.waited
  cases htree : l.tree v with
  | null =>
    rw [htree] at hnull
    cases hnull
  | exec x =>
    have hdec := decode_raw (c := .exec x) (tree_scmd htree) l.child
    simp only [hdec, Bool.false_or]
    split <;> simp_all
  | pipe a r =>
    have hdec : printStatusInfo (.pipe a r) l.child.raw = l.child.raw := if_pos (.inr rfl)
    simp only [hdec, Option.some.injEq, Bool.false_or]
  | back c =>
    simp only [Bool.false_or, ite_self]
    cases l.ended with
    | true =>
      by_cases hs : c.scmd = []
      · have hdec : printStatusInfo (.back c) l.child.raw = l.child.raw := if_pos (.inl hs)
        simp [hdec, hs]
      · have hdec := decode_raw (c := .back c) hs l.child
        simp [hdec, hs]
    | false =>
      by_cases hs : c.scmd = []
      · have hdec : printStatusInfo (.back c) v = v := if_pos (.inl hs)
        simp [hdec, hs]
      · have hdec := decode_decoded (c := .back c) hs hv
        simp [hdec, hs]

lemma statusOf_concat (lines : List Line) (l : Line) :
    statusOf (lines ++ [l]) = (statusOf lines).bind (runCmd · l) := by
  unfold statusOf
  rw [List.foldlM_append]
  simp only [List.foldlM_cons, List.foldlM_nil, bind_pure]
  rfl

lemma valueOf_concat (lines : List Line) (l : Line) :
    valueOf (lines ++ [l]) = l.value (valueOf lines) := by
  unfold valueOf
  rw [List.foldl_append]
  rfl

lemma shown_iff : Shown lines ↔ statusOf lines = some (valueOf lines) := by
  constructor
  · rintro ⟨status, hstatus, rfl, -⟩
    exact hstatus
  · intro h
    exact ⟨_, h, rfl, fun _ _ => rfl⟩

/-- A line of a program that ends with `code`; a background command is still running. -/
abbrev lineOf (cmd : List Char) (code : Fin 256) : Line :=
  ⟨cmd, endString, [endString], fun _ => none, fun _ _ => [], ⟨true, true, true⟩,
    .exited code, false, .exited code⟩

end SistemasOperativos.Shell
