import SistemasOperativos.Shell.Pipelines
import SistemasOperativos.Shell.Tokens

/-!
# What a program starts with

The descriptors and the environment at the `execvp` of one command. `exec_cmd` sets the variables
and starts the program; with a redirection, `run_redir` opens the files and starts it by itself.
-/

namespace SistemasOperativos.Shell

open Library

/-! ### The environment -/

/-- The environment of a process. -/
abbrev Environment := List Char → Option (List Char)

/-- `get_environ_key`, which runs off a string without `=`. -/
def getEnvironKey (arg : List Char) : Option (List Char) :=
  if '=' ∈ arg then some (arg.takeWhile (· ≠ '=')) else none

def getEnvironValue (arg : List Char) (idx : ℕ) : List Char := arg.drop (idx + 1)

/-- `setenv` with `overwrite`. -/
def setenv (vars : Environment) (key value : List Char) : Environment :=
  Function.update vars key (some value)

def setEnvironVars (vars : Environment) (eargv : List (List Char)) : Option Environment :=
  eargv.foldlM (fun vars arg => do
    let key ← getEnvironKey arg
    let pos ← blockContains arg '='
    return setenv vars key (getEnvironValue arg pos)) vars

/-- The environment at the `execvp` of a command; `run_redir` does not call `set_environ_vars`. -/
def environAt (e : ExecCmd) (vars : Environment) : Option Environment :=
  match e.type with
  | .exec => setEnvironVars vars e.eargv
  | .redir => some vars

def keyOf (arg : List Char) : List Char := arg.takeWhile (· ≠ '=')
def valueOfArg (arg : List Char) : List Char := (arg.dropWhile (· ≠ '=')).drop 1

/-- Every assignment made: the last one of a key counts. -/
def assigned (vars : Environment) (eargv : List (List Char)) : Environment := fun key =>
  match eargv.reverse.find? (keyOf · = key) with
  | some arg => some (valueOfArg arg)
  | none => vars key

/-! ### The program -/

/-- What the parser promises about a command. -/
structure FromParser (e : ExecCmd) : Prop where
  files : e.type = .exec → e.inFile = [] ∧ e.outFile = [] ∧ e.errFile = []
  eargv : ∀ arg ∈ e.eargv, '=' ∈ arg ∧ keyOf arg ≠ []

/-- The program starts with the descriptors and the environment that the command asks for; `f` and
`vars` are what the shell has. -/
structure Prepared (f : Fds Side) (vars : Environment) (e : ExecCmd) (g : Fds Side) : Prop where
  stdin : g stdinFileno =
    if e.inFile = [] then f stdinFileno else some (.named e.inFile false)
  stdout : g stdoutFileno =
    if e.outFile = [] then f stdoutFileno else some (.named e.outFile true)
  stderr : g stderrFileno =
    if e.errFile = [] then f stderrFileno
    else if e.errFile = ['&', '1'] then g stdoutFileno
    else some (.named e.errFile true)
  others : ∀ fd, stderrFileno < fd → g fd = f fd
  environ : environAt e vars = some (assigned vars e.eargv)

/-- When it does: with a redirection there are no assignments that change anything, `2>&1` comes
with an output file or finds the two outputs the same, and no other error file has an `&`, unless
it is the output file. -/
structure Redirectable (f : ℕ → Option ℕ) (vars : Environment) (e : ExecCmd) : Prop where
  environ : e.type = .redir → assigned vars e.eargv = vars
  both : e.errFile = ['&', '1'] → e.outFile = [] → f stderrFileno = f stdoutFileno
  ampersand : e.errFile ≠ ['&', '1'] → '&' ∈ e.errFile → e.outFile = e.errFile

variable {f : ℕ → Option ℕ} {g F : Fds Side} {fds : List ℕ} {vars : Environment} {e : ExecCmd}

/-! ### Assignments -/

lemma getEnvironKey_of_mem {arg : List Char} (h : '=' ∈ arg) :
    getEnvironKey arg = some (keyOf arg) := if_pos h

lemma value_of_blockContains {arg : List Char} (h : '=' ∈ arg) :
    ∃ pos, blockContains arg '=' = some pos ∧ getEnvironValue arg pos = valueOfArg arg := by
  obtain ⟨u, v, rfl, hu⟩ := List.eq_append_cons_of_mem h
  have hpos : ∀ a ∈ u, decide (a ≠ '=') = true := by
    intro a ha
    have hne : a ≠ '=' := fun heq => hu (heq ▸ ha)
    simpa using hne
  refine ⟨u.length, blockContains_append hu v, ?_⟩
  unfold getEnvironValue valueOfArg
  rw [List.dropWhile_append_of_pos hpos, List.dropWhile_cons_of_neg (by simp), List.drop_append,
    List.drop_of_length_le (by omega), Nat.add_sub_cancel_left, List.nil_append]

/-- `set_environ_vars` makes every assignment. -/
lemma setEnvironVars_eq {eargv : List (List Char)} (h : ∀ arg ∈ eargv, '=' ∈ arg) :
    ∀ vars, setEnvironVars vars eargv = some (assigned vars eargv) := by
  induction eargv with
  | nil =>
    intro vars
    rfl
  | cons arg eargv ih =>
    intro vars
    have harg := h arg List.mem_cons_self
    obtain ⟨pos, hpos, hvalue⟩ := value_of_blockContains harg
    have hrest := ih (fun a ha => h a (List.mem_cons_of_mem _ ha))
      (setenv vars (keyOf arg) (valueOfArg arg))
    have hstep : setEnvironVars vars (arg :: eargv) =
        setEnvironVars (setenv vars (keyOf arg) (valueOfArg arg)) eargv := by
      unfold setEnvironVars
      rw [List.foldlM_cons, getEnvironKey_of_mem harg, hpos]
      simp only [Option.bind_eq_bind, Option.bind_some, Option.pure_def, hvalue]
    rw [hstep, hrest]
    congr 1
    funext key
    unfold assigned setenv
    rw [List.reverse_cons, List.find?_append]
    cases eargv.reverse.find? (keyOf · = key) with
    | some a => rfl
    | none =>
      by_cases hkey : keyOf arg = key
      · simp [hkey]
      · simp [hkey, Function.update_of_ne (Ne.symm hkey)]

lemma fromParser_addToken (env : Environ) (c : ExecCmd) (tok : List Char) (h : FromParser c) :
    FromParser (addToken env c tok) := by
  have hfiles : (addToken env c tok).type = .exec → addToken env c tok =
      { c with eargv := (addToken env c tok).eargv, argv := (addToken env c tok).argv } ∧
      c.type = .exec := by
    unfold addToken parseRedirFlow parseEnvironVar
    grind
  have heargv : ∀ arg ∈ (addToken env c tok).eargv, arg ∈ c.eargv ∨
      arg = tok ∧ ∃ n, blockContains tok '=' = some (n + 1) := by
    unfold addToken parseRedirFlow parseEnvironVar
    grind
  constructor
  · intro htype
    obtain ⟨heq, hc⟩ := hfiles htype
    rw [heq]
    exact h.files hc
  · intro arg harg
    rcases heargv arg harg with hin | ⟨rfl, n, hn⟩
    · exact h.eargv arg hin
    · obtain ⟨u, v, rfl, hu, hlen⟩ := blockContains_some.mp hn
      refine ⟨by simp, ?_⟩
      have hkey : keyOf (u ++ '=' :: v) = u := by
        apply takeWhile_stop
        · intro a ha
          have hne : a ≠ '=' := fun heq => hu (heq ▸ ha)
          simpa using hne
        · simp
      rw [hkey]
      rintro rfl
      cases hlen

/-- The parser keeps its promise. -/
theorem fromParser_parseExec (env : Environ) (s : List Char) : FromParser (parseExec env s) := by
  rw [parseExec_pieces]
  have hcreate : FromParser (execCmdCreate s) := by
    constructor
    · exact fun _ => ⟨rfl, rfl, rfl⟩
    · intro arg harg
      cases harg
  generalize execCmdCreate s = c at hcreate
  induction pieces s generalizing c with
  | nil => exact hcreate
  | cons tok ps ih => exact ih _ (fromParser_addToken env c tok hcreate)

/-! ### Descriptors -/

/-- The descriptors at `execvp`: with `&` in the error file, the error output goes where the output
goes if there is an output file, and stays as it is if not. -/
def redirected (f : Fds Side) (e : ExecCmd) : Fds Side :=
  let f := if e.inFile = [] then f else f.set stdinFileno (some (.named e.inFile false))
  let f := if e.outFile = [] then f else f.set stdoutFileno (some (.named e.outFile true))
  if e.errFile = [] then f
  else if '&' ∈ e.errFile then
    if e.outFile = [] then f else f.set stderrFileno (some (.named e.outFile true))
  else f.set stderrFileno (some (.named e.errFile true))

/-- `F` has the descriptors `fds` besides those of `g`. -/
structure Extra (g : Fds Side) (fds : List ℕ) (F : Fds Side) : Prop where
  same : ∀ fd ∉ fds, F fd = g fd
  fresh : ∀ fd ∈ fds, g fd = none
  std : ∀ fd ≤ stderrFileno, g fd ≠ none

lemma Extra.not_mem (h : Extra g fds F) {fd : ℕ} (hfd : fd ≤ stderrFileno) : fd ∉ fds :=
  fun hmem => h.std fd hfd (h.fresh fd hmem)

lemma Extra.opened (h : Extra g fds F) {fd : ℕ} (hfd : F.Lowest fd) (x : File Side) :
    Extra g (fd :: fds) (F.set fd (some x)) := by
  constructor
  · intro d hd
    have hne : d ≠ fd := fun heq => hd (heq ▸ List.mem_cons_self)
    rw [Fds.set_apply, if_neg hne]
    exact h.same d (fun hmem => hd (List.mem_cons_of_mem _ hmem))
  · intro d hd
    rcases List.mem_cons.mp hd with rfl | hd
    · by_cases hmem : d ∈ fds
      · exact h.fresh d hmem
      · rw [← h.same d hmem]
        exact hfd.1
    · exact h.fresh d hd
  · exact h.std

lemma Extra.closed (h : Extra g fds F) {fd : ℕ} (hfd : g fd = none) :
    Extra g (fds.filter (· ≠ fd)) (F.set fd none) := by
  constructor
  · intro d hd
    by_cases heq : d = fd
    · rw [heq, Fds.set_apply, if_pos rfl, hfd]
    · rw [Fds.set_apply, if_neg heq]
      apply h.same
      exact fun hmem => hd (List.mem_filter.mpr ⟨hmem, by simpa using heq⟩)
  · intro d hd
    exact h.fresh d (List.mem_filter.mp hd).1
  · exact h.std

/-- Both get another file at a standard descriptor. -/
lemma Extra.set (h : Extra g fds F) {target : ℕ} (htarget : target ≤ stderrFileno) (x : File Side) :
    Extra (g.set target (some x)) fds (F.set target (some x)) := by
  constructor
  · intro d hd
    rw [Fds.set_apply, Fds.set_apply, h.same d hd]
  · intro d hd
    have hne : d ≠ target := fun heq => h.not_mem htarget (heq ▸ hd)
    rw [Fds.set_apply, if_neg hne]
    exact h.fresh d hd
  · intro d hd
    rw [Fds.set_apply]
    split
    · simp
    · exact h.std d hd

lemma Extra.eq (h : Extra g [] F) : F = g := funext fun fd => h.same fd List.not_mem_nil

/-- No file fails to open. -/
def Opens : Event ExecCmd Side → Prop
  | .openFailed => False
  | _ => True

/-- At `execvp` the descriptors are those of `g`. -/
abbrev AtExecvp (g : Fds Side) (_ : List Side) (q : ShellProg) (F : Fds Side) (_ : List Side) : Prop :=
  ∀ e b k, q = .execvp e b k → F = g

/-- Every run from here comes to `execvp` with the descriptors of `g`. -/
abbrev SafeTo (g : Fds Side) (q : ShellProg) (F : Fds Side) : Prop :=
  ∀ pid rs, Safe Opens (AtExecvp g) q pid F rs

lemma safeTo_execvp {q : ShellProg} (hq : q = .done ∨ ∃ code, q = .exit code) :
    SafeTo g (execvp e q) g := by
  intro pid rs
  refine ⟨fun _ _ _ _ => rfl, fun _ => ?_⟩
  rcases hq with rfl | ⟨code, rfl⟩
  · exact fun _ _ _ h => by cases h
  · exact fun _ _ _ h => by cases h

variable {G : Fds Side} {q : ShellProg} {rest : Option ℕ → ShellProg}

lemma safeTo_closeIfValid {fd : Option ℕ} (h : Extra g fds F) (hfd : ∀ d ∈ fd, g d = none)
    (hq : ∀ F, Extra g (fds.filter (· ∉ fd)) F → SafeTo G q F) : SafeTo G (closeIfValid fd q) F := by
  intro pid rs
  cases fd with
  | none =>
    apply hq
    simpa using h
  | some fd =>
    refine ⟨fun _ _ _ h => (by cases h), ?_⟩
    apply hq
    have hclosed := h.closed (hfd fd rfl)
    simpa [eq_comm] using hclosed

lemma safeTo_redirect (h : Extra g fds F) {file : List Char} {write : Bool} {target : ℕ}
    (htarget : target ≤ stderrFileno)
    (hrest : ∀ x F, Extra (if file = [] then g else g.set target (some (.named file write)))
      (x.toList ++ fds) F → (x = none ↔ file = []) → (∀ fd ∈ x, F fd = some (.named file write)) →
      SafeTo G (rest x) F) :
    SafeTo G (redirect file write target rest) F := by
  intro pid rs
  unfold redirect
  split
  · rename_i hfile
    rw [if_pos hfile] at hrest
    exact hrest none F h (by simpa using hfile) (by simp) pid rs
  · rename_i hfile
    rw [if_neg hfile] at hrest
    refine ⟨fun _ _ _ h => (by cases h), fun hok => hok.elim, ?_⟩
    intro fd hfd
    refine ⟨fun _ _ _ h => (by cases h), ?_⟩
    have hopened := h.opened hfd (.named file write)
    have hne : fd ≠ target := fun heq => hopened.not_mem htarget (heq ▸ List.mem_cons_self)
    have hself : (F.set fd (some (.named file write))) fd = some (.named file write) := by
      rw [Fds.set_apply, if_pos rfl]
    rw [Fds.dup2_of_some hself]
    apply hrest (some fd) _ (hopened.set htarget _) (by simpa using hfile)
    intro d hd
    cases hd
    rw [Fds.set_apply, if_neg hne, hself]

/-- The descriptors that `run_redir` comes to `execvp` with. -/
lemma safeTo_runRedir (hstd : ∀ fd ≤ stderrFileno, g fd ≠ none) :
    SafeTo (redirected g e) (runRedir e) g := by
  have hclose : ∀ {a b c : Option ℕ} {F : Fds Side},
      Extra (redirected g e) (c.toList ++ (b.toList ++ (a.toList ++ []))) F → SafeTo (redirected g e)
        (closeIfValid a (closeIfValid b (closeIfValid c (execvp e .done)))) F := by
    intro a b c F h
    have hfresh : ∀ d, d ∈ a ∨ d ∈ b ∨ d ∈ c → redirected g e d = none := by
      intro d hd
      apply h.fresh
      rcases hd with hd | hd | hd
      · simp [Option.mem_def.mp hd]
      · simp [Option.mem_def.mp hd]
      · simp [Option.mem_def.mp hd]
    apply safeTo_closeIfValid h (fun d hd => hfresh d (.inl hd))
    intro F h
    apply safeTo_closeIfValid h (fun d hd => hfresh d (.inr (.inl hd)))
    intro F h
    apply safeTo_closeIfValid h (fun d hd => hfresh d (.inr (.inr hd)))
    intro F h
    have hnil : (((c.toList ++ (b.toList ++ (a.toList ++ []))).filter (· ∉ a)).filter
        (· ∉ b)).filter (· ∉ c) = [] := by
      rw [List.filter_filter, List.filter_filter, List.filter_eq_nil_iff]
      intro d hd
      simp only [List.append_nil, List.mem_append, Option.mem_toList] at hd
      rcases hd with hd | hd | hd
      · simp [hd]
      · simp [hd]
      · simp [hd]
    rw [hnil] at h
    rw [h.eq]
    exact safeTo_execvp (.inl rfl)
  have hstart : Extra g [] g := ⟨fun _ _ => rfl, fun _ h => (by cases h), hstd⟩
  unfold runRedir
  apply safeTo_redirect hstart (by decide)
  intro fdIn F hin _ _
  apply safeTo_redirect hin (by decide)
  intro fdOut F hout hnone hfile
  unfold redirectErr
  split
  · rename_i hamp
    obtain ⟨hne, hsome⟩ := hamp
    have hmem : '&' ∈ e.errFile := by
      by_contra hnot
      rw [blockContains_none.mpr hnot] at hsome
      cases hsome
    intro pid rs
    refine ⟨fun _ _ _ h => (by cases h), ?_⟩
    apply hclose
    unfold redirected
    rw [if_neg hne, if_pos hmem]
    cases fdOut with
    | none =>
      simp only [if_pos (hnone.mp rfl)] at hout ⊢
      exact hout
    | some fd =>
      have hout' : e.outFile ≠ [] := fun h => by cases hnone.mpr h
      rw [Fds.dup2_of_some (hfile fd rfl)]
      have hset := hout.set (Nat.le_refl stderrFileno) (.named e.outFile true)
      simp only [if_neg hout'] at hset ⊢
      exact hset
  · rename_i hamp
    apply safeTo_redirect hout (by decide)
    intro fdErr F herr _ _
    apply hclose
    have heq : redirected g e = if e.errFile = [] then _ else _ := rfl
    by_cases hne : e.errFile = []
    · rw [if_pos hne] at herr
      rw [heq, if_pos hne]
      exact herr
    · have hmem : '&' ∉ e.errFile := by
        intro hmem
        apply hamp
        refine ⟨hne, ?_⟩
        rw [Option.isSome_iff_ne_none]
        exact mt blockContains_none.mp (not_not.mpr hmem)
      rw [if_neg hne] at herr
      rw [heq, if_neg hne, if_neg hmem]
      exact herr

lemma redirected_of_files (h : e.inFile = [] ∧ e.outFile = [] ∧ e.errFile = []) :
    redirected g e = g := by
  unfold redirected
  simp only [h, if_true]

lemma safeTo_execCmd (hpar : FromParser e) (hstd : ∀ fd ≤ stderrFileno, g fd ≠ none) :
    SafeTo (redirected g e) (execCmd (.exec e)) g := by
  unfold execCmd
  cases htype : e.type with
  | exec =>
    rw [redirected_of_files (hpar.files htype)]
    exact safeTo_execvp (.inr ⟨-1, rfl⟩)
  | redir => exact safeTo_runRedir hstd

lemma redirected_stdin : redirected g e stdinFileno =
    if e.inFile = [] then g stdinFileno else some (.named e.inFile false) := by
  unfold redirected stdinFileno stdoutFileno stderrFileno
  split_ifs <;> simp [Fds.set_apply]

lemma redirected_stdout : redirected g e stdoutFileno =
    if e.outFile = [] then g stdoutFileno else some (.named e.outFile true) := by
  unfold redirected stdinFileno stdoutFileno stderrFileno
  split_ifs <;> simp [Fds.set_apply]

lemma redirected_stderr : redirected g e stderrFileno =
    if e.errFile = [] then g stderrFileno
    else if '&' ∈ e.errFile then
      if e.outFile = [] then g stderrFileno else some (.named e.outFile true)
    else some (.named e.errFile true) := by
  unfold redirected stdinFileno stdoutFileno stderrFileno
  split_ifs <;> simp [Fds.set_apply]

lemma redirected_other {fd : ℕ} (hfd : stderrFileno < fd) : redirected g e fd = g fd := by
  unfold stderrFileno at hfd
  have h0 : fd ≠ 0 := by omega
  have h1 : fd ≠ 1 := by omega
  have h2 : fd ≠ 2 := by omega
  unfold redirected stdinFileno stdoutFileno stderrFileno
  split_ifs <;> simp [Fds.set_apply, h0, h1, h2]

lemma environAt_iff (hpar : FromParser e) : environAt e vars = some (assigned vars e.eargv) ↔
    (e.type = .redir → assigned vars e.eargv = vars) := by
  unfold environAt
  cases htype : e.type with
  | exec => simp [setEnvironVars_eq (fun arg harg => (hpar.eargv arg harg).1) vars]
  | redir => simp [eq_comm]

/-! ### Results -/

variable {h : List (Move (Procs ExecCmd Side) (List Side × Event ExecCmd Side))}
  {s : Procs ExecCmd Side} {pid : List Side} {p : Process ExecCmd Side}

/-- Every run of a command that comes to `execvp`, with all files opened, has prepared what the
command asks for exactly when the command is redirectable. -/
theorem prepared_iff (hpar : FromParser e) (hstd : ∀ fd ≤ stderrFileno, f fd ≠ none)
    (hr : Run (Begins (execCmd (.exec e)) (inherited f)) Step h s)
    (hopens : ∀ m ∈ h, Opens m.label.2) (hp : s pid = some p) {e' : ExecCmd} {b : Bool}
    {k : ShellProg} (hat : p.status = .running (.execvp e' b k)) (vars : Environment) :
    Prepared (inherited f) vars e p.fds ↔ Redirectable f vars e := by
  have hinherited : ∀ fd ≤ stderrFileno, inherited f fd ≠ none := by
    intro fd hfd hnone
    exact hstd fd hfd (Option.map_eq_none_iff.mp hnone)
  have hsafe : Safe Opens (AtExecvp (redirected (inherited f) e)) (execCmd (.exec e)) []
      (inherited f) [] := safeTo_execCmd hpar hinherited [] []
  have hmeets := hsafe.run hr hopens pid p hp
  have hfds : p.fds = redirected (inherited f) e := by
    unfold Process.Meets at hmeets
    rw [hat] at hmeets
    exact hmeets.here _ _ _ rfl
  have hother : ∀ fd name, inherited f fd ≠ some (.named name true) := by
    intro fd name heq
    obtain ⟨n, -, hn⟩ := Option.map_eq_some_iff.mp heq
    cases hn
  have hinj : ∀ a b, inherited f a = inherited f b → f a = f b := by
    intro a b heq
    exact Option.map_injective (fun _ _ h => by injection h) heq
  rw [hfds]
  constructor
  · intro hprep
    have hstderr := hprep.stderr
    rw [redirected_stderr, redirected_stdout] at hstderr
    refine ⟨(environAt_iff hpar).mp hprep.environ, ?_, ?_⟩
    · intro herr hout
      rw [herr, hout] at hstderr
      exact hinj _ _ (by simpa using hstderr)
    · intro herr hamp
      have hne : e.errFile ≠ [] := by
        intro hnil
        rw [hnil] at hamp
        cases hamp
      rw [if_neg hne, if_pos hamp, if_neg hne, if_neg herr] at hstderr
      split at hstderr
      · exact absurd hstderr (hother _ _)
      · injection hstderr with hname
        injection hname
  · intro hred
    refine ⟨redirected_stdin, redirected_stdout, ?_, fun fd hfd => redirected_other hfd,
      (environAt_iff hpar).mpr hred.environ⟩
    rw [redirected_stderr, redirected_stdout]
    by_cases hne : e.errFile = []
    · rw [if_pos hne, if_pos hne]
    rw [if_neg hne, if_neg hne]
    by_cases hamp : '&' ∈ e.errFile
    · rw [if_pos hamp]
      by_cases herr : e.errFile = ['&', '1']
      · rw [if_pos herr]
        by_cases hout : e.outFile = []
        · rw [if_pos hout, if_pos hout]
          exact congrArg (Option.map File.other) (hred.both herr hout)
        · rw [if_neg hout, if_neg hout]
      · have hout := hred.ampersand herr hamp
        rw [if_neg herr, hout, if_neg hne]
    · have herr : e.errFile ≠ ['&', '1'] := by
        intro herr
        rw [herr] at hamp
        exact hamp (by decide)
      rw [if_neg hamp, if_neg herr]

/-- `env >o` with the assignments `eargv` in front. -/
def envCmd (eargv : List (List Char)) : ExecCmd :=
  ⟨.redir, [], [['e', 'n', 'v']], eargv, ['o'], [], []⟩

lemma run_envCmd (eargv : List (List Char)) : ∃ h s F,
    Run (Begins (execCmd (.exec (envCmd eargv))) (inherited threeOpen)) Step h s ∧
      (∀ m ∈ h, Opens m.label.2) ∧ s [] = some ⟨.running (execvp (envCmd eargv) .done), F, []⟩ := by
  have h0 : Run (Begins (execCmd (.exec (envCmd eargv))) (inherited threeOpen)) Step [] _ :=
    .start rfl
  have hopen : Acts [] ⟨.running (execCmd (.exec (envCmd eargv))), inherited threeOpen, []⟩
      (.opened 3) _ := .opened ⟨rfl, by decide⟩
  have h1 := h0.next (.act (Function.update_self _ _ _) hopen (by simp) (by simp))
  have h2 := h1.next (.act (Function.update_self _ _ _) .dup2 (by simp) (by simp))
  have h3 := h2.next (.act (Function.update_self _ _ _) .close (by simp) (by simp))
  refine ⟨_, _, _, h3, ?_, Function.update_self _ _ _⟩
  simp [Opens]

/-- `env >o` without assignments. -/
theorem prepared_env : ∃ F, Prepared (inherited threeOpen) (fun _ => none) (envCmd []) F := by
  obtain ⟨h, s, F, hr, hopens, hs⟩ := run_envCmd []
  refine ⟨F, (prepared_iff ⟨by decide, by decide⟩ (by decide) hr hopens hs rfl _).mpr ?_⟩
  exact ⟨fun _ => rfl, by decide, by decide⟩

/-- `X=1 env >o` starts without `X`. -/
theorem prepared_fails : ¬ (∀ (f : ℕ → Option ℕ) (e : ExecCmd), FromParser e →
    (∀ fd ≤ stderrFileno, f fd ≠ none) → ∀ h s,
    Run (Begins (execCmd (.exec e)) (inherited f)) Step h s → (∀ m ∈ h, Opens m.label.2) →
    ∀ pid p e' b k, s pid = some p → p.status = .running (.execvp e' b k) → ∀ vars,
    Prepared (inherited f) vars e p.fds) := by
  intro hall
  obtain ⟨h, s, F, hr, hopens, hs⟩ := run_envCmd [['X', '=', '1']]
  have hprep := hall threeOpen _ ⟨by decide, by decide⟩ (by decide) h s hr hopens [] _ _ _ _ hs rfl
    (fun _ => none)
  have hx := congrFun (Option.some.inj hprep.environ) ['X']
  revert hx
  decide

end SistemasOperativos.Shell
