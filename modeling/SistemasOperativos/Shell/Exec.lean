import SistemasOperativos.Library.Processes
import SistemasOperativos.Shell.Lines

/-!
# Running a command

`exec.c` and `freecmd.c` of `TPShell`: the system calls that `exec_cmd` makes for a command, and
when it never returns to its caller.
-/

namespace SistemasOperativos.Shell

open Library

/-- The two children of `run_pipes`. -/
inductive Side
  | left
  | right
  deriving DecidableEq

/-- A process of the shell. The environment that `set_environ_vars` prepares is part of the command
that is started. -/
abbrev ShellProg := Prog ExecCmd Side

def stdinFileno : ℕ := 0
def stdoutFileno : ℕ := 1
def stderrFileno : ℕ := 2

/-- `free_command`, which follows every pointer of the tree. -/
def freeCommand (c : Cmd) (rest : ShellProg) : ShellProg := if c.noNull then rest else .fault

/-- `execvp` of a command. -/
def execvp (e : ExecCmd) (failed : ShellProg) : ShellProg := .execvp e (!e.argv.isEmpty) failed

def closeIfValid (fd : Option ℕ) (rest : ShellProg) : ShellProg :=
  match fd with
  | some fd => .close fd rest
  | none => rest

/-- One redirection of `run_redir`. -/
def redirect (file : List Char) (write : Bool) (target : ℕ) (rest : Option ℕ → ShellProg) :
    ShellProg :=
  if file = [] then rest none
  else .openFile file write fun
    | none => .exit (-1)
    | some fd => .dup2 (some fd) target (rest (some fd))

/-- The redirection of the error output, which may be to the file of the output. -/
def redirectErr (file : List Char) (fdOut : Option ℕ) (rest : Option ℕ → ShellProg) : ShellProg :=
  if file ≠ [] ∧ (blockContains file '&').isSome then .dup2 fdOut stderrFileno (rest none)
  else redirect file true stderrFileno rest

def runRedir (e : ExecCmd) : ShellProg :=
  redirect e.inFile false stdinFileno fun fdIn =>
  redirect e.outFile true stdoutFileno fun fdOut =>
  redirectErr e.errFile fdOut fun fdErr =>
  closeIfValid fdIn (closeIfValid fdOut (closeIfValid fdErr (execvp e .done)))

/-- `run_pipes`; `left` and `right` are what `exec_cmd` does for the two commands. -/
def runPipes (l r : Cmd) (left right : ShellProg) : ShellProg :=
  .pipe fun
  | none => .done
  | some (rd, wr) =>
    .fork .left fun
    | .failed => .close wr (.close rd (freeCommand (.pipe l r) (.exit (-1))))
    | .child => .close rd (.dup2 (some wr) stdoutFileno (.close wr left))
    | .parent =>
      .fork .right fun
      | .failed => .close wr (.close rd (freeCommand (.pipe l r) (.exit (-1))))
      | .child =>
        freeCommand l (.close wr (.dup2 (some rd) stdinFileno (.close rd right)))
      | .parent =>
        .close rd (.close wr (.waitpid .right (.waitpid .left
          (freeCommand (.pipe l r) (.exit 0)))))

def execCmd : Cmd → ShellProg
  | .null => .fault
  | .exec e =>
    match e.type with
    | .exec => execvp e (.exit (-1))
    | .redir => runRedir e
  | .back c => execCmd c
  | .pipe l r => runPipes l r (execCmd l) (execCmd r)

/-! ### Commands that do not return -/

/-- The commands of the leaves. -/
def Cmd.execs : Cmd → List ExecCmd
  | .null => []
  | .exec e => [e]
  | .back c => c.execs
  | .pipe l r => l.execs ++ r.execs

/-- Without null pointers, and with a program in every command. -/
def Cmd.Sound : Cmd → Prop
  | .null => False
  | .exec e => e.argv ≠ []
  | .back c => c.Sound
  | .pipe l r => l.Sound ∧ r.Sound

/-- What happens does not make `exec_cmd` return: no `pipe` fails, and no `execvp` of a command
with redirections. -/
def Good : Event ExecCmd Side → Prop
  | .pipeFailed => False
  | .execFailed e => e.type = .exec
  | _ => True

/-- The point is not the return of `exec_cmd`, and uses no null pointer. -/
def NotReturned (q : ShellProg) : Prop :=
  q ≠ .done ∧ q ≠ .fault ∧ ∀ e k, q ≠ .execvp e false k

/-- Where a call that fails makes `exec_cmd` return. -/
def Returning (q : ShellProg) : Prop :=
  (∀ k, q = .pipe k → k none = .done) ∧ ∀ e b k, q = .execvp e b k → e.type = .redir → k = .done

variable {Ok : Event ExecCmd Side → Prop} {Q : ShellProg → Prop} {c l r : Cmd} {e : ExecCmd}
  {q : ShellProg} {pid : List Side} {f : Fds Side} {rs : List Side}

/-- A property of points that do not depend on the descriptors. -/
abbrev SafeAt (Ok : Event ExecCmd Side → Prop) (Q : ShellProg → Prop) (q : ShellProg) : Prop :=
  ∀ pid f rs, Safe Ok (fun _ q _ _ => Q q) q pid f rs

/-- What a property must hold of to hold of every point of `exec_cmd`. -/
structure Points (Ok : Event ExecCmd Side → Prop) (Q : ShellProg → Prop) : Prop where
  exit : ∀ code, Q (.exit code)
  openFile : ∀ n w k, Q (.openFile n w k)
  fork : ∀ c k, Q (.fork c k)
  dup2 : ∀ a b k, Q (.dup2 a b k)
  close : ∀ fd k, Q (.close fd k)
  waitpid : ∀ c k, Q (.waitpid c k)
  pipe : ∀ k, k none = .done → Q (.pipe k)
  pipeFailed : Ok .pipeFailed → Q .done

lemma SafeAt.execvp {k : ShellProg} (h : Q (execvp e k)) (hk : Ok (.execFailed e) → SafeAt Ok Q k) :
    SafeAt Ok Q (Shell.execvp e k) :=
  fun pid f rs => ⟨h, fun hok => hk hok pid f rs⟩

lemma safeAt_freeCommand (hnull : c.noNull = false → Q .fault) (hq : SafeAt Ok Q q) :
    SafeAt Ok Q (freeCommand c q) := by
  unfold freeCommand
  split
  · exact hq
  · rename_i h
    intro pid f rs
    exact hnull (by simpa using h)

variable (hQ : Points Ok Q)
include hQ

lemma safeAt_closeIfValid (hq : SafeAt Ok Q q) (fd : Option ℕ) : SafeAt Ok Q (closeIfValid fd q) := by
  intro pid f rs
  cases fd with
  | none => exact hq pid f rs
  | some fd => exact ⟨hQ.close _ _, hq _ _ _⟩

lemma safeAt_redirect {rest : Option ℕ → ShellProg} (hrest : ∀ x, SafeAt Ok Q (rest x))
    (file : List Char) (write : Bool) (target : ℕ) :
    SafeAt Ok Q (redirect file write target rest) := by
  intro pid f rs
  unfold redirect
  split
  · exact hrest none pid f rs
  · refine ⟨hQ.openFile _ _ _, fun _ => hQ.exit _, ?_⟩
    intro fd _
    exact ⟨hQ.dup2 _ _ _, hrest _ _ _ _⟩

lemma safeAt_redirectErr {rest : Option ℕ → ShellProg} (hrest : ∀ x, SafeAt Ok Q (rest x))
    (file : List Char) (fdOut : Option ℕ) : SafeAt Ok Q (redirectErr file fdOut rest) := by
  unfold redirectErr
  split
  · intro pid f rs
    exact ⟨hQ.dup2 _ _ _, hrest _ _ _ _⟩
  · exact safeAt_redirect hQ hrest _ _ _

lemma safeAt_runRedir (he : SafeAt Ok Q (execvp e .done)) : SafeAt Ok Q (runRedir e) := by
  unfold runRedir
  apply safeAt_redirect hQ
  intro fdIn
  apply safeAt_redirect hQ
  intro fdOut
  apply safeAt_redirectErr hQ
  intro fdErr
  apply safeAt_closeIfValid hQ
  apply safeAt_closeIfValid hQ
  exact safeAt_closeIfValid hQ he _

lemma safeAt_runPipes {left right : ShellProg} (hnull : (Cmd.pipe l r).noNull = false → Q .fault)
    (hl : SafeAt Ok Q left) (hr : SafeAt Ok Q right) : SafeAt Ok Q (runPipes l r left right) := by
  have hend : ∀ code, SafeAt Ok Q (freeCommand (.pipe l r) (.exit code)) := by
    intro code
    exact safeAt_freeCommand hnull (fun _ _ _ => hQ.exit code)
  have hleft : l.noNull = false → Q .fault := by
    intro h
    apply hnull
    rw [Cmd.noNull, h, Bool.false_and]
  have hfailed : ∀ rd wr, SafeAt Ok Q
      (.close wr (.close rd (freeCommand (.pipe l r) (.exit (-1))))) := by
    intro rd wr pid f rs
    exact ⟨hQ.close _ _, hQ.close _ _, hend _ _ _ _⟩
  intro pid f rs
  unfold runPipes
  refine ⟨hQ.pipe _ rfl, hQ.pipeFailed, ?_⟩
  intro rd wr _ _
  refine ⟨hQ.fork _ _, fun _ => hfailed _ _ _ _ _, ?_, ?_⟩
  · refine ⟨hQ.fork _ _, fun _ => hfailed _ _ _ _ _, ?_, ?_⟩
    · exact ⟨hQ.close _ _, hQ.close _ _, hQ.waitpid _ _, hQ.waitpid _ _, hend _ _ _ _⟩
    · apply safeAt_freeCommand hleft
      intro pid f rs
      exact ⟨hQ.close _ _, hQ.dup2 _ _ _, hQ.close _ _, hr _ _ _⟩
  · exact ⟨hQ.close _ _, hQ.dup2 _ _ _, hQ.close _ _, hl _ _ _⟩

/-- The points of `exec_cmd`: the property is asked of the commands one by one. -/
lemma safeAt_execCmd (hnull : c.noNull = false → Q .fault)
    (hexec : ∀ e ∈ c.execs, SafeAt Ok Q (execvp e (if e.type = .exec then .exit (-1) else .done))) :
    SafeAt Ok Q (execCmd c) := by
  induction c with
  | null => exact fun _ _ _ => hnull rfl
  | exec e =>
    have he := hexec e List.mem_cons_self
    unfold execCmd
    cases htype : e.type with
    | exec =>
      rw [htype] at he
      exact he
    | redir =>
      rw [htype] at he
      exact safeAt_runRedir hQ he
  | back c ih => exact ih hnull hexec
  | pipe l r ihl ihr =>
    have hl : l.noNull = false → Q .fault := by
      intro h
      apply hnull
      rw [Cmd.noNull, h, Bool.false_and]
    have hr : r.noNull = false → Q .fault := by
      intro h
      apply hnull
      rw [Cmd.noNull, h, Bool.and_false]
    apply safeAt_runPipes hQ hnull
    · exact ihl hl (fun e he => hexec e (List.mem_append_left _ he))
    · exact ihr hr (fun e he => hexec e (List.mem_append_right _ he))

omit hQ

lemma Cmd.Sound.noNull (h : c.Sound) : c.noNull = true := by
  induction c with
  | null => cases h
  | exec e => rfl
  | back c ih => exact ih h
  | pipe l r ihl ihr =>
    rw [Cmd.noNull, ihl h.1, ihr h.2]
    rfl

lemma Cmd.Sound.execs (h : c.Sound) : ∀ e ∈ c.execs, e.argv ≠ [] := by
  intro e he
  induction c with
  | null => cases he
  | exec e' =>
    obtain rfl := List.mem_singleton.mp he
    exact h
  | back c ih => exact ih h he
  | pipe l r ihl ihr =>
    rcases List.mem_append.mp he with he | he
    · exact ihl h.1 he
    · exact ihr h.2 he

lemma safeAt_notReturned (hc : c.Sound) : SafeAt Good NotReturned (execCmd c) := by
  apply safeAt_execCmd
  · constructor
    case pipeFailed => exact fun h => h.elim
    all_goals
      intros
      simp [NotReturned]
  · intro h
    rw [hc.noNull] at h
    cases h
  · intro e he
    have hname : (!e.argv.isEmpty) = true := by
      have hne := hc.execs e he
      simpa [List.isEmpty_iff] using hne
    apply SafeAt.execvp
    · simp [NotReturned, execvp, hname]
    · intro hok pid f rs
      have htype : e.type = .exec := hok
      rw [if_pos htype]
      simp [Safe, NotReturned]

lemma safeAt_returning (c : Cmd) : SafeAt (fun _ => True) Returning (execCmd c) := by
  apply safeAt_execCmd
  · constructor <;> intros <;> simp_all [Returning]
  · intro _
    simp [Returning]
  · intro e he
    apply SafeAt.execvp
    · refine ⟨by simp [execvp], ?_⟩
      intro e' b k heq htype
      cases heq
      rw [if_neg (by rw [htype]; decide)]
    · intro _ pid f rs
      split <;> simp [Safe, Returning]

variable {s t : Procs ExecCmd Side} {h : List (Move (Procs ExecCmd Side) (List Side × Event ExecCmd Side))}

/-- A process of the shell is running, has become a program or has ended by `exit`. -/
def NeverReturned (s : Procs ExecCmd Side) : Prop :=
  ∀ pid p, s pid = some p → p.status ≠ .running .done ∧ p.status ≠ .killed

/-- A step that is not good makes a process return. -/
lemma not_neverReturned (hr : Run (Begins (execCmd c) f) Step h s)
    {m : Move (Procs ExecCmd Side) (List Side × Event ExecCmd Side)} (hm : m ∈ h)
    (hbad : ¬ Good m.label.2) : ∃ pid p, m.post pid = some p ∧ p.status = .running .done := by
  obtain ⟨⟨h', -, hpre⟩, hst⟩ := hr.mem hm
  have hmeets := (safeAt_returning c [] f []).run hpre (fun _ _ => trivial)
  obtain ⟨pre, ⟨pid, ev⟩, post⟩ := m
  dsimp only at hst hmeets hbad ⊢
  cases hst with
  | @act _ p _ p' hp ha hfork hwait =>
    refine ⟨pid, p', Function.update_self _ _ _, ?_⟩
    have hq := hmeets pid p hp
    cases ha with
    | pipeFailed =>
      have hdone := hq.here.1 _ rfl
      rw [hdone]
    | @execFailed e b k f r =>
      have htype : e.type = .redir := by
        cases he : e.type with
        | exec => exact absurd he hbad
        | redir => rfl
      have hdone := hq.here.2 _ _ _ rfl htype
      rw [hdone]
    | _ => exact absurd trivial hbad
  | fork => exact absurd trivial hbad

/-- For a sound command, `exec_cmd` never returns in any process, and none of them uses a null
pointer, as long as no `pipe` and no `execvp` of a command with redirections fails. -/
theorem neverReturned_iff (hc : c.Sound) (hr : Run (Begins (execCmd c) f) Step h s) :
    NeverReturned s ↔ ∀ m ∈ h, Good m.label.2 := by
  constructor
  · intro hkept m hm
    by_contra hbad
    obtain ⟨pid, p, hp, hdone⟩ := not_neverReturned hr hm hbad
    obtain ⟨h₁, h₂, rfl⟩ := List.append_of_mem hm
    have hstay : s pid = some p := by
      apply Run.since (fun s => s pid = some p) hr hp
      intro x hx hxp
      have hxst := (hr.mem (List.mem_append_right _ (List.mem_cons_of_mem _ hx))).2
      apply hxst.stuck hxp
      intro ev p' ha
      obtain ⟨status, fds, reaped⟩ := p
      cases hdone
      cases ha
    exact (hkept pid p hstay).1 hdone
  · intro hgood pid p hp
    have hmeets := (safeAt_notReturned hc [] f []).run hr hgood pid p hp
    obtain ⟨status, fds, reaped⟩ := p
    constructor
    · intro heq
      cases heq
      exact hmeets.here.1 rfl
    · intro heq
      cases heq
      rcases hmeets.1 with ⟨f, hq⟩ | ⟨e, k, f, hq⟩
      · exact hq.2.1 rfl
      · exact hq.2.2 _ _ rfl

/-! ### A run -/

/-- A state of a run in which everything that happens meets `Ok`. -/
def Reachable (Ok : Event ExecCmd Side → Prop) (q : ShellProg) (f : Fds Side) (s : Procs ExecCmd Side) : Prop :=
  ∃ h, Run (Begins q f) Step h s ∧ ∀ m ∈ h, Ok m.label.2

lemma Reachable.next (hs : Reachable Ok q f s) {l : List Side × Event ExecCmd Side} (hst : Step s l t)
    (hl : Ok l.2) : Reachable Ok q f t := by
  obtain ⟨h, hr, hok⟩ := hs
  refine ⟨_, hr.next hst, ?_⟩
  intro m hm
  rcases List.mem_append.mp hm with hm | hm
  · exact hok m hm
  · rw [List.mem_singleton.mp hm]
    exact hl

lemma Reachable.act (hs : Reachable Ok q f s) (pid : List Side) {p p' : Process ExecCmd Side}
    {ev : Event ExecCmd Side} (hp : s pid = some p) (ha : Acts pid p ev p')
    (hev : Ok ev ∧ (∀ c, ev ≠ .forked c) ∧ ∀ c, ev ≠ .reaped c) :
    Reachable Ok q f (Function.update s pid (some p')) :=
  hs.next (.act hp ha hev.2.1 (fun c hc => absurd hc (hev.2.2 c))) hev.1

lemma Reachable.fork {g : Fds Side} (hs : Reachable Ok q f s) (pid : List Side) {c : Side}
    {k : Forked → ShellProg} (hp : s pid = some ⟨.running (.fork c k), g, rs⟩)
    (hnew : s (pid ++ [c]) = none) (hok : Ok (.forked c)) : Reachable Ok q f (Function.update
      (Function.update s pid (some ⟨.running (k .parent), g, rs⟩)) (pid ++ [c])
      (some ⟨.running (k .child), g, []⟩)) :=
  hs.next (.fork hp hnew) hok

/-- The open descriptors of the first shell. -/
def inherited (f : ℕ → Option ℕ) : Fds Side := fun fd => (f fd).map .other

/-- The command `a`, as parsed. -/
abbrev execOf (a : Char) : ExecCmd := ⟨.exec, [a], [[a]], [], [], [], []⟩

abbrev cmdOf (a : Char) : Cmd := .exec (execOf a)

/-- The descriptors 0, 1 and 2. -/
abbrev threeOpen (fd : ℕ) : Option ℕ := if fd < 3 then some fd else none

/-- Both commands of `a | b` come to `execvp`, while the shell still has both ends of their pipe. -/
lemma reachable_execvp (Ok : Event ExecCmd Side → Prop) (hpiped : Ok (.piped 3 4))
    (hforked : ∀ c, Ok (.forked c)) (hclosed : Ok .closed) (hcopied : Ok .copied) :
    ∃ s fl fr k, Reachable Ok (execCmd (.pipe (cmdOf 'a') (cmdOf 'b'))) (inherited threeOpen) s ∧
      s [.left] = some ⟨.running (execvp (execOf 'a') (.exit (-1))), fl, []⟩ ∧
      s [.right] = some ⟨.running (execvp (execOf 'b') (.exit (-1))), fr, []⟩ ∧
      s [] = some ⟨.running k, ((inherited threeOpen).set 3 (some (.pipeEnd [] false))).set 4
        (some (.pipeEnd [] true)), []⟩ := by
  have h0 : Reachable Ok (execCmd (.pipe (cmdOf 'a') (cmdOf 'b'))) (inherited threeOpen) _ :=
    ⟨[], .start rfl, fun m hm => by cases hm⟩
  have hpipe : Acts [] ⟨.running (execCmd (.pipe (cmdOf 'a') (cmdOf 'b'))), inherited threeOpen, []⟩
      (.piped 3 4) _ := .piped ⟨rfl, by decide⟩ ⟨rfl, by decide⟩
  have hclosed : Ok .closed ∧ (∀ c, (.closed : Event ExecCmd Side) ≠ .forked c) ∧
      ∀ c, (.closed : Event ExecCmd Side) ≠ .reaped c := ⟨hclosed, by simp, by simp⟩
  have hcopied : Ok .copied ∧ (∀ c, (.copied : Event ExecCmd Side) ≠ .forked c) ∧
      ∀ c, (.copied : Event ExecCmd Side) ≠ .reaped c := ⟨hcopied, by simp, by simp⟩
  have h1 := h0.act [] rfl hpipe ⟨hpiped, by simp, by simp⟩
  have h2 := h1.fork [] rfl rfl (hforked _)
  have h3 := h2.fork [] rfl rfl (hforked _)
  -- the left child, and then the right one
  have h4 := h3.act [.left] rfl .close hclosed
  have h5 := h4.act [.left] rfl .dup2 hcopied
  have h6 := h5.act [.left] rfl .close hclosed
  have h7 := h6.act [.right] rfl .close hclosed
  have h8 := h7.act [.right] rfl .dup2 hcopied
  have h9 := h8.act [.right] rfl .close hclosed
  exact ⟨_, _, _, _, h9, rfl, rfl, rfl⟩

/-- In a run of `a | b` the first command is replaced, and the second one, whose `execvp` fails, ends by
`exit`. -/
theorem neverReturned_both : ∃ h s,
    Run (Begins (execCmd (.pipe (cmdOf 'a') (cmdOf 'b'))) (inherited threeOpen)) Step h s ∧
    (s [.left]).map (·.status) = some (.image (execOf 'a')) ∧ (s [.right]).map (·.status) = some (.exited (-1)) ∧
    NeverReturned s := by
  obtain ⟨s, fl, fr, k, hs, hleft, hright, -⟩ :=
    reachable_execvp Good trivial (fun _ => trivial) trivial trivial
  have h1 := hs.act [.left] hleft .execvp ⟨trivial, by simp, by simp⟩
  have h2 := h1.act [.right] ((Function.update_of_ne (by decide) _ _).trans hright) .execFailed
    ⟨rfl, by simp, by simp⟩
  have h3 := h2.act [.right] (Function.update_self _ _ _) .exit ⟨trivial, by simp, by simp⟩
  obtain ⟨h, hr, hgood⟩ := h3
  have hsound : Cmd.Sound (.pipe (cmdOf 'a') (cmdOf 'b')) := ⟨by simp [Cmd.Sound], by simp [Cmd.Sound]⟩
  refine ⟨h, _, hr, ?_, ?_, (neverReturned_iff hsound hr).mpr hgood⟩
  · rw [Function.update_of_ne (by decide), Function.update_of_ne (by decide), Function.update_self]
    rfl
  · rw [Function.update_self]
    rfl

/-- `a|b` returns when `pipe` fails. -/
theorem neverReturned_fails : ¬ (∀ (env : Environ) (before : Char) (line rest : List Char)
    (f : Fds Side) (h : List (Move (Procs ExecCmd Side) (List Side × Event ExecCmd Side)))
    (s : Procs ExecCmd Side), Run (Begins (execCmd (parsed env before line rest)) f) Step h s →
    NeverReturned s) := by
  intro hall
  let env : Environ := ⟨fun _ => none, 0, fun _ _ => []⟩
  have hcmd : parsed env endString ['a', '|', 'b'] [] =
      .pipe (.exec ⟨.exec, ['a'], [['a']], [], [], [], []⟩)
        (.exec ⟨.exec, ['b'], [['b']], [], [], [], []⟩) := by decide +kernel
  have hstart : Run (Begins (execCmd (parsed env endString ['a', '|', 'b'] [])) (fun _ => none))
      Step [] _ := .start rfl
  have hrun := Run.next hstart (.act (Function.update_self _ _ _)
    (by rw [hcmd]; exact .pipeFailed) (by simp) (by simp))
  exact (hall env _ _ _ _ _ _ hrun [] _ (Function.update_self _ _ _)).1 rfl

end SistemasOperativos.Shell
