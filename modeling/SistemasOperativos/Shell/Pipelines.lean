import SistemasOperativos.Shell.Exec

/-!
# Pipelines

The processes of a pipeline of `n` commands, whose pipes and forks do not fail. The shell `k` runs
the tree that starts with command `k`; it makes the pipe between `k` and `k + 1`, and its children
are the command `k` and either the next shell or the last command.
-/

namespace SistemasOperativos.Shell

open Library

def shellPid (k : ℕ) : List Side := List.replicate k .right

/-- The process that runs command `k` of `n`. -/
def commandPid (n k : ℕ) : List Side := if k + 1 < n then shellPid k ++ [.left] else shellPid k

def readEnd (k : ℕ) : File Side := .pipeEnd (shellPid k) false
def writeEnd (k : ℕ) : File Side := .pipeEnd (shellPid k) true

/-- The descriptors of command `k` when it comes to `execvp`. -/
structure AtExec (n k : ℕ) (e : ExecCmd) (f : Fds Side) : Prop where
  stdin : 0 < k → e.inFile = [] → f stdinFileno = some (readEnd (k - 1))
  stdout : k + 1 < n → e.outFile = [] → f stdoutFileno = some (writeEnd k)
  /-- no other end of a pipe -/
  only : ∀ fd m w, f fd = some (.pipeEnd m w) →
    (fd = stdinFileno ∧ 0 < k ∧ File.pipeEnd m w = readEnd (k - 1)) ∨
    (fd = stdoutFileno ∧ k + 1 < n ∧ File.pipeEnd m w = writeEnd k)

/-- The program has come to its `execvp`, or has given up before. -/
def reached : ShellProg → Bool
  | .execvp _ _ _ => true
  | .done => true
  | .exit _ => true
  | _ => false

/-- The shell has closed its ends of the pipe. -/
def waits : ShellProg → Bool
  | .waitpid _ _ => true
  | .exit _ => true
  | _ => false

/-- The process of command `k` has come to its `execvp`. -/
def Reached (n : ℕ) (s : Procs ExecCmd Side) (k : ℕ) : Prop :=
  ∃ p, s (commandPid n k) = some p ∧ ∀ q, p.status = .running q → reached q = true

/-- What holds in every state of a pipeline of the commands `cs`. -/
structure PipelineOk (cs : List Cmd) (s : Procs ExecCmd Side) : Prop where
  execs : ∀ k p e, k < cs.length → s (commandPid cs.length k) = some p →
    (p.status = .image e ∨ ∃ b q, p.status = .running (.execvp e b q)) →
    cs[k]?.bind Cmd.execCmd? = some e ∧ AtExec cs.length k e p.fds
  /-- only command `k` writes to its pipe, and the shell that has made it closes its end before
  it waits -/
  writers : (∀ k < cs.length, Reached cs.length s k) → ∀ k pid p fd, s pid = some p →
    p.fds fd = some (writeEnd k) → pid = commandPid cs.length k ∨
      (pid = shellPid k ∧ ∃ q, p.status = .running q ∧ waits q = false)
  exits : ∀ k p code, k + 1 < cs.length → s (shellPid k) = some p → p.status = .exited code →
    Over s (shellPid k ++ [.left]) ∧ Over s (shellPid k ++ [.right])

/-- No `pipe` and no `fork` fails. -/
def Clean : Event ExecCmd Side → Prop
  | .pipeFailed => False
  | .forkFailed => False
  | _ => True

variable {n k j : ℕ} {e : ExecCmd} {f : Fds Side} {q : ShellProg} {rs : List Side} {cs : List Cmd}
  {pid : List Side} {x : Option ℕ} {fd : ℕ}

lemma shellPid_inj : shellPid j = shellPid k ↔ j = k := by
  constructor
  · intro h
    have hlen := congrArg List.length h
    unfold shellPid at hlen
    rwa [List.length_replicate, List.length_replicate] at hlen
  · rintro rfl
    rfl

lemma shellPid_succ (k : ℕ) : shellPid k ++ [.right] = shellPid (k + 1) :=
  List.replicate_succ'.symm

lemma left_ne_shellPid (j k : ℕ) : shellPid j ++ [.left] ≠ shellPid k := by
  intro h
  have hmem : Side.left ∈ shellPid k := by
    rw [← h]
    simp
  have heq := List.eq_of_mem_replicate hmem
  cases heq

/-- A shell that has made a pipe runs no command. -/
lemma commandPid_ne_shellPid (hj : j + 1 < n) : commandPid n k ≠ shellPid j := by
  unfold commandPid
  split
  · exact left_ne_shellPid k j
  · rw [Ne, shellPid_inj]
    omega

lemma commandPid_inj (hj : j < n) (hk : k < n) (h : commandPid n j = commandPid n k) : j = k := by
  unfold commandPid at h
  split at h <;> split at h
  · exact shellPid_inj.mp (List.append_inj' h rfl).1
  · exact absurd h (left_ne_shellPid j k)
  · exact absurd h.symm (left_ne_shellPid k j)
  · omega

/-- What holds at every point of a process of the pipeline. -/
structure Point (cs : List Cmd) (pid : List Side) (q : ShellProg) (f : Fds Side)
    (rs : List Side) : Prop where
  /-- the end to write to the pipe of shell `k` is in the process of command `k`, in the shell,
  and for one step in the other child of the shell -/
  writes : ∀ fd m, f fd = some (.pipeEnd m true) → ∃ k, k + 1 < cs.length ∧ m = shellPid k ∧
    (pid = commandPid cs.length k ∨ (pid = shellPid k ∧ waits q = false) ∨
      (pid = shellPid (k + 1) ∧ reached q = false ∧ (k + 2 < cs.length → q.Forks .left)))
  execs : ∀ e b q', q = .execvp e b q' → ∃ k, k < cs.length ∧ pid = commandPid cs.length k ∧
    cs[k]?.bind Cmd.execCmd? = some e ∧ AtExec cs.length k e f
  exits : ∀ code k, q = .exit code → k + 1 < cs.length → pid = shellPid k →
    .left ∈ rs ∧ .right ∈ rs
  forks : ∀ c k, q = .fork c k → ¬ (k .parent).Forks c

/-! ### The commands -/

/-- The descriptors of command `k` on its way to `execvp`. -/
structure Leaf (n k : ℕ) (e : ExecCmd) (f : Fds Side) : Prop extends AtExec n k e f where
  std : ∀ fd ≤ stderrFileno, f fd ≠ none

/-- The descriptor of a file that the command has opened itself. -/
def Opened (f : Fds Side) (x : Option ℕ) : Prop :=
  ∀ fd, x = some fd → stderrFileno < fd ∧ ∀ m w, f fd ≠ some (.pipeEnd m w)

lemma Leaf.lowest (h : Leaf n k e f) (hfd : f.Lowest fd) : stderrFileno < fd := by
  by_contra hle
  exact h.std fd (by omega) hfd.1

lemma Leaf.set (h : Leaf n k e f) {y : Option (File Side)} (hfd : stderrFileno < fd)
    (hy : ∀ m w, y ≠ some (.pipeEnd m w)) : Leaf n k e (f.set fd y) := by
  have hset : ∀ d ≤ stderrFileno, f.set fd y d = f d := by
    intro d hd
    exact Function.update_of_ne (by omega) _ _
  constructor
  · constructor
    · intro hk he
      rw [hset _ (by decide)]
      exact h.stdin hk he
    · intro hk he
      rw [hset _ (by decide)]
      exact h.stdout hk he
    · intro d m w hd
      by_cases heq : d = fd
      · subst heq
        unfold Fds.set at hd
        rw [Function.update_self] at hd
        exact absurd hd (hy m w)
      · unfold Fds.set at hd
        rw [Function.update_of_ne heq] at hd
        exact h.only d m w hd
  · intro d hd
    rw [hset d hd]
    exact h.std d hd

/-- A redirection. -/
lemma Leaf.dup2 (h : Leaf n k e f) (hx : Opened f x) {target : ℕ}
    (hin : target = stdinFileno → e.inFile ≠ []) (hout : target = stdoutFileno → e.outFile ≠ []) :
    Leaf n k e (f.dup2 x target) := by
  unfold Fds.dup2
  split
  · exact h
  · rename_i y hy
    obtain ⟨fd, rfl, hfd⟩ := Option.bind_eq_some_iff.mp hy
    have hpipe : ∀ m w, y ≠ .pipeEnd m w := by
      rintro m w rfl
      exact (hx fd rfl).2 m w hfd
    constructor
    · constructor
      · intro hk he
        unfold Fds.set
        rw [Function.update_of_ne (fun heq => hin heq.symm he)]
        exact h.stdin hk he
      · intro hk he
        unfold Fds.set
        rw [Function.update_of_ne (fun heq => hout heq.symm he)]
        exact h.stdout hk he
      · intro d m w hd
        by_cases heq : d = target
        · subst heq
          unfold Fds.set at hd
          rw [Function.update_self] at hd
          exact absurd (Option.some.inj hd) (hpipe m w)
        · unfold Fds.set at hd
          rw [Function.update_of_ne heq] at hd
          exact h.only d m w hd
    · intro d hd
      by_cases heq : d = target
      · subst heq
        unfold Fds.set
        rw [Function.update_self]
        simp
      · unfold Fds.set
        rw [Function.update_of_ne heq]
        exact h.std d hd

lemma AtExec.point (hk : k < cs.length) (h : AtExec cs.length k e f)
    (hexec : ∀ e' b q', q = .execvp e' b q' → cs[k]?.bind Cmd.execCmd? = some e' ∧ e' = e)
    (hfork : ∀ c k, q ≠ .fork c k) : Point cs (commandPid cs.length k) q f rs := by
  constructor
  · intro fd m hfd
    rcases h.only fd m true hfd with ⟨-, -, heq⟩ | ⟨-, hlt, heq⟩
    · cases heq
    · refine ⟨k, hlt, ?_, .inl rfl⟩
      cases heq
      rfl
  · intro e' b q' hq
    obtain ⟨hcmd, rfl⟩ := hexec e' b q' hq
    exact ⟨k, hk, rfl, hcmd, h⟩
  · intro code j _ hj heq
    exact absurd heq (commandPid_ne_shellPid hj)
  · intro c k hq
    exact absurd hq (hfork c k)

/-- A safe program of command `k`. -/
abbrev SafeCmd (cs : List Cmd) (k : ℕ) (q : ShellProg) (f : Fds Side) : Prop :=
  ∀ rs, Safe Clean (Point cs) q (commandPid cs.length k) f rs

lemma safe_execvp (hk : k < cs.length) (he : cs[k]?.bind Cmd.execCmd? = some e)
    (h : Leaf cs.length k e f) (hq : q = .done ∨ ∃ code, q = .exit code) :
    SafeCmd cs k (execvp e q) f := by
  intro rs
  refine ⟨?_, ?_⟩
  · apply h.toAtExec.point hk
    · intro e' b q' heq
      cases heq
      exact ⟨he, rfl⟩
    · simp
  · intro _
    rcases hq with rfl | ⟨code, rfl⟩
    · exact h.toAtExec.point hk (by simp) (by simp)
    · exact h.toAtExec.point hk (by simp) (by simp)

lemma safe_closeIfValid (hk : k < cs.length) (h : Leaf cs.length k e f)
    (hx : ∀ fd, x = some fd → stderrFileno < fd)
    (hq : ∀ f, Leaf cs.length k e f → SafeCmd cs k q f) : SafeCmd cs k (closeIfValid x q) f := by
  intro rs
  unfold closeIfValid
  split
  · refine ⟨h.toAtExec.point hk (by simp) (by simp), ?_⟩
    exact hq _ (h.set (hx _ rfl) (by simp)) rs
  · exact hq _ h rs

lemma safe_redirect (hk : k < cs.length) (h : Leaf cs.length k e f) {file : List Char}
    {write : Bool} {target : ℕ} {rest : Option ℕ → ShellProg}
    (hin : file ≠ [] → target = stdinFileno → e.inFile ≠ [])
    (hout : file ≠ [] → target = stdoutFileno → e.outFile ≠ []) (htarget : target ≤ stderrFileno)
    (hrest : ∀ x f, Leaf cs.length k e f → Opened f x → SafeCmd cs k (rest x) f) :
    SafeCmd cs k (redirect file write target rest) f := by
  intro rs
  unfold redirect
  split
  · exact hrest none f h (fun fd hfd => by cases hfd) rs
  · rename_i hfile
    refine ⟨h.toAtExec.point hk (by simp) (by simp), ?_, ?_⟩
    · intro _
      exact h.toAtExec.point hk (by simp) (by simp)
    · intro fd hfd
      have hlt := h.lowest hfd
      have hset : Leaf cs.length k e (f.set fd (some (.named file write))) :=
        h.set hlt (by simp)
      have hopened : Opened (f.set fd (some (.named file write))) (some fd) := by
        intro d hd
        cases hd
        refine ⟨hlt, ?_⟩
        unfold Fds.set
        simp
      refine ⟨hset.toAtExec.point hk (by simp) (by simp), ?_⟩
      apply hrest _ _ (hset.dup2 hopened (hin hfile) (hout hfile))
      intro d hd
      cases hd
      refine ⟨hlt, ?_⟩
      unfold Fds.dup2 Fds.set
      simp [Function.update_of_ne (show fd ≠ target by omega)]

lemma safe_redirectErr (hk : k < cs.length) (h : Leaf cs.length k e f) {file : List Char}
    {rest : Option ℕ → ShellProg} (hx : Opened f x)
    (hrest : ∀ x f, Leaf cs.length k e f → (∀ fd, x = some fd → stderrFileno < fd) →
      SafeCmd cs k (rest x) f) :
    SafeCmd cs k (redirectErr file x rest) f := by
  unfold redirectErr
  split
  · intro rs
    refine ⟨h.toAtExec.point hk (by simp) (by simp), ?_⟩
    apply hrest none _ (h.dup2 hx (fun heq => absurd heq (by decide))
      (fun heq => absurd heq (by decide)))
    intro fd hfd
    cases hfd
  · apply safe_redirect hk h (fun _ heq => absurd heq (by decide))
      (fun _ heq => absurd heq (by decide)) (Nat.le_refl _)
    intro y g hg hy
    exact hrest y g hg (fun fd hfd => (hy fd hfd).1)

lemma safe_runRedir (hk : k < cs.length) (he : cs[k]?.bind Cmd.execCmd? = some e)
    (h : Leaf cs.length k e f) : SafeCmd cs k (runRedir e) f := by
  unfold runRedir
  apply safe_redirect hk h (fun hfile _ => hfile) (fun _ heq => absurd heq (by decide)) (by decide)
  intro fdIn f hf hin
  apply safe_redirect hk hf (fun _ heq => absurd heq (by decide)) (fun hfile _ => hfile) (by decide)
  intro fdOut f hf hout
  apply safe_redirectErr hk hf hout
  intro fdErr f hf herr
  apply safe_closeIfValid hk hf (fun fd hfd => (hin fd hfd).1)
  intro f hf
  apply safe_closeIfValid hk hf (fun fd hfd => (hout fd hfd).1)
  intro f hf
  apply safe_closeIfValid hk hf herr
  intro f hf
  exact safe_execvp hk he hf (.inl rfl)

lemma safe_leaf {c : Cmd} (hk : k < cs.length) (hc : cs[k]? = some c) (he : c.execCmd? = some e)
    (h : Leaf cs.length k e f) : SafeCmd cs k (execCmd c) f := by
  have hcmd : execCmd c = execCmd (.exec e) := by
    unfold Cmd.execCmd? at he
    split at he
    · cases he
      rfl
    · cases he
      rfl
    · cases he
  have hbind : cs[k]?.bind Cmd.execCmd? = some e := by
    rw [hc]
    exact he
  rw [hcmd]
  unfold execCmd
  split
  · exact safe_execvp hk hbind h (.inr ⟨-1, rfl⟩)
  · exact safe_runRedir hk hbind h

/-! ### The shells -/

/-- The descriptors with which shell `k` starts. -/
structure Entry (k : ℕ) (f : Fds Side) : Prop where
  stdin : 0 < k → f stdinFileno = some (readEnd (k - 1))
  only : ∀ fd m w, f fd = some (.pipeEnd m w) →
    fd = stdinFileno ∧ 0 < k ∧ File.pipeEnd m w = readEnd (k - 1)
  std : ∀ fd ≤ stderrFileno, f fd ≠ none

lemma Entry.leaf (h : Entry k f) (hk : ¬ k + 1 < n) (e : ExecCmd) : Leaf n k e f := by
  constructor
  · constructor
    · intro hpos _
      exact h.stdin hpos
    · intro hlt
      exact absurd hlt hk
    · intro fd m w hfd
      exact .inl (h.only fd m w hfd)
  · exact h.std

/-- The descriptors with the two ends of a new pipe. -/
abbrev withPipe (k : ℕ) (f : Fds Side) (rd wr : ℕ) : Fds Side :=
  (f.set rd (some (readEnd k))).set wr (some (writeEnd k))

/-- Two new descriptors for a pipe. -/
structure NewPipe (rd wr : ℕ) : Prop where
  rdNew : stderrFileno < rd
  wrNew : stderrFileno < wr
  distinct : rd ≠ wr

lemma Entry.newPipe {rd wr : ℕ} (h : Entry k f) (hrd : f.Lowest rd)
    (hwr : (f.set rd (some (readEnd k))).Lowest wr) : NewPipe rd wr := by
  have hne : rd ≠ wr := by
    rintro rfl
    have hnone := hwr.1
    unfold Fds.set at hnone
    simp at hnone
  refine ⟨?_, ?_, hne⟩
  · by_contra hle
    exact h.std rd (by omega) hrd.1
  · by_contra hle
    have hnone := hwr.1
    unfold Fds.set at hnone
    rw [Function.update_of_ne hne.symm] at hnone
    exact h.std wr (by omega) hnone

section Pipe

variable {rd wr : ℕ} (h : Entry k f) (hp : NewPipe rd wr)
include hp

lemma dup2_wr (f : Fds Side) : ((withPipe k f rd wr).set rd none).dup2 (some wr) stdoutFileno =
    ((withPipe k f rd wr).set rd none).set stdoutFileno (some (writeEnd k)) := by
  apply Fds.dup2_of_some
  rw [Fds.set_apply, if_neg hp.distinct.symm, withPipe, Fds.set_apply, if_pos rfl]

lemma dup2_rd (f : Fds Side) : ((withPipe k f rd wr).set wr none).dup2 (some rd) stdinFileno =
    ((withPipe k f rd wr).set wr none).set stdinFileno (some (readEnd k)) := by
  apply Fds.dup2_of_some
  rw [Fds.set_apply, if_neg hp.distinct, withPipe, Fds.set_apply, if_neg hp.distinct,
    Fds.set_apply, if_pos rfl]

include h

/-- What an end that is open to write in a shell is. -/
lemma writes_withPipe {m : List Side} (hfd : withPipe k f rd wr fd = some (.pipeEnd m true)) :
    fd = wr ∧ m = shellPid k := by
  unfold withPipe Fds.set at hfd
  by_cases hw : fd = wr
  · subst hw
    rw [Function.update_self] at hfd
    cases hfd
    exact ⟨rfl, rfl⟩
  · rw [Function.update_of_ne hw] at hfd
    by_cases hr : fd = rd
    · subst hr
      rw [Function.update_self] at hfd
      cases hfd
    · rw [Function.update_of_ne hr] at hfd
      cases (h.only _ _ _ hfd).2.2

/-- The descriptors of command `k`. -/
lemma leaf_withPipe (hk : k + 1 < n) (e : ExecCmd) :
    Leaf n k e ((((withPipe k f rd wr).set rd none).dup2 (some wr) stdoutFileno).set wr none) := by
  have hrd := hp.rdNew
  have hwr := hp.wrNew
  have hne := hp.distinct
  have hstd : stdoutFileno < stderrFileno := by decide
  have hstd0 : stdinFileno < stdoutFileno := by decide
  have hval : ∀ fd, ((((withPipe k f rd wr).set rd none).dup2 (some wr) stdoutFileno).set wr none) fd
      = if fd = wr then none else if fd = stdoutFileno then some (writeEnd k)
        else if fd = rd then none else f fd := by
    intro fd
    rw [dup2_wr hp]
    simp only [withPipe, Fds.set_apply]
    grind
  constructor
  · constructor
    · intro hpos _
      rw [hval, if_neg (by omega), if_neg (by omega), if_neg (by omega)]
      exact h.stdin hpos
    · intro _ _
      rw [hval, if_neg (by omega), if_pos rfl]
    · intro fd m w hfd
      rw [hval] at hfd
      split at hfd
      · cases hfd
      split at hfd
      · rename_i hout
        exact .inr ⟨hout, hk, (Option.some.inj hfd).symm⟩
      split at hfd
      · cases hfd
      exact .inl (h.only fd m w hfd)
  · intro fd hfd
    rw [hval, if_neg (by omega)]
    split
    · simp
    · rw [if_neg (by omega)]
      exact h.std fd hfd

/-- The descriptors of the next shell. -/
lemma entry_withPipe :
    Entry (k + 1) ((((withPipe k f rd wr).set wr none).dup2 (some rd) stdinFileno).set rd none) := by
  have hrd := hp.rdNew
  have hwr := hp.wrNew
  have hne := hp.distinct
  have hstd : stdinFileno < stderrFileno := by decide
  have hval : ∀ fd, ((((withPipe k f rd wr).set wr none).dup2 (some rd) stdinFileno).set rd none) fd
      = if fd = rd then none else if fd = stdinFileno then some (readEnd k)
        else if fd = wr then none else f fd := by
    intro fd
    rw [dup2_rd hp]
    simp only [withPipe, Fds.set_apply]
    grind
  constructor
  · intro _
    rw [hval, if_neg (by omega), if_pos rfl]
    rfl
  · intro fd m w hfd
    rw [hval] at hfd
    split at hfd
    · cases hfd
    split at hfd
    · rename_i hin
      exact ⟨hin, Nat.succ_pos _, (Option.some.inj hfd).symm⟩
    split at hfd
    · cases hfd
    · rename_i hin _
      exact absurd (h.only fd m w hfd).1 hin
  · intro fd hfd
    rw [hval, if_neg (by omega)]
    split
    · simp
    · rw [if_neg (by omega)]
      exact h.std fd hfd

end Pipe

/-- A point of a shell that holds no end to write to. -/
lemma point_of_noWrites (hw : ∀ fd m, f fd ≠ some (.pipeEnd m true))
    (hexec : ∀ e b q', q ≠ .execvp e b q')
    (hexit : ∀ code, q = .exit code → .left ∈ rs ∧ .right ∈ rs)
    (hfork : ∀ c k, q = .fork c k → ¬ (k .parent).Forks c) : Point cs pid q f rs :=
  ⟨fun fd m hfd => absurd hfd (hw fd m), fun e b q' hq => absurd hq (hexec e b q'),
    fun code _ hq _ _ => hexit code hq, hfork⟩

/-- A point of a process with the end of the pipe of shell `k`. -/
lemma point_of_writes (hk : k + 1 < cs.length)
    (hw : ∀ fd m, f fd = some (.pipeEnd m true) → m = shellPid k)
    (hpid : pid = commandPid cs.length k ∨ (pid = shellPid k ∧ waits q = false) ∨
      (pid = shellPid (k + 1) ∧ reached q = false ∧ (k + 2 < cs.length → q.Forks .left)))
    (hexec : ∀ e b q', q ≠ .execvp e b q') (hexit : ∀ code, q ≠ .exit code)
    (hfork : ∀ c k, q = .fork c k → ¬ (k .parent).Forks c) : Point cs pid q f rs :=
  ⟨fun fd m hfd => ⟨k, hk, hw fd m hfd, hpid⟩, fun e b q' hq => absurd hq (hexec e b q'),
    fun code _ hq _ _ => absurd hq (hexit code), hfork⟩

lemma noNull_of_leaves {c : Cmd} (h : leaves c = some cs) : c.noNull = true := by
  have hleaf : ∀ {c : Cmd} {e : ExecCmd}, c.execCmd? = some e → c.noNull = true := by
    intro c e he
    unfold Cmd.execCmd? at he
    split at he
    · rfl
    · rfl
    · cases he
  induction c generalizing cs with
  | null => cases h
  | exec e => rfl
  | back c _ =>
    rw [leaves] at h
    split at h
    · rename_i he
      exact hleaf he
    · cases h
    · intro _ _ heq
      cases heq
  | pipe l r _ ihr =>
    rw [leaves] at h
    split at h
    · rename_i he
      obtain ⟨ds, hds, -⟩ := Option.map_eq_some_iff.mp h
      rw [Cmd.noNull, hleaf he, ihr hds]
      rfl
    · cases h

lemma length_leaf {c : Cmd}
    (h : (match c.execCmd? with | some _ => some [c] | none => none) = some cs) : cs.length = 1 := by
  split at h
  · cases h
    rfl
  · cases h

/-- A tree with two leaves forks. -/
lemma forks_left {c : Cmd} (h : leaves c = some cs) (hlen : 2 ≤ cs.length) :
    (execCmd c).Forks .left := by
  cases c with
  | null => cases h
  | exec e =>
    have hone := length_leaf (c := .exec e) h
    omega
  | back c =>
    rw [leaves] at h
    · have hone := length_leaf (c := .back c) h
      omega
    · intro _ _ heq
      cases heq
  | pipe l r => exact ⟨some (0, 0), .inl rfl⟩

/-- The last command is run by the last shell itself. -/
lemma safe_last {c : Cmd} (hc : leaves c = some (cs.drop k)) (he : c.execCmd? = some e)
    (hk : k < cs.length) (h : Entry k f) :
    Safe Clean (Point cs) (execCmd c) (shellPid k) f [] := by
  have hdrop : cs.drop k = [c] := by
    cases c with
    | null => cases hc
    | exec e => exact (Option.some.inj hc).symm
    | back c =>
      rw [leaves, he] at hc
      · exact (Option.some.inj hc).symm
      · intro _ _ heq
        cases heq
    | pipe l r => cases he
  have hlast : ¬ k + 1 < cs.length := by
    have hlen := congrArg List.length hdrop
    rw [List.length_drop, List.length_singleton] at hlen
    omega
  have hcmd : cs[k]? = some c := by
    rw [← List.head?_drop, hdrop]
    rfl
  have hpid : commandPid cs.length k = shellPid k := if_neg hlast
  rw [← hpid]
  exact safe_leaf hk hcmd he (h.leaf hlast e) []

/-- What a shell does from the first system call on. -/
lemma safe_execCmd {c : Cmd} (hc : leaves c = some (cs.drop k)) (hk : k < cs.length)
    (h : Entry k f) : Safe Clean (Point cs) (execCmd c) (shellPid k) f [] := by
  induction c generalizing k f with
  | null => cases hc
  | exec e => exact safe_last hc rfl hk h
  | back c _ =>
    have hback := hc
    rw [leaves] at hc
    · split at hc
      · rename_i e he
        exact safe_last hback he hk h
      · cases hc
    · intro _ _ heq
      cases heq
  | pipe l r _ ihr =>
    have hnull := noNull_of_leaves hc
    have hnullL : l.noNull = true := by
      rw [Cmd.noNull, Bool.and_eq_true] at hnull
      exact hnull.1
    rw [leaves] at hc
    split at hc
    swap
    · cases hc
    rename_i e he
    obtain ⟨ds, hds, hcons⟩ := Option.map_eq_some_iff.mp hc
    have hr : leaves r = some (cs.drop (k + 1)) := by
      rw [hds, ← List.tail_drop, ← hcons]
      rfl
    have hcmd : cs[k]? = some l := by
      rw [← List.head?_drop, ← hcons]
      rfl
    have hk' : k + 1 < cs.length := by
      by_contra hge
      rw [List.drop_eq_nil_of_le (by omega)] at hr
      exact leaves_ne_nil r hr
    have hleft : commandPid cs.length k = shellPid k ++ [.left] := if_pos hk'
    -- the shell before the pipe and after it has closed its ends
    have hnone : ∀ fd m, f fd ≠ some (.pipeEnd m true) := by
      intro fd m hfd
      cases (h.only _ _ _ hfd).2.2
    have hfree : ∀ q, freeCommand (.pipe l r) q = q := fun q => if_pos hnull
    have hfreeL : ∀ q, freeCommand l q = q := fun q => if_pos hnullL
    unfold execCmd runPipes
    simp only [hfree, hfreeL]
    refine ⟨point_of_noWrites hnone (by simp) (by simp) (by simp), fun hok => hok.elim, ?_⟩
    intro rd wr hrd hwr
    have hp := h.newPipe hrd hwr
    have hwrites : ∀ fd m, withPipe k f rd wr fd = some (.pipeEnd m true) → m = shellPid k :=
      fun fd m hfd => (writes_withPipe h hp hfd).2
    have hwritesRd : ∀ fd m, (withPipe k f rd wr).set rd none fd = some (.pipeEnd m true) →
        m = shellPid k := by
      intro fd m hfd
      rw [Fds.set_apply] at hfd
      split at hfd
      · cases hfd
      · exact hwrites fd m hfd
    have hclosed : ∀ fd m, (withPipe k f rd wr).set wr none fd ≠ some (.pipeEnd m true) := by
      intro fd m hfd
      rw [Fds.set_apply] at hfd
      split at hfd
      · cases hfd
      · rename_i hne
        exact hne (writes_withPipe h hp hfd).1
    refine ⟨?_, fun hok => hok.elim, ?_, ?_⟩
    · exact point_of_writes hk' hwrites (.inr (.inl ⟨rfl, rfl⟩)) (by simp) (by simp)
        (by simp [Prog.Forks])
    · refine ⟨?_, fun hok => hok.elim, ?_, ?_⟩
      · exact point_of_writes hk' hwrites (.inr (.inl ⟨rfl, rfl⟩)) (by simp) (by simp)
          (by simp [Prog.Forks])
      · have hboth : ∀ fd m, ((withPipe k f rd wr).set rd none).set wr none fd ≠
            some (.pipeEnd m true) := by
          intro fd m hfd
          rw [Fds.set_apply] at hfd
          split at hfd
          · cases hfd
          · rename_i hne
            rw [Fds.set_apply] at hfd
            split at hfd
            · cases hfd
            · exact hne (writes_withPipe h hp hfd).1
        refine ⟨?_, ?_, ?_, ?_, ?_⟩
        · exact point_of_writes hk' hwrites (.inr (.inl ⟨rfl, rfl⟩)) (by simp) (by simp) (by simp)
        · exact point_of_writes hk' hwritesRd (.inr (.inl ⟨rfl, rfl⟩)) (by simp) (by simp)
            (by simp)
        · exact point_of_noWrites hboth (by simp) (by simp) (by simp)
        · exact point_of_noWrites hboth (by simp) (by simp) (by simp)
        · exact point_of_noWrites hboth (by simp) (by simp) (by simp)
      · rw [shellPid_succ]
        have hforks : k + 2 < cs.length → (execCmd r).Forks .left := by
          intro hlt
          apply forks_left hr
          rw [List.length_drop]
          omega
        refine ⟨?_, ?_, ?_, ?_⟩
        · exact point_of_writes hk' hwrites (.inr (.inr ⟨rfl, rfl, hforks⟩)) (by simp) (by simp)
            (by simp)
        · exact point_of_noWrites hclosed (by simp) (by simp) (by simp)
        · have hcopied : ∀ fd m, ((withPipe k f rd wr).set wr none).dup2 (some rd) stdinFileno fd ≠
              some (.pipeEnd m true) := by
            intro fd m hfd
            rw [dup2_rd hp, Fds.set_apply] at hfd
            split at hfd
            · cases hfd
            · exact hclosed fd m hfd
          exact point_of_noWrites hcopied (by simp) (by simp) (by simp)
        · exact ihr hr hk' (entry_withPipe h hp)
    · rw [← hleft]
      refine ⟨?_, ?_, ?_, ?_⟩
      · exact point_of_writes hk' hwrites (.inl rfl) (by simp) (by simp) (by simp)
      · exact point_of_writes hk' hwritesRd (.inl rfl) (by simp) (by simp) (by simp)
      · have hcopied : ∀ fd m, ((withPipe k f rd wr).set rd none).dup2 (some wr) stdoutFileno fd =
            some (.pipeEnd m true) → m = shellPid k := by
          intro fd m hfd
          rw [dup2_wr hp, Fds.set_apply] at hfd
          split at hfd
          · cases hfd
            rfl
          · exact hwritesRd fd m hfd
        exact point_of_writes hk' hcopied (.inl rfl) (by simp) (by simp) (by simp)
      · exact safe_leaf hk hcmd he (leaf_withPipe h hp hk' e) []

/-! ### Results -/

variable {s : Procs ExecCmd Side}
  {h : List (Move (Procs ExecCmd Side) (List Side × Event ExecCmd Side))} {c : Cmd}

lemma entry_inherited {f : ℕ → Option ℕ} (hf : ∀ fd ≤ stderrFileno, f fd ≠ none) :
    Entry 0 (inherited f) := by
  constructor
  · intro hpos
    omega
  · intro fd m w hfd
    unfold inherited at hfd
    obtain ⟨x, -, hx⟩ := Option.map_eq_some_iff.mp hfd
    cases hx
  · intro fd hfd hnone
    exact hf fd hfd (Option.map_eq_none_iff.mp hnone)

/-- Every state of a run of a pipeline whose pipes and forks do not fail: each command starts with
the ends of its two pipes and no others, when all have started only command `k` and a shell that
does not wait yet can write to pipe `k`, and each shell ends after its children. -/
theorem pipelineOk_of_run {f : ℕ → Option ℕ} (hc : leaves c = some cs) (hlen : 2 ≤ cs.length)
    (hf : ∀ fd ≤ stderrFileno, f fd ≠ none) (hr : Run (Begins (execCmd c) (inherited f)) Step h s)
    (hclean : ∀ m ∈ h, Clean m.label.2) : PipelineOk cs s := by
  have hsafe : Safe Clean (Point cs) (execCmd c) [] (inherited f) [] :=
    safe_execCmd (k := 0) hc (by omega) (entry_inherited hf)
  have hmeets := hsafe.run hr hclean
  have hfamily := hsafe.family hr hclean (fun pid c k f r hq => hq.forks c k rfl)
  constructor
  · intro k p e hk hp hat
    have hpoint : ∃ q r, Point cs (commandPid cs.length k) (.execvp e q r) p.fds p.reaped := by
      have hm := hmeets _ _ hp
      obtain ⟨status, fds, reaped⟩ := p
      rcases hat with heq | ⟨b, q, heq⟩
      · cases heq
        obtain ⟨q, hq⟩ := hm
        exact ⟨_, _, hq⟩
      · cases heq
        exact ⟨_, _, hm.here⟩
    obtain ⟨q, r, hpoint⟩ := hpoint
    obtain ⟨j, hj, hpid, hcmd, hexec⟩ := hpoint.execs e q r rfl
    obtain rfl := commandPid_inj hk hj hpid
    exact ⟨hcmd, hexec⟩
  · intro hall k pid p fd hp hfd
    have hm := hmeets _ _ hp
    have hnext : k + 1 < cs.length → pid = shellPid (k + 1) → ∀ q, p.status = .running q →
        reached q = false → (k + 2 < cs.length → q.Forks .left) → False := by
      rintro hk rfl q hq hearly hforks
      obtain ⟨p', hp', hreached⟩ := hall (k + 1) hk
      unfold commandPid at hp'
      split at hp'
      · -- command `k + 1` has a process, which this shell has still to fork
        rename_i hlt
        have hchild : s (shellPid (k + 1) ++ [.left]) ≠ none := by
          rw [hp']
          simp
        exact hfamily.once _ _ _ _ hp hq hchild (hforks hlt)
      · rw [hp] at hp'
        cases hp'
        rw [hreached q hq] at hearly
        cases hearly
    obtain ⟨status, fds, reaped⟩ := p
    cases status with
    | running q =>
      obtain ⟨j, hj, hm', hpid⟩ := hm.here.writes _ _ hfd
      obtain rfl := shellPid_inj.mp hm'
      rcases hpid with hpid | ⟨hpid, hwaits⟩ | ⟨hpid, hearly, hforks⟩
      · exact .inl hpid
      · exact .inr ⟨hpid, q, rfl, hwaits⟩
      · exact (hnext hj hpid q rfl hearly hforks).elim
    | image e =>
      obtain ⟨q, hpoint⟩ := hm
      obtain ⟨j, hj, hm', hpid⟩ := hpoint.writes _ _ hfd
      obtain rfl := shellPid_inj.mp hm'
      rcases hpid with hpid | ⟨hpid, -⟩ | ⟨-, hearly, -⟩
      · exact .inl hpid
      · obtain ⟨i, -, hpid', -⟩ := hpoint.execs _ _ _ rfl
        exact absurd (hpid'.symm.trans hpid) (commandPid_ne_shellPid hj)
      · cases hearly
    | exited code =>
      have hnone := congrFun hm.2 fd
      cases hfd.symm.trans hnone
    | ended =>
      have hnone := congrFun hm fd
      cases hfd.symm.trans hnone
    | killed =>
      have hnone := congrFun hm.2 fd
      cases hfd.symm.trans hnone
  · intro k p code hk hp hexited
    have hm := hmeets _ _ hp
    have hover := reaped_over hr _ _ hp
    obtain ⟨status, fds, reaped⟩ := p
    cases hexited
    obtain ⟨⟨f, hpoint⟩, -⟩ := hm
    obtain ⟨hl, hr⟩ := hpoint.exits code k rfl hk rfl
    exact ⟨hover _ hl, hover _ hr⟩

lemma reachable_both : ∃ s, Reachable Clean (execCmd (.pipe (cmdOf 'a') (cmdOf 'b'))) (inherited threeOpen) s ∧
    (∀ k < 2, Reached 2 s k) ∧ ∃ p, s (shellPid 0) = some p ∧ p.fds 4 = some (writeEnd 0) := by
  obtain ⟨s, fl, fr, k, hs, hleft, hright, hshell⟩ :=
    reachable_execvp Clean trivial (fun _ => trivial) trivial trivial
  refine ⟨s, hs, fun k hk => ?_, _, hshell, rfl⟩
  have hcases : k = 0 ∨ k = 1 := by omega
  rcases hcases with rfl | rfl
  · refine ⟨_, hleft, ?_⟩
    intro q hq
    cases hq
    rfl
  · refine ⟨_, hright, ?_⟩
    intro q hq
    cases hq
    rfl

/-- `a | b`, with both commands at their `execvp`. -/
theorem pipelineOk_both : ∃ h s,
    Run (Begins (execCmd (.pipe (cmdOf 'a') (cmdOf 'b'))) (inherited threeOpen)) Step h s ∧
    (∀ m ∈ h, Clean m.label.2) ∧ (∀ k < 2, Reached 2 s k) ∧ PipelineOk [cmdOf 'a', cmdOf 'b'] s := by
  obtain ⟨s, ⟨h, hr, hclean⟩, hreached, -⟩ := reachable_both
  exact ⟨h, s, hr, hclean, hreached, pipelineOk_of_run rfl (by decide) (by decide) hr hclean⟩

/-- Both commands of `a | b` have come to `execvp` and the shell still has the end to write to
their pipe. -/
theorem writers_fails : ¬ (∀ (c : Cmd) (cs : List Cmd) (f : ℕ → Option ℕ)
    (h : List (Move (Procs ExecCmd Side) (List Side × Event ExecCmd Side)))
    (s : Procs ExecCmd Side), leaves c = some cs → 2 ≤ cs.length →
    (∀ fd ≤ stderrFileno, f fd ≠ none) → Run (Begins (execCmd c) (inherited f)) Step h s →
    (∀ m ∈ h, Clean m.label.2) → (∀ k < cs.length, Reached cs.length s k) →
    ∀ k pid p fd, s pid = some p → p.fds fd = some (writeEnd k) →
      pid = commandPid cs.length k) := by
  intro hall
  obtain ⟨s, ⟨h, hr, hclean⟩, hreached, p, hp, hfd⟩ := reachable_both
  have hpid := hall _ [cmdOf 'a', cmdOf 'b'] threeOpen h s rfl (by decide) (by decide) hr hclean hreached 0 _ p 4
    hp hfd
  cases hpid

end SistemasOperativos.Shell
