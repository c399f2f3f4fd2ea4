import Mathlib.Data.Int.Notation
import Mathlib.Logic.Function.Basic
import SistemasOperativos.Library.Runs

/-!
# Processes

Programs that make system calls, the processes that run them in any order, and preconditions for
them. A process is named by the forks that lead to it from the first one, so that the child `c`
of the process `pid` is `pid ++ [c]`.
-/

namespace SistemasOperativos.Library

/-- What a call of `fork` returns. -/
inductive Forked
  | failed
  | child
  | parent
  deriving DecidableEq

/-- What a process does from here on, one system call after another. `ε` is what `execvp` may
start, and `κ` are the names of children. A call that returns a value is followed by a function of
it, with `none` for an error. -/
inductive Prog (ε κ : Type)
  /-- returns to the caller -/
  | done
  /-- uses a null pointer -/
  | fault
  | exit (code : ℤ)
  /-- `named`: the file name is not a null pointer -/
  | execvp (image : ε) (named : Bool) (failed : Prog ε κ)
  | openFile (name : List Char) (write : Bool) (rest : Option ℕ → Prog ε κ)
  | pipe (rest : Option (ℕ × ℕ) → Prog ε κ)
  | fork (child : κ) (rest : Forked → Prog ε κ)
  | dup2 (old : Option ℕ) (new : ℕ) (rest : Prog ε κ)
  | close (fd : ℕ) (rest : Prog ε κ)
  | waitpid (child : κ) (rest : Prog ε κ)

/-- An open file. A process makes one pipe at most, which has its name. -/
inductive File (κ : Type)
  | other (n : ℕ)
  | named (name : List Char) (write : Bool)
  | pipeEnd (maker : List κ) (write : Bool)
  deriving DecidableEq

abbrev Fds (κ : Type) := ℕ → Option (File κ)

variable {ε κ : Type}

namespace Fds

/-- The descriptor the next file gets. -/
def Lowest (f : Fds κ) (fd : ℕ) : Prop := f fd = none ∧ ∀ d < fd, f d ≠ none

def set (f : Fds κ) (fd : ℕ) (x : Option (File κ)) : Fds κ := Function.update f fd x

/-- `dup2`, which does nothing when the old descriptor is not open. -/
def dup2 (f : Fds κ) (old : Option ℕ) (new : ℕ) : Fds κ :=
  match old.bind f with
  | none => f
  | some x => f.set new (some x)

lemma set_apply (f : Fds κ) (fd d : ℕ) (x : Option (File κ)) :
    f.set fd x d = if d = fd then x else f d := Function.update_apply f fd x d

lemma dup2_of_some {f : Fds κ} {fd : ℕ} {x : File κ} (h : f fd = some x) (new : ℕ) :
    f.dup2 (some fd) new = f.set new (some x) := by
  unfold dup2
  rw [Option.bind_some, h]

end Fds

inductive Status (ε κ : Type)
  | running (p : Prog ε κ)
  /-- replaced by `execvp` -/
  | image (e : ε)
  | exited (code : ℤ)
  /-- the image has ended -/
  | ended
  | killed

structure Process (ε κ : Type) where
  status : Status ε κ
  fds : Fds κ
  /-- the children that `waitpid` has returned for -/
  reaped : List κ

/-- What happens in a step of a process. -/
inductive Event (ε κ : Type)
  | exited
  | faulted
  | replaced (e : ε)
  | execFailed (e : ε)
  | openFailed
  | opened (fd : ℕ)
  | pipeFailed
  | piped (rd wr : ℕ)
  | forkFailed
  | forked (c : κ)
  | copied
  | closed
  | reaped (c : κ)
  | ended

/-- The steps of a process, apart from what they do to or need of others. -/
inductive Acts (pid : List κ) : Process ε κ → Event ε κ → Process ε κ → Prop
  | exit {code f r} : Acts pid ⟨.running (.exit code), f, r⟩ .exited ⟨.exited code, fun _ => none, r⟩
  | fault {f r} : Acts pid ⟨.running .fault, f, r⟩ .faulted ⟨.killed, fun _ => none, r⟩
  | nullName {e k f r} :
      Acts pid ⟨.running (.execvp e false k), f, r⟩ .faulted ⟨.killed, fun _ => none, r⟩
  | execvp {e k f r} :
      Acts pid ⟨.running (.execvp e true k), f, r⟩ (.replaced e) ⟨.image e, f, r⟩
  | execFailed {e b k f r} :
      Acts pid ⟨.running (.execvp e b k), f, r⟩ (.execFailed e) ⟨.running k, f, r⟩
  | openFailed {n w k f r} :
      Acts pid ⟨.running (.openFile n w k), f, r⟩ .openFailed ⟨.running (k none), f, r⟩
  | opened {n w k f r fd} (hfd : f.Lowest fd) : Acts pid ⟨.running (.openFile n w k), f, r⟩
      (.opened fd) ⟨.running (k (some fd)), f.set fd (some (.named n w)), r⟩
  | pipeFailed {k f r} : Acts pid ⟨.running (.pipe k), f, r⟩ .pipeFailed ⟨.running (k none), f, r⟩
  | piped {k f r rd wr} (hrd : f.Lowest rd)
      (hwr : (f.set rd (some (.pipeEnd pid false))).Lowest wr) :
      Acts pid ⟨.running (.pipe k), f, r⟩ (.piped rd wr) ⟨.running (k (some (rd, wr))),
        (f.set rd (some (.pipeEnd pid false))).set wr (some (.pipeEnd pid true)), r⟩
  | forkFailed {c k f r} :
      Acts pid ⟨.running (.fork c k), f, r⟩ .forkFailed ⟨.running (k .failed), f, r⟩
  | forked {c k f r} :
      Acts pid ⟨.running (.fork c k), f, r⟩ (.forked c) ⟨.running (k .parent), f, r⟩
  | dup2 {old new k f r} :
      Acts pid ⟨.running (.dup2 old new k), f, r⟩ .copied ⟨.running k, f.dup2 old new, r⟩
  | close {fd k f r} : Acts pid ⟨.running (.close fd k), f, r⟩ .closed ⟨.running k, f.set fd none, r⟩
  | waitpid {c k f r} :
      Acts pid ⟨.running (.waitpid c k), f, r⟩ (.reaped c) ⟨.running k, f, c :: r⟩
  | ended {e f r} : Acts pid ⟨.image e, f, r⟩ .ended ⟨.ended, fun _ => none, r⟩

/-- The processes by name. -/
abbrev Procs (ε κ : Type) := List κ → Option (Process ε κ)

def Status.over : Status ε κ → Bool
  | .exited _ => true
  | .ended => true
  | .killed => true
  | _ => false

def Over (s : Procs ε κ) (pid : List κ) : Prop := ∃ p, s pid = some p ∧ p.status.over = true

variable [DecidableEq κ]

/-- One process takes a step. A child starts with the descriptors of its parent, and `waitpid`
waits until the child is over. -/
inductive Step (s : Procs ε κ) : List κ × Event ε κ → Procs ε κ → Prop
  | act {pid p ev p'} (hp : s pid = some p) (ha : Acts pid p ev p') (hfork : ∀ c, ev ≠ .forked c)
      (hwait : ∀ c, ev = .reaped c → Over s (pid ++ [c])) :
      Step s (pid, ev) (Function.update s pid (some p'))
  | fork {pid c k f r} (hp : s pid = some ⟨.running (.fork c k), f, r⟩)
      (hnew : s (pid ++ [c]) = none) :
      Step s (pid, .forked c) (Function.update
        (Function.update s pid (some ⟨.running (k .parent), f, r⟩)) (pid ++ [c])
        (some ⟨.running (k .child), f, []⟩))

/-- One process, before its first system call. -/
def Begins (q : Prog ε κ) (f : Fds κ) (s : Procs ε κ) : Prop :=
  s = Function.update (fun _ => none) [] (some ⟨.running q, f, []⟩)

/-! ### Preconditions -/

/-- `Q` holds at every point that the process or a descendant comes to from here, if what happens
on the way meets `Ok`. -/
def Safe (Ok : Event ε κ → Prop) (Q : List κ → Prog ε κ → Fds κ → List κ → Prop) :
    Prog ε κ → List κ → Fds κ → List κ → Prop
  | .done, pid, f, r => Q pid .done f r
  | .fault, pid, f, r => Q pid .fault f r
  | .exit code, pid, f, r => Q pid (.exit code) f r
  | .execvp e b k, pid, f, r =>
    Q pid (.execvp e b k) f r ∧ (Ok (.execFailed e) → Safe Ok Q k pid f r)
  | .openFile n w k, pid, f, r =>
    Q pid (.openFile n w k) f r ∧ (Ok .openFailed → Safe Ok Q (k none) pid f r) ∧
      ∀ fd, f.Lowest fd → Safe Ok Q (k (some fd)) pid (f.set fd (some (.named n w))) r
  | .pipe k, pid, f, r =>
    Q pid (.pipe k) f r ∧ (Ok .pipeFailed → Safe Ok Q (k none) pid f r) ∧
      ∀ rd wr, f.Lowest rd → (f.set rd (some (.pipeEnd pid false))).Lowest wr →
        Safe Ok Q (k (some (rd, wr))) pid
          ((f.set rd (some (.pipeEnd pid false))).set wr (some (.pipeEnd pid true))) r
  | .fork c k, pid, f, r =>
    Q pid (.fork c k) f r ∧ (Ok .forkFailed → Safe Ok Q (k .failed) pid f r) ∧
      Safe Ok Q (k .parent) pid f r ∧ Safe Ok Q (k .child) (pid ++ [c]) f []
  | .dup2 old new k, pid, f, r =>
    Q pid (.dup2 old new k) f r ∧ Safe Ok Q k pid (f.dup2 old new) r
  | .close fd k, pid, f, r => Q pid (.close fd k) f r ∧ Safe Ok Q k pid (f.set fd none) r
  | .waitpid c k, pid, f, r => Q pid (.waitpid c k) f r ∧ Safe Ok Q k pid f (c :: r)

variable {Ok : Event ε κ → Prop} {Q : List κ → Prog ε κ → Fds κ → List κ → Prop}
  {pid : List κ} {p p' : Process ε κ} {ev : Event ε κ} {q : Prog ε κ} {f : Fds κ} {r : List κ}
  {s t : Procs ε κ} {h : List (Move (Procs ε κ) (List κ × Event ε κ))}

omit [DecidableEq κ] in
lemma Safe.here (h : Safe Ok Q q pid f r) : Q pid q f r := by
  cases q with
  | done => exact h
  | fault => exact h
  | exit code => exact h
  | execvp e b k => exact h.1
  | openFile n w k => exact h.1
  | pipe k => exact h.1
  | fork c k => exact h.1
  | dup2 old new k => exact h.1
  | close fd k => exact h.1
  | waitpid c k => exact h.1

/-- What is known of a process of a run: its point satisfies `Q`, or the last one before it was
replaced or ended did. -/
def Process.Meets (Ok : Event ε κ → Prop) (Q : List κ → Prog ε κ → Fds κ → List κ → Prop)
    (pid : List κ) (p : Process ε κ) : Prop :=
  match p.status with
  | .running q => Safe Ok Q q pid p.fds p.reaped
  | .image e => ∃ k, Q pid (.execvp e true k) p.fds p.reaped
  | .exited code => (∃ f, Q pid (.exit code) f p.reaped) ∧ p.fds = fun _ => none
  | .killed => ((∃ f, Q pid .fault f p.reaped) ∨ ∃ e k f, Q pid (.execvp e false k) f p.reaped) ∧
      p.fds = fun _ => none
  | .ended => p.fds = fun _ => none

omit [DecidableEq κ] in
lemma Acts.meets (ha : Acts pid p ev p') (hok : Ok ev) (h : p.Meets Ok Q pid) :
    p'.Meets Ok Q pid := by
  cases ha with
  | exit => exact ⟨⟨_, h.here⟩, rfl⟩
  | fault => exact ⟨.inl ⟨_, h.here⟩, rfl⟩
  | nullName => exact ⟨.inr ⟨_, _, _, h.here⟩, rfl⟩
  | execvp => exact ⟨_, h.here⟩
  | execFailed => exact h.2 hok
  | openFailed => exact h.2.1 hok
  | opened hfd => exact h.2.2 _ hfd
  | pipeFailed => exact h.2.1 hok
  | piped hrd hwr => exact h.2.2 _ _ hrd hwr
  | forkFailed => exact h.2.1 hok
  | forked => exact h.2.2.1
  | dup2 => exact h.2
  | close => exact h.2
  | waitpid => exact h.2
  | ended => rfl

lemma Step.meets {l : List κ × Event ε κ} (hst : Step s l t) (hok : Ok l.2)
    (h : ∀ pid p, s pid = some p → p.Meets Ok Q pid) :
    ∀ pid p, t pid = some p → p.Meets Ok Q pid := by
  intro pid p hp
  cases hst with
  | @act pid' p' ev p'' hp' ha hfork hwait =>
    by_cases heq : pid = pid'
    · subst heq
      rw [Function.update_self] at hp
      cases hp
      exact ha.meets hok (h _ _ hp')
    · rw [Function.update_of_ne heq] at hp
      exact h _ _ hp
  | @fork pid' c k f r hp' hnew =>
    have hsafe := h _ _ hp'
    by_cases hchild : pid = pid' ++ [c]
    · subst hchild
      rw [Function.update_self] at hp
      cases hp
      exact hsafe.2.2.2
    · rw [Function.update_of_ne hchild] at hp
      by_cases heq : pid = pid'
      · subst heq
        rw [Function.update_self] at hp
        cases hp
        exact hsafe.2.2.1
      · rw [Function.update_of_ne heq] at hp
        exact h _ _ hp

/-- The rule for runs: what is safe at first meets its precondition in every state. -/
theorem Safe.run (hsafe : Safe Ok Q q [] f []) (hr : Run (Begins q f) Step h s)
    (hok : ∀ m ∈ h, Ok m.label.2) : ∀ pid p, s pid = some p → p.Meets Ok Q pid := by
  apply Run.induct (G := fun _ l => Ok l.2) hr hok
    (fun _ s => ∀ pid p, s pid = some p → p.Meets Ok Q pid)
  · intro s hs pid p hp
    rw [hs] at hp
    by_cases heq : pid = []
    · subst heq
      rw [Function.update_self] at hp
      cases hp
      exact hsafe
    · rw [Function.update_of_ne heq] at hp
      cases hp
  · intro h s l t ih hok hst
    exact hst.meets hok ih

/-! ### Children -/

/-- A process that cannot act stays as it is. -/
lemma Step.stuck {l : List κ × Event ε κ} (hst : Step s l t) (h : s pid = some p)
    (hstuck : ∀ ev p', ¬ Acts pid p ev p') : t pid = some p := by
  cases hst with
  | @act pid' p' ev p'' hp' ha hfork hwait =>
    by_cases heq : pid = pid'
    · subst heq
      rw [h] at hp'
      cases hp'
      exact absurd ha (hstuck _ _)
    · rw [Function.update_of_ne heq]
      exact h
  | @fork pid' c k f r hp' hnew =>
    have hne : pid ≠ pid' ++ [c] := by
      rintro rfl
      rw [hnew] at h
      cases h
    have hne' : pid ≠ pid' := by
      rintro rfl
      rw [h] at hp'
      cases hp'
      exact hstuck _ _ .forked
    rw [Function.update_of_ne hne, Function.update_of_ne hne']
    exact h

lemma Step.over {l : List κ × Event ε κ} (hst : Step s l t) (h : s pid = some p)
    (hover : p.status.over = true) : t pid = some p := by
  apply hst.stuck h
  intro ev p' ha
  cases ha <;> cases hover

omit [DecidableEq κ] in
lemma Acts.reaped (ha : Acts pid p ev p') :
    p'.reaped = p.reaped ∨ ∃ c, ev = .reaped c ∧ p'.reaped = c :: p.reaped := by
  cases ha with
  | waitpid => exact .inr ⟨_, rfl, rfl⟩
  | _ => exact .inl rfl

/-- `waitpid` has returned only for children that are over. -/
theorem reaped_over (hr : Run (Begins q f) Step h s) : ∀ pid p, s pid = some p →
    ∀ c ∈ p.reaped, Over s (pid ++ [c]) := by
  apply Run.induct (G := fun _ _ => True) hr (fun _ _ => trivial)
    (fun _ s => ∀ pid p, s pid = some p → ∀ c ∈ p.reaped, Over s (pid ++ [c]))
  · intro s hs pid p hp
    rw [hs] at hp
    by_cases heq : pid = []
    · subst heq
      rw [Function.update_self] at hp
      cases hp
      intro c hc
      cases hc
    · rw [Function.update_of_ne heq] at hp
      cases hp
  · intro h s l t ih _ hst pid p hp c hc
    have hstay : Over s (pid ++ [c]) → Over t (pid ++ [c]) := by
      rintro ⟨p, hp, hover⟩
      exact ⟨p, hst.over hp hover, hover⟩
    apply hstay
    cases hst with
    | @act pid' p' ev p'' hp' ha hfork hwait =>
      by_cases heq : pid = pid'
      · subst heq
        rw [Function.update_self] at hp
        cases hp
        rcases ha.reaped with hsame | ⟨c', hev, hcons⟩
        · rw [hsame] at hc
          exact ih _ _ hp' c hc
        · rw [hcons] at hc
          rcases List.mem_cons.mp hc with rfl | hc
          · exact hwait _ hev
          · exact ih _ _ hp' c hc
      · rw [Function.update_of_ne heq] at hp
        exact ih _ _ hp c hc
    | @fork pid' c' k f r hp' hnew =>
      by_cases hchild : pid = pid' ++ [c']
      · subst hchild
        rw [Function.update_self] at hp
        cases hp
        cases hc
      · rw [Function.update_of_ne hchild] at hp
        by_cases heq : pid = pid'
        · subst heq
          rw [Function.update_self] at hp
          cases hp
          exact ih _ _ hp' c hc
        · rw [Function.update_of_ne heq] at hp
          exact ih _ _ hp c hc

/-- The process may still fork the child `c`. -/
def Prog.Forks (c : κ) : Prog ε κ → Prop
  | .done => False
  | .fault => False
  | .exit _ => False
  | .execvp _ _ k => k.Forks c
  | .openFile _ _ k => ∃ x, (k x).Forks c
  | .pipe k => ∃ x, (k x).Forks c
  | .fork c' k => c = c' ∨ (k .failed).Forks c ∨ (k .parent).Forks c
  | .dup2 _ _ k => k.Forks c
  | .close _ k => k.Forks c
  | .waitpid _ k => k.Forks c

omit [DecidableEq κ] in
lemma Acts.forks {c : κ} {q' : Prog ε κ} (ha : Acts pid p ev p') (hq' : p'.status = .running q')
    (hc : q'.Forks c) : ∃ q, p.status = .running q ∧ q.Forks c := by
  cases ha with
  | execFailed =>
    cases hq'
    exact ⟨_, rfl, hc⟩
  | openFailed =>
    cases hq'
    exact ⟨_, rfl, _, hc⟩
  | opened =>
    cases hq'
    exact ⟨_, rfl, _, hc⟩
  | pipeFailed =>
    cases hq'
    exact ⟨_, rfl, _, hc⟩
  | piped =>
    cases hq'
    exact ⟨_, rfl, _, hc⟩
  | forkFailed =>
    cases hq'
    exact ⟨_, rfl, .inr (.inl hc)⟩
  | forked =>
    cases hq'
    exact ⟨_, rfl, .inr (.inr hc)⟩
  | dup2 =>
    cases hq'
    exact ⟨_, rfl, hc⟩
  | close =>
    cases hq'
    exact ⟨_, rfl, hc⟩
  | waitpid =>
    cases hq'
    exact ⟨_, rfl, hc⟩
  | exit => cases hq'
  | fault => cases hq'
  | nullName => cases hq'
  | execvp => cases hq'
  | ended => cases hq'

/-- Children have parents, and a child that exists is not forked again. -/
structure Family (s : Procs ε κ) : Prop where
  parent : ∀ pid c, s pid = none → s (pid ++ [c]) = none
  once : ∀ pid c p q, s pid = some p → p.status = .running q → s (pid ++ [c]) ≠ none → ¬ q.Forks c

lemma Step.family {l : List κ × Event ε κ} (hst : Step s l t) (h : Family s)
    (hQ : ∀ pid c k f r, Q pid (.fork c k) f r → ¬ (k .parent).Forks c)
    (hmeets : ∀ pid p, s pid = some p → p.Meets Ok Q pid) : Family t := by
  cases hst with
  | @act pid' p' ev p'' hp' ha hfork hwait =>
    have hnone : ∀ pid, Function.update s pid' (some p'') pid = none ↔ s pid = none := by
      intro pid
      by_cases heq : pid = pid'
      · subst heq
        rw [Function.update_self, hp']
        simp
      · rw [Function.update_of_ne heq]
    constructor
    · intro pid c hpid
      exact (hnone _).mpr (h.parent pid c ((hnone pid).mp hpid))
    · intro pid c p q hp hq hchild hc
      have hchild' : s (pid ++ [c]) ≠ none := fun h => hchild ((hnone _).mpr h)
      by_cases heq : pid = pid'
      · subst heq
        rw [Function.update_self] at hp
        cases hp
        obtain ⟨q', hq', hc'⟩ := ha.forks hq hc
        exact h.once _ c _ _ hp' hq' hchild' hc'
      · rw [Function.update_of_ne heq] at hp
        exact h.once _ c _ _ hp hq hchild' hc
  | @fork pid' c' k f r hp' hnew =>
    have hne : pid' ≠ pid' ++ [c'] := by
      intro heq
      have hlen := congrArg List.length heq
      simp at hlen
    constructor
    · intro pid c hpid
      by_cases hself : pid = pid' ++ [c']
      · rw [hself, Function.update_self] at hpid
        cases hpid
      · rw [Function.update_of_ne hself] at hpid
        by_cases heq : pid = pid'
        · rw [heq, Function.update_self] at hpid
          cases hpid
        · rw [Function.update_of_ne heq] at hpid
          have hchild : pid ++ [c] ≠ pid' ++ [c'] :=
            fun happ => heq (List.append_inj' happ rfl).1
          have hother : pid ++ [c] ≠ pid' := by
            rintro happ
            have hnone := h.parent pid c hpid
            rw [happ, hp'] at hnone
            cases hnone
          rw [Function.update_of_ne hchild, Function.update_of_ne hother]
          exact h.parent pid c hpid
    · intro pid c p q hp hq hchild hc
      by_cases hself : pid = pid' ++ [c']
      · -- the new child has no children yet
        subst hself
        apply hchild
        have hgrand : pid' ++ [c'] ++ [c] ≠ pid' ++ [c'] := by
          intro heq
          have hlen := congrArg List.length heq
          simp at hlen
        have hother : pid' ++ [c'] ++ [c] ≠ pid' := by
          intro heq
          have hlen := congrArg List.length heq
          simp at hlen
        rw [Function.update_of_ne hgrand, Function.update_of_ne hother]
        exact h.parent _ c hnew
      · rw [Function.update_of_ne hself] at hp
        by_cases heq : pid = pid'
        · subst heq
          rw [Function.update_self] at hp
          cases hp
          cases hq
          by_cases hcc : c = c'
          · subst hcc
            exact hQ _ _ _ _ _ (hmeets _ _ hp').here hc
          · have hchild' : s (pid ++ [c]) ≠ none := by
              have hne' : pid ++ [c] ≠ pid ++ [c'] := by
                intro happ
                exact hcc (List.singleton_inj.mp (List.append_inj' happ rfl).2)
              have hself' : pid ++ [c] ≠ pid := by
                intro heq
                have hlen := congrArg List.length heq
                simp at hlen
              rwa [Function.update_of_ne hne', Function.update_of_ne hself'] at hchild
            exact h.once _ c _ _ hp' rfl hchild' (.inr (.inr hc))
        · rw [Function.update_of_ne heq] at hp
          apply h.once _ c _ _ hp hq _ hc
          have hne' : pid ++ [c] ≠ pid' ++ [c'] := fun happ => heq (List.append_inj' happ rfl).1
          rw [Function.update_of_ne hne'] at hchild
          by_cases hself' : pid ++ [c] = pid'
          · rw [hself', hp']
            simp
          · rwa [Function.update_of_ne hself'] at hchild

/-- The rule for families, for programs that fork each child once. -/
theorem Safe.family (hsafe : Safe Ok Q q [] f []) (hr : Run (Begins q f) Step h s)
    (hok : ∀ m ∈ h, Ok m.label.2)
    (hQ : ∀ pid c k f r, Q pid (.fork c k) f r → ¬ (k .parent).Forks c) : Family s := by
  have hall : (∀ pid p, s pid = some p → p.Meets Ok Q pid) ∧ Family s := by
    apply Run.induct (G := fun _ l => Ok l.2) hr hok
      (fun _ s => (∀ pid p, s pid = some p → p.Meets Ok Q pid) ∧ Family s)
    · intro s hs
      refine ⟨hsafe.run (.start hs) (fun m hm => by cases hm), ?_⟩
      have hchild : ∀ pid c, s (pid ++ [c]) = none := by
        intro pid c
        rw [hs, Function.update_of_ne (by simp)]
      exact ⟨fun pid c _ => hchild pid c, fun pid c _ _ _ _ hne => absurd (hchild pid c) hne⟩
    · intro h s l t ih hok hst
      exact ⟨hst.meets hok ih.1, hst.family ih.2 hQ ih.1⟩
  exact hall.2

end SistemasOperativos.Library
