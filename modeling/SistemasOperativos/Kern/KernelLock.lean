import SistemasOperativos.Library.SpinLock

/-!
# The big kernel lock

`kern/spinlock.c` under the processors that take the lock: in `i386_init` and `mp_main`, in `trap`, and
give it back in `env_run` and `sched_halt`. Every access to the lock is a step of its own.
-/

namespace SistemasOperativos.Kern

open Library

inductive CpuStatus
  | unused
  | started
  | halted
  deriving DecidableEq

/-- Who has called `lock_kernel`. -/
inductive Locker
  /-- whoever goes on in the kernel -/
  | kernel
  /-- `trap` on a processor that was halted, which locks again for a trap from user mode -/
  | trap

/-- Who has called `unlock_kernel`. -/
inductive Unlocker
  | envRun
  | schedHalt

/-- Where a processor is. -/
inductive Point
  /-- before `lock_kernel` in `i386_init` or `mp_main` -/
  | boot
  | locking (k : Locker) (pc : LockPc)
  /-- between two calls of `lock_kernel` in `trap` -/
  | relock
  | kernel
  | unlocking (k : Unlocker) (pc : UnlockPc)
  /-- in `env_pop_tf` -/
  | popTf
  | user
  /-- in the loop of `hlt` that ends `sched_halt` -/
  | idle
  /-- at the start of `trap`, from user mode or not -/
  | trap (user : Bool)
  /-- in `trap_dispatch` without the lock -/
  | bare
  /-- in the monitor after a `panic` with the lock -/
  | panicked
  /-- in the monitor after a `panic` of `spin_lock` or `spin_unlock` -/
  | refused
  /-- stopped in `trap` after a `panic` of another processor -/
  | stopped

structure Processor where
  point : Point
  status : CpuStatus

structure Smp (ι σ : Type) where
  locked : Bool
  owner : Option ι
  panicstr : Bool
  cpus : ι → Processor
  /-- what the kernel works on -/
  data : σ

section Smp

variable {ι σ : Type} [DecidableEq ι]

namespace Smp

def goto (m : Smp ι σ) (i : ι) (p : Point) : Smp ι σ :=
  { m with cpus := Function.update m.cpus i { m.cpus i with point := p } }

/-- The processor `i` goes on with a new `cpu_status`. -/
def mark (m : Smp ι σ) (i : ι) (p : Point) (st : CpuStatus) : Smp ι σ :=
  { m with cpus := Function.update m.cpus i ⟨p, st⟩ }

end Smp

/-- What `spin_lock` returns to. -/
def Locker.next : Locker → Point
  | .kernel => .kernel
  | .trap => .relock

/-- What `spin_unlock` returns to. -/
def Unlocker.next : Unlocker → Point
  | .envRun => .popTf
  | .schedHalt => .idle

/-- What `trap` does after the exchange of `cpu_status`. -/
def trapEntry (user : Bool) (st : CpuStatus) : Point :=
  if st = .halted then .locking (if user then .trap else .kernel) .check
  else if user then .locking .kernel .check
  else .bare

/-- A step of the processor `i`. In the kernel it does `work i` to the data. -/
inductive SmpStep (work : ι → σ → σ → Prop) (m : Smp ι σ) (i : ι) : Smp ι σ → Prop
  | main (h : (m.cpus i).point = .boot) : SmpStep work m i (m.mark i (.locking .kernel .check) .started)
  | free {k : Locker} (h : (m.cpus i).point = .locking k .check) (hl : m.locked = false) :
      SmpStep work m i (m.goto i (.locking k .spin))
  | busy {k : Locker} (h : (m.cpus i).point = .locking k .check) (hl : m.locked = true) :
      SmpStep work m i (m.goto i (.locking k .owner))
  | other {k : Locker} (h : (m.cpus i).point = .locking k .owner) (ho : m.owner ≠ some i) :
      SmpStep work m i (m.goto i (.locking k .spin))
  | twice {k : Locker} (h : (m.cpus i).point = .locking k .owner) (ho : m.owner = some i) :
      SmpStep work m i ({ m with panicstr := true }.goto i .refused)
  | wait {k : Locker} (h : (m.cpus i).point = .locking k .spin) (hl : m.locked = true) : SmpStep work m i m
  | take {k : Locker} (h : (m.cpus i).point = .locking k .spin) (hl : m.locked = false) :
      SmpStep work m i ({ m with locked := true }.goto i (.locking k .record))
  | record {k : Locker} (h : (m.cpus i).point = .locking k .record) :
      SmpStep work m i ({ m with owner := some i }.goto i k.next)
  | again (h : (m.cpus i).point = .relock) : SmpStep work m i (m.goto i (.locking .kernel .check))
  | work {d : σ} (h : (m.cpus i).point = .kernel) (hw : work i m.data d) :
      SmpStep work m i { m with data := d }
  | panic (h : (m.cpus i).point = .kernel) :
      SmpStep work m i ({ m with panicstr := true }.goto i .panicked)
  | envRun (h : (m.cpus i).point = .kernel) : SmpStep work m i (m.goto i (.unlocking .envRun .check))
  | schedHalt (h : (m.cpus i).point = .kernel) :
      SmpStep work m i (m.mark i (.unlocking .schedHalt .check) .halted)
  | held {k : Unlocker} (h : (m.cpus i).point = .unlocking k .check) (hl : m.locked = true) :
      SmpStep work m i (m.goto i (.unlocking k .owner))
  | unheld {k : Unlocker} (h : (m.cpus i).point = .unlocking k .check) (hl : m.locked = false) :
      SmpStep work m i ({ m with panicstr := true }.goto i .refused)
  | mine {k : Unlocker} (h : (m.cpus i).point = .unlocking k .owner) (ho : m.owner = some i) :
      SmpStep work m i (m.goto i (.unlocking k .clear))
  | theirs {k : Unlocker} (h : (m.cpus i).point = .unlocking k .owner) (ho : m.owner ≠ some i) :
      SmpStep work m i ({ m with panicstr := true }.goto i .refused)
  | clear {k : Unlocker} (h : (m.cpus i).point = .unlocking k .clear) :
      SmpStep work m i ({ m with owner := none }.goto i (.unlocking k .release))
  | release {k : Unlocker} (h : (m.cpus i).point = .unlocking k .release) :
      SmpStep work m i ({ m with locked := false }.goto i k.next)
  | popTf (h : (m.cpus i).point = .popTf) : SmpStep work m i (m.goto i .user)
  | leaveUser (h : (m.cpus i).point = .user) : SmpStep work m i (m.goto i (.trap true))
  | interrupt (h : (m.cpus i).point = .idle) : SmpStep work m i (m.goto i (.trap false))
  | halt {user : Bool} (h : (m.cpus i).point = .trap user) (hp : m.panicstr = true) :
      SmpStep work m i (m.goto i .stopped)
  | trap {user : Bool} (h : (m.cpus i).point = .trap user) (hp : m.panicstr = false) :
      SmpStep work m i (m.mark i (trapEntry user (m.cpus i).status) .started)

/-- All processors are at their start, and nobody has the lock. -/
def SmpStart (init : σ → Prop) (m : Smp ι σ) : Prop :=
  m.locked = false ∧ m.owner = none ∧ (∀ i, (m.cpus i).point = .boot) ∧ init m.data

/-- The processor runs kernel code with the lock. -/
def Point.InKernel : Point → Prop
  | .relock => True
  | .kernel => True
  | .panicked => True
  | _ => False

/-- The processor takes the lock, has it or gives it back. -/
def Point.phase : Point → Phase
  | .locking _ pc => .locking pc
  | .unlocking _ pc => .unlocking pc
  | .relock => .inside
  | .kernel => .inside
  | .panicked => .inside
  | .refused => .refused
  | _ => .out

/-- The processor as a party of the lock. -/
def Smp.lock (m : Smp ι σ) : SpinLock ι σ where
  locked := m.locked
  owner := m.owner
  phase i := (m.cpus i).point.phase
  data := m.data

/-- What the lock does for the kernel. -/
structure KernelLockOk (init : σ → Prop) (work : ι → σ → σ → Prop) (m : Smp ι σ) : Prop where
  /-- one processor at a time runs kernel code -/
  exclusive : ∀ i j, (m.cpus i).point.InKernel → (m.cpus j).point.InKernel → i = j
  owner : ∀ i, (m.cpus i).point.InKernel → m.locked = true ∧ m.owner = some i
  /-- the lock is not lost -/
  kept : m.locked = true → ∃ i, (m.cpus i).point.phase.Holds
  /-- neither check of the owner stops a processor -/
  accepted : ∀ i, (m.cpus i).point ≠ .refused
  /-- `trap` takes the lock, and takes it once -/
  once : ∀ i, (m.cpus i).point ≠ .relock ∧ (m.cpus i).point ≠ .bare
  /-- the data are those after whole stays in the kernel, and a part of one at most -/
  serial : Serial init work m.lock

/-- The `cpu_status` of a processor says how `trap` is to treat it. -/
def Processor.Fits (p : Processor) : Prop :=
  match p.point with
  | .locking .trap _ => False
  | .relock => False
  | .bare => False
  | .idle => p.status = .halted
  | .unlocking .schedHalt _ => p.status = .halted
  | .trap false => p.status = .halted
  | .locking .kernel _ => p.status ≠ .halted
  | .kernel => p.status ≠ .halted
  | .unlocking .envRun _ => p.status ≠ .halted
  | .popTf => p.status ≠ .halted
  | .user => p.status ≠ .halted
  | .trap true => p.status ≠ .halted
  | _ => True

variable {init : σ → Prop} {work : ι → σ → σ → Prop} {m m' : Smp ι σ} {i j : ι} {p : Point} {st : CpuStatus}

/-! ### Steps -/

lemma lock_goto (m : Smp ι σ) (i : ι) (p : Point) : (m.goto i p).lock = m.lock.goto i p.phase := by
  unfold Smp.lock Smp.goto SpinLock.goto
  congr 1
  funext j
  by_cases hj : j = i
  · subst hj
    simp
  · simp [hj]

lemma lock_mark (m : Smp ι σ) (i : ι) (p : Point) (st : CpuStatus) :
    (m.mark i p st).lock = m.lock.goto i p.phase := by
  unfold Smp.lock Smp.mark SpinLock.goto
  congr 1
  funext j
  by_cases hj : j = i
  · subst hj
    simp
  · simp [hj]

omit [DecidableEq ι] in
lemma phase_of_point (h : (m.cpus i).point = p) : m.lock.phase i = p.phase := by
  change (m.cpus i).point.phase = _
  rw [h]

/-- A processor moves on and stays in its phase. -/
lemma lock_goto_of_phase (h : (m.cpus i).point.phase = p.phase) : (m.goto i p).lock = m.lock := by
  rw [lock_goto]
  unfold SpinLock.goto
  rw [← h]
  exact congrArg (fun f => ({ m.lock with phase := f } : SpinLock ι σ)) (Function.update_eq_self i _)

lemma fits_goto (hm : ∀ j, (m.cpus j).Fits) (hp : Processor.Fits ⟨p, (m.cpus i).status⟩) :
    ∀ j, ((m.goto i p).cpus j).Fits := by
  intro j
  unfold Smp.goto
  by_cases hj : j = i
  · subst hj
    simpa using hp
  · simpa [hj] using hm j

lemma fits_mark (hm : ∀ j, (m.cpus j).Fits) (hp : Processor.Fits ⟨p, st⟩) :
    ∀ j, ((m.mark i p st).cpus j).Fits := by
  intro j
  unfold Smp.mark
  by_cases hj : j = i
  · subst hj
    simpa using hp
  · simpa [hj] using hm j

omit [DecidableEq ι] in
lemma fits_at (hm : ∀ j, (m.cpus j).Fits) (h : (m.cpus i).point = p) :
    Processor.Fits ⟨p, (m.cpus i).status⟩ := by
  rw [← h]
  exact hm i

/-- Where `spin_lock` is does not matter. -/
lemma fits_locking {k : Locker} {pc : LockPc} (h : Processor.Fits ⟨.locking k pc, st⟩) (pc' : LockPc) :
    Processor.Fits ⟨.locking k pc', st⟩ ∧ Processor.Fits ⟨k.next, st⟩ := by
  cases k with
  | kernel => exact ⟨h, h⟩
  | trap => exact h.elim

lemma fits_unlocking {k : Unlocker} {pc : UnlockPc} (h : Processor.Fits ⟨.unlocking k pc, st⟩)
    (pc' : UnlockPc) : Processor.Fits ⟨.unlocking k pc', st⟩ ∧ Processor.Fits ⟨k.next, st⟩ := by
  cases k with
  | envRun => exact ⟨h, h⟩
  | schedHalt => exact ⟨h, h⟩

/-- The status stays as `trap` needs it. -/
lemma SmpStep.fits (hm : ∀ j, (m.cpus j).Fits) (hst : SmpStep work m i m') : ∀ j, (m'.cpus j).Fits := by
  have hat : ∀ {p : Point}, (m.cpus i).point = p → Processor.Fits ⟨p, (m.cpus i).status⟩ := fits_at hm
  cases hst with
  | main h => exact fits_mark hm CpuStatus.noConfusion
  | free h hl => exact fits_goto hm (fits_locking (hat h) _).1
  | busy h hl => exact fits_goto hm (fits_locking (hat h) _).1
  | other h ho => exact fits_goto hm (fits_locking (hat h) _).1
  | twice h ho => exact fits_goto (m := { m with panicstr := true }) hm trivial
  | wait h hl => exact hm
  | take h hl => exact fits_goto (m := { m with locked := true }) hm (fits_locking (hat h) _).1
  | record h => exact fits_goto (m := { m with owner := some i }) hm (fits_locking (hat h) .check).2
  | again h => exact (hat h).elim
  | work h hw => exact hm
  | panic h => exact fits_goto (m := { m with panicstr := true }) hm trivial
  | envRun h =>
    have hfit := hat h
    exact fits_goto hm hfit
  | schedHalt h => exact fits_mark hm rfl
  | held h hl => exact fits_goto hm (fits_unlocking (hat h) _).1
  | unheld h hl => exact fits_goto (m := { m with panicstr := true }) hm trivial
  | mine h ho => exact fits_goto hm (fits_unlocking (hat h) _).1
  | theirs h ho => exact fits_goto (m := { m with panicstr := true }) hm trivial
  | clear h => exact fits_goto (m := { m with owner := none }) hm (fits_unlocking (hat h) _).1
  | release h => exact fits_goto (m := { m with locked := false }) hm (fits_unlocking (hat h) .check).2
  | popTf h =>
    have hfit := hat h
    exact fits_goto hm hfit
  | leaveUser h =>
    have hfit := hat h
    exact fits_goto hm hfit
  | interrupt h =>
    have hfit := hat h
    exact fits_goto hm hfit
  | halt h hp => exact fits_goto hm trivial
  | @trap user h hp =>
    apply fits_mark hm
    have hfit := hat h
    unfold trapEntry
    cases user with
    | true =>
      rw [if_neg (show ¬(m.cpus i).status = .halted from hfit), if_pos rfl]
      exact CpuStatus.noConfusion
    | false =>
      rw [if_pos (show (m.cpus i).status = .halted from hfit)]
      exact CpuStatus.noConfusion

/-- A step of a processor is one of a party of the lock, or none. -/
lemma SmpStep.lock (hm : ∀ j, (m.cpus j).Fits) (hst : SmpStep work m i m') :
    SpinStep work m.lock i m'.lock ∨ m'.lock = m.lock := by
  have hat : ∀ {p : Point}, (m.cpus i).point = p → Processor.Fits ⟨p, (m.cpus i).status⟩ := fits_at hm
  have hphase : ∀ {p : Point}, (m.cpus i).point = p → m.lock.phase i = p.phase := phase_of_point
  cases hst with
  | main h =>
    rw [lock_mark]
    exact .inl (.ask (hphase h))
  | free h hl =>
    rw [lock_goto]
    exact .inl (.free (hphase h) hl)
  | busy h hl =>
    rw [lock_goto]
    exact .inl (.busy (hphase h) hl)
  | other h ho =>
    rw [lock_goto]
    exact .inl (.other (hphase h) ho)
  | twice h ho =>
    rw [lock_goto]
    exact .inl (.twice (hphase h) ho)
  | wait h hl => exact .inl (.wait (hphase h) hl)
  | take h hl =>
    rw [lock_goto]
    exact .inl (.take (hphase h) hl)
  | @record k h =>
    rw [lock_goto]
    cases k with
    | kernel => exact .inl (.record (hphase h))
    | trap => exact (hat h).elim
  | again h => exact (hat h).elim
  | work h hw => exact .inl (.work (hphase h) hw)
  | panic h =>
    exact .inr (lock_goto_of_phase (m := { m with panicstr := true })
      (by change (m.cpus i).point.phase = _; rw [h]; rfl))
  | envRun h =>
    rw [lock_goto]
    exact .inl (.leave (hphase h))
  | schedHalt h =>
    rw [lock_mark]
    exact .inl (.leave (hphase h))
  | held h hl =>
    rw [lock_goto]
    exact .inl (.held (hphase h) hl)
  | unheld h hl =>
    rw [lock_goto]
    exact .inl (.unheld (hphase h) hl)
  | mine h ho =>
    rw [lock_goto]
    exact .inl (.mine (hphase h) ho)
  | theirs h ho =>
    rw [lock_goto]
    exact .inl (.theirs (hphase h) ho)
  | clear h =>
    rw [lock_goto]
    exact .inl (.clear (hphase h))
  | @release k h =>
    rw [lock_goto]
    cases k with
    | envRun => exact .inl (.release (hphase h))
    | schedHalt => exact .inl (.release (hphase h))
  | popTf h => exact .inr (lock_goto_of_phase (by rw [h]; rfl))
  | leaveUser h => exact .inr (lock_goto_of_phase (by rw [h]; rfl))
  | interrupt h => exact .inr (lock_goto_of_phase (by rw [h]; rfl))
  | halt h hp => exact .inr (lock_goto_of_phase (by rw [h]; rfl))
  | @trap user h hp =>
    have hfit := hat h
    rw [lock_mark]
    unfold trapEntry
    left
    cases user with
    | true =>
      rw [if_neg (show ¬(m.cpus i).status = .halted from hfit), if_pos rfl]
      exact .ask (hphase h)
    | false =>
      rw [if_pos (show (m.cpus i).status = .halted from hfit)]
      exact .ask (hphase h)

/-! ### Runs -/

omit [DecidableEq ι] in
lemma kernelLockOk_of (hs : SpinOk m.lock) (hm : ∀ j, (m.cpus j).Fits) (hserial : Serial init work m.lock) :
    KernelLockOk init work m := by
  have hfit : ∀ {j : ι} {p : Point}, (m.cpus j).point = p → Processor.Fits ⟨p, (m.cpus j).status⟩ := fits_at hm
  have howns : ∀ j, (m.cpus j).point.InKernel → (m.lock.phase j).Owns := by
    intro j hj
    have hphase : m.lock.phase j = .inside := by
      change (m.cpus j).point.phase = .inside
      cases hp : (m.cpus j).point with
      | relock => rfl
      | kernel => rfl
      | panicked => rfl
      | _ =>
        rw [hp] at hj
        exact hj.elim
    rw [hphase]
    trivial
  constructor
  · exact fun i j hi hj => hs.exclusive i j (howns i hi).holds (howns j hj).holds
  · exact fun i hi => ⟨hs.locked_of_holds (howns i hi).holds, (hs.owner i).mpr (howns i hi)⟩
  · exact fun hl => hs.locked.mp hl
  · intro i hi
    exact hs.accepted i (phase_of_point hi)
  · exact fun i => ⟨fun hi => (hfit hi).elim, fun hi => (hfit hi).elim⟩
  · exact hserial

/-- One processor at a time is in the kernel, for any number of processors and any order of their
steps. -/
theorem kernelLock_of_run {h : List (Move (Smp ι σ) ι)} (hr : Run (SmpStart init) (SmpStep work) h m) :
    KernelLockOk init work m := by
  obtain ⟨hs, hm, hserial⟩ : SpinOk m.lock ∧ (∀ j, (m.cpus j).Fits) ∧ Serial init work m.lock := by
    refine hr.induct (G := fun _ _ => True) (fun _ _ => trivial)
      (fun _ m => SpinOk m.lock ∧ (∀ j, (m.cpus j).Fits) ∧ Serial init work m.lock) ?_ ?_
    · rintro m ⟨hlocked, howner, hboot, hinit⟩
      have hout : ∀ i, m.lock.phase i = .out := fun i => phase_of_point (hboot i)
      have hnone : ∀ i, ¬(m.lock.phase i).Holds := by
        intro i
        rw [hout i]
        exact id
      refine ⟨⟨fun i j hi _ => absurd hi (hnone i), ?_, fun i => ?_, fun i => ?_⟩, fun i => ?_, .start hinit hnone⟩
      · exact iff_of_false (by change ¬m.locked = true; rw [hlocked]; decide) (fun ⟨i, hi⟩ => hnone i hi)
      · refine iff_of_false (by change ¬m.owner = some i; rw [howner]; simp) ?_
        rw [hout i]
        exact id
      · rw [hout i]
        exact Phase.noConfusion
      · unfold Processor.Fits
        rw [hboot i]
        trivial
    · rintro - m i m' ⟨hs, hm, hserial⟩ - hst
      rcases hst.lock hm with hstep | heq
      · exact ⟨hs.step hstep, hst.fits hm, hserial.step hs hstep⟩
      · rw [heq]
        exact ⟨hs, hst.fits hm, hserial⟩
  exact kernelLockOk_of hs hm hserial

end Smp

/-- Two processors at their start, with a counter as the data of the kernel. -/
def twoProcessors : Smp (Fin 2) ℕ where
  locked := false
  owner := none
  panicstr := false
  cpus _ := ⟨.boot, .unused⟩
  data := 0

/-- Processor 0 counts in the kernel, and processor 1 waits for the lock. -/
theorem kernelLock_of_count : ∃ (h : List (Move (Smp (Fin 2) ℕ) (Fin 2))) (m : Smp (Fin 2) ℕ),
    Run (SmpStart (· = 0)) (SmpStep (fun _ d d' => d' = d + 1)) h m ∧
    (m.cpus 0).point = .kernel ∧ (m.cpus 1).point = .locking .kernel .spin ∧ m.data = 1 ∧
    KernelLockOk (· = 0) (fun _ d d' => d' = d + 1) m := by
  have hstart : Run (SmpStart (· = 0)) (SmpStep (fun _ d d' => d' = d + 1)) [] twoProcessors :=
    .start ⟨rfl, rfl, fun _ => rfl, rfl⟩
  have hinside := (((hstart.next (.main (i := 0) rfl)).next (.free (i := 0) rfl rfl)).next
    (.take (i := 0) rfl rfl)).next (.record (i := 0) rfl)
  have hwork := hinside.next (.work (i := 0) (d := 1) rfl rfl)
  have hwaits := (((hwork.next (.main (i := 1) rfl)).next (.busy (i := 1) rfl rfl)).next
    (.other (i := 1) rfl (by simp [Smp.goto, Smp.mark]))).next (.wait (i := 1) rfl rfl)
  exact ⟨_, _, hwaits, rfl, rfl, rfl, kernelLock_of_run hwaits⟩

end SistemasOperativos.Kern
