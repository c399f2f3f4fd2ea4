import SistemasOperativos.Kern.BootInv

/-!
# Runs of the kernel

Every state of a run whose system calls pass the guards is in order. `KernelOk` is the
invariant; `StepRemapped` lists what one step does to the address spaces.
-/

namespace SistemasOperativos.Kern

open Library

/-- The environments are in order and so is the memory under them. -/
structure KernelOk (B : Boot) (s : Kernel) : Prop where
  envs : EnvsIn none s
  mem : MemOk B s

/-- The condition on one step. Only system calls have one. -/
def EventGuard (s : Kernel) : Event → Prop
  | .trap cpu tf _ _ => ∀ c, (s.cpus cpu).cpuEnv = some c → TrapGuard s cpu c tf
  | _ => True

/-- The part of it that keeps the processors apart. -/
def CpuEvent (s : Kernel) : Event → Prop
  | .trap cpu tf _ _ => ∀ c, (s.cpus cpu).cpuEnv = some c → (s.envs c).envStatus ≠ .dying →
    tf.tfTrapno = tSyscall → CpuGuard (s.entered c tf) cpu c tf.call
  | _ => True

/-- The condition on a run: every step made meets the condition. -/
def Guarded (h : List (Move Kernel Event)) : Prop := ∀ m ∈ h, EventGuard m.pre m.label

/-- The address spaces after a step. -/
inductive StepRemapped (B : Boot) (s : Kernel) : Event → (EnvIdx → PageNo → Word) → Prop
  | trap {cpu : Cpu} {c : EnvIdx} {tf : Trapframe} {cr2 cons : Word}
      {S : EnvIdx → PageNo → Word} (hc : (s.cpus cpu).cpuEnv = some c)
      (h : TrapRemapped B s c tf S) : StepRemapped B s (.trap cpu tf cr2 cons) S
  | wake {cpu : Cpu} : StepRemapped B s (.wake cpu) (spacesOf s)
  | store {cpu : Cpu} {va : Word} {b : Byte} : StepRemapped B s (.store cpu va b) (spacesOf s)
  | touch {cpu : Cpu} {c : EnvIdx} {va : Word} {dirty : Bool}
      (hc : (s.cpus cpu).cpuEnv = some c) (hva : va < utop)
      (hP : has (spacesOf s c (pageNo va hva)) pteP = true) :
      StepRemapped B s (.touch cpu va dirty) (setPage (spacesOf s) c (pageNo va hva)
        (accessed (spacesOf s c (pageNo va hva)) dirty))

/-- In state `s` the step `ev` is the system call `call` of `c`, which the kernel handles in the
state `s'`. -/
inductive Calls (s : Kernel) : Event → Kernel → EnvIdx → Call → Prop
  | trap {cpu : Cpu} {c : EnvIdx} {tf : Trapframe} {cr2 cons : Word}
      (hc : (s.cpus cpu).cpuEnv = some c) (hst : (s.envs c).envStatus ≠ .dying)
      (hno : tf.tfTrapno = tSyscall) :
      Calls s (.trap cpu tf cr2 cons) (s.entered c tf) c tf.call

variable {B : Boot} {s t : Kernel} {ev : Event} {h : List (Move Kernel Event)}

lemma Guarded.next (hg : Guarded h) (hev : EventGuard s ev) : Guarded (h ++ [⟨s, ev, t⟩]) := by
  intro m hm
  rcases List.mem_append.mp hm with hm | hm
  · exact hg m hm
  · obtain rfl := List.mem_singleton.mp hm
    exact hev

lemma EventGuard.cpuEvent (hg : EventGuard s ev) : CpuEvent s ev := by
  cases ev with
  | trap => exact fun c hc => (hg c hc).cpu
  | _ => trivial

/-- One step keeps the environments in order. -/
lemma EnvsIn.step (hs : EnvsIn none s) (hst : Step s ev t) (hg : CpuEvent s ev) :
    EnvsIn none t := by
  cases hst with
  | @trap cpu tf cr2 cons _ huser hcs ht =>
    obtain ⟨c, hc⟩ := Option.ne_none_iff_exists'.mp huser
    exact hs.trapped hc (hg c hc) ((trap_rule hc tf cr2 cons).of_error ht rfl)
  | @wake cpu _ hidle ht =>
    rcases (schedYield_rule s cpu).of_error ht with ⟨-, hd⟩ | hc | ⟨hc, -⟩
    · exact (hs.busy_of_none (some cpu)).dispatch hd
    · cases hc
    · cases hc
  | touch => exact hs.withPm _
  | store => exact hs.withPm _

/-- One step keeps the invariant. -/
lemma KernelOk.step (hs : KernelOk B s) (hst : Step s ev t) (hg : EventGuard s ev) :
    KernelOk B t ∧ StepRemapped B s ev (spacesOf t) := by
  have henvs : EnvsIn none t := hs.envs.step hst hg.cpuEvent
  cases hst with
  | @trap cpu tf cr2 cons _ huser hcs ht =>
    obtain ⟨c, hc⟩ := Option.ne_none_iff_exists'.mp huser
    have hguard := hg c hc
    have hmem := (trap_mem hs.envs hs.mem hc hguard cr2 cons).of_error ht
    rcases hmem with hcrash | ⟨-, hleft⟩
    · rcases hcrash with ⟨-, -, hcrash⟩ | ⟨-, -, hcrash⟩ <;> cases hcrash
    · obtain ⟨hok, hre⟩ := hleft rfl
      exact ⟨⟨henvs, hok⟩, .trap hc hre⟩
  | @wake cpu _ hidle ht =>
    have hmem := ((schedYield_mem hs.envs hs.mem).of_error ht).2 rfl
    refine ⟨⟨henvs, hmem.1⟩, ?_⟩
    rw [hmem.2]
    exact .wake
  | @touch cpu va dirty huser hva hmap hd =>
    obtain ⟨c, hc⟩ := Option.ne_none_iff_exists'.mp huser
    have hdir : dirsOf s c = some (s.cpus cpu).cr3 := hs.envs.cr3 cpu c hc
    obtain ⟨hok, hsp⟩ := hs.mem.markAccessed hdir hva hmap dirty
    refine ⟨⟨henvs, hok⟩, ?_⟩
    obtain ⟨⟨pde, pte⟩, hwalk⟩ := Option.isSome_iff_exists.mp hmap
    obtain ⟨hpte, hP, -⟩ := hs.mem.tables.walk_some hdir hva hwalk
    have hS : spacesOf { s with
        pm := { s.pm with mem := markAccessed s.pm.mem (s.cpus cpu).cr3 va dirty } } = _ := hsp
    rw [hS]
    have hP' : has (spaces (dirsOf s) s.pm.mem c (pageNo va hva)) pteP = true := hpte ▸ hP
    exact .touch hc hva hP'
  | @store cpu va b huser hw pde pte hmap =>
    obtain ⟨c, hc⟩ := Option.ne_none_iff_exists'.mp huser
    have hdir : dirsOf s c = some (s.cpus cpu).cr3 := hs.envs.cr3 cpu c hc
    have hva := hs.mem.tables.userWritable_lt hdir hw
    obtain ⟨hok, hsp⟩ := hs.mem.setByte hdir hva hmap (pgoff va) b
    refine ⟨⟨henvs, hok⟩, ?_⟩
    have hS : spacesOf { s with
        pm := { s.pm with mem := setByte s.pm.mem (pgnum pte) (pgoff va) b } } = spacesOf s := hsp
    rw [hS]
    exact .store

lemma Booted.kernelOk (h : Booted B s) : KernelOk B s := ⟨h.ok.envs, h.ok.mem⟩

/-- Every state of a guarded run is in order. -/
theorem kernelOk_of_run (hr : Runs B h s) (hg : Guarded h) : KernelOk B s :=
  hr.induct hg (fun _ s => KernelOk B s) (fun _ hs => hs.kernelOk)
    (fun _ _ _ _ hs hg hst => (hs.step hst hg).1)

/-- Every state a guarded run passes through is in order. -/
lemma kernelOk_of_mem (hr : Runs B h s) (hg : Guarded h) {m : Move Kernel Event} (hm : m ∈ h) :
    KernelOk B m.pre ∧ Step m.pre m.label m.post := by
  obtain ⟨⟨h', hsub, hr'⟩, hst⟩ := hr.mem hm
  exact ⟨kernelOk_of_run hr' (fun x hx => hg x (hsub hx)), hst⟩

/-! ### A small machine -/

/-- A machine with 300 pages whose kernel maps nothing above `UTOP` but its page tables. -/
def smallBoot : Boot where
  npages := 300
  pagesEnd := 299 * 4096
  kernPgdir := 257
  mem := fun f x => if f = 257 ∧ x = pdx uvpt then page2pa 257 ||| pteP ||| pteU else 0
  kernTables := []
  freeList := pageInit 300 (299 * 4096)
  npages_le := by omega
  kernPgdir_lt := by omega
  kernPgdir_notMem := by decide +kernel
  perm := by rw [List.nil_append]
  empty := by
    intro x hx
    have hne : x ≠ pdx uvpt := by
      have : pdxUtop < pdx uvpt := by decide
      omega
    rw [if_neg (fun hc => hne hc.2)]
  selfMap := by decide
  tables := fun x _ _ hx => Or.inl (if_neg (fun hc => hx hc.2))
  frames := by
    intro x t _ hx ht
    rw [if_neg (fun hc => absurd hx (by rw [hc.2]; exact lt_irrefl _)), target_zero] at ht
    cases ht
  protect := fun t ht => absurd ht List.not_mem_nil

/-- A program without segments. -/
def emptyBinary : Binary := fun off => [0x7F, 0x45, 0x4C, 0x46].getD off 0

lemma emptyBinary_below : emptyBinary.BelowUtop := by
  intro i hi
  exact absurd hi (by rw [show emptyBinary.ePhnum = 0 by decide]; omega)

/-- The small machine with one environment, before the scheduler runs. -/
def smallBooted : Kernel := after (envCreate 0 emptyBinary .user) (Kernel.boot smallBoot)

/-- The small machine with its environment running on processor 0. -/
def smallStart : Kernel := after (schedYield (α := Unit) 0) smallBooted

/-- The trap frame of a system call. -/
def callFrame (no a1 a2 a3 a4 a5 : Word) : Trapframe :=
  { Trapframe.zero with
    tfRegs := { PushRegs.zero with
      regEax := no
      regEdx := a1
      regEcx := a2
      regEbx := a3
      regEdi := a4
      regEsi := a5 }
    tfTrapno := tSyscall
    tfCs := gdUt ||| 3 }

lemma smallStart_calls :
    resultOf (envCreate 0 emptyBinary .user) (Kernel.boot smallBoot) = some () ∧
    ((smallBooted.cpus 0).cpuEnv = none ∧
      exitOf (schedYield (α := Unit) 0) smallBooted = some .leave) ∧
    (smallStart.cpus 0).cpuEnv = some 0 := by decide +kernel

lemma smallBooted_booted : Booted smallBoot smallBooted :=
  .envCreate .memInit emptyBinary_below (eq_ok_of_resultOf smallStart_calls.1)

lemma smallStart_step : Step smallBooted (.wake 0) smallStart := by
  obtain ⟨-, ⟨hidle, hexit⟩, -⟩ := smallStart_calls
  exact .wake hidle (eq_error_of_exitOf hexit)

lemma smallStart_run :
    Runs smallBoot [⟨smallBooted, .wake 0, smallStart⟩] smallStart :=
  .next (.start smallBooted_booted) smallStart_step

lemma smallStart_guarded : Guarded [⟨smallBooted, .wake 0, smallStart⟩] := by
  intro m hm
  obtain rfl := List.mem_singleton.mp hm
  trivial

/-- A system call extends a run by one step. -/
lemma Run.call {cpu : Cpu} {no a1 a2 a3 a4 a5 : Word} (hr : Runs B h s)
    (hc : (s.cpus cpu).cpuEnv ≠ none)
    (hexit : exitOf (trap cpu (callFrame no a1 a2 a3 a4 a5) 0 0) s = some .leave) :
    Runs B (h ++ [⟨s, .trap cpu (callFrame no a1 a2 a3 a4 a5) 0 0,
        after (trap cpu (callFrame no a1 a2 a3 a4 a5) 0 0) s⟩])
      (after (trap cpu (callFrame no a1 a2 a3 a4 a5) 0 0) s) := by
  have hcs : (callFrame no a1 a2 a3 a4 a5).tfCs &&& 3 = 3 := by
    show (gdUt ||| 3) &&& 3 = 3
    decide
  exact .next hr (.trap hc hcs (eq_error_of_exitOf hexit))

/-- The small machine after `sys_page_alloc(0, 0x400000, perm)`. -/
def smallAlloc (perm : Word) : Kernel :=
  after (trap 0 (callFrame 4 0 0x400000 perm 0 0) 0 0) smallStart

lemma smallAlloc_run (perm : Word)
    (hexit : exitOf (trap 0 (callFrame 4 0 0x400000 perm 0 0) 0 0) smallStart = some .leave) :
    Runs smallBoot [⟨smallBooted, .wake 0, smallStart⟩,
      ⟨smallStart, .trap 0 (callFrame 4 0 0x400000 perm 0 0) 0 0, smallAlloc perm⟩]
      (smallAlloc perm) :=
  Run.call smallStart_run (by rw [smallStart_calls.2.2]; simp) hexit

/-- The guards speak about five system calls only. -/
lemma eventGuard_of_no {cpu : Cpu} {tf : Trapframe} {cr2 cons : Word}
    (hno : tf.call.no.toNat ∉ [3, 5, 6, 8, 12]) : EventGuard s (.trap cpu tf cr2 cons) := by
  simp only [List.mem_cons, List.not_mem_nil, or_false, not_or] at hno
  obtain ⟨h3, h5, h6, h8, h12⟩ := hno
  refine fun c _ => ⟨fun _ _ => ⟨fun h => absurd h h3, fun h => absurd h h8,
    fun h => absurd h h12⟩, fun _ _ => ⟨?_, fun h => absurd h h6⟩⟩
  intro se n de m perm hsh
  cases hsh with
  | map h => exact absurd h h5
  | send h => exact absurd h h12

lemma eventGuard_callFrame {cpu : Cpu} {no a1 a2 a3 a4 a5 cr2 cons : Word}
    (hno : no.toNat ∉ [3, 5, 6, 8, 12]) :
    EventGuard s (.trap cpu (callFrame no a1 a2 a3 a4 a5) cr2 cons) := eventGuard_of_no hno

/-- The status of an environment that no processor runs may be set. -/
lemma eventGuard_setStatus {cpu : Cpu} {envid status a3 a4 a5 cr2 cons : Word}
    (hE : EnvsIn none s) (h0 : envid ≠ 0) (hrun : (s.envs (envx envid)).envStatus ≠ .running)
    (hdy : (s.envs (envx envid)).envStatus ≠ .dying) :
    EventGuard s (.trap cpu (callFrame 8 envid status a3 a4 a5) cr2 cons) := by
  have hno : (8 : Word).toNat = 8 := by decide
  intro c _
  refine ⟨fun _ _ => ⟨fun h3 => ?_, fun _ e he _ k hk => ?_, fun h12 => ?_⟩,
    fun _ _ => ⟨fun se n de m perm hsh => ?_, fun h6 => ?_⟩⟩
  · exact absurd (hno.symm.trans h3) (by omega)
  · obtain rfl := envOf_envx h0 he
    have hk' : (s.cpus k).cpuEnv = some (envx envid) := hk
    rcases hE.settled k _ (by simp) hk' with hs | hs
    · exact absurd hs hrun
    · exact absurd hs hdy
  · exact absurd (hno.symm.trans h12) (by omega)
  · cases hsh with
    | map h5 => exact absurd (hno.symm.trans h5) (by omega)
    | send h12 => exact absurd (hno.symm.trans h12) (by omega)
  · exact absurd (hno.symm.trans h6) (by omega)

lemma smallAlloc_guarded (perm : Word) : Guarded [⟨smallBooted, .wake 0, smallStart⟩,
    ⟨smallStart, .trap 0 (callFrame 4 0 0x400000 perm 0 0) 0 0, smallAlloc perm⟩] := by
  exact smallStart_guarded.next (eventGuard_callFrame (by decide))

end SistemasOperativos.Kern
