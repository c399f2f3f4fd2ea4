import SistemasOperativos.Kern.KernelRuns

/-!
# Processors and environments

No environment runs on two processors, and what one processor does leaves the environments
that the others run alone: it neither selects nor frees them, and their slots and page
directories stay theirs.
-/

namespace SistemasOperativos.Kern

open Library

/-- The processor that makes a step. -/
def Event.cpu : Event → Cpu
  | .trap cpu _ _ _ => cpu
  | .wake cpu => cpu
  | .touch cpu _ _ => cpu
  | .store cpu _ _ => cpu

/-- The processors and the environment list of one state. -/
structure CpusOk (s : Kernel) : Prop where
  exclusive : ∀ k k' e, (s.cpus k).cpuEnv = some e → (s.cpus k').cpuEnv = some e → k = k'
  live : ∀ k e, (s.cpus k).cpuEnv = some e → (s.envs e).envStatus ≠ .free ∧
    (s.envs e).envPgdir = some (s.cpus k).cr3
  pgdir : ∀ k e l, (s.cpus k).cpuEnv = some e → Linked s.pm.ppLink s.pm.pageFreeList l →
    (s.cpus k).cr3 ∉ l
  list : ∃ l, Linked (fun e => (s.envs e).envLink) s.envFreeList l ∧
    ∀ e, l.count e = if (s.envs e).envStatus = .free then 1 else 0

/-- The step leaves the environments of the other processors alone: they are not selected or
freed, and their slots and page directories are not handed out. -/
def OthersKept (m : Move Kernel Event) : Prop :=
  ∀ k e, k ≠ m.label.cpu → (m.pre.cpus k).cpuEnv = some e →
    m.post.cpus k = m.pre.cpus k ∧ (m.post.cpus m.label.cpu).cpuEnv ≠ some e ∧
      (m.post.envs e).envStatus ≠ .free ∧ (m.post.envs e).envId = (m.pre.envs e).envId ∧
      (m.post.envs e).envPgdir = (m.pre.envs e).envPgdir

/-- The environments of the processors other than `cpu` keep their place from `s` to `t`. -/
def Apart (cpu : Cpu) (s t : Kernel) : Prop :=
  ∀ k e, k ≠ cpu → (s.cpus k).cpuEnv = some e → t.cpus k = s.cpus k ∧
    (t.envs e).envId = (s.envs e).envId ∧ (t.envs e).envPgdir = (s.envs e).envPgdir

variable {B : Boot} {s t u : Kernel} {cpu : Cpu} {c e : EnvIdx} {h : List (Move Kernel Event)}
  {busy : Option Cpu} {ev : Event}

namespace Apart

lemma trans (h₁ : Apart cpu s t) (h₂ : Apart cpu t u) : Apart cpu s u := by
  intro k e hk hc
  obtain ⟨hcpu₁, hid₁, hpg₁⟩ := h₁ k e hk hc
  obtain ⟨hcpu₂, hid₂, hpg₂⟩ := h₂ k e hk (by rw [hcpu₁]; exact hc)
  exact ⟨hcpu₂.trans hcpu₁, hid₂.trans hid₁, hpg₂.trans hpg₁⟩

lemma withPm (pm : Pmap) : Apart cpu s { s with pm := pm } := fun _ _ _ _ => ⟨rfl, rfl, rfl⟩

lemma setEnv {env : Env} (hid : env.envId = (s.envs e).envId)
    (hpg : env.envPgdir = (s.envs e).envPgdir) : Apart cpu s (s.setEnv e env) := by
  intro k j _ _
  refine ⟨rfl, ?_, ?_⟩
  · rw [Kernel.setEnv_envs]
    split
    · rename_i hj
      rw [hid, hj]
    · rfl
  · rw [Kernel.setEnv_envs]
    split
    · rename_i hj
      rw [hpg, hj]
    · rfl

lemma ran (j : EnvIdx) (d : ℕ) : Apart cpu s (s.ran cpu j d) := by
  intro k e hk _
  obtain ⟨runs, cpunum, he⟩ := ran_envs s cpu j d e
  refine ⟨?_, by rw [he], by rw [he]⟩
  unfold Kernel.ran
  exact Function.update_of_ne hk _ _

lemma dispatch (hd : Dispatch s cpu t) : Apart cpu s t := by
  cases hd with
  | next j d hj hst hd => exact ran j d
  | again j d hnone hj hst hd => exact ran j d
  | halt hnone hcur => exact fun k e hk _ => ⟨Function.update_of_ne hk _ _, rfl, rfl⟩

lemma resume (hr : Resume s cpu t) : Apart cpu s t := by
  cases hr with
  | back c d hc hst hd => exact ran c d
  | yield t hst hd => exact dispatch hd

/-- Freeing an environment that no other processor runs. -/
lemma freed (hno : NotElsewhere s cpu e) (pm : Pmap) : Apart cpu s (s.freed cpu e pm) := by
  intro k j hk hj
  have hne : j ≠ e := fun hc => hk (hno k (hc ▸ hj))
  have henvs : (s.freed cpu e pm).envs j = s.envs j := by
    unfold Kernel.freed
    exact Function.update_of_ne hne _ _
  refine ⟨?_, by rw [henvs], by rw [henvs]⟩
  show s.freedCpus cpu e k = _
  unfold Kernel.freedCpus
  split
  · exact Function.update_of_ne hk _ _
  · rfl

lemma vacated : Apart cpu s (s.vacated cpu) := by
  intro k e hk _
  refine ⟨?_, rfl, rfl⟩
  unfold Kernel.vacated Kernel.setCpu
  exact Function.update_of_ne hk _ _

/-- A slot that `env_alloc` hands out is not that of a running environment. -/
lemma allocated (hE : EnvsIn busy s) (hfl : s.envFreeList = some e) (parentId : Word) (d : ℕ)
    (pm : Pmap) : Apart cpu s (s.allocated e parentId d pm) := by
  intro k j hk hj
  have hne : j ≠ e := fun hc => hE.ne_free hj (hc ▸ (hE.allocated hfl parentId d pm).1)
  have henvs : (s.allocated e parentId d pm).envs j = s.envs j := by
    unfold Kernel.allocated
    exact Function.update_of_ne hne _ _
  exact ⟨rfl, by rw [henvs], by rw [henvs]⟩

lemma returned {call : Call} {r : Word} (hE : EnvsIn none s)
    (hg : CpuGuard s cpu c call) (hr : Returned s cpu c call r t) : Apart cpu s t := by
  cases hr with
  | memory pm hno hex hset hipc hyield => exact withPm pm
  | marked e hno he hne hst => exact setEnv rfl rfl
  | freed e pm hno he hne hst => exact freed (hg.destroy hno e he hst) pm
  | forked e d pm hno hfl =>
    have hself : (s.allocated e (s.envs c).envId d pm).envs e =
        freshEnv (s.envs e) e (s.envs c).envId d := Function.update_self ..
    refine (allocated hE hfl _ d pm).trans (setEnv ?_ ?_)
    · rw [hself]
      rfl
    · rw [hself]
      rfl
  | status e st hno he hst => exact setEnv rfl rfl
  | frame e tf pm hno he htf => exact (withPm pm).trans (setEnv rfl rfl)
  | upcall e hno he => exact setEnv rfl rfl
  | sent e pm hno he hrecv => exact (withPm pm).trans (setEnv rfl rfl)
  | unsent e pm hno he hrecv => exact (withPm pm).trans (setEnv rfl rfl)

lemma left {call : Call} (hE : EnvsIn none s) (hc : (s.cpus cpu).cpuEnv = some c)
    (hl : Left s cpu c call t) : Apart cpu s t := by
  cases hl with
  | destroyed pm₀ pm t hno hd =>
    exact (withPm pm₀).trans ((freed ((hE.withPm pm₀).notElsewhere hc) pm).trans
      (vacated.trans (dispatch hd)))
  | yielded t hno hd => exact dispatch hd
  | blocked t hno hva hd =>
    have hblock : Apart cpu s (s.setEnv c ((s.envs c).blocked call.a1)) := setEnv rfl rfl
    exact hblock.trans (dispatch hd)

lemma trapped {tf : Trapframe} (hE : EnvsIn none s) (hc : (s.cpus cpu).cpuEnv = some c)
    (hg : (s.envs c).envStatus ≠ .dying → tf.tfTrapno = tSyscall →
      CpuGuard (s.entered c tf) cpu c tf.call)
    (ht : Trapped s cpu c tf t) : Apart cpu s t := by
  have hent : Apart cpu s (s.entered c tf) := setEnv rfl rfl
  have hE' : EnvsIn none (s.entered c tf) := hE.entered tf
  have hcur : ((s.entered c tf).cpus cpu).cpuEnv = some c := hc
  cases ht with
  | reaped pm t hst hd =>
    exact (freed (hE.notElsewhere hc) pm).trans (vacated.trans (dispatch hd))
  | returned r u t hst hno hu ht =>
    have heax : Apart cpu u (u.setEax c r) := setEnv rfl rfl
    exact hent.trans ((returned hE' (hg hst hno) hu).trans (heax.trans (resume ht)))
  | left t hst hno ht => exact hent.trans (left hE' hcur ht)
  | upcall d pm hst hno hd =>
    have hup : Apart cpu { s.entered c tf with pm := pm }
        ((s.entered c tf).upcalled c (utrapframeAt tf.tfEsp).1 pm) := setEnv rfl rfl
    exact hent.trans ((withPm pm).trans (hup.trans (ran c d)))
  | destroyed pm₀ pm t hst hno hd =>
    exact hent.trans ((withPm pm₀).trans ((freed ((hE'.withPm pm₀).notElsewhere hcur) pm).trans
      (vacated.trans (dispatch hd))))
  | ignored t hst hno ht => exact hent.trans (resume ht)
  | timer t hst hno hd => exact hent.trans (dispatch hd)

/-- One step of a processor. -/
lemma step (hs : KernelOk B s) (hst : Step s ev t) (hg : EventGuard s ev) :
    Apart ev.cpu s t := by
  cases hst with
  | @trap cpu tf cr2 cons _ huser hcs ht =>
    obtain ⟨c, hc⟩ := Option.ne_none_iff_exists'.mp huser
    exact trapped hs.envs hc (hg c hc).cpu ((trap_rule hc tf cr2 cons).of_error ht rfl)
  | @wake cpu _ hidle ht =>
    rcases (schedYield_rule s cpu).of_error ht with ⟨-, hd⟩ | hc | ⟨hc, -⟩
    · exact dispatch hd
    · cases hc
    · cases hc
  | touch huser hva hmap hd => exact withPm _
  | store huser hw hmap => exact withPm _

end Apart

lemma KernelOk.cpus (hs : KernelOk B s) : CpusOk s := by
  refine ⟨hs.envs.inj, fun k e hc => ⟨hs.envs.ne_free hc, hs.envs.cr3 k e hc⟩, ?_, ?_⟩
  · intro k e l hc hlink hmem
    obtain ⟨l', hlink', -, hl', -⟩ := hs.mem.alloc.list
    rw [hlink.unique hlink', hl', Pi.add_apply, Pi.zero_apply, Nat.add_zero,
      refs_eq_zero_iff] at hmem
    exact hmem.2.1 (.dir e) (hs.envs.cr3 k e hc)
  · obtain ⟨l, hlink, hnd, hl⟩ := hs.envs.list
    refine ⟨l, hlink, fun e => ?_⟩
    by_cases he : e ∈ l
    · rw [if_pos ((hl e).mp he)]
      exact List.count_eq_one_of_mem hnd he
    · rw [if_neg (fun hc => he ((hl e).mpr hc))]
      exact List.count_eq_zero_of_not_mem he

/-- In a run whose calls pass the guards the processors do not disturb each other. -/
theorem processors_of_run (hr : Runs B h s) (hg : Guarded h) :
    CpusOk s ∧ ∀ m ∈ h, OthersKept m := by
  refine ⟨(kernelOk_of_run hr hg).cpus, fun m hm => ?_⟩
  obtain ⟨hpre, hst⟩ := kernelOk_of_mem hr hg hm
  have hpost := (hpre.step hst (hg m hm)).1
  intro k e hk hc
  obtain ⟨hcpu, hid, hpg⟩ := Apart.step hpre hst (hg m hm) k e hk hc
  have hc' : (m.post.cpus k).cpuEnv = some e := by
    rw [hcpu]
    exact hc
  exact ⟨hcpu, fun hcur => hk (hpost.envs.inj k _ e hc' hcur), hpost.envs.ne_free hc', hid, hpg⟩

/-! ### A child on another processor -/

/-- The small machine after `sys_exofork`. -/
def smallFork : Kernel := after (trap 0 (callFrame 7 0 0 0 0 0) 0 0) smallStart

/-- The child is made runnable. -/
def smallChild : Kernel := after (trap 0 (callFrame 8 0x1001 2 0 0 0) 0 0) smallFork

/-- The run that makes the child and sets it going. -/
def smallChildRun : List (Move Kernel Event) :=
  [⟨smallBooted, .wake 0, smallStart⟩,
    ⟨smallStart, .trap 0 (callFrame 7 0 0 0 0 0) 0 0, smallFork⟩,
    ⟨smallFork, .trap 0 (callFrame 8 0x1001 2 0 0 0) 0 0, smallChild⟩]

lemma smallChild_calls : ((smallStart.cpus 0).cpuEnv ≠ none ∧
      exitOf (trap 0 (callFrame 7 0 0 0 0 0) 0 0) smallStart = some .leave) ∧
    ((smallFork.cpus 0).cpuEnv ≠ none ∧
      exitOf (trap 0 (callFrame 8 0x1001 2 0 0 0) 0 0) smallFork = some .leave) ∧
    (smallFork.envs (envx 0x1001)).envStatus ≠ .running ∧
      (smallFork.envs (envx 0x1001)).envStatus ≠ .dying := by decide +kernel

lemma smallChild_run : Runs smallBoot smallChildRun smallChild ∧ Guarded smallChildRun := by
  obtain ⟨⟨c₁, x₁⟩, ⟨c₂, x₂⟩, hrun, hdy⟩ := smallChild_calls
  have hfork : Runs smallBoot [⟨smallBooted, .wake 0, smallStart⟩,
      ⟨smallStart, .trap 0 (callFrame 7 0 0 0 0 0) 0 0, smallFork⟩] smallFork :=
    Run.call smallStart_run c₁ x₁
  have hev : EventGuard smallStart (.trap 0 (callFrame 7 0 0 0 0 0) 0 0) :=
    eventGuard_callFrame (by decide)
  have hg := smallStart_guarded.next (t := smallFork) hev
  have hE := (kernelOk_of_run hfork hg).envs
  exact ⟨Run.call hfork c₂ x₂, hg.next (eventGuard_setStatus hE (by decide) hrun hdy)⟩

/-- The child runs on processor 1. -/
def smallPair : Kernel := after (schedYield (α := Unit) 1) smallChild

/-- The parent makes the running child runnable again, and yields to it. -/
def smallAgain : Kernel := after (trap 0 (callFrame 8 0x1001 2 0 0 0) 0 0) smallPair

def smallTwice : Kernel := after (trap 0 (callFrame 11 0 0 0 0 0) 0 0) smallAgain

lemma smallPair_calls : ((smallChild.cpus 1).cpuEnv = none ∧
      exitOf (schedYield (α := Unit) 1) smallChild = some .leave) ∧
    ((smallPair.cpus 0).cpuEnv = some 0 ∧ (smallPair.cpus 1).cpuEnv = some 1) ∧
    ((smallPair.cpus 0).cpuEnv ≠ none ∧
      exitOf (trap 0 (callFrame 8 0x1001 2 0 0 0) 0 0) smallPair = some .leave ∧
      (smallAgain.cpus 0).cpuEnv ≠ none ∧
      exitOf (trap 0 (callFrame 11 0 0 0 0 0) 0 0) smallAgain = some .leave) ∧
    (smallTwice.cpus 0).cpuEnv = some 1 ∧ (smallTwice.cpus 1).cpuEnv = some 1 := by decide +kernel

lemma smallPair_run : Runs smallBoot (smallChildRun ++ [⟨smallChild, .wake 1, smallPair⟩]) smallPair ∧
    Guarded (smallChildRun ++ [⟨smallChild, .wake 1, smallPair⟩]) := by
  obtain ⟨hchild, hg⟩ := smallChild_run
  obtain ⟨⟨hidle, hexit⟩, -⟩ := smallPair_calls
  exact ⟨.next hchild (.wake hidle (eq_error_of_exitOf hexit)), hg.next trivial⟩

/-- Parent and child run, each on a processor. -/
theorem processors_of_run_pair : (smallPair.cpus 0).cpuEnv = some 0 ∧ (smallPair.cpus 1).cpuEnv = some 1 ∧
    CpusOk smallPair ∧ ∀ m ∈ smallChildRun ++ [⟨smallChild, .wake 1, smallPair⟩], OthersKept m := by
  obtain ⟨-, ⟨h0, h1⟩, -⟩ := smallPair_calls
  exact ⟨h0, h1, processors_of_run smallPair_run.1 smallPair_run.2⟩

/-- `sys_env_set_status` on a child that runs on another processor lets two processors run
it. -/
theorem processors_fail : ∃ h, Runs smallBoot h smallTwice ∧ ¬ CpusOk smallTwice := by
  obtain ⟨hpair, -⟩ := smallPair_run
  obtain ⟨-, -, ⟨c₁, x₁, c₂, x₂⟩, h0, h1⟩ := smallPair_calls
  have hagain := Run.call hpair c₁ x₁
  have htwice := Run.call (s := smallAgain) hagain c₂ x₂
  exact ⟨_, htwice, fun hs => absurd (hs.exclusive 0 1 1 h0 h1) (by decide)⟩

end SistemasOperativos.Kern
