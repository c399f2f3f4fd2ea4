import SistemasOperativos.Kern.KernelRuns

/-!
# One step at a glance

A step of the kernel makes one change to the environments and then hands the processor over.
`Effect` lists the changes a trap can make and `Switched` says what handing the processor over
leaves alone, so that an invariant of runs is one case analysis over the changes.
-/

namespace SistemasOperativos.Kern

open Library

/-- The same environment, apart from what the scheduler writes. -/
def Env.Resumed (env env' : Env) : Prop :=
  ∃ st runs cpunum,
    env' = { env with envStatus := st, envRuns := runs, envCpunum := cpunum } ∧
      (st = env.envStatus ∨ (env.envStatus = .runnable ∧ st = .running) ∨
        (env.envStatus = .running ∧ st = .runnable))

/-- Processor `cpu` leaves the kernel: it runs an environment that may run, or none. -/
structure Switched (cpu : Cpu) (s t : Kernel) : Prop where
  pm : t.pm = s.pm
  envFreeList : t.envFreeList = s.envFreeList
  envs : ∀ e, (s.envs e).Resumed (t.envs e)
  others : ∀ k, k ≠ cpu → t.cpus k = s.cpus k
  current : ∀ j, (t.cpus cpu).cpuEnv = some j → (t.envs j).envStatus = .running ∧
    ((s.envs j).envStatus = .runnable ∨ (s.envs j).envStatus = .running)

/-- What a trap with frame `tf` of `c`, running on `cpu`, does before the processor is handed
over. -/
inductive Effect (s : Kernel) (cpu : Cpu) (c : EnvIdx) (tf : Trapframe) : Kernel → Prop
  | reaped (pm : Pmap) (hst : (s.envs c).envStatus = .dying) :
      Effect s cpu c tf ((s.freed cpu c pm).vacated cpu)
  | destroyed (pm₀ pm : Pmap) (hst : (s.envs c).envStatus ≠ .dying)
      (hcall : tf.tfTrapno = tSyscall → tf.call.no.toNat = 0 ∨ tf.call.no.toNat = 3) :
      Effect s cpu c tf (({ s.entered c tf with pm := pm₀ }.freed cpu c pm).vacated cpu)
  | entered (hst : (s.envs c).envStatus ≠ .dying)
      (hcall : tf.tfTrapno = tSyscall → tf.call.no.toNat = 11) :
      Effect s cpu c tf (s.entered c tf)
  | upcalled (pm : Pmap) (hst : (s.envs c).envStatus ≠ .dying) (hno : tf.tfTrapno = tPgflt) :
      Effect s cpu c tf ((s.entered c tf).upcalled c (utrapframeAt tf.tfEsp).1 pm)
  | blocked (hst : (s.envs c).envStatus ≠ .dying) (htrap : tf.tfTrapno = tSyscall)
      (hno : tf.call.no.toNat = 13) (hva : tf.call.a1 < utop → tf.call.a1 % 0x1000 = 0) :
      Effect s cpu c tf
        ((s.entered c tf).setEnv c (((s.entered c tf).envs c).blocked tf.call.a1))
  | returned (r : Word) (u : Kernel) (hst : (s.envs c).envStatus ≠ .dying)
      (htrap : tf.tfTrapno = tSyscall) (hu : Returned (s.entered c tf) cpu c tf.call r u) :
      Effect s cpu c tf (u.setEax c r)

/-- What a step does. -/
inductive Outcome (s : Kernel) : Event → Kernel → Prop
  | trap {cpu : Cpu} {c : EnvIdx} {tf : Trapframe} {cr2 cons : Word} {u t : Kernel}
      (hc : (s.cpus cpu).cpuEnv = some c) (hcs : tf.tfCs &&& 3 = 3)
      (he : Effect s cpu c tf u) (hs : Switched cpu u t) : Outcome s (.trap cpu tf cr2 cons) t
  | wake {cpu : Cpu} {t : Kernel} (hidle : (s.cpus cpu).cpuEnv = none) (hs : Switched cpu s t) :
      Outcome s (.wake cpu) t
  | user {ev : Event} (pm : Pmap) (hev : ∀ cpu tf cr2 cons, ev ≠ .trap cpu tf cr2 cons) :
      Outcome s ev { s with pm := pm }

variable {s t u : Kernel} {cpu : Cpu} {c e : EnvIdx} {tf : Trapframe} {ev : Event}

lemma Env.Resumed.refl (env : Env) : env.Resumed env :=
  ⟨env.envStatus, env.envRuns, env.envCpunum, rfl, Or.inl rfl⟩

/-- A live environment stays live and a free one free. -/
lemma Env.Resumed.free_iff {env env' : Env} (h : env.Resumed env') :
    env'.envStatus = .free ↔ env.envStatus = .free := by
  obtain ⟨st, runs, cpunum, rfl, hst⟩ := h
  show st = .free ↔ _
  rcases hst with rfl | ⟨ho, rfl⟩ | ⟨ho, rfl⟩
  · rfl
  · rw [ho]
    exact ⟨fun h => (by cases h), fun h => (by cases h)⟩
  · rw [ho]
    exact ⟨fun h => (by cases h), fun h => (by cases h)⟩

namespace Switched

lemma ran {j : EnvIdx} {d : ℕ} (hj : (s.envs j).envStatus = .runnable ∨
    (s.envs j).envStatus = .running) : Switched cpu s (s.ran cpu j d) := by
  refine ⟨rfl, rfl, ?_, ?_, ?_⟩
  · intro e
    obtain ⟨runs, cpunum, he⟩ := ran_envs s cpu j d e
    refine ⟨_, runs, cpunum, he, ?_⟩
    split
    · rename_i hej
      subst hej
      rcases hj with hj | hj
      · exact Or.inr (Or.inl ⟨hj, rfl⟩)
      · exact Or.inl hj.symm
    · split
      · rename_i hr
        exact Or.inr (Or.inr ⟨hr.2, rfl⟩)
      · exact Or.inl rfl
  · intro k hk
    exact Function.update_of_ne hk _ _
  · intro k hk
    have hcpu : (s.ran cpu j d).cpus cpu = ⟨some j, d⟩ := Function.update_self ..
    rw [hcpu] at hk
    obtain rfl := Option.some.inj hk
    obtain ⟨runs, cpunum, he⟩ := ran_envs s cpu j d j
    rw [he]
    exact ⟨if_pos rfl, hj⟩

lemma dispatch (hd : Dispatch s cpu t) : Switched cpu s t := by
  cases hd with
  | next j d hj hst hd => exact ran (Or.inl hst)
  | again j d hnone hj hst hd => exact ran (Or.inr hst)
  | halt hnone hcur =>
    refine ⟨rfl, rfl, fun e => .refl _, fun k hk => Function.update_of_ne hk _ _, ?_⟩
    intro j hj
    have hcpu : (s.halted cpu).cpus cpu = ⟨none, s.pm.kernPgdir⟩ := Function.update_self ..
    rw [hcpu] at hj
    cases hj

lemma resume (hr : Resume s cpu t) : Switched cpu s t := by
  cases hr with
  | back c d hc hst hd => exact ran (Or.inr hst)
  | yield t hst hd => exact dispatch hd

end Switched

/-- A trap is a change followed by a switch. -/
lemma Trapped.effect (hE : EnvsIn none s) (hc : (s.cpus cpu).cpuEnv = some c)
    (ht : Trapped s cpu c tf t) : ∃ u, Effect s cpu c tf u ∧ Switched cpu u t := by
  cases ht with
  | reaped pm t hst hd => exact ⟨_, .reaped pm hst, .dispatch hd⟩
  | returned r u t hst hno hu ht => exact ⟨_, .returned r u hst hno hu, .resume ht⟩
  | left t hst hno ht =>
    cases ht with
    | destroyed pm₀ pm t hno' hd =>
      exact ⟨_, .destroyed pm₀ pm hst (fun _ => hno'.imp id (fun h => h.1)), .dispatch hd⟩
    | yielded t hno' hd => exact ⟨_, .entered hst (fun _ => hno'), .dispatch hd⟩
    | blocked t hno' hva hd => exact ⟨_, .blocked hst hno hno' hva, .dispatch hd⟩
  | upcall d pm hst hno hd =>
    refine ⟨_, .upcalled pm hst hno, .ran (Or.inr ?_)⟩
    unfold Kernel.upcalled Kernel.entered
    rw [Kernel.setEnv_envs_self, Kernel.setEnv_envs_self]
    exact (hE.settled cpu c (by simp) hc).resolve_right hst
  | destroyed pm₀ pm t hst hno hd =>
    exact ⟨_, .destroyed pm₀ pm hst (fun h => absurd h hno), .dispatch hd⟩
  | ignored t hst hno ht => exact ⟨_, .entered hst (fun h => absurd h hno), .resume ht⟩
  | timer t hst hno hd => exact ⟨_, .entered hst (fun h => absurd h hno), .dispatch hd⟩

/-- Every step has one of the listed outcomes. -/
theorem Step.outcome (hE : EnvsIn none s) (hst : Step s ev t) : Outcome s ev t := by
  cases hst with
  | @trap cpu tf cr2 cons _ huser hcs ht =>
    obtain ⟨c, hc⟩ := Option.ne_none_iff_exists'.mp huser
    obtain ⟨u, he, hs⟩ := ((trap_rule hc tf cr2 cons).of_error ht rfl).effect hE hc
    exact .trap hc hcs he hs
  | @wake cpu _ hidle ht =>
    rcases (schedYield_rule s cpu).of_error ht with ⟨-, hd⟩ | hc | ⟨hc, -⟩
    · exact .wake hidle (.dispatch hd)
    · cases hc
    · cases hc
  | touch huser hva hmap hd => exact .user _ (fun _ _ _ _ h => by cases h)
  | store huser hw hmap => exact .user _ (fun _ _ _ _ h => by cases h)

/-- A step is at most one system call. -/
lemma Calls.unique {s₁ s₂ : Kernel} {c' : EnvIdx} {call call' : Call} (h : Calls s ev s₁ c call)
    (h' : Calls s ev s₂ c' call') : s₁ = s₂ ∧ c = c' ∧ call = call' := by
  cases h with
  | trap hc hst hno =>
    cases h' with
    | trap hc' hst' hno' =>
      obtain rfl := Option.some.inj (hc.symm.trans hc')
      exact ⟨rfl, rfl, rfl⟩

/-- The outcome of a step that is a system call. -/
lemma Calls.effect {s' : Kernel} {call : Call} (hcall : Calls s ev s' c call)
    (ho : Outcome s ev t) : ∃ cpu tf u, (s.cpus cpu).cpuEnv = some c ∧
      (s.envs c).envStatus ≠ .dying ∧ tf.tfTrapno = tSyscall ∧ s' = s.entered c tf ∧
      call = tf.call ∧ Effect s cpu c tf u ∧ Switched cpu u t := by
  cases hcall with
  | trap hc hst hno =>
    cases ho with
    | trap hc' hcs he hs =>
      obtain rfl := Option.some.inj (hc.symm.trans hc')
      exact ⟨_, _, _, hc, hst, hno, rfl, rfl, he, hs⟩
    | user pm hev => exact absurd rfl (hev _ _ _ _)

end SistemasOperativos.Kern
