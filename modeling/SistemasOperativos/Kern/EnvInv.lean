import SistemasOperativos.Kern.TrapRules

/-!
# The environments in order

`EnvsIn busy s`: the free list of environments holds exactly the free slots, each once; a
live environment has a page directory and a free one has none; no environment runs on two
processors; and what a processor runs is `ENV_RUNNING` or `ENV_DYING`, except on the processor
`busy` that is executing kernel code. A kernel entry starts and ends with `busy = none`.
-/

namespace SistemasOperativos.Kern

open Library

structure EnvsIn (busy : Option Cpu) (s : Kernel) : Prop where
  list : ∃ l : List EnvIdx, Linked (fun e => (s.envs e).envLink) s.envFreeList l ∧ l.Nodup ∧
    ∀ e, e ∈ l ↔ (s.envs e).envStatus = .free
  pgdir : ∀ e, (s.envs e).envPgdir = none ↔ (s.envs e).envStatus = .free
  inj : ∀ cpu cpu' e, (s.cpus cpu).cpuEnv = some e → (s.cpus cpu').cpuEnv = some e → cpu = cpu'
  cr3 : ∀ cpu e, (s.cpus cpu).cpuEnv = some e → (s.envs e).envPgdir = some (s.cpus cpu).cr3
  settled : ∀ cpu e, busy ≠ some cpu → (s.cpus cpu).cpuEnv = some e →
    (s.envs e).envStatus = .running ∨ (s.envs e).envStatus = .dying

/-- What holds of the slots whatever the processors run. -/
structure SlotsIn (s : Kernel) : Prop where
  list : ∃ l : List EnvIdx, Linked (fun e => (s.envs e).envLink) s.envFreeList l ∧ l.Nodup ∧
    ∀ e, e ∈ l ↔ (s.envs e).envStatus = .free
  pgdir : ∀ e, (s.envs e).envPgdir = none ↔ (s.envs e).envStatus = .free

/-- No processor but `cpu` runs `e`. -/
def NotElsewhere (s : Kernel) (cpu : Cpu) (e : EnvIdx) : Prop :=
  ∀ k, (s.cpus k).cpuEnv = some e → k = cpu

namespace SlotsIn

variable {s : Kernel} {e : EnvIdx}

/-- `env_alloc` takes the first free slot. -/
lemma allocated (h : SlotsIn s) (hfl : s.envFreeList = some e) (parentId : Word) (d : ℕ)
    (pm : Pmap) : (s.envs e).envStatus = .free ∧ SlotsIn (s.allocated e parentId d pm) := by
  obtain ⟨l, hlk, hnd, hmem⟩ := h.list
  rw [hfl] at hlk
  obtain ⟨l', rfl, hlk'⟩ := linked_some hlk
  obtain ⟨hel, hnd'⟩ := List.nodup_cons.mp hnd
  have hself : (s.allocated e parentId d pm).envs e = freshEnv (s.envs e) e parentId d :=
    Function.update_self ..
  have hother : ∀ j, j ≠ e → (s.allocated e parentId d pm).envs j = s.envs j :=
    fun j hj => Function.update_of_ne hj ..
  refine ⟨(hmem e).mp List.mem_cons_self, ⟨l', ?_, hnd', ?_⟩, ?_⟩
  · refine hlk'.congr (fun j hj => ?_)
    rw [hother j (fun hje => hel (hje ▸ hj))]
  · intro j
    by_cases hj : j = e
    · subst hj
      rw [hself]
      exact ⟨fun hl => absurd hl hel, fun hc => by cases hc⟩
    · rw [hother j hj, ← hmem j, List.mem_cons]
      exact ⟨Or.inr, fun hl => hl.resolve_left hj⟩
  · intro j
    by_cases hj : j = e
    · subst hj
      rw [hself]
      exact ⟨fun hc => (by cases hc), fun hc => (by cases hc)⟩
    · rw [hother j hj]
      exact h.pgdir j

/-- `env_free` puts the slot in front. -/
lemma freed (h : SlotsIn s) (he : (s.envs e).envStatus ≠ .free) (cpu : Cpu) (pm : Pmap) :
    SlotsIn (s.freed cpu e pm) := by
  obtain ⟨l, hlk, hnd, hmem⟩ := h.list
  have hel : e ∉ l := fun hl => he ((hmem e).mp hl)
  have hself : (s.freed cpu e pm).envs e = freedEnv (s.envs e) s.envFreeList :=
    Function.update_self ..
  have hother : ∀ j, j ≠ e → (s.freed cpu e pm).envs j = s.envs j :=
    fun j hj => Function.update_of_ne hj ..
  refine ⟨⟨e :: l, ⟨rfl, ?_⟩, List.nodup_cons.mpr ⟨hel, hnd⟩, ?_⟩, ?_⟩
  · show Linked _ ((s.freed cpu e pm).envs e).envLink l
    rw [hself]
    refine hlk.congr (fun j hj => ?_)
    rw [hother j (fun hje => hel (hje ▸ hj))]
  · intro j
    by_cases hj : j = e
    · subst hj
      rw [hself]
      exact ⟨fun _ => rfl, fun _ => List.mem_cons_self⟩
    · rw [hother j hj, List.mem_cons, hmem j]
      exact ⟨fun hl => hl.resolve_left hj, Or.inr⟩
  · intro j
    by_cases hj : j = e
    · subst hj
      rw [hself]
      exact ⟨fun _ => rfl, fun _ => rfl⟩
    · rw [hother j hj]
      exact h.pgdir j

end SlotsIn

namespace EnvsIn

variable {s : Kernel} {busy : Option Cpu} {cpu : Cpu} {c e : EnvIdx}

lemma slots (h : EnvsIn busy s) : SlotsIn s := ⟨h.list, h.pgdir⟩

lemma busy_of_none (h : EnvsIn none s) (busy : Option Cpu) : EnvsIn busy s :=
  ⟨h.list, h.pgdir, h.inj, h.cr3, fun cpu e _ => h.settled cpu e (by simp)⟩

lemma ne_free (h : EnvsIn busy s) (hc : (s.cpus cpu).cpuEnv = some c) :
    (s.envs c).envStatus ≠ .free := by
  intro hf
  have hnone := (h.pgdir c).mpr hf
  rw [h.cr3 cpu c hc] at hnone
  cases hnone

lemma notElsewhere (h : EnvsIn busy s) (hc : (s.cpus cpu).cpuEnv = some c) :
    NotElsewhere s cpu c := fun k hk => h.inj k cpu c hk hc

/-- The page state does not matter. -/
lemma withPm (h : EnvsIn busy s) (pm : Pmap) : EnvsIn busy { s with pm := pm } :=
  ⟨h.list, h.pgdir, h.inj, h.cr3, h.settled⟩

/-- Changing fields of one environment. -/
lemma setEnv (h : EnvsIn busy s) {env : Env} (hlink : env.envLink = (s.envs e).envLink)
    (hpg : env.envPgdir = (s.envs e).envPgdir)
    (hfree : env.envStatus = .free ↔ (s.envs e).envStatus = .free)
    (hset : ∀ cpu, busy ≠ some cpu → (s.cpus cpu).cpuEnv = some e →
      env.envStatus = .running ∨ env.envStatus = .dying) : EnvsIn busy (s.setEnv e env) := by
  have hl : ∀ j, ((s.setEnv e env).envs j).envLink = (s.envs j).envLink := by
    intro j
    rw [Kernel.setEnv_envs]
    split
    · rename_i hj
      rw [hlink, hj]
    · rfl
  have hp : ∀ j, ((s.setEnv e env).envs j).envPgdir = (s.envs j).envPgdir := by
    intro j
    rw [Kernel.setEnv_envs]
    split
    · rename_i hj
      rw [hpg, hj]
    · rfl
  have hf : ∀ j, ((s.setEnv e env).envs j).envStatus = .free ↔ (s.envs j).envStatus = .free := by
    intro j
    rw [Kernel.setEnv_envs]
    split
    · rename_i hj
      rw [hfree, hj]
    · rfl
  refine ⟨?_, ?_, h.inj, ?_, ?_⟩
  · obtain ⟨l, hlk, hnd, hmem⟩ := h.list
    exact ⟨l, hlk.congr (fun j _ => hl j), hnd, fun j => (hmem j).trans (hf j).symm⟩
  · intro j
    rw [hp, hf]
    exact h.pgdir j
  · intro k j hj
    rw [hp]
    exact h.cr3 k j hj
  · intro k j hk hj
    rw [Kernel.setEnv_envs]
    split
    · rename_i hje
      exact hset k hk (hje ▸ hj)
    · exact h.settled k j hk hj

lemma entered (h : EnvsIn busy s) (tf : Trapframe) : EnvsIn busy (s.entered c tf) :=
  h.setEnv rfl rfl Iff.rfl (fun k hk hj => h.settled k c hk hj)

lemma setEax (h : EnvsIn busy s) (r : Word) : EnvsIn busy (s.setEax c r) :=
  h.setEnv rfl rfl Iff.rfl (fun k hk hj => h.settled k c hk hj)

/-- `env_alloc` takes the first free slot. -/
lemma allocated (h : EnvsIn busy s) (hfl : s.envFreeList = some e) (parentId : Word) (d : ℕ)
    (pm : Pmap) :
    (s.envs e).envStatus = .free ∧ EnvsIn busy (s.allocated e parentId d pm) := by
  obtain ⟨hfree, hslots⟩ := h.slots.allocated hfl parentId d pm
  have hother : ∀ j, j ≠ e → (s.allocated e parentId d pm).envs j = s.envs j :=
    fun j hj => Function.update_of_ne hj ..
  have hcur : ∀ k j, (s.cpus k).cpuEnv = some j → j ≠ e := by
    rintro k j hj rfl
    exact h.ne_free hj hfree
  refine ⟨hfree, hslots.list, hslots.pgdir, h.inj, ?_, ?_⟩
  · intro k j hj
    rw [hother j (hcur k j hj)]
    exact h.cr3 k j hj
  · intro k j hk hj
    rw [hother j (hcur k j hj)]
    exact h.settled k j hk hj

/-- Freeing an environment that no processor runs. -/
lemma freed (h : EnvsIn busy s) (he : (s.envs e).envStatus ≠ .free)
    (hcpu : (s.cpus cpu).cpuEnv ≠ some e) (hno : NotElsewhere s cpu e) (pm : Pmap) :
    EnvsIn busy (s.freed cpu e pm) := by
  obtain ⟨hlist, hpg⟩ := h.slots.freed he cpu pm
  have hcpus : (s.freed cpu e pm).cpus = s.cpus := by
    show s.freedCpus cpu e = s.cpus
    unfold Kernel.freedCpus
    rw [if_neg hcpu]
  have hcur : ∀ k j, (s.cpus k).cpuEnv = some j → j ≠ e := by
    rintro k j hj rfl
    exact hcpu (hno k hj ▸ hj)
  have hother : ∀ j, j ≠ e → (s.freed cpu e pm).envs j = s.envs j :=
    fun j hj => Function.update_of_ne hj ..
  refine ⟨hlist, hpg, ?_, ?_, ?_⟩
  · rw [hcpus]
    exact h.inj
  · intro k j hj
    rw [hcpus] at hj ⊢
    rw [hother j (hcur k j hj)]
    exact h.cr3 k j hj
  · intro k j hk hj
    rw [hcpus] at hj
    rw [hother j (hcur k j hj)]
    exact h.settled k j hk hj

/-- Freeing the environment of the processor itself, which then has none. -/
lemma freed_vacated (h : EnvsIn busy s) (hc : (s.cpus cpu).cpuEnv = some c)
    (hbusy : busy = none ∨ busy = some cpu) (pm : Pmap) :
    EnvsIn (some cpu) ((s.freed cpu c pm).vacated cpu) := by
  obtain ⟨hlist, hpg⟩ := h.slots.freed (h.ne_free hc) cpu pm
  have hcpus : ∀ k, k ≠ cpu → ((s.freed cpu c pm).vacated cpu).cpus k = s.cpus k := by
    intro k hk
    show Function.update (s.freedCpus cpu c) cpu _ k = _
    rw [Function.update_of_ne hk]
    unfold Kernel.freedCpus
    rw [if_pos hc, Function.update_of_ne hk]
  have hnone : (((s.freed cpu c pm).vacated cpu).cpus cpu).cpuEnv = none := by
    show (Function.update (s.freedCpus cpu c) cpu _ cpu).cpuEnv = _
    rw [Function.update_self]
  have hne : ∀ k j, (((s.freed cpu c pm).vacated cpu).cpus k).cpuEnv = some j → k ≠ cpu := by
    rintro k j hj rfl
    rw [hnone] at hj
    cases hj
  have hother : ∀ k j, (s.cpus k).cpuEnv = some j → k ≠ cpu →
      ((s.freed cpu c pm).vacated cpu).envs j = s.envs j := by
    intro k j hj hk
    have hjc : j ≠ c := fun e => hk (h.inj k cpu c (e ▸ hj) hc)
    exact Function.update_of_ne hjc ..
  refine ⟨hlist, hpg, ?_, ?_, ?_⟩
  · intro k k' j hj hj'
    have hk := hne k j hj
    have hk' := hne k' j hj'
    rw [hcpus k hk] at hj
    rw [hcpus k' hk'] at hj'
    exact h.inj k k' j hj hj'
  · intro k j hj
    have hk := hne k j hj
    rw [hcpus k hk] at hj ⊢
    rw [hother k j hj hk]
    exact h.cr3 k j hj
  · intro k j hk hj
    have hk' := hne k j hj
    rw [hcpus k hk'] at hj
    rw [hother k j hj hk']
    refine h.settled k j ?_ hj
    rcases hbusy with rfl | rfl
    · simp
    · exact hk

end EnvsIn

/-- `env_run` changes the status, the number of runs and the processor of environments. -/
lemma ran_envs (s : Kernel) (cpu : Cpu) (j : EnvIdx) (d : ℕ) (e : EnvIdx) :
    ∃ runs cpunum, (s.ran cpu j d).envs e = { s.envs e with
      envStatus := if e = j then .running
        else if (s.cpus cpu).cpuEnv = some e ∧ (s.envs e).envStatus = .running then .runnable
        else (s.envs e).envStatus
      envRuns := runs
      envCpunum := cpunum } := by
  unfold Kernel.ran
  by_cases he : e = j
  · subst he
    refine ⟨(s.envs e).envRuns + 1, cpu, ?_⟩
    dsimp only
    rw [Function.update_self, preempted_eq, if_pos rfl]
  · refine ⟨(s.envs e).envRuns, (s.envs e).envCpunum, ?_⟩
    dsimp only
    rw [Function.update_of_ne he, preempted_eq, if_neg he]

namespace EnvsIn

variable {s t : Kernel} {cpu : Cpu} {c e : EnvIdx}

/-- Running an environment that no other processor runs. -/
lemma ran (h : EnvsIn (some cpu) s) {d : ℕ} (hd : (s.envs e).envPgdir = some d)
    (hno : NotElsewhere s cpu e) : EnvsIn none (s.ran cpu e d) := by
  have hpg : ∀ j, ((s.ran cpu e d).envs j).envPgdir = (s.envs j).envPgdir := by
    intro j
    obtain ⟨_, _, hj⟩ := ran_envs s cpu e d j
    rw [hj]
  have hlink : ∀ j, ((s.ran cpu e d).envs j).envLink = (s.envs j).envLink := by
    intro j
    obtain ⟨_, _, hj⟩ := ran_envs s cpu e d j
    rw [hj]
  have hefree : (s.envs e).envStatus ≠ .free := by
    rw [Ne, ← h.pgdir, hd]
    exact fun hc => by cases hc
  have hfree : ∀ j, ((s.ran cpu e d).envs j).envStatus = .free ↔ (s.envs j).envStatus = .free := by
    intro j
    obtain ⟨_, _, hj⟩ := ran_envs s cpu e d j
    rw [hj]
    dsimp only
    split
    · rename_i hje
      rw [hje]
      exact ⟨fun hc => (by cases hc), fun hc => absurd hc hefree⟩
    · split
      · rename_i hr
        rw [hr.2]
        exact ⟨fun hc => (by cases hc), fun hc => (by cases hc)⟩
      · rfl
  have hcpu : (s.ran cpu e d).cpus cpu = ⟨some e, d⟩ := Function.update_self ..
  have hcpus : ∀ k, k ≠ cpu → (s.ran cpu e d).cpus k = s.cpus k :=
    fun k hk => Function.update_of_ne hk ..
  refine ⟨?_, ?_, ?_, ?_, ?_⟩
  · obtain ⟨l, hlk, hnd, hmem⟩ := h.list
    exact ⟨l, hlk.congr (fun j _ => hlink j), hnd, fun j => (hmem j).trans (hfree j).symm⟩
  · intro j
    rw [hpg, hfree]
    exact h.pgdir j
  · intro k k' j hj hj'
    by_cases hk : k = cpu <;> by_cases hk' : k' = cpu
    · rw [hk, hk']
    · subst hk
      rw [hcpu] at hj
      rw [hcpus k' hk'] at hj'
      obtain rfl := Option.some.inj hj
      exact (hno k' hj').symm
    · subst hk'
      rw [hcpu] at hj'
      rw [hcpus k hk] at hj
      obtain rfl := Option.some.inj hj'
      exact hno k hj
    · rw [hcpus k hk] at hj
      rw [hcpus k' hk'] at hj'
      exact h.inj k k' j hj hj'
  · intro k j hj
    rw [hpg]
    by_cases hk : k = cpu
    · subst hk
      rw [hcpu] at hj ⊢
      obtain rfl := Option.some.inj hj
      exact hd
    · rw [hcpus k hk] at hj ⊢
      exact h.cr3 k j hj
  · intro k j _ hj
    obtain ⟨_, _, hjenv⟩ := ran_envs s cpu e d j
    rw [hjenv]
    by_cases hk : k = cpu
    · subst hk
      rw [hcpu] at hj
      obtain rfl := Option.some.inj hj
      left
      exact if_pos rfl
    · rw [hcpus k hk] at hj
      have hje : j ≠ e := fun hje => hk (hno k (hje ▸ hj))
      have hjc : (s.cpus cpu).cpuEnv ≠ some j := fun hc => hk (h.inj k cpu j hj hc)
      dsimp only
      rw [if_neg hje, if_neg (fun hc => hjc hc.1)]
      exact h.settled k j (by simpa using Ne.symm hk) hj

/-- The scheduler restores order. -/
lemma dispatch (h : EnvsIn (some cpu) s) (hd : Dispatch s cpu t) : EnvsIn none t := by
  cases hd with
  | next j d hj hst hd =>
    refine h.ran hd (fun k hk => ?_)
    by_contra hne
    rcases h.settled k j (by simpa using Ne.symm hne) hk with hr | hr <;>
    · rw [hst] at hr
      cases hr
  | again j d hnone hj hst hd => exact h.ran hd (h.notElsewhere hj)
  | halt hnone hcur =>
    have hcpu : (s.halted cpu).cpus cpu = ⟨none, s.pm.kernPgdir⟩ := Function.update_self ..
    have hcpus : ∀ k, k ≠ cpu → (s.halted cpu).cpus k = s.cpus k :=
      fun k hk => Function.update_of_ne hk ..
    have hne : ∀ k j, ((s.halted cpu).cpus k).cpuEnv = some j → k ≠ cpu := by
      rintro k j hj rfl
      rw [hcpu] at hj
      cases hj
    refine ⟨h.list, h.pgdir, ?_, ?_, ?_⟩
    · intro k k' j hj hj'
      have hk := hne k j hj
      have hk' := hne k' j hj'
      rw [hcpus k hk] at hj
      rw [hcpus k' hk'] at hj'
      exact h.inj k k' j hj hj'
    · intro k j hj
      have hk := hne k j hj
      rw [hcpus k hk] at hj ⊢
      exact h.cr3 k j hj
    · intro k j _ hj
      have hk := hne k j hj
      rw [hcpus k hk] at hj
      exact h.settled k j (by simpa using Ne.symm hk) hj

lemma resume (h : EnvsIn (some cpu) s) (hr : Resume s cpu t) : EnvsIn none t := by
  cases hr with
  | back c d hc hst hd => exact h.ran hd (h.notElsewhere hc)
  | yield t hst hd => exact h.dispatch hd

end EnvsIn

/-! ### System calls -/

/-- The calls that would pull an environment from under another processor are not made. `ENV_NOT_RUNNABLE` is
as bad as `ENV_RUNNABLE`: `env_destroy` then frees the environment, which still runs, instead of marking it. -/
structure CpuGuard (s : Kernel) (cpu : Cpu) (c : EnvIdx) (call : Call) : Prop where
  destroy : call.no.toNat = 3 → ∀ e, envOf s c call.a1 true = some e →
    (s.envs e).envStatus ≠ .running → NotElsewhere s cpu e
  status : call.no.toNat = 8 → ∀ e, envOf s c call.a1 true = some e →
    settableStatus call.a2 ≠ none → NotElsewhere s cpu e
  send : call.no.toNat = 12 → ∀ e, envOf s c call.a1 false = some e →
    (s.envs e).envIpcRecving = true → NotElsewhere s cpu e

lemma settableStatus_some {status : Word} {st : EnvStatus} (h : settableStatus status = some st) :
    st = .runnable ∨ st = .notRunnable := by
  unfold settableStatus at h
  split at h
  · exact Or.inl (Option.some.inj h).symm
  · split at h
    · exact Or.inr (Option.some.inj h).symm
    · cases h

namespace EnvsIn

variable {s t : Kernel} {cpu : Cpu} {c : EnvIdx} {call : Call} {r : Word}

lemma returned (h : EnvsIn none s) (hc : (s.cpus cpu).cpuEnv = some c)
    (hg : CpuGuard s cpu c call) (hr : Returned s cpu c call r t) : EnvsIn (some cpu) t := by
  have hin := h.busy_of_none (some cpu)
  have hcf := h.ne_free hc
  have hlive : ∀ {e envid perm}, envOf s c envid perm = some e → (s.envs e).envStatus ≠ .free :=
    fun he => envOf_ne_free hcf he
  cases hr with
  | memory pm => exact hin.withPm pm
  | marked e hno he hne hst =>
    refine hin.setEnv rfl rfl ?_ (fun _ _ _ => Or.inr rfl)
    rw [hst]
    exact ⟨fun hc => (by cases hc), fun hc => (by cases hc)⟩
  | freed e pm hno he hne hst => exact hin.freed (hlive he) hne (hg.destroy hno e he hst) pm
  | forked e d pm hno hfl =>
    obtain ⟨hfree, hall⟩ := hin.allocated hfl (s.envs c).envId d pm
    have hself : (s.allocated e (s.envs c).envId d pm).envs e =
        freshEnv (s.envs e) e (s.envs c).envId d := Function.update_self ..
    refine hall.setEnv ?_ ?_ ?_ ?_
    · rw [hself]
      rfl
    · rw [hself]
      rfl
    · rw [hself]
      exact ⟨fun hc => (by cases hc), fun hc => (by cases hc)⟩
    · intro k _ hk
      exact absurd hfree (h.ne_free hk)
  | status e st hno he hst =>
    have hel := hg.status hno e he (by rw [hst]; simp)
    refine hin.setEnv rfl rfl ?_ (fun k hk hk' => absurd (congrArg some (hel k hk')).symm hk)
    rcases settableStatus_some hst with rfl | rfl <;>
    exact ⟨fun hc => (by cases hc), fun hc => absurd hc (hlive he)⟩
  | frame e tf pm hno he htf =>
    exact (hin.withPm pm).setEnv rfl rfl Iff.rfl (fun k hk hj => hin.settled k e hk hj)
  | upcall e hno he => exact hin.setEnv rfl rfl Iff.rfl (fun k hk hj => hin.settled k e hk hj)
  | sent e pm hno he hrecv =>
    have hel := hg.send hno e he hrecv
    refine (hin.withPm pm).setEnv rfl rfl ?_
      (fun k hk hk' => absurd (congrArg some (hel k hk')).symm hk)
    exact ⟨fun hc => (by cases hc), fun hc => absurd hc (hlive he)⟩
  | unsent e pm hno he hrecv =>
    exact (hin.withPm pm).setEnv rfl rfl Iff.rfl (fun k hk hj => hin.settled k e hk hj)

/-- `sys_ipc_recv` blocks the environment that called it. -/
lemma blocked (h : EnvsIn none s) (hc : (s.cpus cpu).cpuEnv = some c) (dstva : Word) :
    EnvsIn (some cpu) (s.setEnv c ((s.envs c).blocked dstva)) := by
  refine (h.busy_of_none (some cpu)).setEnv rfl rfl ?_ ?_
  · exact ⟨fun hc => (by cases hc), fun hf => absurd hf (h.ne_free hc)⟩
  · exact fun k hk hk' => absurd (by rw [h.inj k cpu c hk' hc]) hk

lemma left (h : EnvsIn none s) (hc : (s.cpus cpu).cpuEnv = some c)
    (hl : Left s cpu c call t) : EnvsIn none t := by
  have hin := h.busy_of_none (some cpu)
  cases hl with
  | destroyed pm₀ pm t hno hd =>
    exact ((hin.withPm pm₀).freed_vacated hc (Or.inr rfl) pm).dispatch hd
  | yielded t hno hd => exact hin.dispatch hd
  | blocked t hno hva hd => exact (h.blocked hc call.a1).dispatch hd

/-- A trap keeps the environments in order if its system call passes the guard. -/
theorem trapped {tf : Trapframe} (h : EnvsIn none s) (hc : (s.cpus cpu).cpuEnv = some c)
    (hg : (s.envs c).envStatus ≠ .dying → tf.tfTrapno = tSyscall →
      CpuGuard (s.entered c tf) cpu c tf.call)
    (ht : Trapped s cpu c tf t) : EnvsIn none t := by
  have hent : EnvsIn none (s.entered c tf) := h.entered tf
  have hin := hent.busy_of_none (some cpu)
  have hcur : ((s.entered c tf).cpus cpu).cpuEnv = some c := hc
  cases ht with
  | reaped pm t hst hd =>
    exact ((h.busy_of_none (some cpu)).freed_vacated hc (Or.inr rfl) pm).dispatch hd
  | returned r u t hst hno hu ht =>
    exact ((hent.returned hcur (hg hst hno) hu).setEax r).resume ht
  | left t hst hno ht => exact hent.left hcur ht
  | upcall d pm hst hno hd =>
    have hup : EnvsIn (some cpu)
        ((s.entered c tf).upcalled c (utrapframeAt tf.tfEsp).1 pm) :=
      (hin.withPm pm).setEnv rfl rfl Iff.rfl (fun k hk hj => hin.settled k c hk hj)
    refine hup.ran ?_ (hup.notElsewhere hcur)
    unfold Kernel.upcalled Kernel.entered
    rw [Kernel.setEnv_envs_self, Kernel.setEnv_envs_self]
    exact hd
  | destroyed pm₀ pm t hst hno hd =>
    exact ((hin.withPm pm₀).freed_vacated hcur (Or.inr rfl) pm).dispatch hd
  | ignored t hst hno ht => exact hin.resume ht
  | timer t hst hno hd => exact hin.dispatch hd

/-! ### Boot -/

lemma boot (B : Boot) : EnvsIn none (Kernel.boot B) := by
  refine ⟨?_, ?_, ?_, ?_, ?_⟩
  · obtain ⟨l, hlinked, hnd, hmem⟩ := exists_linked_fin 1024 (by decide)
    exact ⟨l, hlinked, hnd, fun e => iff_of_true (hmem e) rfl⟩
  · exact fun e => ⟨fun _ => rfl, fun _ => rfl⟩
  · intro k k' e hk
    cases hk
  · intro k e hk
    cases hk
  · intro k e _ hk
    cases hk

end EnvsIn

end SistemasOperativos.Kern
