import SistemasOperativos.Library.RoundRobin
import SistemasOperativos.Kern.Processors
import SistemasOperativos.Kern.Names

/-!
# Round-robin scheduling

`sched_yield` means to search from just behind the environment that the processor last ran. It
takes that place from `curenv`, which is `NULL` after the environment has destroyed itself, and
then searches from slot 0.
-/

namespace SistemasOperativos.Kern

open Library

/-- The environment that processor `cpu` last ran. -/
def lastRan (cpu : Cpu) (h : List (Move Kernel Event)) : Option EnvIdx :=
  h.foldl (fun last m => (m.post.cpus cpu).cpuEnv.or last) none

/-- The slot just behind that environment. -/
def behind : Option EnvIdx → ℕ
  | some l => l + 1
  | none => 0

/-- The kernel calls `sched_yield` in state `u` during the step from `s` to `t`. -/
inductive Yields (s : Kernel) : Event → Kernel → Kernel → Prop
  | trap {cpu : Cpu} {c : EnvIdx} {tf : Trapframe} {cr2 cons : Word} {u t : Kernel}
      (hc : (s.cpus cpu).cpuEnv = some c) (he : Effect s cpu c tf u)
      (hy : tf.tfTrapno = irqOffset + irqTimer ∨
        (tf.tfTrapno = tSyscall ∧ tf.call.no.toNat = 11) ∨
        ∀ e, (u.cpus cpu).cpuEnv = some e → (u.envs e).envStatus ≠ .running)
      (hd : Dispatch u cpu t) : Yields s (.trap cpu tf cr2 cons) u t
  | wake {cpu : Cpu} {t : Kernel} (hidle : (s.cpus cpu).cpuEnv = none) (hd : Dispatch s cpu t) :
      Yields s (.wake cpu) s t

def Runnable (s : Kernel) (e : EnvIdx) : Prop := (s.envs e).envStatus = .runnable

/-- `sched_yield` selects `e` in the step. -/
def Selects (cpu : Cpu) (m : Move Kernel Event) (e : EnvIdx) : Prop :=
  (∃ u, Yields m.pre m.label u m.post) ∧ (m.post.cpus cpu).cpuEnv = some e

/-- The order in which the environments get the processor. -/
structure FairOk (cpu : Cpu) (h : List (Move Kernel Event)) : Prop where
  /-- the first runnable environment behind the one that ran last is selected -/
  first : ∀ h₁ m h₂ u j, h = h₁ ++ m :: h₂ → Yields m.pre m.label u m.post →
    Nearest (Runnable u) (behind (lastRan cpu h₁)) j → (m.post.cpus cpu).cpuEnv = some j
  /-- no environment is selected twice while another one is runnable at every call -/
  fair : ∀ h₁ m₁ h₂ m₂ h₃ x y, h = h₁ ++ m₁ :: (h₂ ++ m₂ :: h₃) → Selects cpu m₁ y →
    Selects cpu m₂ y → x ≠ y →
    (∀ m ∈ h₂ ++ [m₂], ∀ u, Yields m.pre m.label u m.post → Runnable u x) →
    ∃ m ∈ h₂, Selects cpu m x

/-- When no environment is current, the runnable ones are all up to the one that ran last, or
all behind it. -/
def OneSide (cpu : Cpu) (h : List (Move Kernel Event)) (u : Kernel) : Prop :=
  (u.cpus cpu).cpuEnv = none → ∀ l, lastRan cpu h = some l →
    ∀ i j, Runnable u i → Runnable u j → (i ≤ l ↔ j ≤ l)

variable {B : Boot} {s t u : Kernel} {cpu : Cpu} {c e : EnvIdx} {tf : Trapframe} {ev : Event}
  {h : List (Move Kernel Event)}

@[simp] lemma lastRan_concat (cpu : Cpu) (h : List (Move Kernel Event)) (m : Move Kernel Event) :
    lastRan cpu (h ++ [m]) = (m.post.cpus cpu).cpuEnv.or (lastRan cpu h) := by
  unfold lastRan
  rw [List.foldl_append]
  rfl

/-! ### The search -/

/-- The loop of `sched_yield` finds the nearest runnable environment. -/
lemma firstRunnable_iff {envs : EnvIdx → Env} {k : ℕ} {j : EnvIdx} :
    firstRunnable envs k = some j ↔ Nearest (fun i => (envs i).envStatus = .runnable) k j := by
  have hcirc : ∀ i : EnvIdx, circular k (ahead k i) = i :=
    fun i => Fin.ext (add_ahead k i)
  unfold firstRunnable
  rw [List.find?_map, Option.map_eq_some_iff]
  constructor
  · rintro ⟨d, hd, rfl⟩
    obtain ⟨hst, hlt, hbefore⟩ := List.find?_range_eq_some.mp hd
    have hlt' : d < 1024 := List.mem_range.mp hlt
    have hd' : ahead k (circular k d) = d := ahead_eq hlt' rfl
    refine ⟨by simpa using hst, fun i hi => ?_⟩
    rw [hd']
    by_contra hless
    have hno := hbefore _ (not_le.mp hless)
    simp [hcirc, hi] at hno
  · intro hj
    refine ⟨ahead k j, List.find?_range_eq_some.mpr ⟨?_, ?_, ?_⟩, hcirc j⟩
    · simpa [hcirc] using hj.holds
    · exact List.mem_range.mpr (ahead_lt k j)
    · intro d hd
      have hlt : d < 1024 := hd.trans (ahead_lt k j)
      have hd' : ahead k (circular k d) = d := ahead_eq hlt rfl
      by_contra hrun
      have hle := hj.least (circular k d) (by simpa using hrun)
      omega

lemma ran_current (s : Kernel) (cpu : Cpu) (j : EnvIdx) (d : ℕ) :
    ((s.ran cpu j d).cpus cpu).cpuEnv = some j := by
  have hcpu : (s.ran cpu j d).cpus cpu = ⟨some j, d⟩ := Function.update_self ..
  rw [hcpu]

lemma vacated_current (s : Kernel) (cpu : Cpu) : ((s.vacated cpu).cpus cpu).cpuEnv = none := by
  have hcpu : (s.vacated cpu).cpus cpu = { s.cpus cpu with cpuEnv := none } :=
    Function.update_self ..
  rw [hcpu]

lemma Dispatch.selected {j : EnvIdx} (hd : Dispatch u cpu t)
    (hj : Nearest (Runnable u) (u.yieldFrom cpu) j) : (t.cpus cpu).cpuEnv = some j := by
  have hfirst : firstRunnable u.envs (u.yieldFrom cpu) = some j := firstRunnable_iff.mpr hj
  cases hd with
  | next i d hi hst hd =>
    obtain rfl := Option.some.inj (hi.symm.trans hfirst)
    exact ran_current u cpu i d
  | again i d hnone => rw [hnone] at hfirst; cases hfirst
  | halt hnone => rw [hnone] at hfirst; cases hfirst

/-! ### Where it starts -/

/-- A trap leaves `curenv` as it is, or sets it to `NULL` when the environment is destroyed. -/
lemma Effect.current (hc : (s.cpus cpu).cpuEnv = some c) (he : Effect s cpu c tf u) :
    ((u.cpus cpu).cpuEnv = none ∧ ((s.envs c).envStatus ≠ .dying → tf.tfTrapno = tSyscall →
      tf.call.no.toNat = 0 ∨ tf.call.no.toNat = 3)) ∨ (u.cpus cpu).cpuEnv = some c := by
  cases he with
  | reaped pm hst => exact Or.inl ⟨vacated_current _ cpu, fun hlive => absurd hst hlive⟩
  | destroyed pm₀ pm _ hcall => exact Or.inl ⟨vacated_current _ cpu, fun _ => hcall⟩
  | entered => exact Or.inr hc
  | upcalled pm => exact Or.inr hc
  | blocked => exact Or.inr hc
  | returned r u hst htrap hu =>
    right
    cases hu with
    | freed e pm hno he hne hrun =>
      show (((s.entered c tf).freedCpus cpu e) cpu).cpuEnv = some c
      unfold Kernel.freedCpus
      rw [if_neg hne]
      exact hc
    | _ => exact hc

/-- The other processors go on. -/
lemma Effect.others {k : Cpu} (hk : k ≠ cpu) (he : Effect s cpu c tf u) : u.cpus k = s.cpus k := by
  have hfreed : ∀ (v : Kernel) e, v.freedCpus cpu e k = v.cpus k := by
    intro v e
    unfold Kernel.freedCpus
    split
    · exact Function.update_of_ne hk _ _
    · rfl
  have hvacated : ∀ v : Kernel, (v.vacated cpu).cpus k = v.cpus k :=
    fun v => Function.update_of_ne hk _ _
  cases he with
  | reaped pm => exact (hvacated _).trans (hfreed s c)
  | destroyed pm₀ pm => exact (hvacated _).trans (hfreed { s.entered c tf with pm := pm₀ } c)
  | returned r u hst htrap hu =>
    cases hu with
    | freed e pm => exact hfreed (s.entered c tf) e
    | _ => rfl
  | _ => rfl

/-- `sched_yield` searches from behind the current environment, or from slot 0. -/
lemma Effect.yieldFrom (hE : EnvsIn none s) (hI : IdsIn s) (hc : (s.cpus cpu).cpuEnv = some c)
    (he : Effect s cpu c tf u) :
    ((u.cpus cpu).cpuEnv = none ∧ u.yieldFrom cpu = 0) ∨ u.yieldFrom cpu = c + 1 := by
  unfold Kernel.yieldFrom
  rcases he.current hc with ⟨hnone, -⟩ | hcur
  · rw [hnone]
    exact Or.inl ⟨rfl, rfl⟩
  · right
    have hid : (u.envs c).envId = (s.envs c).envId := by
      rcases he.names hE c with hn | ⟨hfree, -⟩
      · exact congrArg Prod.fst hn
      · exact absurd hfree (hE.ne_free hc)
    rw [hcur]
    dsimp only
    rw [hid, (hI c (hE.ne_free hc)).1]

/-! ### When it is called -/

/-- A trap that is neither a system call nor the timer calls `sched_yield` or goes back to the
environment. -/
lemma trap_unscheduled (hc : (s.cpus cpu).cpuEnv = some c)
    (cr2 cons : Word) (hsys : tf.tfTrapno ≠ tSyscall)
    (htimer : tf.tfTrapno ≠ irqOffset + irqTimer) :
    Sat (trap cpu tf cr2 cons) s (fun _ _ => False)
      (fun ex t => ex = .leave → (∃ u, Yields s (.trap cpu tf cr2 cons) u t) ∨
        (t.cpus cpu).cpuEnv = some c) := by
  have hcur : (Kernel.cpus (s.entered c tf) cpu).cpuEnv = some c := hc
  have hvacated : ∀ v : Kernel, ∀ e, ((v.vacated cpu).cpus cpu).cpuEnv = some e →
      ((v.vacated cpu).envs e).envStatus ≠ .running := by
    intro v e he
    rw [vacated_current] at he
    cases he
  have hcall : ∀ {P : Prop}, tf.tfTrapno = tSyscall → P := fun h => absurd h hsys
  unfold trap
  simp only [sat_bind, sat_curenv hc, sat_get, sat_ite]
  refine ⟨fun hst => ?_, fun hst => ?_⟩
  · refine (envFree_rule s cpu c).mono ?_ (fun ex _ hex hl => absurd hl hex)
    rintro - t ⟨-, pm, rfl⟩
    unfold setCurenv
    rw [sat_modify]
    refine (schedYield_rule _ cpu).mono (fun _ _ h => h.elim) ?_
    rintro ex t (⟨-, hd⟩ | rfl | ⟨rfl, -⟩) hl
    · exact Or.inl ⟨_, .trap hc (.reaped pm hst) (Or.inr (Or.inr (hvacated _))) hd⟩
    · cases hl
    · cases hl
  have hreturn : Sat (trapReturn cpu) (s.entered c tf) (fun _ _ => False)
      (fun ex t => ex = .leave → (∃ u, Yields s (.trap cpu tf cr2 cons) u t) ∨
        (t.cpus cpu).cpuEnv = some c) := by
    refine (trapReturn_rule _ cpu).mono (fun _ _ h => h) ?_
    intro ex t ht hl
    cases ht hl with
    | back j d hj hrun hd =>
      obtain rfl := Option.some.inj (hj.symm.trans hcur)
      exact Or.inr (ran_current _ cpu _ _)
    | yield t hrun hd =>
      exact Or.inl ⟨_, .trap hc (.entered hst hcall) (Or.inr (Or.inr hrun)) hd⟩
  have hdestroyed : ∀ {t} pm₀ pm,
      Dispatch (({ s.entered c tf with pm := pm₀ }.freed cpu c pm).vacated cpu) cpu t →
      (∃ u, Yields s (.trap cpu tf cr2 cons) u t) ∨ (t.cpus cpu).cpuEnv = some c :=
    fun pm₀ pm hd => Or.inl ⟨_, .trap hc (.destroyed pm₀ pm hst hcall) (Or.inr (Or.inr (hvacated _))) hd⟩
  have htf : ((s.entered c tf).envs c).envTf = tf := by
    unfold Kernel.entered
    rw [Kernel.setEnv_envs_self]
  unfold modifyEnv
  rw [sat_modify]
  change Sat _ (s.entered c tf) _ _
  unfold trapDispatch
  simp only [sat_bind, sat_curenv hcur, sat_get, htf, sat_ite, sat_pure]
  refine ⟨fun _ => hreturn, fun _ => ⟨fun hpf => ?_, fun _ => ⟨hcall, fun _ =>
    ⟨fun _ => hreturn, fun _ => ⟨fun h => absurd h htimer, fun _ => ⟨fun _ => hreturn, fun _ =>
      ⟨fun _ => hreturn, fun _ => ?_⟩⟩⟩⟩⟩⟩⟩
  · refine (pageFaultHandler_rule hcur cr2).mono (fun _ _ h => h.elim) ?_
    intro ex t hl hex
    rcases hl hex with ⟨d, pm, hd, rfl⟩ | ⟨pm₀, pm, hd⟩
    · exact Or.inr (ran_current _ cpu _ _)
    · exact hdestroyed pm₀ pm hd
  · refine (envDestroy_rule _ cpu c).mono (fun _ _ h => absurd hcur h.1) ?_
    intro ex t hl hex
    obtain ⟨-, pm, hd⟩ := hl hex
    exact hdestroyed (s.entered c tf).pm pm hd

/-- A step calls `sched_yield` or leaves the environment that runs where it is. -/
theorem Step.scheduled (hst : Step s ev t) :
    (∃ u, Yields s ev u t) ∨
      ((t.cpus ev.cpu).cpuEnv = (s.cpus ev.cpu).cpuEnv ∧ (s.cpus ev.cpu).cpuEnv ≠ none) := by
  cases hst with
  | touch huser => exact Or.inr ⟨rfl, huser⟩
  | store huser => exact Or.inr ⟨rfl, huser⟩
  | @wake cpu _ hidle ht =>
    rcases (schedYield_rule s cpu).of_error ht with ⟨-, hd⟩ | hc | ⟨hc, -⟩
    · exact Or.inl ⟨s, .wake hidle hd⟩
    · cases hc
    · cases hc
  | @trap cpu tf cr2 cons _ huser hcs ht =>
    obtain ⟨c, hc⟩ := Option.ne_none_iff_exists'.mp huser
    have hstay : (t.cpus cpu).cpuEnv = some c →
        (t.cpus cpu).cpuEnv = (s.cpus cpu).cpuEnv ∧ (s.cpus cpu).cpuEnv ≠ none :=
      fun h => ⟨h.trans hc.symm, huser⟩
    have hvacated : ∀ v : Kernel, ∀ e, ((v.vacated cpu).cpus cpu).cpuEnv = some e →
        ((v.vacated cpu).envs e).envStatus ≠ .running := by
      intro v e he
      rw [vacated_current] at he
      cases he
    have hresume : ∀ {u}, Effect s cpu c tf u → Resume u cpu t →
        (∃ u, Yields s (.trap cpu tf cr2 cons) u t) ∨ (t.cpus cpu).cpuEnv = some c := by
      intro u he hr
      cases hr with
      | back j d hj hrun hd =>
        rcases he.current hc with ⟨hnone, -⟩ | hcur
        · rw [hnone] at hj
          cases hj
        · obtain rfl := Option.some.inj (hj.symm.trans hcur)
          exact Or.inr (ran_current u cpu _ d)
      | yield t hrun hd => exact Or.inl ⟨u, .trap hc he (Or.inr (Or.inr hrun)) hd⟩
    suffices h : (∃ u, Yields s (.trap cpu tf cr2 cons) u t) ∨ (t.cpus cpu).cpuEnv = some c from
      h.imp id hstay
    by_cases hquiet : tf.tfTrapno ≠ tSyscall ∧ tf.tfTrapno ≠ irqOffset + irqTimer
    · exact (trap_unscheduled hc cr2 cons hquiet.1 hquiet.2).of_error ht rfl
    cases (trap_rule hc tf cr2 cons).of_error ht rfl with
    | reaped pm t hdy hd =>
      exact Or.inl ⟨_, .trap hc (.reaped pm hdy) (Or.inr (Or.inr (hvacated _))) hd⟩
    | returned r u t hlive hno hu hr => exact hresume (.returned r u hlive hno hu) hr
    | left t hlive hno hl =>
      cases hl with
      | destroyed pm₀ pm t hno' hd =>
        exact Or.inl ⟨_, .trap hc (.destroyed pm₀ pm hlive (fun _ => hno'.imp id (fun h => h.1)))
          (Or.inr (Or.inr (hvacated _))) hd⟩
      | yielded t hno' hd =>
        exact Or.inl ⟨_, .trap hc (.entered hlive (fun _ => hno')) (Or.inr (Or.inl ⟨hno, hno'⟩)) hd⟩
      | blocked t hno' hva hd =>
        refine Or.inl ⟨_, .trap hc (.blocked hlive hno hno' hva) (Or.inr (Or.inr ?_)) hd⟩
        intro e he
        obtain rfl : c = e := Option.some.inj (hc.symm.trans he)
        rw [Kernel.setEnv_envs_self]
        exact fun hc => by cases hc
    | upcall d pm hlive hno hd => exact Or.inr (ran_current _ cpu c d)
    | destroyed pm₀ pm t hlive hno hd =>
      exact Or.inl ⟨_, .trap hc (.destroyed pm₀ pm hlive (fun h => absurd h hno))
        (Or.inr (Or.inr (hvacated _))) hd⟩
    | ignored t hlive hno hr => exact hresume (.entered hlive (fun h => absurd h hno)) hr
    | timer t hlive hno hd =>
      have htimer : tf.tfTrapno = irqOffset + irqTimer := by
        by_contra hne
        exact hquiet ⟨hno, hne⟩
      exact Or.inl ⟨_, .trap hc (.entered hlive (fun h => absurd h hno)) (Or.inl htimer) hd⟩

/-! ### One processor -/

/-- What holds in a run on processor `cpu` alone. -/
structure SchedIn (cpu : Cpu) (h : List (Move Kernel Event)) (s : Kernel) : Prop where
  envs : EnvsIn none s
  ids : IdsIn s
  alone : ∀ k, k ≠ cpu → (s.cpus k).cpuEnv = none
  last : ∀ c, (s.cpus cpu).cpuEnv = some c → lastRan cpu h = some c

/-- On one processor no environment runs elsewhere. -/
lemma cpuEvent_of_alone (halone : ∀ k, k ≠ cpu → (s.cpus k).cpuEnv = none) (hev : ev.cpu = cpu) :
    CpuEvent s ev := by
  have hno : ∀ e, NotElsewhere s cpu e := by
    intro e k hk
    by_contra hne
    rw [halone k hne] at hk
    cases hk
  cases ev with
  | trap k tf =>
    obtain rfl : k = cpu := hev
    exact fun c hc hst htrap => ⟨fun _ e _ _ => hno e, fun _ e _ _ => hno e, fun _ e _ _ => hno e⟩
  | _ => trivial

lemma SchedIn.step (hs : SchedIn cpu h s) (hst : Step s ev t) (hev : ev.cpu = cpu) :
    SchedIn cpu (h ++ [⟨s, ev, t⟩]) t := by
  have hE := hs.envs.step hst (cpuEvent_of_alone hs.alone hev)
  have ho := hst.outcome hs.envs
  refine ⟨hE, hs.ids.step hs.envs ho, ?_, ?_⟩
  · intro k hk
    have hsame : t.cpus k = s.cpus k := by
      cases ho with
      | trap hc hcs he hsw =>
        obtain rfl := hev
        exact (hsw.others k hk).trans (he.others hk)
      | wake hidle hsw =>
        obtain rfl := hev
        exact hsw.others k hk
      | user pm => rfl
    rw [hsame]
    exact hs.alone k hk
  · intro c hc
    rw [lastRan_concat]
    dsimp only
    rw [hc]
    rfl

lemma schedIn_of_run (hr : Runs B h s) (hone : ∀ m ∈ h, m.label.cpu = cpu) :
    SchedIn cpu h s := by
  apply hr.induct (G := fun _ ev => ev.cpu = cpu) hone (SchedIn cpu)
  · intro s hs
    refine ⟨hs.ok.envs, hs.ids, fun k _ => hs.ok.idle k, fun c hc => ?_⟩
    rw [hs.ok.idle] at hc
    cases hc
  · intro h s ev t hs hev hst
    exact hs.step hst hev

/-! ### The order -/

/-- `sched_yield` searches from where it should, or from slot 0 with no current environment. -/
lemma SchedIn.yieldFrom (hs : SchedIn cpu h s) (hy : Yields s ev u t) (hev : ev.cpu = cpu) :
    u.yieldFrom cpu = behind (lastRan cpu h) ∨
      ((u.cpus cpu).cpuEnv = none ∧ u.yieldFrom cpu = 0) := by
  cases hy with
  | trap hc he hy hd =>
    obtain rfl := hev
    rcases he.yieldFrom hs.envs hs.ids hc with hnone | hnext
    · exact Or.inr hnone
    · rw [hs.last _ hc]
      exact Or.inl hnext
  | @wake k _ hidle hd =>
    obtain rfl : k = cpu := hev
    unfold Kernel.yieldFrom
    rw [hidle]
    exact Or.inr ⟨rfl, rfl⟩

lemma Yields.dispatch (hy : Yields s ev u t) : Dispatch u ev.cpu t := by
  cases hy with
  | trap hc he hy hd => exact hd
  | wake hidle hd => exact hd

lemma Yields.current (hy : Yields s ev u t) (hc : (s.cpus ev.cpu).cpuEnv = some c) :
    (u.cpus ev.cpu).cpuEnv = none ∨ (u.cpus ev.cpu).cpuEnv = some c := by
  cases hy with
  | trap hc' he hy hd =>
    obtain rfl := Option.some.inj (hc.symm.trans hc')
    exact (he.current hc).imp_left And.left
  | wake hidle hd => exact Or.inl hidle

/-- An environment that is not current and runnable afterwards was runnable. -/
lemma Dispatch.runnable_of {j : EnvIdx} (hd : Dispatch u cpu t)
    (hcur : (u.cpus cpu).cpuEnv ≠ some j) (hj : Runnable t j) : Runnable u j := by
  have hran : ∀ i d, t = u.ran cpu i d → Runnable u j := by
    rintro i d rfl
    obtain ⟨runs, cpunum, henv⟩ := ran_envs u cpu i d j
    unfold Runnable at hj ⊢
    rw [henv] at hj
    dsimp only at hj
    split at hj
    · cases hj
    · rw [if_neg (fun hc => hcur hc.1)] at hj
      exact hj
  cases hd with
  | next i d => exact hran i d rfl
  | again i d => exact hran i d rfl
  | halt => exact hj

lemma behind_le (o : Option EnvIdx) : behind o ≤ 1024 := by
  cases o with
  | none => exact Nat.zero_le _
  | some l => exact l.isLt

/-- With the runnable environments on one side the right one is selected. -/
lemma SchedIn.selected {j : EnvIdx} (hs : SchedIn cpu h s) (hy : Yields s ev u t)
    (hev : ev.cpu = cpu) (hside : OneSide cpu h u)
    (hj : Nearest (Runnable u) (behind (lastRan cpu h)) j) : (t.cpus cpu).cpuEnv = some j := by
  have hd : Dispatch u cpu t := hev ▸ hy.dispatch
  apply hd.selected
  rcases hs.yieldFrom hy hev with hfrom | ⟨hnone, hfrom⟩
  · rw [hfrom]
    exact hj
  · rw [hfrom]
    apply hj.of_side (behind_le _)
    intro i i' hi hi' hlt
    cases hl : lastRan cpu h with
    | none =>
      rw [hl] at hlt
      exact absurd hlt (Nat.not_lt_zero _)
    | some l =>
      rw [hl] at hlt
      exact Nat.lt_succ_of_le ((hside hnone l hl i i' hi hi').mp (Nat.le_of_lt_succ hlt))

/-- Where the right one is selected, the runnable environments are on one side. -/
lemma Yields.oneSide (hy : Yields s ev u t) (hev : ev.cpu = cpu)
    (hfirst : ∀ j, Nearest (Runnable u) (behind (lastRan cpu h)) j →
      (t.cpus cpu).cpuEnv = some j) : OneSide cpu h u := by
  intro hnone l hl i i' hi hi'
  have hd : Dispatch u cpu t := hev ▸ hy.dispatch
  have hfrom : u.yieldFrom cpu = 0 := by
    unfold Kernel.yieldFrom
    rw [hnone]
  obtain ⟨j, hj⟩ := Nearest.exists_of hi (behind (lastRan cpu h))
  obtain ⟨j', hj'⟩ := Nearest.exists_of hi 0
  have hsame : j = j' := by
    have hsel := hd.selected (hfrom ▸ hj')
    exact Option.some.inj ((hfirst j hj).symm.trans hsel)
  subst hsame
  rw [hl] at hj
  have hle : behind (some l) ≤ 1024 := behind_le _
  constructor
  · intro hil
    exact Nat.le_of_lt_succ (hj'.side hj hle hi hi' (Nat.lt_succ_of_le hil))
  · intro hil
    exact Nat.le_of_lt_succ (hj'.side hj hle hi' hi (Nat.lt_succ_of_le hil))

/-- One step does not bring the search past an environment that is runnable and not selected. -/
lemma SchedIn.passed {x : EnvIdx} {k : ℕ} (hs : SchedIn cpu h s) (hst : Step s ev t)
    (hev : ev.cpu = cpu)
    (hfirst : ∀ u j, Yields s ev u t → Nearest (Runnable u) (behind (lastRan cpu h)) j →
      (t.cpus cpu).cpuEnv = some j)
    (hrun : ∀ u, Yields s ev u t → Runnable u x) (hno : ¬ Selects cpu ⟨s, ev, t⟩ x)
    (hk : Passed x k (behind (lastRan cpu h))) :
    Passed x k (behind (lastRan cpu (h ++ [⟨s, ev, t⟩]))) := by
  rw [lastRan_concat]
  dsimp only
  rcases hst.scheduled with ⟨u, hy⟩ | ⟨hsame, hcur⟩
  · obtain ⟨j, hj⟩ := Nearest.exists_of (hrun u hy) (behind (lastRan cpu h))
    have hsel := hfirst u j hy hj
    rw [hsel]
    exact hk.turn hj (hrun u hy) (fun hjx => hno ⟨⟨u, hy⟩, hjx ▸ hsel⟩)
  · rw [hev] at hsame hcur
    obtain ⟨c, hc⟩ := Option.ne_none_iff_exists'.mp hcur
    rw [hsame, hc]
    rw [hs.last c hc] at hk
    exact hk

/-- In a run on one processor the environments take turns exactly when, at every call of
`sched_yield` without a current environment, the runnable ones are on one side of the one that
ran last. -/
theorem fair_iff (hr : Runs B h s) (hone : ∀ m ∈ h, m.label.cpu = cpu) :
    FairOk cpu h ↔ ∀ h₁ m h₂ u, h = h₁ ++ m :: h₂ → Yields m.pre m.label u m.post →
      OneSide cpu h₁ u := by
  have hin : ∀ {h₁ m h₂}, h = h₁ ++ m :: h₂ → SchedIn cpu h₁ m.pre ∧
      Step m.pre m.label m.post ∧ m.label.cpu = cpu := by
    rintro h₁ m h₂ rfl
    obtain ⟨hpre, hst⟩ := Run.split hr
    exact ⟨schedIn_of_run hpre (fun x hx => hone x (by simp [hx])), hst, hone m (by simp)⟩
  constructor
  · intro hf h₁ m h₂ u heq hy
    obtain ⟨-, -, hcpu⟩ := hin heq
    exact hy.oneSide hcpu (fun j hj => hf.first h₁ m h₂ u j heq hy hj)
  · intro hside
    have hfirst : ∀ h₁ m h₂ u j, h = h₁ ++ m :: h₂ → Yields m.pre m.label u m.post →
        Nearest (Runnable u) (behind (lastRan cpu h₁)) j → (m.post.cpus cpu).cpuEnv = some j := by
      intro h₁ m h₂ u j heq hy hj
      obtain ⟨hs, -, hcpu⟩ := hin heq
      exact hs.selected hy hcpu (hside h₁ m h₂ u heq hy) hj
    refine ⟨hfirst, ?_⟩
    intro h₁ m₁ h₂ m₂ h₃ x y heq hy₁ hy₂ hxy hrun
    by_contra hnone
    -- the search starts behind `y` and does not get past `x`
    have hpassed : ∀ l l', h₂ = l ++ l' →
        Passed x (y + 1) (behind (lastRan cpu (h₁ ++ m₁ :: l))) := by
      intro l
      induction l using List.reverseRecOn with
      | nil =>
        intro l' _
        rw [lastRan_concat, hy₁.2]
        exact .start
      | append_singleton l m ih =>
        intro l' hl
        have hpre := ih (m :: l') (by simp [hl])
        have heq' : h = (h₁ ++ m₁ :: l) ++ m :: (l' ++ m₂ :: h₃) := by simp [heq, hl]
        obtain ⟨hs, hst, hcpu⟩ := hin heq'
        have hm : m ∈ h₂ := by simp [hl]
        have hstep := hs.passed hst hcpu (fun u j hy hj => hfirst _ m _ u j heq' hy hj)
          (hrun m (by simp [hm])) (fun hsel => hnone ⟨m, hm, hsel⟩) hpre
        rw [List.append_assoc, List.cons_append] at hstep
        exact hstep
    have hbehind := hpassed h₂ [] (by simp)
    have heq' : h = (h₁ ++ m₁ :: h₂) ++ m₂ :: h₃ := by simp [heq]
    obtain ⟨⟨u, hyu⟩, hcur⟩ := hy₂
    have hx := hrun m₂ (by simp) u hyu
    obtain ⟨j, hj⟩ := Nearest.exists_of hx (behind (lastRan cpu (h₁ ++ m₁ :: h₂)))
    have hsel := hfirst _ m₂ h₃ u j heq' hyu hj
    obtain rfl := Option.some.inj (hsel.symm.trans hcur)
    exact hxy (hbehind.not_again hj hx).symm

/-- An environment just behind the one that ran is passed over. -/
lemma overtaken {i j : EnvIdx} (hr : Runs B (h ++ [⟨s, ev, t⟩]) t)
    (hone : ∀ m ∈ h ++ [⟨s, ev, t⟩], m.label.cpu = cpu) (hc : (s.cpus cpu).cpuEnv = some c)
    (hi : (t.cpus cpu).cpuEnv = some i) (hic : i ≠ c) (hjc : j.val = c + 1 ∧ i ≠ j)
    (hj : Runnable t j) : ¬ FairOk cpu (h ++ [⟨s, ev, t⟩]) := by
  intro hf
  obtain ⟨hpre, hst, -⟩ := hr.last
  have hs : SchedIn cpu h s := schedIn_of_run hpre (fun x hx => hone x (by simp [hx]))
  have hcpu : ev.cpu = cpu := hone ⟨s, ev, t⟩ (by simp)
  rcases hst.scheduled with ⟨u, hy⟩ | ⟨hsame, -⟩
  · have hcur : (u.cpus cpu).cpuEnv ≠ some j := by
      intro huj
      have hor := hy.current (hcpu.symm ▸ hc)
      rw [hcpu, huj] at hor
      rcases hor with hnone | hsame
      · cases hnone
      · have hval := congrArg Fin.val (Option.some.inj hsame)
        omega
    have hd : Dispatch u cpu t := hcpu ▸ hy.dispatch
    have hnear : Nearest (Runnable u) (behind (lastRan cpu h)) j := by
      refine ⟨hd.runnable_of hcur hj, fun k _ => ?_⟩
      rw [hs.last c hc]
      show ahead (c + 1) j ≤ _
      rw [ahead_of_le (by omega)]
      omega
    have hsel := hf.first h ⟨s, ev, t⟩ [] u j rfl hy hnear
    exact hjc.2 (Option.some.inj (hi.symm.trans hsel))
  · rw [hcpu, hi, hc] at hsame
    exact hic (Option.some.inj hsame)

/-! ### Three environments -/

/-- The parent makes a second child. -/
def smallSecond : Kernel := after (trap 0 (callFrame 7 0 0 0 0 0) 0 0) smallChild

def smallThree : Kernel := after (trap 0 (callFrame 8 0x1002 2 0 0 0) 0 0) smallSecond

/-- It yields to its first child. -/
def smallTurn : Kernel := after (trap 0 (callFrame 11 0 0 0 0 0) 0 0) smallThree

/-- The children yield in turn. -/
def smallNext : Kernel := after (trap 0 (callFrame 11 0 0 0 0 0) 0 0) smallTurn

def smallRound : Kernel := after (trap 0 (callFrame 11 0 0 0 0 0) 0 0) smallNext

/-- The first child destroys itself. -/
def smallLeft : Kernel := after (trap 0 (callFrame 3 0 0 0 0 0) 0 0) smallTurn

/-- Only processor 0 steps, and whenever no environment is current the runnable ones are on one side. -/
structure Alone (h : List (Move Kernel Event)) : Prop where
  cpu : ∀ m ∈ h, m.label.cpu = 0
  sides : ∀ h₁ m h₂ u, h = h₁ ++ m :: h₂ → Yields m.pre m.label u m.post → OneSide 0 h₁ u

lemma Alone.next (ha : Alone h) (hcpu : ev.cpu = 0) (hside : ∀ u, Yields s ev u t → OneSide 0 h u) :
    Alone (h ++ [⟨s, ev, t⟩]) := by
  constructor
  · intro m hm
    rcases List.mem_append.mp hm with hm | hm
    · exact ha.cpu m hm
    · obtain rfl := List.mem_singleton.mp hm
      exact hcpu
  · intro h₁ m h₂ u heq hy
    rcases List.eq_nil_or_concat h₂ with rfl | ⟨h₂, m', rfl⟩
    · obtain ⟨rfl, hm⟩ := List.append_inj' heq rfl
      obtain rfl := List.singleton_inj.mp hm
      exact hside u hy
    · rw [List.concat_eq_append, ← List.cons_append, ← List.append_assoc] at heq
      exact ha.sides h₁ m h₂ u (List.append_inj' heq rfl).1 hy

/-- Environment `c` runs on processor 0 and its system call leaves the kernel. -/
def CallExits (s : Kernel) (c : EnvIdx) (no a1 a2 : Word) : Prop :=
  (s.cpus 0).cpuEnv = some c ∧ (s.envs c).envStatus ≠ .dying ∧
    exitOf (trap 0 (callFrame no a1 a2 0 0 0) 0 0) s = some .leave

instance (s : Kernel) (c : EnvIdx) (no a1 a2 : Word) : Decidable (CallExits s c no a1 a2) :=
  inferInstanceAs (Decidable (_ ∧ _ ∧ _))

/-- A call that does not destroy an environment keeps the processor until `sched_yield`. -/
lemma Run.alone {no a1 a2 : Word} (hr : Runs B h s ∧ Alone h) (hcall : CallExits s c no a1 a2)
    (hno : no.toNat ≠ 0 ∧ no.toNat ≠ 3) :
    Runs B (h ++ [⟨s, .trap 0 (callFrame no a1 a2 0 0 0) 0 0,
        after (trap 0 (callFrame no a1 a2 0 0 0) 0 0) s⟩])
      (after (trap 0 (callFrame no a1 a2 0 0 0) 0 0) s) ∧
    Alone (h ++ [⟨s, .trap 0 (callFrame no a1 a2 0 0 0) 0 0,
        after (trap 0 (callFrame no a1 a2 0 0 0) 0 0) s⟩]) := by
  obtain ⟨hc, hst, hexit⟩ := hcall
  refine ⟨Run.call hr.1 (by rw [hc]; simp) hexit, hr.2.next rfl (fun u hy hnone => ?_)⟩
  cases hy with
  | trap hc' he hy hd =>
    obtain rfl := Option.some.inj (hc.symm.trans hc')
    rcases he.current hc with ⟨-, hcall⟩ | hcur
    · exact (hcall hst rfl).elim (fun h0 => absurd h0 hno.1) (fun h3 => absurd h3 hno.2)
    · rw [hnone] at hcur
      cases hcur

lemma smallStart_alone : Alone [⟨smallBooted, .wake 0, smallStart⟩] := by
  have hnil : Alone [] := ⟨fun m hm => absurd hm List.not_mem_nil, fun h₁ m h₂ u heq => by simp at heq⟩
  exact hnil.next rfl (fun u hy _ l hl => by cases hl)

lemma smallRound_calls : (CallExits smallStart 0 7 0 0 ∧ CallExits smallFork 0 8 0x1001 2 ∧
      CallExits smallChild 0 7 0 0 ∧ CallExits smallSecond 0 8 0x1002 2 ∧ CallExits smallThree 0 11 0 0) ∧
    (CallExits smallTurn 1 11 0 0 ∧ CallExits smallNext 2 11 0 0 ∧ (smallRound.cpus 0).cpuEnv = some 0) ∧
    (smallTurn.cpus 0).cpuEnv ≠ none ∧
      exitOf (trap 0 (callFrame 3 0 0 0 0 0) 0 0) smallTurn = some .leave ∧
      (smallLeft.cpus 0).cpuEnv = some 0 ∧ (smallLeft.envs 2).envStatus = .runnable := by
  decide +kernel

lemma smallTurn_run : ∃ h, Runs smallBoot h smallTurn ∧ Alone h := by
  obtain ⟨⟨hstart, hfork, hchild, hsecond, hthree⟩, -⟩ := smallRound_calls
  have h₁ := Run.alone ⟨smallStart_run, smallStart_alone⟩ hstart (by decide)
  have h₂ := Run.alone (s := smallFork) h₁ hfork (by decide)
  have h₃ := Run.alone (s := smallChild) h₂ hchild (by decide)
  have h₄ := Run.alone (s := smallSecond) h₃ hsecond (by decide)
  exact ⟨_, Run.alone (s := smallThree) h₄ hthree (by decide)⟩

/-- The parent and its two children run in turn. -/
theorem fair_iff_round : ∃ h, Runs smallBoot h smallRound ∧ (smallTurn.cpus 0).cpuEnv = some 1 ∧
    (smallNext.cpus 0).cpuEnv = some 2 ∧ (smallRound.cpus 0).cpuEnv = some 0 ∧ FairOk 0 h := by
  obtain ⟨h, hturn⟩ := smallTurn_run
  obtain ⟨-, ⟨h₁, h₂, hlast⟩, -⟩ := smallRound_calls
  have hnext := Run.alone hturn h₁ (by decide)
  have hround := Run.alone (s := smallNext) hnext h₂ (by decide)
  exact ⟨_, hround.1, h₁.1, h₂.1, hlast, (fair_iff hround.1 hround.2.cpu).mpr hround.2.sides⟩

/-- The first child destroys itself and the parent runs again before the second child. -/
theorem fair_fails : ∃ h, Runs smallBoot h smallLeft ∧ (∀ m ∈ h, m.label.cpu = 0) ∧
    ¬ FairOk 0 h := by
  obtain ⟨h, hturn, ha⟩ := smallTurn_run
  obtain ⟨-, ⟨⟨hcur, -⟩, -⟩, hc, hexit, hpost, hrun⟩ := smallRound_calls
  have hleft : Runs smallBoot (h ++ [⟨smallTurn, .trap 0 (callFrame 3 0 0 0 0 0) 0 0,
    smallLeft⟩]) smallLeft := Run.call hturn hc hexit
  have hone : ∀ m ∈ h ++ [⟨smallTurn, .trap 0 (callFrame 3 0 0 0 0 0) 0 0, smallLeft⟩], m.label.cpu = 0 := by
    intro m hm
    rcases List.mem_append.mp hm with hm | hm
    · exact ha.cpu m hm
    · obtain rfl := List.mem_singleton.mp hm
      rfl
  exact ⟨_, hleft, hone, overtaken hleft hone hcur hpost (by decide) (by decide) hrun⟩

end SistemasOperativos.Kern
