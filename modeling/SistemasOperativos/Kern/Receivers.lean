import SistemasOperativos.Kern.Processors
import SistemasOperativos.Kern.Ipc
import SistemasOperativos.Kern.BootRules

/-!
# Blocked receivers

An environment whose `env_ipc_recving` flag is set does not run: it waits for a send, or it is
dying or gone. Only `sys_env_set_status` can break this, by making a receiver runnable.
-/

namespace SistemasOperativos.Kern

open Library

/-- No processor but `busy` runs an environment that is receiving, and its status is one that
cannot be scheduled. -/
def RecvIn (busy : Option Cpu) (s : Kernel) : Prop :=
  ∀ e, (s.envs e).envIpcRecving = true →
    ((s.envs e).envStatus = .notRunnable ∨ (s.envs e).envStatus = .dying ∨
      (s.envs e).envStatus = .free) ∧ ∀ k, busy ≠ some k → (s.cpus k).cpuEnv ≠ some e

/-- The move is a call of `sys_ipc_recv` by `e` that blocks. -/
def Receives (m : Move Kernel Event) (e : EnvIdx) : Prop :=
  ∃ s' call, Calls m.pre m.label s' e call ∧ call.no.toNat = 13 ∧
    (call.a1 < utop → call.a1 % 0x1000 = 0)

/-- The move is a call of `sys_ipc_try_send` that delivers a message to `e`. -/
def Delivers (m : Move Kernel Event) (e : EnvIdx) : Prop :=
  ∃ s' c call, Calls m.pre m.label s' c call ∧ call.no.toNat = 12 ∧
    envOf s' c call.a1 false = some e ∧ (m.pre.envs e).envIpcRecving = true ∧
    (m.post.envs e).envIpcRecving = false

/-- What holds of receivers in a run `h` to `s`. -/
structure ReceiversOk (h : List (Move Kernel Event)) (s : Kernel) : Prop where
  blocked : RecvIn none s
  /-- no message is delivered to an environment that runs -/
  intact : ∀ m ∈ h, ∀ e, Delivers m e → ∀ k, (m.pre.cpus k).cpuEnv ≠ some e
  /-- a call of `sys_ipc_recv` does not return before a message has been delivered to it -/
  awaited : ∀ h₁ m h₂ e, h = h₁ ++ m :: h₂ → Receives m e →
    (∀ m' ∈ m :: h₂, (m'.post.envs e).envStatus ≠ .free) →
    (∃ k, (s.cpus k).cpuEnv = some e) → ∃ m' ∈ h₂, Delivers m' e

/-- No receiver is made runnable by `sys_env_set_status`. -/
structure RecvGuard (s : Kernel) (ev : Event) : Prop where
  cpus : CpuEvent s ev
  status : ∀ s' c call, Calls s ev s' c call → call.no.toNat = 8 →
    ∀ e, envOf s' c call.a1 true = some e → settableStatus call.a2 = some .runnable →
      (s'.envs e).envIpcRecving = false

variable {B : Boot} {s t u : Kernel} {cpu : Cpu} {c e : EnvIdx} {tf : Trapframe} {ev : Event}
  {busy : Option Cpu} {h : List (Move Kernel Event)}

namespace RecvIn

lemma busy_of_none (h : RecvIn none s) (busy : Option Cpu) : RecvIn busy s := by
  intro e he
  obtain ⟨hst, hcur⟩ := h e he
  exact ⟨hst, fun k _ => hcur k (by simp)⟩

lemma withPm (h : RecvIn busy s) (pm : Pmap) : RecvIn busy { s with pm := pm } := h

/-- Changing one environment. -/
lemma setEnv (h : RecvIn busy s) {v : Env}
    (hv : v.envIpcRecving = true → (v.envStatus = .notRunnable ∨ v.envStatus = .dying ∨
      v.envStatus = .free) ∧ ∀ k, busy ≠ some k → (s.cpus k).cpuEnv ≠ some e) :
    RecvIn busy (s.setEnv e v) := by
  intro j hj
  rw [Kernel.setEnv_envs] at hj ⊢
  by_cases hje : j = e
  · subst hje
    rw [if_pos rfl] at hj ⊢
    exact hv hj
  · rw [if_neg hje] at hj ⊢
    exact h j hj

/-- Changing fields of one environment that do not matter. -/
lemma setEnv_same (h : RecvIn busy s) {v : Env}
    (hr : v.envIpcRecving = (s.envs e).envIpcRecving) (hst : v.envStatus = (s.envs e).envStatus) :
    RecvIn busy (s.setEnv e v) := by
  apply h.setEnv
  rw [hr, hst]
  exact h e

lemma freedEnvs (h : RecvIn busy s) {cpus : Cpu → CpuInfo} {v : Env} {fl : Option EnvIdx} {pm : Pmap}
    (hst : v.envStatus = .free) (hcpus : ∀ k j, busy ≠ some k → (cpus k).cpuEnv = some j →
      (s.cpus k).cpuEnv = some j ∧ j ≠ e) :
    RecvIn busy ⟨pm, Function.update s.envs e v, fl, cpus⟩ := by
  intro j hj
  dsimp only at hj ⊢
  by_cases hje : j = e
  · subst hje
    rw [Function.update_self]
    exact ⟨Or.inr (Or.inr hst), fun k hk hc => (hcpus k j hk hc).2 rfl⟩
  · rw [Function.update_of_ne hje] at hj ⊢
    obtain ⟨hst', hcur⟩ := h j hj
    exact ⟨hst', fun k hk hc => hcur k hk (hcpus k j hk hc).1⟩

/-- The environment of the processor itself is freed. -/
lemma freed_vacated (h : RecvIn none s) (hE : EnvsIn none s) (hc : (s.cpus cpu).cpuEnv = some c)
    (pm : Pmap) : RecvIn (some cpu) ((s.freed cpu c pm).vacated cpu) := by
  refine (h.busy_of_none (some cpu)).freedEnvs (e := c) rfl ?_
  intro k j hk hj
  have hne : k ≠ cpu := fun hkc => hk (by rw [hkc])
  have hsame : ((s.freed cpu c pm).vacated cpu).cpus k = s.cpus k := by
    show Function.update (s.freedCpus cpu c) cpu _ k = _
    rw [Function.update_of_ne hne]
    unfold Kernel.freedCpus
    rw [if_pos hc, Function.update_of_ne hne]
  have hj' : (s.cpus k).cpuEnv = some j := by
    rw [← hsame]
    exact hj
  exact ⟨hj', fun hjc => hne (hE.inj k cpu c (hjc ▸ hj') hc)⟩

lemma returned {call : Call} {r : Word} (h : RecvIn none s) (hg : CpuGuard s cpu c call)
    (hst : call.no.toNat = 8 → ∀ e, envOf s c call.a1 true = some e →
      settableStatus call.a2 = some .runnable → (s.envs e).envIpcRecving = false)
    (hr : Returned s cpu c call r t) : RecvIn (some cpu) t := by
  have hin := h.busy_of_none (some cpu)
  have hcur : ∀ e, (s.envs e).envIpcRecving = true → ∀ k, some cpu ≠ some k →
      (s.cpus k).cpuEnv ≠ some e := fun e he => (hin e he).2
  cases hr with
  | memory pm => exact hin.withPm pm
  | marked e hno he hne hrun => exact hin.setEnv (fun hv => ⟨Or.inr (Or.inl rfl), hcur e hv⟩)
  | freed e pm hno he hne hrun =>
    refine hin.freedEnvs (e := e) rfl (fun k j hk hj => ?_)
    have hcpus : s.freedCpus cpu e = s.cpus := by
      unfold Kernel.freedCpus
      rw [if_neg hne]
    rw [hcpus] at hj
    refine ⟨hj, fun hje => hk ?_⟩
    rw [hg.destroy hno e he hrun k (hje ▸ hj)]
  | forked e d pm hno hfl =>
    have hall : RecvIn (some cpu) (s.allocated e (s.envs c).envId d pm) := by
      intro j hj
      unfold Kernel.allocated at hj ⊢
      dsimp only at hj ⊢
      by_cases hje : j = e
      · subst hje
        rw [Function.update_self] at hj
        cases hj
      · rw [Function.update_of_ne hje] at hj ⊢
        exact hin j hj
    exact hall.setEnv (fun hv => by cases hv)
  | status e st hno he hst' =>
    refine hin.setEnv (fun hv => ⟨?_, hcur e hv⟩)
    rcases settableStatus_some hst' with rfl | rfl
    · rw [hst hno e he hst'] at hv
      cases hv
    · exact Or.inl rfl
  | frame e tf pm hno he htf => exact (hin.withPm pm).setEnv_same rfl rfl
  | upcall e hno he => exact hin.setEnv_same rfl rfl
  | sent e pm hno he hrecv => exact (hin.withPm pm).setEnv (fun hv => by cases hv)
  | unsent e pm hno he hrecv => exact (hin.withPm pm).setEnv_same rfl rfl

/-- Handing the processor over. -/
lemma switched (h : RecvIn (some cpu) s) (hs : Switched cpu s t) : RecvIn none t := by
  intro e he
  obtain ⟨st, runs, cpunum, henv, hst⟩ := hs.envs e
  have he' : (s.envs e).envIpcRecving = true := by
    rw [henv] at he
    exact he
  obtain ⟨hstat, hcur⟩ := h e he'
  have hsame : (t.envs e).envStatus = (s.envs e).envStatus := by
    rw [henv]
    show st = _
    rcases hst with rfl | ⟨ho, -⟩ | ⟨ho, -⟩
    · rfl
    · rw [ho] at hstat
      rcases hstat with hc | hc | hc <;> cases hc
    · rw [ho] at hstat
      rcases hstat with hc | hc | hc <;> cases hc
  rw [hsame]
  refine ⟨hstat, fun k _ hk => ?_⟩
  by_cases hkc : k = cpu
  · subst hkc
    rcases (hs.current e hk).2 with hr | hr <;>
    · rw [hr] at hstat
      rcases hstat with hc | hc | hc <;> cases hc
  · rw [hs.others k hkc] at hk
    exact hcur k (fun hc => hkc (Option.some.inj hc).symm) hk

lemma effect (h : RecvIn none s) (hE : EnvsIn none s) (hc : (s.cpus cpu).cpuEnv = some c)
    (hg : (s.envs c).envStatus ≠ .dying → tf.tfTrapno = tSyscall →
      CpuGuard (s.entered c tf) cpu c tf.call)
    (hst : (s.envs c).envStatus ≠ .dying → tf.tfTrapno = tSyscall → tf.call.no.toNat = 8 →
      ∀ e, envOf (s.entered c tf) c tf.call.a1 true = some e →
      settableStatus tf.call.a2 = some .runnable →
      ((s.entered c tf).envs e).envIpcRecving = false)
    (he : Effect s cpu c tf u) : RecvIn (some cpu) u := by
  have hent : RecvIn none (s.entered c tf) := h.setEnv_same rfl rfl
  have hE' : EnvsIn none (s.entered c tf) := hE.entered tf
  have hcur : ((s.entered c tf).cpus cpu).cpuEnv = some c := hc
  cases he with
  | reaped pm hd => exact h.freed_vacated hE hc pm
  | destroyed pm₀ pm hd => exact (hent.withPm pm₀).freed_vacated (hE'.withPm pm₀) hcur pm
  | entered hd => exact hent.busy_of_none _
  | upcalled pm hd =>
    exact ((hent.busy_of_none (some cpu)).withPm pm).setEnv_same (e := c) rfl rfl
  | blocked hd htrap hno hva =>
    refine (hent.busy_of_none (some cpu)).setEnv (fun _ => ⟨Or.inl rfl, fun k hk hk' => hk ?_⟩)
    rw [hE'.inj k cpu c hk' hcur]
  | returned r u hd htrap hu =>
    exact (hent.returned (hg hd htrap) (hst hd htrap) hu).setEnv_same rfl rfl

/-- One step. -/
lemma step (h : RecvIn none s) (hE : EnvsIn none s) (hg : RecvGuard s ev) (ho : Outcome s ev t) :
    RecvIn none t := by
  cases ho with
  | trap hc hcs he hs =>
    refine (h.effect hE hc (hg.cpus _ hc) ?_ he).switched hs
    exact fun hd htrap hno e he hst => hg.status _ _ _ (.trap hc hd htrap) hno e he hst
  | wake hidle hs => exact (h.busy_of_none _).switched hs
  | user pm => exact h

end RecvIn

/-! ### Waiting for a message -/

/-- A call that blocks sets the flag. -/
lemma Receives.recving {m : Move Kernel Event} (hm : Receives m e) (hE : EnvsIn none m.pre)
    (ho : Outcome m.pre m.label m.post) (hlive : (m.post.envs e).envStatus ≠ .free) :
    (m.post.envs e).envIpcRecving = true := by
  obtain ⟨s', call, hcall, hno, hva⟩ := hm
  have hpre : (m.pre.envs e).envStatus ≠ .free := by
    obtain ⟨cpu, tf, u, hc, -⟩ := hcall.effect ho
    exact hE.ne_free hc
  have hmailed := (ho.mailed hE hpre hlive).1
  show (m.post.envs e).mailbox.recving = true
  have hold : ∀ c s' call, Calls m.pre m.label s' c call → call.no.toNat ≠ 12 := by
    intro c s' call' hcall'
    obtain ⟨-, -, rfl⟩ := hcall.unique hcall'
    omega
  generalize (m.post.envs e).mailbox = box at hmailed
  cases hmailed with
  | kept hquiet =>
    obtain ⟨hlt, hal⟩ := hquiet _ _ hcall hno
    exact absurd (hva hlt) hal
  | blocked => rfl
  | delivered hcall' h12 => exact absurd h12 (hold _ _ _ hcall')
  | unsent hcall' h12 => exact absurd h12 (hold _ _ _ hcall')

/-- A receiver that stays alive goes on receiving until a message is delivered to it. -/
lemma awaits {m : Move Kernel Event} (hE : EnvsIn none m.pre)
    (ho : Outcome m.pre m.label m.post) (he : (m.pre.envs e).envIpcRecving = true)
    (hlive : (m.pre.envs e).envStatus ≠ .free) (hlive' : (m.post.envs e).envStatus ≠ .free) :
    (m.post.envs e).envIpcRecving = true ∨ Delivers m e := by
  have hmailed := (ho.mailed hE hlive hlive').1
  by_cases hrecv : (m.post.envs e).envIpcRecving = true
  · exact Or.inl hrecv
  have hbox : (m.post.envs e).mailbox.recving ≠ true := hrecv
  generalize (m.post.envs e).mailbox = box at hmailed hbox
  cases hmailed with
  | kept => exact absurd he hbox
  | blocked => exact absurd rfl hbox
  | delivered hcall hno hj hr =>
    exact Or.inr ⟨_, _, _, hcall, hno, hj, he, Bool.not_eq_true _ ▸ hrecv⟩
  | unsent hcall hno hj hr => exact absurd he hbox

lemma Booted.recving (hs : Booted B s) (e : EnvIdx) : (s.envs e).envIpcRecving = false := by
  refine hs.induct (fun s => ∀ e, (s.envs e).envIpcRecving = false) (fun _ => rfl) ?_ e
  intro s t j _ hs hcreated i
  obtain ⟨d, entry, type, henvs⟩ := hcreated.envs
  rw [henvs]
  by_cases hij : i = j
  · subst hij
    rw [Function.update_self]
    rfl
  · rw [Function.update_of_ne hij]
    exact hs i

/-- In a run none of whose steps makes a receiver runnable by `sys_env_set_status`, receivers do
not run. -/
theorem receivers_of_run (hr : Runs B h s) (hg : ∀ m ∈ h, RecvGuard m.pre m.label) :
    ReceiversOk h s := by
  have hrun : ∀ h s, Runs B h s → (∀ m ∈ h, RecvGuard m.pre m.label) →
      EnvsIn none s ∧ RecvIn none s := by
    intro h s hr hg
    apply hr.induct hg (fun _ s => EnvsIn none s ∧ RecvIn none s)
    · exact fun s hs => ⟨hs.ok.envs, fun e he => absurd he (by rw [hs.recving e]; decide)⟩
    · intro h s ev t hs hg hst
      exact ⟨hs.1.step hst hg.cpus, hs.2.step hs.1 hg (hst.outcome hs.1)⟩
  have hmem : ∀ m ∈ h, EnvsIn none m.pre ∧ RecvIn none m.pre ∧ Step m.pre m.label m.post := by
    intro m hm
    obtain ⟨⟨h', hsub, hr'⟩, hst⟩ := hr.mem hm
    obtain ⟨hok, hrecv⟩ := hrun h' m.pre hr' (fun x hx => hg x (hsub hx))
    exact ⟨hok, hrecv, hst⟩
  refine ⟨(hrun h s hr hg).2, ?_, ?_⟩
  · rintro m hm e ⟨s', c, call, -, -, -, hrecv, -⟩ k
    exact ((hmem m hm).2.1 e hrecv).2 k (by simp)
  · -- until a message is delivered the flag stays set
    rintro h₁ m h₂ e rfl hm hlive ⟨k, hk⟩
    by_contra hnone
    have hset : (s.envs e).envIpcRecving = true ∧ (s.envs e).envStatus ≠ .free := by
      obtain ⟨hok, -, hst⟩ := hmem m (by simp)
      have hpost := hlive m List.mem_cons_self
      refine Run.since (fun s => (s.envs e).envIpcRecving = true ∧ (s.envs e).envStatus ≠ .free) hr
        ⟨hm.recving hok (hst.outcome hok) hpost, hpost⟩ ?_
      rintro x hx ⟨hset, hpre⟩
      obtain ⟨hok', -, hst'⟩ := hmem x (by simp [hx])
      have hpost' := hlive x (List.mem_cons_of_mem _ hx)
      rcases awaits hok' (hst'.outcome hok') hset hpre hpost' with hset' | hdel
      · exact ⟨hset', hpost'⟩
      · exact absurd ⟨x, hx, hdel⟩ hnone
    exact ((hrun _ s hr hg).2 e hset.1).2 k (by simp) hk

/-- The parent yields to its child. -/
def smallYield : Kernel := after (trap 0 (callFrame 11 0 0 0 0 0) 0 0) smallChild

/-- The child waits for a message. -/
def smallWait : Kernel := after (trap 0 (callFrame 13 0xeec00000 0 0 0 0) 0 0) smallYield

/-- The parent makes it runnable. -/
def smallWoken : Kernel := after (trap 0 (callFrame 8 0x1001 2 0 0 0) 0 0) smallWait

def smallYieldRun : List (Move Kernel Event) :=
  smallChildRun ++ [⟨smallChild, .trap 0 (callFrame 11 0 0 0 0 0) 0 0, smallYield⟩]

lemma smallWait_calls : ((smallChild.cpus 0).cpuEnv ≠ none ∧
      exitOf (trap 0 (callFrame 11 0 0 0 0 0) 0 0) smallChild = some .leave) ∧
    ((smallYield.cpus 0).cpuEnv ≠ none ∧
      exitOf (trap 0 (callFrame 13 0xeec00000 0 0 0 0) 0 0) smallYield = some .leave) ∧
    ((smallFork.envs (envx 0x1001)).envIpcRecving = false ∧ (smallWait.envs 1).envIpcRecving = true) ∧
    ((smallWait.cpus 0).cpuEnv ≠ none ∧
      exitOf (trap 0 (callFrame 8 0x1001 2 0 0 0) 0 0) smallWait = some .leave) ∧
    (smallWoken.envs 1).envIpcRecving = true ∧ (smallWoken.envs 1).envStatus = .runnable := by
  decide +kernel

lemma smallYield_run : Runs smallBoot smallYieldRun smallYield ∧ Guarded smallYieldRun := by
  obtain ⟨hchild, hg⟩ := smallChild_run
  obtain ⟨⟨hcur, hexit⟩, -⟩ := smallWait_calls
  exact ⟨Run.call (s := smallChild) hchild hcur hexit, hg.next (eventGuard_callFrame (by decide))⟩

def smallWaitRun : List (Move Kernel Event) :=
  smallYieldRun ++ [⟨smallYield, .trap 0 (callFrame 13 0xeec00000 0 0 0 0) 0 0, smallWait⟩]

lemma smallWait_run : Runs smallBoot smallWaitRun smallWait ∧ Guarded smallWaitRun := by
  obtain ⟨hyield, hg⟩ := smallYield_run
  obtain ⟨-, ⟨hcur, hexit⟩, -⟩ := smallWait_calls
  exact ⟨Run.call (s := smallYield) hyield hcur hexit, hg.next (eventGuard_callFrame (by decide))⟩

lemma recvGuard_callFrame {no a1 a2 a3 a4 a5 cr2 cons : Word} (hg : EventGuard s (.trap cpu (callFrame no
    a1 a2 a3 a4 a5) cr2 cons)) (hno : no.toNat = 8 → a1 ≠ 0 ∧ (s.envs (envx a1)).envIpcRecving = false) :
    RecvGuard s (.trap cpu (callFrame no a1 a2 a3 a4 a5) cr2 cons) := by
  refine ⟨hg.cpuEvent, fun s' c call hcall h8 e he _ => ?_⟩
  cases hcall
  obtain ⟨h0, hrecv⟩ := hno h8
  obtain rfl := envOf_envx h0 he
  rw [← hrecv]
  exact Kernel.setEnv_proj Env.envIpcRecving (by rfl) _

lemma smallWait_recvGuard : ∀ m ∈ smallWaitRun, RecvGuard m.pre m.label := by
  intro m hm
  have hg := smallWait_run.2 m hm
  obtain ⟨-, -, ⟨hfork, -⟩, -⟩ := smallWait_calls
  simp only [smallWaitRun, smallYieldRun, smallChildRun, List.mem_append, List.mem_cons, List.not_mem_nil,
    or_false] at hm
  rcases hm with ((rfl | rfl | rfl) | rfl) | rfl
  · exact ⟨hg.cpuEvent, fun s' c call hcall => by cases hcall⟩
  · exact recvGuard_callFrame hg (fun h8 => absurd h8 (by decide))
  · dsimp only at hg ⊢
    exact recvGuard_callFrame hg (fun _ => ⟨by decide, hfork⟩)
  · exact recvGuard_callFrame hg (fun h8 => absurd h8 (by decide))
  · exact recvGuard_callFrame hg (fun h8 => absurd h8 (by decide))

/-- The child is blocked in `sys_ipc_recv`. -/
theorem receivers_of_run_wait : (smallWait.envs 1).envIpcRecving = true ∧ ReceiversOk smallWaitRun smallWait := by
  obtain ⟨-, -, ⟨-, hrecv⟩, -⟩ := smallWait_calls
  exact ⟨hrecv, receivers_of_run smallWait_run.1 smallWait_recvGuard⟩

/-- `sys_env_set_status` makes a receiver runnable although it still waits for a message. -/
theorem receivers_fail : ∃ h, Runs smallBoot h smallWoken ∧ ¬ ReceiversOk h smallWoken := by
  obtain ⟨hwait, -⟩ := smallWait_run
  obtain ⟨-, -, -, ⟨hcur, hexit⟩, hrecv, hst⟩ := smallWait_calls
  have hwoken := Run.call (s := smallWait) hwait hcur hexit
  refine ⟨_, hwoken, fun hs => ?_⟩
  rcases (hs.blocked 1 hrecv).1 with hc | hc | hc <;>
  · rw [hst] at hc
    cases hc

end SistemasOperativos.Kern
