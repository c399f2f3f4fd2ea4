import SistemasOperativos.Kern.Receivers

/-!
# Pages sent with a message

When a send completes a receive, a page is mapped in the receiver exactly when both asked for
it, at the address the receive gave, and `env_ipc_perm` says so. The kernel only remembers the
last address below `UTOP` in `env_ipc_dstva` and always stores the sender's `perm`:
`transferred_iff` says for which pairs of calls this comes out right.
-/

namespace SistemasOperativos.Kern

open Library

/-- The last call of `sys_ipc_recv` by `e` that blocked was given the address `va`. -/
inductive Asked : List (Move Kernel Event) → EnvIdx → Word → Prop
  | call {h : List (Move Kernel Event)} {m : Move Kernel Event} {e : EnvIdx} {s' : Kernel}
      {call : Call} (hcall : Calls m.pre m.label s' e call) (hno : call.no.toNat = 13)
      (hva : call.a1 < utop → call.a1 % 0x1000 = 0) : Asked (h ++ [m]) e call.a1
  | later {h : List (Move Kernel Event)} {m : Move Kernel Event} {e : EnvIdx} {va : Word}
      (ha : Asked h e va) (hquiet : ∀ s' call, Calls m.pre m.label s' e call →
        call.no.toNat = 13 → call.a1 < utop ∧ call.a1 % 0x1000 ≠ 0) : Asked (h ++ [m]) e va

/-- The send of `c` has completed the receive of `e` as it should: the page is mapped at the
address `va` given to the receive if both gave an address below `UTOP`, and nothing else is
mapped; `env_ipc_perm` is the permission of the page, or `0` without one. -/
def Transferred (s u : Kernel) (c e : EnvIdx) (va : Word) (call : Call) : Prop :=
  if h : va < utop ∧ call.a3 < utop then
    spacesOf u = setPage (spacesOf s) e (pageNo va h.1)
      (page2pa (pgnum (spacesOf s c (pageNo call.a3 h.2))) ||| call.a4 ||| pteP) ∧
      (u.envs e).envIpcPerm = call.a4
  else spacesOf u = spacesOf s ∧ (u.envs e).envIpcPerm = 0

/-- What the kernel remembers of a receive. -/
def Remembers (h : List (Move Kernel Event)) (s : Kernel) (e : EnvIdx) : Prop :=
  (s.envs e).envStatus ≠ .free → (s.envs e).envIpcRecving = true →
    (∃ va, Asked h e va) ∧ ∀ va, Asked h e va → va < utop → (s.envs e).envIpcDstva = va

variable {B : Boot} {s t u : Kernel} {cpu : Cpu} {c e : EnvIdx} {tf : Trapframe} {ev : Event}
  {h : List (Move Kernel Event)} {m : Move Kernel Event} {va : Word}

lemma Asked.of_call {s' : Kernel} {call : Call} (ha : Asked (h ++ [m]) e va)
    (hcall : Calls m.pre m.label s' e call) (hno : call.no.toNat = 13)
    (hva : call.a1 < utop → call.a1 % 0x1000 = 0) : va = call.a1 := by
  generalize hl : h ++ [m] = l at ha
  cases ha with
  | call hcall' hno' hva' =>
    obtain ⟨-, hm⟩ := List.append_inj' hl rfl
    obtain rfl := List.singleton_inj.mp hm
    obtain ⟨-, -, rfl⟩ := hcall.unique hcall'
    rfl
  | later ha hquiet =>
    obtain ⟨-, hm⟩ := List.append_inj' hl rfl
    obtain rfl := List.singleton_inj.mp hm
    obtain ⟨hlt, hal⟩ := hquiet _ _ hcall hno
    exact absurd (hva hlt) hal

lemma Asked.of_quiet (ha : Asked (h ++ [m]) e va)
    (hquiet : ∀ s' call, Calls m.pre m.label s' e call → call.no.toNat = 13 →
      call.a1 < utop ∧ call.a1 % 0x1000 ≠ 0) : Asked h e va := by
  generalize hl : h ++ [m] = l at ha
  cases ha with
  | call hcall hno hva =>
    obtain ⟨-, hm⟩ := List.append_inj' hl rfl
    obtain rfl := List.singleton_inj.mp hm
    obtain ⟨hlt, hal⟩ := hquiet _ _ hcall hno
    exact absurd (hva hlt) hal
  | later ha =>
    obtain ⟨rfl, -⟩ := List.append_inj' hl rfl
    exact ha

/-- One step. -/
lemma Remembers.step (hE : EnvsIn none s) (hs : Remembers h s e) (ho : Outcome s ev t) :
    Remembers (h ++ [⟨s, ev, t⟩]) t e := by
  intro hlive' hrecv
  by_cases hlive : (s.envs e).envStatus = .free
  · obtain ⟨cpu, c, tf, cr2, cons, d, -, -, -, -, -, st, runs, cpunum, henv, -⟩ :=
      ho.born hE hlive hlive'
    rw [henv] at hrecv
    cases hrecv
  have hmailed := (ho.mailed hE hlive hlive').1
  have hdst : ∀ va, (t.envs e).mailbox.dstva = va → (t.envs e).envIpcDstva = va := fun _ h => h
  have hrecv' : (t.envs e).mailbox.recving = true := hrecv
  generalize (t.envs e).mailbox = box at hmailed hdst hrecv'
  have hother : ∀ c s' call, Calls s ev s' c call → call.no.toNat = 12 → ∀ s'' call',
      Calls s ev s'' e call' → call'.no.toNat = 13 → call'.a1 < utop ∧ call'.a1 % 0x1000 ≠ 0 := by
    intro c s' call hcall hno s'' call' hcall' hno'
    obtain ⟨-, -, rfl⟩ := hcall.unique hcall'
    omega
  have hkept : (s.envs e).envIpcRecving = true → box.dstva = (s.envs e).envIpcDstva →
      (∀ s' call, Calls s ev s' e call → call.no.toNat = 13 →
        call.a1 < utop ∧ call.a1 % 0x1000 ≠ 0) →
      (∃ va, Asked (h ++ [⟨s, ev, t⟩]) e va) ∧ ∀ va, Asked (h ++ [⟨s, ev, t⟩]) e va → va < utop →
        (t.envs e).envIpcDstva = va := by
    intro hr hd hquiet
    obtain ⟨⟨va, ha⟩, hall⟩ := hs hlive hr
    refine ⟨⟨va, .later ha hquiet⟩, fun va' ha' hlt => hdst va' ?_⟩
    rw [hd]
    exact hall va' (ha'.of_quiet hquiet) hlt
  cases hmailed with
  | kept hquiet => exact hkept hrecv' rfl hquiet
  | blocked hcall hno hva =>
    refine ⟨⟨_, .call hcall hno hva⟩, fun va ha hlt => hdst va ?_⟩
    obtain rfl := ha.of_call hcall hno hva
    exact if_pos hlt
  | delivered => cases hrecv'
  | unsent hcall hno he hr => exact hkept hr rfl (hother _ _ _ hcall hno)

/-- The kernel remembers the receives of every run. -/
lemma remembers_of_run (hr : Runs B h s) (hg : Guarded h) (e : EnvIdx) : Remembers h s e := by
  have hall : KernelOk B s ∧ ∀ e, Remembers h s e := by
    refine hr.induct hg (fun h s => KernelOk B s ∧ ∀ e, Remembers h s e) ?_ ?_
    · intro s hs
      refine ⟨hs.kernelOk, fun e _ hrecv => ?_⟩
      rw [hs.recving e] at hrecv
      cases hrecv
    · intro h s ev t hs hg hst
      exact ⟨(hs.1.step hst hg).1, fun e => (hs.2 e).step hs.1.envs (hst.outcome hs.1.envs)⟩
  exact hall.2 e

/-- What a send that returns `0` has done. -/
lemma sent_result (hE : EnvsIn none s) (hok : MemOk B s) (hc : (s.cpus cpu).cpuEnv = some c)
    {call : Call} (hno : call.no.toNat = 12) (he : envOf s c call.a1 false = some e)
    {cons : Word}
    (hret : syscall cpu cons call.no call.a1 call.a2 call.a3 call.a4 call.a5 s = .ok 0 u) :
    (s.envs e).envIpcRecving = true ∧ (u.envs e).envIpcPerm = call.a4 ∧
      ((∃ (hs : call.a3 < utop) (hd : (s.envs e).envIpcDstva < utop),
          SendChecks s c call.a3 call.a4 hs ∧
          spacesOf u = setPage (spacesOf s) e (pageNo _ hd)
            (page2pa (pgnum (spacesOf s c (pageNo call.a3 hs))) ||| call.a4 ||| pteP)) ∨
        ((∀ hs : call.a3 < utop, SendChecks s c call.a3 call.a4 hs ∧
          ¬(s.envs e).envIpcDstva < utop) ∧ spacesOf u = spacesOf s)) := by
  obtain ⟨⟨-, hre⟩, hrule⟩ := ((syscall_mem hE hok hc cons call).and
    (syscall_rule hc cons call)).of_ok hret
  have hnotneg : (0 : Word).slt 0 = false := by decide
  generalize hz : (0 : Word) = r at hre hrule
  have hr : r.slt 0 = false := by
    rw [← hz]
    exact hnotneg
  have hperm : (u.envs e).envIpcPerm = call.a4 ∧ (s.envs e).envIpcRecving = true := by
    cases hrule with
    | memory pm _ _ _ hipc =>
      rw [hipc (Or.inl hno)] at hr
      cases hr
    | sent j pm _ hj hrecv =>
      obtain rfl := Option.some.inj (he.symm.trans hj)
      rw [Kernel.setEnv_envs_self]
      exact ⟨rfl, hrecv⟩
    | unsent j pm _ hj => exact absurd hz (by decide)
    | _ => omega
  refine ⟨hperm.2, hperm.1, ?_⟩
  generalize spacesOf u = S at hre
  cases hre with
  | failed hf =>
    rw [hf.slt] at hr
    cases hr
  | shared hsh =>
    cases hsh with
    | map h5 => omega
    | send _ hj hrecv hs hd hchk =>
      obtain rfl := Option.some.inj (he.symm.trans hj)
      exact Or.inl ⟨hs, hd, hchk, rfl⟩
  | sent j _ hj hrecv hpage =>
    obtain rfl := Option.some.inj (he.symm.trans hj)
    exact Or.inr ⟨hpage, rfl⟩
  | kept hn => exact absurd hno (fun h => hn (by rw [h]; decide))
  | _ => omega

/-- A send that completes a receive transfers what it should exactly when both give an address
below `UTOP`, or the send gives none and `perm` is `0`. -/
theorem transferred_iff (hr : Runs B h s) (hg : Guarded h) (hc : (s.cpus cpu).cpuEnv = some c)
    (hno : tf.call.no.toNat = 12) (he : envOf (s.entered c tf) c tf.call.a1 false = some e)
    {cons : Word}
    (hret : syscall cpu cons tf.call.no tf.call.a1 tf.call.a2 tf.call.a3 tf.call.a4 tf.call.a5
      (s.entered c tf) = .ok 0 u) :
    (∃ va, Asked h e va) ∧ ∀ va, Asked h e va →
      (Transferred (s.entered c tf) u c e va tf.call ↔
        (va < utop ∧ tf.call.a3 < utop) ∨ (¬ tf.call.a3 < utop ∧ tf.call.a4 = 0)) := by
  obtain ⟨hE, hok⟩ := kernelOk_of_run hr hg
  have hE' : EnvsIn none (s.entered c tf) := hE.entered tf
  have hok' : MemOk B (s.entered c tf) :=
    (hok.setEnv (e := c) (v := { s.envs c with envTf := tf }) rfl).1
  have hc' : ((s.entered c tf).cpus cpu).cpuEnv = some c := hc
  obtain ⟨hrecv, hperm, hpage⟩ := sent_result hE' hok' hc' hno he hret
  have hbox : ∀ {α : Type} (f : Mailbox → α), f ((s.entered c tf).envs e).mailbox =
      f (s.envs e).mailbox := fun f => congrArg f (Kernel.setEnv_proj Env.mailbox (by rfl) e)
  have hlive : (s.envs e).envStatus ≠ .free := by
    have hst : ((s.entered c tf).envs e).envStatus = (s.envs e).envStatus :=
      Kernel.setEnv_proj Env.envStatus (by rfl) e
    rw [← hst]
    exact envOf_ne_free (hE'.ne_free hc') he
  obtain ⟨hasked, hdst⟩ := remembers_of_run hr hg e hlive ((hbox Mailbox.recving).symm.trans hrecv)
  have hdstva : ((s.entered c tf).envs e).envIpcDstva = (s.envs e).envIpcDstva :=
    hbox Mailbox.dstva
  have hflags : ∀ hs : tf.call.a3 < utop,
      SendChecks (s.entered c tf) c tf.call.a3 tf.call.a4 hs → tf.call.a4 ≠ 0 := by
    intro hs hchk h0
    have hP := hchk.present
    rw [h0] at hP
    exact absurd hP (by decide)
  refine ⟨hasked, fun va ha => ?_⟩
  unfold Transferred
  rw [hperm]
  by_cases hboth : va < utop ∧ tf.call.a3 < utop
  · rw [dif_pos hboth]
    have heq : ((s.entered c tf).envs e).envIpcDstva = va := hdstva.trans (hdst va ha hboth.1)
    refine iff_of_true ⟨?_, rfl⟩ (Or.inl hboth)
    rcases hpage with ⟨hs, hd, -, hsp⟩ | ⟨hno', -⟩
    · rw [hsp]
      congr 1
      unfold pageNo
      simp only [heq]
    · exact absurd (heq ▸ hboth.1) (hno' hboth.2).2
  · rw [dif_neg hboth]
    by_cases hs : tf.call.a3 < utop
    · have hne : tf.call.a4 ≠ 0 := by
        rcases hpage with ⟨hs', -, hchk, -⟩ | ⟨hno', -⟩
        · exact hflags hs' hchk
        · exact hflags hs (hno' hs).1
      refine iff_of_false (fun hcon => hne hcon.2) ?_
      rintro (hcon | hcon)
      · exact hboth hcon
      · exact hcon.1 hs
    · rcases hpage with ⟨hs', -⟩ | ⟨-, hsp⟩
      · exact absurd hs' hs
      · exact ⟨fun hcon => Or.inr ⟨hs, hcon.2⟩, fun hcon => ⟨hsp, (hcon.resolve_left hboth).2⟩⟩

lemma asked_callFrame (hc : (s.cpus cpu).cpuEnv = some e) (hst : (s.envs e).envStatus ≠ .dying)
    (hva : va < utop → va % 0x1000 = 0) :
    Asked (h ++ [⟨s, .trap cpu (callFrame 13 va 0 0 0 0) 0 0, t⟩]) e va := by
  have hcall : Calls s (.trap cpu (callFrame 13 va 0 0 0 0) 0 0)
      (s.entered e (callFrame 13 va 0 0 0 0)) e (callFrame 13 va 0 0 0 0).call :=
    .trap hc hst rfl
  exact Asked.call (m := ⟨s, .trap cpu (callFrame 13 va 0 0 0 0) 0 0, t⟩) hcall rfl hva

lemma smallWait_asked : Asked (smallYieldRun ++ [⟨smallYield,
    .trap 0 (callFrame 13 0xeec00000 0 0 0 0) 0 0, smallWait⟩]) 1 0xeec00000 :=
  asked_callFrame (by decide +kernel) (by decide +kernel) (fun h => absurd h (by decide))

/-- The child is sent a value and no page. -/
theorem transferred_iff_value : ∃ u, syscall 0 0 12 0x1001 42 0xeec00000 0 0
      (smallWait.entered 0 (callFrame 12 0x1001 42 0xeec00000 0 0)) = .ok 0 u ∧
    Transferred (smallWait.entered 0 (callFrame 12 0x1001 42 0xeec00000 0 0)) u 0 1 0xeec00000
      (callFrame 12 0x1001 42 0xeec00000 0 0).call := by
  obtain ⟨hr, hg⟩ := smallWait_run
  have hret : syscall 0 0 12 0x1001 42 0xeec00000 0 0
      (smallWait.entered 0 (callFrame 12 0x1001 42 0xeec00000 0 0)) = .ok 0 _ :=
    eq_ok_of_resultOf (by decide +kernel)
  have he : envOf (smallWait.entered 0 (callFrame 12 0x1001 42 0xeec00000 0 0)) 0
      (callFrame 12 0x1001 42 0xeec00000 0 0).call.a1 false = some 1 := by decide +kernel
  exact ⟨_, hret, ((transferred_iff hr hg (by decide +kernel) rfl he hret).2
    _ smallWait_asked).mpr (Or.inr ⟨by decide, rfl⟩)⟩

/-- A send without a page leaves the sender's `perm` in `env_ipc_perm`. -/
theorem transferred_fails : ∃ h u, Runs smallBoot h smallWait ∧ Asked h 1 0xeec00000 ∧
    syscall 0 0 12 0x1001 42 0xeec00000 7 0
      (smallWait.entered 0 (callFrame 12 0x1001 42 0xeec00000 7 0)) = .ok 0 u ∧
    ¬ Transferred (smallWait.entered 0 (callFrame 12 0x1001 42 0xeec00000 7 0)) u 0 1 0xeec00000
      (callFrame 12 0x1001 42 0xeec00000 7 0).call := by
  obtain ⟨hr, -⟩ := smallWait_run
  refine ⟨_, _, hr, smallWait_asked, eq_ok_of_resultOf (by decide +kernel), fun hcon => ?_⟩
  unfold Transferred at hcon
  rw [dif_neg (by decide)] at hcon
  exact absurd hcon.2 (by decide +kernel)

end SistemasOperativos.Kern
