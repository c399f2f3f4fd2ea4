import SistemasOperativos.Kern.Outcomes

/-!
# The mailbox of an environment

The IPC fields of `struct Env` change in three ways while an environment lives: its own call of
`sys_ipc_recv` blocks it, a send to it succeeds, or a send to it fails for want of memory.
-/

namespace SistemasOperativos.Kern

open Library

/-- The IPC fields of `struct Env`. -/
structure Mailbox where
  recving : Bool
  dstva : Word
  value : Word
  from_ : Word
  perm : Word

def Env.mailbox (env : Env) : Mailbox :=
  ⟨env.envIpcRecving, env.envIpcDstva, env.envIpcValue, env.envIpcFrom, env.envIpcPerm⟩

/-- What the step `ev` makes of the mailbox of the live environment `e`. -/
inductive Mailed (s : Kernel) (ev : Event) (e : EnvIdx) : Mailbox → Prop
  | kept (hquiet : ∀ s' call, Calls s ev s' e call → call.no.toNat = 13 →
      call.a1 < utop ∧ call.a1 % 0x1000 ≠ 0) : Mailed s ev e (s.envs e).mailbox
  | blocked {s' : Kernel} {call : Call} (hcall : Calls s ev s' e call) (hno : call.no.toNat = 13)
      (hva : call.a1 < utop → call.a1 % 0x1000 = 0) :
      Mailed s ev e { (s.envs e).mailbox with
        recving := true
        dstva := if call.a1 < utop then call.a1 else (s.envs e).envIpcDstva }
  | delivered {s' : Kernel} {c : EnvIdx} {call : Call} (hcall : Calls s ev s' c call)
      (hno : call.no.toNat = 12) (he : envOf s' c call.a1 false = some e)
      (hrecv : (s.envs e).envIpcRecving = true) :
      Mailed s ev e ⟨false, (s.envs e).envIpcDstva, call.a2, (s.envs c).envId, call.a4⟩
  | unsent {s' : Kernel} {c : EnvIdx} {call : Call} (hcall : Calls s ev s' c call)
      (hno : call.no.toNat = 12) (he : envOf s' c call.a1 false = some e)
      (hrecv : (s.envs e).envIpcRecving = true) :
      Mailed s ev e { (s.envs e).mailbox with perm := 0 }

variable {s t u : Kernel} {cpu : Cpu} {c e : EnvIdx} {tf : Trapframe} {ev : Event} {α : Type}

/-- A change of one environment does not show in what it leaves alone. -/
lemma Kernel.setEnv_proj (f : Env → α) {j : EnvIdx} {v : Env} (hv : f v = f (s.envs j))
    (e : EnvIdx) : f ((s.setEnv j v).envs e) = f (s.envs e) := by
  rw [Kernel.setEnv_envs]
  split
  · rename_i hj
    rw [hv, hj]
  · rfl

/-- Handing the processor over does not show in the other fields. -/
lemma Switched.proj (hs : Switched cpu s t) (f : Env → α)
    (hf : ∀ env st runs cpunum,
      f { env with envStatus := st, envRuns := runs, envCpunum := cpunum } = f env)
    (e : EnvIdx) : f (t.envs e) = f (s.envs e) := by
  obtain ⟨st, runs, cpunum, henv, -⟩ := hs.envs e
  rw [henv, hf]

/-- The mailbox and the id of an environment that lives through the change a trap makes. -/
lemma Effect.mailed {cr2 cons : Word} (hE : EnvsIn none s) (hc : (s.cpus cpu).cpuEnv = some c)
    (he : Effect s cpu c tf u) (hlive : (s.envs e).envStatus ≠ .free)
    (hlive' : (u.envs e).envStatus ≠ .free) :
    Mailed s (.trap cpu tf cr2 cons) e (u.envs e).mailbox ∧
      (u.envs e).envId = (s.envs e).envId := by
  have hkeep : ((s.envs c).envStatus ≠ .dying → tf.tfTrapno = tSyscall →
      tf.call.no.toNat = 13 → e = c → tf.call.a1 < utop ∧ tf.call.a1 % 0x1000 ≠ 0) →
      Mailed s (.trap cpu tf cr2 cons) e (s.envs e).mailbox := by
    refine fun h => .kept (fun s' call hcall hno => ?_)
    cases hcall with
    | trap hc' hst htrap =>
      obtain rfl := Option.some.inj (hc.symm.trans hc')
      exact h hst htrap hno rfl
  have hkept : ∀ v : Kernel, ((s.envs c).envStatus ≠ .dying → tf.tfTrapno = tSyscall →
      tf.call.no.toNat = 13 → e = c → tf.call.a1 < utop ∧ tf.call.a1 % 0x1000 ≠ 0) →
      (v.envs e).mailbox = (s.envs e).mailbox → (v.envs e).envId = (s.envs e).envId →
      Mailed s (.trap cpu tf cr2 cons) e (v.envs e).mailbox ∧
        (v.envs e).envId = (s.envs e).envId := by
    intro v hq hm hid
    rw [hm]
    exact ⟨hkeep hq, hid⟩
  have hent : ∀ j, ((s.entered c tf).envs j).mailbox = (s.envs j).mailbox :=
    fun j => Kernel.setEnv_proj Env.mailbox (by rfl) j
  have hentid : ∀ j, ((s.entered c tf).envs j).envId = (s.envs j).envId :=
    fun j => Kernel.setEnv_proj Env.envId (by rfl) j
  have hentst : ∀ j, ((s.entered c tf).envs j).envStatus = (s.envs j).envStatus :=
    fun j => Kernel.setEnv_proj Env.envStatus (by rfl) j
  have hfreed : ∀ (v : Kernel) (j : EnvIdx) (k : Cpu) (pm : Pmap),
      ((v.freed k j pm).envs e).envStatus ≠ .free → (v.freed k j pm).envs e = v.envs e := by
    intro v j k pm hne
    by_cases hej : e = j
    · subst hej
      refine absurd ?_ hne
      show (Function.update v.envs e _ e).envStatus = .free
      rw [Function.update_self]
      rfl
    · exact Function.update_of_ne hej _ _
  cases he with
  | reaped pm hd =>
    have hsame : ((s.freed cpu c pm).vacated cpu).envs e = s.envs e := hfreed s c cpu pm hlive'
    exact hkept _ (fun hst => absurd hd hst) (by rw [hsame]) (by rw [hsame])
  | destroyed pm₀ pm hd hcall =>
    have hsame : ((({ s.entered c tf with pm := pm₀ } : Kernel).freed cpu c pm).vacated cpu).envs e =
        (s.entered c tf).envs e := hfreed { s.entered c tf with pm := pm₀ } c cpu pm hlive'
    exact hkept _ (fun _ htrap hno => absurd (hcall htrap) (by omega)) (by rw [hsame, hent])
      (by rw [hsame, hentid])
  | entered hd hcall =>
    exact hkept _ (fun _ htrap hno => absurd (hcall htrap) (by omega)) (hent e) (hentid e)
  | upcalled pm hd hpf =>
    exact hkept _ (fun _ htrap => absurd (htrap.symm.trans hpf) (by decide))
      ((Kernel.setEnv_proj Env.mailbox (by rfl) e).trans (hent e))
      ((Kernel.setEnv_proj Env.envId (by rfl) e).trans (hentid e))
  | blocked hd htrap hno hva =>
    have hid : (((s.entered c tf).setEnv c (((s.entered c tf).envs c).blocked tf.call.a1)).envs
        e).envId = (s.envs e).envId := (Kernel.setEnv_proj Env.envId (by rfl) e).trans (hentid e)
    refine ⟨?_, hid⟩
    by_cases hec : e = c
    · subst hec
      rw [Kernel.setEnv_envs_self]
      have hdst := congrArg Mailbox.dstva (hent e)
      have hbox : (((s.entered e tf).envs e).blocked tf.call.a1).mailbox =
          { (s.envs e).mailbox with
            recving := true
            dstva := if tf.call.a1 < utop then tf.call.a1 else (s.envs e).envIpcDstva } := by
        rw [← hent e]
        unfold Env.blocked Env.mailbox
        dsimp only
        rw [show ((s.entered e tf).envs e).envIpcDstva = (s.envs e).envIpcDstva from hdst]
      rw [hbox]
      exact .blocked (.trap hc hd htrap) hno hva
    · rw [Kernel.setEnv_envs_of_ne hec, hent]
      exact hkeep (fun _ _ _ h => absurd h hec)
  | returned r u hd htrap hu =>
    have hcalls : Calls s (.trap cpu tf cr2 cons) (s.entered c tf) c tf.call := .trap hc hd htrap
    have heax : ((u.setEax c r).envs e).mailbox = (u.envs e).mailbox :=
      Kernel.setEnv_proj Env.mailbox (by rfl) e
    have heaxid : ((u.setEax c r).envs e).envId = (u.envs e).envId :=
      Kernel.setEnv_proj Env.envId (by rfl) e
    have heaxst : ((u.setEax c r).envs e).envStatus = (u.envs e).envStatus :=
      Kernel.setEnv_proj Env.envStatus (by rfl) e
    rw [heaxst] at hlive'
    rw [heax, heaxid]
    have hset : ∀ {j : EnvIdx} {v : Env} (pm : Pmap), tf.call.no.toNat ≠ 13 →
        v.mailbox = ((s.entered c tf).envs j).mailbox →
        v.envId = ((s.entered c tf).envs j).envId →
        Mailed s (.trap cpu tf cr2 cons) e
            ((({ s.entered c tf with pm := pm } : Kernel).setEnv j v).envs e).mailbox ∧
          ((({ s.entered c tf with pm := pm } : Kernel).setEnv j v).envs e).envId =
            (s.envs e).envId := by
      intro j v pm hno hm hid
      exact hkept _ (fun _ _ h => absurd h hno) ((Kernel.setEnv_proj Env.mailbox hm e).trans (hent e))
        ((Kernel.setEnv_proj Env.envId hid e).trans (hentid e))
    cases hu with
    | memory pm _ _ _ _ _ hrecv =>
      exact hkept _ (fun _ _ hno _ => hrecv hno) (hent e) (hentid e)
    | marked j hno => exact hset (s.entered c tf).pm (by omega) rfl rfl
    | freed j pm hno =>
      have hsame := hfreed (s.entered c tf) j cpu pm hlive'
      exact hkept _ (fun _ _ h => by omega) (by rw [hsame, hent]) (by rw [hsame, hentid])
    | forked j d pm hno hfl =>
      have hej : e ≠ j := by
        rintro rfl
        have hfree := ((hE.entered tf).allocated hfl 0 0 pm).1
        exact hlive ((hentst e).symm.trans hfree)
      have hsame : (((s.entered c tf).allocated j ((s.entered c tf).envs c).envId d pm).setEnv j
          (forkedEnv ((s.entered c tf).envs j) ((s.entered c tf).envs c).envId
            (((s.entered c tf).allocated j ((s.entered c tf).envs c).envId d pm).envs c).envTf
            j d)).envs e = (s.entered c tf).envs e := by
        rw [Kernel.setEnv_envs_of_ne hej]
        exact Function.update_of_ne hej _ _
      exact hkept _ (fun _ _ h => by omega) (by rw [hsame, hent]) (by rw [hsame, hentid])
    | status j st hno => exact hset (s.entered c tf).pm (by omega) rfl rfl
    | frame j tf' pm hno => exact hset pm (by omega) rfl rfl
    | upcall j hno => exact hset (s.entered c tf).pm (by omega) rfl rfl
    | sent j pm hno hj hrecv =>
      have hid := Kernel.setEnv_proj (s := { s.entered c tf with pm := pm }) (j := j)
        (v := ((s.entered c tf).envs j).delivered ((s.entered c tf).envs c).envId
          tf.call.a2 tf.call.a4) Env.envId (by rfl) e
      refine ⟨?_, hid.trans (hentid e)⟩
      by_cases hej : e = j
      · subst hej
        rw [Kernel.setEnv_envs_self]
        have hdst := congrArg Mailbox.dstva (hent e)
        have hrecv' := congrArg Mailbox.recving (hent e)
        have hbox : (((s.entered c tf).envs e).delivered ((s.entered c tf).envs c).envId
            tf.call.a2 tf.call.a4).mailbox =
            ⟨false, (s.envs e).envIpcDstva, tf.call.a2, (s.envs c).envId, tf.call.a4⟩ := by
          unfold Env.delivered Env.mailbox
          dsimp only
          rw [hentid c, show ((s.entered c tf).envs e).envIpcDstva = (s.envs e).envIpcDstva from hdst]
        rw [hbox]
        exact .delivered hcalls hno hj (hrecv'.symm.trans hrecv)
      · rw [Kernel.setEnv_envs_of_ne hej]
        have hm := hent e
        show Mailed s _ e ((s.entered c tf).envs e).mailbox
        rw [hm]
        exact hkeep (fun _ _ h => by omega)
    | unsent j pm hno hj hrecv =>
      have hid := Kernel.setEnv_proj (s := { s.entered c tf with pm := pm }) (j := j)
        (v := { (s.entered c tf).envs j with envIpcPerm := 0 }) Env.envId (by rfl) e
      refine ⟨?_, hid.trans (hentid e)⟩
      by_cases hej : e = j
      · subst hej
        rw [Kernel.setEnv_envs_self]
        have hrecv' := congrArg Mailbox.recving (hent e)
        have hbox : ({ (s.entered c tf).envs e with envIpcPerm := 0 } : Env).mailbox =
            { (s.envs e).mailbox with perm := 0 } := by
          rw [← hent e]
          rfl
        rw [hbox]
        exact .unsent hcalls hno hj (hrecv'.symm.trans hrecv)
      · rw [Kernel.setEnv_envs_of_ne hej]
        have hm := hent e
        show Mailed s _ e ((s.entered c tf).envs e).mailbox
        rw [hm]
        exact hkeep (fun _ _ h => by omega)

/-- The mailbox and the id of an environment that lives through a step. -/
theorem Outcome.mailed (hE : EnvsIn none s) (ho : Outcome s ev t)
    (hlive : (s.envs e).envStatus ≠ .free) (hlive' : (t.envs e).envStatus ≠ .free) :
    Mailed s ev e (t.envs e).mailbox ∧ (t.envs e).envId = (s.envs e).envId := by
  cases ho with
  | user pm hev =>
    refine ⟨.kept (fun s' call hcall => ?_), rfl⟩
    cases hcall
    exact absurd rfl (hev _ _ _ _)
  | wake hidle hs =>
    rw [hs.proj Env.mailbox (fun _ _ _ _ => rfl) e, hs.proj Env.envId (fun _ _ _ _ => rfl) e]
    exact ⟨.kept (fun s' call hcall => by cases hcall), rfl⟩
  | trap hc hcs heff hs =>
    rw [hs.proj Env.mailbox (fun _ _ _ _ => rfl) e, hs.proj Env.envId (fun _ _ _ _ => rfl) e]
    exact heff.mailed hE hc hlive (fun hf => hlive' ((hs.envs e).free_iff.mpr hf))

/-- What `sys_ipc_try_send` returns, in the frame of the sender, tells what it has done to the
mailbox of the environment it names. -/
lemma Calls.sent {s' : Kernel} {call : Call} (hcall : Calls s ev s' c call)
    (ho : Outcome s ev t) (hno : call.no.toNat = 12)
    (he : envOf s' c call.a1 false = some e) :
    ((t.envs c).envTf.tfRegs.regEax = 0 ∧ (s.envs e).envIpcRecving = true ∧
      (t.envs e).mailbox =
        ⟨false, (s.envs e).envIpcDstva, call.a2, (s.envs c).envId, call.a4⟩) ∨
    ((t.envs c).envTf.tfRegs.regEax ≠ 0 ∧
      ∃ perm, (t.envs e).mailbox = { (s.envs e).mailbox with perm := perm }) := by
  obtain ⟨cpu, tf, u, hc, hst, htrap, rfl, rfl, heff, hs⟩ := hcall.effect ho
  have hbox : (t.envs e).mailbox = (u.envs e).mailbox := hs.proj Env.mailbox (fun _ _ _ _ => rfl) e
  have heax : (t.envs c).envTf.tfRegs.regEax = (u.envs c).envTf.tfRegs.regEax :=
    hs.proj (fun env => env.envTf.tfRegs.regEax) (fun _ _ _ _ => rfl) c
  have hent : ∀ j, ((s.entered c tf).envs j).mailbox = (s.envs j).mailbox :=
    fun j => Kernel.setEnv_proj Env.mailbox (by rfl) j
  have hid : ((s.entered c tf).envs c).envId = (s.envs c).envId :=
    Kernel.setEnv_proj Env.envId (by rfl) c
  cases heff with
  | reaped pm hd => exact absurd hd hst
  | destroyed pm₀ pm _ h => exact absurd (h htrap) (by omega)
  | entered _ h => exact absurd (h htrap) (by omega)
  | upcalled pm _ h => exact absurd (htrap.symm.trans h) (by decide)
  | blocked _ _ h => omega
  | returned r u _ _ hu =>
    have hr : ((u.setEax c r).envs c).envTf.tfRegs.regEax = r := by
      unfold Kernel.setEax
      rw [Kernel.setEnv_envs_self]
    have hbox' : ((u.setEax c r).envs e).mailbox = (u.envs e).mailbox :=
      Kernel.setEnv_proj Env.mailbox (by rfl) e
    rw [hr] at heax
    rw [hbox'] at hbox
    rw [heax, hbox]
    cases hu with
    | memory pm _ _ _ hipc =>
      have hslt := hipc (Or.inl hno)
      refine Or.inr ⟨?_, (s.envs e).envIpcPerm, hent e⟩
      rintro rfl
      exact absurd hslt (by decide)
    | sent j pm _ hj hrecv =>
      obtain rfl := Option.some.inj (he.symm.trans hj)
      have hrecv' := congrArg Mailbox.recving (hent e)
      have hdst := congrArg Mailbox.dstva (hent e)
      refine Or.inl ⟨rfl, hrecv'.symm.trans hrecv, ?_⟩
      rw [Kernel.setEnv_envs_self]
      unfold Env.delivered Env.mailbox
      dsimp only
      rw [hid, show ((s.entered c tf).envs e).envIpcDstva = (s.envs e).envIpcDstva from hdst]
    | unsent j pm _ hj hrecv =>
      obtain rfl := Option.some.inj (he.symm.trans hj)
      refine Or.inr ⟨by decide, 0, ?_⟩
      rw [Kernel.setEnv_envs_self]
      rw [← hent e]
      rfl
    | _ => omega

/-- A caller that `sys_ipc_recv` blocks will find 0 in `eax`. -/
lemma Calls.blocked {s' : Kernel} {call : Call} (hcall : Calls s ev s' c call)
    (ho : Outcome s ev t) (hno : call.no.toNat = 13)
    (hva : call.a1 < utop → call.a1 % 0x1000 = 0) :
    (t.envs c).envIpcRecving = true ∧ (t.envs c).envTf.tfRegs.regEax = 0 := by
  obtain ⟨cpu, tf, u, hc, hst, htrap, rfl, rfl, heff, hs⟩ := hcall.effect ho
  have heax : (t.envs c).envTf.tfRegs.regEax = (u.envs c).envTf.tfRegs.regEax :=
    hs.proj (fun env => env.envTf.tfRegs.regEax) (fun _ _ _ _ => rfl) c
  have hrecv : (t.envs c).envIpcRecving = (u.envs c).envIpcRecving :=
    hs.proj Env.envIpcRecving (fun _ _ _ _ => rfl) c
  rw [heax, hrecv]
  cases heff with
  | reaped pm hd => exact absurd hd hst
  | destroyed pm₀ pm _ h => exact absurd (h htrap) (by omega)
  | entered _ h => exact absurd (h htrap) (by omega)
  | upcalled pm _ h => exact absurd (htrap.symm.trans h) (by decide)
  | blocked _ _ h =>
    rw [Kernel.setEnv_envs_self]
    exact ⟨rfl, rfl⟩
  | returned r u _ _ hu =>
    cases hu with
    | memory pm _ _ _ _ _ h =>
      obtain ⟨hlt, hal⟩ := h hno
      exact absurd (hva hlt) hal
    | _ => omega

/-- A slot that becomes live is that of a child of `sys_exofork`. -/
theorem Outcome.born (hE : EnvsIn none s) (ho : Outcome s ev t)
    (hfree : (s.envs e).envStatus = .free) (hlive : (t.envs e).envStatus ≠ .free) :
    ∃ cpu c tf cr2 cons d, ev = .trap cpu tf cr2 cons ∧ (s.cpus cpu).cpuEnv = some c ∧
      (s.envs c).envStatus ≠ .dying ∧ tf.tfTrapno = tSyscall ∧ tf.call.no.toNat = 7 ∧
      (forkedEnv (s.envs e) (s.envs c).envId tf e d).Resumed (t.envs e) := by
  cases ho with
  | user pm hev => exact absurd hfree hlive
  | wake hidle hs => exact absurd ((hs.envs e).free_iff.mpr hfree) hlive
  | @trap cpu c tf cr2 cons u _ hc hcs heff hs =>
    have hlive' : (u.envs e).envStatus ≠ .free :=
      fun hf => hlive ((hs.envs e).free_iff.mpr hf)
    have hec : e ≠ c := fun hec => hE.ne_free hc (hec ▸ hfree)
    have hent : (s.entered c tf).envs e = s.envs e := Kernel.setEnv_envs_of_ne hec
    have hfreed : ∀ (v : Kernel) (j : EnvIdx) (k : Cpu) (pm : Pmap),
        (v.envs e).envStatus = .free → ((v.freed k j pm).envs e).envStatus = .free := by
      intro v j k pm hv
      show (Function.update v.envs j _ e).envStatus = .free
      by_cases hej : e = j
      · subst hej
        rw [Function.update_self]
        rfl
      · rw [Function.update_of_ne hej]
        exact hv
    have hnone : ∀ {j : EnvIdx} {v : Env} (pm : Pmap),
        envOf (s.entered c tf) c tf.call.a1 true = some j ∨
          envOf (s.entered c tf) c tf.call.a1 false = some j →
        ((({ s.entered c tf with pm := pm } : Kernel).setEnv j v).envs e).envStatus = .free := by
      intro j v pm hj
      have hcf : ((s.entered c tf).envs c).envStatus ≠ .free := (hE.entered tf).ne_free hc
      have hjf : ((s.entered c tf).envs j).envStatus ≠ .free := by
        rcases hj with hj | hj <;> exact envOf_ne_free hcf hj
      have hej : e ≠ j := by
        rintro rfl
        exact hjf (by rw [hent]; exact hfree)
      rw [Kernel.setEnv_envs_of_ne hej]
      show ((s.entered c tf).envs e).envStatus = .free
      rw [hent]
      exact hfree
    have hentf : ((s.entered c tf).envs e).envStatus = .free := by
      rw [hent]
      exact hfree
    cases heff with
    | reaped pm hd => exact absurd (hfreed s c cpu pm hfree) hlive'
    | destroyed pm₀ pm hd =>
      exact absurd (hfreed { s.entered c tf with pm := pm₀ } c cpu pm hentf) hlive'
    | entered hd => exact absurd hentf hlive'
    | upcalled pm hd =>
      unfold Kernel.upcalled at hlive'
      rw [Kernel.setEnv_envs_of_ne hec] at hlive'
      exact absurd hentf hlive'
    | blocked hd =>
      rw [Kernel.setEnv_envs_of_ne hec] at hlive'
      exact absurd hentf hlive'
    | returned r u hd htrap hu =>
      have heax : (u.setEax c r).envs e = u.envs e := Kernel.setEnv_envs_of_ne hec
      have hres := hs.envs e
      rw [heax] at hlive' hres
      cases hu with
      | memory pm => exact absurd hentf hlive'
      | marked j hno hj => exact absurd (hnone (s.entered c tf).pm (Or.inl hj)) hlive'
      | freed j pm => exact absurd (hfreed (s.entered c tf) j cpu pm hentf) hlive'
      | forked j d pm hno hfl =>
        have hother : ∀ i, i ≠ j → ((s.entered c tf).allocated j ((s.entered c tf).envs c).envId
            d pm).envs i = (s.entered c tf).envs i := fun i hi => Function.update_of_ne hi _ _
        by_cases hej : e = j
        · subst hej
          have hframe : ((s.entered c tf).envs c).envTf = tf := by
            unfold Kernel.entered
            rw [Kernel.setEnv_envs_self]
          have hid : ((s.entered c tf).envs c).envId = (s.envs c).envId :=
            Kernel.setEnv_proj Env.envId (by rfl) c
          rw [Kernel.setEnv_envs_self, hother c (fun h => hec h.symm), hframe, hid, hent] at hres
          exact ⟨cpu, c, tf, cr2, cons, d, rfl, hc, hd, htrap, hno, hres⟩
        · rw [Kernel.setEnv_envs_of_ne hej, hother e hej] at hlive'
          exact absurd hentf hlive'
      | status j st hno hj => exact absurd (hnone (s.entered c tf).pm (Or.inl hj)) hlive'
      | frame j tf' pm hno hj => exact absurd (hnone pm (Or.inl hj)) hlive'
      | upcall j hno hj => exact absurd (hnone (s.entered c tf).pm (Or.inl hj)) hlive'
      | sent j pm hno hj => exact absurd (hnone pm (Or.inr hj)) hlive'
      | unsent j pm hno hj => exact absurd (hnone pm (Or.inr hj)) hlive'

end SistemasOperativos.Kern
