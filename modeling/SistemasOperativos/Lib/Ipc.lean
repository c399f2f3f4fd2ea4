import SistemasOperativos.Kern.Receivers
import SistemasOperativos.Kern.Frames

/-!
# Receiving messages

`ipc_recv` of `lib/ipc.c` blocks in `sys_ipc_recv` and then reads the message out of `thisenv`,
one field after another, in user mode. Environments take these steps and system calls in any
order; the messages an environment reads are the ones that were sent to it.
-/

namespace SistemasOperativos.Lib

open Library Kern

/-- Where an environment stands in `ipc_recv`. -/
inductive Reader
  | out
  | waiting
  | returned
  | gotFrom (f : Word)
  | gotPerm (f perm : Word)
  deriving DecidableEq

/-- The kernel and the programs that run on it. -/
structure IpcState where
  kernel : Kernel
  reader : EnvIdx → Reader

inductive IpcEvent
  /-- a step of the kernel -/
  | kernel (ev : Event)
  /-- `sys_ipc_recv` returns to `e` -/
  | returns (e : EnvIdx)
  | readFrom (e : EnvIdx)
  | readPerm (e : EnvIdx)
  /-- `ipc_recv` returns the message with sender `f` to `e` -/
  | receive (e : EnvIdx) (f value : Word)

/-- The trap `ev` is a system call `call` of `c`. -/
def callOf (s : Kernel) : Event → Option (EnvIdx × Kernel × Call)
  | .trap cpu tf _ _ =>
    match (s.cpus cpu).cpuEnv with
    | some c =>
      if (s.envs c).envStatus ≠ .dying ∧ tf.tfTrapno = tSyscall then
        some (c, s.entered c tf, tf.call)
      else none
    | none => none
  | _ => none

/-- The step `ev` is a call of `sys_ipc_recv` that blocks `e`. -/
def blocks (s : Kernel) (ev : Event) (e : EnvIdx) : Bool :=
  match callOf s ev with
  | some (c, _, call) =>
    c = e ∧ call.no.toNat = 13 ∧ (call.a1 < utop → call.a1 % 0x1000 = 0)
  | none => false

/-- The sender and the value, when the step `ev` to `t` is a call of `sys_ipc_try_send` to `e`
that returns 0. -/
def sendTo (s : Kernel) (ev : Event) (t : Kernel) (e : EnvIdx) : Option (Word × Word) :=
  match callOf s ev with
  | some (c, s', call) =>
    if call.no.toNat = 12 ∧ envOf s' c call.a1 false = some e ∧
        (t.envs c).envTf.tfRegs.regEax = 0 then
      some ((s.envs c).envId, call.a2)
    else none
  | none => none

/-- The readers after a step of the kernel. -/
def IpcState.stepped (s : IpcState) (ev : Event) (t : Kernel) : IpcState where
  kernel := t
  reader e :=
    if (t.envs e).envStatus = .free then .out
    else if blocks s.kernel ev e then .waiting
    else s.reader e

def IpcState.setReader (s : IpcState) (e : EnvIdx) (r : Reader) : IpcState :=
  { s with reader := Function.update s.reader e r }

/-- `e` runs on some processor. -/
def Runs.At (s : Kernel) (e : EnvIdx) : Prop := ∃ k, (s.cpus k).cpuEnv = some e

/-- The program of an environment enters `sys_ipc_recv` only from `ipc_recv`, and leaves it
before it traps again. -/
structure InCode (s : IpcState) (ev : Event) : Prop where
  left : ∀ cpu tf cr2 cons c, ev = .trap cpu tf cr2 cons → (s.kernel.cpus cpu).cpuEnv = some c →
    s.reader c ≠ .waiting
  entered : ∀ e, blocks s.kernel ev e = true → s.reader e = .out

inductive IpcStep (s : IpcState) : IpcEvent → IpcState → Prop
  | kernel {ev : Event} {t : Kernel} (hst : Step s.kernel ev t) (hcode : InCode s ev) :
      IpcStep s (.kernel ev) (s.stepped ev t)
  | returns {e : EnvIdx} (hrun : Runs.At s.kernel e) (hr : s.reader e = .waiting) :
      IpcStep s (.returns e) (s.setReader e
        (if (s.kernel.envs e).envTf.tfRegs.regEax.slt 0 then .out else .returned))
  | readFrom {e : EnvIdx} (hrun : Runs.At s.kernel e) (hr : s.reader e = .returned) :
      IpcStep s (.readFrom e) (s.setReader e (.gotFrom (s.kernel.envs e).envIpcFrom))
  | readPerm {e : EnvIdx} {f : Word} (hrun : Runs.At s.kernel e)
      (hr : s.reader e = .gotFrom f) :
      IpcStep s (.readPerm e) (s.setReader e (.gotPerm f (s.kernel.envs e).envIpcPerm))
  | receive {e : EnvIdx} {f perm : Word} (hrun : Runs.At s.kernel e)
      (hr : s.reader e = .gotPerm f perm) :
      IpcStep s (.receive e f (s.kernel.envs e).envIpcValue) (s.setReader e .out)

abbrev IpcMove := Move IpcState IpcEvent

abbrev IpcRuns (B : Boot) : List IpcMove → IpcState → Prop :=
  Run (fun s => Booted B s.kernel ∧ s.reader = fun _ => .out) IpcStep

/-! ### Messages -/

/-- The message to `e` in one step. -/
def sentIn (e : EnvIdx) (m : IpcMove) : List (Word × Word) :=
  match m.label with
  | .kernel ev => (sendTo m.pre.kernel ev m.post.kernel e).toList
  | _ => []

/-- The message `ipc_recv` returns to `e` in one step. -/
def receivedIn (e : EnvIdx) (m : IpcMove) : List (Word × Word) :=
  match m.label with
  | .receive j f value => if j = e then [(f, value)] else []
  | _ => []

/-- What has happened to the environment in slot `e` since it was made. -/
def since (f : IpcMove → List (Word × Word)) (e : EnvIdx) (h : List IpcMove) :
    List (Word × Word) :=
  h.foldl (fun log m => if (m.post.kernel.envs e).envStatus = .free then [] else log ++ f m) []

/-- The sends to `e` that returned 0, in this order. -/
def sent (e : EnvIdx) (h : List IpcMove) : List (Word × Word) := since (sentIn e) e h

/-- The messages that calls of `ipc_recv` have returned to `e`. -/
def received (e : EnvIdx) (h : List IpcMove) : List (Word × Word) := since (receivedIn e) e h

/-- Every message has been read, in order, except that an environment in `ipc_recv` may have
the last one before it. -/
def IpcOk (h : List IpcMove) (s : IpcState) : Prop :=
  ∀ e, (s.kernel.envs e).envStatus ≠ .free →
    sent e h = received e h ∨ (s.reader e ≠ .out ∧ ∃ p, sent e h = received e h ++ [p])

/-- The condition on one step: `sys_env_set_status` makes no blocked receiver runnable, and
`sys_env_set_trapframe` gives no environment in `ipc_recv` another frame. This is asked for up to the
last read of the mailbox: with another frame the environment would go on elsewhere, and the message that
it has not returned yet would be lost, while `reader` here goes on with the reads. -/
def IpcGuard (s : IpcState) : IpcEvent → Prop
  | .kernel ev => RecvGuard s.kernel ev ∧ ∀ s' c call, Calls s.kernel ev s' c call →
      call.no.toNat = 9 → ∀ e, envOf s' c call.a1 true = some e → s.reader e = .out
  | _ => True

/-! ### The invariant -/

/-- What is left to be read of the mailbox. -/
def Reader.pending (r : Reader) (box : Mailbox) : List (Word × Word) :=
  match r with
  | .out => []
  | .waiting => if box.recving then [] else [(box.from_, box.value)]
  | .returned => [(box.from_, box.value)]
  | .gotFrom f => [(f, box.value)]
  | .gotPerm f _ => [(f, box.value)]

/-- The message that has been delivered to `e` and that `ipc_recv` has not returned. -/
def pending (s : IpcState) (e : EnvIdx) : List (Word × Word) :=
  (s.reader e).pending (s.kernel.envs e).mailbox

/-- What is known of the slot `e`. -/
structure SlotIn (h : List IpcMove) (s : IpcState) (e : EnvIdx) : Prop where
  dead : (s.kernel.envs e).envStatus = .free →
    s.reader e = .out ∧ sent e h = [] ∧ received e h = []
  live : (s.kernel.envs e).envStatus ≠ .free → sent e h = received e h ++ pending s e
  recving : (s.kernel.envs e).envStatus ≠ .free → (s.kernel.envs e).envIpcRecving = true →
    s.reader e = .waiting
  eax : s.reader e = .waiting → (s.kernel.envs e).envTf.tfRegs.regEax = 0

structure IpcIn (h : List IpcMove) (s : IpcState) : Prop where
  envs : EnvsIn none s.kernel
  recv : RecvIn none s.kernel
  slots : ∀ e, SlotIn h s e

variable {B : Boot} {s t : IpcState} {k : Kernel} {e c : EnvIdx} {ev : Event}
  {h : List IpcMove} {m : IpcMove}

@[simp] lemma IpcState.setReader_self (s : IpcState) {r : Reader} :
    (s.setReader e r).reader e = r := Function.update_self ..

@[simp] lemma IpcState.setReader_setReader (s : IpcState) {q r : Reader} :
    (s.setReader e q).setReader e r = s.setReader e r := by
  unfold setReader
  rw [Function.update_idem]

lemma IpcState.setReader_kernel (s : IpcState) {r : Reader} :
    (s.setReader e r).kernel = s.kernel := rfl

lemma callOf_iff {s s' : Kernel} {call : Call} :
    callOf s ev = some (c, s', call) ↔ Calls s ev s' c call := by
  constructor
  · intro h
    unfold callOf at h
    split at h
    · split at h
      · split at h
        · rename_i hc hst
          cases h
          exact .trap hc hst.1 hst.2
        · cases h
      · cases h
    · cases h
  · rintro ⟨hc, hst, hno⟩
    unfold callOf
    dsimp only
    rw [hc]
    dsimp only
    rw [if_pos ⟨hst, hno⟩]

lemma blocks_iff {s : Kernel} : blocks s ev e = true ↔ ∃ s' call, Calls s ev s' e call ∧
    call.no.toNat = 13 ∧ (call.a1 < utop → call.a1 % 0x1000 = 0) := by
  unfold blocks
  constructor
  · intro h
    split at h
    · rename_i c s' call hcall
      obtain ⟨rfl, hno, hva⟩ := of_decide_eq_true h
      exact ⟨s', call, callOf_iff.mp hcall, hno, hva⟩
    · cases h
  · rintro ⟨s', call, hcall, hno, hva⟩
    rw [callOf_iff.mpr hcall]
    exact decide_eq_true ⟨rfl, hno, hva⟩

lemma sendTo_some {s t : Kernel} {p : Word × Word} (h : sendTo s ev t e = some p) :
    ∃ s' c call, Calls s ev s' c call ∧ call.no.toNat = 12 ∧
      envOf s' c call.a1 false = some e ∧ (t.envs c).envTf.tfRegs.regEax = 0 ∧
      p = ((s.envs c).envId, call.a2) := by
  unfold sendTo at h
  split at h
  · rename_i c s' call hcall
    split at h
    · rename_i hsend
      exact ⟨s', c, call, callOf_iff.mp hcall, hsend.1, hsend.2.1, hsend.2.2,
        (Option.some.inj h).symm⟩
    · cases h
  · cases h

lemma sendTo_none {s t s' : Kernel} {call : Call} (h : sendTo s ev t e = none)
    (hcall : Calls s ev s' c call) (hno : call.no.toNat = 12)
    (he : envOf s' c call.a1 false = some e) : (t.envs c).envTf.tfRegs.regEax ≠ 0 := by
  intro heax
  unfold sendTo at h
  rw [callOf_iff.mpr hcall] at h
  dsimp only at h
  rw [if_pos ⟨hno, he, heax⟩] at h
  cases h

lemma since_concat (f : IpcMove → List (Word × Word)) (e : EnvIdx) (h : List IpcMove)
    (m : IpcMove) : since f e (h ++ [m]) =
      if (m.post.kernel.envs e).envStatus = .free then [] else since f e h ++ f m := by
  unfold since
  rw [List.foldl_append]
  rfl

/-- A mailbox that no message comes to and whose owner does not block. -/
lemma mailbox_kept (hE : EnvsIn none s.kernel) (hst : Step s.kernel ev k)
    (hlive : (s.kernel.envs e).envStatus ≠ .free) (hlive' : (k.envs e).envStatus ≠ .free)
    (hb : blocks s.kernel ev e = false) (hsend : sendTo s.kernel ev k e = none) :
    ∃ perm, (k.envs e).mailbox = { (s.kernel.envs e).mailbox with perm := perm } := by
  have ho := hst.outcome hE
  have hmailed := (ho.mailed hE hlive hlive').1
  generalize hbox : (k.envs e).mailbox = box at hmailed
  cases hmailed with
  | kept => exact ⟨_, rfl⟩
  | blocked hcall hno hva =>
    have hb' := blocks_iff.mpr ⟨_, _, hcall, hno, hva⟩
    rw [hb] at hb'
    cases hb'
  | delivered hcall hno he =>
    rcases hcall.sent ho hno he with ⟨h0, -, -⟩ | ⟨-, perm, hperm⟩
    · exact absurd h0 (sendTo_none hsend hcall hno he)
    · exact ⟨perm, hbox.symm.trans hperm⟩
  | unsent => exact ⟨0, rfl⟩

/-- The frame of an environment in `sys_ipc_recv`. -/
lemma frame_kept (hE : EnvsIn none s.kernel) (hcode : InCode s ev)
    (hg : IpcGuard s (.kernel ev)) (hst : Step s.kernel ev k)
    (hlive : (s.kernel.envs e).envStatus ≠ .free) (hlive' : (k.envs e).envStatus ≠ .free)
    (hr : s.reader e = .waiting) : (k.envs e).envTf = (s.kernel.envs e).envTf := by
  cases (hst.outcome hE).framed hE hlive hlive' with
  | kept hother hf => exact hf
  | trapped hev hc => exact absurd hr (hcode.left _ _ _ _ _ hev hc)
  | set hev hc hdy htrap hno he =>
    subst hev
    have hout := hg.2 _ _ _ (.trap hc hdy htrap) hno e he
    rw [hr] at hout
    cases hout

/-- A step of the kernel keeps what is known of a slot. -/
lemma SlotIn.kernel (hE : EnvsIn none s.kernel) (hs : SlotIn h s e) (hcode : InCode s ev)
    (hg : IpcGuard s (.kernel ev)) (hst : Step s.kernel ev k) :
    SlotIn (h ++ [⟨s, .kernel ev, s.stepped ev k⟩]) (s.stepped ev k) e := by
  have ho := hst.outcome hE
  have hsent : sent e (h ++ [⟨s, .kernel ev, s.stepped ev k⟩]) =
      if (k.envs e).envStatus = .free then [] else
        sent e h ++ (sendTo s.kernel ev k e).toList := since_concat _ _ _ _
  have hreceived : received e (h ++ [⟨s, .kernel ev, s.stepped ev k⟩]) =
      if (k.envs e).envStatus = .free then [] else received e h ++ [] := since_concat _ _ _ _
  by_cases hlive' : (k.envs e).envStatus = .free
  · have hreader : (s.stepped ev k).reader e = .out := if_pos hlive'
    rw [if_pos hlive'] at hsent hreceived
    refine ⟨fun _ => ⟨hreader, hsent, hreceived⟩, fun hl => absurd hlive' hl,
      fun hl => absurd hlive' hl, fun hw => ?_⟩
    rw [hreader] at hw
    cases hw
  rw [if_neg hlive'] at hsent hreceived
  rw [List.append_nil] at hreceived
  have hreader : (s.stepped ev k).reader e =
      if blocks s.kernel ev e then .waiting else s.reader e := if_neg hlive'
  have hcalls : ∀ {c s' call}, Calls s.kernel ev s' c call →
      ∀ j, (s'.envs j).envStatus = (s.kernel.envs j).envStatus := by
    rintro c s' call ⟨-, -, -⟩ j
    exact Kernel.setEnv_proj Env.envStatus (by rfl) j
  by_cases hlive : (s.kernel.envs e).envStatus = .free
  · -- a new environment
    obtain ⟨hout, hsent₀, hreceived₀⟩ := hs.dead hlive
    obtain ⟨cpu, d, tf, cr2, cons, dir, hev, hc, hdy, htrap, hno, st, runs, cpunum, henv, -⟩ :=
      ho.born hE hlive hlive'
    have hb : blocks s.kernel ev e = false := by
      rw [Bool.eq_false_iff]
      intro hb
      obtain ⟨s', call, hcall, -⟩ := blocks_iff.mp hb
      obtain ⟨cpu', tf', u, hc', -⟩ := hcall.effect ho
      exact hE.ne_free hc' hlive
    have hsend : sendTo s.kernel ev k e = none := by
      rw [Option.eq_none_iff_forall_not_mem]
      intro p hp
      obtain ⟨s', c', call, hcall, -, he, -⟩ := sendTo_some hp
      obtain ⟨cpu', tf', u, hc', -⟩ := hcall.effect ho
      have hne := envOf_ne_free (by rw [hcalls hcall]; exact hE.ne_free hc') he
      rw [hcalls hcall] at hne
      exact hne hlive
    rw [hb, hout] at hreader
    refine ⟨fun hf => absurd hf hlive', fun _ => ?_, fun _ hrecv => ?_, fun hw => ?_⟩
    · rw [hsent, hreceived, hsend, hsent₀, hreceived₀]
      unfold pending
      rw [hreader]
      rfl
    · have hrecv' : (k.envs e).envIpcRecving = true := hrecv
      rw [henv] at hrecv'
      cases hrecv'
    · rw [hreader] at hw
      cases hw
  have hold := hs.live hlive
  by_cases hb : blocks s.kernel ev e = true
  · -- its own call of `sys_ipc_recv`
    obtain ⟨s', call, hcall, hno, hva⟩ := blocks_iff.mp hb
    obtain ⟨hrecv, heax⟩ := hcall.blocked ho hno hva
    have hsend : sendTo s.kernel ev k e = none := by
      rw [Option.eq_none_iff_forall_not_mem]
      intro p hp
      obtain ⟨s'', c', call', hcall', hno', -⟩ := sendTo_some hp
      obtain ⟨-, -, rfl⟩ := hcall.unique hcall'
      omega
    rw [hb] at hreader
    refine ⟨fun hf => absurd hf hlive', fun _ => ?_, fun _ _ => hreader, fun _ => heax⟩
    rw [hsent, hreceived, hsend, hold]
    unfold pending
    rw [hcode.entered e hb, hreader]
    have hrecv' : ((s.stepped ev k).kernel.envs e).mailbox.recving = true := hrecv
    simp [Reader.pending, hrecv']
  rw [Bool.not_eq_true] at hb
  rw [hb] at hreader
  have hreader' : (s.stepped ev k).reader e = s.reader e := hreader
  have hframe : (s.stepped ev k).reader e = .waiting → (k.envs e).envTf.tfRegs.regEax = 0 := by
    intro hw
    rw [hreader'] at hw
    rw [frame_kept hE hcode hg hst hlive hlive' hw]
    exact hs.eax hw
  cases hsend : sendTo s.kernel ev k e with
  | some p =>
    -- a message is delivered
    obtain ⟨s', c', call, hcall, hno, he, h0, rfl⟩ := sendTo_some hsend
    rcases hcall.sent ho hno he with ⟨-, hrecv, hbox⟩ | ⟨hne, -⟩
    · have hwait := hs.recving hlive hrecv
      have hrecv' : (k.envs e).envIpcRecving = false := congrArg Mailbox.recving hbox
      have hboxrecv : (s.kernel.envs e).mailbox.recving = true := hrecv
      refine ⟨fun hf => absurd hf hlive', fun _ => ?_, fun _ hr => ?_, hframe⟩
      · rw [hsent, hreceived, hsend, hold]
        unfold pending
        rw [hreader', hwait, show ((s.stepped ev k).kernel.envs e).mailbox = _ from hbox]
        simp [Reader.pending, hboxrecv]
      · have hr' : (k.envs e).envIpcRecving = true := hr
        rw [hrecv'] at hr'
        cases hr'
    · exact absurd h0 hne
  | none =>
    obtain ⟨perm, hbox⟩ := mailbox_kept hE hst hlive hlive' hb hsend
    have hrecv : (k.envs e).envIpcRecving = (s.kernel.envs e).envIpcRecving :=
      congrArg Mailbox.recving hbox
    have hpending : pending (s.stepped ev k) e = pending s e := by
      unfold pending
      rw [hreader', show ((s.stepped ev k).kernel.envs e).mailbox = _ from hbox]
      cases s.reader e <;> rfl
    refine ⟨fun hf => absurd hf hlive', fun _ => ?_, fun _ hr => ?_, hframe⟩
    · rw [hsent, hreceived, hsend, hold, hpending]
      simp
    · rw [hreader']
      exact hs.recving hlive (hrecv.symm.trans hr)

/-- A step of the environment `e` in user mode keeps what is known of a slot. -/
lemma SlotIn.user {r : Reader} {l : IpcEvent} {j : EnvIdx} (hs : SlotIn h s j)
    (hsentIn : sentIn j ⟨s, l, s.setReader e r⟩ = [])
    (hlive : (s.kernel.envs e).envStatus ≠ .free)
    (hrecv : (s.kernel.envs e).envIpcRecving = false) (hr : r ≠ .waiting)
    (hself : pending s e = receivedIn e ⟨s, l, s.setReader e r⟩ ++
      r.pending (s.kernel.envs e).mailbox)
    (hother : j ≠ e → receivedIn j ⟨s, l, s.setReader e r⟩ = []) :
    SlotIn (h ++ [⟨s, l, s.setReader e r⟩]) (s.setReader e r) j := by
  have hsent : sent j (h ++ [⟨s, l, s.setReader e r⟩]) =
      if (s.kernel.envs j).envStatus = .free then [] else
        sent j h ++ sentIn j ⟨s, l, s.setReader e r⟩ := since_concat _ _ _ _
  have hreceived : received j (h ++ [⟨s, l, s.setReader e r⟩]) =
      if (s.kernel.envs j).envStatus = .free then [] else
        received j h ++ receivedIn j ⟨s, l, s.setReader e r⟩ := since_concat _ _ _ _
  rw [hsentIn, List.append_nil] at hsent
  by_cases hje : j = e
  · subst hje
    have hreader : (s.setReader j r).reader j = r := s.setReader_self
    rw [if_neg hlive] at hsent hreceived
    refine ⟨fun hf => absurd hf hlive, fun _ => ?_, fun _ hset => ?_, fun hw => ?_⟩
    · rw [hsent, hreceived, hs.live hlive, hself, List.append_assoc]
      unfold pending
      rw [hreader]
      rfl
    · have hset' : (s.kernel.envs j).envIpcRecving = true := hset
      rw [hrecv] at hset'
      cases hset'
    · rw [hreader] at hw
      exact absurd hw hr
  · have hreader : (s.setReader e r).reader j = s.reader j := Function.update_of_ne hje ..
    rw [hother hje, List.append_nil] at hreceived
    refine ⟨fun hf => ?_, fun hl => ?_, fun hl hset => ?_, fun hw => ?_⟩
    · have hf' : (s.kernel.envs j).envStatus = .free := hf
      obtain ⟨hout, -, -⟩ := hs.dead hf'
      rw [if_pos hf'] at hsent hreceived
      exact ⟨hreader.trans hout, hsent, hreceived⟩
    · have hl' : (s.kernel.envs j).envStatus ≠ .free := hl
      rw [if_neg hl'] at hsent hreceived
      rw [hsent, hreceived, hs.live hl']
      unfold pending
      rw [hreader]
      rfl
    · exact hreader.trans (hs.recving hl hset)
    · exact hs.eax (hreader.symm.trans hw)

/-- An environment that runs is not receiving. -/
lemma IpcIn.runs (hs : IpcIn h s) (hrun : Runs.At s.kernel e) :
    (s.kernel.envs e).envStatus ≠ .free ∧ (s.kernel.envs e).envIpcRecving = false := by
  obtain ⟨k, hk⟩ := hrun
  refine ⟨hs.envs.ne_free hk, ?_⟩
  rw [← Bool.not_eq_true]
  intro hset
  exact (hs.recv e hset).2 k (by simp) hk

lemma IpcIn.start (hs : Booted B s.kernel) (hr : s.reader = fun _ => .out) : IpcIn [] s := by
  have hreader : ∀ e, s.reader e = .out := fun e => by rw [hr]
  have hrecv : ∀ e, (s.kernel.envs e).envIpcRecving = true → False := by
    intro e he
    rw [hs.recving e] at he
    cases he
  refine ⟨hs.ok.envs, fun e he => (hrecv e he).elim, fun e => ?_⟩
  refine ⟨fun _ => ⟨hreader e, rfl, rfl⟩, fun _ => ?_, fun _ he => (hrecv e he).elim, fun hw => ?_⟩
  · unfold pending
    rw [hreader]
    rfl
  · rw [hreader] at hw
    cases hw

lemma IpcIn.step {l : IpcEvent} (hs : IpcIn h s) (hg : IpcGuard s l) (hst : IpcStep s l t) :
    IpcIn (h ++ [⟨s, l, t⟩]) t := by
  cases hst with
  | kernel hst hcode =>
    refine ⟨hs.envs.step hst hg.1.cpus, hs.recv.step hs.envs hg.1 (hst.outcome hs.envs), ?_⟩
    exact fun e => (hs.slots e).kernel hs.envs hcode hg hst
  | @returns e hrun hr =>
    obtain ⟨hlive, hrecv⟩ := hs.runs hrun
    have heax := (hs.slots e).eax hr
    rw [heax, if_neg (by decide)]
    refine ⟨hs.envs, hs.recv, fun j => (hs.slots j).user rfl hlive hrecv (by simp) ?_ (fun _ => rfl)⟩
    have hbox : (s.kernel.envs e).mailbox.recving = false := hrecv
    unfold pending
    rw [hr]
    simp [Reader.pending, receivedIn, hbox]
  | @readFrom e hrun hr =>
    obtain ⟨hlive, hrecv⟩ := hs.runs hrun
    refine ⟨hs.envs, hs.recv, fun j => (hs.slots j).user rfl hlive hrecv (by simp) ?_ (fun _ => rfl)⟩
    unfold pending
    rw [hr]
    rfl
  | @readPerm e f hrun hr =>
    obtain ⟨hlive, hrecv⟩ := hs.runs hrun
    refine ⟨hs.envs, hs.recv, fun j => (hs.slots j).user rfl hlive hrecv (by simp) ?_ (fun _ => rfl)⟩
    unfold pending
    rw [hr]
    rfl
  | @receive e f perm hrun hr =>
    obtain ⟨hlive, hrecv⟩ := hs.runs hrun
    refine ⟨hs.envs, hs.recv, fun j => (hs.slots j).user rfl hlive hrecv (by simp) ?_
      (fun hje => if_neg (Ne.symm hje))⟩
    have hin : receivedIn e ⟨s, .receive e f (s.kernel.envs e).envIpcValue, s.setReader e .out⟩ =
        [(f, (s.kernel.envs e).envIpcValue)] := if_pos rfl
    rw [hin]
    unfold pending
    rw [hr]
    rfl

/-- A message sent is pending after the messages before it. -/
lemma IpcIn.pending_sent (hs : IpcIn h s)
    (ht : IpcIn (h ++ [⟨s, .kernel ev, s.stepped ev k⟩]) (s.stepped ev k))
    (hlive : (s.kernel.envs e).envStatus ≠ .free) (hlive' : (k.envs e).envStatus ≠ .free) :
    pending (s.stepped ev k) e = pending s e ++ (sendTo s.kernel ev k e).toList := by
  have hsent : sent e (h ++ [⟨s, .kernel ev, s.stepped ev k⟩]) =
      sent e h ++ (sendTo s.kernel ev k e).toList := (since_concat _ _ _ _).trans (if_neg hlive')
  have hreceived : received e (h ++ [⟨s, .kernel ev, s.stepped ev k⟩]) = received e h ++ [] :=
    (since_concat _ _ _ _).trans (if_neg hlive')
  have hafter := (ht.slots e).live hlive'
  rw [hsent, hreceived, (hs.slots e).live hlive, List.append_nil, List.append_assoc] at hafter
  exact (List.append_cancel_left hafter).symm

/-- A message that `ipc_recv` returns was pending. -/
lemma IpcIn.pending_read {i : IpcEvent} (hs : IpcIn h s) (ht : IpcIn (h ++ [⟨s, i, t⟩]) t)
    (hsent : sentIn e ⟨s, i, t⟩ = []) (hk : t.kernel = s.kernel)
    (hlive : (s.kernel.envs e).envStatus ≠ .free) :
    pending s e = receivedIn e ⟨s, i, t⟩ ++ pending t e := by
  have hlive' : (t.kernel.envs e).envStatus ≠ .free := by
    rw [hk]
    exact hlive
  have hs' : sent e (h ++ [⟨s, i, t⟩]) = sent e h ++ sentIn e ⟨s, i, t⟩ :=
    (since_concat _ _ _ _).trans (if_neg hlive')
  have hr' : received e (h ++ [⟨s, i, t⟩]) = received e h ++ receivedIn e ⟨s, i, t⟩ :=
    (since_concat _ _ _ _).trans (if_neg hlive')
  have hafter := (ht.slots e).live hlive'
  rw [hs', hr', hsent, List.append_nil, (hs.slots e).live hlive, List.append_assoc] at hafter
  exact List.append_cancel_left hafter

lemma Reader.pending_le {r : Reader} {box : Mailbox} :
    r.pending box = [] ∨ r ≠ .out ∧ ∃ p, r.pending box = [p] := by
  cases r with
  | out => exact Or.inl rfl
  | waiting =>
    unfold Reader.pending
    dsimp only
    split
    · exact Or.inl rfl
    · exact Or.inr ⟨by simp, _, rfl⟩
  | returned => exact Or.inr ⟨by simp, _, rfl⟩
  | gotFrom => exact Or.inr ⟨by simp, _, rfl⟩
  | gotPerm => exact Or.inr ⟨by simp, _, rfl⟩

/-- Every message is read, once and in order. -/
theorem ipc_of_run (hr : IpcRuns B h s) (hg : ∀ m ∈ h, IpcGuard m.pre m.label) : IpcOk h s := by
  have hrun : IpcIn h s := by
    apply hr.induct hg IpcIn
    · exact fun s hs => .start hs.1 hs.2
    · exact fun h s l t hs hg hst => hs.step hg hst
  intro e hlive
  have hsent := (hrun.slots e).live hlive
  rcases (Reader.pending_le : (s.reader e).pending (s.kernel.envs e).mailbox = [] ∨ _) with
    hp | ⟨hout, p, hp⟩
  · left
    rw [hsent]
    unfold pending
    rw [hp, List.append_nil]
  · right
    refine ⟨hout, p, ?_⟩
    rw [hsent]
    unfold pending
    rw [hp]

/-! ### A parent and its child -/

/-- The system call of the environment on processor 0. -/
def callEvent (no a1 a2 a3 : Word) : Event := .trap 0 (callFrame no a1 a2 a3 0 0) 0 0

def IpcState.called (s : IpcState) (no a1 a2 a3 : Word) : IpcState :=
  s.stepped (callEvent no a1 a2 a3) (after (trap 0 (callFrame no a1 a2 a3 0 0) 0 0) s.kernel)

/-- The program on processor 0 stores `b` at `va`. -/
def IpcState.stored (s : IpcState) (va : Word) (b : Byte) : IpcState :=
  match walk s.kernel.pm.mem (s.kernel.cpus 0).cr3 va with
  | some (_, pte) =>
    s.stepped (.store 0 va b) { s.kernel with
      pm := { s.kernel.pm with mem := setByte s.kernel.pm.mem (pgnum pte) (pgoff va) b } }
  | none => s

/-- Processor 0 runs the environment `c`, and the call does not stop the kernel. -/
def CanCall (s : IpcState) (c : EnvIdx) (no a1 a2 a3 : Word) : Prop :=
  (s.kernel.cpus 0).cpuEnv = some c ∧ s.reader c = .out ∧
    exitOf (trap 0 (callFrame no a1 a2 a3 0 0) 0 0) s.kernel = some .leave

instance (s : IpcState) (c : EnvIdx) (no a1 a2 a3 : Word) : Decidable (CanCall s c no a1 a2 a3) :=
  inferInstanceAs (Decidable (_ ∧ _ ∧ _))

/-- A run of the small machine whose steps meet `G`, with the messages sent to the environment
in slot 1 and those it has received. -/
def Traced (G : IpcState → IpcEvent → Prop) (s : IpcState) (l r : List (Word × Word)) : Prop :=
  EnvsIn none s.kernel ∧ RecvIn none s.kernel ∧ ∃ h, IpcRuns smallBoot h s ∧
    (∀ m ∈ h, G m.pre m.label) ∧ sent 1 h = l ∧ received 1 h = r

section

variable {no a1 a2 a3 cr2 cons : Word} {G : IpcState → IpcEvent → Prop} {l r : List (Word × Word)}
  {i : IpcEvent} {cpu : Cpu} {tf : Trapframe}

lemma CanCall.step (hc : CanCall s c no a1 a2 a3) :
    IpcStep s (.kernel (callEvent no a1 a2 a3)) (s.called no a1 a2 a3) := by
  obtain ⟨hcur, hout, hexit⟩ := hc
  have hcs : (callFrame no a1 a2 a3 0 0).tfCs &&& 3 = 3 := by
    show (gdUt ||| 3) &&& 3 = 3
    decide
  apply IpcStep.kernel (.trap (by rw [hcur]; simp) hcs (eq_error_of_exitOf hexit))
  constructor
  · rintro cpu tf cr2 cons j ⟨⟩ hj
    obtain rfl := Option.some.inj (hcur.symm.trans hj)
    rw [hout]
    simp
  · intro e hb
    obtain ⟨s', call, hcall, -⟩ := blocks_iff.mp hb
    cases hcall with
    | trap hj =>
      obtain rfl := Option.some.inj (hcur.symm.trans hj)
      exact hout

/-- The guard of a call that neither destroys an environment nor sets a status. -/
lemma recvGuard_trap {s : Kernel} (hR : RecvIn none s) (h3 : tf.call.no.toNat ≠ 3)
    (h8 : tf.call.no.toNat ≠ 8) : RecvGuard s (.trap cpu tf cr2 cons) := by
  constructor
  · intro j hj hst hno
    refine ⟨fun h => absurd h h3, fun h => absurd h h8, fun _ e _ hrecv k hk => ?_⟩
    have hsame : ((s.entered j tf).envs e).envIpcRecving = (s.envs e).envIpcRecving :=
      Kernel.setEnv_proj Env.envIpcRecving (by rfl) e
    exact absurd hk ((hR e (hsame.symm.trans hrecv)).2 k (by simp))
  · intro s' j call hcall hno
    cases hcall with
    | trap => exact absurd hno h8

lemma ipcGuard_trap (hg : RecvGuard s.kernel (.trap cpu tf cr2 cons))
    (h9 : tf.call.no.toNat ≠ 9) : IpcGuard s (.kernel (.trap cpu tf cr2 cons)) := by
  refine ⟨hg, fun s' j call hcall hno => ?_⟩
  cases hcall with
  | trap => exact absurd hno h9

lemma Traced.next (ht : Traced G s l r) (hst : IpcStep s i t) (hg : G s i)
    (hk : EnvsIn none t.kernel ∧ RecvIn none t.kernel)
    (hlive : (t.kernel.envs 1).envStatus ≠ .free) :
    Traced G t (l ++ sentIn 1 ⟨s, i, t⟩) (r ++ receivedIn 1 ⟨s, i, t⟩) := by
  obtain ⟨-, -, h, hr, hg', rfl, rfl⟩ := ht
  refine ⟨hk.1, hk.2, h ++ [⟨s, i, t⟩], .next hr hst, fun m hm => ?_, ?_, ?_⟩
  · rcases List.mem_append.mp hm with hm | hm
    · exact hg' m hm
    · obtain rfl := List.mem_singleton.mp hm
      exact hg
  · exact (since_concat _ _ _ _).trans (if_neg hlive)
  · exact (since_concat _ _ _ _).trans (if_neg hlive)

lemma Traced.call {o : Option (Word × Word)} (ht : Traced G s l r)
    (hc : CanCall s c no a1 a2 a3) (hrecv : RecvGuard s.kernel (callEvent no a1 a2 a3))
    (hg : G s (.kernel (callEvent no a1 a2 a3))) (heq : t = s.called no a1 a2 a3)
    (hlive : (t.kernel.envs 1).envStatus ≠ .free)
    (ho : sendTo s.kernel (callEvent no a1 a2 a3) t.kernel 1 = o) :
    Traced G t (l ++ o.toList) r := by
  subst heq
  have hst := hc.step
  have hk : EnvsIn none (s.called no a1 a2 a3).kernel ∧
      RecvIn none (s.called no a1 a2 a3).kernel := by
    cases hst with
    | kernel hst =>
      exact ⟨ht.1.step hst hrecv.cpus, ht.2.1.step ht.1 hrecv (hst.outcome ht.1)⟩
  have hnext := ht.next hst hg hk hlive
  rw [show receivedIn 1 _ = [] from rfl, List.append_nil] at hnext
  rw [← ho]
  exact hnext

lemma sendTo_trap {s t : Kernel} (h12 : tf.call.no.toNat ≠ 12) :
    sendTo s (.trap cpu tf cr2 cons) t e = none := by
  rw [Option.eq_none_iff_forall_not_mem]
  intro p hp
  obtain ⟨s', c, call, hcall, hno, -⟩ := sendTo_some hp
  cases hcall with
  | trap => exact h12 hno

lemma recving_callEvent {s : Kernel} (h0 : a1 ≠ 0) (hrecv : (s.envs (envx a1)).envIpcRecving = false) :
    ∀ s' c call, Calls s (callEvent no a1 a2 a3) s' c call → call.no.toNat = 8 →
      ∀ e, envOf s' c call.a1 true = some e → settableStatus call.a2 = some .runnable →
        (s'.envs e).envIpcRecving = false := by
  intro s' c call hcall _ e he _
  cases hcall with
  | trap =>
    obtain rfl := envOf_envx h0 he
    have hsame : ((s.entered c (callFrame no a1 a2 a3 0 0)).envs (envx a1)).envIpcRecving =
        (s.envs (envx a1)).envIpcRecving := Kernel.setEnv_proj Env.envIpcRecving (by rfl) _
    exact hsame.trans hrecv

/-- The call of `sys_ipc_recv` returns 0 and `ipc_recv` reads the message. -/
lemma Traced.reads (ht : Traced G s l r) (hg : ∀ s i, (∀ ev, i ≠ .kernel ev) → G s i)
    (hcur : (s.kernel.cpus 0).cpuEnv = some 1) (hr : s.reader 1 = .waiting)
    (heax : (s.kernel.envs 1).envTf.tfRegs.regEax = 0) (heq : t = s.setReader 1 .out) :
    Traced G t l (r ++ [((s.kernel.envs 1).envIpcFrom, (s.kernel.envs 1).envIpcValue)]) := by
  have hrun : Runs.At s.kernel 1 := ⟨0, hcur⟩
  have hlive := ht.1.ne_free hcur
  have hk : EnvsIn none s.kernel ∧ RecvIn none s.kernel := ⟨ht.1, ht.2.1⟩
  obtain ⟨f, hf⟩ : ∃ f, f = (s.kernel.envs 1).envIpcFrom := ⟨_, rfl⟩
  obtain ⟨perm, hperm⟩ : ∃ perm, perm = (s.kernel.envs 1).envIpcPerm := ⟨_, rfl⟩
  have hst₁ := IpcStep.returns hrun hr
  rw [heax, if_neg (by decide)] at hst₁
  have ht₁ : Traced G (s.setReader 1 .returned) l r := by
    simpa [sentIn, receivedIn] using ht.next hst₁ (hg _ _ (by simp)) hk hlive
  have hst₂ := IpcStep.readFrom (s := s.setReader 1 .returned) hrun s.setReader_self
  rw [IpcState.setReader_setReader, IpcState.setReader_kernel, ← hf] at hst₂
  have ht₂ : Traced G (s.setReader 1 (.gotFrom f)) l r := by
    simpa [sentIn, receivedIn] using ht₁.next hst₂ (hg _ _ (by simp)) hk hlive
  have hst₃ := IpcStep.readPerm (s := s.setReader 1 (.gotFrom f)) hrun s.setReader_self
  rw [IpcState.setReader_setReader, IpcState.setReader_kernel, ← hperm] at hst₃
  have ht₃ : Traced G (s.setReader 1 (.gotPerm f perm)) l r := by
    simpa [sentIn, receivedIn] using ht₂.next hst₃ (hg _ _ (by simp)) hk hlive
  have hst₄ := IpcStep.receive (s := s.setReader 1 (.gotPerm f perm)) hrun s.setReader_self
  rw [IpcState.setReader_setReader, IpcState.setReader_kernel] at hst₄
  rw [heq, ← hf]
  simpa [sentIn, receivedIn] using ht₃.next hst₄ (hg _ _ (by simp)) hk hlive

/-- The call of `sys_ipc_recv` returns an error. -/
lemma Traced.fails (ht : Traced G s l r) (hg : ∀ s i, (∀ ev, i ≠ .kernel ev) → G s i)
    (hcur : (s.kernel.cpus 0).cpuEnv = some 1) (hr : s.reader 1 = .waiting)
    (heax : (s.kernel.envs 1).envTf.tfRegs.regEax.slt 0 = true) (heq : t = s.setReader 1 .out) :
    Traced G t l r := by
  have hst := IpcStep.returns ⟨0, hcur⟩ hr
  rw [if_pos heax] at hst
  have ht' := ht.next hst (hg _ _ (by simp)) ⟨ht.1, ht.2.1⟩ (ht.1.ne_free hcur)
  rw [heq]
  simpa [sentIn, receivedIn] using ht'

/-- A call that sends nothing. -/
lemma Traced.quiet (ht : Traced G s l r) (hc : CanCall s c no a1 a2 a3)
    (hno : no.toNat ∉ [3, 8, 12]) (hg : RecvGuard s.kernel (callEvent no a1 a2 a3) →
      G s (.kernel (callEvent no a1 a2 a3))) (heq : t = s.called no a1 a2 a3)
    (hlive : (t.kernel.envs 1).envStatus ≠ .free) : Traced G t l r := by
  simp only [List.mem_cons, List.not_mem_nil, or_false, not_or] at hno
  have hrecv : RecvGuard s.kernel (callEvent no a1 a2 a3) :=
    recvGuard_trap ht.2.1 hno.1 hno.2.1
  have hcall := ht.call hc hrecv (hg hrecv) heq hlive (sendTo_trap hno.2.2)
  rw [Option.toList_none, List.append_nil] at hcall
  exact hcall

/-- A store of the program on processor 0. -/
lemma Traced.store {va : Word} {b : Byte} (ht : Traced G s l r)
    (hcur : (s.kernel.cpus 0).cpuEnv = some c)
    (hw : userWritable s.kernel.pm.mem (s.kernel.cpus 0).cr3 va = true)
    (hg : RecvGuard s.kernel (.store 0 va b) → G s (.kernel (.store 0 va b)))
    (hlive : (s.kernel.envs 1).envStatus ≠ .free) (heq : t = s.stored va b) : Traced G t l r := by
  have hrecv : RecvGuard s.kernel (.store 0 va b) := ⟨trivial, fun _ _ _ hcall => by cases hcall⟩
  have hcode : InCode s (.store 0 va b) :=
    ⟨fun _ _ _ _ _ hev _ => (by cases hev), fun _ hb => (by cases hb)⟩
  unfold IpcState.stored at heq
  cases hmap : walk s.kernel.pm.mem (s.kernel.cpus 0).cr3 va with
  | none =>
    unfold userWritable at hw
    rw [hmap] at hw
    cases hw
  | some entries =>
    have hst : Step s.kernel (.store 0 va b) _ := .store (by rw [hcur]; simp) hw hmap
    rw [hmap] at heq
    have hnext := ht.next (.kernel hst hcode) (hg hrecv)
      ⟨ht.1.step hst trivial, ht.2.1.step ht.1 hrecv (hst.outcome ht.1)⟩ hlive
    rw [heq]
    simpa [sentIn, receivedIn, sendTo, callOf] using hnext

end

lemma Traced.mono {G G' : IpcState → IpcEvent → Prop} {l r : List (Word × Word)}
    (ht : Traced G s l r) (hG : ∀ s i, G s i → G' s i) : Traced G' s l r := by
  obtain ⟨hE, hR, h, hr, hg, hs, hrec⟩ := ht
  exact ⟨hE, hR, h, hr, fun m hm => hG _ _ (hg m hm), hs, hrec⟩

def ipcStart : IpcState := (⟨smallBooted, fun _ => .out⟩ : IpcState).stepped (.wake 0) smallStart

def ipcFork : IpcState := ipcStart.called 7 0 0 0

def ipcChild : IpcState := ipcFork.called 8 0x1001 2 0

def ipcYield : IpcState := ipcChild.called 11 0 0 0

/-- The child waits for a message. -/
def ipcWait : IpcState := ipcYield.called 13 utop 0 0

lemma Traced.start {s t : Kernel} (hb : Booted smallBoot s) (hwake : Step s (.wake 0) t)
    (hfree : (t.envs 1).envStatus = .free) :
    Traced IpcGuard ((⟨s, fun _ => .out⟩ : IpcState).stepped (.wake 0) t) [] [] := by
  have hg : RecvGuard s (.wake 0) := ⟨trivial, fun _ _ _ hcall => by cases hcall⟩
  have hcode : InCode ⟨s, fun _ => .out⟩ (.wake 0) :=
    ⟨fun _ _ _ _ _ hev _ => (by cases hev), fun _ _ => rfl⟩
  have hE := hb.ok.envs
  have hR : RecvIn none s := by
    intro e he
    rw [hb.recving e] at he
    cases he
  refine ⟨hE.step hwake trivial, hR.step hE hg (hwake.outcome hE), _,
    .next (.start ⟨hb, rfl⟩) (.kernel hwake hcode), fun m hm => ?_, ?_, ?_⟩
  · obtain rfl := List.mem_singleton.mp hm
    exact ⟨hg, fun _ _ _ hcall => by cases hcall⟩
  · exact (since_concat _ _ _ _).trans (if_pos hfree)
  · exact (since_concat _ _ _ _).trans (if_pos hfree)

lemma ipcWait_traced : Traced IpcGuard ipcWait [] [] := by
  have hfacts : (smallStart.envs 1).envStatus = .free ∧ (CanCall ipcStart 0 7 0 0 0 ∧ CanCall ipcFork 0 8 0x1001 2 0 ∧
      CanCall ipcChild 0 11 0 0 0 ∧ CanCall ipcYield 1 13 utop 0 0) ∧
      ((ipcFork.kernel.envs 1).envStatus ≠ .free ∧ (ipcChild.kernel.envs 1).envStatus ≠ .free ∧
      (ipcYield.kernel.envs 1).envStatus ≠ .free ∧ (ipcWait.kernel.envs 1).envStatus ≠ .free) ∧
      ((ipcFork.kernel.envs (envx 0x1001)).envStatus ≠ .running ∧
      (ipcFork.kernel.envs (envx 0x1001)).envStatus ≠ .dying) ∧
      (ipcFork.kernel.envs (envx 0x1001)).envIpcRecving = false := by decide +kernel
  obtain ⟨hfree, ⟨hc₁, hc₂, hc₃, hc₄⟩, ⟨hl₁, hl₂, hl₃, hl₄⟩, ⟨hrun, hdy⟩, hrecv⟩ := hfacts
  have ht : Traced IpcGuard ipcStart [] [] := .start smallBooted_booted smallStart_step hfree
  have ht₁ : Traced IpcGuard ipcFork [] [] :=
    ht.quiet hc₁ (by decide) (fun h => ipcGuard_trap h (by decide)) rfl hl₁
  have h₂ : RecvGuard ipcFork.kernel (callEvent 8 0x1001 2 0) := by
    constructor
    · have hev : EventGuard ipcFork.kernel (callEvent 8 0x1001 2 0) :=
        eventGuard_setStatus ht₁.1 (by decide) hrun hdy
      exact hev.cpuEvent
    · exact recving_callEvent (by decide) hrecv
  have ht₂ : Traced IpcGuard ipcChild ([] ++ none.toList) [] :=
    ht₁.call hc₂ h₂ (ipcGuard_trap h₂ (by decide)) rfl hl₂ (sendTo_trap (by decide))
  have ht₃ : Traced IpcGuard ipcYield [] [] :=
    ht₂.quiet hc₃ (by decide) (fun h => ipcGuard_trap h (by decide)) rfl hl₃
  exact ht₃.quiet hc₄ (by decide) (fun h => ipcGuard_trap h (by decide)) rfl hl₄

/-- The parent has sent a message and yielded. -/
def ipcTold : IpcState := ipcWait.called 12 0x1001 41 utop

def ipcTurn : IpcState := ipcTold.called 11 0 0 0

def ipcRead : IpcState := ipcTurn.setReader 1 .out

theorem ipc_of_run_read : ∃ h, IpcRuns smallBoot h ipcRead ∧ IpcOk h ipcRead ∧
    received 1 h = [(0x1000, 41)] := by
  have hfacts : (CanCall ipcWait 0 12 0x1001 41 utop ∧ CanCall ipcTold 0 11 0 0 0) ∧
      ((ipcTold.kernel.envs 1).envStatus ≠ .free ∧ (ipcTurn.kernel.envs 1).envStatus ≠ .free) ∧
      sendTo ipcWait.kernel (callEvent 12 0x1001 41 utop) ipcTold.kernel 1 = some (0x1000, 41) ∧
      ((ipcTurn.kernel.cpus 0).cpuEnv = some 1 ∧ ipcTurn.reader 1 = .waiting ∧
      (ipcTurn.kernel.envs 1).envTf.tfRegs.regEax = 0) ∧
      (ipcTurn.kernel.envs 1).envIpcFrom = 0x1000 ∧
      (ipcTurn.kernel.envs 1).envIpcValue = 41 := by decide +kernel
  obtain ⟨⟨hc₁, hc₂⟩, ⟨hl₁, hl₂⟩, hsend, ⟨hcur, hw, heax⟩, hfrom, hvalue⟩ := hfacts
  have h₁ : RecvGuard ipcWait.kernel (callEvent 12 0x1001 41 utop) :=
    recvGuard_trap ipcWait_traced.2.1 (by decide) (by decide)
  have ht₁ : Traced IpcGuard ipcTold ([] ++ (some (0x1000, 41)).toList) [] :=
    ipcWait_traced.call hc₁ h₁ (ipcGuard_trap h₁ (by decide)) rfl hl₁ hsend
  have ht₂ : Traced IpcGuard ipcTurn _ _ := ht₁.quiet hc₂ (by decide) (fun h => ipcGuard_trap h (by decide)) rfl hl₂
  have hread : ∀ s i, (∀ ev, i ≠ .kernel ev) → IpcGuard s i := by
    intro s i hi
    cases i with
    | kernel ev => exact absurd rfl (hi ev)
    | _ => trivial
  obtain ⟨-, -, h, hr, hg, -, hrec⟩ := ht₂.reads (t := ipcRead) hread hcur hw heax rfl
  rw [hfrom, hvalue] at hrec
  exact ⟨h, hr, ipc_of_run hr hg, hrec⟩

/-! ### A frame for a waiting child -/

/-- The parent writes a frame to its stack page, with a negative value for `eax`. -/
def deaf₁ : IpcState := ipcWait.stored 0xeebfd01f 0xff
def deaf₂ : IpcState := deaf₁.stored 0xeebfd020 0x23
def deaf₃ : IpcState := deaf₂.stored 0xeebfd024 0x23
def deaf₄ : IpcState := deaf₃.stored 0xeebfd034 0x1b
def deaf₅ : IpcState := deaf₄.stored 0xeebfd040 0x23

/-- It gives the frame to the child, sends it a message and yields. -/
def deaf₆ : IpcState := deaf₅.called 9 0x1001 0xeebfd000 0
def deaf₇ : IpcState := deaf₆.called 12 0x1001 41 utop
def deaf₈ : IpcState := deaf₇.called 11 0 0 0

/-- The child takes the value of `eax` for an error and waits again; the parent sends it another
message and yields. -/
def deaf₉ : IpcState := deaf₈.setReader 1 .out
def deaf₁₀ : IpcState := deaf₉.called 13 utop 0 0
def deaf₁₁ : IpcState := deaf₁₀.called 12 0x1001 42 utop
def deaf₁₂ : IpcState := deaf₁₁.called 11 0 0 0
def deaf₁₃ : IpcState := deaf₁₂.setReader 1 .out

/-- No environment is made runnable by `sys_env_set_status` while it is receiving. -/
def StatusGuard (s : IpcState) (i : IpcEvent) : Prop :=
  ∀ ev, i = .kernel ev → RecvGuard s.kernel ev

/-- A message is lost. -/
theorem ipc_fails : ∃ h, IpcRuns smallBoot h deaf₁₃ ∧ (∀ m ∈ h, StatusGuard m.pre m.label) ∧
    sent 1 h = [(0x1000, 41), (0x1000, 42)] ∧ received 1 h = [(0x1000, 42)] := by
  have hfacts : ((ipcWait.kernel.cpus 0).cpuEnv = some 0 ∧
      (deaf₁.kernel.cpus 0).cpuEnv = some 0 ∧ (deaf₂.kernel.cpus 0).cpuEnv = some 0 ∧
      (deaf₃.kernel.cpus 0).cpuEnv = some 0 ∧ (deaf₄.kernel.cpus 0).cpuEnv = some 0) ∧
      (userWritable ipcWait.kernel.pm.mem (ipcWait.kernel.cpus 0).cr3 0xeebfd01f = true ∧
      userWritable deaf₁.kernel.pm.mem (deaf₁.kernel.cpus 0).cr3 0xeebfd020 = true ∧
      userWritable deaf₂.kernel.pm.mem (deaf₂.kernel.cpus 0).cr3 0xeebfd024 = true ∧
      userWritable deaf₃.kernel.pm.mem (deaf₃.kernel.cpus 0).cr3 0xeebfd034 = true ∧
      userWritable deaf₄.kernel.pm.mem (deaf₄.kernel.cpus 0).cr3 0xeebfd040 = true) ∧
      ((ipcWait.kernel.envs 1).envStatus ≠ .free ∧ (deaf₁.kernel.envs 1).envStatus ≠ .free ∧
      (deaf₂.kernel.envs 1).envStatus ≠ .free ∧ (deaf₃.kernel.envs 1).envStatus ≠ .free ∧
      (deaf₄.kernel.envs 1).envStatus ≠ .free ∧ (deaf₆.kernel.envs 1).envStatus ≠ .free ∧
      (deaf₇.kernel.envs 1).envStatus ≠ .free ∧ (deaf₈.kernel.envs 1).envStatus ≠ .free ∧
      (deaf₁₀.kernel.envs 1).envStatus ≠ .free ∧ (deaf₁₁.kernel.envs 1).envStatus ≠ .free ∧
      (deaf₁₂.kernel.envs 1).envStatus ≠ .free) ∧
      (CanCall deaf₅ 0 9 0x1001 0xeebfd000 0 ∧ CanCall deaf₆ 0 12 0x1001 41 utop ∧
      CanCall deaf₇ 0 11 0 0 0 ∧ CanCall deaf₉ 1 13 utop 0 0 ∧
      CanCall deaf₁₀ 0 12 0x1001 42 utop ∧ CanCall deaf₁₁ 0 11 0 0 0) ∧
      (sendTo deaf₆.kernel (callEvent 12 0x1001 41 utop) deaf₇.kernel 1 = some (0x1000, 41) ∧
      sendTo deaf₁₀.kernel (callEvent 12 0x1001 42 utop) deaf₁₁.kernel 1 = some (0x1000, 42)) ∧
      ((deaf₈.kernel.cpus 0).cpuEnv = some 1 ∧ deaf₈.reader 1 = .waiting ∧
      (deaf₈.kernel.envs 1).envTf.tfRegs.regEax.slt 0 = true) ∧
      ((deaf₁₂.kernel.cpus 0).cpuEnv = some 1 ∧ deaf₁₂.reader 1 = .waiting ∧
      (deaf₁₂.kernel.envs 1).envTf.tfRegs.regEax = 0) ∧
      (deaf₁₂.kernel.envs 1).envIpcFrom = 0x1000 ∧
      (deaf₁₂.kernel.envs 1).envIpcValue = 42 := by decide +kernel
  obtain ⟨⟨r₀, r₁, r₂, r₃, r₄⟩, ⟨w₀, w₁, w₂, w₃, w₄⟩, ⟨l₀, l₁, l₂, l₃, l₄, l₆, l₇, l₈, l₁₀, l₁₁, l₁₂⟩,
    ⟨c₅, c₆, c₇, c₉, c₁₀, c₁₁⟩, ⟨s₆, s₁₀⟩, ⟨r₈, q₈, e₈⟩, ⟨r₁₂, q₁₂, e₁₂⟩, hfrom, hvalue⟩ := hfacts
  have hg : ∀ {s : IpcState} {ev : Event}, RecvGuard s.kernel ev → StatusGuard s (.kernel ev) := by
    rintro s ev hrecv ev' ⟨⟩
    exact hrecv
  have hread : ∀ s i, (∀ ev, i ≠ .kernel ev) → StatusGuard s i :=
    fun s i hi ev hev => absurd hev (hi ev)
  have ht : Traced StatusGuard ipcWait [] [] := by
    apply ipcWait_traced.mono
    rintro s i hi ev rfl
    exact hi.1
  have t₁ : Traced StatusGuard deaf₁ [] [] := ht.store r₀ w₀ hg l₀ rfl
  have t₂ : Traced StatusGuard deaf₂ [] [] := t₁.store r₁ w₁ hg l₁ rfl
  have t₃ : Traced StatusGuard deaf₃ [] [] := t₂.store r₂ w₂ hg l₂ rfl
  have t₄ : Traced StatusGuard deaf₄ [] [] := t₃.store r₃ w₃ hg l₃ rfl
  have t₅ : Traced StatusGuard deaf₅ [] [] := t₄.store r₄ w₄ hg l₄ rfl
  have t₆ : Traced StatusGuard deaf₆ [] [] := t₅.quiet c₅ (by decide) hg rfl l₆
  have g₆ : RecvGuard deaf₆.kernel (callEvent 12 0x1001 41 utop) :=
    recvGuard_trap t₆.2.1 (by decide) (by decide)
  have t₇ : Traced StatusGuard deaf₇ ([] ++ (some (0x1000, 41)).toList) [] :=
    t₆.call c₆ g₆ (hg g₆) rfl l₇ s₆
  have t₈ : Traced StatusGuard deaf₈ _ _ := t₇.quiet c₇ (by decide) hg rfl l₈
  have t₉ : Traced StatusGuard deaf₉ _ _ := t₈.fails hread r₈ q₈ e₈ rfl
  have t₁₀ : Traced StatusGuard deaf₁₀ _ _ := t₉.quiet c₉ (by decide) hg rfl l₁₀
  have g₁₀ : RecvGuard deaf₁₀.kernel (callEvent 12 0x1001 42 utop) :=
    recvGuard_trap t₁₀.2.1 (by decide) (by decide)
  have t₁₁ : Traced StatusGuard deaf₁₁ (_ ++ (some (0x1000, 42)).toList) _ :=
    t₁₀.call c₁₀ g₁₀ (hg g₁₀) rfl l₁₁ s₁₀
  have t₁₂ : Traced StatusGuard deaf₁₂ _ _ := t₁₁.quiet c₁₁ (by decide) hg rfl l₁₂
  obtain ⟨-, -, h, hr, hguard, hsent, hrec⟩ := t₁₂.reads (t := deaf₁₃) hread r₁₂ q₁₂ e₁₂ rfl
  rw [hfrom, hvalue] at hrec
  exact ⟨h, hr, hguard, hsent, hrec⟩

end SistemasOperativos.Lib
