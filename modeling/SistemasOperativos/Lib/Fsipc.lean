import SistemasOperativos.Lib.Ipc
import SistemasOperativos.Kern.Names

/-!
# Requests to the file server

`fsipc` of `lib/file.c` sends a request and then receives; `serve` of `fs/serv.c` receives a
request, handles it and sends the result to whoever sent the request. Nothing in a message says
which request it answers.
-/

namespace SistemasOperativos.Lib

open Library Kern

/-- The id of the first environment of a type. -/
def ipcFindEnv (s : Kernel) (type : EnvType) : Word :=
  match (List.finRange 1024).find? fun i => (s.envs i).envType = type with
  | some i => (s.envs i).envId
  | none => 0

/-- Where the file server maps the page of a request. -/
def fsreq : Word := 0x0ffff000

/-- Where the program of an environment stands in `fsipc`. -/
inductive Client
  | out
  /-- in `ipc_send` -/
  | sending (fsenv type buf dstva : Word)
  /-- in `ipc_recv`, after the `k`th request -/
  | asked (k : ℕ) (dstva : Word)
  deriving DecidableEq

/-- Where the file server stands in `serve`. -/
inductive Server
  /-- in `ipc_recv`, or on the way to it -/
  | idle
  | handling (k : ℕ) (whom : Word)
  /-- in `ipc_send` -/
  | replying (k : ℕ) (whom r pg perm : Word)
  | panicked
  /-- destroyed -/
  | gone
  deriving DecidableEq

/-- The request the file server is busy with. -/
def Server.current : Server → Option (ℕ × Word)
  | handling k whom => some (k, whom)
  | replying k whom _ _ _ => some (k, whom)
  | _ => none

/-- What the file server has sent in reply to a request. -/
structure Reply where
  value : Word
  pg : Word
  perm : Word

structure FsState where
  ipc : IpcState
  server : Server
  /-- the number of requests sent to the file server -/
  asked : ℕ
  /-- the number of requests the file server has received -/
  served : ℕ
  /-- the reply to each request -/
  reply : ℕ → Option Reply
  client : EnvIdx → Client
  /-- what `ipc_find_env` has returned so far -/
  found : List Word

inductive FsEvent
  /-- a step of the kernel -/
  | kernel (ev : Event)
  /-- a step inside `ipc_recv` -/
  | user (i : IpcEvent)
  /-- `e` calls `fsipc` with the request in `buf` -/
  | call (e : EnvIdx) (type buf dstva : Word)
  /-- the file server has handled a request and calls `ipc_send` -/
  | handled (r pg perm : Word)

/-- The step `ev` is the system call `no` of `e`. -/
def callsNo (s : Kernel) (ev : Event) (e : EnvIdx) (no : ℕ) : Bool :=
  match callOf s ev with
  | some (c, _, call) => c = e ∧ call.no.toNat = no
  | none => false

/-- What a system call has returned to `e`. -/
def returnedTo (t : Kernel) (e : EnvIdx) : Word := (t.envs e).envTf.tfRegs.regEax

/-- The loop of `ipc_send` goes on, ends, or panics. -/
def sendLoop {α : Type} (r : Word) (sending sent panicked : α) : α :=
  if r.slt 0 then
    if r = -eIpcNotRecv then sending else panicked
  else sent

section

variable (fs : EnvIdx) (s : FsState) (ev : Event) (t : Kernel)

def FsState.serverAfter : Server :=
  if (t.envs fs).envStatus = .free then .gone
  else
    match s.server with
    | .replying _ _ _ _ _ =>
      if callsNo s.ipc.kernel ev fs 12 then sendLoop (returnedTo t fs) s.server .idle .panicked
      else s.server
    | _ => s.server

def FsState.replyAfter : ℕ → Option Reply :=
  match s.server with
  | .replying k _ r pg perm =>
    if callsNo s.ipc.kernel ev fs 12 ∧ (returnedTo t fs).slt 0 = false then
      Function.update s.reply k (some ⟨r, pg, perm⟩)
    else s.reply
  | _ => s.reply

def FsState.clientAfter (e : EnvIdx) : Client :=
  if (t.envs e).envStatus = .free then .out
  else
    match s.client e with
    | .out => .out
    | .sending _ _ _ dstva =>
      if callsNo s.ipc.kernel ev e 12 then
        sendLoop (returnedTo t e) (s.client e) (.asked (s.asked + 1) dstva) .out
      else s.client e
    | .asked _ _ =>
      if callsNo s.ipc.kernel ev e 13 ∧ blocks s.ipc.kernel ev e = false then .out
      else s.client e

/-- The programs after a step of the kernel. -/
def FsState.stepped : FsState where
  ipc := s.ipc.stepped ev t
  server := s.serverAfter fs ev t
  asked := if (sendTo s.ipc.kernel ev t fs).isSome then s.asked + 1 else s.asked
  served := s.served
  reply := s.replyAfter fs ev t
  client := s.clientAfter ev t
  found := s.found

/-- The permission that `ipc_recv` has read. -/
def Reader.perm : Reader → Word
  | .gotPerm _ perm => perm
  | _ => 0

/-- The programs after a step inside `ipc_recv`. -/
def FsState.read (i : IpcEvent) (u : IpcState) : FsState :=
  match i with
  | .returns e =>
    { s with
      ipc := u
      client := if (returnedTo s.ipc.kernel e).slt 0 then Function.update s.client e .out
        else s.client }
  | .receive e f _ =>
    { s with
      ipc := u
      client := Function.update s.client e .out
      served := if e = fs ∧ s.server = .idle then s.served + 1 else s.served
      server := if e = fs ∧ s.server = .idle then
          if has (s.ipc.reader e).perm pteP then .handling (s.served + 1) f else .idle
        else s.server }
  | _ => { s with ipc := u }

/-- The programs of the file server and of the clients make their system calls. -/
structure FsCode : Prop where
  ipc : InCode s.ipc ev
  reply : ∀ s' call, Calls s.ipc.kernel ev s' fs call → call.no.toNat = 12 →
    s.server = .gone ∨ ∃ k, s.server = .replying k call.a1 call.a2 call.a3 call.a4
  serve : ∀ s' call, Calls s.ipc.kernel ev s' fs call → call.no.toNat = 13 →
    s.server = .gone ∨ (s.server = .idle ∧ call.a1 = fsreq)
  ask : ∀ e s' call, Calls s.ipc.kernel ev s' e call → call.no.toNat = 12 → s.client e = .out ∨
    call.a4 = pteP ||| pteW ||| pteU ∧ ∃ dstva, s.client e = .sending call.a1 call.a2 call.a3 dstva
  wait : ∀ e s' call, Calls s.ipc.kernel ev s' e call → call.no.toNat = 13 → s.client e = .out ∨
    ∃ k dstva, s.client e = .asked k dstva ∧ call.a1 = if dstva = 0 then utop else dstva

end

inductive FsStep (fs : EnvIdx) (s : FsState) : FsEvent → FsState → Prop
  | kernel {ev : Event} {t : Kernel} (hst : Step s.ipc.kernel ev t) (hcode : FsCode fs s ev) :
      FsStep fs s (.kernel ev) (s.stepped fs ev t)
  | user {i : IpcEvent} {u : IpcState} (hi : ∀ ev, i ≠ .kernel ev) (hst : IpcStep s.ipc i u) :
      FsStep fs s (.user i) (s.read fs i u)
  | call {e : EnvIdx} {fsenv type buf dstva : Word} (hrun : Runs.At s.ipc.kernel e)
      (hout : s.client e = .out) (hr : s.ipc.reader e = .out) (hfs : e = fs → s.server = .gone)
      (hfound : fsenv ∈ s.found ∨ fsenv = ipcFindEnv s.ipc.kernel .fs) :
      FsStep fs s (.call e type buf dstva)
        { s with
          client := Function.update s.client e (.sending fsenv type buf dstva)
          found := fsenv :: s.found }
  | handled {k : ℕ} {whom r pg perm : Word} (hrun : Runs.At s.ipc.kernel fs)
      (hs : s.server = .handling k whom) :
      FsStep fs s (.handled r pg perm)
        { s with server := .replying k whom r (if pg = 0 then utop else pg) perm }

/-- The file server has been made, in slot `fs` with id `id`. -/
structure FileServer (fs : EnvIdx) (id : Word) (s : Kernel) : Prop where
  live : (s.envs fs).envStatus ≠ .free
  type : (s.envs fs).envType = .fs
  id : (s.envs fs).envId = id
  only : ∀ e, (s.envs e).envType = .fs → e = fs

/-- The machine after boot, before any program has run. -/
def FsState.start (k : Kernel) : FsState where
  ipc := ⟨k, fun _ => .out⟩
  server := .idle
  asked := 0
  served := 0
  reply := fun _ => none
  client := fun _ => .out
  found := []

abbrev FsMove := Move FsState FsEvent

abbrev FsRuns (B : Boot) (fs : EnvIdx) (id : Word) : List FsMove → FsState → Prop :=
  Run (fun s => ∃ k, Booted B k ∧ FileServer fs id k ∧ s = .start k) (FsStep fs)

/-- In the step `m` the call of `fsipc` that made the `k`th request returns `v` to `e`. -/
def FsipcReturns (m : FsMove) (e : EnvIdx) (k : ℕ) (v : Word) : Prop :=
  (∃ dstva, m.pre.client e = .asked k dstva) ∧
    match m.label with
    | .user (.receive j _ value) => j = e ∧ v = value
    | .user (.returns j) =>
      j = e ∧ v = returnedTo m.pre.ipc.kernel e ∧ (returnedTo m.pre.ipc.kernel e).slt 0 = true
    | .kernel ev => v = returnedTo m.post.ipc.kernel e ∧
      callsNo m.pre.ipc.kernel ev e 13 = true ∧ blocks m.pre.ipc.kernel ev e = false
    | _ => False

/-- In the step `m` a message is delivered to `e`. -/
def Delivered (m : FsMove) (e : EnvIdx) : Prop :=
  ∃ ev, m.label = .kernel ev ∧ (sendTo m.pre.ipc.kernel ev m.post.ipc.kernel e).isSome = true

/-- The address space of `e` after the file server has sent it `rep`: the page of `rep` may be
mapped at `dstva`. -/
def PageSent (fs e : EnvIdx) (rep : Reply) (dstva : Word) (s t : Kernel) : Prop :=
  spacesOf t e = spacesOf s e ∨ ∃ (hd : dstva < utop) (hp : rep.pg < utop),
    spacesOf t e = Function.update (spacesOf s e) (pageNo dstva hd)
      (page2pa (pgnum (spacesOf s fs (pageNo rep.pg hp))) ||| rep.perm ||| pteP)

/-- What holds of the calls of `fsipc` in a run. -/
structure FsipcOk (fs : EnvIdx) (h : List FsMove) : Prop where
  /-- `fsipc` returns the reply to its own request -/
  value : ∀ m ∈ h, ∀ e k v, FsipcReturns m e k v →
    ∃ rep, m.post.reply k = some rep ∧ rep.value = v
  /-- the message it waits for is that reply, and no page but that of the reply is mapped -/
  page : ∀ m ∈ h, ∀ e k dstva, dstva ≠ 0 → dstva < utop → m.pre.client e = .asked k dstva →
    Delivered m e → ∃ rep, m.post.reply k = some rep ∧
      PageSent fs e rep dstva m.pre.ipc.kernel m.post.ipc.kernel

/-- The condition on one step: nobody but the file server sends to an environment between its
request and the return of `fsipc`. -/
def FsGuard (fs : EnvIdx) (id : Word) (s : FsState) : FsEvent → Prop
  | .kernel ev => IpcGuard s.ipc (.kernel ev) ∧ EventGuard s.ipc.kernel ev ∧
      (∀ s' c call e k dstva, Calls s.ipc.kernel ev s' c call → call.no.toNat = 12 →
        envOf s' c call.a1 false = some e → (s.ipc.kernel.envs e).envIpcRecving = true →
          s.client e = .asked k dstva → c = fs ∧ s.server ≠ .gone) ∧
      (s.server = .gone → (s.ipc.kernel.envs fs).envStatus ≠ .free →
        (s.ipc.kernel.envs fs).envId ≠ id)
  | .call _ _ _ dstva => dstva < utop → dstva % 0x1000 = 0
  | _ => True

/-! ### The invariant -/

/-- What is known of an environment `e` that waits for the reply to request `k`. -/
structure AskedIn (fs : EnvIdx) (s : FsState) (e : EnvIdx) (k : ℕ) (dstva : Word) : Prop where
  live : (s.ipc.kernel.envs e).envStatus ≠ .free
  aligned : dstva < utop → dstva % 0x1000 = 0
  mail : pending s.ipc e = [] ∨ ∃ f rep, s.reply k = some rep ∧ pending s.ipc e = [(f, rep.value)]
  current : ∀ j, s.server.current = some (j, (s.ipc.kernel.envs e).envId) → j = k
  unread : s.server ≠ .gone → ∀ v, pending s.ipc fs = [((s.ipc.kernel.envs e).envId, v)] →
    k = s.served + 1
  page : (s.ipc.kernel.envs e).envIpcRecving = true → dstva ≠ 0 → dstva < utop →
    (s.ipc.kernel.envs e).envIpcDstva = dstva

structure FsIn (B : Boot) (fs : EnvIdx) (id : Word) (s : FsState) : Prop where
  ipc : ∃ h, IpcIn h s.ipc
  mem : MemOk B s.ipc.kernel
  ids : IdsIn s.ipc.kernel
  servers : ServerIn fs id s.ipc.kernel
  slot : envx id = fs ∧ id ≠ 0
  found : ∀ w ∈ s.found, w = 0 ∨ w = id
  up : s.server ≠ .gone → (s.ipc.kernel.envs fs).envStatus ≠ .free ∧
    (s.ipc.kernel.envs fs).envId = id ∧ s.client fs = .out ∧
    s.asked = s.served + (pending s.ipc fs).length
  serving : s.server = .idle ∨ s.server = .gone ∨ s.ipc.reader fs = .out
  busy : ∀ k whom, s.server.current = some (k, whom) → k = s.served ∧ s.reply k = none
  fresh : ∀ k, s.served < k → s.reply k = none
  sending : ∀ e fsenv type buf dstva, s.client e = .sending fsenv type buf dstva →
    s.ipc.reader e = .out ∧ (fsenv = 0 ∨ fsenv = id) ∧ (dstva < utop → dstva % 0x1000 = 0)
  asked : ∀ e k dstva, s.client e = .asked k dstva → AskedIn fs s e k dstva

variable {B : Boot} {fs e c : EnvIdx} {id : Word} {s t : FsState} {u : Kernel} {ev : Event}
  {h : List FsMove} {k : ℕ} {whom r pg perm dstva : Word}

lemma callsNo_iff {s : Kernel} {no : ℕ} : callsNo s ev e no = true ↔
    ∃ s' call, Calls s ev s' e call ∧ call.no.toNat = no := by
  unfold callsNo
  constructor
  · intro h
    split at h
    · rename_i c s' call hcall
      obtain ⟨rfl, hno⟩ := of_decide_eq_true h
      exact ⟨s', call, callOf_iff.mp hcall, hno⟩
    · cases h
  · rintro ⟨s', call, hcall, hno⟩
    rw [callOf_iff.mpr hcall]
    exact decide_eq_true ⟨rfl, hno⟩

/-- A call of `sys_ipc_try_send` that does not return an error has found a receiver. -/
lemma send_result {s t s' : Kernel} {call : Call} (hcall : Calls s ev s' c call)
    (ho : Outcome s ev t) (hno : call.no.toNat = 12) (hr : (returnedTo t c).slt 0 = false) :
    ∃ e, envOf s' c call.a1 false = some e ∧ (s.envs e).envIpcRecving = true ∧
      sendTo s ev t e = some ((s.envs c).envId, call.a2) := by
  have hsend : ∀ e, envOf s' c call.a1 false = some e → returnedTo t c = 0 →
      sendTo s ev t e = some ((s.envs c).envId, call.a2) := by
    intro e he h0
    unfold sendTo
    rw [callOf_iff.mpr hcall]
    exact if_pos ⟨hno, he, h0⟩
  obtain ⟨cpu, tf, u, hc, hst, htrap, rfl, rfl, heff, hs⟩ := hcall.effect ho
  have heax : returnedTo t c = (u.envs c).envTf.tfRegs.regEax :=
    hs.proj (fun env => env.envTf.tfRegs.regEax) (fun _ _ _ _ => rfl) c
  cases heff with
  | reaped pm hd => exact absurd hd hst
  | destroyed pm₀ pm _ h => exact absurd (h htrap) (by omega)
  | entered _ h => exact absurd (h htrap) (by omega)
  | upcalled pm _ h => exact absurd (htrap.symm.trans h) (by decide)
  | blocked _ _ h => omega
  | returned r u _ _ hu =>
    have hres : ((u.setEax c r).envs c).envTf.tfRegs.regEax = r := by
      unfold Kernel.setEax
      rw [Kernel.setEnv_envs_self]
    rw [hres] at heax
    rw [heax] at hr
    cases hu with
    | memory pm _ _ _ hipc =>
      rw [hipc (Or.inl hno)] at hr
      cases hr
    | sent j pm _ hj hrecv =>
      have hsame : ((s.entered c tf).envs j).envIpcRecving = (s.envs j).envIpcRecving :=
        Kernel.setEnv_proj Env.envIpcRecving (by rfl) j
      exact ⟨j, hj, hsame.symm.trans hrecv, hsend j hj heax⟩
    | unsent => exact absurd hr (by decide)
    | _ => omega

/-- The receiver of a message is the one that is named. -/
lemma envOf_receiver {s s' : Kernel} {call : Call} {w : Word} (hR : RecvIn none s)
    (hcall : Calls s ev s' c call) (he : envOf s' c w false = some e)
    (hrecv : (s.envs e).envIpcRecving = true) : e = envx w ∧ (s.envs e).envId = w := by
  cases hcall with
  | @trap cpu c tf cr2 cons hc =>
    by_cases h0 : w = 0
    · unfold envOf at he
      rw [if_pos h0] at he
      obtain rfl := Option.some.inj he
      exact absurd hc ((hR c hrecv).2 cpu (by simp))
    · have hslot := envOf_envx h0 he
      refine ⟨hslot, ?_⟩
      unfold envOf at he
      rw [if_neg h0] at he
      split at he
      · cases he
      · rename_i hid
        have hsame : ((s.entered c tf).envs (envx w)).envId = (s.envs (envx w)).envId :=
          Kernel.setEnv_proj Env.envId (by rfl) _
        rw [hslot, ← hsame]
        by_contra hne
        exact hid (Or.inr hne)

lemma ipcFindEnv_or {s : Kernel} (hs : ServerIn fs id s) :
    ipcFindEnv s .fs = 0 ∨ ipcFindEnv s .fs = id := by
  unfold ipcFindEnv
  split
  · rename_i i hi
    have htype : (s.envs i).envType = .fs := by simpa using List.find?_some hi
    exact Or.inr (hs i htype).2
  · exact Or.inl rfl

/-! ### A step of the kernel -/

lemma serverAfter_ne_gone (h : s.serverAfter fs ev u ≠ .gone) :
    (u.envs fs).envStatus ≠ .free ∧ s.server ≠ .gone := by
  constructor
  · intro hfree
    exact h (if_pos hfree)
  · intro hgone
    apply h
    unfold FsState.serverAfter
    rw [hgone]
    split <;> rfl

/-- A request stays current until the reply has been sent. -/
lemma serverAfter_current (h : (s.serverAfter fs ev u).current = some (k, whom)) :
    s.server.current = some (k, whom) ∧ s.replyAfter fs ev u = s.reply := by
  unfold FsState.serverAfter at h
  unfold FsState.replyAfter
  split at h
  · cases h
  cases hserver : s.server with
  | replying k' whom' r pg perm =>
    rw [hserver] at h
    dsimp only at h ⊢
    unfold sendLoop at h
    split at h
    · split at h
      · rename_i hneg
        split at h
        · exact ⟨h, if_neg (fun hc => by rw [hneg] at hc; exact absurd hc.2 (by simp))⟩
        · cases h
      · cases h
    · rename_i hno
      exact ⟨h, if_neg (fun hc => hno hc.1)⟩
  | _ =>
    rw [hserver] at h
    exact ⟨h, rfl⟩

lemma serverAfter_idle (h : s.server = .idle ∨ s.server = .gone) :
    s.serverAfter fs ev u = .idle ∨ s.serverAfter fs ev u = .gone := by
  unfold FsState.serverAfter
  split
  · exact Or.inr rfl
  · rcases h with h | h <;> rw [h]
    · exact Or.inl rfl
    · exact Or.inr rfl

/-- Only the current request is replied to. -/
lemma replyAfter_of_ne (h : ∀ whom, s.server.current ≠ some (k, whom)) :
    s.replyAfter fs ev u k = s.reply k := by
  unfold FsState.replyAfter
  cases hserver : s.server with
  | replying j whom r pg perm =>
    dsimp only
    split
    · apply Function.update_of_ne
      rintro rfl
      exact h whom (by rw [hserver]; rfl)
    · rfl
  | _ => rfl

lemma clientAfter_sending {fsenv type buf : Word}
    (h : s.clientAfter ev u e = .sending fsenv type buf dstva) :
    s.client e = .sending fsenv type buf dstva := by
  unfold FsState.clientAfter sendLoop at h
  split at h
  · cases h
  cases hclient : s.client e with
  | out =>
    rw [hclient] at h
    cases h
  | sending =>
    rw [hclient] at h
    dsimp only at h
    split at h
    · split at h
      · split at h
        · exact h
        · cases h
      · cases h
    · exact h
  | asked =>
    rw [hclient] at h
    dsimp only at h
    split at h <;> cases h

/-- An environment waits for a reply since before, or its request has just been sent. -/
lemma clientAfter_asked (h : s.clientAfter ev u e = .asked k dstva) :
    (u.envs e).envStatus ≠ .free ∧ (s.client e = .asked k dstva ∨ (k = s.asked + 1 ∧
      callsNo s.ipc.kernel ev e 12 = true ∧ (returnedTo u e).slt 0 = false ∧
      ∃ fsenv type buf, s.client e = .sending fsenv type buf dstva)) := by
  unfold FsState.clientAfter sendLoop at h
  split at h
  · cases h
  rename_i hlive
  refine ⟨hlive, ?_⟩
  cases hclient : s.client e with
  | out =>
    rw [hclient] at h
    cases h
  | sending fsenv type buf dstva' =>
    rw [hclient] at h
    dsimp only at h
    split at h
    · rename_i hno
      split at h
      · split at h <;> cases h
      · rename_i hr
        cases h
        exact Or.inr ⟨rfl, hno, by simpa using hr, _, _, _, rfl⟩
    · cases h
  | asked =>
    rw [hclient] at h
    dsimp only at h
    split at h
    · cases h
    · exact Or.inl h

namespace FsIn

lemma envs (hs : FsIn B fs id s) : EnvsIn none s.ipc.kernel := by
  obtain ⟨h, hipc⟩ := hs.ipc
  exact hipc.envs

lemma recv (hs : FsIn B fs id s) : RecvIn none s.ipc.kernel := by
  obtain ⟨h, hipc⟩ := hs.ipc
  exact hipc.recv

/-- What is pending after a step of the kernel. -/
lemma pending_kernel (hs : FsIn B fs id s) (hst : Step s.ipc.kernel ev u)
    (hcode : FsCode fs s ev) (hg : FsGuard fs id s (.kernel ev)) :
    (∃ h, IpcIn h (s.ipc.stepped ev u)) ∧ ∀ e, (s.ipc.kernel.envs e).envStatus ≠ .free →
      (u.envs e).envStatus ≠ .free → pending (s.ipc.stepped ev u) e =
        pending s.ipc e ++ (sendTo s.ipc.kernel ev u e).toList := by
  obtain ⟨h, hipc⟩ := hs.ipc
  have hipc' := hipc.step hg.1 (.kernel hst hcode.ipc)
  exact ⟨⟨_, hipc'⟩, fun e hlive hlive' => hipc.pending_sent hipc' hlive hlive'⟩

/-- A receiver that waits has nothing to read. -/
lemma pending_recving (hs : FsIn B fs id s) (hlive : (s.ipc.kernel.envs e).envStatus ≠ .free)
    (hrecv : (s.ipc.kernel.envs e).envIpcRecving = true) :
    s.ipc.reader e = .waiting ∧ pending s.ipc e = [] := by
  obtain ⟨h, hipc⟩ := hs.ipc
  have hwait := (hipc.slots e).recving hlive hrecv
  have hbox : (s.ipc.kernel.envs e).mailbox.recving = true := hrecv
  refine ⟨hwait, ?_⟩
  unfold pending
  rw [hwait]
  exact if_pos hbox

lemma pending_out {s : IpcState} (hr : s.reader e = .out) : pending s e = [] := by
  unfold pending
  rw [hr]
  rfl

/-- What a message that is delivered in one step says. -/
lemma delivered (hs : FsIn B fs id s) (hst : Step s.ipc.kernel ev u) {p : Word × Word}
    (hsend : sendTo s.ipc.kernel ev u e = some p) : ∃ s' c call,
      Calls s.ipc.kernel ev s' c call ∧ call.no.toNat = 12 ∧
      envOf s' c call.a1 false = some e ∧ (s.ipc.kernel.envs e).envIpcRecving = true ∧
      (s.ipc.kernel.envs c).envStatus ≠ .free ∧ returnedTo u c = 0 ∧
      p = ((s.ipc.kernel.envs c).envId, call.a2) := by
  obtain ⟨s', c, call, hcall, hno, he, h0, hp⟩ := sendTo_some hsend
  have ho := hst.outcome hs.envs
  have hlive : (s.ipc.kernel.envs c).envStatus ≠ .free := by
    cases hcall with
    | trap hc => exact hs.envs.ne_free hc
  rcases hcall.sent ho hno he with ⟨-, hrecv, -⟩ | ⟨hne, -⟩
  · exact ⟨s', c, call, hcall, hno, he, hrecv, hlive, h0, hp⟩
  · exact absurd h0 hne

/-- The reply to a request goes to the environment that made it. -/
lemma replied (hs : FsIn B fs id s) (hst : Step s.ipc.kernel ev u) (hcode : FsCode fs s ev)
    (hg : FsGuard fs id s (.kernel ev)) (hc : s.client e = .asked k dstva) {p : Word × Word}
    (hsend : sendTo s.ipc.kernel ev u e = some p) :
    ∃ s' call, Calls s.ipc.kernel ev s' fs call ∧ call.no.toNat = 12 ∧
      envOf s' fs call.a1 false = some e ∧ p.2 = call.a2 ∧ pending s.ipc e = [] ∧
      s.replyAfter fs ev u k = some ⟨call.a2, call.a3, call.a4⟩ := by
  obtain ⟨s', c, call, hcall, hno, he, hrecv, -, h0, rfl⟩ := hs.delivered hst hsend
  have hasked := hs.asked e k dstva hc
  obtain ⟨rfl, hgone⟩ := hg.2.2.1 _ _ _ _ _ _ hcall hno he hrecv hc
  obtain ⟨j, hserver⟩ := (hcode.reply _ _ hcall hno).resolve_left hgone
  have hwhom := (envOf_receiver hs.recv hcall he hrecv).2
  have hj : j = k := by
    apply hasked.current
    rw [hserver, hwhom]
    rfl
  refine ⟨s', call, hcall, hno, he, rfl, (hs.pending_recving hasked.live hrecv).2, ?_⟩
  unfold FsState.replyAfter
  rw [hserver]
  dsimp only
  rw [if_pos ⟨callsNo_iff.mpr ⟨s', call, hcall, hno⟩, by rw [h0]; decide⟩, hj]
  exact Function.update_self ..

/-- An environment that waits for a reply still does after a step of the kernel. -/
lemma asked_kept (hs : FsIn B fs id s) (hst : Step s.ipc.kernel ev u) (hcode : FsCode fs s ev)
    (hg : FsGuard fs id s (.kernel ev)) (hc : s.client e = .asked k dstva)
    (hlive' : (u.envs e).envStatus ≠ .free) : AskedIn fs (s.stepped fs ev u) e k dstva := by
  have hasked := hs.asked e k dstva hc
  have ho := hst.outcome hs.envs
  obtain ⟨hbox, hid⟩ := ho.mailed hs.envs hasked.live hlive'
  obtain ⟨-, hpend⟩ := hs.pending_kernel hst hcode hg
  have hquiet : ∀ s' call, Calls s.ipc.kernel ev s' e call → call.no.toNat ≠ 12 := by
    intro s' call hcall hno
    rcases hcode.ask e _ _ hcall hno with hout | ⟨-, d, hsend⟩
    · rw [hc] at hout
      cases hout
    · rw [hc] at hsend
      cases hsend
  refine ⟨hlive', hasked.aligned, ?_, ?_, ?_, ?_⟩
  · -- the reply, if there is one now
    have hpe : pending (s.stepped fs ev u).ipc e = _ := hpend e hasked.live hlive'
    rw [hpe]
    cases hsend : sendTo s.ipc.kernel ev u e with
    | none =>
      rw [Option.toList_none, List.append_nil]
      rcases hasked.mail with hnil | ⟨f, rep, hrep, hmail⟩
      · exact Or.inl hnil
      · refine Or.inr ⟨f, rep, ?_, hmail⟩
        have hsame : s.replyAfter fs ev u k = s.reply k := by
          apply replyAfter_of_ne
          intro whom hcur
          rw [(hs.busy k whom hcur).2] at hrep
          cases hrep
        exact hsame.trans hrep
    | some p =>
      obtain ⟨s', call, -, -, -, hval, hnil, hrep⟩ := hs.replied hst hcode hg hc hsend
      rw [hnil]
      refine Or.inr ⟨p.1, _, hrep, ?_⟩
      show [p] = _
      rw [← hval]
  · intro j hcur
    apply hasked.current
    rw [← hid]
    exact (serverAfter_current hcur).1
  · -- no other environment has the id of `e`
    intro hgone v hv
    obtain ⟨hfs', hgone'⟩ := serverAfter_ne_gone hgone
    have hfs := (hs.up hgone').1
    have hpf : pending (s.stepped fs ev u).ipc fs = _ := hpend fs hfs hfs'
    rw [hpf] at hv
    have hid' : ((s.stepped fs ev u).ipc.kernel.envs e).envId = (s.ipc.kernel.envs e).envId := hid
    rw [hid'] at hv
    cases hsend : sendTo s.ipc.kernel ev u fs with
    | none =>
      rw [hsend, Option.toList_none, List.append_nil] at hv
      exact hasked.unread hgone' v hv
    | some p =>
      obtain ⟨s', c, call, hcall, hno, -, hrecv, hclive, -, rfl⟩ := hs.delivered hst hsend
      rw [hsend, (hs.pending_recving hfs hrecv).2] at hv
      have hids : (s.ipc.kernel.envs c).envId = (s.ipc.kernel.envs e).envId := by
        have hhead := List.singleton_inj.mp hv
        exact congrArg Prod.fst hhead
      obtain rfl := hs.ids.inj hclive hasked.live hids
      exact absurd hno (hquiet _ _ hcall)
  · intro hrecv' hne hlt
    have hrecv : (u.envs e).mailbox.recving = true := hrecv'
    have hdst : ∀ va, (u.envs e).mailbox.dstva = va → (u.envs e).envIpcDstva = va := fun _ h => h
    apply hdst
    generalize (u.envs e).mailbox = box at hbox hrecv
    cases hbox with
    | kept => exact hasked.page hrecv hne hlt
    | blocked hcall hno hva =>
      obtain ⟨j, d, hd, ha⟩ := (hcode.wait e _ _ hcall hno).resolve_left (by rw [hc]; simp)
      rw [hc] at hd
      cases hd
      rw [if_neg hne] at ha
      rw [ha]
      exact if_pos hlt
    | delivered => cases hrecv
    | unsent _ _ _ hr => exact hasked.page hr hne hlt

/-- A request that has just been sent. -/
lemma asked_sent {fsenv type buf : Word} (hs : FsIn B fs id s) (hst : Step s.ipc.kernel ev u)
    (hcode : FsCode fs s ev) (hg : FsGuard fs id s (.kernel ev))
    (hc : s.client e = .sending fsenv type buf dstva)
    (hlive' : (u.envs e).envStatus ≠ .free) (hno : callsNo s.ipc.kernel ev e 12 = true)
    (hr : (returnedTo u e).slt 0 = false) :
    AskedIn fs (s.stepped fs ev u) e (s.asked + 1) dstva := by
  obtain ⟨s', call, hcall, hno⟩ := callsNo_iff.mp hno
  have ho := hst.outcome hs.envs
  obtain ⟨hout, hfsenv, haligned⟩ := hs.sending e _ _ _ _ hc
  obtain ⟨hlive, hidle⟩ : (s.ipc.kernel.envs e).envStatus ≠ .free ∧
      (s.ipc.kernel.envs e).envIpcRecving ≠ true := by
    cases hcall with
    | @trap cpu c tf cr2 cons hcur =>
      exact ⟨hs.envs.ne_free hcur, fun hrecv => (hs.recv e hrecv).2 cpu (by simp) hcur⟩
  -- the request has gone to the file server
  have hask : call.a1 = fsenv := by
    rcases hcode.ask e _ _ hcall hno with h | ⟨-, d, hsend⟩
    · rw [hc] at h
      cases h
    · rw [hc] at hsend
      cases hsend
      rfl
  obtain ⟨j, hj, hrecv, hsend⟩ := send_result hcall ho hno hr
  obtain ⟨hslot, hid⟩ := envOf_receiver hs.recv hcall hj hrecv
  have hjlive : (s.ipc.kernel.envs j).envStatus ≠ .free := by
    cases hcall with
    | @trap cpu c tf cr2 cons hcur =>
      have hst : ∀ i, ((s.ipc.kernel.entered e tf).envs i).envStatus =
          (s.ipc.kernel.envs i).envStatus := fun i => Kernel.setEnv_proj Env.envStatus (by rfl) i
      rw [← hst]
      exact envOf_ne_free (by rw [hst]; exact hlive) hj
  rw [hask] at hslot hid
  have hfs : fsenv = id := by
    rcases hfsenv with rfl | h
    · exact absurd hid (hs.ids j hjlive).2
    · exact h
  obtain rfl : j = fs := by
    rw [hslot, hfs]
    exact hs.slot.1
  have hgone : s.server ≠ .gone := fun h => hg.2.2.2 h hjlive (hid.trans hfs)
  obtain ⟨-, -, hfsout, hcount⟩ := hs.up hgone
  obtain ⟨hwait, hnil⟩ := hs.pending_recving hjlive hrecv
  rw [hnil] at hcount
  have hne : e ≠ j := by
    rintro rfl
    rw [hc] at hfsout
    cases hfsout
  obtain ⟨-, hpend⟩ := hs.pending_kernel hst hcode hg
  obtain ⟨hbox, -⟩ := ho.mailed hs.envs hlive hlive'
  refine ⟨hlive', haligned, Or.inl ?_, ?_, ?_, ?_⟩
  · have hpe : pending (s.stepped j ev u).ipc e = _ := hpend e hlive hlive'
    rw [hpe, pending_out hout, List.nil_append]
    cases hsent : sendTo s.ipc.kernel ev u e with
    | none => rfl
    | some p =>
      obtain ⟨s'', c, call', hcall', -, he, -⟩ := hs.delivered hst hsent
      obtain ⟨rfl, rfl, rfl⟩ := hcall.unique hcall'
      exact absurd (Option.some.inj (he.symm.trans hj)) hne
  · intro i hcur
    have hcur' := (serverAfter_current hcur).1
    rcases hs.serving with h | h | h
    · rw [h] at hcur'
      cases hcur'
    · exact absurd h hgone
    · rw [h] at hwait
      cases hwait
  · intro _ _ _
    exact congrArg (· + 1) hcount
  · intro hrecv' _ _
    have hrecv'' : (u.envs e).mailbox.recving = true := hrecv'
    generalize (u.envs e).mailbox = box at hbox hrecv''
    cases hbox with
    | kept => exact absurd hrecv'' hidle
    | blocked hcall' hno' =>
      obtain ⟨-, -, rfl⟩ := hcall.unique hcall'
      omega
    | delivered => cases hrecv''
    | unsent _ _ _ h => exact absurd h hidle

/-- A step of the kernel. -/
lemma kernel (hs : FsIn B fs id s) (hst : Step s.ipc.kernel ev u) (hcode : FsCode fs s ev)
    (hg : FsGuard fs id s (.kernel ev)) : FsIn B fs id (s.stepped fs ev u) := by
  have ho := hst.outcome hs.envs
  obtain ⟨hipc, hpend⟩ := hs.pending_kernel hst hcode hg
  have hblocks : ∀ e, s.client e ≠ .out → (∀ k d, s.client e ≠ .asked k d) →
      blocks s.ipc.kernel ev e = false := by
    intro e hne hna
    rw [Bool.eq_false_iff]
    intro hb
    obtain ⟨s', call, hcall, hno, -⟩ := blocks_iff.mp hb
    rcases hcode.wait e _ _ hcall hno with h | ⟨k, d, h, -⟩
    · exact hne h
    · exact hna k d h
  constructor
  · exact hipc
  · have hk : KernelOk B s.ipc.kernel := ⟨hs.envs, hs.mem⟩
    exact (hk.step hst hg.2.1).1.mem
  · exact hs.ids.step hs.envs ho
  · exact hs.servers.step hs.envs ho
  · exact hs.slot
  · exact hs.found
  · intro hgone
    obtain ⟨hfs', hgone'⟩ := serverAfter_ne_gone hgone
    obtain ⟨hfs, hid, hout, hcount⟩ := hs.up hgone'
    refine ⟨hfs', ((ho.mailed hs.envs hfs hfs').2).trans hid, ?_, ?_⟩
    · show s.clientAfter ev u fs = .out
      unfold FsState.clientAfter
      rw [hout]
      exact ite_self _
    · have hpf : pending (s.stepped fs ev u).ipc fs = _ := hpend fs hfs hfs'
      rw [hpf, List.length_append]
      show (if (sendTo s.ipc.kernel ev u fs).isSome then s.asked + 1 else s.asked) = s.served + _
      cases sendTo s.ipc.kernel ev u fs with
      | none => simpa using hcount
      | some p => simp [hcount]; omega
  · have hidle : s.server = .idle ∨ s.server = .gone → s.serverAfter fs ev u = .idle ∨
        s.serverAfter fs ev u = .gone ∨ (s.ipc.stepped ev u).reader fs = .out := by
      intro h
      exact (serverAfter_idle h).imp_right Or.inl
    by_cases hb : blocks s.ipc.kernel ev fs = true
    · obtain ⟨s', call, hcall, hno, -⟩ := blocks_iff.mp hb
      exact hidle ((hcode.serve _ _ hcall hno).symm.imp And.left (fun h => h))
    rcases hs.serving with h | h | h
    · exact hidle (Or.inl h)
    · exact hidle (Or.inr h)
    · right
      right
      show (if (u.envs fs).envStatus = .free then Reader.out else
        if blocks s.ipc.kernel ev fs then .waiting else s.ipc.reader fs) = .out
      rw [if_neg hb, h]
      exact ite_self _
  · intro k whom hcur
    obtain ⟨hcur', hsame⟩ := serverAfter_current hcur
    show k = s.served ∧ s.replyAfter fs ev u k = none
    rw [hsame]
    exact hs.busy k whom hcur'
  · intro k hk
    have hsame : s.replyAfter fs ev u k = s.reply k := by
      apply replyAfter_of_ne
      intro whom hcur
      have hk' : s.served < k := hk
      have := (hs.busy k whom hcur).1
      omega
    exact hsame.trans (hs.fresh k hk)
  · intro e fsenv type buf dstva hsend
    have hsend' := clientAfter_sending hsend
    obtain ⟨hout, hrest⟩ := hs.sending e _ _ _ _ hsend'
    refine ⟨?_, hrest⟩
    show (if (u.envs e).envStatus = .free then Reader.out else
      if blocks s.ipc.kernel ev e then .waiting else s.ipc.reader e) = .out
    rw [hblocks e (by rw [hsend']; simp) (by rw [hsend']; simp), hout]
    exact ite_self _
  · intro e k dstva hasked
    obtain ⟨hlive', hwas | ⟨rfl, hno, hr, fsenv, type, buf, hsend⟩⟩ := clientAfter_asked hasked
    · exact hs.asked_kept hst hcode hg hwas hlive'
    · exact hs.asked_sent hst hcode hg hsend hlive' hno hr

/-- What is pending after a step inside `ipc_recv`. -/
lemma pending_user {i : IpcEvent} {q : Reader} (hs : FsIn B fs id s)
    (hst : IpcStep s.ipc i (s.ipc.setReader e q)) (hg : IpcGuard s.ipc i)
    (hsent : ∀ j, sentIn j ⟨s.ipc, i, s.ipc.setReader e q⟩ = []) :
    (∃ h, IpcIn h (s.ipc.setReader e q)) ∧ ∀ j, (s.ipc.kernel.envs j).envStatus ≠ .free →
      pending s.ipc j = receivedIn j ⟨s.ipc, i, s.ipc.setReader e q⟩ ++
        pending (s.ipc.setReader e q) j := by
  obtain ⟨h, hipc⟩ := hs.ipc
  have hipc' := hipc.step hg hst
  exact ⟨⟨_, hipc'⟩, fun j hlive => hipc.pending_read hipc' (hsent j) rfl hlive⟩

/-- A step of `ipc_recv` that returns no message. -/
lemma quiet {i : IpcEvent} {q : Reader} (hs : FsIn B fs id s)
    (hst : IpcStep s.ipc i (s.ipc.setReader e q)) (hg : IpcGuard s.ipc i)
    (hsent : ∀ j, sentIn j ⟨s.ipc, i, s.ipc.setReader e q⟩ = [])
    (hquiet : ∀ j, receivedIn j ⟨s.ipc, i, s.ipc.setReader e q⟩ = [])
    (hne : s.ipc.reader e ≠ .out) : FsIn B fs id { s with ipc := s.ipc.setReader e q } := by
  obtain ⟨hipc, hpend⟩ := hs.pending_user hst hg hsent
  have hsame : ∀ j, (s.ipc.kernel.envs j).envStatus ≠ .free →
      pending (s.ipc.setReader e q) j = pending s.ipc j := by
    intro j hlive
    rw [hpend j hlive, hquiet j, List.nil_append]
  have hout : ∀ j, s.ipc.reader j = .out → (s.ipc.setReader e q).reader j = .out := by
    intro j hj
    have hje : j ≠ e := by
      rintro rfl
      exact hne hj
    exact (Function.update_of_ne hje ..).trans hj
  refine ⟨hipc, hs.mem, hs.ids, hs.servers, hs.slot, hs.found, fun hgone => ?_, ?_, hs.busy,
    hs.fresh, fun j fsenv type buf d hsend => ?_, fun j k d hasked => ?_⟩
  · obtain ⟨hlive, hid, hclient, hcount⟩ := hs.up hgone
    refine ⟨hlive, hid, hclient, ?_⟩
    show s.asked = s.served + (pending (s.ipc.setReader e q) fs).length
    rw [hsame fs hlive]
    exact hcount
  · exact hs.serving.imp_right (Or.imp_right (hout fs))
  · obtain ⟨hj, hrest⟩ := hs.sending j _ _ _ _ hsend
    exact ⟨hout j hj, hrest⟩
  · have ha := hs.asked j k d hasked
    refine ⟨ha.live, ha.aligned, ?_, ha.current, fun hgone v hv => ?_, ha.page⟩
    · show pending (s.ipc.setReader e q) j = [] ∨ ∃ f rep, s.reply k = some rep ∧
        pending (s.ipc.setReader e q) j = [(f, rep.value)]
      rw [hsame j ha.live]
      exact ha.mail
    · apply ha.unread hgone v
      rw [← hsame fs (hs.up hgone).1]
      exact hv

/-- `ipc_recv` returns a message. -/
lemma receive {f p : Word} (hs : FsIn B fs id s) (hrun : Runs.At s.ipc.kernel e)
    (hr : s.ipc.reader e = .gotPerm f p) :
    FsIn B fs id (s.read fs (.receive e f (s.ipc.kernel.envs e).envIpcValue)
      (s.ipc.setReader e .out)) := by
  obtain ⟨hipc, hpend⟩ := hs.pending_user (.receive hrun hr) trivial (fun _ => rfl)
  have hother : ∀ j, j ≠ e → (s.ipc.kernel.envs j).envStatus ≠ .free →
      pending (s.ipc.setReader e .out) j = pending s.ipc j := by
    intro j hje hlive
    rw [hpend j hlive]
    have hin : receivedIn j ⟨s.ipc, .receive e f (s.ipc.kernel.envs e).envIpcValue,
        s.ipc.setReader e .out⟩ = [] := if_neg (Ne.symm hje)
    rw [hin, List.nil_append]
  have hnow : pending (s.ipc.setReader e .out) e = [] := pending_out s.ipc.setReader_self
  have hwas : pending s.ipc e = [(f, (s.ipc.kernel.envs e).envIpcValue)] := by
    unfold pending
    rw [hr]
    rfl
  have hout : ∀ j, s.ipc.reader j = .out → (s.ipc.setReader e .out).reader j = .out := by
    intro j hj
    by_cases hje : j = e
    · rw [hje]
      exact s.ipc.setReader_self
    · exact (Function.update_of_ne hje ..).trans hj
  have hself : Function.update s.client e .out e = .out := Function.update_self ..
  have hclient : ∀ j, j ≠ e → Function.update s.client e .out j = s.client j :=
    fun j hje => Function.update_of_ne hje ..
  have hsending : ∀ j fsenv type buf dstva,
      Function.update s.client e .out j = .sending fsenv type buf dstva →
      (s.ipc.setReader e .out).reader j = .out ∧ (fsenv = 0 ∨ fsenv = id) ∧
        (dstva < utop → dstva % 0x1000 = 0) := by
    intro j fsenv type buf d hsend
    have hje : j ≠ e := by
      rintro rfl
      rw [hself] at hsend
      cases hsend
    rw [hclient j hje] at hsend
    obtain ⟨hj, hrest⟩ := hs.sending j _ _ _ _ hsend
    exact ⟨hout j hj, hrest⟩
  have hasked : ∀ j k dstva, Function.update s.client e .out j = .asked k dstva →
      j ≠ e ∧ AskedIn fs s j k dstva := by
    intro j k d hj
    have hje : j ≠ e := by
      rintro rfl
      rw [hself] at hj
      cases hj
    rw [hclient j hje] at hj
    exact ⟨hje, hs.asked j k d hj⟩
  have hmail : ∀ j k, j ≠ e → (s.ipc.kernel.envs j).envStatus ≠ .free →
      (pending s.ipc j = [] ∨ ∃ f rep, s.reply k = some rep ∧ pending s.ipc j = [(f, rep.value)]) →
      pending (s.ipc.setReader e .out) j = [] ∨ ∃ f rep, s.reply k = some rep ∧
        pending (s.ipc.setReader e .out) j = [(f, rep.value)] := by
    intro j k hje hlive hm
    rw [hother j hje hlive]
    exact hm
  by_cases hserve : e = fs ∧ s.server = .idle
  · -- the file server has received a request
    obtain ⟨rfl, hidle⟩ := hserve
    obtain ⟨hlive, hid, hfsout, hcount⟩ := hs.up (by rw [hidle]; simp)
    rw [hwas] at hcount
    have hcurrent : ∀ k whom, (if has p pteP then Server.handling (s.served + 1) f
        else .idle).current = some (k, whom) → k = s.served + 1 ∧ whom = f := by
      intro k whom hcur
      split at hcur
      · cases hcur
        exact ⟨rfl, rfl⟩
      · cases hcur
    have hread : s.read e (.receive e f (s.ipc.kernel.envs e).envIpcValue) (s.ipc.setReader e .out) =
        { s with
          ipc := s.ipc.setReader e .out
          client := Function.update s.client e .out
          served := s.served + 1
          server := if has p pteP then .handling (s.served + 1) f else .idle } := by
      unfold FsState.read
      dsimp only
      simp only [hidle, and_self, if_true, hr]
      rfl
    rw [hread]
    refine ⟨hipc, hs.mem, hs.ids, hs.servers, hs.slot, hs.found, fun _ => ?_, ?_, ?_, ?_,
      hsending, fun j k d hj => ?_⟩
    · refine ⟨hlive, hid, hself, ?_⟩
      show s.asked = s.served + 1 + (pending (s.ipc.setReader e .out) e).length
      rw [hnow]
      exact hcount
    · exact Or.inr (Or.inr s.ipc.setReader_self)
    · intro k whom hcur
      obtain ⟨rfl, -⟩ := hcurrent k whom hcur
      exact ⟨rfl, hs.fresh _ (Nat.lt_succ_self _)⟩
    · intro k hk
      exact hs.fresh k (Nat.lt_of_succ_lt hk)
    · obtain ⟨hje, ha⟩ := hasked j k d hj
      refine ⟨ha.live, ha.aligned, hmail j k hje ha.live ha.mail, ?_, ?_, ha.page⟩
      · intro i hcur
        obtain ⟨rfl, hwhom⟩ := hcurrent i _ hcur
        apply Eq.symm
        apply ha.unread (by rw [hidle]; simp) (s.ipc.kernel.envs e).envIpcValue
        rw [hwas, ← hwhom]
        rfl
      · intro _ v hv
        have hv' : pending (s.ipc.setReader e .out) e = _ := hv
        rw [hnow] at hv'
        cases hv'
  · -- another environment
    have hgone : e = fs → s.server = .gone := by
      rintro rfl
      rcases hs.serving with h | h | h
      · exact absurd ⟨rfl, h⟩ hserve
      · exact h
      · rw [hr] at h
        cases h
    have hread : s.read fs (.receive e f (s.ipc.kernel.envs e).envIpcValue) (s.ipc.setReader e .out) =
        { s with
          ipc := s.ipc.setReader e .out
          client := Function.update s.client e .out } := by
      unfold FsState.read
      dsimp only
      rw [if_neg hserve, if_neg hserve]
    rw [hread]
    refine ⟨hipc, hs.mem, hs.ids, hs.servers, hs.slot, hs.found, fun hup => ?_, ?_, hs.busy,
      hs.fresh, hsending, fun j k d hj => ?_⟩
    · have hne : fs ≠ e := fun h => hup (hgone h.symm)
      obtain ⟨hlive, hid, hfsout, hcount⟩ := hs.up hup
      refine ⟨hlive, hid, (hclient fs hne).trans hfsout, ?_⟩
      show s.asked = s.served + (pending (s.ipc.setReader e .out) fs).length
      rw [hother fs hne hlive]
      exact hcount
    · exact hs.serving.imp_right (Or.imp_right (hout fs))
    · obtain ⟨hje, ha⟩ := hasked j k d hj
      refine ⟨ha.live, ha.aligned, hmail j k hje ha.live ha.mail, ha.current, ?_, ha.page⟩
      intro hup v hv
      have hne : fs ≠ e := fun h => hup (hgone h.symm)
      apply ha.unread hup v
      rw [← hother fs hne (hs.up hup).1]
      exact hv

lemma step {l : FsEvent} (hs : FsIn B fs id s) (hg : FsGuard fs id s l) (hst : FsStep fs s l t) :
    FsIn B fs id t := by
  cases hst with
  | kernel hst hcode => exact hs.kernel hst hcode hg
  | @user i _ hi hst =>
    cases hst with
    | kernel => exact absurd rfl (hi _)
    | @returns e hrun hr =>
      have hne : s.ipc.reader e ≠ .out := by
        rw [hr]
        simp
      have heax : (s.ipc.kernel.envs e).envTf.tfRegs.regEax = 0 := by
        obtain ⟨h, hipc⟩ := hs.ipc
        exact (hipc.slots e).eax hr
      have hneg : (returnedTo s.ipc.kernel e).slt 0 = false := by
        unfold returnedTo
        rw [heax]
        decide
      have hread : ∀ v, s.read fs (.returns e) v = { s with ipc := v } := by
        intro v
        unfold FsState.read
        dsimp only
        rw [hneg]
        rfl
      rw [hread]
      exact hs.quiet (.returns hrun hr) trivial (fun _ => rfl) (fun _ => rfl) hne
    | @readFrom e hrun hr =>
      exact hs.quiet (.readFrom hrun hr) trivial (fun _ => rfl) (fun _ => rfl) (by rw [hr]; simp)
    | @readPerm e f hrun hr =>
      exact hs.quiet (.readPerm hrun hr) trivial (fun _ => rfl) (fun _ => rfl) (by rw [hr]; simp)
    | receive hrun hr => exact hs.receive hrun hr
  | @call e fsenv type buf dstva hrun hout hr hfs hfound =>
    have hself : Function.update s.client e (.sending fsenv type buf dstva) e =
        .sending fsenv type buf dstva := Function.update_self ..
    have hother : ∀ j, j ≠ e → Function.update s.client e (.sending fsenv type buf dstva) j =
        s.client j := fun j hje => Function.update_of_ne hje ..
    have hid : fsenv = 0 ∨ fsenv = id := by
      rcases hfound with h | h
      · exact hs.found _ h
      · rw [h]
        exact ipcFindEnv_or hs.servers
    refine ⟨hs.ipc, hs.mem, hs.ids, hs.servers, hs.slot, ?_, fun hgone => ?_, hs.serving, hs.busy,
      hs.fresh, fun j fsenv' type' buf' d hsend => ?_, fun j k d hasked => ?_⟩
    · intro w hw
      rcases List.mem_cons.mp hw with rfl | hw
      · exact hid
      · exact hs.found w hw
    · obtain ⟨hlive, hfsid, hfsout, hcount⟩ := hs.up hgone
      exact ⟨hlive, hfsid, (hother fs (fun h => hgone (hfs h.symm))).trans hfsout, hcount⟩
    · by_cases hje : j = e
      · subst hje
        have hsend' := hself.symm.trans hsend
        cases hsend'
        exact ⟨hr, hid, hg⟩
      · exact hs.sending j _ _ _ _ ((hother j hje).symm.trans hsend)
    · by_cases hje : j = e
      · subst hje
        have hasked' := hself.symm.trans hasked
        cases hasked'
      · have ha := hs.asked j k d ((hother j hje).symm.trans hasked)
        exact ⟨ha.live, ha.aligned, ha.mail, ha.current, ha.unread, ha.page⟩
  | @handled k whom r pg perm hrun hserver =>
    have hcur : s.server.current = some (k, whom) := by rw [hserver]; rfl
    refine ⟨hs.ipc, hs.mem, hs.ids, hs.servers, hs.slot, hs.found, fun _ => ?_, ?_, ?_, hs.fresh,
      hs.sending, fun j i d hasked => ?_⟩
    · exact hs.up (by rw [hserver]; simp)
    · rcases hs.serving with h | h | h
      · rw [hserver] at h
        cases h
      · rw [hserver] at h
        cases h
      · exact Or.inr (Or.inr h)
    · intro j w hjw
      exact hs.busy j w (hcur.trans hjw)
    · have ha := hs.asked j i d hasked
      refine ⟨ha.live, ha.aligned, ha.mail, fun n hn => ?_, fun _ => ?_, ha.page⟩
      · exact ha.current n (hcur.trans hn)
      · exact ha.unread (by rw [hserver]; simp)

lemma start {k : Kernel} (hb : Booted B k) (hfs : FileServer fs id k) :
    FsIn B fs id (.start k) := by
  have hids := hb.ids
  refine ⟨⟨[], .start hb rfl⟩, hb.kernelOk.mem, hids, ?_, ?_, ?_, fun _ => ?_, Or.inl rfl, ?_, ?_,
    ?_, ?_⟩
  · intro e htype
    obtain rfl := hfs.only e htype
    exact ⟨rfl, hfs.id⟩
  · rw [← hfs.id]
    exact hids fs hfs.live
  · simp [FsState.start]
  · exact ⟨hfs.live, hfs.id, rfl, rfl⟩
  · rintro k whom ⟨⟩
  · exact fun _ _ => rfl
  · rintro e fsenv type buf dstva ⟨⟩
  · rintro e k dstva ⟨⟩

/-- What `fsipc` returns is the reply to its request. -/
lemma returns {l : FsEvent} {v : Word} (hs : FsIn B fs id s) (hst : FsStep fs s l t)
    (hret : FsipcReturns ⟨s, l, t⟩ e k v) : ∃ rep, t.reply k = some rep ∧ rep.value = v := by
  obtain ⟨⟨dstva, hc⟩, hret⟩ := hret
  have ha := hs.asked e k dstva hc
  cases hst with
  | kernel hst hcode =>
    obtain ⟨-, hno, hb⟩ := hret
    obtain ⟨s', call, hcall, hno⟩ := callsNo_iff.mp hno
    obtain ⟨j, d, hd, harg⟩ := (hcode.wait e _ _ hcall hno).resolve_left (by rw [hc]; simp)
    rw [hc] at hd
    cases hd
    have hb' := blocks_iff.mpr ⟨s', call, hcall, hno, fun hlt => ?_⟩
    · rw [hb] at hb'
      cases hb'
    · rw [harg] at hlt ⊢
      split at hlt
      · exact absurd hlt (by decide)
      · rename_i h0
        rw [if_neg h0]
        exact ha.aligned hlt
  | user hi hst =>
    cases hst with
    | kernel => exact absurd rfl (hi _)
    | @returns e hrun hr =>
      obtain ⟨rfl, -, hneg⟩ := hret
      have heax : (s.ipc.kernel.envs e).envTf.tfRegs.regEax = 0 := by
        obtain ⟨h, hipc⟩ := hs.ipc
        exact (hipc.slots e).eax hr
      have hneg' : (returnedTo s.ipc.kernel e).slt 0 = true := hneg
      unfold returnedTo at hneg'
      rw [heax] at hneg'
      exact absurd hneg' (by decide)
    | readFrom => exact hret.elim
    | readPerm => exact hret.elim
    | receive hrun hr =>
      obtain ⟨rfl, rfl⟩ := hret
      rcases ha.mail with hnil | ⟨f, rep, hrep, hmail⟩
      · unfold pending at hnil
        rw [hr] at hnil
        cases hnil
      · unfold pending at hmail
        rw [hr] at hmail
        have hval := congrArg Prod.snd (List.singleton_inj.mp hmail)
        exact ⟨rep, hrep, hval.symm⟩
  | call => exact hret.elim
  | handled => exact hret.elim

/-- A page that a message maps. -/
lemma sent_space {s s' : Kernel} {call : Call} {S : EnvIdx → PageNo → Word} (hok : MemOk B s)
    (hcall : Calls s ev s' c call) (hno : call.no.toNat = 12)
    (he : envOf s' c call.a1 false = some e) (hec : e ≠ c) (hS : StepRemapped B s ev S) :
    S e = spacesOf s e ∨ ∃ (hd : (s.envs e).envIpcDstva < utop) (hp : call.a3 < utop),
      S e = Function.update (spacesOf s e) (pageNo _ hd)
        (page2pa (pgnum (spacesOf s c (pageNo call.a3 hp))) ||| call.a4 ||| pteP) := by
  cases hcall with
  | @trap cpu _ tf cr2 cons hc hst htrap =>
    have hsp : spacesOf (s.entered c tf) = spacesOf s :=
      (hok.setEnv (e := c) (v := { s.envs c with envTf := tf }) rfl).2
    have hdst : ((s.entered c tf).envs e).envIpcDstva = (s.envs e).envIpcDstva :=
      Kernel.setEnv_proj Env.envIpcDstva (by rfl) e
    cases hS with
    | trap hc' hre =>
      obtain rfl := Option.some.inj (hc.symm.trans hc')
      cases hre with
      | same => exact Or.inl rfl
      | gone =>
        left
        funext n
        exact if_neg hec
      | call _ _ hre =>
        rw [← hsp, ← hdst]
        cases hre with
        | failed => exact Or.inl rfl
        | kept => exact Or.inl rfl
        | sent => exact Or.inl rfl
        | shared hsh =>
          cases hsh with
          | map h5 => omega
          | send _ hj _ hs hd =>
            obtain rfl := Option.some.inj (he.symm.trans hj)
            exact Or.inr ⟨hd, hs, Function.update_self ..⟩
        | _ => omega

/-- The message an environment waits for is the reply to its request. -/
lemma pages {l : FsEvent} (hs : FsIn B fs id s) (hg : FsGuard fs id s l) (hst : FsStep fs s l t)
    (hne : dstva ≠ 0) (hlt : dstva < utop) (hc : s.client e = .asked k dstva)
    (hdel : Delivered ⟨s, l, t⟩ e) : ∃ rep, t.reply k = some rep ∧
      PageSent fs e rep dstva s.ipc.kernel t.ipc.kernel := by
  obtain ⟨ev, rfl, hsend⟩ := hdel
  have ha := hs.asked e k dstva hc
  cases hst with
  | kernel hst hcode =>
    obtain ⟨p, hp⟩ := Option.isSome_iff_exists.mp hsend
    obtain ⟨s', call, hcall, hno, he, -, -, hrep⟩ := hs.replied hst hcode hg hc hp
    obtain ⟨-, -, -, -, -, -, hrecv, -⟩ := hs.delivered hst hp
    have hefs : e ≠ fs := by
      rintro rfl
      cases hcall with
      | @trap cpu _ tf cr2 cons hcur => exact (hs.recv e hrecv).2 cpu (by simp) hcur
    have hk : KernelOk B s.ipc.kernel := ⟨hs.envs, hs.mem⟩
    refine ⟨_, hrep, ?_⟩
    rcases sent_space hs.mem hcall hno he hefs (hk.step hst hg.2.1).2 with hsame | ⟨hd, hpg, hmap⟩
    · exact Or.inl hsame
    · right
      have hdst := ha.page hrecv hne hlt
      refine ⟨hlt, hpg, ?_⟩
      have hpage : pageNo _ hd = pageNo dstva hlt := by
        unfold pageNo
        simp only [hdst]
      rw [← hpage]
      exact hmap

end FsIn

/-- Every call of `fsipc` returns the reply to its own request. -/
theorem fsipc_of_run (hr : FsRuns B fs id h s) (hg : ∀ m ∈ h, FsGuard fs id m.pre m.label) :
    FsipcOk fs h := by
  have hrun : ∀ m ∈ h, FsIn B fs id m.pre ∧ FsStep fs m.pre m.label m.post := by
    intro m hm
    obtain ⟨⟨h', hsub, hr'⟩, hst⟩ := hr.mem hm
    refine ⟨?_, hst⟩
    apply hr'.induct (fun m hm => hg m (hsub hm)) (fun _ s => FsIn B fs id s)
    · rintro s ⟨k, hb, hfs, rfl⟩
      exact .start hb hfs
    · exact fun h s l t hs hg hst => hs.step hg hst
  constructor
  · intro m hm e k v hret
    obtain ⟨hs, hst⟩ := hrun m hm
    exact hs.returns hst hret
  · intro m hm e k dstva hne hlt hc hdel
    obtain ⟨hs, hst⟩ := hrun m hm
    exact hs.pages (hg m hm) hst hne hlt hc hdel

/-! ### A file server, a client and a third environment -/

/-- The three environments of the small machine, in this order. -/
def fsBooted : Kernel :=
  after (envCreate 0 emptyBinary .user) (after (envCreate 0 emptyBinary .user)
    (after (envCreate 0 emptyBinary .fs) (Kernel.boot smallBoot)))

/-- A system call on processor 0. -/
def FsState.called (s : FsState) (no a1 a2 a3 a4 : Word) : FsState :=
  s.stepped 0 (.trap 0 (callFrame no a1 a2 a3 a4 0) 0 0)
    (after (trap 0 (callFrame no a1 a2 a3 a4 0) 0 0) s.ipc.kernel)

/-- `ipc_recv` has read the sender and the permission. -/
def FsState.got (s : FsState) (e : EnvIdx) : FsState :=
  let env := s.ipc.kernel.envs e
  { s with ipc := s.ipc.setReader e (.gotPerm env.envIpcFrom env.envIpcPerm) }

/-- `ipc_recv` has returned. -/
def FsState.received (s : FsState) (e : EnvIdx) : FsState :=
  (s.got e).read 0 (.receive e (s.ipc.kernel.envs e).envIpcFrom (s.ipc.kernel.envs e).envIpcValue)
    (s.ipc.setReader e .out)

abbrev SmallRuns : List FsMove → FsState → Prop := FsRuns smallBoot 0 0x1000

/-- A run of the small machine leads to `s`. -/
def Reached (G : FsState → FsEvent → Prop) (s : FsState) : Prop :=
  ∃ h, SmallRuns h s ∧ ∀ m ∈ h, G m.pre m.label

section

variable {G : FsState → FsEvent → Prop} {l : FsEvent} {no a1 a2 a3 a4 : Word}

lemma Reached.next (hs : Reached G s) (hst : FsStep 0 s l t) (hg : G s l) : Reached G t := by
  obtain ⟨h, hr, hG⟩ := hs
  refine ⟨h ++ [⟨s, l, t⟩], .next hr hst, fun m hm => ?_⟩
  rcases List.mem_append.mp hm with hm | hm
  · exact hG m hm
  · obtain rfl := List.mem_singleton.mp hm
    exact hg

/-- A system call that the programs make. -/
lemma called_step (hcur : (s.ipc.kernel.cpus 0).cpuEnv = some c)
    (hexit : exitOf (trap 0 (callFrame no a1 a2 a3 a4 0) 0 0) s.ipc.kernel = some .leave)
    (hleft : s.ipc.reader c ≠ .waiting)
    (hsend : no.toNat = 12 → (c = 0 → ∃ k, s.server = .replying k a1 a2 a3 a4) ∧
      (s.client c = .out ∨ a4 = pteP ||| pteW ||| pteU ∧
        ∃ dstva, s.client c = .sending a1 a2 a3 dstva))
    (hrecv : no.toNat = 13 → s.ipc.reader c = .out ∧ (c = 0 → s.server = .idle ∧ a1 = fsreq) ∧
      (s.client c = .out ∨ ∃ k dstva, s.client c = .asked k dstva ∧
        a1 = if dstva = 0 then utop else dstva)) :
    FsStep 0 s (.kernel (.trap 0 (callFrame no a1 a2 a3 a4 0) 0 0)) (s.called no a1 a2 a3 a4) := by
  have hcs : (callFrame no a1 a2 a3 a4 0).tfCs &&& 3 = 3 := by
    show (gdUt ||| 3) &&& 3 = 3
    decide
  have hwho : ∀ {e s' call}, Calls s.ipc.kernel (.trap 0 (callFrame no a1 a2 a3 a4 0) 0 0) s' e call →
      e = c ∧ call = (callFrame no a1 a2 a3 a4 0).call := by
    intro e s' call hcall
    cases hcall with
    | trap hc => exact ⟨Option.some.inj (hc.symm.trans hcur), rfl⟩
  apply FsStep.kernel (.trap (by rw [hcur]; simp) hcs (eq_error_of_exitOf hexit))
  refine ⟨⟨?_, ?_⟩, ?_, ?_, ?_, ?_⟩
  · rintro cpu tf cr2 cons j ⟨⟩ hj
    obtain rfl := Option.some.inj (hcur.symm.trans hj)
    exact hleft
  · intro e hb
    obtain ⟨s', call, hcall, hno, -⟩ := blocks_iff.mp hb
    obtain ⟨rfl, rfl⟩ := hwho hcall
    exact (hrecv hno).1
  · intro s' call hcall hno
    obtain ⟨rfl, rfl⟩ := hwho hcall
    exact Or.inr ((hsend hno).1 rfl)
  · intro s' call hcall hno
    obtain ⟨rfl, rfl⟩ := hwho hcall
    exact Or.inr ((hrecv hno).2.1 rfl)
  · intro e s' call hcall hno
    obtain ⟨rfl, rfl⟩ := hwho hcall
    exact (hsend hno).2
  · intro e s' call hcall hno
    obtain ⟨rfl, rfl⟩ := hwho hcall
    exact (hrecv hno).2.2

lemma Reached.fsIn (hs : Reached (FsGuard 0 0x1000) s) : FsIn smallBoot 0 0x1000 s := by
  obtain ⟨h, hr, hg⟩ := hs
  apply hr.induct hg (fun _ s => FsIn smallBoot 0 0x1000 s)
  · rintro s ⟨k, hb, hfs, rfl⟩
    exact .start hb hfs
  · exact fun h s l t hs hg hst => hs.step hg hst

/-- The guard of a call of `sys_ipc_try_send` with a page that is mapped. -/
lemma eventGuard_send (hs : FsIn B fs id s) (hcur : (s.ipc.kernel.cpus 0).cpuEnv = some c)
    (hpage : ∀ hp : a3 < utop, has (spacesOf s.ipc.kernel c (pageNo a3 hp)) pteP = true ∧
      a4.toNat < 4096 ∧
      s.ipc.kernel.pm.ppRef (pgnum (spacesOf s.ipc.kernel c (pageNo a3 hp))) ≠ 0xffff) :
    EventGuard s.ipc.kernel (.trap 0 (callFrame 12 a1 a2 a3 a4 0) 0 0) := by
  have hno : (12 : Word).toNat = 12 := rfl
  intro j hj
  obtain rfl := Option.some.inj (hcur.symm.trans hj)
  have hrecv : RecvGuard s.ipc.kernel (.trap 0 (callFrame 12 a1 a2 a3 a4 0) 0 0) :=
    recvGuard_trap hs.recv (show (12 : Word).toNat ≠ 3 by decide)
      (show (12 : Word).toNat ≠ 8 by decide)
  refine ⟨hrecv.cpus c hcur, fun hst htrap => ⟨fun se n de m perm hsh => ?_, fun h6 => ?_⟩⟩
  · have hsp : spacesOf (s.ipc.kernel.entered c (callFrame 12 a1 a2 a3 a4 0)) =
        spacesOf s.ipc.kernel := (hs.mem.setEnv (e := c)
          (v := { s.ipc.kernel.envs c with envTf := callFrame 12 a1 a2 a3 a4 0 }) rfl).2
    rw [hsp]
    cases hsh with
    | map h5 => exact absurd (hno.symm.trans h5) (by omega)
    | send _ _ _ hp =>
      obtain ⟨hP, hlt, href⟩ := hpage hp
      exact ⟨hP, hlt, Or.inl href⟩
  · exact absurd (hno.symm.trans h6) (by omega)

lemma fsGuard_called (hs : FsIn B fs id s) (hno : no.toNat ∉ [3, 8, 9])
    (hev : EventGuard s.ipc.kernel (.trap 0 (callFrame no a1 a2 a3 a4 0) 0 0))
    (hup : s.server ≠ .gone) (hcur : (s.ipc.kernel.cpus 0).cpuEnv = some c)
    (hto : no.toNat = 12 → c = fs ∨ s.client (envx a1) = .out) :
    FsGuard fs id s (.kernel (.trap 0 (callFrame no a1 a2 a3 a4 0) 0 0)) := by
  simp only [List.mem_cons, List.not_mem_nil, or_false, not_or] at hno
  have hrecv : RecvGuard s.ipc.kernel (.trap 0 (callFrame no a1 a2 a3 a4 0) 0 0) :=
    recvGuard_trap hs.recv hno.1 hno.2.1
  refine ⟨ipcGuard_trap hrecv hno.2.2, hev, ?_, fun h => absurd h hup⟩
  intro s' j call e k dstva hcall h12 he hr hasked
  have hslot := (envOf_receiver hs.recv hcall he hr).1
  cases hcall with
  | trap hj =>
    obtain rfl := Option.some.inj (hcur.symm.trans hj)
    rcases hto h12 with hfs | hout
    · exact ⟨hfs, hup⟩
    · rw [hslot] at hasked
      have hout' : s.client (envx (callFrame no a1 a2 a3 a4 0).call.a1) = .out := hout
      rw [hout'] at hasked
      cases hasked

lemma user_step {i : IpcEvent} {v : IpcState} (hi : ∀ ev, i ≠ .kernel ev)
    (hst : IpcStep s.ipc i v) : FsStep 0 s (.user i) (s.read 0 i v) := .user hi hst

/-- `sys_ipc_recv` returns 0 and `ipc_recv` reads the sender and the permission. -/
lemma Reached.got (hs : Reached G s) (hg : ∀ s i, G s (.user i))
    (hcur : (s.ipc.kernel.cpus 0).cpuEnv = some e) (hr : s.ipc.reader e = .waiting)
    (heax : (s.ipc.kernel.envs e).envTf.tfRegs.regEax = 0) : Reached G (s.got e) := by
  have hrun : Runs.At s.ipc.kernel e := ⟨0, hcur⟩
  have hneg : (returnedTo s.ipc.kernel e).slt 0 = false := by
    unfold returnedTo
    rw [heax]
    decide
  have h₁ : FsStep 0 s (.user (.returns e)) { s with ipc := s.ipc.setReader e .returned } := by
    have hst := IpcStep.returns hrun hr
    rw [heax, if_neg (by decide)] at hst
    have hstep := user_step (by simp) hst
    unfold FsState.read at hstep
    dsimp only at hstep
    rw [hneg] at hstep
    exact hstep
  have h₂ := user_step (s := { s with ipc := s.ipc.setReader e .returned }) (by simp)
    (.readFrom (e := e) hrun s.ipc.setReader_self)
  have h₃ := user_step
    (s := { s with ipc := s.ipc.setReader e (.gotFrom (s.ipc.kernel.envs e).envIpcFrom) }) (by simp)
    (.readPerm (e := e) hrun s.ipc.setReader_self)
  rw [IpcState.setReader_setReader] at h₂ h₃
  exact ((hs.next h₁ (hg _ _)).next h₂ (hg _ _)).next h₃ (hg _ _)

lemma received_step (hcur : (s.ipc.kernel.cpus 0).cpuEnv = some e) :
    FsStep 0 (s.got e) (.user (.receive e (s.ipc.kernel.envs e).envIpcFrom
      (s.ipc.kernel.envs e).envIpcValue)) (s.received e) := by
  have hstep := user_step (s := s.got e) (by simp)
    (.receive (e := e) ⟨0, hcur⟩ s.ipc.setReader_self)
  unfold FsState.got at hstep
  rw [IpcState.setReader_setReader] at hstep
  exact hstep

end

lemma received_returns (hc : s.client e = .asked k dstva) {v : Word}
    (hv : (s.ipc.kernel.envs e).envIpcValue = v) :
    FsipcReturns ⟨s.got e, .user (.receive e (s.ipc.kernel.envs e).envIpcFrom
      (s.ipc.kernel.envs e).envIpcValue), s.received e⟩ e k v :=
  ⟨⟨dstva, hc⟩, rfl, hv.symm⟩

/-- A value that is not the reply has been returned. -/
lemma not_fsipcOk {m : FsMove} {v : Word} (hm : m ∈ h) (hret : FsipcReturns m e k v)
    (hreply : (m.post.reply k).isNone = true) : ¬ FsipcOk fs h := by
  intro hok
  obtain ⟨rep, hrep, -⟩ := hok.value m hm e k v hret
  rw [hrep] at hreply
  cases hreply

/-- The scheduler starts the file server, which waits for a request. -/
def fsUp : FsState :=
  (FsState.start fsBooted).stepped 0 (.wake 0) (after (schedYield (α := Unit) 0) fsBooted)

def fsWaits : FsState := fsUp.called 13 fsreq 0 0 0

/-- The client calls `fsipc` with a request in its stack page. -/
def clientCalls : FsState :=
  { fsWaits with
    client := Function.update fsWaits.client 1 (.sending 0x1000 2 0xeebfd000 0)
    found := 0x1000 :: fsWaits.found }

def clientAsks : FsState := clientCalls.called 12 0x1000 2 0xeebfd000 7

def clientWaits : FsState := clientAsks.called 13 utop 0 0 0

/-- The third environment sends the client a message and yields. -/
def thirdSends : FsState := clientWaits.called 12 0x1001 99 utop 0

def thirdYields : FsState := thirdSends.called 11 0 0 0 0

/-- The file server has its request and yields to the client. -/
def fsYields : FsState := (thirdYields.got 0).called 11 0 0 0 0

lemma Reached.start {k k' : Kernel} (hb : Booted smallBoot k) (hfs : FileServer 0 0x1000 k)
    (hwake : Step k (.wake 0) k') :
    Reached (FsGuard 0 0x1000) ((FsState.start k).stepped 0 (.wake 0) k') := by
  have hcode : FsCode 0 (.start k) (.wake 0) := by
    refine ⟨⟨fun _ _ _ _ _ hev => (by cases hev), fun _ _ => rfl⟩, ?_, ?_, ?_, ?_⟩
    · rintro s' call ⟨⟩
    · rintro s' call ⟨⟩
    · rintro e s' call ⟨⟩
    · rintro e s' call ⟨⟩
  refine ⟨_, .next (.start ⟨k, hb, hfs, rfl⟩) (.kernel hwake hcode), fun m hm => ?_⟩
  obtain rfl := List.mem_singleton.mp hm
  refine ⟨⟨⟨trivial, ?_⟩, ?_⟩, trivial, ?_, ?_⟩
  · rintro s' c call ⟨⟩
  · rintro s' c call ⟨⟩
  · rintro s' c call e k dstva ⟨⟩
  · rintro ⟨⟩

lemma clientWaits_reached : Reached (FsGuard 0 0x1000) clientWaits := by
  have hfacts : (resultOf (envCreate 0 emptyBinary .fs) (Kernel.boot smallBoot) = some () ∧
      resultOf (envCreate 0 emptyBinary .user)
        (after (envCreate 0 emptyBinary .fs) (Kernel.boot smallBoot)) = some () ∧
      resultOf (envCreate 0 emptyBinary .user) (after (envCreate 0 emptyBinary .user)
        (after (envCreate 0 emptyBinary .fs) (Kernel.boot smallBoot))) = some ()) ∧
      ((fsBooted.envs 0).envStatus ≠ .free ∧ (fsBooted.envs 0).envType = .fs ∧
      (fsBooted.envs 0).envId = 0x1000 ∧ ∀ e, (fsBooted.envs e).envType = .fs → e = 0) ∧
      ((fsBooted.cpus 0).cpuEnv = none ∧
      exitOf (schedYield (α := Unit) 0) fsBooted = some .leave) ∧
      ((fsUp.ipc.kernel.cpus 0).cpuEnv = some 0 ∧
      (fsWaits.ipc.kernel.cpus 0).cpuEnv = some 1 ∧
      (clientCalls.ipc.kernel.cpus 0).cpuEnv = some 1 ∧
      (clientAsks.ipc.kernel.cpus 0).cpuEnv = some 1) ∧
      (exitOf (trap 0 (callFrame 13 fsreq 0 0 0 0) 0 0) fsUp.ipc.kernel = some .leave ∧
      exitOf (trap 0 (callFrame 12 0x1000 2 0xeebfd000 7 0) 0 0) clientCalls.ipc.kernel =
        some .leave ∧
      exitOf (trap 0 (callFrame 13 utop 0 0 0 0) 0 0) clientAsks.ipc.kernel = some .leave) ∧
      (fsUp.ipc.reader 0 = .out ∧ fsWaits.ipc.reader 1 = .out ∧
      clientCalls.ipc.reader 1 = .out ∧ clientAsks.ipc.reader 1 = .out) ∧
      (fsUp.server = .idle ∧ clientCalls.server = .idle ∧ clientAsks.server = .idle) ∧
      (fsUp.client 0 = .out ∧ fsWaits.client 1 = .out ∧ clientCalls.client 0 = .out ∧
      clientAsks.client 1 = .asked 1 0) ∧
      ipcFindEnv fsWaits.ipc.kernel .fs = 0x1000 ∧
      ∀ hp : (0xeebfd000 : Word) < utop,
        has (spacesOf clientCalls.ipc.kernel 1 (pageNo 0xeebfd000 hp)) pteP = true ∧
        (7 : Word).toNat < 4096 ∧ clientCalls.ipc.kernel.pm.ppRef (pgnum
          (spacesOf clientCalls.ipc.kernel 1 (pageNo 0xeebfd000 hp))) ≠ 0xffff := by decide +kernel
  obtain ⟨⟨b₁, b₂, b₃⟩, ⟨hlive, htype, hid, honly⟩, ⟨c₀, x₀⟩, ⟨c₁, c₂, c₃, c₄⟩, ⟨x₁, x₃, x₄⟩,
    ⟨r₁, r₂, r₃, r₄⟩, ⟨v₁, v₃, v₄⟩, ⟨o₁, o₂, o₃, o₄⟩, hfind, hpage⟩ := hfacts
  have hbooted : Booted smallBoot fsBooted :=
    .envCreate (.envCreate (.envCreate .memInit emptyBinary_below (eq_ok_of_resultOf b₁))
      emptyBinary_below (eq_ok_of_resultOf b₂)) emptyBinary_below (eq_ok_of_resultOf b₃)
  have t₀ : Reached (FsGuard 0 0x1000) fsUp :=
    .start hbooted ⟨hlive, htype, hid, honly⟩ (.wake c₀ (eq_error_of_exitOf x₀))
  have t₁ : Reached (FsGuard 0 0x1000) fsWaits := by
    apply t₀.next (called_step c₁ x₁ (by rw [r₁]; simp) (fun h => absurd h (by decide))
      (fun _ => ⟨r₁, fun _ => ⟨v₁, rfl⟩, Or.inl o₁⟩))
    exact fsGuard_called t₀.fsIn (by decide) (eventGuard_callFrame (by decide))
      (by rw [v₁]; simp) c₁ (fun h => absurd h (by decide))
  have t₂ : Reached (FsGuard 0 0x1000) clientCalls := by
    apply t₁.next (.call ⟨0, c₂⟩ o₂ r₂ (fun h => absurd h (by decide)) (Or.inr hfind.symm))
    exact fun _ => by decide
  have t₃ : Reached (FsGuard 0 0x1000) clientAsks := by
    apply t₂.next (called_step c₃ x₃ (by rw [r₃]; simp) (fun _ => ⟨fun h => absurd h (by decide), Or.inr
      ⟨by decide, 0, rfl⟩⟩) (fun h => absurd h (by decide)))
    have hev : EventGuard clientCalls.ipc.kernel
        (.trap 0 (callFrame 12 0x1000 2 0xeebfd000 7 0) 0 0) := eventGuard_send t₂.fsIn c₃ hpage
    have hup : clientCalls.server ≠ .gone := by
      rw [v₃]
      simp
    exact fsGuard_called t₂.fsIn (by decide) hev hup c₃ (fun _ => Or.inr o₃)
  apply t₃.next (called_step c₄ x₄ (by rw [r₄]; simp) (fun h => absurd h (by decide))
    (fun _ => ⟨r₄, fun h => absurd h (by decide), Or.inr ⟨1, 0, o₄, rfl⟩⟩))
  exact fsGuard_called t₃.fsIn (by decide) (eventGuard_callFrame (by decide))
    (by rw [v₄]; simp) c₄ (fun h => absurd h (by decide))

/-- The third environment yields, and the file server handles the request and replies. -/
def fsTurn : FsState := clientWaits.called 11 0 0 0 0

def fsHandled : FsState :=
  { fsTurn.received 0 with server := .replying 1 0x1001 0 utop 7 }

def fsReplied : FsState := fsHandled.called 12 0x1001 0 utop 7

def clientTurn : FsState := fsReplied.called 11 0 0 0 0

theorem fsipc_of_run_reply : ∃ h, SmallRuns h (clientTurn.received 1) ∧ FsipcOk 0 h ∧
    ∃ m ∈ h, FsipcReturns m 1 1 0 := by
  have hfacts : ((clientWaits.ipc.kernel.cpus 0).cpuEnv = some 2 ∧
      (fsTurn.ipc.kernel.cpus 0).cpuEnv = some 0 ∧
      ((fsTurn.received 0).ipc.kernel.cpus 0).cpuEnv = some 0 ∧
      (fsHandled.ipc.kernel.cpus 0).cpuEnv = some 0 ∧
      (fsReplied.ipc.kernel.cpus 0).cpuEnv = some 0 ∧
      (clientTurn.ipc.kernel.cpus 0).cpuEnv = some 1) ∧
      (exitOf (trap 0 (callFrame 11 0 0 0 0 0) 0 0) clientWaits.ipc.kernel = some .leave ∧
      exitOf (trap 0 (callFrame 12 0x1001 0 utop 7 0) 0 0) fsHandled.ipc.kernel = some .leave ∧
      exitOf (trap 0 (callFrame 11 0 0 0 0 0) 0 0) fsReplied.ipc.kernel = some .leave) ∧
      (clientWaits.ipc.reader 2 = .out ∧ fsTurn.ipc.reader 0 = .waiting ∧
      fsHandled.ipc.reader 0 = .out ∧ fsReplied.ipc.reader 0 = .out ∧
      clientTurn.ipc.reader 1 = .waiting) ∧
      (clientWaits.server = .idle ∧ (fsTurn.received 0).server = .handling 1 0x1001 ∧
      fsReplied.server = .idle) ∧
      (fsHandled.client 0 = .out ∧ clientTurn.client 1 = .asked 1 0) ∧
      ((fsTurn.ipc.kernel.envs 0).envTf.tfRegs.regEax = 0 ∧
      (clientTurn.ipc.kernel.envs 1).envTf.tfRegs.regEax = 0 ∧
      (clientTurn.ipc.kernel.envs 1).envIpcValue = 0) := by decide +kernel
  obtain ⟨⟨c₁, c₂, c₂', c₃, c₄, c₅⟩, ⟨x₁, x₃, x₄⟩, ⟨r₁, r₂, r₃, r₄, r₅⟩, ⟨v₁, v₂, v₄⟩, ⟨o₃, o₅⟩, e₂, e₅,
    hvalue⟩ := hfacts
  have t₁ : Reached (FsGuard 0 0x1000) fsTurn := by
    apply clientWaits_reached.next (called_step c₁ x₁ (by rw [r₁]; simp)
      (fun h => absurd h (by decide)) (fun h => absurd h (by decide)))
    exact fsGuard_called clientWaits_reached.fsIn (by decide) (eventGuard_callFrame (by decide))
      (by rw [v₁]; simp) c₁ (fun h => absurd h (by decide))
  have t₂ : Reached (FsGuard 0 0x1000) (fsTurn.received 0) :=
    (t₁.got (fun _ _ => trivial) c₂ r₂ e₂).next (received_step c₂) trivial
  have hst : FsStep 0 (fsTurn.received 0) (.handled 0 0 7) fsHandled := .handled ⟨0, c₂'⟩ v₂
  have t₃ : Reached (FsGuard 0 0x1000) fsHandled := t₂.next hst trivial
  have t₄ : Reached (FsGuard 0 0x1000) fsReplied := by
    apply t₃.next (called_step c₃ x₃ (by rw [r₃]; simp) (fun _ => ⟨fun _ => ⟨1, rfl⟩, Or.inl o₃⟩)
      (fun h => absurd h (by decide)))
    have hev : EventGuard fsHandled.ipc.kernel (.trap 0 (callFrame 12 0x1001 0 utop 7 0) 0 0) :=
      eventGuard_send t₃.fsIn c₃ (fun h => absurd h (by decide))
    exact fsGuard_called t₃.fsIn (by decide) hev (fun h => by cases h) c₃ (fun _ => Or.inl rfl)
  have t₅ : Reached (FsGuard 0 0x1000) clientTurn := by
    apply t₄.next (called_step c₄ x₄ (by rw [r₄]; simp) (fun h => absurd h (by decide))
      (fun h => absurd h (by decide)))
    exact fsGuard_called t₄.fsIn (by decide) (eventGuard_callFrame (by decide))
      (by rw [v₄]; simp) c₄ (fun h => absurd h (by decide))
  obtain ⟨h, hr, hg⟩ := t₅.got (fun _ _ => trivial) c₅ r₅ e₅
  have hr' : SmallRuns _ (clientTurn.received 1) := .next hr (received_step c₅)
  refine ⟨_, hr', fsipc_of_run hr' (fun m hm => ?_), _, List.mem_append_right _
    (List.mem_singleton.mpr rfl), received_returns o₅ hvalue⟩
  rcases List.mem_append.mp hm with hm | hm
  · exact hg m hm
  · obtain rfl := List.mem_singleton.mp hm
    trivial

/-- `fsipc` returns the value of a third environment. -/
theorem fsipc_fails : ∃ h, SmallRuns h (fsYields.received 1) ∧ ¬ FsipcOk 0 h := by
  have hfacts : ((clientWaits.ipc.kernel.cpus 0).cpuEnv = some 2 ∧
      (thirdSends.ipc.kernel.cpus 0).cpuEnv = some 2 ∧
      (thirdYields.ipc.kernel.cpus 0).cpuEnv = some 0 ∧
      ((thirdYields.got 0).ipc.kernel.cpus 0).cpuEnv = some 0 ∧
      (fsYields.ipc.kernel.cpus 0).cpuEnv = some 1) ∧
      (exitOf (trap 0 (callFrame 12 0x1001 99 utop 0 0) 0 0) clientWaits.ipc.kernel =
        some .leave ∧
      exitOf (trap 0 (callFrame 11 0 0 0 0 0) 0 0) thirdSends.ipc.kernel = some .leave ∧
      exitOf (trap 0 (callFrame 11 0 0 0 0 0) 0 0) (thirdYields.got 0).ipc.kernel =
        some .leave) ∧
      (clientWaits.ipc.reader 2 = .out ∧ thirdSends.ipc.reader 2 = .out ∧
      thirdYields.ipc.reader 0 = .waiting ∧ (thirdYields.got 0).ipc.reader 0 ≠ .waiting ∧
      fsYields.ipc.reader 1 = .waiting) ∧
      (clientWaits.client 2 = .out ∧ fsYields.client 1 = .asked 1 0) ∧
      ((thirdYields.ipc.kernel.envs 0).envTf.tfRegs.regEax = 0 ∧
      (fsYields.ipc.kernel.envs 1).envTf.tfRegs.regEax = 0) ∧
      ((fsYields.received 1).reply 1).isNone = true := by decide +kernel
  obtain ⟨⟨c₁, c₂, c₃, c₄, c₅⟩, ⟨x₁, x₂, x₄⟩, ⟨r₁, r₂, r₃, r₄, r₅⟩, ⟨o₁, o₅⟩, ⟨e₃, e₅⟩, hreply⟩ := hfacts
  have ht : Reached (fun _ _ => True) clientWaits := by
    obtain ⟨h, hr, -⟩ := clientWaits_reached
    exact ⟨h, hr, fun _ _ => trivial⟩
  have t₁ : Reached (fun _ _ => True) thirdSends :=
    ht.next (called_step c₁ x₁ (by rw [r₁]; simp)
      (fun _ => ⟨fun h => absurd h (by decide), Or.inl o₁⟩) (fun h => absurd h (by decide))) trivial
  have t₂ : Reached (fun _ _ => True) thirdYields :=
    t₁.next (called_step c₂ x₂ (by rw [r₂]; simp) (fun h => absurd h (by decide))
      (fun h => absurd h (by decide))) trivial
  have t₃ : Reached (fun _ _ => True) (thirdYields.got 0) := t₂.got (fun _ _ => trivial) c₃ r₃ e₃
  have t₄ : Reached (fun _ _ => True) fsYields :=
    t₃.next (called_step c₄ x₄ r₄ (fun h => absurd h (by decide))
      (fun h => absurd h (by decide))) trivial
  obtain ⟨h, hr, -⟩ := t₄.got (fun _ _ => trivial) c₅ r₅ e₅
  have hr' : SmallRuns _ (fsYields.received 1) := .next hr (received_step c₅)
  exact ⟨_, hr', not_fsipcOk (List.mem_append_right _ (List.mem_singleton.mpr rfl))
    (received_returns o₅ rfl) hreply⟩

end SistemasOperativos.Lib
