import SistemasOperativos.Kern.EnvRules

/-!
# What a system call does to the environments

`Returned` and `Left` list what a call may have done to the environments when it returns to
its caller and when it gives the processor away instead. Every later fact about the
environments is read off these two lists.
-/

namespace SistemasOperativos.Kern

open Library

/-! ### More page functions that do not dispatch -/

namespace Quiet

lemma loadByte (cr3 : ℕ) (va : Word) : Quiet (loadByte cr3 va) := by
  unfold Kern.loadByte
  apply bind get
  intro s
  cases walk s.mem cr3 va with
  | none => exact throw (by decide)
  | some w => exact bind get (fun _ => pure _)

lemma storeByte (cr3 : ℕ) (va : Word) (b : Byte) : Quiet (storeByte cr3 va b) := by
  unfold Kern.storeByte
  apply bind get
  intro s
  cases walk s.mem cr3 va with
  | none => exact throw (by decide)
  | some w =>
    dsimp only
    apply ite
    · exact bind (throw (by decide)) (fun _ => modify _)
    · exact modify _

lemma load16 (cr3 : ℕ) (va : Word) : Quiet (load16 cr3 va) :=
  bind (loadByte cr3 va) (fun _ => bind (loadByte cr3 _) (fun _ => pure _))

lemma load32 (cr3 : ℕ) (va : Word) : Quiet (load32 cr3 va) :=
  bind (load16 cr3 va) (fun _ => bind (load16 cr3 _) (fun _ => pure _))

lemma store32 (cr3 : ℕ) (va w : Word) : Quiet (store32 cr3 va w) :=
  bind (storeByte cr3 va _) (fun _ => bind (storeByte cr3 _ _) (fun _ =>
    bind (storeByte cr3 _ _) (fun _ => storeByte cr3 _ _)))

lemma loadPushRegs (cr3 : ℕ) (p : Word) : Quiet (loadPushRegs cr3 p) := by
  unfold Kern.loadPushRegs
  iterate 8 refine bind (load32 _ _) (fun _ => ?_)
  exact pure _

lemma loadTrapframe (cr3 : ℕ) (p : Word) : Quiet (loadTrapframe cr3 p) := by
  unfold Kern.loadTrapframe
  refine bind (loadPushRegs _ _) (fun _ => ?_)
  iterate 4 refine bind (load16 _ _) (fun _ => ?_)
  iterate 3 refine bind (load32 _ _) (fun _ => ?_)
  iterate 2 refine bind (load16 _ _) (fun _ => ?_)
  iterate 2 refine bind (load32 _ _) (fun _ => ?_)
  iterate 2 refine bind (load16 _ _) (fun _ => ?_)
  exact pure _

lemma storeUTrapframe (cr3 : ℕ) (u faultVa : Word) (tf : Trapframe) :
    Quiet (storeUTrapframe cr3 u faultVa tf) := by
  unfold Kern.storeUTrapframe
  iterate 12 refine bind (store32 _ _ _) (fun _ => ?_)
  exact store32 _ _ _

lemma vprintfmtString (cr3 fuel : ℕ) (p : Word) (precision : ℤ) :
    Quiet (vprintfmtString cr3 fuel p precision) := by
  induction fuel generalizing p precision with
  | zero => exact pure _
  | succ fuel ih =>
    unfold Kern.vprintfmtString
    apply bind (loadByte cr3 p)
    intro ch
    apply ite
    · exact pure _
    · apply ite
      · exact ih _ _
      · apply ite
        · exact ih _ _
        · exact pure _

lemma userMemCheck (pgdir : Option ℕ) (va len perm : Word) :
    Quiet (userMemCheck pgdir va len perm) := by
  have hloop : ∀ fuel auxPage, Quiet
      (userMemCheckLoop pgdir va (roundup (va + len)) perm fuel auxPage) := by
    intro fuel
    induction fuel with
    | zero => exact fun _ => pure _
    | succ fuel ih =>
      intro auxPage
      unfold userMemCheckLoop
      apply ite
      · exact pure _
      · apply ite
        · exact pure _
        · apply bind (pageLookup _ _)
          intro r
          cases r with
          | none => exact pure _
          | some p =>
            apply bind (readPte _)
            intro w
            apply ite
            · exact pure _
            · exact ih _
  exact hloop _ _

end Quiet

/-! ### The two lists -/

/-- The receiver after a message has been delivered. -/
def Env.delivered (env : Env) (from_ value perm : Word) : Env :=
  { env with
    envIpcRecving := false
    envIpcFrom := from_
    envIpcValue := value
    envIpcPerm := perm
    envStatus := .runnable }

/-- The caller of `sys_ipc_recv` when it blocks. -/
def Env.blocked (env : Env) (dstva : Word) : Env :=
  { env with
    envIpcDstva := if dstva < utop then dstva else env.envIpcDstva
    envIpcRecving := true
    envStatus := .notRunnable
    envTf := { env.envTf with tfRegs := { env.envTf.tfRegs with regEax := 0 } } }

/-- The child of `sys_exofork`. -/
def forkedEnv (env : Env) (parentId : Word) (tf : Trapframe) (e : EnvIdx) (d : ℕ) : Env :=
  { freshEnv env e parentId d with
    envTf := { tf with tfRegs := { tf.tfRegs with regEax := 0 } }
    envStatus := .notRunnable }

/-- What `sys_env_set_trapframe` makes of a trap frame. -/
def Trapframe.userMode (t : Trapframe) : Trapframe :=
  { t with
    tfEs := t.tfEs ||| 3
    tfDs := t.tfDs ||| 3
    tfCs := t.tfCs ||| 3
    tfSs := t.tfSs ||| 3
    tfEflags := (t.tfEflags ||| flIf) &&& ~~~flIopl3 }

/-- The number and the arguments of a system call. -/
structure Call where
  no : Word
  a1 : Word
  a2 : Word
  a3 : Word
  a4 : Word
  a5 : Word

/-- The call of `c` on `cpu` has returned `r`: what happened to the environments. -/
inductive Returned (s : Kernel) (cpu : Cpu) (c : EnvIdx) (call : Call) : Word → Kernel → Prop
  | memory {r : Word} (pm : Pmap)
      (hno : call.no.toNat ≠ 3 ∨ r = -eBadEnv) (hex : call.no.toNat = 7 → r.slt 0)
      (hset : call.no.toNat = 8 ∨ call.no.toNat = 9 ∨ call.no.toNat = 10 → r.slt 0)
      (hipc : call.no.toNat = 12 ∨ call.no.toNat = 13 → r.slt 0) (hyield : call.no.toNat ≠ 11)
      (hrecv : call.no.toNat = 13 → call.a1 < utop ∧ call.a1 % 0x1000 ≠ 0) :
      Returned s cpu c call r { s with pm := pm }
  | marked (e : EnvIdx) (hno : call.no.toNat = 3) (he : envOf s c call.a1 true = some e)
      (hne : (s.cpus cpu).cpuEnv ≠ some e) (hst : (s.envs e).envStatus = .running) :
      Returned s cpu c call 0 (s.setEnv e { s.envs e with envStatus := .dying })
  | freed (e : EnvIdx) (pm : Pmap) (hno : call.no.toNat = 3)
      (he : envOf s c call.a1 true = some e) (hne : (s.cpus cpu).cpuEnv ≠ some e)
      (hst : (s.envs e).envStatus ≠ .running) : Returned s cpu c call 0 (s.freed cpu e pm)
  | forked (e : EnvIdx) (d : ℕ) (pm : Pmap) (hno : call.no.toNat = 7)
      (hfl : s.envFreeList = some e) :
      Returned s cpu c call (nextEnvId (s.envs e).envId e)
        ((s.allocated e (s.envs c).envId d pm).setEnv e (forkedEnv (s.envs e) (s.envs c).envId
          ((s.allocated e (s.envs c).envId d pm).envs c).envTf e d))
  | status (e : EnvIdx) (st : EnvStatus) (hno : call.no.toNat = 8)
      (he : envOf s c call.a1 true = some e) (hst : settableStatus call.a2 = some st) :
      Returned s cpu c call 0 (s.setEnv e { s.envs e with envStatus := st })
  | frame (e : EnvIdx) (tf : Trapframe) (pm : Pmap) (hno : call.no.toNat = 9)
      (he : envOf s c call.a1 true = some e) (htf : call.a2 < utop)
      (hload : loadTrapframe (s.cpus cpu).cr3 call.a2 s.pm = .ok tf pm) :
      Returned s cpu c call 0
        ({ s with pm := pm }.setEnv e { s.envs e with envTf := tf.userMode })
  | upcall (e : EnvIdx) (hno : call.no.toNat = 10) (he : envOf s c call.a1 true = some e) :
      Returned s cpu c call 0 (s.setEnv e { s.envs e with envPgfaultUpcall := call.a2 })
  | sent (e : EnvIdx) (pm : Pmap) (hno : call.no.toNat = 12)
      (he : envOf s c call.a1 false = some e) (hrecv : (s.envs e).envIpcRecving = true) :
      Returned s cpu c call 0 ({ s with pm := pm }.setEnv e
        ((s.envs e).delivered (s.envs c).envId call.a2 call.a4))
  | unsent (e : EnvIdx) (pm : Pmap) (hno : call.no.toNat = 12)
      (he : envOf s c call.a1 false = some e) (hrecv : (s.envs e).envIpcRecving = true) :
      Returned s cpu c call (-eNoMem) ({ s with pm := pm }.setEnv e
        { s.envs e with envIpcPerm := 0 })

/-- The call of `c` on `cpu` has given the processor away. -/
inductive Left (s : Kernel) (cpu : Cpu) (c : EnvIdx) (call : Call) : Kernel → Prop
  | destroyed (pm₀ pm : Pmap) (t : Kernel)
      (hno : call.no.toNat = 0 ∨ (call.no.toNat = 3 ∧ envOf s c call.a1 true = some c))
      (hd : Dispatch (({ s with pm := pm₀ }.freed cpu c pm).vacated cpu) cpu t) :
      Left s cpu c call t
  | yielded (t : Kernel) (hno : call.no.toNat = 11) (hd : Dispatch s cpu t) : Left s cpu c call t
  | blocked (t : Kernel) (hno : call.no.toNat = 13)
      (hva : call.a1 < utop → call.a1 % 0x1000 = 0)
      (hd : Dispatch (s.setEnv c ((s.envs c).blocked call.a1)) cpu t) : Left s cpu c call t

section Calls

variable {s : Kernel} {cpu : Cpu} {c : EnvIdx}

lemma userMemAssert_rule (hc : (s.cpus cpu).cpuEnv = some c) (va len perm : Word) :
    Sat (userMemAssert cpu c va len perm) s (fun _ t => ∃ pm, t = { s with pm := pm })
      (fun ex t => ex = .leave → ∃ pm₀ pm,
        Dispatch (({ s with pm := pm₀ }.freed cpu c pm).vacated cpu) cpu t) := by
  unfold userMemAssert
  simp only [sat_bind, sat_get]
  refine (Quiet.userMemCheck _ _ _ _).lift ?_ (fun ex _ hex hl => absurd hl hex)
  rintro (_ | bad) pm
  · exact sat_pure.mpr ⟨pm, rfl⟩
  · refine (envDestroy_rule _ cpu c).mono ?_ ?_
    · rintro - t ⟨hne, -⟩
      exact absurd hc hne
    · rintro ex t hl hex
      obtain ⟨-, pm', hd⟩ := hl hex
      exact ⟨pm, pm', hd⟩

lemma sysCputs_rule (hc : (s.cpus cpu).cpuEnv = some c) (va len : Word) :
    Sat (sysCputs cpu va len) s (fun _ t => ∃ pm, t = { s with pm := pm })
      (fun ex t => ex = .leave → ∃ pm₀ pm,
        Dispatch (({ s with pm := pm₀ }.freed cpu c pm).vacated cpu) cpu t) := by
  unfold sysCputs
  simp only [sat_bind, sat_curenv hc]
  refine (userMemAssert_rule hc va len pteU).mono ?_ (fun _ _ h => h)
  rintro - t ⟨pm, rfl⟩
  generalize 2 ^ 32 = fuel
  split
  · simp only [sat_bind, sat_get]
    exact (Quiet.vprintfmtString _ _ _ _).lift (fun _ pm => ⟨pm, rfl⟩)
      (fun ex _ hex hl => absurd hl hex)
  · exact sat_pure.mpr ⟨pm, rfl⟩

variable {call : Call}

/-- A call that fails at once changes nothing. -/
lemma Returned.failed {r : Word} (hr : r.slt 0) (h3 : call.no.toNat ≠ 3 ∨ r = -eBadEnv)
    (h11 : call.no.toNat ≠ 11)
    (h13 : call.no.toNat = 13 → call.a1 < utop ∧ call.a1 % 0x1000 ≠ 0) :
    Returned s cpu c call r s :=
  .memory s.pm h3 (fun _ => hr) (fun _ => hr) (fun _ => hr) h11 h13

/-- The rule of a call. -/
def CallRule (s : Kernel) (cpu : Cpu) (c : EnvIdx) (call : Call) (f : KernM Word) : Prop :=
  Sat f s (Returned s cpu c call) (fun ex t => ex = .leave → Left s cpu c call t)

lemma sysEnvDestroy_rule (hc : (s.cpus cpu).cpuEnv = some c) (hno : call.no.toNat = 3) :
    CallRule s cpu c call (sysEnvDestroy cpu call.a1) := by
  unfold CallRule sysEnvDestroy
  rw [sat_bind, sat_envid2env hc]
  cases he : envOf s c call.a1 true with
  | none => exact sat_pure.mpr (.failed (by decide) (Or.inr rfl) (by omega) (by omega))
  | some e =>
    rw [sat_bind]
    refine (envDestroy_rule s cpu e).mono ?_ ?_
    · rintro - t ⟨hne, ⟨hst, rfl⟩ | ⟨hst, pm, rfl⟩⟩
      · exact sat_pure.mpr (.marked e hno he hne hst)
      · exact sat_pure.mpr (.freed e pm hno he hne hst)
    · rintro ex t hl hex
      obtain ⟨hcur, pm, hd⟩ := hl hex
      obtain rfl : c = e := Option.some.inj (hc.symm.trans hcur)
      exact .destroyed s.pm pm t (Or.inr ⟨hno, he⟩) hd

lemma sysExofork_rule (hc : (s.cpus cpu).cpuEnv = some c) (hno : call.no.toNat = 7) :
    CallRule s cpu c call (sysExofork cpu) := by
  unfold CallRule sysExofork
  rw [sat_bind, sat_curenv hc, sat_bind, sat_get, sat_bind]
  refine (envAlloc_rule s _).mono ?_ (fun ex _ hex hl => absurd hl hex)
  rintro (code | e) t
  · rintro ⟨hcode, pm, rfl⟩
    have hneg : code.slt 0 := by
      rcases hcode with rfl | rfl <;> decide
    exact sat_pure.mpr (.memory pm (Or.inl (by omega)) (fun _ => hneg) (fun _ => hneg)
      (fun _ => hneg) (by omega) (by omega))
  · rintro ⟨hfl, pm, d, rfl⟩
    unfold modifyEnv
    simp only [sat_bind, sat_get, sat_modify, sat_pure]
    have hself : (s.allocated e (s.envs c).envId d pm).envs e =
        freshEnv (s.envs e) e (s.envs c).envId d := Function.update_self ..
    have hid : ∀ env : Env, ((s.allocated e (s.envs c).envId d pm).setEnv e env).envs e = env :=
      fun env => Function.update_self ..
    rw [hid, hself]
    exact .forked e d pm hno hfl

lemma sysEnvSetStatus_rule (hc : (s.cpus cpu).cpuEnv = some c) (hno : call.no.toNat = 8) :
    CallRule s cpu c call (sysEnvSetStatus cpu call.a1 call.a2) := by
  unfold CallRule sysEnvSetStatus
  cases hst : settableStatus call.a2 with
  | none => exact sat_pure.mpr (.failed (by decide) (Or.inl (by omega)) (by omega) (by omega))
  | some st =>
    simp only [sat_bind, sat_envid2env hc]
    cases he : envOf s c call.a1 true with
    | none => exact sat_pure.mpr (.failed (by decide) (Or.inl (by omega)) (by omega) (by omega))
    | some e =>
      unfold modifyEnv
      simp only [sat_bind, sat_modify, sat_pure]
      exact .status e st hno he hst

lemma sysEnvSetTrapframe_rule (hc : (s.cpus cpu).cpuEnv = some c) (hno : call.no.toNat = 9) :
    CallRule s cpu c call (sysEnvSetTrapframe cpu call.a1 call.a2) := by
  unfold CallRule sysEnvSetTrapframe
  simp only [sat_bind, sat_envid2env hc]
  cases he : envOf s c call.a1 true with
  | none => exact sat_pure.mpr (.failed (by decide) (Or.inl (by omega)) (by omega) (by omega))
  | some e =>
    by_cases hva : call.a2 ≥ utop
    · simp only [if_pos hva]
      exact sat_pure.mpr (.failed (by decide) (Or.inl (by omega)) (by omega) (by omega))
    · simp only [if_neg hva, sat_bind, sat_get]
      rw [sat_liftPm]
      refine ((Quiet.loadTrapframe _ _ s.pm trivial).and (sat_self _ _)).mono ?_
        (fun ex _ hex hl => absurd hl hex.1)
      rintro tf pm ⟨-, hload⟩
      unfold modifyEnv
      simp only [sat_modify, sat_pure]
      exact .frame e tf pm hno he (BitVec.not_le.mp hva) hload

lemma sysEnvSetPgfaultUpcall_rule (hc : (s.cpus cpu).cpuEnv = some c)
    (hno : call.no.toNat = 10) :
    CallRule s cpu c call (sysEnvSetPgfaultUpcall cpu call.a1 call.a2) := by
  unfold CallRule sysEnvSetPgfaultUpcall
  simp only [sat_bind, sat_envid2env hc]
  cases he : envOf s c call.a1 true with
  | none => exact sat_pure.mpr (.failed (by decide) (Or.inl (by omega)) (by omega) (by omega))
  | some e =>
    unfold modifyEnv
    simp only [sat_bind, sat_modify, sat_pure]
    exact .upcall e hno he

/-- A call that runs page functions only. -/
lemma CallRule.of_memory {f : KernM Word}
    (h : Sat f s (fun _ t => ∃ pm, t = { s with pm := pm }) (fun ex _ => ex ≠ .leave))
    (h3 : call.no.toNat ≠ 3) (h7 : call.no.toNat ≠ 7)
    (hset : ¬(call.no.toNat = 8 ∨ call.no.toNat = 9 ∨ call.no.toNat = 10))
    (hipc : ¬(call.no.toNat = 12 ∨ call.no.toNat = 13)) (h11 : call.no.toNat ≠ 11) :
    CallRule s cpu c call f := by
  refine h.mono ?_ (fun ex _ hex hl => absurd hl hex)
  rintro r t ⟨pm, rfl⟩
  exact .memory pm (Or.inl h3) (fun h => absurd h h7) (fun h => absurd h hset)
    (fun h => absurd h hipc) h11 (fun h => absurd (Or.inr h) hipc)

lemma sysPageAlloc_quiet (hc : (s.cpus cpu).cpuEnv = some c) (envid va perm : Word) :
    Sat (sysPageAlloc cpu envid va perm) s (fun _ t => ∃ pm, t = { s with pm := pm })
      (fun ex _ => ex ≠ .leave) := by
  have hs : ∃ pm, s = { s with pm := pm } := ⟨s.pm, rfl⟩
  unfold sysPageAlloc
  simp only [sat_bind, sat_envid2env hc]
  cases envOf s c envid true with
  | none => exact sat_pure.mpr hs
  | some e =>
    simp only [sat_ite, sat_pure, sat_bind]
    refine ⟨fun _ => hs, fun _ => ⟨fun _ => hs, fun _ => ?_⟩⟩
    refine (Quiet.pageAlloc true).lift ?_ (fun _ _ h => h)
    rintro (_ | page) pm
    · exact sat_pure.mpr ⟨pm, rfl⟩
    · simp only [sat_bind, sat_get]
      refine (Quiet.pageInsert _ _ _ _).lift (fun r pm => ?_) (fun _ _ h => h)
      simp only [sat_ite, sat_pure, sat_bind]
      refine ⟨fun _ => ?_, fun _ => ⟨pm, rfl⟩⟩
      exact (Quiet.pageFree page).lift (fun _ pm => ⟨pm, rfl⟩) (fun _ _ h => h)

lemma sysPageMap_quiet (hc : (s.cpus cpu).cpuEnv = some c)
    (srcenvid srcva dstenvid dstva perm : Word) :
    Sat (sysPageMap cpu srcenvid srcva dstenvid dstva perm) s
      (fun _ t => ∃ pm, t = { s with pm := pm }) (fun ex _ => ex ≠ .leave) := by
  have hs : ∃ pm, s = { s with pm := pm } := ⟨s.pm, rfl⟩
  unfold sysPageMap
  simp only [sat_bind, sat_envid2env hc]
  cases envOf s c srcenvid false with
  | none => exact sat_pure.mpr hs
  | some se =>
    simp only [sat_bind, sat_envid2env hc]
    cases envOf s c dstenvid false with
    | none => exact sat_pure.mpr hs
    | some de =>
      simp only [sat_ite, sat_pure, sat_bind, sat_get]
      refine ⟨fun _ => hs, fun _ => ⟨fun _ => hs, fun _ => ?_⟩⟩
      refine (Quiet.pageLookup _ _).lift ?_ (fun _ _ h => h)
      rintro (_ | ⟨page, pte⟩) pm
      · exact sat_pure.mpr ⟨pm, rfl⟩
      · simp only [sat_ite, sat_pure, sat_bind]
        refine ⟨fun _ => ⟨pm, rfl⟩, fun _ => ?_⟩
        refine (Quiet.readPte _).lift (fun w pm => ?_) (fun _ _ h => h)
        simp only [sat_get]
        refine ⟨fun _ => ⟨pm, rfl⟩, fun _ => ?_⟩
        refine (Quiet.pageInsert _ _ _ _).lift (fun r pm => ?_) (fun _ _ h => h)
        refine ⟨fun _ => ?_, fun _ => ⟨pm, rfl⟩⟩
        exact (Quiet.pageFree page).lift (fun _ pm => ⟨pm, rfl⟩) (fun _ _ h => h)

lemma sysPageUnmap_quiet (hc : (s.cpus cpu).cpuEnv = some c) (envid va : Word) :
    Sat (sysPageUnmap cpu envid va) s (fun _ t => ∃ pm, t = { s with pm := pm })
      (fun ex _ => ex ≠ .leave) := by
  have hs : ∃ pm, s = { s with pm := pm } := ⟨s.pm, rfl⟩
  unfold sysPageUnmap
  simp only [sat_bind, sat_envid2env hc]
  cases envOf s c envid true with
  | none => exact sat_pure.mpr hs
  | some e =>
    simp only [sat_ite, sat_pure, sat_bind, sat_get]
    refine ⟨fun _ => hs, fun _ => ?_⟩
    refine (Quiet.pageLookup _ _).lift ?_ (fun _ _ h => h)
    rintro (_ | ⟨page, pte⟩) pm
    · exact sat_pure.mpr ⟨pm, rfl⟩
    · simp only [sat_pure, sat_bind]
      exact (Quiet.pageRemove _ _).lift (fun _ pm => ⟨pm, rfl⟩) (fun _ _ h => h)

/-- The page part of a send: it fails without a trace, or after it has cleared
`env_ipc_perm`, or the send goes on. -/
lemma ipcSendPage_rule (hc : (s.cpus cpu).cpuEnv = some c) (e : EnvIdx) (srcva perm : Word) :
    Sat (ipcSendPage cpu e srcva perm) s
      (fun r t => ∃ pm, (r = -eInval ∧ t = { s with pm := pm }) ∨
        (r = -eNoMem ∧ t = { s with pm := pm }.setEnv e { s.envs e with envIpcPerm := 0 }) ∨
        (r = 0 ∧ (t = { s with pm := pm } ∨
          t = { s with pm := pm }.setEnv e { s.envs e with envIpcPerm := 0 })))
      (fun ex _ => ex ≠ .leave) := by
  unfold ipcSendPage
  simp only [sat_ite, sat_pure, sat_bind, sat_curenv hc, sat_get]
  refine ⟨fun _ => ⟨s.pm, Or.inl ⟨trivial, rfl⟩⟩, fun _ =>
    ⟨fun _ => ⟨s.pm, Or.inl ⟨trivial, rfl⟩⟩, fun _ => ?_⟩⟩
  refine (Quiet.pageLookup _ _).lift ?_ (fun _ _ h => h)
  rintro (_ | ⟨page, pte⟩) pm
  · exact sat_pure.mpr ⟨pm, Or.inl ⟨rfl, rfl⟩⟩
  · simp only [sat_bind]
    refine (Quiet.readPte _).lift (fun w pm => ?_) (fun _ _ h => h)
    unfold modifyEnv
    simp only [sat_ite, sat_pure, sat_bind, sat_get, sat_modify]
    refine ⟨fun _ => ⟨pm, Or.inl ⟨trivial, rfl⟩⟩, fun _ => ⟨fun _ => ?_, fun _ => ?_⟩⟩
    · refine (Quiet.pageInsert _ _ _ _).lift (fun r pm => ?_) (fun _ _ h => h)
      exact ⟨fun _ => ⟨pm, Or.inr (Or.inl ⟨trivial, rfl⟩)⟩,
        fun _ => ⟨pm, Or.inr (Or.inr ⟨trivial, Or.inr rfl⟩)⟩⟩
    · exact ⟨pm, Or.inr (Or.inr ⟨trivial, Or.inl rfl⟩)⟩

lemma sysIpcTrySend_rule (hc : (s.cpus cpu).cpuEnv = some c) (hno : call.no.toNat = 12) :
    CallRule s cpu c call (sysIpcTrySend cpu call.a1 call.a2 call.a3 call.a4) := by
  unfold CallRule sysIpcTrySend
  simp only [sat_bind, sat_envid2env hc]
  cases he : envOf s c call.a1 false with
  | none => exact sat_pure.mpr (.failed (by decide) (Or.inl (by omega)) (by omega) (by omega))
  | some e =>
    have hfinal : ∀ t pm, (t = { s with pm := pm } ∨
        t = { s with pm := pm }.setEnv e { s.envs e with envIpcPerm := 0 }) →
        (s.envs e).envIpcRecving = true →
        Returned s cpu c call 0 (t.setEnv e ((t.envs e).delivered (t.envs c).envId call.a2 call.a4)) := by
      rintro t pm (rfl | rfl) hrecv
      · exact .sent e pm hno he hrecv
      · have hid : ((({ s with pm := pm } : Kernel).setEnv e
            { s.envs e with envIpcPerm := 0 }).envs c).envId = (s.envs c).envId := by
          unfold Kernel.setEnv
          by_cases hce : c = e
          · subst hce
            simp only [Function.update_self]
          · simp only [Function.update_of_ne hce]
        have hsent := @Returned.sent s cpu c call e pm hno he hrecv
        rw [hid]
        unfold Kernel.setEnv Env.delivered at hsent ⊢
        simpa only [Function.update_self, Function.update_idem] using hsent
    simp only [sat_bind, sat_get, sat_ite, sat_pure]
    refine ⟨fun _ => .failed (by decide) (Or.inl (by omega)) (by omega) (by omega),
      fun hrecv => ?_⟩
    have hrecv' : (s.envs e).envIpcRecving = true := by simpa using hrecv
    unfold modifyEnv
    constructor
    · intro _
      refine (ipcSendPage_rule hc e call.a3 call.a4).mono ?_ (fun ex _ hex hl => absurd hl hex)
      rintro r t ⟨pm, ⟨rfl, rfl⟩ | ⟨rfl, rfl⟩ | ⟨rfl, ht⟩⟩
      · refine ⟨fun _ => .memory pm (Or.inl (by omega)) (fun _ => by decide)
          (fun _ => by decide) (fun _ => by decide) (by omega) (by omega), fun h => ?_⟩
        exact absurd (show (-eInval : Word) ≠ 0 by decide) h
      · refine ⟨fun _ => .unsent e pm hno he hrecv', fun h => ?_⟩
        exact absurd (show (-eNoMem : Word) ≠ 0 by decide) h
      · have hcpus : t.cpus = s.cpus := by
          rcases ht with rfl | rfl <;> rfl
        have hc' : (t.cpus cpu).cpuEnv = some c := by rw [hcpus, hc]
        refine ⟨fun h => absurd rfl h, fun _ => ?_⟩
        simp only [sat_curenv hc', sat_modify]
        exact hfinal t pm ht hrecv'
    · intro _
      simp only [sat_curenv hc, sat_modify]
      exact hfinal s s.pm (Or.inl rfl) hrecv'

lemma sysIpcRecv_rule (hc : (s.cpus cpu).cpuEnv = some c) (hno : call.no.toNat = 13) :
    CallRule s cpu c call (sysIpcRecv cpu call.a1) := by
  have hyield : (call.a1 < utop → call.a1 % 0x1000 = 0) →
      Sat (schedYield (α := Word) cpu) (s.setEnv c ((s.envs c).blocked call.a1))
        (Returned s cpu c call) (fun ex t => ex = .leave → Left s cpu c call t) := by
    intro hal
    refine (schedYield_rule _ cpu).mono (fun _ _ h => h.elim) ?_
    rintro ex t (⟨-, hd⟩ | rfl | ⟨rfl, -⟩) hl
    · exact .blocked t hno hal hd
    · cases hl
    · cases hl
  unfold CallRule sysIpcRecv modifyEnv
  simp only [sat_bind, sat_curenv hc, sat_ite, sat_modify, sat_pure]
  constructor
  · intro hva
    refine ⟨fun hal => .failed (by decide) (Or.inl (by omega)) (by omega) (fun _ => ⟨hva, hal⟩),
      fun hal => ?_⟩
    have h := hyield (fun _ => by simpa using hal)
    unfold Env.blocked Kernel.setEnv at h
    unfold Kernel.setEnv
    simpa only [if_pos hva, Function.update_self, Function.update_idem] using h
  · intro hva
    have h := hyield (fun h => absurd h hva)
    unfold Env.blocked at h
    simpa only [if_neg hva] using h

/-- Every system call does one of the listed things. -/
theorem syscall_rule (hc : (s.cpus cpu).cpuEnv = some c) (cons : Word) (call : Call) :
    CallRule s cpu c call
      (syscall cpu cons call.no call.a1 call.a2 call.a3 call.a4 call.a5) := by
  unfold syscall
  split
  · rename_i hno
    unfold CallRule
    rw [sat_bind]
    refine (sysCputs_rule hc _ _).mono ?_ ?_
    · rintro - t ⟨pm, rfl⟩
      exact sat_pure.mpr (.memory pm (Or.inl (by omega)) (by omega) (by omega) (by omega)
        (by omega) (by omega))
    · rintro ex t hl hex
      obtain ⟨pm₀, pm, hd⟩ := hl hex
      exact .destroyed pm₀ pm t (Or.inl hno) hd
  · exact sat_pure.mpr (.memory s.pm (Or.inl (by omega)) (by omega) (by omega) (by omega)
      (by omega) (by omega))
  · unfold CallRule sysGetenvid
    simp only [sat_bind, sat_get, sat_curenv hc, sat_pure]
    exact .memory s.pm (Or.inl (by omega)) (by omega) (by omega) (by omega) (by omega) (by omega)
  · exact sysEnvDestroy_rule hc ‹_›
  · exact .of_memory (sysPageAlloc_quiet hc _ _ _) (by omega) (by omega) (by omega) (by omega)
      (by omega)
  · exact .of_memory (sysPageMap_quiet hc _ _ _ _ _) (by omega) (by omega) (by omega) (by omega)
      (by omega)
  · exact .of_memory (sysPageUnmap_quiet hc _ _) (by omega) (by omega) (by omega) (by omega)
      (by omega)
  · exact sysExofork_rule hc ‹_›
  · exact sysEnvSetStatus_rule hc ‹_›
  · exact sysEnvSetTrapframe_rule hc ‹_›
  · exact sysEnvSetPgfaultUpcall_rule hc ‹_›
  · rename_i hno
    refine (schedYield_rule s cpu).mono (fun _ _ h => h.elim) ?_
    rintro ex t (⟨-, hd⟩ | rfl | ⟨rfl, -⟩) hl
    · exact .yielded t hno hd
    · cases hl
    · cases hl
  · exact sysIpcTrySend_rule hc ‹_›
  · exact sysIpcRecv_rule hc ‹_›
  · exact sat_pure.mpr (.failed (by decide) (Or.inl (by omega)) (by omega) (by grind))

end Calls

end SistemasOperativos.Kern
