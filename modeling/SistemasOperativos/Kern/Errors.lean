import SistemasOperativos.Kern.Survival

/-!
# Documented errors

The comments above the system calls list their errors. `DocError` states each of them; a call
on which one arises returns such an error and leaves the kernel as it was, except where the
code looks at less than the comment says: `ErrorGuard`.
-/

namespace SistemasOperativos.Kern

open Library

/-- `PTE_U | PTE_P` must be set, `PTE_AVAIL | PTE_W` may or may not be set, but no other bits. -/
structure PermOk (perm : Word) : Prop where
  user : has perm pteU = true
  present : has perm pteP = true
  bits : perm &&& ~~~pteSyscall = 0

/-- A page table for `va` is needed in the address space of `e` and there is no memory for it. -/
structure NoTableMem (s : Kernel) (e : EnvIdx) (va : Word) : Prop where
  table : ¬ HasTable s e va
  full : s.pm.pageFreeList = none

/-- The page at `va` is mapped in the address space of `e`. -/
def Mapped (s : Kernel) (e : EnvIdx) (va : Word) (hva : va < utop) : Prop :=
  has (spacesOf s e (pageNo va hva)) pteP = true

/-- The documented error `code` of a call arises. -/
inductive DocError (s : Kernel) (c : EnvIdx) (call : Call) : Word → Prop
  /-- `sys_exofork`: no free environment is available -/
  | noFreeEnv (hno : call.no.toNat = 7) (hfl : s.envFreeList = none) :
      DocError s c call (-eNoFreeEnv)
  /-- `sys_exofork`: memory exhaustion -/
  | forkNoMem (hno : call.no.toNat = 7) (hfl : s.pm.pageFreeList = none) :
      DocError s c call (-eNoMem)
  /-- the environment does not exist or the caller may not change it -/
  | badEnv (hno : call.no.toNat ∈ [4, 6, 8, 9, 10]) (he : envOf s c call.a1 true = none) :
      DocError s c call (-eBadEnv)
  /-- `sys_env_set_status`: not a valid status -/
  | status (hno : call.no.toNat = 8) (hst : settableStatus call.a2 = none) :
      DocError s c call (-eInval)
  /-- `sys_page_alloc`, `sys_page_unmap`: `va >= UTOP`, or `va` is not page-aligned -/
  | pageVa (hno : call.no.toNat = 4 ∨ call.no.toNat = 6)
      (hva : call.a2 ≥ utop ∨ call.a2 % 0x1000 ≠ 0) : DocError s c call (-eInval)
  /-- `sys_page_alloc`: `perm` is inappropriate -/
  | allocPerm (hno : call.no.toNat = 4) (hperm : ¬ PermOk call.a3) : DocError s c call (-eInval)
  /-- `sys_page_alloc`: no memory for the page or for a page table -/
  | allocNoMem {e : EnvIdx} (hno : call.no.toNat = 4) (he : envOf s c call.a1 true = some e)
      (hmem : ∀ p, s.pm.pageFreeList = some p → ¬ HasTable s e call.a2 ∧ s.pm.ppLink p = none) :
      DocError s c call (-eNoMem)
  /-- `sys_page_map`: an environment does not exist or the caller may not change it -/
  | mapBadEnv (hno : call.no.toNat = 5)
      (he : envOf s c call.a1 true = none ∨ envOf s c call.a3 true = none) :
      DocError s c call (-eBadEnv)
  /-- `sys_page_map`: an address is not below `UTOP` or not page-aligned -/
  | mapVa (hno : call.no.toNat = 5)
      (hva : (call.a2 ≥ utop ∨ call.a2 % 0x1000 ≠ 0) ∨ call.a4 ≥ utop ∨ call.a4 % 0x1000 ≠ 0) :
      DocError s c call (-eInval)
  /-- `sys_page_map`: `srcva` is not mapped -/
  | mapUnmapped {se : EnvIdx} (hno : call.no.toNat = 5) (he : envOf s c call.a1 false = some se)
      (hva : call.a2 < utop) (hsrc : ¬ Mapped s se call.a2 hva) : DocError s c call (-eInval)
  /-- `sys_page_map`: `perm` is inappropriate -/
  | mapPerm (hno : call.no.toNat = 5) (hperm : ¬ PermOk call.a5) : DocError s c call (-eInval)
  /-- `sys_page_map`: `perm` has `PTE_W` but `srcva` is read-only -/
  | mapReadOnly {se : EnvIdx} (hno : call.no.toNat = 5) (he : envOf s c call.a1 false = some se)
      (hva : call.a2 < utop) (hW : has call.a5 pteW = true)
      (hro : has (spacesOf s se (pageNo call.a2 hva)) pteW = false) : DocError s c call (-eInval)
  /-- `sys_page_map`: no memory for a page table -/
  | mapNoMem {de : EnvIdx} (hno : call.no.toNat = 5) (he : envOf s c call.a3 false = some de)
      (hmem : NoTableMem s de call.a4) : DocError s c call (-eNoMem)
  /-- `sys_ipc_try_send`: the environment does not exist -/
  | sendBadEnv (hno : call.no.toNat = 12) (he : envOf s c call.a1 false = none) :
      DocError s c call (-eBadEnv)
  /-- `sys_ipc_try_send`: the environment is not blocked in `sys_ipc_recv` -/
  | notRecv {e : EnvIdx} (hno : call.no.toNat = 12) (he : envOf s c call.a1 false = some e)
      (hrecv : (s.envs e).envIpcRecving = false ∨ (s.envs e).envStatus ≠ .notRunnable) :
      DocError s c call (-eIpcNotRecv)
  /-- `sys_ipc_try_send`: `srcva` is not page-aligned -/
  | sendVa (hno : call.no.toNat = 12) (hva : call.a3 < utop) (hal : call.a3 % 0x1000 ≠ 0) :
      DocError s c call (-eInval)
  /-- `sys_ipc_try_send`: `perm` is inappropriate -/
  | sendPerm (hno : call.no.toNat = 12) (hva : call.a3 < utop) (hperm : ¬ PermOk call.a4) :
      DocError s c call (-eInval)
  /-- `sys_ipc_try_send`: `srcva` is not mapped -/
  | sendUnmapped (hno : call.no.toNat = 12) (hva : call.a3 < utop)
      (hsrc : ¬ Mapped s c call.a3 hva) : DocError s c call (-eInval)
  /-- `sys_ipc_try_send`: `perm` has `PTE_W` but `srcva` is read-only -/
  | sendReadOnly (hno : call.no.toNat = 12) (hva : call.a3 < utop) (hW : has call.a4 pteW = true)
      (hro : has (spacesOf s c (pageNo call.a3 hva)) pteW = false) : DocError s c call (-eInval)
  /-- `sys_ipc_try_send`: no memory to map the page -/
  | sendNoMem {e : EnvIdx} (hno : call.no.toNat = 12) (he : envOf s c call.a1 false = some e)
      (hva : call.a3 < utop) (hd : (s.envs e).envIpcDstva < utop)
      (hmem : NoTableMem s e (s.envs e).envIpcDstva) : DocError s c call (-eNoMem)
  /-- `sys_ipc_recv`: `dstva < UTOP` is not page-aligned -/
  | recvVa (hno : call.no.toNat = 13) (hva : call.a1 < utop) (hal : call.a1 % 0x1000 ≠ 0) :
      DocError s c call (-eInval)

/-- The kernel is as it was: environments, processors, reference counts, free lists and page
tables. Only the contents of a free frame may differ. -/
structure SameKernel (s t : Kernel) : Prop where
  envs : t.envs = s.envs
  envFreeList : t.envFreeList = s.envFreeList
  cpus : t.cpus = s.cpus
  spaces : spacesOf t = spacesOf s
  pm : Undone s t

/-- If a documented error arises the call returns one that arises, and changes nothing. -/
def ErrorsReported (s : Kernel) (cpu : Cpu) (c : EnvIdx) (call : Call) (cons : Word) : Prop :=
  (∃ code, DocError s c call code) →
    Sat (syscall cpu cons call.no call.a1 call.a2 call.a3 call.a4 call.a5) s
      (fun r t => r.slt 0 = true ∧ DocError s c call r ∧ SameKernel s t) (fun _ _ => False)

/-- The target of a send needs a page table and there is no memory for it. -/
def SendNoMem (s : Kernel) (e : EnvIdx) (call : Call) : Prop :=
  call.a3 < utop ∧ (s.envs e).envIpcDstva < utop ∧ NoTableMem s e (s.envs e).envIpcDstva

/-- The errors that the code overlooks do not arise when it comes to them. -/
structure ErrorGuard (s : Kernel) (c : EnvIdx) (call : Call) : Prop where
  alloc : ∀ e p, call.no.toNat = 4 → envOf s c call.a1 true = some e →
    call.a2 < utop → call.a2 % 0x1000 = 0 → call.a3 &&& ~~~pteSyscall = 0 →
    call.a3 &&& (pteU ||| pteP) ≠ 0 → s.pm.pageFreeList = some p →
    (HasTable s e call.a2 ∨ s.pm.ppLink p ≠ none) → PermOk call.a3
  map : ∀ se n de m perm, call.no.toNat = 5 → Shares s c call se n de m perm →
    has (spacesOf s se n) pteP = true ∧ PermOk perm ∧ envOf s c call.a1 true ≠ none ∧
      envOf s c call.a3 true ≠ none ∧ ¬ NoTableMem s de call.a4
  send : ∀ e, call.no.toNat = 12 → envOf s c call.a1 false = some e →
    (s.envs e).envIpcRecving = true →
    (∀ hva : call.a3 < utop, SendChecks s c call.a3 call.a4 hva) →
    (SendNoMem s e call → (s.envs e).envIpcPerm = 0) ∧
    (¬ SendNoMem s e call → (s.envs e).envStatus = .notRunnable ∧
      ∀ hva : call.a3 < utop, Mapped s c call.a3 hva)

variable {B : Boot} {s t : Kernel} {cpu : Cpu} {c e : EnvIdx} {call : Call} {r : Word}
  {h : List (Move Kernel Event)} {tf : Trapframe}

/-! ### What the code checks and what the comments say -/

lemma roundup_eq_iff (a : Word) : roundup a = a ↔ a % 0x1000 = 0 := by
  have ha := a.isLt
  unfold roundup rounddown
  rw [← BitVec.toNat_inj, ← BitVec.toNat_inj]
  simp only [BitVec.toNat_sub, BitVec.toNat_add, BitVec.toNat_umod, Nat.reducePow,
    show (0x1000 : Word).toNat = 4096 from rfl, show (1 : Word).toNat = 1 from rfl,
    show (0 : Word).toNat = 0 from rfl]
  omega

lemma PermOk.flags {perm : Word} (h : PermOk perm) :
    perm &&& (pteU ||| pteP) = pteU ||| pteP := by
  obtain ⟨hU, hP, -⟩ := h
  rw [has_pteU] at hU
  rw [has_pteP] at hP
  have hrest : ∀ j : Fin 32, j.val ≠ 0 → j.val ≠ 2 → (pteU ||| pteP).getLsbD j.val = false := by
    decide
  apply BitVec.eq_of_getLsbD_eq
  intro i hi
  rw [BitVec.getLsbD_and]
  by_cases h0 : i = 0
  · rw [h0, hP, Bool.true_and]
  by_cases h2 : i = 2
  · rw [h2, hU, Bool.true_and]
  · rw [hrest ⟨i, hi⟩ h0 h2, Bool.and_false]

lemma SendChecks.permOk {srcva perm : Word} {hs : srcva < utop} (h : SendChecks s c srcva perm hs) :
    PermOk perm := ⟨h.user, h.present, (bits_iff perm).mpr h.bits⟩

lemma envOf_true_of_false {envid : Word} (h : envOf s c envid false = none) :
    envOf s c envid true = none := by
  unfold envOf at h ⊢
  grind

lemma Mapped.table {va : Word} {hva : va < utop} (h : Mapped s e va hva) :
    HasTable s e va := by
  intro hnone
  have h0 : spacesOf s e (pageNo va hva) = 0 := entryAt_of_none hnone
  unfold Mapped at h
  rw [h0] at h
  exact absurd h (by decide)

/-- Every error the code returns is a documented one, once one arises. -/
lemma Failed.doc (h : Failed s c call r) (hdoc : ∃ code, DocError s c call code) :
    DocError s c call r := by
  obtain ⟨code, hdoc⟩ := hdoc
  cases h with
  | number hno => cases hdoc <;> grind
  | badEnv hno he =>
    refine .badEnv ?_ he
    cases hdoc <;> grind
  | noFreeEnv hno hfl => exact .noFreeEnv hno hfl
  | forkNoMem hno hfl => exact .forkNoMem hno hfl
  | status hno hst => exact .status hno hst
  | frameVa hno he hva => cases hdoc <;> grind
  | pageVa hno hva => exact .pageVa hno hva
  | allocPerm hno hperm =>
    refine .allocPerm hno (fun hok => ?_)
    rcases hperm with hb | hf
    · exact hb hok.bits
    · rw [hok.flags] at hf
      exact absurd hf (by decide)
  | allocNoMem hno he hmem => exact .allocNoMem hno he hmem
  | mapBadEnv hno he =>
    exact .mapBadEnv hno (he.imp envOf_true_of_false envOf_true_of_false)
  | mapVa hno hva =>
    rw [ne_eq, ne_eq, roundup_eq_iff, roundup_eq_iff] at hva
    exact .mapVa hno hva
  | mapUnmapped hno he hva htab => exact .mapUnmapped hno he hva (fun hm => htab hm.table)
  | mapPerm hno hperm => exact .mapPerm hno (fun hok => hperm hok.flags)
  | mapReadOnly hno he hva hW hro => exact .mapReadOnly hno he hva hW hro
  | sendBadEnv hno he => exact .sendBadEnv hno he
  | notRecv hno he hrecv => exact .notRecv hno he (Or.inl hrecv)
  | sendPage hno hva hchk =>
    rcases hchk with hal | hperm | htab | ⟨hW, hro⟩
    · exact .sendVa hno hva hal
    · refine .sendPerm hno hva (fun hok => ?_)
      rcases hperm with hP | hU | hb
      · exact absurd hok.present (by rw [hP]; decide)
      · exact absurd hok.user (by rw [hU]; decide)
      · exact hb ((bits_iff _).mp hok.bits)
    · exact .sendUnmapped hno hva (fun hm => htab hm.table)
    · exact .sendReadOnly hno hva hW hro
  | sendNoMem hno he h htab hfl =>
    cases h with
    | map h5 => rw [hno] at h5; cases h5
    | send _ he' hrecv hva hd hchk => exact .sendNoMem hno he hva hd ⟨htab, hfl⟩
  | recvVa hno hva hal => exact .recvVa hno hva hal

/-! ### Calls that share no page -/

/-- A call that shares no page and on which a documented error arises meets the guard of
memory. -/
lemma DocError.memGuard {code : Word} (hdoc : DocError s c call code)
    (hno : ∀ se n de m perm, ¬ Shares s c call se n de m perm) : MemGuard s c call := by
  refine ⟨fun se n de m perm h => absurd h (hno se n de m perm), ?_⟩
  intro h6 e hva he hal htab
  cases hdoc <;> grind

/-- What the call returns when it does not fail contradicts every documented error. -/
lemma Remapped.failed_of_doc {S : EnvIdx → PageNo → Word} (hg : ErrorGuard s c call)
    (hno : ∀ se n de m perm, ¬ Shares s c call se n de m perm)
    (hdoc : ∃ code, DocError s c call code) (h : Remapped B s c call r S)
    (hrule : Returned s cpu c call r t) : Failed s c call r ∧ S = spacesOf s := by
  obtain ⟨code, hdoc⟩ := hdoc
  cases h with
  | failed h => exact ⟨h, rfl⟩
  | kept hn hset hfork =>
    exfalso
    by_cases h7 : call.no.toNat = 7
    · obtain ⟨hfl, hpf⟩ := hfork h7
      cases hdoc <;> grind
    · have hset' : call.no.toNat ∈ [8, 9, 10] := by
        cases hdoc <;> grind
      have hr := hset hset'
      cases hrule with
      | memory pm _ _ hneg =>
        rw [hr] at hneg
        exact absurd (hneg (by grind)) (by decide)
      | status e st h8 he hst => cases hdoc <;> grind
      | frame e tf pm h9 he htf => cases hdoc <;> grind
      | upcall e h10 he => cases hdoc <;> grind
      | _ => grind
  | removed e h3 he => cases hdoc <;> grind
  | alloc e p h4 he hva hal hbits hflag hp hfree hnew htab =>
    have hperm := hg.alloc e p h4 he hva hal hbits hflag hp htab
    cases hdoc <;> grind
  | shared h htab => exact absurd h (hno _ _ _ _ _)
  | noTable _ h => exact absurd h (hno _ _ _ _ _)
  | unmapped e h6 he hva hal => cases hdoc <;> grind
  | sent e h12 he hrecv hpage =>
    have hsend := (hg.send e h12 he hrecv (fun hva => (hpage hva).1)).2
      (fun hmem => (hpage hmem.1).2 hmem.2.1)
    have hperm : ∀ hva : call.a3 < utop, PermOk call.a4 := fun hva => (hpage hva).1.permOk
    exfalso
    cases hdoc with
    | notRecv _ he' hrecv' => grind
    | sendReadOnly _ hva hW hro =>
      rw [(hpage hva).1.writable hW] at hro
      cases hro
    | sendVa _ hva hal => exact hal (hpage hva).1.aligned
    | sendPerm _ hva hp => exact hp (hperm hva)
    | sendUnmapped _ hva hsrc => exact hsrc (hsend.2 hva)
    | sendBadEnv _ he' => cases he.symm.trans he'
    | sendNoMem _ he' hva hd _ =>
      obtain rfl := Option.some.inj (he.symm.trans he')
      exact (hpage hva).2 hd
    | badEnv hno _ =>
      rw [h12] at hno
      exact absurd hno (by decide)
    | _ => omega

/-- A failed call has not touched the environments, unless it is a send. -/
lemma Returned.same (hrule : Returned s cpu c call r t) (hr : r.slt 0 = true)
    (hsend : r = -eNoMem → call.no.toNat ≠ 12) : ∃ pm, t = { s with pm := pm } := by
  cases hrule with
  | memory pm => exact ⟨pm, rfl⟩
  | forked e d pm hno hfl =>
    rw [nextEnvId_slt] at hr
    cases hr
  | unsent e pm hno he hrecv => exact absurd hno (hsend rfl)
  | _ => exact absurd hr (by decide)

/-- Without a shared page every documented error is reported. -/
lemma reported_of_no_share (hE : EnvsIn none s) (hs : MemOk B s)
    (hc : (s.cpus cpu).cpuEnv = some c) (hg : ErrorGuard s c call)
    (hno : ∀ se n de m perm, ¬ Shares s c call se n de m perm) (cons : Word) :
    ErrorsReported s cpu c call cons := by
  intro hdoc
  have hmem := syscall_mem hE hs hc cons call
  refine (hmem.and (syscall_rule hc cons call)).mono ?_ ?_
  · rintro r t ⟨⟨hkept, hre⟩, hrule⟩
    obtain ⟨hfail, hS⟩ := hre.failed_of_doc hg hno hdoc hrule
    have hr := hfail.slt
    have hun := (hkept (hdoc.choose_spec.memGuard hno)).2
    obtain ⟨pm, rfl⟩ := hrule.same hr (by
      rintro rfl h12
      cases hfail <;> first | omega | exact hno _ _ _ _ _ ‹_›)
    exact ⟨hr, hfail.doc hdoc, rfl, rfl, rfl, hS, hun hr⟩
  · rintro ex t ⟨hex, -⟩
    obtain ⟨code, hdoc⟩ := hdoc
    rcases hex with hcrash | ⟨hleave, -⟩
    · cases hcrash with
      | outOfMemory _ h => exact hno _ _ _ _ _ h
      | badFrame h9 he => cases hdoc <;> grind
      | badString h0 => cases hdoc <;> grind
    · unfold Call.Leaves at hleave
      cases hdoc <;> grind

/-! ### Calls that share a page -/

/-- `sys_page_map` past its checks does not end in an error that leaves the kernel as it was. -/
lemma sysPageMap_shares (hE : EnvsIn none s) (hok : MemOk B s) (hc : (s.cpus cpu).cpuEnv = some c)
    {se de : EnvIdx} {hs : call.a2 < utop} (hd : call.a4 < utop) (h : MapChecks s c call se de hs) :
    Sat (sysPageMap cpu call.a1 call.a2 call.a3 call.a4 call.a5) s
      (fun r t => r = 0 ∨ ¬ Undone s t) (fun _ _ => True) := by
  obtain ⟨d, hdir⟩ := hE.exists_dir (envOf_ne_free (hE.ne_free hc) h.src)
  obtain ⟨d', hdir'⟩ := hE.exists_dir (envOf_ne_free (hE.ne_free hc) h.dst)
  have hpg : (s.envs se).envPgdir = some d := hdir
  have hpg' : (s.envs de).envPgdir = some d' := hdir'
  unfold sysPageMap
  rw [sat_bind, sat_envid2env hc, h.src]
  dsimp only
  rw [sat_bind, sat_envid2env hc, h.dst]
  dsimp only
  rw [if_neg (by rw [not_or]; exact ⟨BitVec.not_le.mpr hs, not_not.mpr h.srcva⟩),
    if_neg (by rw [not_or]; exact ⟨BitVec.not_le.mpr hd, not_not.mpr h.dstva⟩),
    sat_bind, sat_get, sat_bind, sat_liftPm, hpg]
  refine (lookup_mem hok hdir hs).mono ?_ (fun _ _ h => h.elim)
  rintro r pm ⟨rfl, ⟨-, hnt⟩ | ⟨-, tb, rfl, hent⟩⟩
  · exact absurd h.table hnt
  dsimp only
  rw [if_neg (not_not.mpr h.perm)]
  unfold readPte
  rw [sat_bind, sat_liftPm]
  simp only [sat_bind, sat_get, sat_pure, hent]
  have hW : ¬((!has (spacesOf s se (pageNo call.a2 hs)) pteW) = true ∧ has call.a5 pteW = true) := by
    rintro ⟨hro, hW⟩
    rw [h.writable hW] at hro
    cases hro
  rw [if_neg hW, sat_bind, sat_get, sat_bind, sat_liftPm, hpg']
  refine (shareInsert hok se hdir' (pageNo call.a2 hs) hd call.a5).mono ?_ (fun _ _ h => h.elim)
  rintro r pm (⟨rfl, -, hfl, rfl⟩ | ⟨rfl, -⟩)
  · -- `page_free` either panics or puts the page on the free list
    rw [if_pos (show (-eNoMem : Word).slt 0 = true by decide), sat_bind, sat_liftPm]
    unfold pageFree
    simp only [sat_bind, sat_get]
    rw [sat_ite]
    refine ⟨fun _ => sat_bind.mpr (sat_throw.mpr trivial), fun _ => ?_⟩
    simp only [sat_modify]
    refine sat_pure.mpr (Or.inr ?_)
    rintro ⟨mem, hpm, -⟩
    have hlist := congrArg Pmap.pageFreeList hpm
    dsimp only at hlist
    rw [hfl] at hlist
    cases hlist
  · rw [if_neg (by decide)]
    exact sat_pure.mpr (Or.inl rfl)

/-- `sys_ipc_try_send` past its checks fails only for want of a page table. -/
lemma sysIpcTrySend_checked (hE : EnvsIn none s) (hok : MemOk B s)
    (hc : (s.cpus cpu).cpuEnv = some c) (he : envOf s c call.a1 false = some e)
    (hrecv : (s.envs e).envIpcRecving = true)
    (h : ∀ hva : call.a3 < utop, SendChecks s c call.a3 call.a4 hva) :
    Sat (sysIpcTrySend cpu call.a1 call.a2 call.a3 call.a4) s
      (fun r t => (SendNoMem s e call ∧ r = -eNoMem ∧
          t = s.setEnv e { s.envs e with envIpcPerm := 0 }) ∨ (¬ SendNoMem s e call ∧ r = 0))
      (fun _ _ => False) := by
  have hne := envOf_ne_free (hE.ne_free hc) he
  obtain ⟨d, hdir⟩ := hE.exists_dir (hE.ne_free hc)
  obtain ⟨d', hdir'⟩ := hE.exists_dir hne
  have hpg : (s.envs c).envPgdir = some d := hdir
  have hpg' : (s.envs e).envPgdir = some d' := hdir'
  unfold sysIpcTrySend
  rw [sat_bind, sat_envid2env hc, he]
  dsimp only
  rw [sat_bind, sat_get, if_neg (by rw [hrecv]; decide), sat_ite]
  constructor
  · intro hs
    have hchk := h hs
    have hsend : Sat (ipcSendPage cpu e call.a3 call.a4) s
        (fun r t => (SendNoMem s e call ∧ r = -eNoMem ∧
          t = s.setEnv e { s.envs e with envIpcPerm := 0 }) ∨
          (¬ SendNoMem s e call ∧ r = 0 ∧ t.cpus = s.cpus)) (fun _ _ => False) := by
      unfold ipcSendPage
      rw [if_neg (not_not.mpr hchk.aligned), if_neg (by
          rw [hchk.present, hchk.user, hchk.bits]
          simp), sat_bind, sat_get, sat_bind, sat_curenv hc, sat_bind, sat_liftPm, hpg]
      refine (lookup_mem hok hdir hs).mono ?_ (fun _ _ h => h.elim)
      rintro r pm ⟨rfl, ⟨-, hnt⟩ | ⟨-, tb, rfl, hent⟩⟩
      · exact absurd hchk.table hnt
      unfold readPte
      dsimp only
      rw [sat_bind, sat_liftPm]
      simp only [sat_bind, sat_get, sat_pure, hent]
      have hW : ¬(has call.a4 pteW = true ∧
          (!has (spacesOf s c (pageNo call.a3 hs)) pteW) = true) := by
        rintro ⟨hW, hro⟩
        rw [hchk.writable hW] at hro
        cases hro
      rw [if_neg hW, sat_bind, sat_get, sat_ite]
      constructor
      · intro hdlt
        unfold modifyEnv
        simp only [sat_bind, sat_modify, sat_get, Kernel.setEnv_envs_self]
        rw [sat_liftPm, hpg']
        refine (shareInsert hok c hdir' (pageNo call.a3 hs) hdlt call.a4).mono ?_ (fun _ _ h => h.elim)
        rintro r pm (⟨rfl, htab, hfl, rfl⟩ | ⟨rfl, -, hmem, -⟩)
        · rw [if_pos (show (-eNoMem : Word).slt 0 = true by decide), sat_pure]
          exact Or.inl ⟨⟨hs, hdlt, htab, hfl⟩, rfl, rfl⟩
        · rw [if_neg (by decide), sat_pure]
          exact Or.inr ⟨fun hn => hmem.elim hn.2.2.table (fun hf => hf hn.2.2.full), rfl, rfl⟩
      · intro hdlt
        exact sat_pure.mpr (Or.inr ⟨fun hn => hdlt hn.2.1, rfl, rfl⟩)
    rw [sat_bind]
    refine hsend.mono ?_ (fun _ _ h => h)
    rintro r t (⟨hmem, rfl, rfl⟩ | ⟨hmem, rfl, hcpus⟩)
    · rw [if_pos (by decide)]
      exact sat_pure.mpr (Or.inl ⟨hmem, rfl, rfl⟩)
    · rw [if_neg (by simp), sat_bind, sat_curenv (by rw [hcpus]; exact hc)]
      unfold modifyEnv
      simp only [sat_bind, sat_get, sat_modify, sat_pure]
      exact Or.inr ⟨hmem, trivial⟩
  · intro hs
    rw [sat_bind, sat_curenv hc]
    unfold modifyEnv
    simp only [sat_bind, sat_get, sat_modify, sat_pure]
    exact Or.inr ⟨fun hn => hs hn.1, trivial⟩

/-- A call that shares a page reports the errors that arise, under the guard. -/
lemma reported_of_share {se de : EnvIdx} {n m : PageNo} {perm : Word} (hE : EnvsIn none s)
    (hs : MemOk B s) (hc : (s.cpus cpu).cpuEnv = some c) (hg : ErrorGuard s c call)
    (hsh : Shares s c call se n de m perm) (cons : Word) : ErrorsReported s cpu c call cons := by
  rintro ⟨code, hdoc⟩
  cases id hsh with
  | map hno hs' hd h =>
    obtain ⟨hP, hperm, hsrc, hdst, hmem⟩ := hg.map _ _ _ _ _ hno hsh
    have hva := h.srcva
    have hva' := h.dstva
    rw [roundup_eq_iff] at hva hva'
    have hse := h.src
    have hde := h.dst
    have hW := h.writable
    exfalso
    cases hdoc with
    | mapUnmapped _ he _ hun =>
      obtain rfl := Option.some.inj (hse.symm.trans he)
      exact hun hP
    | mapReadOnly _ he _ hw hro =>
      obtain rfl := Option.some.inj (hse.symm.trans he)
      rw [hW hw] at hro
      cases hro
    | mapNoMem _ he hn =>
      obtain rfl := Option.some.inj (hde.symm.trans he)
      exact hmem hn
    | mapVa _ hv =>
      rw [hva, hva'] at hv
      rcases hv with (hv | hv) | hv | hv
      · exact absurd hs' (BitVec.not_lt.mpr hv)
      · exact hv rfl
      · exact absurd hd (BitVec.not_lt.mpr hv)
      · exact hv rfl
    | _ => grind
  | send hno he hrecv hs' hd h =>
    obtain ⟨hnomem, hmem⟩ := hg.send _ hno he hrecv (fun _ => h)
    have hchecked := sysIpcTrySend_checked hE hs hc he hrecv (fun _ => h)
    unfold syscall
    rw [hno]
    refine hchecked.mono ?_ (fun _ _ h => h)
    rintro r t (⟨hn, rfl, rfl⟩ | ⟨hn, -⟩)
    · have henv : { s.envs de with envIpcPerm := 0 } = s.envs de := by
        rw [← hnomem hn]
      have hsame : (s.setEnv de { s.envs de with envIpcPerm := 0 }) = s := by
        unfold Kernel.setEnv
        rw [henv, Function.update_eq_self]
      rw [hsame]
      exact ⟨by decide, .sendNoMem hno he hs' hd hn.2.2, rfl, rfl, rfl, rfl, .of_pm rfl⟩
    · exfalso
      obtain ⟨hblocked, hmap⟩ := hmem hn
      have hmap' := hmap hs'
      have hal := h.aligned
      have hperm := h.permOk
      have hW := h.writable
      unfold SendNoMem at hn
      cases hdoc <;> grind

/-! ### The guard is exact -/

lemma ErrorsReported.alloc_guard {p : ℕ} {cons : Word} (hE : EnvsIn none s) (hs : MemOk B s)
    (hc : (s.cpus cpu).cpuEnv = some c) (hrep : ErrorsReported s cpu c call cons)
    (hno : call.no.toNat = 4) (he : envOf s c call.a1 true = some e) (hva : call.a2 < utop)
    (hal : call.a2 % 0x1000 = 0) (hbits : call.a3 &&& ~~~pteSyscall = 0)
    (hflag : call.a3 &&& (pteU ||| pteP) ≠ 0) (hp : s.pm.pageFreeList = some p)
    (htab : HasTable s e call.a2 ∨ s.pm.ppLink p ≠ none) : PermOk call.a3 := by
  by_contra hperm
  refine not_sat_false (((hrep ⟨_, .allocPerm hno hperm⟩).and
    (syscall_mem hE hs hc cons call)).mono ?_ (fun _ _ h => h.1))
  rintro r t ⟨⟨hr, -⟩, -, hre⟩
  generalize spacesOf t = S at hre
  cases hre with
  | failed h => cases h <;> grind
  | kept hn => exact hn (by rw [hno]; decide)
  | noTable => omega
  | _ => exact absurd hr (by decide)

lemma ErrorsReported.map_guard {se de : EnvIdx} {n m : PageNo} {perm cons : Word}
    (hE : EnvsIn none s) (hs : MemOk B s) (hc : (s.cpus cpu).cpuEnv = some c)
    (hrep : ErrorsReported s cpu c call cons) (hno : call.no.toNat = 5)
    (hsh : Shares s c call se n de m perm) : ∀ code, ¬ DocError s c call code := by
  intro code hdoc
  cases hsh with
  | send h12 => omega
  | map _ hs' hd h =>
    have hshares := sysPageMap_shares hE hs hc hd h
    have hrep' := hrep ⟨code, hdoc⟩
    unfold syscall at hrep'
    rw [hno] at hrep'
    refine not_sat_false ((hrep'.and hshares).mono ?_ (fun _ _ h => h.1))
    rintro r t ⟨⟨hr, -, hsame⟩, rfl | hun⟩
    · exact absurd hr (by decide)
    · exact hun hsame.pm

lemma ErrorsReported.send_guard {cons : Word} (hE : EnvsIn none s) (hs : MemOk B s)
    (hc : (s.cpus cpu).cpuEnv = some c) (hrep : ErrorsReported s cpu c call cons)
    (hno : call.no.toNat = 12) (he : envOf s c call.a1 false = some e)
    (hrecv : (s.envs e).envIpcRecving = true)
    (h : ∀ hva : call.a3 < utop, SendChecks s c call.a3 call.a4 hva) :
    (SendNoMem s e call → (s.envs e).envIpcPerm = 0) ∧
      (¬ SendNoMem s e call → ∀ code, ¬ DocError s c call code) := by
  have hchecked := sysIpcTrySend_checked hE hs hc he hrecv h
  have hboth : ∀ code, DocError s c call code → SendNoMem s e call ∧ (s.envs e).envIpcPerm = 0 := by
    intro code hdoc
    have hrep' := hrep ⟨code, hdoc⟩
    unfold syscall at hrep'
    rw [hno] at hrep'
    by_contra hcon
    refine not_sat_false ((hrep'.and hchecked).mono ?_ (fun _ _ h => h.1))
    rintro r t ⟨⟨hr, -, hsame⟩, ⟨hn, -, rfl⟩ | ⟨-, rfl⟩⟩
    · have henv := congrFun hsame.envs e
      rw [Kernel.setEnv_envs_self] at henv
      exact hcon ⟨hn, (congrArg Env.envIpcPerm henv).symm⟩
    · exact absurd hr (by decide)
  refine ⟨fun hn => ?_, fun hn code hdoc => hn (hboth code hdoc).1⟩
  exact (hboth _ (.sendNoMem hno he hn.1 hn.2.1 hn.2.2)).2

/-- From every state of a guarded run, the documented errors of a call are reported, with the
kernel left as it was, exactly when the call meets the guard. -/
theorem errors_reported_iff (hr : Runs B h s) (hg : Guarded h)
    (hc : (s.cpus cpu).cpuEnv = some c) (cons : Word) :
    ErrorsReported (s.entered c tf) cpu c tf.call cons ↔ ErrorGuard (s.entered c tf) c tf.call := by
  obtain ⟨hE, hok⟩ := kernelOk_of_run hr hg
  have hE' : EnvsIn none (s.entered c tf) := hE.entered tf
  have hok' : MemOk B (s.entered c tf) :=
    (hok.setEnv (e := c) (v := { s.envs c with envTf := tf }) rfl).1
  have hc' : ((s.entered c tf).cpus cpu).cpuEnv = some c := hc
  constructor
  · intro hrep
    refine ⟨fun e p hno he hva hal hbits hflag hp htab =>
      hrep.alloc_guard hE' hok' hc' hno he hva hal hbits hflag hp htab, ?_, ?_⟩
    · intro se n de m perm hno hsh
      have hnodoc := hrep.map_guard hE' hok' hc' hno hsh
      cases hsh with
      | send h12 => omega
      | map _ hs' hd h =>
        refine ⟨?_, ?_, ?_, ?_, fun hm => hnodoc _ (.mapNoMem hno h.dst hm)⟩
        · by_contra hP
          exact hnodoc _ (.mapUnmapped hno h.src hs' hP)
        · by_contra hperm
          exact hnodoc _ (.mapPerm hno hperm)
        · exact fun hsrc => hnodoc _ (.mapBadEnv hno (Or.inl hsrc))
        · exact fun hdst => hnodoc _ (.mapBadEnv hno (Or.inr hdst))
    · intro e hno he hrecv h
      obtain ⟨hmem, hgo⟩ := hrep.send_guard hE' hok' hc' hno he hrecv h
      refine ⟨hmem, fun hn => ⟨?_, fun hva => ?_⟩⟩
      · by_contra hst
        exact hgo hn _ (.notRecv hno he (Or.inr hst))
      · by_contra hmap
        exact hgo hn _ (.sendUnmapped hno hva hmap)
  · intro hguard
    by_cases hsh : ∃ se n de m perm, Shares (s.entered c tf) c tf.call se n de m perm
    · obtain ⟨se, n, de, m, perm, hsh⟩ := hsh
      exact reported_of_share hE' hok' hc' hguard hsh cons
    · exact reported_of_no_share hE' hok' hc' hguard
        (fun se n de m perm h => hsh ⟨se, n, de, m, perm, h⟩) cons

/-- `sys_page_alloc(0, 0x400001, 7)` on the small machine: the address is not page-aligned. -/
theorem errors_reported_unaligned :
    DocError (smallStart.entered 0 (callFrame 4 0 0x400001 7 0 0)) 0
      (callFrame 4 0 0x400001 7 0 0).call (-eInval) ∧
    ErrorsReported (smallStart.entered 0 (callFrame 4 0 0x400001 7 0 0)) 0 0
      (callFrame 4 0 0x400001 7 0 0).call 0 := by
  refine ⟨.pageVa (Or.inl rfl) (Or.inr (by decide)), ?_⟩
  refine (errors_reported_iff smallStart_run smallStart_guarded (by decide +kernel) 0).mpr ?_
  refine ⟨?_, ?_, ?_⟩
  · intro e p _ _ _ hal
    exact absurd hal (by decide)
  · intro se n de m perm hno
    exact absurd hno (by decide)
  · intro e hno
    exact absurd hno (by decide)

/-- `sys_page_alloc(0, 0x400000, PTE_P)` is not refused, although `PTE_U` must be set. -/
theorem error_overlooked : ∃ h, Runs smallBoot h smallStart ∧
    (smallStart.cpus 0).cpuEnv = some 0 ∧
    ¬ ErrorsReported (smallStart.entered 0 (callFrame 4 0 0x400000 1 0 0)) 0 0
      (callFrame 4 0 0x400000 1 0 0).call 0 := by
  refine ⟨_, smallStart_run, by decide +kernel, fun hrep => ?_⟩
  have hdoc : DocError (smallStart.entered 0 (callFrame 4 0 0x400000 1 0 0)) 0
      (callFrame 4 0 0x400000 1 0 0).call (-eInval) :=
    .allocPerm rfl (fun hok => absurd hok.user (by decide))
  have hret : resultOf (syscall 0 0 4 0 0x400000 1 0 0)
      (smallStart.entered 0 (callFrame 4 0 0x400000 1 0 0)) = some 0 := by
    decide +kernel
  have hres := (hrep ⟨_, hdoc⟩).of_ok (eq_ok_of_resultOf hret)
  exact absurd hres.1 (by decide)

end SistemasOperativos.Kern
