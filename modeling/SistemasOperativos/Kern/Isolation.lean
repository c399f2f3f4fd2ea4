import SistemasOperativos.Kern.Errors
import SistemasOperativos.Kern.Transfers

/-!
# Isolation of environments

A system call leaves alone every environment that is neither the caller nor a child of the
caller, unless it delivers a message to one that waits for it. The code asks for permission in
every call but `sys_page_map` and `sys_ipc_try_send`, and the latter looks only at
`env_ipc_recving`: `isolated_iff` says which calls leave the others alone.
-/

namespace SistemasOperativos.Kern

open Library

/-- What the call of another environment may not change in `e`. -/
structure Undisturbed (env env' : Env) : Prop where
  pgdir : env'.envPgdir = env.envPgdir
  tf : env'.envTf = env.envTf
  upcall : env'.envPgfaultUpcall = env.envPgfaultUpcall

/-- The call has left `e` alone. -/
structure LeftAlone (s t : Kernel) (e : EnvIdx) : Prop where
  env : Undisturbed (s.envs e) (t.envs e)
  status : (t.envs e).envStatus = (s.envs e).envStatus
  space : spacesOf t e = spacesOf s e

/-- The call is a send to `e`, which is blocked in `sys_ipc_recv`. It has changed no more than
the IPC fields and the status of `e`, and the mapping at the address `e` asked for. -/
structure MessageLeft (h : List (Move Kernel Event)) (s t : Kernel) (c e : EnvIdx) (call : Call) :
    Prop where
  no : call.no.toNat = 12
  dst : envOf s c call.a1 false = some e
  recving : (s.envs e).envIpcRecving = true
  blocked : (s.envs e).envStatus = .notRunnable
  env : Undisturbed (s.envs e) (t.envs e)
  space : spacesOf t e = spacesOf s e ∨ ∃ (va : Word) (hva : va < utop), Asked h e va ∧
    ∀ n, n ≠ pageNo va hva → spacesOf t e n = spacesOf s e n

/-- `c` has no new mapping of a page mapped by `e`. -/
def NoNewShare (s t : Kernel) (c e : EnvIdx) : Prop :=
  ∀ n f, target (spacesOf t c n) = some f → target (spacesOf s c n) ≠ some f →
    ∀ k, target (spacesOf s e k) ≠ some f

/-- The call of `c` respects `e`. Where it ends in the scheduler, `e` may be the next to run. -/
def Isolated (h : List (Move Kernel Event)) (s : Kernel) (cpu : Cpu) (c e : EnvIdx) (call : Call)
    (cons : Word) : Prop :=
  Sat (syscall cpu cons call.no call.a1 call.a2 call.a3 call.a4 call.a5) s
    (fun r t => (LeftAlone s t e ∨ (r = 0 ∧ MessageLeft h s t c e call)) ∧ NoNewShare s t c e)
    (fun ex t => ex = .leave →
      ((s.envs e).Resumed (t.envs e) ∧ spacesOf t e = spacesOf s e) ∧ NoNewShare s t c e)

/-- The entry a call writes that shares the page of `se` at `n`. Its frame is that of the page, unless `perm`
has bits above the flags. -/
def sharedEntry (s : Kernel) (se : EnvIdx) (n : PageNo) (perm : Word) : Word :=
  page2pa (pgnum (spacesOf s se n)) ||| perm ||| pteP

/-- The calls that respect `e` although the code does not ask whether they may. -/
structure IsoGuard (h : List (Move Kernel Event)) (s : Kernel) (c e : EnvIdx) (call : Call) :
    Prop where
  /-- what `sys_page_map` maps in `e` is mapped there already -/
  into : ∀ se n m perm, call.no.toNat = 5 → Shares s c call se n e m perm →
    (tableAt target (dirsOf s) s.pm.mem e m.1 ≠ none ∨ s.pm.pageFreeList ≠ none) →
    spacesOf s e m = sharedEntry s se n perm
  /-- what a call maps in `c` is mapped there already or not mapped by `e` -/
  out : ∀ se n m perm, Shares s c call se n c m perm →
    (tableAt target (dirsOf s) s.pm.mem c m.1 ≠ none ∨ s.pm.pageFreeList ≠ none) →
    target (spacesOf s c m) ≠ some (pgnum (sharedEntry s se n perm)) →
    ∀ k, target (spacesOf s e k) ≠ some (pgnum (sharedEntry s se n perm))
  /-- a message reaches `e` only in `sys_ipc_recv`, with a page only where it asked for one -/
  send : call.no.toNat = 12 → envOf s c call.a1 false = some e →
    (s.envs e).envIpcRecving = true →
    (∀ hva : call.a3 < utop, SendChecks s c call.a3 call.a4 hva) → ¬ SendNoMem s e call →
    ((s.envs e).envStatus = .notRunnable ∨ (s.envs e).envStatus = .runnable) ∧
    ∀ n m perm, Shares s c call c n e m perm →
      ((s.envs e).envStatus = .notRunnable ∧
        ∃ (va : Word) (hva : va < utop), Asked h e va ∧ m = pageNo va hva) ∨
      spacesOf s e m = sharedEntry s c n perm

variable {B : Boot} {s t : Kernel} {cpu : Cpu} {c e : EnvIdx} {call : Call} {r : Word}
  {h : List (Move Kernel Event)} {tf : Trapframe}

/-- What the call of another environment does to `e`: nothing, or it is a send. -/
inductive Reached (s : Kernel) (c e : EnvIdx) (call : Call) : Word → Env → Prop
  | kept {r : Word} (hno : call.no.toNat = 12 → envOf s c call.a1 false = some e → r.slt 0 = true) :
      Reached s c e call r (s.envs e)
  | sent (hno : call.no.toNat = 12) (he : envOf s c call.a1 false = some e)
      (hrecv : (s.envs e).envIpcRecving = true) :
      Reached s c e call 0 ((s.envs e).delivered (s.envs c).envId call.a2 call.a4)
  | unsent (hno : call.no.toNat = 12) :
      Reached s c e call (-eNoMem) { s.envs e with envIpcPerm := 0 }

/-- What `c` may act on with permission is not `e`. -/
lemma ne_of_perm {w : Word} {j : EnvIdx} (hne : e ≠ c)
    (hchild : (s.envs e).envParentId ≠ (s.envs c).envId) (hj : envOf s c w true = some j) :
    e ≠ j := by
  intro hej
  subst hej
  exact (envOf_perm hj).elim hne hchild

lemma Returned.reached (hE : EnvsIn none s) (hne : e ≠ c)
    (hchild : (s.envs e).envParentId ≠ (s.envs c).envId) (hlive : (s.envs e).envStatus ≠ .free)
    (hr : Returned s cpu c call r t) : Reached s c e call r (t.envs e) := by
  have hset : ∀ {u : Kernel} {j : EnvIdx} {v : Env} {r : Word}, u.envs = s.envs → e ≠ j →
      (call.no.toNat = 12 → envOf s c call.a1 false = some e → r.slt 0 = true) →
      Reached s c e call r ((u.setEnv j v).envs e) := by
    intro u j v r hu hej hno
    rw [Kernel.setEnv_envs_of_ne hej, hu]
    exact .kept hno
  cases hr with
  | memory pm _ _ _ hipc => exact .kept (fun hno _ => hipc (Or.inl hno))
  | marked j hno hj => exact hset rfl (ne_of_perm hne hchild hj) (by omega)
  | freed j pm hno hj =>
    have hsame : (s.freed cpu j pm).envs e = s.envs e :=
      Function.update_of_ne (ne_of_perm hne hchild hj) _ _
    rw [hsame]
    exact .kept (by omega)
  | forked j d pm hno hfl =>
    have hej : e ≠ j := fun hc => hlive (hc ▸ (hE.allocated hfl 0 0 s.pm).1)
    rw [Kernel.setEnv_envs_of_ne hej]
    have hsame : (s.allocated j (s.envs c).envId d pm).envs e = s.envs e :=
      Function.update_of_ne hej _ _
    rw [hsame]
    exact .kept (by omega)
  | status j st hno hj => exact hset rfl (ne_of_perm hne hchild hj) (by omega)
  | frame j tf pm hno hj => exact hset rfl (ne_of_perm hne hchild hj) (by omega)
  | upcall j hno hj => exact hset rfl (ne_of_perm hne hchild hj) (by omega)
  | sent j pm hno hj hrecv =>
    by_cases hej : e = j
    · subst hej
      rw [Kernel.setEnv_envs_self]
      exact .sent hno hj hrecv
    · exact hset rfl hej (fun _ he => absurd (Option.some.inj (he.symm.trans hj)) hej)
  | unsent j pm hno hj hrecv =>
    by_cases hej : e = j
    · subst hej
      rw [Kernel.setEnv_envs_self]
      exact .unsent hno
    · exact hset rfl hej (fun _ he => absurd (Option.some.inj (he.symm.trans hj)) hej)

lemma Reached.undisturbed {env : Env} (hr : Reached s c e call r env) :
    Undisturbed (s.envs e) env := by
  cases hr <;> exact ⟨rfl, rfl, rfl⟩

/-- An environment other than the caller sees no more of a call that does not return than the
scheduler. -/
lemma Left.resumed (hne : e ≠ c) (hl : Left s cpu c call t) :
    (s.envs e).Resumed (t.envs e) := by
  cases hl with
  | destroyed pm₀ pm t hno hd =>
    have hsw := (Switched.dispatch hd).envs e
    have hsame : ((({ s with pm := pm₀ } : Kernel).freed cpu c pm).vacated cpu).envs e =
        s.envs e := Function.update_of_ne hne _ _
    rw [hsame] at hsw
    exact hsw
  | yielded t hno hd => exact (Switched.dispatch hd).envs e
  | blocked t hno hva hd =>
    have hsw := (Switched.dispatch hd).envs e
    rw [Kernel.setEnv_envs_of_ne hne] at hsw
    exact hsw

/-! ### Address spaces -/

lemma Shares.unique {se se' de de' : EnvIdx} {n n' m m' : PageNo} {perm perm' : Word}
    (hs : Shares s c call se n de m perm) (hs' : Shares s c call se' n' de' m' perm') :
    se = se' ∧ n = n' ∧ de = de' ∧ m = m' ∧ perm = perm' := by
  cases hs with
  | map hno _ _ hc =>
    cases hs' with
    | map _ _ _ hc' =>
      obtain rfl := Option.some.inj (hc.src.symm.trans hc'.src)
      obtain rfl := Option.some.inj (hc.dst.symm.trans hc'.dst)
      exact ⟨rfl, rfl, rfl, rfl, rfl⟩
    | send hno' => omega
  | send hno he =>
    cases hs' with
    | map hno' => omega
    | send _ he' =>
      obtain rfl := Option.some.inj (he.symm.trans he')
      exact ⟨rfl, rfl, rfl, rfl, rfl⟩

/-- The address spaces after a call: that of `e` is as it was unless a page is shared with it. -/
lemma Remapped.space {S : EnvIdx → PageNo → Word} (hne : e ≠ c)
    (hchild : (s.envs e).envParentId ≠ (s.envs c).envId) (hr : Remapped B s c call r S) :
    S e = spacesOf s e ∨ ∃ se n m perm, r = 0 ∧ Shares s c call se n e m perm ∧
      (tableAt target (dirsOf s) s.pm.mem e m.1 ≠ none ∨ s.pm.pageFreeList ≠ none) ∧
      S = setPage (spacesOf s) e m (sharedEntry s se n perm) := by
  have hset : ∀ {j : EnvIdx} {n : PageNo} {w : Word}, e ≠ j →
      setPage (spacesOf s) j n w e = spacesOf s e := by
    intro j n w hej
    funext k
    rw [setPage_apply, if_neg (fun hc => hej hc.1)]
  cases hr with
  | failed hf => exact Or.inl rfl
  | kept hno => exact Or.inl rfl
  | removed j hno hj =>
    left
    funext k
    exact if_neg (ne_of_perm hne hchild hj)
  | alloc j p hno hj => exact Or.inl (hset (ne_of_perm hne hchild hj))
  | @shared se de n m perm hsh htab =>
    by_cases hej : e = de
    · subst hej
      exact Or.inr ⟨se, n, m, perm, rfl, hsh, htab, rfl⟩
    · exact Or.inl (hset hej)
  | noTable => exact Or.inl rfl
  | unmapped j hno hj => exact Or.inl (hset (ne_of_perm hne hchild hj))
  | sent => exact Or.inl rfl

/-- A call past the checks of a shared page that has a page table to write to does not fail. -/
lemma Shares.not_failed {se de : EnvIdx} {n m : PageNo} {perm : Word}
    (hsh : Shares s c call se n de m perm)
    (htab : tableAt target (dirsOf s) s.pm.mem de m.1 ≠ none ∨ s.pm.pageFreeList ≠ none) :
    ¬ Failed s c call r := by
  intro hf
  cases hsh with
  | map hno hs hd h =>
    cases hf with
    | mapBadEnv _ he =>
      rw [h.src, h.dst] at he
      simp at he
    | mapVa _ hva =>
      rcases hva with (hge | hal) | (hge | hal)
      · exact BitVec.not_le.mpr hs hge
      · exact hal h.srcva
      · exact BitVec.not_le.mpr hd hge
      · exact hal h.dstva
    | mapUnmapped _ he _ hnt =>
      obtain rfl := Option.some.inj (h.src.symm.trans he)
      exact hnt h.table
    | mapPerm _ hperm => exact hperm h.perm
    | mapReadOnly _ he _ hW hro =>
      obtain rfl := Option.some.inj (h.src.symm.trans he)
      rw [h.writable hW] at hro
      cases hro
    | _ => grind
  | send hno he hrecv hs hd h =>
    cases hf with
    | sendBadEnv _ he' => cases he.symm.trans he'
    | notRecv _ he' hrecv' =>
      obtain rfl := Option.some.inj (he.symm.trans he')
      rw [hrecv] at hrecv'
      cases hrecv'
    | sendPage _ _ hchk =>
      rcases hchk with hal | (hP | hU | hb) | hnt | ⟨hW, hro⟩
      · exact hal h.aligned
      · rw [h.present] at hP
        cases hP
      · rw [h.user] at hU
        cases hU
      · exact hb h.bits
      · exact hnt h.table
      · rw [h.writable hW] at hro
        cases hro
    | sendNoMem _ he' _ hnt hfl =>
      obtain rfl := Option.some.inj (he.symm.trans he')
      exact htab.elim hnt (fun hf => hf hfl)
    | _ => grind

lemma Shares.no {se de : EnvIdx} {n m : PageNo} {perm : Word}
    (hs : Shares s c call se n de m perm) : call.no.toNat = 5 ∨ call.no.toNat = 12 := by
  cases hs with
  | map hno => exact Or.inl hno
  | send hno => exact Or.inr hno

/-- A call that passes the checks of a shared page and returns `0` has shared it. -/
lemma Remapped.of_shares {S : EnvIdx → PageNo → Word} {se de : EnvIdx} {n m : PageNo} {perm : Word}
    (hr : Remapped B s c call r S) (h0 : r = 0) (hsh : Shares s c call se n de m perm) :
    S = setPage (spacesOf s) de m (sharedEntry s se n perm) := by
  have hno := hsh.no
  cases hr with
  | failed hf =>
    have hslt := hf.slt
    rw [h0] at hslt
    exact absurd hslt (by decide)
  | kept hn =>
    refine absurd ?_ hn
    rcases hno with hno | hno <;> rw [hno] <;> decide
  | noTable => exact absurd h0 (by decide)
  | shared hsh' =>
    obtain ⟨rfl, rfl, rfl, rfl, rfl⟩ := hsh.unique hsh'
    rfl
  | sent j h12 hj hrecv hpage =>
    cases hsh with
    | map h5 => omega
    | send _ hj' hrecv' hs hd =>
      obtain rfl := Option.some.inj (hj.symm.trans hj')
      exact absurd hd (hpage hs).2
  | _ => omega

lemma target_sharedEntry (s : Kernel) (se : EnvIdx) (n : PageNo) (perm : Word) :
    target (sharedEntry s se n perm) = some (pgnum (sharedEntry s se n perm)) := by
  apply target_of_present
  unfold sharedEntry
  rw [has_or, show has pteP pteP = true by decide, Bool.or_true]

/-- The new mappings of the caller: a free page, or the page of a call that shares one. -/
lemma Remapped.noNewShare
    (hr : Remapped B s c call r (spacesOf t))
    (hout : ∀ se n m perm, r = 0 → Shares s c call se n c m perm →
      (tableAt target (dirsOf s) s.pm.mem c m.1 ≠ none ∨ s.pm.pageFreeList ≠ none) →
      target (spacesOf s c m) ≠ some (pgnum (sharedEntry s se n perm)) →
      ∀ k, target (spacesOf s e k) ≠ some (pgnum (sharedEntry s se n perm))) : NoNewShare s t c e := by
  have hset : ∀ {j : EnvIdx} {m : PageNo} {w : Word},
      (j = c → ∀ f, target w = some f → target (spacesOf s c m) ≠ some f →
        ∀ k, target (spacesOf s e k) ≠ some f) →
      ∀ n f, target (setPage (spacesOf s) j m w c n) = some f → target (spacesOf s c n) ≠ some f →
        ∀ k, target (spacesOf s e k) ≠ some f := by
    intro j m w hw n f hf hold
    rw [setPage_apply] at hf
    split at hf
    · rename_i hjn
      obtain ⟨hj, rfl⟩ := hjn
      exact hw hj.symm f hf hold
    · exact absurd hf hold
  unfold NoNewShare
  generalize spacesOf t = S at hr ⊢
  cases hr with
  | failed hf => exact fun n f hf hold => absurd hf hold
  | kept hno => exact fun n f hf hold => absurd hf hold
  | removed j hno hj =>
    intro n f hf hold
    unfold clearSpace at hf
    split at hf
    · rw [target_zero] at hf
      cases hf
    · exact absurd hf hold
  | alloc j p hno hj hva hal hbits hflag hp hfree hnew =>
    refine hset (fun _ f hf _ k hk => hnew (.pte e k.1 k.2) ?_)
    rw [target_entry (Nat.lt_trans (B.freeList_lt hfree) B.npages_lt) (flags_lt hbits)] at hf
    obtain rfl := Option.some.inj hf
    rw [pointers_pte]
    exact hk
  | @shared se de n m perm hsh htab =>
    refine hset (fun hde f hf hold => ?_)
    subst hde
    have htgt : target (sharedEntry s se n perm) = some f := hf
    rw [target_sharedEntry] at htgt
    obtain rfl := Option.some.inj htgt
    exact hout se n m perm rfl hsh htab hold
  | noTable => exact fun n f hf hold => absurd hf hold
  | unmapped j hno hj =>
    refine hset (fun _ f hf => ?_)
    rw [target_zero] at hf
    cases hf
  | sent => exact fun n f hf hold => absurd hf hold

lemma NoNewShare.out {se : EnvIdx} {n m : PageNo} {perm : Word}
    (hS : spacesOf t = setPage (spacesOf s) c m (sharedEntry s se n perm))
    (hn : NoNewShare s t c e) (hold : target (spacesOf s c m) ≠ some (pgnum (sharedEntry s se n perm))) :
    ∀ k, target (spacesOf s e k) ≠ some (pgnum (sharedEntry s se n perm)) := by
  refine hn m _ ?_ hold
  rw [hS, setPage_apply, if_pos ⟨rfl, rfl⟩]
  exact target_sharedEntry s se n perm

/-! ### The guard is enough -/

/-- A send that returns `0` has passed its checks. -/
lemma Remapped.sent_checks {S : EnvIdx → PageNo → Word} (hr : Remapped B s c call r S) (h0 : r = 0)
    (hno : call.no.toNat = 12) (he : envOf s c call.a1 false = some e) :
    (∀ hva : call.a3 < utop, SendChecks s c call.a3 call.a4 hva) ∧ ¬ SendNoMem s e call := by
  cases hr with
  | failed hf =>
    have hslt := hf.slt
    rw [h0] at hslt
    exact absurd hslt (by decide)
  | kept hn => exact absurd (by rw [hno]; decide) hn
  | shared hsh htab =>
    cases hsh with
    | map h5 => omega
    | send _ hj _ hs hd hchk =>
      obtain rfl := Option.some.inj (he.symm.trans hj)
      exact ⟨fun _ => hchk, fun hn => htab.elim hn.2.2.table (fun hf => hf hn.2.2.full)⟩
  | sent j _ hj hrecv hpage =>
    obtain rfl := Option.some.inj (he.symm.trans hj)
    exact ⟨fun hva => (hpage hva).1, fun hn => (hpage hn.1).2 hn.2.1⟩
  | _ => omega

/-- Without a message the status of `e` is as it was. -/
lemma Reached.status {env : Env} (hr : Reached s c e call r env)
    (hno : ¬ (r = 0 ∧ call.no.toNat = 12 ∧ envOf s c call.a1 false = some e ∧
      (s.envs e).envIpcRecving = true)) : env.envStatus = (s.envs e).envStatus := by
  cases hr with
  | kept => rfl
  | sent h12 he hrecv => exact absurd ⟨rfl, h12, he, hrecv⟩ hno
  | unsent => rfl

lemma Reached.delivered {env : Env} (hr : Reached s c e call r env) (h0 : r = 0)
    (hno : call.no.toNat = 12) (he : envOf s c call.a1 false = some e) :
    env.envStatus = .runnable := by
  cases hr with
  | kept hq =>
    have hslt := hq hno he
    rw [h0] at hslt
    exact absurd hslt (by decide)
  | sent => rfl
  | unsent => exact absurd h0 (by decide)

lemma IsoGuard.leftAlone (hg : IsoGuard h s c e call) (hne : e ≠ c)
    (hchild : (s.envs e).envParentId ≠ (s.envs c).envId) (hre : Remapped B s c call r (spacesOf t))
    (hreach : Reached s c e call r (t.envs e)) :
    LeftAlone s t e ∨ (r = 0 ∧ MessageLeft h s t c e call) := by
  have hdist := hreach.undisturbed
  have hspace := hre.space hne hchild
  by_cases hmsg : r = 0 ∧ call.no.toNat = 12 ∧ envOf s c call.a1 false = some e ∧
      (s.envs e).envIpcRecving = true
  · obtain ⟨h0, hno, he, hrecv⟩ := hmsg
    obtain ⟨hchk, hnomem⟩ := hre.sent_checks h0 hno he
    obtain ⟨hwait, hpage⟩ := hg.send hno he hrecv hchk hnomem
    have hst := hreach.delivered h0 hno he
    have hsp : spacesOf t e = spacesOf s e ∨ ((s.envs e).envStatus = .notRunnable ∧
        ∃ (va : Word) (hva : va < utop), Asked h e va ∧
          ∀ n, n ≠ pageNo va hva → spacesOf t e n = spacesOf s e n) := by
      rcases hspace with hsp | ⟨se, n, m, perm, -, hsh, htab, hS⟩
      · exact Or.inl hsp
      have hse : se = c := by
        cases hsh with
        | map h5 => omega
        | send => rfl
      subst hse
      rcases hpage n m perm hsh with ⟨hblk, va, hva, hasked, rfl⟩ | hsame
      · refine Or.inr ⟨hblk, va, hva, hasked, fun k hk => ?_⟩
        rw [hS, setPage_apply, if_neg (fun hc => hk hc.2)]
      · rw [hS, setPage_self hsame]
        exact Or.inl rfl
    by_cases hblk : (s.envs e).envStatus = .notRunnable
    · exact Or.inr ⟨h0, hno, he, hrecv, hblk, hdist, hsp.imp_right And.right⟩
    · exact Or.inl ⟨hdist, hst.trans (hwait.resolve_left hblk).symm,
        hsp.resolve_right (fun hc => hblk hc.1)⟩
  · refine Or.inl ⟨hdist, hreach.status hmsg, ?_⟩
    rcases hspace with hsp | ⟨se, n, m, perm, h0, hsh, htab, hS⟩
    · exact hsp
    have h5 : call.no.toNat = 5 := by
      cases hsh with
      | map h5 => exact h5
      | send h12 he hrecv => exact absurd ⟨h0, h12, he, hrecv⟩ hmsg
    rw [hS, setPage_self (hg.into se n m perm h5 hsh htab)]

lemma isolated_of_guard (hE : EnvsIn none s) (hok : MemOk B s) (hc : (s.cpus cpu).cpuEnv = some c)
    (hne : e ≠ c)
    (hchild : (s.envs e).envParentId ≠ (s.envs c).envId) (hlive : (s.envs e).envStatus ≠ .free)
    (hg : IsoGuard h s c e call) (cons : Word) : Isolated h s cpu c e call cons := by
  refine ((syscall_mem hE hok hc cons call).and (syscall_rule hc cons call)).mono ?_ ?_
  · rintro r t ⟨⟨-, hre⟩, hrule⟩
    exact ⟨hg.leftAlone hne hchild hre (hrule.reached hE hne hchild hlive),
      hre.noNewShare (fun se n m perm _ => hg.out se n m perm)⟩
  · rintro ex t ⟨hex, hleft⟩ hl
    subst hl
    rcases hex with hcrash | ⟨-, -, hmem'⟩
    · cases hcrash
    have hsame : NoNewShare s t c e ∧ spacesOf t e = spacesOf s e := by
      unfold NoNewShare
      rcases (hmem' rfl).2 with hsp | hsp
      · rw [hsp]
        exact ⟨fun n f hf hold => absurd hf hold, rfl⟩
      · rw [hsp]
        refine ⟨fun n f hf => ?_, ?_⟩
        · unfold clearSpace at hf
          rw [if_pos rfl, target_zero] at hf
          cases hf
        · funext k
          exact if_neg hne
    exact ⟨⟨(hleft rfl).resumed hne, hsame.2⟩, hsame.1⟩

/-! ### The guard is exact -/

/-- A call past the checks of a shared page, with memory for a page table, shares the page. -/
lemma syscall_shares (hE : EnvsIn none s) (hok : MemOk B s) (hc : (s.cpus cpu).cpuEnv = some c)
    {se de : EnvIdx} {n m : PageNo} {perm : Word} (hsh : Shares s c call se n de m perm)
    (htab : tableAt target (dirsOf s) s.pm.mem de m.1 ≠ none ∨ s.pm.pageFreeList ≠ none)
    (cons : Word) :
    ∃ t, syscall cpu cons call.no call.a1 call.a2 call.a3 call.a4 call.a5 s = .ok 0 t ∧
      spacesOf t = setPage (spacesOf s) de m (sharedEntry s se n perm) := by
  have hno := hsh.no
  have hret : Sat (syscall cpu cons call.no call.a1 call.a2 call.a3 call.a4 call.a5) s
      (fun r t => r = 0 ∧ Remapped B s c call r (spacesOf t)) (fun _ _ => False) := by
    refine (syscall_mem hE hok hc cons call).mono ?_ ?_
    · rintro r t ⟨-, hre⟩
      refine ⟨?_, hre⟩
      generalize spacesOf t = S at hre
      cases hre with
      | failed hf => exact absurd hf (hsh.not_failed htab)
      | kept hn =>
        refine absurd ?_ hn
        rcases hno with hno | hno <;> rw [hno] <;> decide
      | noTable _ hsh' htab' hfl =>
        obtain ⟨-, -, rfl, rfl, -⟩ := hsh.unique hsh'
        exact htab.elim (fun ht => absurd htab' ht) (fun hf => absurd hfl hf)
      | _ => rfl
    · rintro ex t (hcrash | ⟨hleave, -⟩)
      · cases hcrash with
        | outOfMemory _ hsh' htab' hfl =>
          obtain ⟨-, -, rfl, rfl, -⟩ := hsh.unique hsh'
          exact htab.elim (fun ht => ht htab') (fun hf => hf hfl)
        | _ => omega
      · unfold Call.Leaves at hleave
        rcases hno with hno | hno <;> rw [hno] at hleave <;> exact absurd hleave (by simp)
  obtain ⟨r, t, hrt, rfl, hre⟩ := hret.exists_ok
  exact ⟨t, hrt, hre.of_shares rfl hsh⟩

lemma Returned.delivered (hr : Returned s cpu c call r t) (h0 : r = 0) (hno : call.no.toNat = 12)
    (he : envOf s c call.a1 false = some e) : (t.envs e).envStatus = .runnable := by
  cases hr with
  | memory pm _ _ _ hipc =>
    have hslt := hipc (Or.inl hno)
    rw [h0] at hslt
    exact absurd hslt (by decide)
  | sent j pm _ hj =>
    obtain rfl := Option.some.inj (he.symm.trans hj)
    rw [Kernel.setEnv_envs_self]
    rfl
  | unsent => exact absurd h0 (by decide)
  | _ => omega

/-- A send past its checks, to an environment that has the page table it needs, returns `0`. -/
lemma syscall_sends (hE : EnvsIn none s) (hok : MemOk B s) (hc : (s.cpus cpu).cpuEnv = some c)
    (hno : call.no.toNat = 12)
    (he : envOf s c call.a1 false = some e) (hrecv : (s.envs e).envIpcRecving = true)
    (hchk : ∀ hva : call.a3 < utop, SendChecks s c call.a3 call.a4 hva)
    (hnomem : ¬ SendNoMem s e call) (cons : Word) :
    ∃ t, syscall cpu cons call.no call.a1 call.a2 call.a3 call.a4 call.a5 s = .ok 0 t ∧
      (t.envs e).envStatus = .runnable ∧
      ∀ n m perm, Shares s c call c n e m perm →
        spacesOf t = setPage (spacesOf s) e m (sharedEntry s c n perm) := by
  have hdone : Sat (syscall cpu cons call.no call.a1 call.a2 call.a3 call.a4 call.a5) s
      (fun r _ => r = 0) (fun _ _ => False) := by
    unfold syscall
    rw [hno]
    refine (sysIpcTrySend_checked hE hok hc he hrecv hchk).mono ?_ (fun _ _ h => h)
    rintro r t (⟨hn, -⟩ | ⟨-, h0⟩)
    · exact absurd hn hnomem
    · exact h0
  have hall := (hdone.and ((syscall_mem hE hok hc cons call).and
    (syscall_rule hc cons call))).mono (fun _ _ h => h) (fun _ _ h => h.1)
  obtain ⟨r, t, hrt, rfl, ⟨-, hre⟩, hrule⟩ := hall.exists_ok
  exact ⟨t, hrt, hrule.delivered rfl hno he, fun n m perm hsh => hre.of_shares rfl hsh⟩

lemma IsoGuard.of_isolated (hE : EnvsIn none s) (hok : MemOk B s) (hc : (s.cpus cpu).cpuEnv = some c)
    {cons : Word} (hi : Isolated h s cpu c e call cons) : IsoGuard h s c e call := by
  constructor
  · intro se n m perm hno hsh htab
    obtain ⟨t, hrt, hS⟩ := syscall_shares hE hok hc hsh htab cons
    have hspace : spacesOf t e = spacesOf s e := by
      rcases (hi.of_ok hrt).1 with hl | ⟨-, hm⟩
      · exact hl.space
      · exact absurd (hno.symm.trans hm.no) (by decide)
    rw [← hspace, hS, setPage_apply, if_pos ⟨rfl, rfl⟩]
  · intro se n m perm hsh htab hold
    obtain ⟨t, hrt, hS⟩ := syscall_shares hE hok hc hsh htab cons
    exact (hi.of_ok hrt).2.out hS hold
  · intro hno he hrecv hchk hnomem
    obtain ⟨t, hrt, hst, hS⟩ := syscall_sends hE hok hc hno he hrecv hchk hnomem cons
    have hentry : ∀ n m perm, Shares s c call c n e m perm →
        spacesOf t e m = sharedEntry s c n perm := by
      intro n m perm hsh
      rw [hS n m perm hsh, setPage_apply, if_pos ⟨rfl, rfl⟩]
    rcases (hi.of_ok hrt).1 with hl | ⟨-, hm⟩
    · refine ⟨Or.inr (hl.status.symm.trans hst), fun n m perm hsh => Or.inr ?_⟩
      rw [← hl.space]
      exact hentry n m perm hsh
    · refine ⟨Or.inl hm.blocked, fun n m perm hsh => ?_⟩
      rcases hm.space with hsp | ⟨va, hva, hasked, hsp⟩
      · rw [← hsp]
        exact Or.inr (hentry n m perm hsh)
      · by_cases hnm : m = pageNo va hva
        · exact Or.inl ⟨hm.blocked, va, hva, hasked, hnm⟩
        · rw [← hsp m hnm]
          exact Or.inr (hentry n m perm hsh)

/-- In every state of a guarded run, a call of `c` respects an environment that is neither `c` nor a child
of `c` exactly when it meets the guard. -/
theorem isolated_iff (hr : Runs B h s) (hg : Guarded h) (hc : (s.cpus cpu).cpuEnv = some c)
    (hne : e ≠ c)
    (hchild : (s.envs e).envParentId ≠ (s.envs c).envId) (hlive : (s.envs e).envStatus ≠ .free)
    (cons : Word) :
    Isolated h (s.entered c tf) cpu c e tf.call cons ↔ IsoGuard h (s.entered c tf) c e tf.call := by
  obtain ⟨hE, hok⟩ := kernelOk_of_run hr hg
  have hE' : EnvsIn none (s.entered c tf) := hE.entered tf
  have hok' : MemOk B (s.entered c tf) :=
    (hok.setEnv (e := c) (v := { s.envs c with envTf := tf }) rfl).1
  have hc' : ((s.entered c tf).cpus cpu).cpuEnv = some c := hc
  have henv : ∀ {α : Type} (f : Env → α), f { s.envs c with envTf := tf } = f (s.envs c) →
      ∀ j, f ((s.entered c tf).envs j) = f (s.envs j) := fun f hf j => Kernel.setEnv_proj f hf j
  have hchild' : ((s.entered c tf).envs e).envParentId ≠ ((s.entered c tf).envs c).envId := by
    rw [henv Env.envParentId rfl, henv Env.envId rfl]
    exact hchild
  have hlive' : ((s.entered c tf).envs e).envStatus ≠ .free := by
    rw [henv Env.envStatus rfl]
    exact hlive
  exact ⟨IsoGuard.of_isolated hE' hok' hc',
    fun hguard => isolated_of_guard hE' hok' hc' hne hchild' hlive' hguard cons⟩

/-- The child allocates a page; its parent notices nothing. -/
theorem isolated_iff_alloc : ∃ h, Runs smallBoot h smallYield ∧
    Isolated h (smallYield.entered 1 (callFrame 4 0 0x400000 7 0 0)) 0 1 0
      (callFrame 4 0 0x400000 7 0 0).call 0 := by
  obtain ⟨hr, hg⟩ := smallYield_run
  refine ⟨_, hr, (isolated_iff hr hg (by decide +kernel) (by decide) (by decide +kernel)
    (by decide +kernel) 0).mpr ?_⟩
  refine ⟨fun se n m perm h5 => absurd h5 (by decide), fun se n m perm hsh => ?_,
    fun h12 => absurd h12 (by decide)⟩
  exact absurd hsh.no (by decide)

/-- The child maps the stack of its parent in its own address space. -/
theorem isolation_fails : ∃ h, Runs smallBoot h smallYield ∧
    (smallYield.cpus 0).cpuEnv = some 1 ∧ (smallYield.envs 0).envStatus ≠ .free ∧
    (smallYield.envs 0).envParentId ≠ (smallYield.envs 1).envId ∧
    ¬ Isolated h (smallYield.entered 1 (callFrame 5 0x1000 0xeebfd000 0 0x400000 5)) 0 1 0
      (callFrame 5 0x1000 0xeebfd000 0 0x400000 5).call 0 := by
  obtain ⟨hr, -⟩ := smallYield_run
  refine ⟨_, hr, by decide +kernel, by decide +kernel, by decide +kernel, fun hi => ?_⟩
  have hret : syscall 0 0 5 0x1000 0xeebfd000 0 0x400000 5
      (smallYield.entered 1 (callFrame 5 0x1000 0xeebfd000 0 0x400000 5)) = .ok 0 _ :=
    eq_ok_of_resultOf (by decide +kernel)
  have hpages := (hi.of_ok hret).2 (pageNo 0x400000 (by decide)) 158 (by decide +kernel)
    (by decide +kernel) (pageNo 0xeebfd000 (by decide))
  exact hpages (by decide +kernel)

end SistemasOperativos.Kern
