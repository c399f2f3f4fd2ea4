import SistemasOperativos.Lib.ForkInv

/-!
# The steps of copy-on-write fork

Each system call of `fork` keeps the invariant, as writes and exits do.
-/

namespace SistemasOperativos.Lib.Fork

open Library
open Kern (Word Byte pteP pteW pteU pteSyscall has EnvStatus)

variable {ι : Type} [DecidableEq ι] {shared : ℕ → Option ℕ} {fork pc : ForkPc ι} {space : ℕ → Option Pte}
  {s t : ForkState ι} {e c : ι} {pn : ℕ} {pte now old new x : Pte}

lemma child_update (hc : pc.child = (s.fork e).child) :
    (fun j => (Function.update s.fork e pc j).child) = fun j => (s.fork j).child := by
  funext j
  rw [Function.update_apply]
  by_cases hj : j = e
  · rw [if_pos hj, hc, hj]
  · rw [if_neg hj]

lemma pos_update (hp : pc.pos = (s.fork e).pos) :
    (fun j => (Function.update s.fork e pc j).pos) = fun j => (s.fork j).pos := by
  funext j
  rw [Function.update_apply]
  by_cases hj : j = e
  · rw [if_pos hj, hp, hj]
  · rw [if_neg hj]

/-- The parent goes on to `pc`, and environment `j` gets a new page. -/
lemma ForkIn.sharing_alloc {j : ι} {k : ℕ} (h : ForkIn shared s) (hchild : pc.child = (s.fork e).child)
    (hpos : pc.pos = (s.fork e).pos) (hk : k < utopPage) :
    Sharing (s.space.set j k (some ⟨s.next, permRw⟩)) (s.next + 1) (fun i => (Function.update s.fork e pc i).child)
      (fun i => (Function.update s.fork e pc i).pos) (fun i => s.fault i = .unmap) := by
  rw [child_update hchild, pos_update hpos]
  exact h.sharing.alloc hk

/-- A step that changes nothing but the place in `fork`. -/
lemma ForkIn.turned (h : ForkIn shared s) (he : s.status e = .runnable) (hout : s.fault e = .out)
    (hchild : pc.child = (s.fork e).child)
    (hsharing : Sharing s.space s.next (fun j => (s.fork j).child) (fun j => (Function.update s.fork e pc j).pos)
      (fun j => s.fault j = .unmap))
    (hself : EnvIn shared (s.status e) pc (s.fault e) (s.handler e) (s.space e))
    (hshared : ∀ c, pc.child = some c → ∀ j, j < pc.pos ∧ ¬j < (s.fork e).pos → shared j = none)
    (hle : (s.fork e).pos ≤ pc.pos) : ForkIn shared (s.setFork e pc) := by
  refine h.forked (k := none) he ?_ (fun j hj => Function.update_of_ne hj _ _)
    (fun _ _ _ => ⟨rfl, rfl, rfl, rfl⟩) ?_ hout (fun c hc => absurd hc (Option.some_ne_none c).symm)
    (fun c hb => ?_) (fun _ _ => rfl)
  · dsimp only [ForkState.setFork]
    rw [child_update hchild]
    exact hsharing
  · dsimp only [ForkState.setFork]
    rw [Function.update_self]
    exact hself
  · unfold Builds at hb
    dsimp only [ForkState.setFork] at hb ⊢
    rw [Function.update_self] at hb ⊢
    obtain ⟨hst, hh, hsp⟩ := h.child e c (by unfold Builds; rw [← hchild, hb])
    refine ⟨.inr (by unfold Builds; rw [← hchild, hb]), hst, hh, fun j => ?_⟩
    rw [hsp j]
    unfold sharedBelow
    by_cases hj : j < (s.fork e).pos
    · rw [if_pos hj, if_pos (by omega)]
    · by_cases hj' : j < pc.pos
      · rw [if_neg hj, if_pos hj', hshared c hb j ⟨hj', hj⟩]
      · rw [if_neg hj, if_neg hj']

omit [DecidableEq ι] in
/-- The environment that is being built. -/
lemma EnvIn.waiting (hspace : space pftempPage = none) :
    EnvIn shared .notRunnable (.out : ForkPc ι) .out true space where
  free h := absurd h (by decide)
  idle _ := ⟨rfl, rfl⟩
  noStack h := absurd h (by decide)
  ready h := absurd rfl h
  pending h := absurd h (by simp)
  pos := Nat.zero_le _
  temp _ := hspace
  faulting pn h := absurd h (by simp [FaultPc.page])
  dup c pn pte h := absurd h (by simp)
  dupSelf c pn h := absurd h (by simp)
  family h := absurd h (by decide)

/-- `duppage` maps a page in the child and goes on at `pc`. -/
lemma ForkIn.lent (h : ForkIn shared s) (he : s.status e = .runnable) (hout : s.fault e = .out)
    (hat : s.fork e = .dup c pn pte) (hnow : s.space e pn = some now) (hframe : x.frame = now.frame)
    (hshared : x.shared = now.shared) (hw : x.writable = true → now.writable = true ∧ x.shared = true)
    (hcow : x.cow = true → x.shared = false ∧ (now.cow = true ∨ now.writable = true))
    (hpc : pc = .dupSelf c pn ∧ now.shared = false ∧ (now.cow = true ∨ now.writable = true) ∨
      pc = .copy c (pn + 1) ∧ ¬now.Own) :
    ForkIn shared ({ s with space := s.space.set c pn (some x) }.setFork e pc) := by
  obtain ⟨hpn, hlt, -⟩ := (h.env e).dup c pn pte hat
  have hb : Builds s e c := by
    unfold Builds
    rw [hat]
    rfl
  have hce := h.child_ne he hb
  obtain ⟨hcst, hch, hcsp⟩ := h.child e c hb
  obtain ⟨hcfork, hcfault⟩ := (h.env c).idle (by rw [hcst]; decide)
  have htemp : s.space e pftempPage = none := (h.env e).temp (by rw [hout]; rfl)
  have hpos : (s.fork e).pos = pn := by rw [hat]; rfl
  have hchild : pc.child = some c := by
    rcases hpc with ⟨rfl, -⟩ | ⟨rfl, -⟩
    · rfl
    · rfl
  have hne : s.fault e ≠ .unmap := by rw [hout]; simp
  have hlend := h.sharing.lend (h.not_built he) hb hpos hnow hpn htemp hne hframe hshared hw hcow
  have hspace : s.space.set c pn (some x) e = s.space e := Spaces.set_of_ne (Ne.symm hce)
  have hfamily := (h.env e).family he pn
  have hx : (some x).bind (fun p => if p.shared then some p.frame else none) = shared pn := by
    rw [← hfamily]
    unfold sharedFrame
    rw [hnow, Option.bind_some, Option.bind_some, hshared, hframe]
  refine h.forked (k := some c) he ?_ (fun j hj => Function.update_of_ne hj _ _) (fun j _ hjc => ?_) ?_ hout
    (fun c' hc' => ?_) (fun c' hb' => ?_) (fun _ _ => rfl)
  · dsimp only [ForkState.setFork]
    rw [child_update (by rw [hchild, hat]; rfl)]
    rcases hpc with ⟨rfl, -⟩ | ⟨rfl, hown⟩
    · rw [pos_update (by rw [hat]; rfl)]
      exact hlend
    · refine hlend.advance hlt (fun p hp hpo => ?_) hpos ?_ (fun j hj => ?_)
      · rw [hspace] at hp
        obtain rfl := Option.some.inj (hnow.symm.trans hp)
        exact absurd hpo hown
      · rw [Function.update_self]
        rfl
      · rw [Function.update_of_ne hj]
  · exact ⟨rfl, rfl, rfl, Spaces.set_of_ne (fun hc => hjc (by rw [hc]))⟩
  · dsimp only [ForkState.setFork]
    rw [Function.update_self, hspace]
    rcases hpc with ⟨rfl, hpriv, hkind⟩ | ⟨rfl, -⟩
    · refine { h.env e with
        idle := fun hne => absurd he hne
        ready := fun _ _ => (h.env e).ready (by rw [hat]; simp) (by rw [hat]; simp)
        pending := fun heq => absurd heq (by simp)
        pos := Nat.le_of_lt hlt
        dup := fun c' pn' pte' heq => absurd heq (by simp)
        dupSelf := fun c' pn' heq => ?_ }
      obtain ⟨-, rfl⟩ := ForkPc.dupSelf.inj heq
      exact ⟨hpn, hlt, now, hnow, hpriv, hkind⟩
    · exact (h.env e).turn he (fun _ _ => (h.env e).ready (by rw [hat]; simp) (by rw [hat]; simp))
        (fun heq => absurd heq (by simp)) hlt (fun _ _ _ => by simp) (fun _ _ => by simp)
  · obtain rfl := Option.some.inj hc'
    refine ⟨.inr hb, hcfault, ?_⟩
    dsimp only [ForkState.setFork]
    rw [Function.update_of_ne hce, hcst, hcfork, hcfault, hch]
    apply EnvIn.waiting
    rw [Spaces.set_of_page_ne (fun hc => hpn (.inr hc.symm))]
    exact (h.env c).temp (by rw [hcfault]; rfl)
  · unfold Builds at hb'
    dsimp only [ForkState.setFork] at hb' ⊢
    rw [Function.update_self] at hb' ⊢
    obtain rfl := Option.some.inj (hchild.symm.trans hb')
    refine ⟨.inr hb, hcst, hch, fun j => ?_⟩
    rw [sharedFrame_set, hcsp j, hpos, hx]
    unfold sharedBelow
    rcases hpc with ⟨rfl, hpriv, -⟩ | ⟨rfl, -⟩
    · by_cases hj : j = pn
      · subst hj
        rw [if_pos ⟨rfl, rfl⟩, ← hfamily, shared_private hnow hpriv]
        exact (if_neg (Nat.lt_irrefl j)).symm
      · rw [if_neg (fun hc => hj hc.2)]
        rfl
    · by_cases hj : j = pn
      · subst hj
        rw [if_pos ⟨rfl, rfl⟩]
        exact (if_pos (Nat.lt_succ_self j)).symm
      · rw [if_neg (fun hc => hj hc.2)]
        by_cases hjlt : j < pn
        · rw [if_pos hjlt]
          exact (if_pos (Nat.lt_succ_of_lt hjlt)).symm
        · rw [if_neg hjlt]
          exact (if_neg (show ¬j < pn + 1 by omega)).symm

/-- Before the child, or after it. -/
lemma ForkIn.outside (h : ForkIn shared s) (he : s.status e = .runnable) (hout : s.fault e = .out)
    (hold : (s.fork e).child = none) (hpos : (s.fork e).pos = 0) (hchild : pc.child = none) (hpos' : pc.pos = 0)
    (hready : pc ≠ .out → pc ≠ .handler → s.handler e = true) (hpending : pc = .handler → s.handler e = false)
    (hdup : ∀ c pn pte, pc ≠ .dup c pn pte) (hself : ∀ c pn, pc ≠ .dupSelf c pn) :
    ForkIn shared (s.setFork e pc) := by
  refine h.turned he hout (by rw [hchild, hold]) ?_ ?_ (fun c hc => ?_) (by rw [hpos]; exact Nat.zero_le _)
  · rw [pos_update (by rw [hpos, hpos'])]
    exact h.sharing
  · exact (h.env e).turn he hready hpending (by rw [hpos']; exact Nat.zero_le _) hdup hself
  · rw [hchild] at hc
    exact absurd hc (Option.some_ne_none c).symm

/-- The parent is past the page `pn`, which it has not lent. -/
lemma ForkIn.skipped (h : ForkIn shared s) (he : s.status e = .runnable) (hout : s.fault e = .out)
    (hchild : (s.fork e).child = some c) (hpos : (s.fork e).pos = pn) (hlt : pn < utopPage)
    (hown : ∀ p, s.space e pn = some p → p.Own → pn = uxstackPage) (hshared : shared pn = none)
    (hready : s.handler e = true) : ForkIn shared (s.setFork e (.copy c (pn + 1))) := by
  refine h.turned he hout (by rw [hchild]; rfl) ?_ ?_ (fun c' hc' j hj => ?_) ?_
  · refine h.sharing.advance hlt hown hpos ?_ (fun j hj => ?_)
    · rw [Function.update_self]
      rfl
    · rw [Function.update_of_ne hj]
  · exact (h.env e).turn he (fun _ _ => hready) (fun heq => absurd heq (by simp)) hlt
      (fun _ _ _ => by simp) (fun _ _ => by simp)
  · rw [hpos] at hj
    have hjlt : j < pn + 1 := hj.1
    obtain rfl : j = pn := by omega
    exact hshared
  · rw [hpos]
    exact Nat.le_succ pn

lemma ForkIn.skip (h : ForkIn shared s) (he : s.status e = .runnable) (hout : s.fault e = .out)
    (hat : s.fork e = .copy c pn) (hpn : pn < utopPage) (hskip : pn = uxstackPage ∨ s.space e pn = none) :
    ForkIn shared (s.setFork e (.copy c (pn + 1))) := by
  refine h.skipped he hout (by rw [hat]; rfl) (by rw [hat]; rfl) hpn (fun p hp _ => ?_) ?_
    ((h.env e).ready (by rw [hat]; simp) (by rw [hat]; simp))
  · rcases hskip with hux | hnone
    · exact hux
    · rw [hnone] at hp
      exact absurd hp (Option.some_ne_none p).symm
  · rw [← (h.env e).family he pn]
    rcases hskip with rfl | hnone
    · cases hp : s.space e uxstackPage with
      | none => exact shared_none hp
      | some p =>
        have hperm := (h.sharing.alone hp (.inl rfl)).1
        exact shared_private hp (by unfold Pte.shared; rw [hperm]; exact perm_flags.2.1)
    · exact shared_none hnone

lemma ForkIn.read (h : ForkIn shared s) (he : s.status e = .runnable) (hout : s.fault e = .out)
    (hat : s.fork e = .copy c pn) (hpn : pn < utopPage) (hne : pn ≠ uxstackPage) (hp : s.space e pn = some pte) :
    ForkIn shared (s.setFork e (.dup c pn pte)) := by
  refine h.turned he hout (by rw [hat]; rfl) ?_ ?_ (fun c' hc' j hj => ?_) (by rw [hat]; exact le_rfl)
  · rw [pos_update (by rw [hat]; rfl)]
    exact h.sharing
  · refine { h.env e with
      idle := fun hne => absurd he hne
      ready := fun _ _ => (h.env e).ready (by rw [hat]; simp) (by rw [hat]; simp)
      pending := fun heq => absurd heq (by simp)
      pos := Nat.le_of_lt hpn
      dup := fun c' pn' pte' heq => ?_
      dupSelf := fun c' pn' heq => absurd heq (by simp) }
    obtain ⟨-, rfl, rfl⟩ := ForkPc.dup.inj heq
    refine ⟨fun hs => ?_, hpn, pte, hp, .inl rfl⟩
    rcases hs with hs | hs
    · exact hne hs
    · rw [hs, (h.env e).temp (by rw [hout]; rfl)] at hp
      exact absurd hp (Option.some_ne_none pte).symm
  · rw [hat] at hj
    exact absurd hj.1 hj.2

/-- `duppage` marks the page of the parent itself. -/
lemma ForkIn.self (h : ForkIn shared s) (he : s.status e = .runnable) (hout : s.fault e = .out)
    (hat : s.fork e = .dupSelf c pn) (hnow : s.space e pn = some now) :
    ForkIn shared ((s.map now.frame e pn permCow).setFork e (.copy c (pn + 1))) := by
  obtain ⟨hpn, hlt, now', hnow', hpriv, hkind⟩ := (h.env e).dupSelf c pn hat
  obtain rfl := Option.some.inj (hnow.symm.trans hnow')
  have hb : Builds s e c := by
    unfold Builds
    rw [hat]
    rfl
  have hready := (h.env e).ready (by rw [hat]; simp) (by rw [hat]; simp)
  have hne : s.fault e ≠ .unmap := by rw [hout]; simp
  have hset : ∀ j, j ≠ pn → s.space.set e pn (some ⟨now.frame, permCow⟩) e j = s.space e j :=
    fun j hj => Spaces.set_of_page_ne hj
  have hcow : (some (⟨now.frame, permCow⟩ : Pte)).bind (fun p => if p.shared then some p.frame else none) = none := by
    rw [Option.bind_some, if_neg]
    unfold Pte.shared
    rw [perm_flags.2.2.2.2.1]
    exact Bool.false_ne_true
  -- the page is protected first, and the loop goes on in a second step
  have hmid : ForkIn shared (s.map now.frame e pn permCow) := by
    refine h.forked (k := none) he (h.sharing.protect hnow hpn hne hpriv hkind) (fun _ _ => rfl)
      (fun j hj _ => ⟨rfl, rfl, rfl, Spaces.set_of_ne hj⟩) ?_ hout
      (fun c hc => absurd hc (Option.some_ne_none c).symm) (fun c' hb' => ?_) (fun _ _ => rfl)
    · exact
        { h.env e with
          free := fun hfree => absurd (he.symm.trans hfree) (by decide)
          noStack := fun hh => absurd (hready.symm.trans hh) (by decide)
          temp := fun ht => by
            dsimp only [ForkState.map]
            rw [hset _ (fun hc => hpn (.inr hc.symm))]
            exact (h.env e).temp ht
          faulting := fun pn' heq => by
            have heq : (s.fault e).page = some pn' := heq
            rw [hout] at heq
            exact absurd heq (by simp [FaultPc.page])
          dup := fun c' pn' pte heq => by
            have heq : s.fork e = .dup c' pn' pte := heq
            rw [hat] at heq
            exact absurd heq (by simp)
          dupSelf := fun c' pn' heq => by
            have heq : s.fork e = .dupSelf c' pn' := heq
            rw [hat] at heq
            obtain ⟨-, rfl⟩ := ForkPc.dupSelf.inj heq
            refine ⟨hpn, hlt, ⟨now.frame, permCow⟩, Spaces.set_self, ?_, .inl ?_⟩
            · exact perm_flags.2.2.2.2.1
            · exact perm_flags.2.2.2.2.2.1
          family := fun hr j => by
            dsimp only [ForkState.map]
            rw [family_set (by rw [hcow, shared_private hnow hpriv])]
            exact (h.env e).family hr j }
    · have hb' : Builds s e c' := hb'
      obtain ⟨hst, hh, hsp⟩ := h.child e c' hb'
      refine ⟨.inr hb', hst, hh, fun j => ?_⟩
      dsimp only [ForkState.map]
      rw [Spaces.set_of_ne (h.child_ne he hb')]
      exact hsp j
  refine hmid.skipped he hout (by dsimp only [ForkState.map]; rw [hat]; rfl)
    (by dsimp only [ForkState.map]; rw [hat]; rfl) hlt (fun p hp hown => ?_) ?_ hready
  · dsimp only [ForkState.map] at hp
    rw [Spaces.set_self] at hp
    obtain rfl := Option.some.inj hp
    have hw : has permCow pteW = true := hown.1
    rw [perm_flags.2.2.2.1] at hw
    exact absurd hw Bool.false_ne_true
  · rw [← (h.env e).family he pn, shared_private hnow hpriv]

/-- `set_pgfault_handler` allocates the exception stack. -/
lemma ForkIn.handlerSet (h : ForkIn shared s) (he : s.status e = .runnable) (hout : s.fault e = .out)
    (hat : s.fork e = .handler) :
    ForkIn shared ({ s.alloc e uxstackPage with
      handler := Function.update s.handler e true }.setFork e .setUpcall) := by
  have hnone := (h.env e).noStack ((h.env e).pending hat)
  have hset : ∀ j, j ≠ uxstackPage → s.space.set e uxstackPage (some ⟨s.next, permRw⟩) e j = s.space e j :=
    fun j hj => Spaces.set_of_page_ne hj
  refine h.forked (k := none) he ?_ (fun j hj => Function.update_of_ne hj _ _)
    (fun j hj _ => ⟨rfl, rfl, Function.update_of_ne hj _ _, Spaces.set_of_ne hj⟩) ?_ hout
    (fun c hc => absurd hc (Option.some_ne_none c).symm) (fun c hb => ?_) (fun f hf => ?_)
  · dsimp only [ForkState.setFork, ForkState.alloc]
    exact h.sharing_alloc (by rw [hat]; rfl) (by rw [hat]; rfl) (by decide)
  · dsimp only [ForkState.setFork, ForkState.alloc]
    rw [Function.update_self, Function.update_self]
    exact
      { h.env e with
        free := fun hfree => absurd (he.symm.trans hfree) (by decide)
        idle := fun hne => absurd he hne
        noStack := fun hh => absurd hh (by decide)
        ready := fun _ _ => rfl
        pending := fun heq => absurd heq (by simp)
        pos := Nat.zero_le _
        temp := fun ht => by
          rw [hset _ uxstack_ne_pftemp.symm]
          exact (h.env e).temp ht
        faulting := fun pn' heq => by
          rw [hout] at heq
          exact absurd heq (by simp [FaultPc.page])
        dup := fun c' pn' pte heq => absurd heq (by simp)
        dupSelf := fun c' pn' heq => absurd heq (by simp)
        family := fun hr j => by
          rw [family_set (by rw [shared_rw, shared_none hnone])]
          exact (h.env e).family hr j }
  · unfold Builds at hb
    dsimp only [ForkState.setFork] at hb
    rw [Function.update_self] at hb
    exact absurd hb (Option.some_ne_none c).symm
  · exact Function.update_of_ne (Nat.ne_of_lt hf) _ _

lemma ForkIn.exofork (h : ForkIn shared s) (he : s.status e = .runnable) (hout : s.fault e = .out)
    (hat : s.fork e = .exofork) (hc : s.status c = .free) : ForkIn shared (s.exofork e c) := by
  have hce : c ≠ e := by
    rintro rfl
    exact absurd (he.symm.trans hc) (by decide)
  have hready := (h.env e).ready (by rw [hat]; simp) (by rw [hat]; simp)
  obtain ⟨hcfork, hcfault⟩ := (h.env c).idle (by rw [hc]; decide)
  have hspace : s.space.clear c e = s.space e := Spaces.clear_of_ne (Ne.symm hce)
  refine h.forked (k := some c) he ?_ (fun j hj => ?_) (fun j hj hjc => ?_) ?_ ?_ (fun c' hc' => ?_)
    (fun c' hb => ?_) (fun _ _ => rfl)
  · have hmono : Sharing (s.space.clear c) s.next (fun j => (s.fork j).child) (fun j => (s.fork j).pos)
        (fun j => Function.update s.fault c .out j = .unmap) := by
      refine h.sharing.mono (fun j k p hp => ?_) (fun j hj => .inl ?_)
      · rw [Spaces.clear_apply] at hp
        by_cases hj : j = c
        · rw [if_pos hj] at hp
          exact absurd hp (Option.some_ne_none p).symm
        · rwa [if_neg hj] at hp
      · exact moved_update (by rw [hcfault]; simp) hj
    refine hmono.rebuild (.inl (by rw [hat]; rfl)) ?_ (fun j hj => ?_)
    · dsimp only [ForkState.exofork]
      rw [Function.update_self]
      rfl
    · dsimp only [ForkState.exofork]
      rw [Function.update_of_ne hj]
      by_cases hjc : j = c
      · rw [hjc, Function.update_self, hcfork]
        exact ⟨rfl, rfl⟩
      · rw [Function.update_of_ne hjc]
        exact ⟨rfl, rfl⟩
  · dsimp only [ForkState.exofork]
    rw [Function.update_of_ne hj]
    by_cases hjc : j = c
    · rw [hjc, Function.update_self, hcfork]
    · rw [Function.update_of_ne hjc]
  · have hjc : j ≠ c := fun heq => hjc (by rw [heq])
    exact ⟨Function.update_of_ne hjc _ _, Function.update_of_ne hjc _ _, Function.update_of_ne hjc _ _,
      Spaces.clear_of_ne hjc⟩
  · dsimp only [ForkState.exofork]
    rw [Function.update_self, Function.update_of_ne (Ne.symm hce), Function.update_of_ne (Ne.symm hce),
      Function.update_of_ne (Ne.symm hce), hspace]
    exact (h.env e).turn he (fun _ _ => hready) (fun heq => absurd heq (by simp)) (Nat.zero_le _)
      (fun _ _ _ => by simp) (fun _ _ => by simp)
  · dsimp only [ForkState.exofork]
    rw [Function.update_of_ne (Ne.symm hce)]
    exact hout
  · obtain rfl := Option.some.inj hc'
    refine ⟨.inl hc, Function.update_self _ _ _, ?_⟩
    dsimp only [ForkState.exofork]
    rw [Function.update_self, Function.update_of_ne hce, Function.update_self, Function.update_self,
      Function.update_self, hready]
    apply EnvIn.waiting
    rw [Spaces.clear_apply, if_pos rfl]
  · unfold Builds at hb
    dsimp only [ForkState.exofork] at hb ⊢
    rw [Function.update_self] at hb ⊢
    obtain rfl : c = c' := Option.some.inj hb
    refine ⟨.inl hc, Function.update_self _ _ _, ?_, fun j => ?_⟩
    · rw [Function.update_self]
      exact hready
    · rw [shared_none (by rw [Spaces.clear_apply, if_pos rfl])]
      exact (if_neg (Nat.not_lt_zero j)).symm

/-- The exception stack of the child. -/
lemma ForkIn.stack (h : ForkIn shared s) (he : s.status e = .runnable) (hout : s.fault e = .out)
    (hat : s.fork e = .copy c utopPage) :
    ForkIn shared ((s.alloc c uxstackPage).setFork e (.upcall c)) := by
  have hb : Builds s e c := by
    unfold Builds
    rw [hat]
    rfl
  have hce := h.child_ne he hb
  obtain ⟨hcst, hch, hcsp⟩ := h.child e c hb
  obtain ⟨hcfork, hcfault⟩ := (h.env c).idle (by rw [hcst]; decide)
  have hspace : s.space.set c uxstackPage (some ⟨s.next, permRw⟩) e = s.space e := Spaces.set_of_ne (Ne.symm hce)
  have hnone : shared uxstackPage = none := by
    rw [← (h.env e).family he uxstackPage]
    cases hp : s.space e uxstackPage with
    | none => exact shared_none hp
    | some p =>
      have hperm := (h.sharing.alone hp (.inl rfl)).1
      exact shared_private hp (by unfold Pte.shared; rw [hperm]; exact perm_flags.2.1)
  refine h.forked (k := some c) he ?_ (fun j hj => Function.update_of_ne hj _ _) (fun j _ hjc => ?_) ?_ hout
    (fun c' hc' => ?_) (fun c' hb' => ?_) (fun f hf => Function.update_of_ne (Nat.ne_of_lt hf) _ _)
  · dsimp only [ForkState.setFork, ForkState.alloc]
    exact h.sharing_alloc (by rw [hat]; rfl) (by rw [hat]; rfl) (by decide)
  · exact ⟨rfl, rfl, rfl, Spaces.set_of_ne (fun hc => hjc (by rw [hc]))⟩
  · dsimp only [ForkState.setFork, ForkState.alloc]
    rw [Function.update_self, hspace]
    exact (h.env e).turn he (fun _ _ => (h.env e).ready (by rw [hat]; simp) (by rw [hat]; simp))
      (fun heq => absurd heq (by simp)) le_rfl (fun _ _ _ => by simp) (fun _ _ => by simp)
  · obtain rfl := Option.some.inj hc'
    refine ⟨.inr hb, hcfault, ?_⟩
    dsimp only [ForkState.setFork, ForkState.alloc]
    rw [Function.update_of_ne hce, hcst, hcfork, hcfault, hch]
    apply EnvIn.waiting
    rw [Spaces.set_of_page_ne uxstack_ne_pftemp.symm]
    exact (h.env c).temp (by rw [hcfault]; rfl)
  · unfold Builds at hb'
    dsimp only [ForkState.setFork, ForkState.alloc] at hb' ⊢
    rw [Function.update_self] at hb' ⊢
    obtain rfl : c = c' := Option.some.inj hb'
    refine ⟨.inr hb, hcst, hch, fun j => ?_⟩
    rw [sharedFrame_set, shared_rw]
    by_cases hj : j = uxstackPage
    · rw [if_pos ⟨rfl, hj⟩, hj]
      exact ((if_pos (show uxstackPage < utopPage by decide)).trans hnone).symm
    · rw [if_neg (fun hc => hj hc.2), hcsp j, hat]
      rfl

lemma ForkIn.upcall (h : ForkIn shared s) (he : s.status e = .runnable) (hout : s.fault e = .out)
    (hat : s.fork e = .upcall c) : ForkIn shared (s.setFork e (.status c)) := by
  refine h.turned he hout (by rw [hat]; rfl) ?_ ?_ (fun c' hc' j hj => ?_) (by rw [hat]; exact le_rfl)
  · rw [pos_update (by rw [hat]; rfl)]
    exact h.sharing
  · exact (h.env e).turn he (fun _ _ => (h.env e).ready (by rw [hat]; simp) (by rw [hat]; simp))
      (fun heq => absurd heq (by simp)) le_rfl (fun _ _ _ => by simp) (fun _ _ => by simp)
  · rw [hat] at hj
    exact absurd hj.1 hj.2

/-- The child may run. -/
lemma ForkIn.runs (h : ForkIn shared s) (he : s.status e = .runnable) (hout : s.fault e = .out)
    (hat : s.fork e = .status c) :
    ForkIn shared ({ s with status := Function.update s.status c .runnable }.setFork e .out) := by
  have hb : Builds s e c := by
    unfold Builds
    rw [hat]
    rfl
  have hce := h.child_ne he hb
  obtain ⟨hcst, hch, hcsp⟩ := h.child e c hb
  obtain ⟨hcfork, hcfault⟩ := (h.env c).idle (by rw [hcst]; decide)
  refine h.forked (k := some c) he ?_ (fun j hj => Function.update_of_ne hj _ _) (fun j _ hjc => ?_) ?_ hout
    (fun c' hc' => ?_) (fun c' hb' => ?_) (fun _ _ => rfl)
  · refine h.sharing.rebuild (.inr (.inl (by rw [hat]; exact le_rfl))) ?_ (fun j hj => ?_)
    · dsimp only [ForkState.setFork]
      rw [Function.update_self]
      rfl
    · dsimp only [ForkState.setFork]
      rw [Function.update_of_ne hj]
      exact ⟨rfl, rfl⟩
  · exact ⟨Function.update_of_ne (fun hc => hjc (by rw [hc])) _ _, rfl, rfl, rfl⟩
  · dsimp only [ForkState.setFork]
    rw [Function.update_self, Function.update_of_ne (Ne.symm hce)]
    exact (h.env e).turn he (fun heq => absurd rfl heq) (fun heq => absurd heq (by simp)) (Nat.zero_le _)
      (fun _ _ _ => by simp) (fun _ _ => by simp)
  · obtain rfl := Option.some.inj hc'
    refine ⟨.inr hb, hcfault, ?_⟩
    dsimp only [ForkState.setFork]
    rw [Function.update_of_ne hce, Function.update_self]
    refine { h.env c with
      free := fun hfree => absurd hfree (by decide)
      idle := fun hne => absurd rfl hne
      family := fun _ j => ?_ }
    rw [hcsp j, hat]
    unfold sharedBelow
    by_cases hj : j < utopPage
    · exact if_pos hj
    · rw [if_neg (by exact hj), ← (h.env e).family he j]
      cases hp : s.space e j with
      | none => exact (shared_none hp).symm
      | some p => exact absurd (h.sharing.frames hp).2 hj
  · unfold Builds at hb'
    dsimp only [ForkState.setFork] at hb'
    rw [Function.update_self] at hb'
    exact absurd hb' (Option.some_ne_none c').symm

lemma ForkIn.exit (h : ForkIn shared s) (he : s.status e = .runnable) : ForkIn shared (s.exit e) := by
  refine h.forked (k := none) he ?_ (fun j hj => Function.update_of_ne hj _ _) (fun j hj _ => ?_) ?_
    (Function.update_self _ _ _) (fun c hc => absurd hc (Option.some_ne_none c).symm) (fun c hb => ?_)
    (fun _ _ => rfl)
  · have hmono : Sharing (s.space.clear e) s.next (fun j => (s.fork j).child) (fun j => (s.fork j).pos)
        (fun j => Function.update s.fault e .out j = .unmap) := by
      refine h.sharing.mono (fun j k p hp => ?_) (fun j hj => ?_)
      · rw [Spaces.clear_apply] at hp
        by_cases hj : j = e
        · rw [if_pos hj] at hp
          exact absurd hp (Option.some_ne_none p).symm
        · rwa [if_neg hj] at hp
      · by_cases hje : j = e
        · exact .inr (by rw [Spaces.clear_apply, if_pos hje])
        · exact .inl (by rw [Function.update_of_ne hje]; exact hj)
    refine hmono.rebuild (e := e) (.inr (.inr ?_)) ?_ (fun j hj => ?_)
    · funext k
      rw [Spaces.clear_apply, if_pos rfl]
    · dsimp only [ForkState.exit]
      rw [Function.update_self]
      rfl
    · dsimp only [ForkState.exit]
      rw [Function.update_of_ne hj]
      exact ⟨rfl, rfl⟩
  · exact ⟨Function.update_of_ne hj _ _, Function.update_of_ne hj _ _, rfl, Spaces.clear_of_ne hj⟩
  · have hspace : s.space.clear e e = fun _ => none := by
      funext k
      rw [Spaces.clear_apply, if_pos rfl]
    dsimp only [ForkState.exit]
    rw [Function.update_self, Function.update_self, Function.update_self, hspace]
    exact
      { free := fun _ => rfl
        idle := fun _ => ⟨rfl, rfl⟩
        noStack := fun _ => rfl
        ready := fun hne => absurd rfl hne
        pending := fun heq => absurd heq (by simp)
        pos := Nat.zero_le _
        temp := fun _ => rfl
        faulting := fun pn heq => absurd heq (by simp [FaultPc.page])
        dup := fun c pn pte heq => absurd heq (by simp)
        dupSelf := fun c pn heq => absurd heq (by simp)
        family := fun hr => absurd hr (by decide) }
  · unfold Builds at hb
    dsimp only [ForkState.exit] at hb
    rw [Function.update_self] at hb
    exact absurd hb (Option.some_ne_none c).symm

lemma ForkIn.copyStep (h : ForkIn shared s) (he : s.status e = .runnable) (hout : s.fault e = .out)
    (hst : CopyStep s e t) : ForkIn shared t := by
  cases hst with
  | start hat =>
    refine h.outside he hout (by rw [hat]; rfl) (by rw [hat]; rfl) ?_ ?_ ?_ ?_ ?_ ?_
    all_goals cases hh : s.handler e <;> simp [ForkPc.child, ForkPc.pos]
  | handler hat => exact h.handlerSet he hout hat
  | setUpcall hat =>
    have hready := (h.env e).ready (by rw [hat]; simp) (by rw [hat]; simp)
    have hturn : ForkIn shared (s.setFork e .exofork) :=
      h.outside he hout (by rw [hat]; rfl) (by rw [hat]; rfl) rfl rfl (fun _ _ => hready)
        (fun heq => absurd heq (by simp)) (fun _ _ _ => by simp) (fun _ _ => by simp)
    exact ⟨hturn.sharing, hturn.env, hturn.copied, hturn.child, hturn.unique⟩
  | exofork hat hc => exact h.exofork he hout hat hc
  | skip hat hpn hskip => exact h.skip he hout hat hpn hskip
  | read hat hpn hne hp => exact h.read he hout hat hpn hne hp
  | @share c pn pte now hat hshare hp hw =>
    obtain ⟨-, -, now', hnow', hor⟩ := (h.env e).dup c pn pte hat
    obtain rfl := Option.some.inj (hp.symm.trans hnow')
    have heq : now = pte := by
      rcases hor with heq | ⟨hns, -⟩
      · exact heq
      · rw [hshare] at hns
        exact absurd hns (by decide)
    have hflag : ∀ k, pteSyscall &&& k = k → has (pte.perm &&& pteSyscall) k = has pte.perm k :=
      fun k hk => has_syscall hk
    have hcow : pte.cow = false := h.sharing.kinds (heq ▸ hp) hshare
    refine h.lent he hout hat hp rfl ?_ (fun hxw => ⟨hw hxw, ?_⟩) (fun hxc => ?_) (.inr ⟨rfl, fun hown => ?_⟩)
    · rw [heq]
      exact hflag pteShare (by decide)
    · exact (hflag pteShare (by decide)).trans hshare
    · have hxc : has pte.perm pteCow = true := (hflag pteCow (by decide)).symm.trans hxc
      exact absurd (hxc.symm.trans hcow) (by decide)
    · rw [heq] at hown
      exact absurd (hshare.symm.trans hown.2) (by decide)
  | @cow c pn pte now hat hshare hcow hp =>
    obtain ⟨-, -, now', hnow', hor⟩ := (h.env e).dup c pn pte hat
    obtain rfl := Option.some.inj (hp.symm.trans hnow')
    have hnow : now.shared = false ∧ (now.cow = true ∨ now.writable = true) := by
      rcases hor with rfl | ⟨-, -, hperm⟩
      · exact ⟨hshare, hcow⟩
      · unfold Pte.shared Pte.writable
        rw [hperm]
        exact ⟨perm_flags.2.1, .inr perm_flags.1⟩
    have hns : (⟨now.frame, permCow⟩ : Pte).shared = false := perm_flags.2.2.2.2.1
    refine h.lent he hout hat hp rfl ?_ (fun hxw => ?_) (fun _ => ⟨hns, hnow.2⟩) (.inl ⟨rfl, hnow⟩)
    · rw [hnow.1]
      exact hns
    · have hxw : has permCow pteW = true := hxw
      rw [perm_flags.2.2.2.1] at hxw
      exact absurd hxw (by decide)
  | self hat hp => exact h.self he hout hat hp
  | @readOnly c pn pte now hat hshare hcow hro hp =>
    obtain ⟨-, -, now', hnow', hor⟩ := (h.env e).dup c pn pte hat
    obtain rfl := Option.some.inj (hp.symm.trans hnow')
    have heq : now = pte := by
      rcases hor with heq | ⟨-, hc, -⟩
      · exact heq
      · rw [hcow] at hc
        exact absurd hc (by decide)
    refine h.lent he hout hat hp rfl ?_ (fun hxw => ?_) (fun hxc => ?_) (.inr ⟨rfl, fun hown => ?_⟩)
    · rw [heq, hshare]
      exact perm_flags.2.2.2.2.2.2.2.1
    · have hxw : has permRo pteW = true := hxw
      rw [perm_flags.2.2.2.2.2.2.1] at hxw
      exact absurd hxw (by decide)
    · have hxc : has permRo pteCow = true := hxc
      rw [perm_flags.2.2.2.2.2.2.2.2] at hxc
      exact absurd hxc (by decide)
    · rw [heq] at hown
      exact absurd (hro.symm.trans hown.1) (by decide)
  | stack hat => exact h.stack he hout hat
  | upcall hat =>
    have hturn := h.upcall he hout hat
    exact ⟨hturn.sharing, hturn.env, hturn.copied, hturn.child, hturn.unique⟩
  | status hat => exact h.runs he hout hat

/-- A byte is written through a mapping that allows it. -/
lemma ForkIn.stored {off : ℕ} {b : Byte} (h : ForkIn shared s) (hrun : s.status e = .runnable)
    (hout : s.fault e = .out ∨ pn = uxstackPage) (hp : s.space e pn = some pte) (hw : pte.writable = true) :
    ForkIn shared (s.store pte.frame off b) := by
  refine ⟨h.sharing, h.env, fun j pn' old new hpc hold hnew => ?_, h.child, h.unique⟩
  obtain ⟨old', hold', how, hoc⟩ := (h.env j).faulting pn' (by rw [show s.fault j = .map pn' from hpc]; rfl)
  obtain rfl := Option.some.inj (hold.symm.trans hold')
  have hjrun : s.status j = .runnable := by
    by_contra hne
    have hidle := ((h.env j).idle hne).2
    rw [show s.fault j = .map pn' from hpc] at hidle
    exact absurd hidle (by simp)
  have holdf : old.frame ≠ pte.frame := by
    intro heq
    by_cases hs : pte.shared = true
    · rcases h.sharing.mixed hp hold heq hs hw with hs' | ⟨-, hc'⟩
      · exact absurd ((h.sharing.kinds hold hs').symm.trans hoc) (by decide)
      · exact absurd (hc'.symm.trans hoc) (by decide)
    · by_cases hje : j = e
      · subst hje
        rcases hout with hout | hux
        · exact absurd (hpc.symm.trans hout) (by simp)
        · obtain ⟨-, hk⟩ := (h.sharing.alone hp (.inl hux)).2 hold heq
          have hord := h.ordinary hold how
          rcases hk with hk | ⟨hk, -⟩
          · exact hord (.inl (hk.trans hux))
          · exact uxstack_ne_pftemp (hux.symm.trans hk)
      · have hb := (h.sharing.exclusive hp ⟨hw, by rwa [Bool.not_eq_true] at hs⟩ hold heq hje).1
        exact h.not_built hjrun e hb
  have hnewf : new.frame ≠ pte.frame := by
    intro heq
    obtain ⟨rfl, hk⟩ := (h.sharing.alone hnew (.inr rfl)).2 hp heq.symm
    rcases hk with hk | ⟨-, hm⟩
    · rcases hout with hout | hux
      · exact absurd (hpc.symm.trans hout) (by simp)
      · exact uxstack_ne_pftemp (hux.symm.trans hk)
    · exact absurd (hpc.symm.trans hm) (by simp)
  dsimp only [ForkState.store]
  rw [Function.update_of_ne holdf, Function.update_of_ne hnewf]
  exact h.copied j pn' old new hpc hold hnew

lemma ForkIn.step {ev : ForkEvent ι} (h : ForkIn shared s) (hst : Step s ev t) : ForkIn shared t := by
  cases hst with
  | write b hrun hout hp hw => exact h.stored hrun hout hp hw
  | pgfault hrun hst => exact h.faultStep hrun hst
  | fork hrun hout hst => exact h.copyStep hrun hout hst
  | exit hrun => exact h.exit hrun

end SistemasOperativos.Lib.Fork
