import SistemasOperativos.Lib.Fork

/-!
# The invariant of copy-on-write fork

What holds while the system calls of `fork` and `pgfault` and the writes of all environments interleave, and
that the steps of `pgfault` keep it.
-/

namespace SistemasOperativos.Lib.Fork

open Library
open Kern (Word Byte pteP pteW pteU pteSyscall has EnvStatus)

variable {ι : Type}

/-- The child an environment builds. -/
def ForkPc.child : ForkPc ι → Option ι
  | .copy c _ => some c
  | .dup c _ _ => some c
  | .dupSelf c _ => some c
  | .upcall c => some c
  | .status c => some c
  | _ => none

/-- The pages below it have been copied. -/
def ForkPc.pos : ForkPc ι → ℕ
  | .copy _ pn => pn
  | .dup _ pn _ => pn
  | .dupSelf _ pn => pn
  | .upcall _ => utopPage
  | .status _ => utopPage
  | _ => 0

/-- The page `pgfault` has not replaced yet. -/
def FaultPc.page : FaultPc → Option ℕ
  | .alloc pn => some pn
  | .copy pn => some pn
  | .map pn => some pn
  | _ => none

/-- `PFTEMP` is in use. -/
def FaultPc.temp : FaultPc → Bool
  | .copy _ => true
  | .map _ => true
  | .unmap => true
  | _ => false

/-- What an environment knows of itself, when the parent had the frames `shared` with `PTE_SHARE`. -/
structure EnvIn (shared : ℕ → Option ℕ) (status : EnvStatus) (fork : ForkPc ι) (fault : FaultPc) (handler : Bool)
    (space : ℕ → Option Pte) : Prop where
  free : status = .free → space = fun _ => none
  idle : status ≠ .runnable → fork = .out ∧ fault = .out
  noStack : handler = false → space uxstackPage = none
  ready : fork ≠ .out → fork ≠ .handler → handler = true
  pending : fork = .handler → handler = false
  pos : fork.pos ≤ utopPage
  temp : fault.temp = false → space pftempPage = none
  faulting : ∀ pn, fault.page = some pn → ∃ old, space pn = some old ∧ old.writable = false ∧ old.cow = true
  dup : ∀ c pn pte, fork = .dup c pn pte → ¬special pn ∧ pn < utopPage ∧ ∃ now, space pn = some now ∧
    (now = pte ∨ (pte.shared = false ∧ pte.cow = true ∧ now.perm = permRw))
  dupSelf : ∀ c pn, fork = .dupSelf c pn → ¬special pn ∧ pn < utopPage ∧ ∃ now, space pn = some now ∧
    now.shared = false ∧ (now.cow = true ∨ now.writable = true)
  family : status = .runnable → ∀ pn, sharedFrame space pn = shared pn

/-- What the child has of the frames `shared` when its pages below `pos` have been copied. -/
def sharedBelow (shared : ℕ → Option ℕ) (pos pn : ℕ) : Option ℕ := if pn < pos then shared pn else none

def Builds (s : ForkState ι) (e c : ι) : Prop := (s.fork e).child = some c

structure ForkIn (shared : ℕ → Option ℕ) (s : ForkState ι) : Prop where
  sharing : Sharing s.space s.next (fun e => (s.fork e).child) (fun e => (s.fork e).pos) (fun e => s.fault e = .unmap)
  env : ∀ e, EnvIn shared (s.status e) (s.fork e) (s.fault e) (s.handler e) (s.space e)
  /-- `memmove` has copied the page -/
  copied : ∀ e pn old new, s.fault e = .map pn → s.space e pn = some old → s.space e pftempPage = some new →
    s.mem new.frame = s.mem old.frame
  child : ∀ e c, Builds s e c → s.status c = .notRunnable ∧ s.handler c = true ∧
    ∀ pn, sharedFrame (s.space c) pn = sharedBelow shared (s.fork e).pos pn
  unique : ∀ e j c, Builds s e c → Builds s j c → e = j

variable {shared : ℕ → Option ℕ} {status : EnvStatus} {fork pc : ForkPc ι} {fault : FaultPc} {handler : Bool}
  {space : ℕ → Option Pte} {s t : ForkState ι} {e c : ι} {k : Option ι} {pn : ℕ}

lemma EnvIn.turn (h : EnvIn shared status fork fault handler space) (hrun : status = .runnable)
    (hready : pc ≠ .out → pc ≠ .handler → handler = true) (hpending : pc = .handler → handler = false)
    (hpos : pc.pos ≤ utopPage) (hdup : ∀ c pn pte, pc ≠ .dup c pn pte) (hself : ∀ c pn, pc ≠ .dupSelf c pn) :
    EnvIn shared status pc fault handler space :=
  { h with
    idle := fun hne => absurd hrun hne
    ready := hready
    pending := hpending
    pos := hpos
    dup := fun c pn pte heq => absurd heq (hdup c pn pte)
    dupSelf := fun c pn heq => absurd heq (hself c pn) }

namespace ForkIn

lemma not_built (h : ForkIn shared s) (he : s.status e = .runnable) (j : ι) : (s.fork j).child ≠ some e := by
  intro hb
  have hst := (h.child j e hb).1
  rw [he] at hst
  exact absurd hst (by decide)

lemma child_ne (h : ForkIn shared s) (he : s.status e = .runnable) (hb : Builds s e c) : c ≠ e := by
  rintro rfl
  exact h.not_built he c hb

/-- A step of `fork` or an exit: it changes the environment itself and perhaps one that it builds. -/
lemma forked (h : ForkIn shared s) (he : s.status e = .runnable)
    (hsharing : Sharing t.space t.next (fun e => (t.fork e).child) (fun e => (t.fork e).pos)
      (fun e => t.fault e = .unmap))
    (hfork : ∀ j, j ≠ e → t.fork j = s.fork j)
    (hother : ∀ j, j ≠ e → k ≠ some j → t.status j = s.status j ∧ t.fault j = s.fault j ∧
      t.handler j = s.handler j ∧ t.space j = s.space j)
    (hself : EnvIn shared (t.status e) (t.fork e) (t.fault e) (t.handler e) (t.space e)) (hout : t.fault e = .out)
    (hk : ∀ c, k = some c → (s.status c = .free ∨ Builds s e c) ∧ t.fault c = .out ∧
      EnvIn shared (t.status c) (t.fork c) (t.fault c) (t.handler c) (t.space c))
    (hbuilds : ∀ c, Builds t e c → (s.status c = .free ∨ Builds s e c) ∧ t.status c = .notRunnable ∧
      t.handler c = true ∧ ∀ pn, sharedFrame (t.space c) pn = sharedBelow shared (t.fork e).pos pn)
    (hmem : ∀ f, f < s.next → t.mem f = s.mem f) : ForkIn shared t := by
  have hkeep : ∀ j c, j ≠ e → Builds t j c → Builds s j c ∧ c ≠ e ∧ k ≠ some c := by
    intro j c hj hb
    have hb : Builds s j c := by
      unfold Builds at hb ⊢
      rwa [hfork j hj] at hb
    refine ⟨hb, fun hc => h.not_built he j (hc ▸ hb), fun hc => ?_⟩
    rcases (hk c hc).1 with hfree | hb'
    · rw [(h.child j c hb).1] at hfree
      exact absurd hfree (by decide)
    · exact hj (h.unique j e c hb hb')
  refine ⟨hsharing, fun j => ?_, fun j pn old new hfault hold hnew => ?_, fun j c hb => ?_, fun i j c hi hj => ?_⟩
  · by_cases hj : j = e
    · rw [hj]
      exact hself
    by_cases hjk : k = some j
    · exact (hk j hjk).2.2
    · obtain ⟨hst, hfa, hha, hsp⟩ := hother j hj hjk
      rw [hst, hfa, hha, hsp, hfork j hj]
      exact h.env j
  · have hj : j ≠ e := by
      rintro rfl
      rw [hout] at hfault
      exact absurd hfault (by simp)
    have hjk : k ≠ some j := by
      intro hc
      rw [(hk j hc).2.1] at hfault
      exact absurd hfault (by simp)
    obtain ⟨-, hfa, -, hsp⟩ := hother j hj hjk
    rw [hfa] at hfault
    rw [hsp] at hold hnew
    rw [hmem _ (h.sharing.frames hold).1, hmem _ (h.sharing.frames hnew).1]
    exact h.copied j pn old new hfault hold hnew
  · by_cases hj : j = e
    · subst hj
      exact (hbuilds c hb).2
    · obtain ⟨hb', hce, hck⟩ := hkeep j c hj hb
      obtain ⟨hst, -, hha, hsp⟩ := hother c hce hck
      rw [hst, hha, hsp, hfork j hj]
      exact h.child j c hb'
  · have hone : ∀ j, j ≠ e → Builds t e c → Builds t j c → False := by
      intro j hj hbe hbj
      obtain ⟨hb', hce, hck⟩ := hkeep j c hj hbj
      rcases (hbuilds c hbe).1 with hfree | hbe'
      · rw [(h.child j c hb').1] at hfree
        exact absurd hfree (by decide)
      · exact hj (h.unique j e c hb' hbe')
    by_cases hie : i = e
    · by_cases hje : j = e
      · rw [hie, hje]
      · exact (hone j hje (hie ▸ hi) hj).elim
    · by_cases hje : j = e
      · exact (hone i hie (hje ▸ hj) hi).elim
      · exact h.unique i j c (hkeep i c hie hi).1 (hkeep j c hje hj).1

/-- A step of `pgfault`: it changes the environment itself. -/
lemma faulted (h : ForkIn shared s) (he : s.status e = .runnable)
    (hsharing : Sharing t.space t.next (fun e => (t.fork e).child) (fun e => (t.fork e).pos)
      (fun e => t.fault e = .unmap))
    (hst : t.status = s.status) (hfork : t.fork = s.fork) (hhandler : t.handler = s.handler)
    (hfault : ∀ j, j ≠ e → t.fault j = s.fault j) (hspace : ∀ j, j ≠ e → t.space j = s.space j)
    (hself : EnvIn shared (s.status e) (s.fork e) (t.fault e) (s.handler e) (t.space e))
    (hcopied : ∀ pn old new, t.fault e = .map pn → t.space e pn = some old → t.space e pftempPage = some new →
      t.mem new.frame = t.mem old.frame)
    (hmem : ∀ j pn p, j ≠ e → s.space j pn = some p → t.mem p.frame = s.mem p.frame) : ForkIn shared t := by
  refine ⟨hsharing, fun j => ?_, fun j pn old new hpc hold hnew => ?_, fun j c hb => ?_, fun i j c hi hj => ?_⟩
  · rw [hst, hfork, hhandler]
    by_cases hj : j = e
    · rw [hj]
      exact hself
    · rw [hfault j hj, hspace j hj]
      exact h.env j
  · by_cases hj : j = e
    · subst hj
      exact hcopied pn old new hpc hold hnew
    · rw [hfault j hj] at hpc
      rw [hspace j hj] at hold hnew
      rw [hmem j _ _ hj hold, hmem j _ _ hj hnew]
      exact h.copied j pn old new hpc hold hnew
  · have hb' : Builds s j c := by
      unfold Builds at hb ⊢
      rwa [hfork] at hb
    have hce : c ≠ e := fun hc => h.not_built he j (hc ▸ hb')
    rw [hst, hhandler, hspace c hce, hfork]
    exact h.child j c hb'
  · unfold Builds at hi hj
    rw [hfork] at hi hj
    exact h.unique i j c hi hj

end ForkIn

/-! ### Page faults -/

variable {pte old new now x : Pte} {S : Spaces ι}

lemma family_set [DecidableEq ι] {y : Option Pte}
    (hsame : y.bind (fun p => if p.shared then some p.frame else none) = sharedFrame (S e) pn) (j : ℕ) :
    sharedFrame (S.set e pn y e) j = sharedFrame (S e) j := by
  rw [sharedFrame_set]
  by_cases hj : j = pn
  · rw [if_pos ⟨rfl, hj⟩, hj, hsame]
  · rw [if_neg (fun hc => hj hc.2)]

lemma shared_rw {f : ℕ} :
    (some (⟨f, permRw⟩ : Pte)).bind (fun p => if p.shared then some p.frame else none) = none := by
  rw [Option.bind_some, if_neg]
  rw [Pte.own_rw.2]
  exact Bool.false_ne_true

lemma shared_private (hp : space pn = some pte) (hs : pte.shared = false) : sharedFrame space pn = none := by
  unfold sharedFrame
  rw [hp, Option.bind_some, if_neg (by rw [hs]; exact Bool.false_ne_true)]

lemma shared_none (hp : space pn = none) : sharedFrame space pn = none := by
  unfold sharedFrame
  rw [hp]
  rfl

/-- A page that is mapped copy-on-write is neither an exception stack nor at `PFTEMP`. -/
lemma ForkIn.ordinary (h : ForkIn shared s) (hold : s.space e pn = some old) (hw : old.writable = false) :
    ¬special pn := by
  intro hs
  have hperm := (h.sharing.alone hold hs).1
  unfold Pte.writable at hw
  rw [hperm, perm_flags.1] at hw
  exact Bool.false_ne_true hw.symm

lemma moved_update [DecidableEq ι] {f : ι → FaultPc} {fpc : FaultPc} (hne : f e ≠ .unmap) {j : ι}
    (hj : f j = .unmap) : Function.update f e fpc j = .unmap := by
  rw [Function.update_of_ne]
  · exact hj
  · rintro rfl
    exact hne hj

section Steps

variable [DecidableEq ι]

lemma ForkIn.faultStart (h : ForkIn shared s) (he : s.status e = .runnable) (hout : s.fault e = .out)
    (hp : s.space e pn = some pte) (hw : pte.writable = false) (hcow : pte.cow = true) :
    ForkIn shared (s.setFault e (.alloc pn)) := by
  have hself : EnvIn shared (s.status e) (s.fork e) (.alloc pn) (s.handler e) (s.space e) :=
    { h.env e with
      idle := fun hne => absurd he hne
      temp := fun _ => (h.env e).temp (by rw [hout]; rfl)
      faulting := fun pn' heq => ⟨pte, by rw [← Option.some.inj heq]; exact hp, hw, hcow⟩ }
  refine h.faulted he ?_ rfl rfl rfl (fun j hj => Function.update_of_ne hj _ _) (fun _ _ => rfl) ?_ ?_
    (fun _ _ _ _ _ => rfl)
  · exact h.sharing.mono (fun _ _ _ hq => hq)
      (fun j hj => .inl (moved_update (by rw [hout]; simp) hj))
  · dsimp only [ForkState.setFault]
    rw [Function.update_self]
    exact hself
  · intro pn' old new hpc
    dsimp only [ForkState.setFault] at hpc
    rw [Function.update_self] at hpc
    exact absurd hpc (by simp)

lemma ForkIn.faultAlloc (h : ForkIn shared s) (he : s.status e = .runnable) (hpc : s.fault e = .alloc pn) :
    ForkIn shared ((s.alloc e pftempPage).setFault e (.copy pn)) := by
  have htemp : s.space e pftempPage = none := (h.env e).temp (by rw [hpc]; rfl)
  have hset : ∀ j, j ≠ pftempPage →
      s.space.set e pftempPage (some ⟨s.next, permRw⟩) e j = s.space e j :=
    fun j hj => Spaces.set_of_page_ne hj
  have hself : EnvIn shared (s.status e) (s.fork e) (.copy pn) (s.handler e)
      (s.space.set e pftempPage (some ⟨s.next, permRw⟩) e) :=
    { h.env e with
      free := fun hfree => absurd (he.symm.trans hfree) (by decide)
      idle := fun hne => absurd he hne
      noStack := fun hh => by
        rw [hset _ uxstack_ne_pftemp]
        exact (h.env e).noStack hh
      temp := fun ht => absurd ht (by simp [FaultPc.temp])
      faulting := fun pn' heq => by
        obtain ⟨old, hold, hw, hcow⟩ := (h.env e).faulting pn' (by rw [hpc, ← heq]; rfl)
        refine ⟨old, ?_, hw, hcow⟩
        rw [hset _ (fun hc => h.ordinary hold hw (.inr hc))]
        exact hold
      dup := fun c' pn' pte heq => by
        obtain ⟨hs, hlt, hnow⟩ := (h.env e).dup c' pn' pte heq
        rw [hset _ (fun hc => hs (.inr hc))]
        exact ⟨hs, hlt, hnow⟩
      dupSelf := fun c' pn' heq => by
        obtain ⟨hs, hlt, hnow⟩ := (h.env e).dupSelf c' pn' heq
        rw [hset _ (fun hc => hs (.inr hc))]
        exact ⟨hs, hlt, hnow⟩
      family := fun hr j => by
        rw [family_set (by rw [shared_rw, shared_none htemp])]
        exact (h.env e).family hr j }
  refine h.faulted he ?_ rfl rfl rfl (fun j hj => Function.update_of_ne hj _ _)
    (fun j hj => Spaces.set_of_ne hj) ?_ ?_ ?_
  · have hne : s.fault e ≠ .unmap := by rw [hpc]; simp
    exact (h.sharing.alloc (by decide)).mono (fun _ _ _ hq => hq) (fun j hj => .inl (moved_update hne hj))
  · dsimp only [ForkState.setFault]
    rw [Function.update_self]
    exact hself
  · intro pn' old new hpc'
    dsimp only [ForkState.setFault] at hpc'
    rw [Function.update_self] at hpc'
    exact absurd hpc' (by simp)
  · intro j pn' p hj hp
    exact Function.update_of_ne (Nat.ne_of_lt (h.sharing.frames hp).1) _ _

lemma ForkIn.faultCopy (h : ForkIn shared s) (he : s.status e = .runnable) (hpc : s.fault e = .copy pn)
    (hold : s.space e pn = some old) (hnew : s.space e pftempPage = some new) :
    ForkIn shared ({ s with mem := Function.update s.mem new.frame (s.mem old.frame) }.setFault e (.map pn)) := by
  have honly : ∀ j k p, s.space j k = some p → (j ≠ e ∨ k ≠ pftempPage) → p.frame ≠ new.frame := by
    intro j k p hp hne heq
    obtain ⟨hj, hk⟩ := (h.sharing.alone hnew (.inr rfl)).2 hp heq
    rcases hk with hk | ⟨-, hm⟩
    · rcases hne with hne | hne
      · exact hne hj
      · exact hne hk
    · rw [hpc] at hm
      exact absurd hm (by simp)
  obtain ⟨old', hold', hw, hcow⟩ := (h.env e).faulting pn (by rw [hpc]; rfl)
  obtain rfl := Option.some.inj (hold.symm.trans hold')
  have hpf : pn ≠ pftempPage := fun hc => h.ordinary hold hw (.inr hc)
  have hself : EnvIn shared (s.status e) (s.fork e) (.map pn) (s.handler e) (s.space e) :=
    { h.env e with
      idle := fun hne => absurd he hne
      temp := fun ht => absurd ht (by simp [FaultPc.temp])
      faulting := fun pn' heq => (h.env e).faulting pn' (by rw [hpc, ← heq]; rfl) }
  refine h.faulted he ?_ rfl rfl rfl (fun j hj => Function.update_of_ne hj _ _) (fun _ _ => rfl) ?_ ?_ ?_
  · exact h.sharing.mono (fun _ _ _ hq => hq) (fun j hj => .inl (moved_update (by rw [hpc]; simp) hj))
  · dsimp only [ForkState.setFault]
    rw [Function.update_self]
    exact hself
  · intro pn' old₁ new₁ hpc' hold₁ hnew₁
    dsimp only [ForkState.setFault] at hpc' hold₁ hnew₁ ⊢
    rw [Function.update_self] at hpc'
    obtain rfl := FaultPc.map.inj hpc'
    obtain rfl := Option.some.inj (hold.symm.trans hold₁)
    obtain rfl := Option.some.inj (hnew.symm.trans hnew₁)
    rw [Function.update_self, Function.update_of_ne (honly e pn old hold (.inr hpf))]
  · intro j pn' p hj hp
    exact Function.update_of_ne (honly j pn' p hp (.inl hj)) _ _

lemma ForkIn.faultMap (h : ForkIn shared s) (he : s.status e = .runnable) (hpc : s.fault e = .map pn)
    (hnew : s.space e pftempPage = some new) : ForkIn shared ((s.map new.frame e pn permRw).setFault e .unmap) := by
  obtain ⟨old, hold, hw, hcow⟩ := (h.env e).faulting pn (by rw [hpc]; rfl)
  have hpn := h.ordinary hold hw
  have hprivate : old.shared = false := by
    by_contra hs
    rw [h.sharing.kinds hold (by rwa [Bool.not_eq_false] at hs)] at hcow
    exact Bool.false_ne_true hcow
  have hset : ∀ j, j ≠ pn → s.space.set e pn (some ⟨new.frame, permRw⟩) e j = s.space e j :=
    fun j hj => Spaces.set_of_page_ne hj
  have hself : EnvIn shared (s.status e) (s.fork e) .unmap (s.handler e)
      (s.space.set e pn (some ⟨new.frame, permRw⟩) e) :=
    { h.env e with
      free := fun hfree => absurd (he.symm.trans hfree) (by decide)
      idle := fun hne => absurd he hne
      noStack := fun hh => by
        rw [hset _ (fun hc => hpn (.inl hc.symm))]
        exact (h.env e).noStack hh
      temp := fun ht => absurd ht (by simp [FaultPc.temp])
      faulting := fun pn' heq => absurd heq (by simp [FaultPc.page])
      dup := fun c' pn' pte heq => by
        obtain ⟨hs, hlt, now, hnow, hor⟩ := (h.env e).dup c' pn' pte heq
        by_cases hat : pn' = pn
        · subst hat
          obtain rfl := Option.some.inj (hold.symm.trans hnow)
          refine ⟨hs, hlt, ⟨new.frame, permRw⟩, Spaces.set_self, .inr ?_⟩
          rcases hor with rfl | ⟨hs', hc', hperm⟩
          · exact ⟨hprivate, hcow, rfl⟩
          · exact ⟨hs', hc', rfl⟩
        · rw [hset _ hat]
          exact ⟨hs, hlt, now, hnow, hor⟩
      dupSelf := fun c' pn' heq => by
        obtain ⟨hs, hlt, now, hnow, hor⟩ := (h.env e).dupSelf c' pn' heq
        by_cases hat : pn' = pn
        · subst hat
          exact ⟨hs, hlt, ⟨new.frame, permRw⟩, Spaces.set_self, Pte.own_rw.2, .inr Pte.own_rw.1⟩
        · rw [hset _ hat]
          exact ⟨hs, hlt, now, hnow, hor⟩
      family := fun hr j => by
        rw [family_set (by rw [shared_rw, shared_private hold hprivate])]
        exact (h.env e).family hr j }
  refine h.faulted he ?_ rfl rfl rfl (fun j hj => Function.update_of_ne hj _ _)
    (fun j hj => Spaces.set_of_ne hj) ?_ ?_ (fun _ _ _ _ _ => rfl)
  · have hne : s.fault e ≠ .unmap := by rw [hpc]; simp
    exact h.sharing.move hnew hne hpn (h.sharing.frames hold).2 (Function.update_self _ _ _)
      (fun j hj => moved_update hne hj)
  · dsimp only [ForkState.setFault]
    rw [Function.update_self]
    exact hself
  · intro pn' old new hpc'
    dsimp only [ForkState.setFault] at hpc'
    rw [Function.update_self] at hpc'
    exact absurd hpc' (by simp)

lemma ForkIn.faultUnmap (h : ForkIn shared s) (he : s.status e = .runnable) :
    ForkIn shared ((s.unmap e pftempPage).setFault e .out) := by
  have hset : ∀ j, j ≠ pftempPage → s.space.set e pftempPage none e j = s.space e j :=
    fun j hj => Spaces.set_of_page_ne hj
  have hnone : (none : Option Pte).bind (fun p => if p.shared then some p.frame else none) =
      sharedFrame (s.space e) pftempPage := by
    cases hp : s.space e pftempPage with
    | none => rw [shared_none hp]; rfl
    | some p =>
      have hperm := (h.sharing.alone hp (.inr rfl)).1
      rw [shared_private hp (by unfold Pte.shared; rw [hperm]; exact perm_flags.2.1)]
      rfl
  have hself : EnvIn shared (s.status e) (s.fork e) .out (s.handler e) (s.space.set e pftempPage none e) :=
    { h.env e with
      free := fun hfree => absurd (he.symm.trans hfree) (by decide)
      idle := fun hne => absurd he hne
      noStack := fun hh => by
        rw [hset _ uxstack_ne_pftemp]
        exact (h.env e).noStack hh
      temp := fun _ => Spaces.set_self
      faulting := fun pn' heq => absurd heq (by simp [FaultPc.page])
      dup := fun c' pn' pte heq => by
        obtain ⟨hs, hlt, hnow⟩ := (h.env e).dup c' pn' pte heq
        rw [hset _ (fun hc => hs (.inr hc))]
        exact ⟨hs, hlt, hnow⟩
      dupSelf := fun c' pn' heq => by
        obtain ⟨hs, hlt, hnow⟩ := (h.env e).dupSelf c' pn' heq
        rw [hset _ (fun hc => hs (.inr hc))]
        exact ⟨hs, hlt, hnow⟩
      family := fun hr j => by
        rw [family_set hnone]
        exact (h.env e).family hr j }
  refine h.faulted he ?_ rfl rfl rfl (fun j hj => Function.update_of_ne hj _ _)
    (fun j hj => Spaces.set_of_ne hj) ?_ ?_ (fun _ _ _ _ _ => rfl)
  · refine h.sharing.mono (fun j k p hq => ?_) (fun j hj => ?_)
    · dsimp only [ForkState.setFault, ForkState.unmap] at hq
      rw [Spaces.set_apply] at hq
      by_cases hat : j = e ∧ k = pftempPage
      · rw [if_pos hat] at hq
        exact absurd hq (Option.some_ne_none p).symm
      · rwa [if_neg hat] at hq
    · by_cases hje : j = e
      · rw [hje]
        exact .inr Spaces.set_self
      · refine .inl ?_
        dsimp only [ForkState.setFault, ForkState.unmap]
        rw [Function.update_of_ne hje]
        exact hj
  · dsimp only [ForkState.setFault]
    rw [Function.update_self]
    exact hself
  · intro pn' old new hpc'
    dsimp only [ForkState.setFault] at hpc'
    rw [Function.update_self] at hpc'
    exact absurd hpc' (by simp)

lemma ForkIn.faultStep (h : ForkIn shared s) (he : s.status e = .runnable) (hst : FaultStep s e t) :
    ForkIn shared t := by
  cases hst with
  | start hout hup hp hw hcow => exact h.faultStart he hout hp hw hcow
  | alloc hpc => exact h.faultAlloc he hpc
  | copy hpc hold hnew hw => exact h.faultCopy he hpc hold hnew
  | map hpc hnew hw => exact h.faultMap he hpc hnew
  | unmap => exact h.faultUnmap he

end Steps

end SistemasOperativos.Lib.Fork
