import SistemasOperativos.Lib.ForkCopies

/-!
# Runs of copy-on-write fork

What the invariant promises of whole runs: private pages stay private, an environment reads what it wrote, and
the pages marked `PTE_SHARE` stay shared.
-/

namespace SistemasOperativos.Lib.Fork

open Library
open Kern (Word Byte pteP pteW pteU pteSyscall has EnvStatus)

variable {ι : Type} {shared : ℕ → Option ℕ} {s t : ForkState ι} {e c : ι} {pn : ℕ} {pte : Pte}

lemma Start.forkIn {p : ι} (h : Start p s) : ForkIn (sharedFrame (s.space p)) s := by
  have honly : ∀ {e pn pte}, s.space e pn = some pte → e = p := by
    intro e pn pte hp
    by_contra hne
    rw [(h.others e hne).2] at hp
    exact absurd hp (Option.some_ne_none pte).symm
  refine ⟨⟨fun {e pn q} hq => ?_, fun {e pn q} hq hs => ?_, fun {e pn q e' pn' q'} hq hq' heq hs hw => ?_,
    fun {e pn q e' pn' q'} hq _ hq' _ hne => ?_, fun {e pn q pn' q'} _ _ hlt => ?_, fun {e pn q} hq hs => ?_⟩,
    fun e => ?_, fun e pn old new hpc => ?_, fun e c hb => ?_, fun e j c hb => ?_⟩
  · obtain rfl := honly hq
    exact h.frames pn q hq
  · obtain rfl := honly hq
    exact h.kinds pn q hq hs
  · obtain rfl := honly hq
    obtain rfl := honly hq'
    exact h.unmixed pn pn' q q' hq hq' heq hs hw
  · exact absurd ((honly hq').trans (honly hq).symm) hne
  · rw [(h.idle e).1] at hlt
    exact absurd hlt (Nat.not_lt_zero pn)
  · obtain rfl := honly hq
    have hux : pn = uxstackPage := by
      rcases hs with hs | hs
      · exact hs
      · rw [hs, h.pftemp] at hq
        exact absurd hq (Option.some_ne_none q).symm
    have hstack := h.stack
    by_cases hh : s.handler e = true
    · rw [if_pos hh] at hstack
      obtain ⟨f, hf, halone⟩ := hstack
      obtain rfl := Option.some.inj (hf.symm.trans (hux ▸ hq))
      refine ⟨rfl, fun {e' pn' q'} hq' heq => ?_⟩
      obtain rfl := honly hq'
      exact ⟨rfl, .inl ((halone pn' q' hq' heq).trans hux.symm)⟩
    · rw [if_neg hh, ← hux, hq] at hstack
      exact absurd hstack (Option.some_ne_none q)
  · obtain ⟨hfork, hfault⟩ := h.idle e
    rw [hfork, hfault]
    refine ⟨fun hfree => ?_, fun _ => ⟨rfl, rfl⟩, fun hh => ?_, fun hne => absurd rfl hne,
      fun heq => absurd heq (by simp), Nat.zero_le _, fun _ => ?_, fun pn heq => absurd heq (by simp [FaultPc.page]),
      fun c pn pte heq => absurd heq (by simp), fun c pn heq => absurd heq (by simp), fun hr pn => ?_⟩
    · by_cases he : e = p
      · rw [he, h.parent] at hfree
        exact absurd hfree (by decide)
      · exact (h.others e he).2
    · by_cases he : e = p
      · have hstack := h.stack
        rw [← he, if_neg (by rw [hh]; exact Bool.false_ne_true)] at hstack
        exact hstack
      · rw [(h.others e he).2]
    · by_cases he : e = p
      · rw [he]
        exact h.pftemp
      · rw [(h.others e he).2]
    · by_cases he : e = p
      · rw [he]
      · rw [(h.others e he).1] at hr
        exact absurd hr (by decide)
  · rw [(h.idle e).2] at hpc
    exact absurd hpc (by simp)
  · unfold Builds at hb
    rw [(h.idle e).1] at hb
    exact absurd hb (Option.some_ne_none c).symm
  · unfold Builds at hb
    rw [(h.idle e).1] at hb
    exact absurd hb (Option.some_ne_none c).symm

/-- A private page that is, or was before the last fork, written. -/
def Held (p : Pte) : Prop := p.shared = false ∧ (p.writable = true ∨ p.cow = true)

/-- The byte `off` of the page `pn` of `e`, in a page that is held. -/
def Holds (s : ForkState ι) (e : ι) (pn off : ℕ) (b : Byte) : Prop :=
  s.status e = .runnable ∧ ∃ p, s.space e pn = some p ∧ Held p ∧ s.mem p.frame off = b

variable [DecidableEq ι] {off : ℕ} {b : Byte} {ev : ForkEvent ι}

omit [DecidableEq ι] in
/-- Another environment does not write the frame of a page that is held. -/
lemma ForkIn.frame_ne {j : ι} {q : ℕ} {y : Pte} (h : ForkIn shared s) (he : s.status e = .runnable)
    (hp : s.space e pn = some pte) (hheld : Held pte) (hq : s.space j q = some y) (hw : y.writable = true)
    (hje : j ≠ e) : pte.frame ≠ y.frame := by
  intro heq
  by_cases hs : y.shared = true
  · rcases h.sharing.mixed hq hp heq hs hw with hs' | ⟨hw', hc'⟩
    · exact absurd (hs'.symm.trans hheld.1) (by decide)
    · rcases hheld.2 with hw | hc
      · exact absurd (hw'.symm.trans hw) (by decide)
      · exact absurd (hc'.symm.trans hc) (by decide)
  · have hb := (h.sharing.exclusive hq ⟨hw, by rwa [Bool.not_eq_true] at hs⟩ hp heq (Ne.symm hje)).1
    exact h.not_built he j hb

lemma Holds.faultStep {j : ι} (hh : Holds s e pn off b) (h : ForkIn shared s) (hpn : pn ≠ pftempPage)
    (hst : FaultStep s j t) : Holds t e pn off b := by
  obtain ⟨he, p, hp, hheld, hb⟩ := hh
  cases hst with
  | start => exact ⟨he, p, hp, hheld, hb⟩
  | alloc hpc =>
    refine ⟨he, p, ?_, hheld, ?_⟩
    · exact (Spaces.set_of_page_ne hpn).trans hp
    · exact (congrFun (Function.update_of_ne (Nat.ne_of_lt (h.sharing.frames hp).1) _ _) off).trans hb
  | @copy k old new hpc hold hnew hw =>
    have hne : p.frame ≠ new.frame := by
      intro heq
      rcases ((h.sharing.alone hnew (.inr rfl)).2 hp heq).2 with hk | ⟨-, hm⟩
      · exact hpn hk
      · exact absurd (hpc.symm.trans hm) (by simp)
    exact ⟨he, p, hp, hheld, (congrFun (Function.update_of_ne hne _ _) off).trans hb⟩
  | @map k new hpc hnew hw =>
    by_cases hat : e = j ∧ pn = k
    · obtain ⟨rfl, rfl⟩ := hat
      refine ⟨he, ⟨new.frame, permRw⟩, Spaces.set_self, ⟨Pte.own_rw.2, .inl Pte.own_rw.1⟩, ?_⟩
      exact (congrFun (h.copied e pn p new hpc hp hnew) off).trans hb
    · refine ⟨he, p, ?_, hheld, hb⟩
      dsimp only [ForkState.setFault, ForkState.map]
      rw [Spaces.set_apply, if_neg hat]
      exact hp
  | unmap hpc => exact ⟨he, p, (Spaces.set_of_page_ne hpn).trans hp, hheld, hb⟩

lemma Holds.copyStep {j : ι} (hh : Holds s e pn off b) (h : ForkIn shared s) (hj : s.status j = .runnable)
    (hst : CopyStep s j t) : Holds t e pn off b := by
  obtain ⟨he, p, hp, hheld, hb⟩ := hh
  have hkept : ∀ c, (s.fork j).child = some c → ∀ q x, s.space.set c q x e pn = some p := by
    intro c hc q x
    have hne : e ≠ c := fun heq => h.not_built he j (heq ▸ hc)
    rw [Spaces.set_of_ne hne]
    exact hp
  cases hst with
  | start | setUpcall | skip | read | upcall => exact ⟨he, p, hp, hheld, hb⟩
  | handler hat =>
    have hne : ¬(e = j ∧ pn = uxstackPage) := by
      rintro ⟨rfl, rfl⟩
      rw [(h.env e).noStack ((h.env e).pending hat)] at hp
      exact absurd hp (Option.some_ne_none p).symm
    refine ⟨he, p, ?_, hheld, ?_⟩
    · dsimp only [ForkState.setFork, ForkState.alloc]
      rw [Spaces.set_apply, if_neg hne]
      exact hp
    · exact (congrFun (Function.update_of_ne (Nat.ne_of_lt (h.sharing.frames hp).1) _ _) off).trans hb
  | @exofork c hat hc =>
    have hne : e ≠ c := by
      rintro rfl
      exact absurd (he.symm.trans hc) (by decide)
    refine ⟨?_, p, ?_, hheld, hb⟩
    · exact (Function.update_of_ne hne _ _).trans he
    · dsimp only [ForkState.exofork]
      rw [Spaces.clear_of_ne hne]
      exact hp
  | share hat | cow hat | readOnly hat => exact ⟨he, p, hkept _ (by rw [hat]; rfl) _ _, hheld, hb⟩
  | @self c k now hat hnow =>
    by_cases hat' : e = j ∧ pn = k
    · obtain ⟨rfl, rfl⟩ := hat'
      obtain rfl := Option.some.inj (hnow.symm.trans hp)
      exact ⟨he, ⟨now.frame, permCow⟩, Spaces.set_self, ⟨perm_flags.2.2.2.2.1, .inr perm_flags.2.2.2.2.2.1⟩, hb⟩
    · refine ⟨he, p, ?_, hheld, hb⟩
      dsimp only [ForkState.setFork, ForkState.map]
      rw [Spaces.set_apply, if_neg hat']
      exact hp
  | stack hat =>
    refine ⟨he, p, hkept _ (by rw [hat]; rfl) _ _, hheld, ?_⟩
    exact (congrFun (Function.update_of_ne (Nat.ne_of_lt (h.sharing.frames hp).1) _ _) off).trans hb
  | @status c hat =>
    have hne : e ≠ c := fun heq => h.not_built he j (by rw [hat, heq]; rfl)
    exact ⟨(Function.update_of_ne hne _ _).trans he, p, hp, hheld, hb⟩

/-- A step keeps what an environment has written, unless the environment overwrites it or exits. -/
lemma Holds.step (hh : Holds s e pn off b) (h : ForkIn shared s) (hpn : pn ≠ pftempPage) (hst : Step s ev t)
    (hover : ¬Overwrites ⟨s, ev, t⟩ e pn off) (hexit : ev ≠ .exit e) : Holds t e pn off b := by
  cases hst with
  | @write j q off' y b' hrun hout hq hw =>
    obtain ⟨he, p, hp, hheld, hb⟩ := hh
    refine ⟨he, p, hp, hheld, ?_⟩
    dsimp only [ForkState.store]
    by_cases hframe : p.frame = y.frame
    · by_cases hje : j = e
      · subst hje
        have hoff : off ≠ off' := by
          rintro rfl
          refine hover ⟨q, b', rfl, ?_⟩
          dsimp only
          rw [hq, hp, Option.map_some, Option.map_some, hframe]
        rw [hframe, Function.update_self, Function.update_of_ne hoff, ← hframe]
        exact hb
      · exact absurd hframe (h.frame_ne he hp hheld hq hw hje)
    · rw [Function.update_of_ne hframe]
      exact hb
  | pgfault hrun hst => exact hh.faultStep h hpn hst
  | fork hrun hout hst => exact hh.copyStep h hrun hst
  | @exit j hrun =>
    obtain ⟨he, p, hp, hheld, hb⟩ := hh
    have hne : e ≠ j := fun heq => hexit (by rw [heq])
    refine ⟨(Function.update_of_ne hne _ _).trans he, p, ?_, hheld, hb⟩
    dsimp only [ForkState.exit]
    rw [Spaces.clear_of_ne hne]
    exact hp

/-- What is written is there. -/
lemma holds_written {q : ℕ} (h : ForkIn shared s) (hst : Step s (.write e q off b) t) (hpriv : Private s e q) :
    Holds t e q off b ∧ q ≠ pftempPage := by
  obtain ⟨p, hp, hs⟩ := hpriv
  cases hst with
  | @write _ _ _ y _ hrun hout hq hw =>
    obtain rfl := Option.some.inj (hp.symm.trans hq)
    refine ⟨⟨hrun, p, hp, ⟨hs, .inl hw⟩, ?_⟩, ?_⟩
    · dsimp only [ForkState.store]
      rw [Function.update_self, Function.update_self]
    · rintro rfl
      rcases hout with hout | hux
      · rw [(h.env e).temp (by rw [hout]; rfl)] at hp
        exact absurd hp (Option.some_ne_none p).symm
      · exact uxstack_ne_pftemp hux.symm

lemma forkIn_of_run {p : ι} {h : List (ForkMove ι)} (hr : ForkRuns p h s) : ∃ shared, ForkIn shared s := by
  refine hr.induct (G := fun _ _ => True) (fun _ _ => trivial) (fun _ s => ∃ shared, ForkIn shared s)
    (fun s hs => ⟨_, hs.forkIn⟩) ?_
  rintro h s ev t ⟨shared, hin⟩ - hst
  exact ⟨shared, hin.step hst⟩

/-- After any steps of `fork` and `pgfault`, writes and exits, in any order, private pages are private, each
environment has in them what it wrote, and the shared ones are shared. -/
theorem forkOk_of_run {p : ι} {h : List (ForkMove ι)} (hr : ForkRuns p h s) : ForkOk h s := by
  refine ⟨fun m hm e pn off b hlabel hpriv e' hne hrun => ?_, fun h₁ m h₂ e pn off b heq hlabel hpriv hlater => ?_,
    fun e e' pn pte he he' hp hs => ?_⟩
  · obtain ⟨⟨h', -, hr'⟩, hst⟩ := hr.mem hm
    obtain ⟨shared, hin⟩ := forkIn_of_run hr'
    rw [hlabel] at hst
    obtain ⟨q, hq, hqs⟩ := hpriv
    generalize m.post = t at hst ⊢
    cases hst with
    | @write _ _ _ y _ hrun' hout hy hw =>
      obtain rfl := Option.some.inj (hq.symm.trans hy)
      funext k
      unfold view
      dsimp only [ForkState.store]
      cases hk : m.pre.space e' k with
      | none => rfl
      | some z =>
        have hz : z.frame ≠ q.frame := fun hc =>
          hin.not_built hrun e (hin.sharing.exclusive hq ⟨hw, hqs⟩ hk hc hne).1
        rw [Option.map_some, Option.map_some, Function.update_of_ne hz]
  · subst heq
    obtain ⟨hpre, hst⟩ := hr.split
    obtain ⟨shared, hin⟩ := forkIn_of_run hpre
    rw [hlabel] at hst
    obtain ⟨hholds, hpn⟩ := holds_written hin hst hpriv
    have hends : Holds s e pn off b := by
      have hsteps : ∀ x ∈ h₂, (∃ shared, ForkIn shared x.pre) ∧ Step x.pre x.label x.post := by
        intro x hx
        obtain ⟨⟨h', -, hr'⟩, hst⟩ := hr.mem (List.mem_append_right _ (List.mem_cons_of_mem _ hx))
        exact ⟨forkIn_of_run hr', hst⟩
      refine hr.since (fun s => Holds s e pn off b) hholds (fun x hx hpre => ?_)
      obtain ⟨⟨shared, hin⟩, hst⟩ := hsteps x hx
      exact hpre.step hin hpn hst (hlater x hx).1 (hlater x hx).2
    obtain ⟨-, q, hq, -, hb⟩ := hends
    exact ⟨s.mem q.frame, by unfold view; rw [hq]; rfl, hb⟩
  · obtain ⟨shared, hin⟩ := forkIn_of_run hr
    have hf : sharedFrame (s.space e) pn = some pte.frame := sharedFrame_eq_some.mpr ⟨pte, hp, hs, rfl⟩
    rw [(hin.env e).family he pn, ← (hin.env e').family he' pn] at hf
    exact sharedFrame_eq_some.mp hf

/-! ### A fork -/

def Reached (p : ι) (s : ForkState ι) : Prop := ∃ h, ForkRuns p h s

lemma Reached.step {p : ι} (h : Reached p s) (hst : Step s ev t) : Reached p t := by
  obtain ⟨l, hr⟩ := h
  exact ⟨_, hr.next hst⟩

/-- The loop of `fork` passes pages that are not mapped. -/
lemma Reached.skips {p : ι} {m : ℕ} (h : Reached p s) (he : s.status e = .runnable) (hout : s.fault e = .out)
    (hat : s.fork e = .copy c pn) (hle : pn ≤ m) (hm : m ≤ utopPage)
    (hnone : ∀ k, pn ≤ k → k < m → k = uxstackPage ∨ s.space e k = none) :
    Reached p (s.setFork e (.copy c m)) := by
  induction m, hle using Nat.le_induction with
  | base =>
    have hsame : s.setFork e (.copy c pn) = s := by
      unfold ForkState.setFork
      rw [← hat, Function.update_eq_self]
    rwa [hsame]
  | succ m hle ih =>
    have hmid := ih (Nat.le_of_succ_le hm) (fun k hk hlt => hnone k hk (Nat.lt_succ_of_lt hlt))
    have hnext := hmid.step (.fork he hout (.skip (Function.update_self _ _ _) (Nat.lt_of_succ_le hm)
      (hnone m hle (Nat.lt_succ_self m))))
    unfold ForkState.setFork at hnext ⊢
    rwa [Function.update_idem] at hnext

/-- A parent with a page of its own, a shared one and an exception stack. -/
def forkStart : ForkState (Fin 2) where
  space e pn :=
    if e = 0 then
      if pn = 0 then some ⟨0, permRw⟩
      else if pn = 1 then some ⟨1, permRw ||| pteShare⟩
      else if pn = uxstackPage then some ⟨2, permRw⟩
      else none
    else none
  mem _ _ := 5
  next := 3
  status e := if e = 0 then .runnable else .free
  envPgfaultUpcall _ := false
  handler _ := true
  fork _ := .out
  fault _ := .out

lemma forkStart_page {q : ℕ} {y : Pte} (h : forkStart.space 0 q = some y) :
    (q = 0 ∧ y = ⟨0, permRw⟩) ∨ (q = 1 ∧ y = ⟨1, permRw ||| pteShare⟩) ∨ (q = uxstackPage ∧ y = ⟨2, permRw⟩) := by
  unfold forkStart at h
  dsimp only at h
  rw [if_pos rfl] at h
  split_ifs at h with h0 h1 h2
  · exact .inl ⟨h0, (Option.some.inj h).symm⟩
  · exact .inr (.inl ⟨h1, (Option.some.inj h).symm⟩)
  · exact .inr (.inr ⟨h2, (Option.some.inj h).symm⟩)

lemma forkStart_start : Start 0 forkStart where
  parent := rfl
  others e he := ⟨if_neg he, funext fun _ => if_neg he⟩
  idle _ := ⟨rfl, rfl⟩
  frames pn pte h := by
    rcases forkStart_page h with ⟨rfl, rfl⟩ | ⟨rfl, rfl⟩ | ⟨rfl, rfl⟩ <;> decide
  kinds pn pte h := by
    rcases forkStart_page h with ⟨rfl, rfl⟩ | ⟨rfl, rfl⟩ | ⟨rfl, rfl⟩ <;> decide
  pftemp := by decide
  stack := by
    rw [if_pos (show forkStart.handler 0 = true from rfl)]
    refine ⟨2, by decide, fun pn pte h hf => ?_⟩
    rcases forkStart_page h with ⟨rfl, rfl⟩ | ⟨rfl, rfl⟩ | ⟨rfl, rfl⟩
    · exact absurd hf (by decide)
    · exact absurd hf (by decide)
    · rfl
  unmixed pn pn' pte pte' h h' hf hs _ := by
    rcases forkStart_page h with ⟨rfl, rfl⟩ | ⟨rfl, rfl⟩ | ⟨rfl, rfl⟩
    · exact absurd hs (by decide)
    · rcases forkStart_page h' with ⟨rfl, rfl⟩ | ⟨rfl, rfl⟩ | ⟨rfl, rfl⟩
      · exact absurd hf (by decide)
      · exact .inl hs
      · exact absurd hf (by decide)
    · exact absurd hs (by decide)

lemma forkStart_rest {q : ℕ} (y z w : Option Pte) (hq : 2 ≤ q) (hux : q ≠ uxstackPage) :
    (((((forkStart.space.clear 1).set 1 0 y).set 0 0 z).set 1 1 w) 0 q) = none := by
  have h0 : q ≠ 0 := by omega
  have h1 : q ≠ 1 := by omega
  rw [Spaces.set_of_page_ne h1, Spaces.set_of_page_ne h0, Spaces.set_of_page_ne h0, Spaces.clear_of_ne (by decide)]
  unfold forkStart
  dsimp only
  rw [if_pos rfl, if_neg h0, if_neg h1, if_neg hux]

/-- The parent forks and writes its page; the child does not see it. -/
theorem forkOk_of_fork : ∃ (h : List (ForkMove (Fin 2))) (s : ForkState (Fin 2)), ForkRuns 0 h s ∧
    s.status 1 = .runnable ∧ (view s 0 0).map (· 0) = some 7 ∧ (view s 1 0).map (· 0) = some 5 ∧ ForkOk h s := by
  have h0 : Reached 0 forkStart := ⟨[], .start forkStart_start⟩
  have h1 := h0.step (.fork (e := 0) rfl rfl (.start rfl))
  have h2 := h1.step (.fork (e := 0) rfl rfl (.setUpcall rfl))
  have h3 := h2.step (.fork (e := 0) rfl rfl (.exofork (c := 1) rfl rfl))
  have h4 := h3.step (.fork (e := 0) rfl rfl (.read rfl (by decide) (by decide) rfl))
  have h5 := h4.step (.fork (e := 0) rfl rfl (.cow rfl rfl (by decide) rfl))
  have h6 := h5.step (.fork (e := 0) rfl rfl (.self rfl rfl))
  have h7 := h6.step (.fork (e := 0) rfl rfl (.read rfl (by decide) (by decide) rfl))
  have h8 := h7.step (.fork (e := 0) rfl rfl (.share rfl rfl rfl (by decide)))
  have h9 := h8.skips (e := 0) (m := utopPage) rfl rfl rfl (by decide) le_rfl
    (fun k hk _ => or_iff_not_imp_left.mpr (forkStart_rest (some ⟨0, permCow⟩) (some ⟨0, permCow⟩)
      (some ⟨1, (permRw ||| pteShare) &&& pteSyscall⟩) hk))
  have h10 := h9.step (.fork (e := 0) rfl rfl (.stack rfl))
  have h11 := h10.step (.fork (e := 0) rfl rfl (.upcall rfl))
  have h12 := h11.step (.fork (e := 0) rfl rfl (.status rfl))
  have h13 := h12.step (.pgfault (e := 0) rfl (@FaultStep.start _ _ _ _ 0 _ rfl rfl rfl rfl rfl))
  have h14 := h13.step (.pgfault (e := 0) rfl (.alloc rfl))
  have h15 := h14.step (.pgfault (e := 0) rfl (.copy rfl rfl rfl rfl))
  have h16 := h15.step (.pgfault (e := 0) rfl (.map rfl rfl rfl))
  have h17 := h16.step (.pgfault (e := 0) rfl (.unmap rfl))
  obtain ⟨h, hr⟩ := h17.step (@Step.write _ _ _ 0 0 0 _ 7 rfl (.inl rfl) rfl rfl)
  exact ⟨h, _, hr, rfl, rfl, rfl, forkOk_of_run hr⟩

end SistemasOperativos.Lib.Fork
