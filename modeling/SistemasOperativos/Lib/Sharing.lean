import SistemasOperativos.Lib.Spaces

/-!
# Frames shared by copy on write

Which environments have which frames mapped while some of them copy their address spaces. The operations are
those of `lib/fork.c`: a new page, a page lent to a child, a page protected, the new page of a fault moved
to its place.
-/

namespace SistemasOperativos.Lib

open Kern (Word pteP pteW pteU has)

/-- A page for a user, writable. -/
def permRw : Word := pteU ||| pteW ||| pteP

def permCow : Word := pteCow ||| pteP ||| pteU

def permRo : Word := pteP ||| pteU

lemma perm_flags : has permRw pteW = true ∧ has permRw pteShare = false ∧ has permRw pteCow = false ∧
    has permCow pteW = false ∧ has permCow pteShare = false ∧ has permCow pteCow = true ∧
    has permRo pteW = false ∧ has permRo pteShare = false ∧ has permRo pteCow = false := by
  decide

/-- Its environment writes the page, and not for others. -/
def Pte.Own (p : Pte) : Prop := p.writable = true ∧ p.shared = false

/-- Mapped with neither `PTE_W` nor `PTE_COW`. -/
def Pte.ReadOnly (p : Pte) : Prop := p.writable = false ∧ p.cow = false

def special (pn : ℕ) : Prop := pn = uxstackPage ∨ pn = pftempPage

variable {ι : Type}

/-- The mappings `S` of frames below `next`, when `e` builds the child `child e` and has copied its pages
below `pos e`, and its page at `PFTEMP` is mapped a second time if `moved e`. -/
structure Sharing (S : Spaces ι) (next : ℕ) (child : ι → Option ι) (pos : ι → ℕ) (moved : ι → Prop) : Prop where
  frames : ∀ {e pn p}, S e pn = some p → p.frame < next ∧ pn < utopPage
  kinds : ∀ {e pn p}, S e pn = some p → p.shared = true → p.cow = false
  /-- what is written through `PTE_SHARE` is not private elsewhere -/
  mixed : ∀ {e pn p e' pn' p'}, S e pn = some p → S e' pn' = some p' → p'.frame = p.frame →
    p.shared = true → p.writable = true → p'.shared = true ∨ p'.ReadOnly
  /-- what is written privately is mapped by no other environment, but for the child that is being built, as
  long as the page is still to be copied -/
  exclusive : ∀ {e pn p e' pn' p'}, S e pn = some p → p.Own → S e' pn' = some p' → p'.frame = p.frame →
    e' ≠ e → child e = some e' ∧ pos e ≤ pn
  /-- a page written since it was copied is new -/
  passed : ∀ {e pn p pn' p'}, S e pn = some p → p.Own → pn < pos e → S e pn' = some p' →
    p'.frame = p.frame → pn' = pn ∨ pn = pftempPage ∨ pn' = pftempPage
  /-- exception stacks and pages at `PFTEMP` are mapped once -/
  alone : ∀ {e pn p}, S e pn = some p → special pn → p.perm = permRw ∧
    ∀ {e' pn' p'}, S e' pn' = some p' → p'.frame = p.frame → e' = e ∧ (pn' = pn ∨ (pn = pftempPage ∧ moved e))

lemma uxstack_ne_pftemp : uxstackPage ≠ pftempPage := by decide

variable [DecidableEq ι] {S T : Spaces ι} {next pn : ℕ} {child : ι → Option ι} {pos : ι → ℕ} {moved moved' : ι → Prop}
  {e c : ι} {now old new x : Pte} {b : Option ι}

lemma Pte.own_rw {f : ℕ} : (⟨f, permRw⟩ : Pte).Own := ⟨perm_flags.1, perm_flags.2.1⟩

lemma Spaces.set_eq_some {j : ι} {k : ℕ} {p : Pte} (h : S.set e pn (some x) j k = some p) :
    (j = e ∧ k = pn ∧ p = x) ∨ (¬(j = e ∧ k = pn) ∧ S j k = some p) := by
  rw [Spaces.set_apply] at h
  by_cases hat : j = e ∧ k = pn
  · rw [if_pos hat] at h
    exact .inl ⟨hat.1, hat.2, (Option.some.inj h).symm⟩
  · rw [if_neg hat] at h
    exact .inr ⟨hat, h⟩

namespace Sharing

omit [DecidableEq ι] in
/-- Mappings are removed. -/
lemma mono (h : Sharing S next child pos moved) (hsub : ∀ j k p, T j k = some p → S j k = some p)
    (hmoved : ∀ j, moved j → moved' j ∨ T j pftempPage = none) : Sharing T next child pos moved' where
  frames hp := h.frames (hsub _ _ _ hp)
  kinds hp := h.kinds (hsub _ _ _ hp)
  mixed hp hp' := h.mixed (hsub _ _ _ hp) (hsub _ _ _ hp')
  exclusive hp hown hp' := h.exclusive (hsub _ _ _ hp) hown (hsub _ _ _ hp')
  passed hp hown hlt hp' := h.passed (hsub _ _ _ hp) hown hlt (hsub _ _ _ hp')
  alone := by
    intro j k p hp hs
    obtain ⟨hperm, honce⟩ := h.alone (hsub _ _ _ hp) hs
    refine ⟨hperm, fun {j' k' p'} hp' heq => ?_⟩
    obtain ⟨hj, hk⟩ := honce (hsub _ _ _ hp') heq
    refine ⟨hj, hk.imp_right fun ⟨hpf, hm⟩ => ⟨hpf, ?_⟩⟩
    rcases hmoved j hm with hm' | hnone
    · exact hm'
    · rw [hpf] at hp
      rw [hnone] at hp
      exact absurd hp (Option.some_ne_none p).symm

/-- A new frame is mapped. -/
lemma alloc (h : Sharing S next child pos moved) (hpn : pn < utopPage) :
    Sharing (S.set e pn (some ⟨next, permRw⟩)) (next + 1) child pos moved := by
  have hold : ∀ {j k p}, S j k = some p → p.frame ≠ next := fun hp => Nat.ne_of_lt (h.frames hp).1
  refine ⟨fun {j k p} hp => ?_, fun {j k p} hp hs => ?_, fun {j k p j' k' p'} hp hp' heq hs hw => ?_,
    fun {j k p j' k' p'} hp hown hp' heq hne => ?_, fun {j k p k' p'} hp hown hlt hp' heq => ?_,
    fun {j k p} hp hs => ?_⟩
  · rcases Spaces.set_eq_some hp with ⟨-, rfl, rfl⟩ | ⟨-, hq⟩
    · exact ⟨Nat.lt_succ_self _, hpn⟩
    · exact ⟨Nat.lt_succ_of_lt (h.frames hq).1, (h.frames hq).2⟩
  · rcases Spaces.set_eq_some hp with ⟨-, -, rfl⟩ | ⟨-, hq⟩
    · exact perm_flags.2.2.1
    · exact h.kinds hq hs
  · rcases Spaces.set_eq_some hp with ⟨-, -, rfl⟩ | ⟨-, hq⟩
    · exact absurd hs (by rw [Pte.own_rw.2]; exact Bool.false_ne_true)
    rcases Spaces.set_eq_some hp' with ⟨-, -, rfl⟩ | ⟨-, hq'⟩
    · exact absurd heq.symm (hold hq)
    · exact h.mixed hq hq' heq hs hw
  · rcases Spaces.set_eq_some hp with ⟨rfl, rfl, rfl⟩ | ⟨-, hq⟩
    · rcases Spaces.set_eq_some hp' with ⟨hj, -, -⟩ | ⟨-, hq'⟩
      · exact absurd hj hne
      · exact absurd heq (hold hq')
    rcases Spaces.set_eq_some hp' with ⟨-, -, rfl⟩ | ⟨-, hq'⟩
    · exact absurd heq.symm (hold hq)
    · exact h.exclusive hq hown hq' heq hne
  · rcases Spaces.set_eq_some hp with ⟨rfl, rfl, rfl⟩ | ⟨-, hq⟩
    · rcases Spaces.set_eq_some hp' with ⟨-, hk, -⟩ | ⟨-, hq'⟩
      · exact .inl hk
      · exact absurd heq (hold hq')
    rcases Spaces.set_eq_some hp' with ⟨-, -, rfl⟩ | ⟨-, hq'⟩
    · exact absurd heq.symm (hold hq)
    · exact h.passed hq hown hlt hq' heq
  · rcases Spaces.set_eq_some hp with ⟨rfl, rfl, rfl⟩ | ⟨-, hq⟩
    · refine ⟨rfl, fun {j' k' p'} hp' heq => ?_⟩
      rcases Spaces.set_eq_some hp' with ⟨hj, hk, -⟩ | ⟨-, hq'⟩
      · exact ⟨hj, .inl hk⟩
      · exact absurd heq (hold hq')
    obtain ⟨hperm, honce⟩ := h.alone hq hs
    refine ⟨hperm, fun {j' k' p'} hp' heq => ?_⟩
    rcases Spaces.set_eq_some hp' with ⟨-, -, rfl⟩ | ⟨-, hq'⟩
    · exact absurd heq.symm (hold hq)
    · exact honce hq' heq

/-- No environment but `e` itself writes the frames of `e` privately, if `e` is not being built. -/
lemma owner (h : Sharing S next child pos moved) (hnot : ∀ j, child j ≠ some e) (hnow : S e pn = some now)
    {j : ι} {k : ℕ} {p : Pte} (hp : S j k = some p) (hown : p.Own) (heq : p.frame = now.frame) : j = e := by
  by_contra hne
  exact hnot j (h.exclusive hp hown hnow heq.symm (Ne.symm hne)).1

omit [DecidableEq ι] in
/-- A special page has no frame of another page. -/
lemma special_ne (h : Sharing S next child pos moved) (hnow : S e pn = some now) (hpn : ¬special pn)
    (hmoved : ¬moved e) {j : ι} {k : ℕ} {p : Pte} (hp : S j k = some p) (hs : special k) : now.frame ≠ p.frame := by
  intro heq
  obtain ⟨rfl, hk⟩ := (h.alone hp hs).2 hnow heq
  rcases hk with rfl | ⟨-, hm⟩
  · exact hpn hs
  · exact hmoved hm

/-- `duppage` maps the page in the child. -/
lemma lend (h : Sharing S next child pos moved) (hnot : ∀ j, child j ≠ some e) (hc : child e = some c)
    (hpos : pos e = pn) (hnow : S e pn = some now) (hpn : ¬special pn) (htemp : S e pftempPage = none)
    (hmoved : ¬moved e) (hframe : x.frame = now.frame) (hshared : x.shared = now.shared)
    (hw : x.writable = true → now.writable = true ∧ x.shared = true)
    (hcow : x.cow = true → x.shared = false ∧ (now.cow = true ∨ now.writable = true)) :
    Sharing (S.set c pn (some x)) next child pos moved := by
  refine ⟨fun {j k p} hp => ?_, fun {j k p} hp hs => ?_, fun {j k p j' k' p'} hp hp' heq hs hwp => ?_,
    fun {j k p j' k' p'} hp hown hp' heq hne => ?_, fun {j k p k' p'} hp hown hlt hp' heq => ?_,
    fun {j k p} hp hs => ?_⟩
  · rcases Spaces.set_eq_some hp with ⟨-, rfl, rfl⟩ | ⟨-, hq⟩
    · rw [hframe]
      exact h.frames hnow
    · exact h.frames hq
  · rcases Spaces.set_eq_some hp with ⟨-, -, rfl⟩ | ⟨-, hq⟩
    · by_contra hcow'
      rw [(hcow (Bool.not_eq_false _ ▸ hcow')).1] at hs
      exact Bool.false_ne_true hs
    · exact h.kinds hq hs
  · rcases Spaces.set_eq_some hp' with ⟨-, -, rfl⟩ | ⟨-, hq'⟩
    · rcases Spaces.set_eq_some hp with ⟨-, -, rfl⟩ | ⟨-, hq⟩
      · exact .inl hs
      by_cases hx : p'.shared = true
      · exact .inl hx
      rcases h.mixed hq hnow (by rw [← hframe, heq]) hs hwp with hsn | ⟨hwn, hcn⟩
      · exact .inl (by rw [hshared, hsn])
      · refine .inr ⟨?_, ?_⟩
        · by_contra hne
          exact hx (hw (by rwa [Bool.not_eq_false] at hne)).2
        · by_contra hne
          rcases (hcow (by rwa [Bool.not_eq_false] at hne)).2 with hcn' | hwn'
          · rw [hcn] at hcn'
            exact Bool.false_ne_true hcn'
          · rw [hwn] at hwn'
            exact Bool.false_ne_true hwn'
    rcases Spaces.set_eq_some hp with ⟨-, -, rfl⟩ | ⟨-, hq⟩
    · exact h.mixed hnow hq' (by rw [heq, hframe]) (by rw [← hshared, hs]) (hw hwp).1
    · exact h.mixed hq hq' heq hs hwp
  · rcases Spaces.set_eq_some hp with ⟨-, -, rfl⟩ | ⟨-, hq⟩
    · exact absurd (hw hown.1).2 (by rw [hown.2]; exact Bool.false_ne_true)
    rcases Spaces.set_eq_some hp' with ⟨rfl, rfl, rfl⟩ | ⟨-, hq'⟩
    · obtain rfl := h.owner hnot hnow hq hown (by rw [← heq, hframe])
      refine ⟨hc, ?_⟩
      by_contra hlt
      rcases h.passed hq hown (by omega) hnow (by rw [← hframe, heq]) with hk | hk | hk
      · omega
      · rw [hk, htemp] at hq
        exact absurd hq (Option.some_ne_none p).symm
      · exact hpn (.inr hk)
    · exact h.exclusive hq hown hq' heq hne
  · rcases Spaces.set_eq_some hp with ⟨-, -, rfl⟩ | ⟨-, hq⟩
    · exact absurd (hw hown.1).2 (by rw [hown.2]; exact Bool.false_ne_true)
    rcases Spaces.set_eq_some hp' with ⟨rfl, rfl, rfl⟩ | ⟨-, hq'⟩
    · obtain rfl := h.owner hnot hnow hq hown (by rw [← heq, hframe])
      exact absurd hc (hnot j)
    · exact h.passed hq hown hlt hq' heq
  · rcases Spaces.set_eq_some hp with ⟨-, rfl, -⟩ | ⟨-, hq⟩
    · exact absurd hs hpn
    obtain ⟨hperm, honce⟩ := h.alone hq hs
    refine ⟨hperm, fun {j' k' p'} hp' heq => ?_⟩
    rcases Spaces.set_eq_some hp' with ⟨-, -, rfl⟩ | ⟨-, hq'⟩
    · exact absurd (by rw [← hframe, heq]) (h.special_ne hnow hpn hmoved hq hs)
    · exact honce hq' heq

/-- `duppage` protects the page of the parent. -/
lemma protect (h : Sharing S next child pos moved) (hnow : S e pn = some now) (hpn : ¬special pn)
    (hmoved : ¬moved e) (hshared : now.shared = false) (hkind : now.cow = true ∨ now.writable = true) :
    Sharing (S.set e pn (some ⟨now.frame, permCow⟩)) next child pos moved := by
  have hno : ¬(⟨now.frame, permCow⟩ : Pte).Own := fun hown => by
    have hw : has permCow pteW = true := hown.1
    rw [perm_flags.2.2.2.1] at hw
    exact Bool.false_ne_true hw
  have hns : (⟨now.frame, permCow⟩ : Pte).shared ≠ true := fun hs => by
    have hs : has permCow pteShare = true := hs
    rw [perm_flags.2.2.2.2.1] at hs
    exact Bool.false_ne_true hs
  refine ⟨fun {j k p} hp => ?_, fun {j k p} hp hs => ?_, fun {j k p j' k' p'} hp hp' heq hs hwp => ?_,
    fun {j k p j' k' p'} hp hown hp' heq hne => ?_, fun {j k p k' p'} hp hown hlt hp' heq => ?_,
    fun {j k p} hp hs => ?_⟩
  · rcases Spaces.set_eq_some hp with ⟨-, rfl, rfl⟩ | ⟨-, hq⟩
    · have hf := h.frames hnow
      exact hf
    · exact h.frames hq
  · rcases Spaces.set_eq_some hp with ⟨-, -, rfl⟩ | ⟨-, hq⟩
    · exact absurd hs hns
    · exact h.kinds hq hs
  · rcases Spaces.set_eq_some hp with ⟨-, -, rfl⟩ | ⟨-, hq⟩
    · exact absurd hs hns
    rcases Spaces.set_eq_some hp' with ⟨-, -, rfl⟩ | ⟨-, hq'⟩
    · rcases h.mixed hq hnow heq hs hwp with hsn | ⟨hwn, hcn⟩
      · rw [hshared] at hsn
        exact absurd hsn Bool.false_ne_true
      · rw [hwn, hcn] at hkind
        exact absurd hkind (by decide)
    · exact h.mixed hq hq' heq hs hwp
  · rcases Spaces.set_eq_some hp with ⟨-, -, rfl⟩ | ⟨-, hq⟩
    · exact absurd hown hno
    rcases Spaces.set_eq_some hp' with ⟨rfl, rfl, rfl⟩ | ⟨-, hq'⟩
    · exact h.exclusive hq hown hnow heq hne
    · exact h.exclusive hq hown hq' heq hne
  · rcases Spaces.set_eq_some hp with ⟨-, -, rfl⟩ | ⟨-, hq⟩
    · exact absurd hown hno
    rcases Spaces.set_eq_some hp' with ⟨rfl, rfl, rfl⟩ | ⟨-, hq'⟩
    · exact h.passed hq hown hlt hnow heq
    · exact h.passed hq hown hlt hq' heq
  · rcases Spaces.set_eq_some hp with ⟨-, rfl, -⟩ | ⟨-, hq⟩
    · exact absurd hs hpn
    obtain ⟨hperm, honce⟩ := h.alone hq hs
    refine ⟨hperm, fun {j' k' p'} hp' heq => ?_⟩
    rcases Spaces.set_eq_some hp' with ⟨-, -, rfl⟩ | ⟨-, hq'⟩
    · exact absurd heq (h.special_ne hnow hpn hmoved hq hs)
    · exact honce hq' heq

/-- `pgfault` maps its new page in the place of the old one. -/
lemma move (h : Sharing S next child pos moved) (hnew : S e pftempPage = some new) (hmoved : ¬moved e)
    (hpn : ¬special pn) (hlt : pn < utopPage) (hm : moved' e) (hkeep : ∀ j, moved j → moved' j) :
    Sharing (S.set e pn (some ⟨new.frame, permRw⟩)) next child pos moved' := by
  have hpf : special pftempPage := .inr rfl
  have hsame : ∀ {j k p}, S j k = some p → p.frame = new.frame → j = e ∧ k = pftempPage := by
    intro j k p hp heq
    obtain ⟨hj, hk⟩ := (h.alone hnew hpf).2 hp heq
    exact ⟨hj, hk.resolve_right fun hm' => hmoved hm'.2⟩
  have hns : (⟨new.frame, permRw⟩ : Pte).shared ≠ true := fun hs => by
    rw [Pte.own_rw.2] at hs
    exact Bool.false_ne_true hs
  have hnew_own : new.Own := by
    have hperm := (h.alone hnew hpf).1
    unfold Pte.Own Pte.writable Pte.shared
    rw [hperm]
    exact ⟨perm_flags.1, perm_flags.2.1⟩
  refine ⟨fun {j k p} hp => ?_, fun {j k p} hp hs => ?_, fun {j k p j' k' p'} hp hp' heq hs hwp => ?_,
    fun {j k p j' k' p'} hp hown hp' heq hne => ?_, fun {j k p k' p'} hp hown hltk hp' heq => ?_,
    fun {j k p} hp hs => ?_⟩
  · rcases Spaces.set_eq_some hp with ⟨-, rfl, rfl⟩ | ⟨-, hq⟩
    · exact ⟨(h.frames hnew).1, hlt⟩
    · exact h.frames hq
  · rcases Spaces.set_eq_some hp with ⟨-, -, rfl⟩ | ⟨-, hq⟩
    · exact absurd hs hns
    · exact h.kinds hq hs
  · rcases Spaces.set_eq_some hp with ⟨-, -, rfl⟩ | ⟨-, hq⟩
    · exact absurd hs hns
    rcases Spaces.set_eq_some hp' with ⟨-, -, rfl⟩ | ⟨-, hq'⟩
    · obtain ⟨rfl, rfl⟩ := hsame hq heq.symm
      obtain rfl := Option.some.inj (hq.symm.trans hnew)
      rw [hnew_own.2] at hs
      exact absurd hs Bool.false_ne_true
    · exact h.mixed hq hq' heq hs hwp
  · rcases Spaces.set_eq_some hp with ⟨rfl, -, rfl⟩ | ⟨-, hq⟩
    · rcases Spaces.set_eq_some hp' with ⟨hj, -, -⟩ | ⟨-, hq'⟩
      · exact absurd hj hne
      · exact absurd (hsame hq' heq).1 hne
    rcases Spaces.set_eq_some hp' with ⟨rfl, rfl, rfl⟩ | ⟨-, hq'⟩
    · exact absurd (hsame hq heq.symm).1 (Ne.symm hne)
    · exact h.exclusive hq hown hq' heq hne
  · rcases Spaces.set_eq_some hp with ⟨rfl, rfl, rfl⟩ | ⟨-, hq⟩
    · rcases Spaces.set_eq_some hp' with ⟨-, hk, -⟩ | ⟨-, hq'⟩
      · exact .inl hk
      · exact .inr (.inr (hsame hq' heq).2)
    rcases Spaces.set_eq_some hp' with ⟨rfl, rfl, rfl⟩ | ⟨-, hq'⟩
    · exact .inr (.inl (hsame hq heq.symm).2)
    · exact h.passed hq hown hltk hq' heq
  · rcases Spaces.set_eq_some hp with ⟨-, rfl, -⟩ | ⟨-, hq⟩
    · exact absurd hs hpn
    obtain ⟨hperm, honce⟩ := h.alone hq hs
    refine ⟨hperm, fun {j' k' p'} hp' heq => ?_⟩
    rcases Spaces.set_eq_some hp' with ⟨rfl, rfl, rfl⟩ | ⟨-, hq'⟩
    · obtain ⟨rfl, rfl⟩ := hsame hq heq.symm
      exact ⟨rfl, .inr ⟨rfl, hm⟩⟩
    · obtain ⟨hj, hk⟩ := honce hq' heq
      exact ⟨hj, hk.imp_right fun hk => ⟨hk.1, hkeep _ hk.2⟩⟩

/-- The next page is to be copied: the last one was not private, or the exception stack. -/
lemma advance (h : Sharing S next child pos moved) (hpn : pn < utopPage)
    (hat : ∀ p, S e pn = some p → p.Own → pn = uxstackPage) {pos' : ι → ℕ} (hpos : pos e = pn)
    (hpos' : pos' e = pn + 1) (hother : ∀ j, j ≠ e → pos' j = pos j) : Sharing S next child pos' moved where
  frames := h.frames
  kinds := h.kinds
  mixed := h.mixed
  exclusive := by
    intro j k p j' k' p' hp hown hp' heq hne
    obtain ⟨hc, hle⟩ := h.exclusive hp hown hp' heq hne
    refine ⟨hc, ?_⟩
    by_cases hj : j = e
    · subst hj
      by_cases hk : k = pn
      · subst hk
        exact absurd ((h.alone hp (.inl (hat p hp hown))).2 hp' heq).1 hne
      · omega
    · rw [hother j hj]
      exact hle
  passed := by
    intro j k p k' p' hp hown hlt hp' heq
    by_cases hj : j = e
    · subst hj
      by_cases hk : k = pn
      · subst hk
        have hux := hat p hp hown
        rcases ((h.alone hp (.inl hux)).2 hp' heq).2 with hk | ⟨hpf, -⟩
        · exact .inl hk
        · exact .inr (.inl hpf)
      · exact h.passed hp hown (by omega) hp' heq
    · rw [hother j hj] at hlt
      exact h.passed hp hown hlt hp' heq
  alone := h.alone

/-- A child is begun, or finished. -/
lemma rebuild (h : Sharing S next child pos moved) {child' : ι → Option ι} {pos' : ι → ℕ}
    (hend : child e = none ∨ utopPage ≤ pos e ∨ S e = fun _ => none) (hpos' : pos' e = 0)
    (hother : ∀ j, j ≠ e → child' j = child j ∧ pos' j = pos j) : Sharing S next child' pos' moved where
  frames := h.frames
  kinds := h.kinds
  mixed := h.mixed
  exclusive := by
    intro j k p j' k' p' hp hown hp' heq hne
    obtain ⟨hc, hle⟩ := h.exclusive hp hown hp' heq hne
    by_cases hj : j = e
    · subst hj
      have hlt := (h.frames hp).2
      rcases hend with hend | hend | hend
      · rw [hend] at hc
        exact absurd hc (Option.some_ne_none j').symm
      · omega
      · rw [hend] at hp
        exact absurd hp (Option.some_ne_none p).symm
    · rw [(hother j hj).1, (hother j hj).2]
      exact ⟨hc, hle⟩
  passed := by
    intro j k p k' p' hp hown hlt hp' heq
    by_cases hj : j = e
    · subst hj
      rw [hpos'] at hlt
      exact absurd hlt (Nat.not_lt_zero k)
    · rw [(hother j hj).2] at hlt
      exact h.passed hp hown hlt hp' heq
  alone := h.alone

end Sharing

end SistemasOperativos.Lib
