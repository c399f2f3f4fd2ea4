import Mathlib.Logic.Basic
import Mathlib.Data.List.Induction
import Mathlib.Tactic.Common

/-!
# Runs of a transition system

A run starts in an initial state and takes labelled steps; it carries the list of the
transitions made, oldest first. Invariants of single steps become invariants of runs.
-/

namespace SistemasOperativos.Library

variable {σ ι : Type}

/-- A transition of a run: the state before, the label and the state after. -/
structure Move (σ ι : Type) where
  pre : σ
  label : ι
  post : σ

/-- `Run init step h s`: the transitions `h` lead from an initial state to `s`. -/
inductive Run (init : σ → Prop) (step : σ → ι → σ → Prop) : List (Move σ ι) → σ → Prop
  | start {s : σ} (hs : init s) : Run init step [] s
  | next {h : List (Move σ ι)} {s : σ} {i : ι} (hr : Run init step h s) (hst : step s i t) :
      Run init step (h ++ [⟨s, i, t⟩]) t

variable {init : σ → Prop} {step : σ → ι → σ → Prop} {h : List (Move σ ι)} {s : σ}

/-- Every step meets the condition `G`, given the transitions before it. -/
def Along (G : List (Move σ ι) → σ → ι → Prop) (h : List (Move σ ι)) : Prop :=
  ∀ h₁ m h₂, h = h₁ ++ m :: h₂ → G h₁ m.pre m.label

lemma Along.concat {G : List (Move σ ι) → σ → ι → Prop} {i : ι} (hg : Along G h) (hi : G h s i)
    (t : σ) : Along G (h ++ [⟨s, i, t⟩]) := by
  intro h₁ m h₂ heq
  induction h₂ using List.reverseRecOn with
  | nil =>
    obtain ⟨rfl, hm⟩ := List.append_inj' heq rfl
    obtain rfl := List.singleton_inj.mp hm
    exact hi
  | append_singleton l x _ =>
    rw [← List.cons_append, ← List.append_assoc] at heq
    obtain ⟨heq', -⟩ := List.append_inj' heq rfl
    exact hg h₁ m l heq'

/-- A property of runs: it holds initially and every step that meets the condition `G`, given
the transitions before it, preserves it, so it holds of every run whose steps meet `G`. -/
lemma Run.induct_prefix {G : List (Move σ ι) → σ → ι → Prop} (hr : Run init step h s)
    (hg : Along G h) (P : List (Move σ ι) → σ → Prop) (h0 : ∀ s, init s → P [] s)
    (hst : ∀ h s i t, P h s → G h s i → step s i t → P (h ++ [⟨s, i, t⟩]) t) : P h s := by
  induction hr with
  | start hs => exact h0 _ hs
  | @next t h s i hr hi ih =>
    apply hst _ _ _ _ _ _ hi
    · apply ih
      intro h₁ m h₂ heq
      apply hg h₁ m (h₂ ++ [⟨s, i, t⟩])
      rw [heq, List.append_assoc, List.cons_append]
    · exact hg h ⟨s, i, t⟩ [] rfl

/-- The same for a condition that does not look at the past. -/
lemma Run.induct {G : σ → ι → Prop} (hr : Run init step h s) (hg : ∀ m ∈ h, G m.pre m.label)
    (P : List (Move σ ι) → σ → Prop) (h0 : ∀ s, init s → P [] s)
    (hst : ∀ h s i t, P h s → G s i → step s i t → P (h ++ [⟨s, i, t⟩]) t) : P h s := by
  apply Run.induct_prefix (G := fun _ => G) hr _ P h0 hst
  rintro h₁ m h₂ rfl
  exact hg m (List.mem_append_right _ List.mem_cons_self)

/-- Every transition of a run starts in a state of a shorter run and is a step. -/
lemma Run.mem (hr : Run init step h s) {m : Move σ ι} (hm : m ∈ h) :
    (∃ h', h' ⊆ h ∧ Run init step h' m.pre) ∧ step m.pre m.label m.post := by
  induction hr with
  | start => simp at hm
  | next hr hi ih =>
    rw [List.mem_append, List.mem_singleton] at hm
    rcases hm with hm | rfl
    · obtain ⟨⟨h', hsub, hr'⟩, hstep⟩ := ih hm
      exact ⟨⟨h', fun x hx => List.mem_append_left _ (hsub hx), hr'⟩, hstep⟩
    · exact ⟨⟨_, fun x hx => List.mem_append_left _ hx, hr⟩, hi⟩

/-- The last transition of a run. -/
lemma Run.last {m : Move σ ι} (hr : Run init step (h ++ [m]) s) :
    Run init step h m.pre ∧ step m.pre m.label m.post ∧ s = m.post := by
  generalize heq : h ++ [m] = l at hr
  cases hr with
  | start => simp at heq
  | next hr hi =>
    obtain ⟨rfl, hm⟩ := List.append_inj' heq rfl
    obtain rfl := List.singleton_inj.mp hm
    exact ⟨hr, hi, rfl⟩

/-- The part of a run before one of its transitions. -/
lemma Run.split {m : Move σ ι} {h₁ h₂ : List (Move σ ι)} (hr : Run init step (h₁ ++ m :: h₂) s) :
    Run init step h₁ m.pre ∧ step m.pre m.label m.post := by
  induction h₂ using List.reverseRecOn generalizing s with
  | nil =>
    obtain ⟨hpre, hst, -⟩ := hr.last
    exact ⟨hpre, hst⟩
  | append_singleton l x ih =>
    rw [← List.cons_append, ← List.append_assoc] at hr
    exact ih hr.last.1

/-- A property that holds after one transition of a run and that every later transition
preserves. -/
lemma Run.since {m : Move σ ι} {h₁ h₂ : List (Move σ ι)} (P : σ → Prop)
    (hr : Run init step (h₁ ++ m :: h₂) s) (h0 : P m.post) (hst : ∀ x ∈ h₂, P x.pre → P x.post) :
    P s := by
  induction h₂ using List.reverseRecOn generalizing s with
  | nil =>
    obtain ⟨-, -, rfl⟩ := hr.last
    exact h0
  | append_singleton l x ih =>
    have hr' : Run init step ((h₁ ++ m :: l) ++ [x]) s := by
      rw [List.append_assoc, List.cons_append]
      exact hr
    obtain ⟨hpre, -, rfl⟩ := hr'.last
    apply hst x (by simp)
    exact ih hpre (fun y hy => hst y (List.mem_append_left _ hy))

/-- What some steps open and others close is open after a run when one of its steps has opened
it and none has closed it since. -/
lemma Run.open_iff {P : σ → Prop} {O C : Move σ ι → Prop} (hr : Run init step h s)
    (h0 : ∀ s, init s → ¬ P s) (hO : ∀ m ∈ h, O m → P m.post)
    (hC : ∀ m ∈ h, C m → ¬ P m.post)
    (hkeep : ∀ m ∈ h, ¬ O m → ¬ C m → (P m.post ↔ P m.pre)) :
    P s ↔ ∃ h₁ m h₂, h = h₁ ++ m :: h₂ ∧ O m ∧ ∀ x ∈ h₂, ¬ C x := by
  constructor
  · intro hs
    induction hr with
    | start hinit => exact absurd hs (h0 _ hinit)
    | @next t h s i hr hi ih =>
      have hlast : (⟨s, i, t⟩ : Move σ ι) ∈ h ++ [⟨s, i, t⟩] := by simp
      by_cases hopen : O ⟨s, i, t⟩
      · exact ⟨h, _, [], rfl, hopen, by simp⟩
      have hclose : ¬ C ⟨s, i, t⟩ := fun hc => hC _ hlast hc hs
      have hpre := (hkeep _ hlast hopen hclose).mp hs
      obtain ⟨h₁, m, h₂, rfl, hm, hsince⟩ := ih (fun m hm => hO m (by simp [hm]))
        (fun m hm => hC m (by simp [hm])) (fun m hm => hkeep m (by simp [hm])) hpre
      refine ⟨h₁, m, h₂ ++ [⟨s, i, t⟩], by simp, hm, fun x hx => ?_⟩
      rcases List.mem_append.mp hx with hx | hx
      · exact hsince x hx
      · obtain rfl := List.mem_singleton.mp hx
        exact hclose
  · rintro ⟨h₁, m, h₂, rfl, hm, hsince⟩
    apply Run.since P hr (hO m (by simp) hm)
    intro x hx hpre
    by_cases hopen : O x
    · exact hO x (by simp [hx]) hopen
    · exact (hkeep x (by simp [hx]) hopen (hsince x hx)).mpr hpre

end SistemasOperativos.Library
