import Mathlib.Data.Set.Basic
import Mathlib.Tactic.Common

/-!
# Programs that return or leave

A program over a mutable state either returns a value or leaves through an exit: it never
comes back to its caller. `Sat f s Q E` says that `f`, started in `s`, returns with `Q` or
leaves with `E`. The rules below follow the structure of a program, so that the result of a
whole program is obtained from the results of its parts.
-/

namespace SistemasOperativos.Library

variable {ε σ τ α β : Type}

/-- `f`, started in `s`, returns a value and a state satisfying `Q`, or leaves with an exit
and a state satisfying `E`. -/
@[irreducible] def Sat (f : EStateM ε σ α) (s : σ) (Q : α → σ → Prop) (E : ε → σ → Prop) : Prop :=
  match f s with
  | .ok a t => Q a t
  | .error e t => E e t

@[simp] lemma sat_pure {a : α} {s : σ} {Q : α → σ → Prop} {E : ε → σ → Prop} :
    Sat (pure a : EStateM ε σ α) s Q E ↔ Q a s := by
  unfold Sat
  exact Iff.rfl

@[simp] lemma sat_throw {e : ε} {s : σ} {Q : α → σ → Prop} {E : ε → σ → Prop} :
    Sat (throw e : EStateM ε σ α) s Q E ↔ E e s := by
  unfold Sat
  exact Iff.rfl

@[simp] lemma sat_get {s : σ} {Q : σ → σ → Prop} {E : ε → σ → Prop} :
    Sat (get : EStateM ε σ σ) s Q E ↔ Q s s := by
  unfold Sat
  exact Iff.rfl

@[simp] lemma sat_modify {f : σ → σ} {s : σ} {Q : PUnit → σ → Prop} {E : ε → σ → Prop} :
    Sat (modify f : EStateM ε σ PUnit) s Q E ↔ Q ⟨⟩ (f s) := by
  unfold Sat
  exact Iff.rfl

@[simp] lemma sat_set {s s' : σ} {Q : PUnit → σ → Prop} {E : ε → σ → Prop} :
    Sat (set s' : EStateM ε σ PUnit) s Q E ↔ Q ⟨⟩ s' := by
  unfold Sat
  exact Iff.rfl

@[simp] lemma sat_bind {f : EStateM ε σ α} {g : α → EStateM ε σ β} {s : σ}
    {Q : β → σ → Prop} {E : ε → σ → Prop} :
    Sat (f >>= g) s Q E ↔ Sat f s (fun a t => Sat (g a) t Q E) E := by
  unfold Sat
  simp only [bind, EStateM.bind]
  cases f s <;> rfl

@[simp] lemma sat_map {f : EStateM ε σ α} {g : α → β} {s : σ}
    {Q : β → σ → Prop} {E : ε → σ → Prop} :
    Sat (g <$> f) s Q E ↔ Sat f s (fun a t => Q (g a) t) E := by
  unfold Sat
  simp only [Functor.map, EStateM.map]
  cases f s <;> rfl

lemma sat_ite {c : Prop} [Decidable c] {f g : EStateM ε σ α} {s : σ}
    {Q : α → σ → Prop} {E : ε → σ → Prop} :
    Sat (if c then f else g) s Q E ↔ (c → Sat f s Q E) ∧ (¬c → Sat g s Q E) := by
  by_cases h : c <;> simp [h]

/-- Consequence rule. -/
lemma Sat.mono {f : EStateM ε σ α} {s : σ} {Q Q' : α → σ → Prop} {E E' : ε → σ → Prop}
    (h : Sat f s Q E) (hQ : ∀ a t, Q a t → Q' a t) (hE : ∀ e t, E e t → E' e t) :
    Sat f s Q' E' := by
  unfold Sat at h ⊢
  cases hf : f s with
  | ok a t => rw [hf] at h; exact hQ a t h
  | error e t => rw [hf] at h; exact hE e t h

lemma Sat.post {f : EStateM ε σ α} {s : σ} {Q Q' : α → σ → Prop} {E : ε → σ → Prop}
    (h : Sat f s Q E) (hQ : ∀ a t, Q a t → Q' a t) : Sat f s Q' E :=
  h.mono hQ (fun _ _ he => he)

lemma Sat.and {f : EStateM ε σ α} {s : σ} {Q Q' : α → σ → Prop} {E E' : ε → σ → Prop}
    (h : Sat f s Q E) (h' : Sat f s Q' E') :
    Sat f s (fun a t => Q a t ∧ Q' a t) (fun e t => E e t ∧ E' e t) := by
  unfold Sat at h h' ⊢
  cases hf : f s with
  | ok a t => rw [hf] at h h'; exact ⟨h, h'⟩
  | error e t => rw [hf] at h h'; exact ⟨h, h'⟩

/-- Every program ends somehow. -/
lemma not_sat_false {f : EStateM ε σ α} {s : σ} : ¬ Sat f s (fun _ _ => False) (fun _ _ => False) := by
  unfold Sat
  intro h
  split at h <;> exact h

lemma Sat.of_ok {f : EStateM ε σ α} {s t : σ} {a : α} {Q : α → σ → Prop} {E : ε → σ → Prop}
    (h : Sat f s Q E) (hf : f s = .ok a t) : Q a t := by
  unfold Sat at h
  rw [hf] at h
  exact h

lemma Sat.of_error {f : EStateM ε σ α} {s t : σ} {e : ε} {Q : α → σ → Prop} {E : ε → σ → Prop}
    (h : Sat f s Q E) (hf : f s = .error e t) : E e t := by
  unfold Sat at h
  rw [hf] at h
  exact h

/-- A program that has no other way to end returns. -/
lemma Sat.exists_ok {f : EStateM ε σ α} {s : σ} {Q : α → σ → Prop}
    (h : Sat f s Q (fun _ _ => False)) : ∃ a t, f s = .ok a t ∧ Q a t := by
  unfold Sat at h
  cases hf : f s with
  | ok a t =>
    rw [hf] at h
    exact ⟨a, t, rfl, h⟩
  | error e t =>
    rw [hf] at h
    exact h.elim

lemma sat_of_ok {f : EStateM ε σ α} {s t : σ} {a : α} {Q : α → σ → Prop} {E : ε → σ → Prop}
    (hf : f s = .ok a t) : Sat f s Q E ↔ Q a t := by
  unfold Sat
  rw [hf]

/-- Every program satisfies the record of its own outcome. -/
lemma sat_self (f : EStateM ε σ α) (s : σ) :
    Sat f s (fun a t => f s = .ok a t) (fun e t => f s = .error e t) := by
  unfold Sat
  cases hf : f s <;> rfl

/-- A program that can only return `a` and leave the state alone does so. -/
lemma sat_eq_ok {f : EStateM ε σ α} {s : σ} {a : α}
    (h : Sat f s (fun r t => r = a ∧ t = s) (fun _ _ => False)) : f s = .ok a s := by
  unfold Sat at h
  cases hf : f s with
  | ok r t =>
    rw [hf] at h
    obtain ⟨rfl, rfl⟩ := h
    rfl
  | error e t =>
    rw [hf] at h
    exact h.elim

/-! ### Running a program -/

/-- The state in which a program ends. -/
def after (f : EStateM ε σ α) (s : σ) : σ :=
  match f s with
  | .ok _ t => t
  | .error _ t => t

/-- The value a program returns. -/
def resultOf (f : EStateM ε σ α) (s : σ) : Option α :=
  match f s with
  | .ok a _ => some a
  | .error _ _ => none

/-- The exit through which a program leaves. -/
def exitOf (f : EStateM ε σ α) (s : σ) : Option ε :=
  match f s with
  | .ok _ _ => none
  | .error e _ => some e

lemma eq_ok_of_resultOf {f : EStateM ε σ α} {s : σ} {a : α} (h : resultOf f s = some a) :
    f s = .ok a (after f s) := by
  unfold resultOf at h
  unfold after
  cases hf : f s with
  | ok b t =>
    rw [hf] at h
    rw [Option.some.inj h]
  | error e t =>
    rw [hf] at h
    cases h

lemma eq_error_of_exitOf {f : EStateM ε σ α} {s : σ} {e : ε} (h : exitOf f s = some e) :
    f s = .error e (after f s) := by
  unfold exitOf at h
  unfold after
  cases hf : f s with
  | ok b t =>
    rw [hf] at h
    cases h
  | error e' t =>
    rw [hf] at h
    rw [Option.some.inj h]

/-- `f` keeps `P`, or leaves with `E`. -/
def Keeps (P : σ → Prop) (E : ε → σ → Prop) (f : EStateM ε σ α) : Prop :=
  ∀ s, P s → Sat f s (fun _ t => P t) E

lemma Keeps.pure {P : σ → Prop} {E : ε → σ → Prop} (a : α) :
    Keeps P E (pure a : EStateM ε σ α) := fun _ h => sat_pure.mpr h

lemma Keeps.bind {P : σ → Prop} {E : ε → σ → Prop} {f : EStateM ε σ α} {g : α → EStateM ε σ β}
    (hf : Keeps P E f) (hg : ∀ a, Keeps P E (g a)) : Keeps P E (f >>= g) := by
  intro s hs
  rw [sat_bind]
  exact (hf s hs).post (fun a t ht => hg a t ht)

lemma Keeps.forM {P : σ → Prop} {E : ε → σ → Prop} {f : α → EStateM ε σ PUnit} {l : List α}
    (h : ∀ a ∈ l, Keeps P E (f a)) : Keeps P E (forM l f) := by
  induction l with
  | nil => exact Keeps.pure _
  | cons a l ih =>
    rw [List.forM_cons]
    apply Keeps.bind
    · exact h a List.mem_cons_self
    · exact fun _ => ih (fun b hb => h b (List.mem_cons_of_mem a hb))

/-! ### Looking at places -/

/-- `f` looks at the places of `A`: it keeps `P` and all of them are in order, or it leaves with `e` and
one of them is not. -/
def Probes {κ : Type} (P : σ → Prop) (e : ε) (ok : κ → Prop) (A : Set κ) (f : EStateM ε σ α) : Prop :=
  ∀ s, P s → Sat f s (fun _ t => P t ∧ ∀ k ∈ A, ok k) (fun e' _ => e' = e ∧ ∃ k ∈ A, ¬ok k)

section Probes

variable {κ : Type} {P : σ → Prop} {e : ε} {ok : κ → Prop} {A A' : Set κ}

lemma Probes.pure (a : α) : Probes P e ok ∅ (pure a : EStateM ε σ α) :=
  fun _ h => sat_pure.mpr ⟨h, fun k hk => absurd hk (Set.notMem_empty k)⟩

lemma Probes.bind {f : EStateM ε σ α} {g : α → EStateM ε σ β} (hf : Probes P e ok A f)
    (hg : ∀ a, Probes P e ok A' (g a)) : Probes P e ok (A ∪ A') (f >>= g) := by
  intro s hs
  rw [sat_bind]
  refine (hf s hs).mono ?_ ?_
  · rintro a t ⟨ht, hA⟩
    refine (hg a t ht).mono ?_ ?_
    · rintro b u ⟨hu, hA'⟩
      exact ⟨hu, fun k hk => hk.elim (hA k) (hA' k)⟩
    · rintro e' u ⟨he, k, hk, hbad⟩
      exact ⟨he, k, Or.inr hk, hbad⟩
  · rintro e' t ⟨he, k, hk, hbad⟩
    exact ⟨he, k, Or.inl hk, hbad⟩

lemma Probes.congr {f : EStateM ε σ α} (hf : Probes P e ok A f) (hA : ∀ k, k ∈ A ↔ k ∈ A') :
    Probes P e ok A' f := by
  rwa [← Set.ext hA]

/-- The program leaves if some place is not in order. -/
lemma Probes.leaves {f : EStateM ε σ α} {s : σ} {k : κ} (hf : Probes P e ok A f) (hs : P s) (hk : k ∈ A)
    (hbad : ¬ok k) : Sat f s (fun _ _ => False) (fun e' _ => e' = e) :=
  (hf s hs).mono (fun _ _ h => hbad (h.2 k hk)) (fun _ _ h => h.1)

end Probes

/-- Loop rule for `n` iterations from `k` on: an invariant indexed by the next iteration. -/
lemma sat_forM_range' {f : ℕ → EStateM ε σ PUnit} {E : ε → σ → Prop} (I : ℕ → σ → Prop) (k n : ℕ)
    (hstep : ∀ i s, k ≤ i → i < k + n → I i s → Sat (f i) s (fun _ t => I (i + 1) t) E) {s : σ}
    (hs : I k s) : Sat (forM (List.range' k n) f) s (fun _ t => I (k + n) t) E := by
  induction n generalizing k s with
  | zero => exact sat_pure.mpr hs
  | succ n ih =>
    rw [List.range'_succ, List.forM_cons, sat_bind]
    refine (hstep k s (Nat.le_refl k) (by omega) hs).post (fun _ t ht => ?_)
    have hadd : k + (n + 1) = k + 1 + n := by omega
    rw [hadd]
    exact ih (k + 1) (fun i s hi hi' hI => hstep i s (by omega) (by omega) hI) ht

/-- Loop rule: an invariant indexed by the number of iterations already made. -/
lemma sat_forM_range {f : ℕ → EStateM ε σ PUnit} {E : ε → σ → Prop} (I : ℕ → σ → Prop) (n : ℕ)
    (hstep : ∀ i s, i < n → I i s → Sat (f i) s (fun _ t => I (i + 1) t) E) {s : σ} (hs : I 0 s) :
    Sat (forM (List.range n) f) s (fun _ t => I n t) E := by
  rw [List.range_eq_range']
  have h := sat_forM_range' I 0 n (fun i s _ hi hI => hstep i s (by omega) hI) hs
  rw [Nat.zero_add] at h
  exact h

/-! ### Programs on a component of the state -/

/-- Run a program on the component of the state selected by `get` and replaced by `put`. -/
def zoom (get : σ → τ) (put : τ → σ → σ) (f : EStateM ε τ α) : EStateM ε σ α := fun s =>
  match f (get s) with
  | .ok a t => .ok a (put t s)
  | .error e t => .error e (put t s)

@[simp] lemma sat_zoom {get : σ → τ} {put : τ → σ → σ} {f : EStateM ε τ α} {s : σ}
    {Q : α → σ → Prop} {E : ε → σ → Prop} :
    Sat (zoom get put f) s Q E ↔
      Sat f (get s) (fun a t => Q a (put t s)) (fun e t => E e (put t s)) := by
  unfold Sat zoom
  cases f (get s) <;> rfl

end SistemasOperativos.Library
