import Mathlib.Data.Nat.Notation
import Mathlib.Logic.Function.Basic
import Mathlib.Tactic.Common

/-!
# A write-back cache

Blocks of a disk that are read into pages on demand, changed there and written back as a whole.
The log is the sequence of the writes to the disk, oldest first.
-/

namespace SistemasOperativos.Library

variable {α : Type}

structure Page (α : Type) where
  data : ℕ → α
  dirty : Bool

structure WriteBack (α : Type) where
  disk : ℕ → ℕ → α
  pages : ℕ → Option (Page α)
  log : List (ℕ × (ℕ → α))

namespace WriteBack

variable {s : WriteBack α} {b b' : ℕ} {data : ℕ → α} {g : (ℕ → α) → ℕ → α} {p : Page α}

/-- What the block `b` holds, for those who use the cache. -/
def block (s : WriteBack α) (b : ℕ) : ℕ → α :=
  match s.pages b with
  | some p => p.data
  | none => s.disk b

/-- A page for the block `b`. -/
def map (s : WriteBack α) (b : ℕ) (data : ℕ → α) : WriteBack α :=
  { s with pages := Function.update s.pages b (some ⟨data, false⟩) }

/-- The block `b` is read into a page. -/
def load (s : WriteBack α) (b : ℕ) : WriteBack α := s.map b (s.disk b)

/-- The page of the block `b` is changed. -/
def change (s : WriteBack α) (b : ℕ) (g : (ℕ → α) → ℕ → α) : WriteBack α :=
  { s with pages := Function.update s.pages b ((s.pages b).map (fun p => ⟨g p.data, true⟩)) }

/-- The page of the block `b` is written to the disk if it is dirty. -/
def flush (s : WriteBack α) (b : ℕ) : WriteBack α :=
  match s.pages b with
  | some ⟨data, true⟩ =>
    { disk := Function.update s.disk b data
      pages := Function.update s.pages b (some ⟨data, false⟩)
      log := s.log ++ [(b, data)] }
  | _ => s

def IsDirty (s : WriteBack α) (b : ℕ) : Prop := ∃ data, s.pages b = some ⟨data, true⟩

/-- A clean page holds what the disk holds. -/
def Coherent (s : WriteBack α) : Prop :=
  ∀ b data, s.pages b = some ⟨data, false⟩ → data = s.disk b

/-! ### What a block holds -/

lemma block_map : (s.map b data).block b' = if b' = b then data else s.block b' := by
  unfold block map
  by_cases h : b' = b
  · subst h
    simp
  · simp [h]

lemma block_load (h : s.pages b = none) : (s.load b).block = s.block := by
  funext b'
  unfold load
  rw [block_map]
  by_cases hb : b' = b
  · subst hb
    unfold block
    rw [if_pos rfl, h]
  · rw [if_neg hb]

lemma block_change (h : (s.pages b).isSome) :
    (s.change b g).block b' = if b' = b then g (s.block b) else s.block b' := by
  obtain ⟨p, hp⟩ := Option.isSome_iff_exists.mp h
  unfold block change
  by_cases hb : b' = b
  · subst hb
    simp [hp]
  · simp [hb]

lemma flush_of_dirty (h : s.pages b = some ⟨data, true⟩) : s.flush b =
    ⟨Function.update s.disk b data, Function.update s.pages b (some ⟨data, false⟩),
      s.log ++ [(b, data)]⟩ := by
  unfold flush
  rw [h]

lemma flush_of_not_dirty (h : ¬s.IsDirty b) : s.flush b = s := by
  unfold flush
  split
  · rename_i data hdata
    exact absurd ⟨data, hdata⟩ h
  · rfl

lemma block_flush : (s.flush b).block = s.block := by
  by_cases hdirty : s.IsDirty b
  · obtain ⟨data, hdata⟩ := hdirty
    rw [flush_of_dirty hdata]
    funext b'
    unfold block
    by_cases hb : b' = b
    · subst hb
      simp [hdata]
    · simp [hb]
  · rw [flush_of_not_dirty hdirty]

lemma isDirty_change (h : (s.pages b).isSome) : (s.change b g).IsDirty b := by
  obtain ⟨p, hp⟩ := Option.isSome_iff_exists.mp h
  refine ⟨g p.data, ?_⟩
  unfold change
  simp [hp]

lemma disk_flush_self (h : s.IsDirty b) : (s.flush b).disk b = s.block b := by
  obtain ⟨data, hdata⟩ := h
  rw [flush_of_dirty hdata]
  unfold block
  simp [hdata]

lemma disk_flush_of_ne (h : b' ≠ b) : (s.flush b).disk b' = s.disk b' := by
  by_cases hdirty : s.IsDirty b
  · obtain ⟨data, hdata⟩ := hdirty
    rw [flush_of_dirty hdata]
    exact Function.update_of_ne h _ _
  · rw [flush_of_not_dirty hdirty]

/-! ### What is mapped -/

lemma isSome_map : ((s.map b data).pages b').isSome ↔ b' = b ∨ (s.pages b').isSome := by
  unfold map
  by_cases hb : b' = b
  · subst hb
    simp
  · simp [hb]

lemma isSome_change : ((s.change b g).pages b').isSome ↔ (s.pages b').isSome := by
  unfold change
  by_cases hb : b' = b
  · subst hb
    simp
  · simp [hb]

lemma isSome_flush : ((s.flush b).pages b').isSome ↔ (s.pages b').isSome := by
  by_cases hdirty : s.IsDirty b
  · obtain ⟨data, hdata⟩ := hdirty
    rw [flush_of_dirty hdata]
    by_cases hb : b' = b
    · subst hb
      simp [hdata]
    · simp [hb]
  · rw [flush_of_not_dirty hdirty]

/-! ### Coherence -/

lemma Coherent.load (h : s.Coherent) (b : ℕ) : (s.load b).Coherent := by
  intro b' data hb'
  unfold WriteBack.load map at hb' ⊢
  by_cases hb : b' = b
  · subst hb
    simp only [Function.update_self, Option.some.injEq, Page.mk.injEq, and_true] at hb'
    exact hb'.symm
  · simp only [Function.update_of_ne hb] at hb'
    exact h b' data hb'

lemma Coherent.change (h : s.Coherent) (b : ℕ) (g : (ℕ → α) → ℕ → α) : (s.change b g).Coherent := by
  intro b' data hb'
  unfold WriteBack.change at hb' ⊢
  by_cases hb : b' = b
  · subst hb
    simp only [Function.update_self, Option.map_eq_some_iff, Page.mk.injEq] at hb'
    obtain ⟨p, -, -, hfalse⟩ := hb'
    cases hfalse
  · simp only [Function.update_of_ne hb] at hb'
    exact h b' data hb'

lemma Coherent.flush (h : s.Coherent) (b : ℕ) : (s.flush b).Coherent := by
  by_cases hdirty : s.IsDirty b
  · obtain ⟨data, hdata⟩ := hdirty
    rw [flush_of_dirty hdata]
    intro b' data' hb'
    by_cases hb : b' = b
    · subst hb
      simp only [Function.update_self, Option.some.injEq, Page.mk.injEq, and_true] at hb' ⊢
      exact hb'.symm
    · simp only [Function.update_of_ne hb] at hb' ⊢
      exact h b' data' hb'
  · rw [flush_of_not_dirty hdirty]
    exact h

/-- A page that is not dirty can be dropped. -/
lemma Coherent.disk_eq (h : s.Coherent) (hb : ¬s.IsDirty b) : s.disk b = s.block b := by
  unfold block
  cases hp : s.pages b with
  | none => rfl
  | some p =>
    obtain ⟨data, dirty⟩ := p
    cases dirty with
    | false => exact (h b data hp).symm
    | true => exact absurd ⟨data, hp⟩ hb

end WriteBack

end SistemasOperativos.Library
