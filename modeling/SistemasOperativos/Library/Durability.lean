import Mathlib.Data.List.Basic
import SistemasOperativos.Library.WriteBack

/-!
# What a write-back cache leaves on its disk

Predicates that every use of the cache keeps, and the disk as it is found after the cache is lost: the first
disk with the writes of the log.
-/

namespace SistemasOperativos.Library.WriteBack

variable {α : Type} {s t : WriteBack α} {b b' : ℕ} {P Q : WriteBack α → Prop} {disk : ℕ → ℕ → α}

/-- `P` is kept when a block is loaded, changed or flushed, or gets a page of which everything is written. -/
structure Stable (P : WriteBack α → Prop) : Prop where
  load : ∀ s b, P s → P (s.load b)
  change : ∀ s b g, P s → P (s.change b g)
  flush : ∀ s b, P s → P (s.flush b)
  renew : ∀ s b data g, P s → P ((s.map b data).change b g)

lemma Stable.and (hp : Stable P) (hq : Stable Q) : Stable (fun s => P s ∧ Q s) where
  load s b h := ⟨hp.load s b h.1, hq.load s b h.2⟩
  change s b g h := ⟨hp.change s b g h.1, hq.change s b g h.2⟩
  flush s b h := ⟨hp.flush s b h.1, hq.flush s b h.2⟩
  renew s b data g h := ⟨hp.renew s b data g h.1, hq.renew s b data g h.2⟩

lemma stable_coherent : Stable (Coherent (α := α)) where
  load _ b h := h.load b
  change _ b g h := h.change b g
  flush _ b h := h.flush b
  renew s b data g h := by
    intro b' data' hb'
    unfold WriteBack.change map at hb' ⊢
    by_cases hb : b' = b
    · subst hb
      simp only [Function.update_self, Option.map_some, Option.some.injEq, Page.mk.injEq] at hb'
      cases hb'.2
    · simp only [Function.update_of_ne hb] at hb'
      exact h b' data' hb'

/-- The disk after the writes of a log. -/
def replay (disk : ℕ → ℕ → α) (log : List (ℕ × (ℕ → α))) : ℕ → ℕ → α :=
  log.foldl (fun d w => Function.update d w.1 w.2) disk

/-- The disk was `disk`, and has had the writes of the log. -/
def Replays (disk : ℕ → ℕ → α) (s : WriteBack α) : Prop := s.disk = replay disk s.log

lemma stable_replays (disk : ℕ → ℕ → α) : Stable (Replays disk) where
  load _ _ h := h
  change _ _ _ h := h
  flush s b h := by
    by_cases hdirty : s.IsDirty b
    · obtain ⟨data, hdata⟩ := hdirty
      rw [flush_of_dirty hdata]
      unfold Replays replay at h ⊢
      rw [List.foldl_append, ← h]
      rfl
    · rw [flush_of_not_dirty hdirty]
      exact h
  renew _ _ _ _ h := h

/-- The cache is lost. -/
def reopen (s : WriteBack α) : WriteBack α := { s with pages := fun _ => none }

/-- What is not dirty is not lost. -/
lemma Coherent.block_reopen (h : s.Coherent) (hb : ¬s.IsDirty b) : s.reopen.block b = s.block b := h.disk_eq hb

/-- Blocks are only loaded and flushed: what was not dirty is not, and no block changes. -/
structure Settles (s t : WriteBack α) : Prop where
  block : t.block = s.block
  clean : ∀ b, ¬s.IsDirty b → ¬t.IsDirty b

lemma Settles.refl (s : WriteBack α) : Settles s s := ⟨rfl, fun _ h => h⟩

lemma Settles.trans {u : WriteBack α} (h : Settles s t) (h' : Settles t u) : Settles s u :=
  ⟨h'.block.trans h.block, fun b hb => h'.clean b (h.clean b hb)⟩

lemma settles_load (h : s.pages b = none) : Settles s (s.load b) := by
  refine ⟨block_load h, fun b' hb' hdirty => ?_⟩
  obtain ⟨data, hdata⟩ := hdirty
  unfold load map at hdata
  by_cases hb : b' = b
  · subst hb
    simp at hdata
  · simp only [Function.update_of_ne hb] at hdata
    exact hb' ⟨data, hdata⟩

lemma not_isDirty_flush : ¬(s.flush b).IsDirty b := by
  rintro ⟨data, hdata⟩
  by_cases hdirty : s.IsDirty b
  · obtain ⟨data', hdata'⟩ := hdirty
    rw [flush_of_dirty hdata'] at hdata
    simp at hdata
  · rw [flush_of_not_dirty hdirty] at hdata
    exact hdirty ⟨data, hdata⟩

lemma settles_flush : Settles s (s.flush b) := by
  refine ⟨block_flush, fun b' hb' => ?_⟩
  by_cases hb : b' = b
  · subst hb
    exact not_isDirty_flush
  rintro ⟨data, hdata⟩
  by_cases hdirty : s.IsDirty b
  · obtain ⟨data', hdata'⟩ := hdirty
    rw [flush_of_dirty hdata'] at hdata
    simp only [Function.update_of_ne hb] at hdata
    exact hb' ⟨data, hdata⟩
  · rw [flush_of_not_dirty hdirty] at hdata
    exact hb' ⟨data, hdata⟩

end SistemasOperativos.Library.WriteBack
