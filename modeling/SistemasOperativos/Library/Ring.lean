import Mathlib.Data.Nat.ModEq
import Mathlib.Logic.Function.Basic
import Mathlib.Tactic.Common

/-!
# Ring buffers

`Window N cell log r`: the ring of `N` cells holds the values of `log` from position `r` on, the
value of position `k` in cell `k % N`.
-/

namespace SistemasOperativos.Library

variable {β : Type} {N : ℕ} {cell : ℕ → β} {log : List β} {r : ℕ}

def Window (N : ℕ) (cell : ℕ → β) (log : List β) (r : ℕ) : Prop :=
  ∀ k, r ≤ k → ∀ b, log[k]? = some b → cell (k % N) = b

lemma window_empty : Window N cell log log.length := by
  intro k hk b hb
  rw [List.getElem?_eq_none hk] at hb
  cases hb

/-- Taking a value. -/
lemma Window.advance (h : Window N cell log r) : Window N cell log (r + 1) := by
  intro k hk
  exact h k (by omega)

/-- Storing a value in the next cell, when one is left. -/
lemma Window.push (h : Window N cell log r) (hroom : log.length < r + N) (b : β) :
    Window N (Function.update cell (log.length % N) b) (log ++ [b]) r := by
  intro k hk c hc
  by_cases hlast : k = log.length
  · subst hlast
    rw [List.getElem?_append_right (Nat.le_refl _), Nat.sub_self] at hc
    rw [Function.update_self]
    exact Option.some.inj hc
  · have hlt : k < log.length := by
      have hle := (List.getElem?_eq_some_iff.mp hc).1
      rw [List.length_append, List.length_singleton] at hle
      omega
    have hne : k % N ≠ log.length % N := by
      intro heq
      have hdvd : N ∣ log.length - k := (Nat.modEq_iff_dvd' hlt.le).mp heq
      have hle := Nat.le_of_dvd (by omega) hdvd
      omega
    rw [Function.update_of_ne hne]
    rw [List.getElem?_append_left hlt] at hc
    exact h k hk c hc

end SistemasOperativos.Library
