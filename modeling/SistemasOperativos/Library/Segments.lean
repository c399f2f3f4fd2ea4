import Mathlib.Data.List.GetD

/-!
# The parts between separators

A list is its first part and the other parts with a separator in front of each, and `splitOn` gives
the parts.
-/

namespace SistemasOperativos.Library

variable {α : Type*} [DecidableEq α]

lemma splitOn_parts (x : α) (s : List α) : ∃ first others, s = first ++ others.flatMap (x :: ·) ∧
    s.splitOn x = first :: others ∧ ∀ part ∈ first :: others, x ∉ part := by
  induction hn : s.length using Nat.strongRecOn generalizing s with
  | ind n ih =>
  by_cases h : x ∈ s
  · obtain ⟨u, v, rfl, hu⟩ := List.eq_append_cons_of_mem h
    have hlt : v.length < n := by
      simp only [List.length_append, List.length_cons] at hn
      omega
    obtain ⟨first, others, hv, hsplit, hparts⟩ := ih _ hlt v rfl
    refine ⟨u, first :: others, ?_, ?_, ?_⟩
    · rw [hv]
      rfl
    · rw [List.splitOn_append_cons_self_of_not_mem hu, hsplit]
    · exact List.forall_mem_cons.mpr ⟨hu, hparts⟩
  · refine ⟨s, [], ?_, List.splitOn_eq_singleton h, ?_⟩
    · exact (List.append_nil s).symm
    · simpa using h

end SistemasOperativos.Library
