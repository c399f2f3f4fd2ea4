import Mathlib.Logic.Function.Basic
import Mathlib.Data.List.Nodup

/-!
# Intrusive singly linked lists

A list threaded through a link field: `Linked link head l` says that following `link` from
`head` visits exactly the nodes of `l`, in order, and then ends.
-/

namespace SistemasOperativos.Library

variable {κ : Type}

/-- Following `link` from `head` visits the nodes of `l` in order and ends. -/
def Linked (link : κ → Option κ) : Option κ → List κ → Prop
  | head, [] => head = none
  | head, a :: l => head = some a ∧ Linked link (link a) l

@[simp] lemma linked_nil {link : κ → Option κ} {head : Option κ} :
    Linked link head [] ↔ head = none := Iff.rfl

@[simp] lemma linked_cons {link : κ → Option κ} {head : Option κ} {a : κ} {l : List κ} :
    Linked link head (a :: l) ↔ head = some a ∧ Linked link (link a) l := Iff.rfl

lemma linked_none {link : κ → Option κ} {l : List κ} (h : Linked link none l) : l = [] := by
  cases l with
  | nil => rfl
  | cons a l => simp at h

lemma linked_some {link : κ → Option κ} {a : κ} {l : List κ} (h : Linked link (some a) l) :
    ∃ l', l = a :: l' ∧ Linked link (link a) l' := by
  cases l with
  | nil => simp at h
  | cons b l =>
    obtain ⟨hb, hl⟩ := h
    obtain rfl := Option.some.inj hb
    exact ⟨l, rfl, hl⟩

/-- The nodes are determined by the head and the links. -/
lemma Linked.unique {link : κ → Option κ} {head : Option κ} {l l' : List κ}
    (h : Linked link head l) (h' : Linked link head l') : l = l' := by
  induction l generalizing head l' with
  | nil =>
    obtain rfl : head = none := h
    exact (linked_none h').symm
  | cons a l ih =>
    obtain ⟨rfl, hl⟩ := h
    obtain ⟨l'', rfl, hl'⟩ := linked_some h'
    rw [ih hl hl']

/-- Only the links of the visited nodes matter. -/
lemma Linked.congr {link link' : κ → Option κ} {head : Option κ} {l : List κ}
    (h : Linked link head l) (heq : ∀ a ∈ l, link' a = link a) : Linked link' head l := by
  induction l generalizing head with
  | nil => exact h
  | cons a l ih =>
    obtain ⟨ha, hl⟩ := h
    refine ⟨ha, ?_⟩
    rw [heq a (by simp)]
    exact ih hl (fun b hb => heq b (by simp [hb]))

/-- The chain through all of `Fin N`, in order. -/
lemma exists_linked_fin (N : ℕ) (hN : 0 < N) : ∃ l : List (Fin N),
    Linked (fun i : Fin N => if h : i.val + 1 < N then some ⟨i.val + 1, h⟩ else none)
      (some ⟨0, hN⟩) l ∧ l.Nodup ∧ ∀ i, i ∈ l := by
  have key : ∀ (m k : ℕ), k + m = N →
      Linked (fun i : Fin N => if h : i.val + 1 < N then some ⟨i.val + 1, h⟩ else none)
        (if h : k < N then some ⟨k, h⟩ else none) ((List.finRange N).drop k) := by
    intro m
    induction m with
    | zero =>
      intro k hk
      rw [List.drop_eq_nil_of_le (by simp; omega), dif_neg (by omega)]
      rfl
    | succ m ih =>
      intro k hk
      have hlt : k < N := by omega
      rw [List.drop_eq_getElem_cons (by simpa using hlt), dif_pos hlt]
      refine ⟨by simp, ?_⟩
      have hnext := ih (k + 1) (by omega)
      simpa using hnext
  have h0 := key N 0 (Nat.zero_add N)
  rw [dif_pos hN] at h0
  exact ⟨List.finRange N, h0, List.nodup_finRange N, List.mem_finRange⟩

variable [DecidableEq κ]

lemma Linked.update {link : κ → Option κ} {head : Option κ} {l : List κ} {a : κ}
    (h : Linked link head l) (ha : a ∉ l) (x : Option κ) :
    Linked (Function.update link a x) head l := by
  refine h.congr (fun b hb => ?_)
  have hne : b ≠ a := fun e => ha (e ▸ hb)
  rw [Function.update_of_ne hne]

/-- Pushing a node that is not in the list. -/
lemma Linked.push {link : κ → Option κ} {head : Option κ} {l : List κ} {a : κ}
    (h : Linked link head l) (ha : a ∉ l) :
    Linked (Function.update link a head) (some a) (a :: l) := by
  refine ⟨rfl, ?_⟩
  rw [Function.update_self]
  exact h.update ha head

/-- The links that thread the list `l`. -/
def linksOf (l : List κ) (a : κ) : Option κ := l[l.idxOf a + 1]?

lemma linked_linksOf {l : List κ} (hl : l.Nodup) : Linked (linksOf l) l.head? l := by
  have key : ∀ (m : List κ) (k : ℕ), m = l.drop k → Linked (linksOf l) l[k]? m := by
    intro m
    induction m with
    | nil =>
      intro k hk
      have : l.length ≤ k := List.drop_eq_nil_iff.mp hk.symm
      simpa using this
    | cons a m ih =>
      intro k hk
      have hlen : k < l.length := by
        by_contra hge
        rw [List.drop_eq_nil_of_le (Nat.le_of_not_lt hge)] at hk
        cases hk
      rw [List.drop_eq_getElem_cons hlen] at hk
      obtain ⟨rfl, rfl⟩ := List.cons.inj hk
      refine ⟨List.getElem?_eq_getElem hlen, ?_⟩
      have hidx : linksOf l l[k] = l[k + 1]? := by
        unfold linksOf
        rw [hl.idxOf_getElem k hlen]
      rw [hidx]
      exact ih (k + 1) rfl
  have h := key l 0 (by simp)
  rwa [← List.head?_eq_getElem?] at h

lemma linksOf_notMem {l : List κ} {a : κ} (ha : a ∉ l) : linksOf l a = none := by
  unfold linksOf
  rw [List.idxOf_eq_length ha]
  simp

end SistemasOperativos.Library
