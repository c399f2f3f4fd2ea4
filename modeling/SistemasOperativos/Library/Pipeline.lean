import Mathlib.Algebra.Group.Basic

/-!
# Pipelines

A chain of processes, each of which makes a stream out of the stream of the one before it. `out n`
is the whole stream that a process in the state `n` is still going to give, as a function of the
whole stream that it is still going to get.
-/

namespace SistemasOperativos.Library

variable {ν α M : Type} [AddCommMonoid M] {out : ν → List α → List α} {f : ν → List α → M}

/-- What comes out at the end of a chain of processes. -/
def flow (out : ν → List α → List α) (nodes : List ν) (input : List α) : List α :=
  nodes.foldl (fun input n => out n input) input

/-- The sum of a quantity over the processes, each with its own input. -/
def total (out : ν → List α → List α) (f : ν → List α → M) : List ν → List α → M
  | [], _ => 0
  | n :: nodes, input => f n input + total out f nodes (out n input)

@[simp] lemma flow_nil (input : List α) : flow out [] input = input := rfl

@[simp] lemma flow_cons (n : ν) (nodes : List ν) (input : List α) :
    flow out (n :: nodes) input = flow out nodes (out n input) := rfl

@[simp] lemma flow_append (a b : List ν) (input : List α) :
    flow out (a ++ b) input = flow out b (flow out a input) := List.foldl_append

@[simp] lemma total_nil (input : List α) : total out f [] input = 0 := rfl

@[simp] lemma total_cons (n : ν) (nodes : List ν) (input : List α) :
    total out f (n :: nodes) input = f n input + total out f nodes (out n input) := rfl

@[simp] lemma total_append (a b : List ν) (input : List α) :
    total out f (a ++ b) input = total out f a input + total out f b (flow out a input) := by
  induction a generalizing input with
  | nil => rw [List.nil_append, total_nil, zero_add, flow_nil]
  | cons n a ih => rw [List.cons_append, total_cons, ih, total_cons, flow_cons, add_assoc]

/-- A quantity of which no process has any. -/
lemma total_eq_zero {nodes : List ν} (h : ∀ n ∈ nodes, ∀ input, f n input = 0) (input : List α) :
    total out f nodes input = 0 := by
  induction nodes generalizing input with
  | nil => rfl
  | cons n nodes ih =>
    rw [total_cons, h n List.mem_cons_self, zero_add]
    exact ih (fun m hm => h m (List.mem_cons_of_mem n hm)) _

/-- A property of the processes and their places in the chain. -/
def AllFrom (P : ℕ → ν → Prop) : ℕ → List ν → Prop
  | _, [] => True
  | k, n :: nodes => P k n ∧ AllFrom P (k + 1) nodes

section AllFrom

variable {P : ℕ → ν → Prop}

@[simp] lemma allFrom_nil (k : ℕ) : AllFrom P k [] := trivial

@[simp] lemma allFrom_cons {k : ℕ} {n : ν} {nodes : List ν} :
    AllFrom P k (n :: nodes) ↔ P k n ∧ AllFrom P (k + 1) nodes := Iff.rfl

@[simp] lemma allFrom_append {k : ℕ} {a b : List ν} :
    AllFrom P k (a ++ b) ↔ AllFrom P k a ∧ AllFrom P (k + a.length) b := by
  induction a generalizing k with
  | nil => simp
  | cons n a ih =>
    rw [List.cons_append, allFrom_cons, ih, allFrom_cons, and_assoc, List.length_cons,
      Nat.add_right_comm, Nat.add_assoc]

lemma AllFrom.mem {k : ℕ} {nodes : List ν} (h : AllFrom P k nodes) {n : ν} (hn : n ∈ nodes) :
    ∃ j, k ≤ j ∧ j < k + nodes.length ∧ P j n := by
  induction nodes generalizing k with
  | nil => exact absurd hn List.not_mem_nil
  | cons m nodes ih =>
    rw [List.length_cons]
    rcases List.mem_cons.mp hn with rfl | hn
    · exact ⟨k, Nat.le_refl k, by omega, h.1⟩
    · obtain ⟨j, hle, hlt, hP⟩ := ih h.2 hn
      exact ⟨j, by omega, by omega, hP⟩

end AllFrom

/-- A property of every process and the one that follows it. -/
def Chained (F : ν → Option ν → Prop) : List ν → Prop
  | [] => True
  | n :: nodes => F n nodes.head? ∧ Chained F nodes

section Chained

variable {F : ν → Option ν → Prop} {pre l l' : List ν}

@[simp] lemma chained_nil : Chained F [] := trivial

@[simp] lemma chained_cons {n : ν} {nodes : List ν} :
    Chained F (n :: nodes) ↔ F n nodes.head? ∧ Chained F nodes := Iff.rfl

lemma Chained.right (h : Chained F (pre ++ l)) : Chained F l := by
  induction pre with
  | nil => exact h
  | cons n pre ih => exact ih h.2

/-- The end of the chain is replaced. -/
lemma Chained.replace (h : Chained F (pre ++ l)) (hhead : ∀ w ∈ pre, F w l.head? → F w l'.head?)
    (hl : Chained F l → Chained F l') : Chained F (pre ++ l') := by
  induction pre with
  | nil => exact hl h
  | cons n pre ih =>
    refine ⟨?_, ih h.2 (fun w hw => hhead w (List.mem_cons_of_mem n hw))⟩
    have hn := h.1
    cases pre with
    | nil => exact hhead n List.mem_cons_self hn
    | cons m pre => exact hn

end Chained

/-- The last process with a property. -/
lemma exists_last {p : ν → Prop} {nodes : List ν} (h : ∃ n ∈ nodes, p n) :
    ∃ pre n post, nodes = pre ++ n :: post ∧ p n ∧ ∀ m ∈ post, ¬p m := by
  induction nodes with
  | nil =>
    obtain ⟨n, hn, -⟩ := h
    exact absurd hn List.not_mem_nil
  | cons m nodes ih =>
    by_cases htail : ∃ n ∈ nodes, p n
    · obtain ⟨pre, n, post, rfl, hn, hpost⟩ := ih htail
      exact ⟨m :: pre, n, post, rfl, hn, hpost⟩
    · refine ⟨[], m, nodes, rfl, ?_, fun n hn hp => htail ⟨n, hn, hp⟩⟩
      obtain ⟨n, hn, hp⟩ := h
      rcases List.mem_cons.mp hn with rfl | hn
      · exact hp
      · exact absurd ⟨n, hn, hp⟩ htail

end SistemasOperativos.Library
