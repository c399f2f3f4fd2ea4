import Mathlib.Data.List.Sort
import Mathlib.Data.Nat.Prime.Basic

/-!
# The sieve of Eratosthenes on lists

The first number of the list is kept and its multiples are removed from the rest.
-/

namespace SistemasOperativos.Library

/-- The numbers of a list that are no multiples of `p`. -/
def coprimeTo (p : ℕ) (l : List ℕ) : List ℕ := l.filter (fun x => x % p ≠ 0)

lemma length_coprimeTo (p : ℕ) (l : List ℕ) : (coprimeTo p l).length ≤ l.length :=
  List.length_filter_le _ _

lemma mem_coprimeTo {p x : ℕ} {l : List ℕ} : x ∈ coprimeTo p l ↔ x ∈ l ∧ ¬p ∣ x := by
  unfold coprimeTo
  rw [List.mem_filter, decide_eq_true_eq, Nat.dvd_iff_mod_eq_zero]

def sieve : List ℕ → List ℕ
  | [] => []
  | p :: l => p :: sieve (coprimeTo p l)
termination_by l => l.length
decreasing_by
  have h := length_coprimeTo p l
  rw [List.length_cons]
  omega

@[simp] lemma sieve_nil : sieve [] = [] := by
  unfold sieve
  rfl

@[simp] lemma sieve_cons (p : ℕ) (l : List ℕ) : sieve (p :: l) = p :: sieve (coprimeTo p l) := by
  conv_lhs => unfold sieve

/-- Induction along the sieve. -/
lemma sieve_induction {P : List ℕ → Prop} (nil : P [])
    (cons : ∀ p l, P (coprimeTo p l) → P (p :: l)) (l : List ℕ) : P l := by
  induction l using sieve.induct with
  | case1 => exact nil
  | case2 p l ih => exact cons p l ih

lemma sieve_sublist (l : List ℕ) : (sieve l).Sublist l := by
  induction l using sieve_induction with
  | nil => simp
  | cons p l ih =>
    rw [sieve_cons]
    exact (ih.trans List.filter_sublist).cons_cons p

/-- The numbers from `m` to `n` without a prime factor below `m`, in order. -/
structure Remaining (n m : ℕ) (l : List ℕ) : Prop where
  sorted : l.Pairwise (· < ·)
  mem : ∀ x, x ∈ l ↔ m ≤ x ∧ x ≤ n ∧ ∀ q, q.Prime → q ∣ x → m ≤ q

/-- The first of them is a prime number. -/
lemma Remaining.prime {n m p : ℕ} {l : List ℕ} (h : Remaining n m (p :: l)) (hm : 2 ≤ m) :
    p.Prime := by
  obtain ⟨hle, hlen, hq⟩ := (h.mem p).mp List.mem_cons_self
  have hne : p ≠ 1 := by omega
  have hprime := Nat.minFac_prime hne
  have hdvd := Nat.minFac_dvd p
  have hge := hq _ hprime hdvd
  have hmin : p.minFac ≤ p := Nat.minFac_le (by omega)
  have hmem : p.minFac ∈ p :: l := by
    refine (h.mem _).mpr ⟨hge, hmin.trans hlen, fun q hq' hd => ?_⟩
    exact hq q hq' (hd.trans hdvd)
  rcases List.mem_cons.mp hmem with heq | hin
  · rw [← heq]
    exact hprime
  · have hlt := List.rel_of_pairwise_cons h.sorted hin
    omega

/-- A prime number from `m` on is not left out. -/
lemma Remaining.le_of_prime {n m p q : ℕ} {l : List ℕ} (h : Remaining n m (p :: l)) (hq : q.Prime)
    (hm : m ≤ q) (hn : q ≤ n) : p ≤ q := by
  have hmem : q ∈ p :: l := by
    refine (h.mem q).mpr ⟨hm, hn, fun r hr hd => ?_⟩
    rw [(Nat.prime_dvd_prime_iff_eq hr hq).mp hd]
    exact hm
  rcases List.mem_cons.mp hmem with heq | hin
  · exact heq.ge
  · exact (List.rel_of_pairwise_cons h.sorted hin).le

lemma Remaining.next {n m p : ℕ} {l : List ℕ} (h : Remaining n m (p :: l)) (hprime : p.Prime) :
    Remaining n (p + 1) (coprimeTo p l) := by
  obtain ⟨hmp, hpn, -⟩ := (h.mem p).mp List.mem_cons_self
  constructor
  · exact (List.Pairwise.of_cons h.sorted).sublist List.filter_sublist
  · intro x
    rw [mem_coprimeTo]
    constructor
    · rintro ⟨hx, hpx⟩
      obtain ⟨-, hxn, hq⟩ := (h.mem x).mp (List.mem_cons_of_mem p hx)
      refine ⟨List.rel_of_pairwise_cons h.sorted hx, hxn, fun q hq' hd => ?_⟩
      have hxpos : 0 < x := Nat.pos_of_ne_zero (fun h0 => hpx (h0 ▸ Nat.dvd_zero p))
      have hle := h.le_of_prime hq' (hq q hq' hd) ((Nat.le_of_dvd hxpos hd).trans hxn)
      have hne : q ≠ p := fun heq => hpx (heq ▸ hd)
      omega
    · rintro ⟨hpx, hxn, hq⟩
      have hmem : x ∈ p :: l := by
        refine (h.mem x).mpr ⟨by omega, hxn, fun q hq' hd => ?_⟩
        have hlt := hq q hq' hd
        omega
      rcases List.mem_cons.mp hmem with heq | hin
      · omega
      · refine ⟨hin, fun hd => ?_⟩
        have hlt := hq p hprime hd
        omega

/-- The sieve keeps the prime numbers. -/
lemma Remaining.mem_sieve {n m x : ℕ} {l : List ℕ} (h : Remaining n m l) (hm : 2 ≤ m) :
    x ∈ sieve l ↔ x.Prime ∧ m ≤ x ∧ x ≤ n := by
  induction l using sieve_induction generalizing m with
  | nil =>
    rw [sieve_nil]
    refine iff_of_false List.not_mem_nil (fun ⟨hprime, hmx, hxn⟩ => ?_)
    have hmem : x ∈ [] := by
      refine (h.mem x).mpr ⟨hmx, hxn, fun q hq hd => ?_⟩
      rw [(Nat.prime_dvd_prime_iff_eq hq hprime).mp hd]
      exact hmx
    exact absurd hmem List.not_mem_nil
  | cons p l ih =>
    obtain ⟨hmp, hpn, -⟩ := (h.mem p).mp List.mem_cons_self
    have hprime := h.prime hm
    rw [sieve_cons, List.mem_cons, ih (h.next hprime) (by omega)]
    constructor
    · rintro (rfl | ⟨hx, hlt, hle⟩)
      · exact ⟨hprime, hmp, hpn⟩
      · exact ⟨hx, by omega, hle⟩
    · rintro ⟨hx, hmx, hxn⟩
      have hle := h.le_of_prime hx hmx hxn
      by_cases heq : x = p
      · exact .inl heq
      · exact .inr ⟨hx, by omega, hxn⟩

lemma remaining_range (n : ℕ) : Remaining n 2 (List.range' 2 (n - 1)) := by
  constructor
  · exact List.pairwise_lt_range'
  · intro x
    rw [List.mem_range'_1]
    constructor
    · rintro ⟨h2, hlt⟩
      exact ⟨h2, by omega, fun q hq _ => hq.two_le⟩
    · rintro ⟨h2, hle, -⟩
      exact ⟨h2, by omega⟩

/-- The sieve of the numbers from 2 to `n` gives the prime numbers up to `n`. -/
lemma mem_sieve_range {n x : ℕ} : x ∈ sieve (List.range' 2 (n - 1)) ↔ x.Prime ∧ x ≤ n := by
  rw [(remaining_range n).mem_sieve le_rfl]
  constructor
  · rintro ⟨hx, -, hle⟩
    exact ⟨hx, hle⟩
  · rintro ⟨hx, hle⟩
    exact ⟨hx, hx.two_le, hle⟩

lemma nodup_sieve_range (n : ℕ) : (sieve (List.range' 2 (n - 1))).Nodup :=
  (sieve_sublist _).nodup List.nodup_range'

end SistemasOperativos.Library
