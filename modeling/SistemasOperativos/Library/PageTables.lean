import Mathlib.Data.Fintype.Sigma
import Mathlib.Data.Fintype.Sum
import Mathlib.Logic.Function.Basic
import Mathlib.Tactic.DeriveFintype
import Mathlib.Tactic.Common

/-!
# Two-level tables in memory

A family of directories, each a frame of words that may point to frames of entries, which may
point to frames in turn. `refMap` lists every pointer of the family; `Exclusive` says that a
frame used as a directory or as a table has no second pointer to it. Under exclusivity a store
into one table changes one entry of one address space and nothing else.
-/

namespace SistemasOperativos.Library

variable {ι W : Type}

/-- Replace word `i` of frame `f`. -/
def setWord (mem : ℕ → ℕ → W) (f i : ℕ) (w : W) : ℕ → ℕ → W :=
  Function.update mem f (Function.update (mem f) i w)

lemma setWord_apply (mem : ℕ → ℕ → W) (f i : ℕ) (w : W) (g j : ℕ) :
    setWord mem f i w g j = if g = f ∧ j = i then w else mem g j := by
  unfold setWord
  by_cases hg : g = f
  · subst hg
    by_cases hj : j = i
    · subst hj; simp
    · simp [hj]
  · simp [hg]

lemma setWord_of_ne {mem : ℕ → ℕ → W} {f i g : ℕ} {w : W} (h : g ≠ f) :
    setWord mem f i w g = mem g := by
  unfold setWord
  rw [Function.update_of_ne h]

/-- The pointers of a family of directories: the directories themselves, the `n` entries of
each that are of interest, and the `m` entries of every table. -/
inductive Ref (ι : Type) (n m : ℕ)
  | dir (i : ι)
  | pde (i : ι) (x : Fin n)
  | pte (i : ι) (x : Fin n) (y : Fin m)
  deriving DecidableEq, Fintype

/-- A pointer to a directory or to a table. -/
def Ref.Interior {n m : ℕ} : Ref ι n m → Prop
  | .dir _ => True
  | .pde _ _ => True
  | .pte _ _ _ => False

/-- The frame of the table behind entry `x` of directory `i`. -/
def tableAt (target : W → Option ℕ) (dirs : ι → Option ℕ) (mem : ℕ → ℕ → W) (i : ι) (x : ℕ) :
    Option ℕ :=
  (dirs i).bind (fun d => target (mem d x))

/-- The entry for page `(x, y)` of directory `i`, `zero` where there is no table. -/
def entryAt (target : W → Option ℕ) (zero : W) (dirs : ι → Option ℕ) (mem : ℕ → ℕ → W) (i : ι)
    (x y : ℕ) : W :=
  match tableAt target dirs mem i x with
  | some t => mem t y
  | none => zero

/-- What each pointer points to. -/
def refMap (target : W → Option ℕ) (dirs : ι → Option ℕ) (mem : ℕ → ℕ → W) {n m : ℕ} :
    Ref ι n m → Option ℕ
  | .dir i => dirs i
  | .pde i x => tableAt target dirs mem i x
  | .pte i x y => (tableAt target dirs mem i x).bind (fun t => target (mem t y))

/-- A frame used as a directory or as a table has one pointer. -/
def Exclusive {n m : ℕ} (p : Ref ι n m → Option ℕ) : Prop :=
  ∀ r r' f, r.Interior → p r = some f → p r' = some f → r' = r

section Exclusive

variable {n m : ℕ} [DecidableEq ι] {p : Ref ι n m → Option ℕ} {r : Ref ι n m} {f : ℕ}

lemma Exclusive.update_fresh (h : Exclusive p) (hf : ∀ r', p r' ≠ some f) :
    Exclusive (Function.update p r (some f)) := by
  intro a b g hi ha hb
  by_cases har : a = r <;> by_cases hbr : b = r
  · rw [har, hbr]
  · subst har
    rw [Function.update_self] at ha
    rw [Function.update_of_ne hbr, ← ha] at hb
    exact absurd hb (hf b)
  · subst hbr
    rw [Function.update_self] at hb
    rw [Function.update_of_ne har, ← hb] at ha
    exact absurd ha (hf a)
  · rw [Function.update_of_ne har] at ha
    rw [Function.update_of_ne hbr] at hb
    exact h a b g hi ha hb

lemma Exclusive.update_leaf (h : Exclusive p) (hr : ¬ r.Interior)
    (hf : ∀ r', r'.Interior → p r' ≠ some f) : Exclusive (Function.update p r (some f)) := by
  intro a b g hi ha hb
  have har : a ≠ r := fun e => hr (e ▸ hi)
  rw [Function.update_of_ne har] at ha
  by_cases hbr : b = r
  · subst hbr
    rw [Function.update_self] at hb
    rw [← hb] at ha
    exact absurd ha (hf a hi)
  · rw [Function.update_of_ne hbr] at hb
    exact h a b g hi ha hb

lemma Exclusive.update_none (h : Exclusive p) : Exclusive (Function.update p r none) := by
  intro a b g hi ha hb
  have har : a ≠ r := by
    rintro rfl
    rw [Function.update_self] at ha
    cases ha
  have hbr : b ≠ r := by
    rintro rfl
    rw [Function.update_self] at hb
    cases hb
  rw [Function.update_of_ne har] at ha
  rw [Function.update_of_ne hbr] at hb
  exact h a b g hi ha hb

end Exclusive

section Stores

variable {target : W → Option ℕ} {zero : W} {dirs : ι → Option ℕ} {mem mem' : ℕ → ℕ → W}
  {n m : ℕ} {i : ι} {d t x y : ℕ}

lemma tableAt_of_dir (h : dirs i = some d) :
    tableAt target dirs mem i x = target (mem d x) := by
  unfold tableAt
  rw [h]
  rfl

lemma tableAt_some (h : tableAt target dirs mem i x = some t) :
    ∃ d, dirs i = some d ∧ target (mem d x) = some t := by
  unfold tableAt at h
  exact Option.bind_eq_some_iff.mp h

lemma entryAt_of_table (h : tableAt target dirs mem i x = some t) :
    entryAt target zero dirs mem i x y = mem t y := by
  unfold entryAt
  rw [h]

lemma entryAt_of_none (h : tableAt target dirs mem i x = none) :
    entryAt target zero dirs mem i x y = zero := by
  unfold entryAt
  rw [h]

@[simp] lemma refMap_dir : refMap target dirs mem (.dir i : Ref ι n m) = dirs i := rfl

@[simp] lemma refMap_pde {x : Fin n} :
    refMap target dirs mem (.pde i x : Ref ι n m) = tableAt target dirs mem i x := rfl

/-- The page pointers of an address space are the targets of its entries. -/
lemma refMap_pte (h0 : target zero = none) {x : Fin n} {y : Fin m} :
    refMap target dirs mem (.pte i x y : Ref ι n m) =
      target (entryAt target zero dirs mem i x y) := by
  cases h : tableAt target dirs mem i x with
  | none =>
    rw [entryAt_of_none h, h0]
    simp [refMap, h]
  | some t =>
    rw [entryAt_of_table h]
    simp [refMap, h]

/-- Only the targets of the words of directories and tables matter. -/
lemma refMap_congr
    (h : ∀ (r : Ref ι n m) f, r.Interior → refMap target dirs mem r = some f →
      ∀ k, target (mem' f k) = target (mem f k)) :
    refMap target dirs mem' = (refMap target dirs mem : Ref ι n m → Option ℕ) := by
  have htab : ∀ i (x : Fin n), tableAt target dirs mem' i x = tableAt target dirs mem i x := by
    intro i x
    cases hd : dirs i with
    | none => simp [tableAt, hd]
    | some d =>
      rw [tableAt_of_dir hd, tableAt_of_dir hd]
      exact h (.dir i) d trivial hd x
  funext r
  cases r with
  | dir i => rfl
  | pde i x => exact htab i x
  | pte i x y =>
    cases ht : tableAt target dirs mem i x with
    | none => simp [refMap, htab, ht]
    | some t =>
      simp only [refMap, htab, ht, Option.bind_some]
      exact h (.pde i x) t trivial ht y

/-- The entries of an address space depend on the targets of its directory and on the words of
its tables. -/
lemma entryAt_congr {x : ℕ} (hdir : ∀ d, dirs i = some d → target (mem' d x) = target (mem d x))
    (htab : ∀ t, tableAt target dirs mem i x = some t → mem' t y = mem t y) :
    entryAt target zero dirs mem' i x y = entryAt target zero dirs mem i x y := by
  have h : tableAt target dirs mem' i x = tableAt target dirs mem i x := by
    cases hd : dirs i with
    | none => simp [tableAt, hd]
    | some d => rw [tableAt_of_dir hd, tableAt_of_dir hd, hdir d hd]
  cases ht : tableAt target dirs mem i x with
  | none => rw [entryAt_of_none (h.trans ht), entryAt_of_none ht]
  | some t => rw [entryAt_of_table (h.trans ht), entryAt_of_table ht, htab t ht]

variable [DecidableEq ι]

/-- A store into a table changes one page pointer. -/
lemma refMap_setEntry {x : Fin n} {y : Fin m}
    (hex : Exclusive (refMap target dirs mem : Ref ι n m → Option ℕ))
    (ht : tableAt target dirs mem i x = some t) (w : W) :
    refMap target dirs (setWord mem t y w) =
      Function.update (refMap target dirs mem : Ref ι n m → Option ℕ) (.pte i x y)
        (target w) := by
  have hdir : ∀ j d, dirs j = some d → d ≠ t := by
    rintro j d hd rfl
    have := hex (.pde i x) (.dir j) d trivial ht hd
    cases this
  have htab : ∀ j (z : Fin n),
      tableAt target dirs (setWord mem t y w) j z = tableAt target dirs mem j z := by
    intro j z
    cases hd : dirs j with
    | none => simp [tableAt, hd]
    | some d => rw [tableAt_of_dir hd, tableAt_of_dir hd, setWord_of_ne (hdir j d hd)]
  funext r
  cases r with
  | dir j => simp
  | pde j z => simpa using htab j z
  | pte j z k =>
    rw [Function.update_apply]
    simp only [refMap, htab]
    cases hz : tableAt target dirs mem j z with
    | none =>
      rw [if_neg]
      · rfl
      · rintro h
        obtain ⟨rfl, rfl, rfl⟩ : j = i ∧ z = x ∧ k = y := by simpa using h
        rw [ht] at hz
        cases hz
    | some u =>
      simp only [Option.bind_some, setWord_apply]
      by_cases hut : u = t
      · subst hut
        have := hex (.pde i x) (.pde j z) u trivial ht hz
        obtain ⟨rfl, rfl⟩ : j = i ∧ z = x := by simpa using this
        by_cases hk : k = y
        · subst hk; simp
        · have hk' : (k : ℕ) ≠ y := fun e => hk (Fin.ext e)
          simp [hk, hk']
      · have : ¬ (j = i ∧ z = x) := by
          rintro ⟨rfl, rfl⟩
          rw [ht] at hz
          exact hut (Option.some.inj hz).symm
        rw [if_neg (by simp [hut]), if_neg]
        simpa using fun a b => absurd ⟨a, b⟩ this

/-- Pointing an entry of a directory, which led to no page, elsewhere. -/
lemma refMap_setTable {x : Fin n}
    (hex : Exclusive (refMap target dirs mem : Ref ι n m → Option ℕ)) (hd : dirs i = some d)
    (hold : ∀ y : Fin m, refMap target dirs mem (.pte i x y : Ref ι n m) = none) {w : W}
    (hnew : ∀ t, target w = some t → t ≠ d ∧ ∀ y : Fin m, target (mem t y) = none) :
    refMap target dirs (setWord mem d x w) =
      Function.update (refMap target dirs mem : Ref ι n m → Option ℕ) (.pde i x)
        (target w) := by
  have htab : ∀ j (z : Fin n), tableAt target dirs (setWord mem d x w) j z =
      if j = i ∧ z = x then target w else tableAt target dirs mem j z := by
    intro j z
    cases hj : dirs j with
    | none =>
      rw [if_neg]
      · simp [tableAt, hj]
      · rintro ⟨rfl, -⟩
        rw [hd] at hj
        cases hj
    | some e =>
      rw [tableAt_of_dir hj, tableAt_of_dir hj, setWord_apply]
      by_cases hji : j = i
      · subst hji
        obtain rfl : d = e := Option.some.inj (hd.symm.trans hj)
        by_cases hz : z = x
        · subst hz; simp
        · have hz' : (z : ℕ) ≠ x := fun e => hz (Fin.ext e)
          simp [hz, hz']
      · have hne : e ≠ d := by
          rintro rfl
          have := hex (.dir i) (.dir j) e trivial hd hj
          exact hji (by simpa using this)
        simp [hji, hne]
  funext r
  cases r with
  | dir j => simp
  | pde j z =>
    rw [refMap_pde, htab, Function.update_apply]
    simp
  | pte j z k =>
    rw [Function.update_of_ne (by simp)]
    simp only [refMap, htab]
    by_cases hjz : j = i ∧ z = x
    · obtain ⟨rfl, rfl⟩ := hjz
      rw [if_pos ⟨rfl, rfl⟩]
      have hk := hold k
      rw [show (tableAt target dirs mem j z).bind (fun t => target (mem t k)) = none from hk]
      cases hw : target w with
      | none => rfl
      | some t =>
        obtain ⟨htd, hy⟩ := hnew t hw
        rw [Option.bind_some, setWord_of_ne htd, hy k]
    · rw [if_neg hjz]
      cases hz : tableAt target dirs mem j z with
      | none => rfl
      | some t =>
        have htd : t ≠ d := by
          rintro rfl
          have := hex (.dir i) (.pde j z) t trivial hd hz
          cases this
        rw [Option.bind_some, Option.bind_some, setWord_of_ne htd]

/-- Replacing a directory that led nowhere. -/
lemma refMap_setDir {o : Option ℕ}
    (hold : ∀ x : Fin n, tableAt target dirs mem i x = none)
    (hnew : ∀ d, o = some d → ∀ x : Fin n, target (mem d x) = none) :
    refMap target (Function.update dirs i o) mem =
      Function.update (refMap target dirs mem : Ref ι n m → Option ℕ) (.dir i) o := by
  have htab : ∀ j (z : Fin n), tableAt target (Function.update dirs i o) mem j z =
      tableAt target dirs mem j z := by
    intro j z
    by_cases hj : j = i
    · subst hj
      rw [hold z]
      unfold tableAt
      rw [Function.update_self]
      cases o with
      | none => rfl
      | some d => exact hnew d rfl z
    · unfold tableAt
      rw [Function.update_of_ne hj]
  funext r
  cases r with
  | dir j =>
    by_cases hj : j = i
    · subst hj; simp
    · simp [hj]
  | pde j z => simpa using htab j z
  | pte j z k => simp [refMap, htab]

/-! ### Entries -/

/-- A store into a table changes one entry of one address space. -/
lemma entryAt_setEntry {x : Fin n} {y : ℕ}
    (hex : Exclusive (refMap target dirs mem : Ref ι n m → Option ℕ))
    (ht : tableAt target dirs mem i x = some t) (w : W) (j : ι) (z : Fin n) (k : ℕ) :
    entryAt target zero dirs (setWord mem t y w) j z k =
      if j = i ∧ z = x ∧ k = y then w else entryAt target zero dirs mem j z k := by
  have hdir : ∀ d, dirs j = some d → setWord mem t y w d = mem d := by
    intro d hd
    refine setWord_of_ne ?_
    rintro rfl
    have := hex (.pde i x) (.dir j) d trivial ht hd
    cases this
  by_cases hjz : j = i ∧ z = x
  · obtain ⟨rfl, rfl⟩ := hjz
    have htab : tableAt target dirs (setWord mem t y w) j z = some t := by
      obtain ⟨d, hd, hdt⟩ := tableAt_some ht
      rw [tableAt_of_dir hd, hdir d hd, hdt]
    rw [entryAt_of_table htab, entryAt_of_table ht, setWord_apply]
    simp
  · rw [if_neg (fun h => hjz ⟨h.1, h.2.1⟩)]
    refine entryAt_congr (fun d hd => by rw [hdir d hd]) (fun u hu => ?_)
    have hut : u ≠ t := by
      rintro rfl
      have := hex (.pde i x) (.pde j z) u trivial ht hu
      exact hjz (by simpa using this)
    rw [setWord_of_ne hut]

/-- Exchanging tables of zeros changes no entry. -/
lemma entryAt_setTable {x : Fin n}
    (hex : Exclusive (refMap target dirs mem : Ref ι n m → Option ℕ)) (hd : dirs i = some d)
    (hold : ∀ y : Fin m, entryAt target zero dirs mem i x y = zero) {w : W}
    (hnew : ∀ t, target w = some t → t ≠ d ∧ ∀ y : Fin m, mem t y = zero) (j : ι) (z : Fin n)
    (k : Fin m) :
    entryAt target zero dirs (setWord mem d x w) j z k = entryAt target zero dirs mem j z k := by
  by_cases hjz : j = i ∧ z = x
  · obtain ⟨rfl, rfl⟩ := hjz
    rw [hold k]
    have htab : tableAt target dirs (setWord mem d z w) j z = target w := by
      rw [tableAt_of_dir hd, setWord_apply, if_pos ⟨rfl, rfl⟩]
    cases hw : target w with
    | none => rw [entryAt_of_none (htab.trans hw)]
    | some t =>
      obtain ⟨htd, hz⟩ := hnew t hw
      rw [entryAt_of_table (htab.trans hw), setWord_of_ne htd, hz k]
  · refine entryAt_congr (fun e he => ?_) (fun t ht => ?_)
    · by_cases hed : e = d
      · subst hed
        have hji : j = i := by simpa using hex (.dir i) (.dir j) e trivial hd he
        have hzx : (z : ℕ) ≠ x := fun h => hjz ⟨hji, Fin.ext h⟩
        rw [setWord_apply, if_neg (fun h => hzx h.2)]
      · rw [setWord_of_ne hed]
    · have htd : t ≠ d := by
        rintro rfl
        have := hex (.dir i) (.pde j z) t trivial hd ht
        cases this
      rw [setWord_of_ne htd]

/-- Exchanging directories that lead nowhere changes no entry. -/
lemma entryAt_setDir {o : Option ℕ}
    (hold : ∀ x : Fin n, tableAt target dirs mem i x = none)
    (hnew : ∀ d, o = some d → ∀ x : Fin n, target (mem d x) = none) (j : ι) (z : Fin n) (k : ℕ) :
    entryAt target zero (Function.update dirs i o) mem j z k =
      entryAt target zero dirs mem j z k := by
  by_cases hj : j = i
  · subst hj
    rw [entryAt_of_none (hold z)]
    refine entryAt_of_none ?_
    unfold tableAt
    rw [Function.update_self]
    cases o with
    | none => rfl
    | some d => exact hnew d rfl z
  · unfold entryAt tableAt
    rw [Function.update_of_ne hj]

end Stores

end SistemasOperativos.Library
