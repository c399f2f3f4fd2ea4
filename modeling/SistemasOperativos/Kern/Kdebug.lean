import SistemasOperativos.Kern.Mmu

/-!
# The search for a stab

`stab_binsearch` in `kern/kdebug.c`: a binary search in a table in which only the entries of one type are in
order of their addresses.
-/

namespace SistemasOperativos.Kern

structure Stab where
  nStrx : Word
  nType : BitVec 8
  nOther : BitVec 8
  nDesc : BitVec 16
  nValue : Word

/-- The loop `while (m >= l && stabs[m].n_type != type) m--`, with `m + 1 - l` turns at most. -/
def skipDown (stabs : ℤ → Stab) (type : BitVec 8) (l : ℤ) : ℕ → ℤ → ℤ
  | 0, m => m
  | n + 1, m => if l ≤ m ∧ (stabs m).nType ≠ type then skipDown stabs type l n (m - 1) else m

/-- The loop of the search: the bounds `l` and `r`, `*region_left` and `*region_right`, `any_matches` and
`addr`. -/
def searchStabs (stabs : ℤ → Stab) (type : BitVec 8) :
    ℕ → ℤ → ℤ → ℤ → ℤ → Bool → Word → Option (ℤ × ℤ × Bool)
  | 0, _, _, _, _, _, _ => none
  | n + 1, l, r, left, right, any, addr =>
    if l ≤ r then
      let trueM := (l + r).tdiv 2
      let m := skipDown stabs type l (trueM + 1 - l).toNat trueM
      if m < l then searchStabs stabs type n (trueM + 1) r left right any addr
      else if (stabs m).nValue < addr then searchStabs stabs type n (trueM + 1) r m right true addr
      else if addr < (stabs m).nValue then searchStabs stabs type n l (m - 1) left (m - 1) true addr
      else searchStabs stabs type n m r m right true (addr + 1)
    else some (left, right, any)

/-- The new values of `*region_left` and `*region_right`. -/
def stabBinsearch (stabs : ℤ → Stab) (left right : ℤ) (type : BitVec 8) (addr : Word) (fuel : ℕ) :
    Option (ℤ × ℤ) := do
  let (left', right', any) ← searchStabs stabs type fuel left right left right false addr
  if any then return (skipDown stabs type (left' + 1) (right' - left').toNat right', right')
  return (left', left' - 1)

/-- The stab `i` is one of the region that are searched. -/
def Matches (stabs : ℤ → Stab) (left right : ℤ) (type : BitVec 8) (i : ℤ) : Prop :=
  left ≤ i ∧ i ≤ right ∧ (stabs i).nType = type

/-- The region that the search is to leave: it ends before the first stab behind `addr`, and begins with
the last one that is not. -/
structure Brackets (stabs : ℤ → Stab) (left right : ℤ) (type : BitVec 8) (addr : Word) (l r : ℤ) : Prop where
  /-- without a stab of the type the region is empty -/
  empty : (¬∃ i, Matches stabs left right type i) → l = left ∧ r = left - 1
  below : ∀ i, Matches stabs left right type i → (i ≤ r ↔ (stabs i).nValue ≤ addr)
  next : (∃ i, Matches stabs left right type i) → r = right ∨ Matches stabs left right type (r + 1)
  found : (∃ i, Matches stabs left right type i ∧ (stabs i).nValue ≤ addr) →
    Matches stabs left right type l ∧ (stabs l).nValue ≤ addr ∧
      ∀ i, Matches stabs left right type i → (stabs i).nValue ≤ addr → i ≤ l
  /-- when all stabs are behind `addr` the region before the first one is left -/
  before : (∃ i, Matches stabs left right type i) →
    (¬∃ i, Matches stabs left right type i ∧ (stabs i).nValue ≤ addr) → l = min left r

variable {stabs : ℤ → Stab} {type : BitVec 8} {addr a : Word} {left right l r lo hi m i j : ℤ} {any : Bool} {n : ℕ}

/-! ### Steps -/

/-- The loop stops at the last stab of the type, or in front of all. -/
lemma skipDown_spec (h : (m + 1 - l).toNat ≤ n) :
    skipDown stabs type l n m ≤ m ∧ min m (l - 1) ≤ skipDown stabs type l n m ∧
      (l ≤ skipDown stabs type l n m → (stabs (skipDown stabs type l n m)).nType = type) ∧
      ∀ i, skipDown stabs type l n m < i → l ≤ i → i ≤ m → (stabs i).nType ≠ type := by
  induction n generalizing m with
  | zero =>
    unfold skipDown
    exact ⟨le_rfl, Int.min_le_left _ _, fun hle => by omega, fun i hlt hle hle' => by omega⟩
  | succ n ih =>
    unfold skipDown
    by_cases hgo : l ≤ m ∧ (stabs m).nType ≠ type
    · rw [if_pos hgo]
      obtain ⟨hle, hmin, htype, hnone⟩ := ih (m := m - 1) (by omega)
      refine ⟨by omega, by omega, htype, fun i hlt hl hm => ?_⟩
      by_cases him : i = m
      · rw [him]
        exact hgo.2
      · exact hnone i hlt hl (by omega)
    · rw [if_neg hgo]
      refine ⟨le_rfl, Int.min_le_left _ _, fun hle => ?_, fun i hlt hle hle' => by omega⟩
      by_contra hne
      exact hgo ⟨hle, hne⟩

lemma tdiv_two_between (h : l ≤ r) : l ≤ (l + r).tdiv 2 ∧ (l + r).tdiv 2 ≤ r := by
  rcases Int.le_total 0 (l + r) with hpos | hneg
  · rw [Int.tdiv_eq_ediv_of_nonneg hpos]
    omega
  · obtain ⟨k, hk⟩ : ∃ k, l + r = -k := ⟨-(l + r), by omega⟩
    rw [hk, Int.neg_tdiv, Int.tdiv_eq_ediv_of_nonneg (by omega)]
    omega

/-- What the loop knows: the stabs before `l` are not behind `addr`, those after `r` are. -/
structure Narrowed (stabs : ℤ → Stab) (left right : ℤ) (type : BitVec 8) (addr : Word) (l r lo : ℤ) (any : Bool)
    (a : Word) : Prop where
  bounds : left ≤ l ∧ r ≤ right ∧ l ≤ r + 1
  /-- an exact match moves the address on -/
  moved : a = addr ∨ a = addr + 1
  compare : ∀ i, Matches stabs left right type i → ((stabs i).nValue ≤ a ↔ (stabs i).nValue ≤ addr)
  low : ∀ i, Matches stabs left right type i → i < l → (stabs i).nValue ≤ addr
  high : ∀ i, Matches stabs left right type i → r < i → addr < (stabs i).nValue
  last : r = right ∨ Matches stabs left right type (r + 1)
  first : (lo = left ∧ ∀ i, Matches stabs left right type i → l ≤ i) ∨
    (Matches stabs left right type lo ∧ (stabs lo).nValue ≤ addr ∧ lo ≤ l)
  none : any = false → r = right ∧ lo = left ∧ ∀ i, Matches stabs left right type i → l ≤ i
  some : any = true → ∃ i, Matches stabs left right type i

/-- The stabs of the type are in order of their addresses. -/
def SortedStabs (stabs : ℤ → Stab) (left right : ℤ) (type : BitVec 8) : Prop :=
  ∀ i j, Matches stabs left right type i → Matches stabs left right type j → i ≤ j →
    (stabs i).nValue ≤ (stabs j).nValue

/-- Behind a stab at `addr` none comes at the next address, which the search would take for an exact
match, too. -/
def Spaced (stabs : ℤ → Stab) (left right : ℤ) (type : BitVec 8) (addr : Word) : Prop :=
  addr.toNat + 1 < 2 ^ 32 ∧ ((∃ i, Matches stabs left right type i ∧ (stabs i).nValue = addr) →
    ∀ j, Matches stabs left right type j → (stabs j).nValue ≠ addr + 1)

namespace Narrowed

lemma start (h : left ≤ right + 1) : Narrowed stabs left right type addr left right left false addr where
  bounds := ⟨le_rfl, le_rfl, h⟩
  moved := .inl rfl
  compare _ _ := Iff.rfl
  low i hi hlt := absurd hi.1 (by omega)
  high i hi hlt := absurd hi.2.1 (by omega)
  last := .inl rfl
  first := .inl ⟨rfl, fun _ hi => hi.1⟩
  none _ := ⟨rfl, rfl, fun _ hi => hi.1⟩
  some h := absurd h Bool.false_ne_true

/-- No stab of the type from `l` up to `m`. -/
lemma skip (h : Narrowed stabs left right type addr l r lo any a) (hl : l ≤ m + 1) (hr : m ≤ r)
    (hno : ∀ i, l ≤ i → i ≤ m → (stabs i).nType ≠ type) :
    Narrowed stabs left right type addr (m + 1) r lo any a := by
  have hafter : ∀ i, Matches stabs left right type i → l ≤ i → m + 1 ≤ i := by
    intro i hi hli
    by_contra hlt
    exact hno i hli (by omega) hi.2.2
  have hbounds := h.bounds
  refine ⟨⟨by omega, hbounds.2.1, by omega⟩, h.moved, h.compare, fun i hi hlt => ?_, h.high, h.last, ?_,
    fun hany => ?_, h.some⟩
  · apply h.low i hi
    by_contra hge
    have hle := hafter i hi (by omega)
    omega
  · rcases h.first with ⟨hlo, hall⟩ | ⟨hlo, hle, hlt⟩
    · exact .inl ⟨hlo, fun i hi => hafter i hi (hall i hi)⟩
    · exact .inr ⟨hlo, hle, by omega⟩
  · obtain ⟨hr, hlo, hall⟩ := h.none hany
    exact ⟨hr, hlo, fun i hi => hafter i hi (hall i hi)⟩

/-- The stab `m` is not behind `addr`, and the next of the type comes after `k`. -/
lemma below (h : Narrowed stabs left right type addr l r lo any a) (hs : SortedStabs stabs left right type)
    {k : ℤ} (hm : Matches stabs left right type m) (hle : (stabs m).nValue ≤ addr) (hmk : m ≤ k) (hl : l ≤ m)
    (hk : k ≤ r + 1) (hno : ∀ i, m < i → i < k → (stabs i).nType ≠ type) :
    Narrowed stabs left right type addr k r m true a := by
  have hbounds := h.bounds
  refine ⟨⟨by omega, hbounds.2.1, by omega⟩, h.moved, h.compare, fun i hi hlt => ?_, h.high, h.last,
    .inr ⟨hm, hle, hmk⟩, fun hany => absurd hany (by decide), fun _ => ⟨m, hm⟩⟩
  have him : i ≤ m := by
    by_contra hlt'
    exact hno i (by omega) hlt hi.2.2
  exact BitVec.le_trans (hs i m hi hm him) hle

/-- The stab `m` is behind `addr`. -/
lemma above (h : Narrowed stabs left right type addr l r lo any a) (hs : SortedStabs stabs left right type)
    (hm : Matches stabs left right type m) (hlt : addr < (stabs m).nValue) (hl : l ≤ m) (hr : m ≤ r) :
    Narrowed stabs left right type addr l (m - 1) lo true a := by
  have hbounds := h.bounds
  refine ⟨⟨hbounds.1, by omega, by omega⟩, h.moved, h.compare, h.low, fun i hi hlt' => ?_, .inr ?_, h.first,
    fun hany => absurd hany (by decide), fun _ => ⟨m, hm⟩⟩
  · have hle : (stabs m).nValue.toNat ≤ (stabs i).nValue.toNat := hs m i hm hi (by omega)
    exact Nat.lt_of_lt_of_le (BitVec.lt_def.mp hlt) hle
  · rw [sub_add_cancel]
    exact hm

end Narrowed

/-- The search ends, and its bounds have met. -/
lemma searchStabs_narrowed (hs : SortedStabs stabs left right type) (hsp : Spaced stabs left right type addr)
    (h : Narrowed stabs left right type addr l r lo any a)
    (hn : 2 * (r + 1 - l).toNat + (if a = addr then 1 else 0) < n) :
    ∃ lo' r' any' a', searchStabs stabs type n l r lo r any a = some (lo', r', any') ∧
      Narrowed stabs left right type addr (r' + 1) r' lo' any' a' := by
  induction n generalizing l r lo any a with
  | zero => exact absurd hn (Nat.not_lt_zero _)
  | succ n ih =>
    have hbounds := h.bounds
    unfold searchStabs
    by_cases hle : l ≤ r
    · rw [if_pos hle]
      obtain ⟨hlm, hmr⟩ := tdiv_two_between hle
      generalize (l + r).tdiv 2 = k at hlm hmr
      obtain ⟨hmk, hmin, htype, hno⟩ := @skipDown_spec stabs type l k _ le_rfl
      dsimp only
      generalize skipDown stabs type l (k + 1 - l).toNat k = m at hmk hmin htype hno
      by_cases hm : m < l
      · rw [if_pos hm]
        exact ih (h.skip (by omega) hmr (fun i hli hik => hno i (by omega) hli hik)) (by omega)
      rw [if_neg hm]
      have hmatch : Matches stabs left right type m := ⟨by omega, by omega, htype (by omega)⟩
      by_cases hlow : (stabs m).nValue < a
      · rw [if_pos hlow]
        have hle' := (h.compare m hmatch).mp (BitVec.le_of_lt hlow)
        exact ih (h.below hs hmatch hle' (by omega) (by omega) (by omega)
          (fun i hmi hik => hno i hmi (by omega) (by omega))) (by omega)
      rw [if_neg hlow]
      by_cases hhigh : a < (stabs m).nValue
      · rw [if_pos hhigh]
        have hlt : addr < (stabs m).nValue := by
          by_contra hge
          exact absurd ((h.compare m hmatch).mpr (BitVec.not_lt.mp hge)) (BitVec.not_le.mpr hhigh)
        exact ih (h.above hs hmatch hlt (by omega) (by omega)) (by omega)
      rw [if_neg hhigh]
      have hexact : (stabs m).nValue = a := BitVec.le_antisymm (BitVec.not_lt.mp hhigh) (BitVec.not_lt.mp hlow)
      have hle' := (h.compare m hmatch).mp (by rw [hexact]; exact BitVec.le_refl _)
      have hnext : (addr + 1).toNat = addr.toNat + 1 := by
        rw [BitVec.toNat_add]
        exact Nat.mod_eq_of_lt hsp.1
      have ha : a = addr := by
        rcases h.moved with ha | ha
        · exact ha
        · rw [hexact, ha] at hle'
          have hle' : (addr + 1).toNat ≤ addr.toNat := hle'
          omega
      subst ha
      have hgap := hsp.2 ⟨m, hmatch, hexact⟩
      have hbelow := h.below hs hmatch hle' le_rfl (by omega) (by omega) (fun i hmi him => by omega)
      refine ih ⟨hbelow.bounds, .inr rfl, fun i hi => ?_, hbelow.low, hbelow.high, hbelow.last, hbelow.first,
        hbelow.none, hbelow.some⟩ ?_
      · have hne : (stabs i).nValue.toNat ≠ (a + 1).toNat :=
          fun heq => hgap i hi (BitVec.eq_of_toNat_eq heq)
        change (stabs i).nValue.toNat ≤ (a + 1).toNat ↔ (stabs i).nValue.toNat ≤ a.toNat
        omega
      · rw [if_pos rfl] at hn
        rw [if_neg (fun heq => by rw [heq] at hnext; omega)]
        omega
    · rw [if_neg hle]
      have hlr : l = r + 1 := by omega
      exact ⟨lo, r, any, a, rfl, by rw [← hlr]; exact h⟩

/-- The search finds the last stab that is not behind `addr`, and the end of its region. -/
theorem stabBinsearch_brackets (hle : left ≤ right + 1) (hs : SortedStabs stabs left right type)
    (hsp : Spaced stabs left right type addr) (hn : 2 * (right + 1 - left).toNat + 1 < n) :
    ∃ l r, stabBinsearch stabs left right type addr n = some (l, r) ∧
      Brackets stabs left right type addr l r := by
  obtain ⟨lo, r, any, a, hrun, h⟩ := searchStabs_narrowed hs hsp (.start hle) (by rw [if_pos rfl]; exact hn)
  have hbounds := h.bounds
  have hbelow : ∀ i, Matches stabs left right type i → (i ≤ r ↔ (stabs i).nValue ≤ addr) := by
    intro i hi
    constructor
    · exact fun hir => h.low i hi (by omega)
    · intro hv
      by_contra hlt
      exact absurd (h.high i hi (by omega)) (BitVec.not_lt.mpr hv)
  unfold stabBinsearch
  rw [hrun]
  cases any with
  | false =>
    obtain ⟨hr, hlo, hall⟩ := h.none rfl
    have hempty : ¬∃ i, Matches stabs left right type i := by
      rintro ⟨i, hi⟩
      have hge := hall i hi
      have hle := hi.2.1
      omega
    refine ⟨lo, lo - 1, rfl, fun _ => ⟨hlo, by rw [hlo]⟩, fun i hi => absurd ⟨i, hi⟩ hempty,
      fun hex => absurd hex hempty, fun ⟨i, hi, _⟩ => absurd ⟨i, hi⟩ hempty, fun hex => absurd hex hempty⟩
  | true =>
    obtain ⟨hle', hmin, htype, hno⟩ := @skipDown_spec stabs type (lo + 1) r (r - lo).toNat (by omega)
    generalize hk : skipDown stabs type (lo + 1) (r - lo).toNat r = k at hle' hmin htype hno
    refine ⟨k, r, ?_, fun hempty => absurd (h.some rfl) hempty, hbelow, fun _ => h.last, ?_, ?_⟩
    · rw [← hk]
      rfl
    · rintro ⟨i, hi, hv⟩
      have hlo : Matches stabs left right type lo ∧ (stabs lo).nValue ≤ addr ∧ lo ≤ r + 1 := by
        rcases h.first with ⟨-, hall⟩ | hfirst
        · have hge := hall i hi
          have hir := (hbelow i hi).mpr hv
          omega
        · exact hfirst
      obtain ⟨hmatch, hvlo, -⟩ := hlo
      have hlor := (hbelow lo hmatch).mpr hvlo
      have hkmatch : Matches stabs left right type k := by
        by_cases hklo : k = lo
        · rw [hklo]
          exact hmatch
        · have hleft := hmatch.1
          exact ⟨by omega, by omega, htype (by omega)⟩
      refine ⟨hkmatch, (hbelow k hkmatch).mp hle', fun j hj hvj => ?_⟩
      by_contra hlt
      exact hno j (by omega) (by omega) ((hbelow j hj).mpr hvj) hj.2.2
    · intro _ hnone
      have hlo : lo = left ∧ ∀ i, Matches stabs left right type i → r + 1 ≤ i := by
        rcases h.first with hfirst | ⟨hmatch, hvlo, -⟩
        · exact hfirst
        · exact absurd ⟨lo, hmatch, hvlo⟩ hnone
      obtain ⟨rfl, hall⟩ := hlo
      have hstop : k < lo + 1 := by
        by_contra hge
        have hmatch : Matches stabs lo right type k := ⟨by omega, by omega, htype (by omega)⟩
        have := hall k hmatch
        omega
      omega

/-! ### The table of the comment in the source -/

def soAddresses : List (ℤ × Word) :=
  [(0, 0xf0100000), (13, 0xf0100040), (117, 0xf0100176), (118, 0xf0100178), (555, 0xf0100652), (556, 0xf0100654),
    (657, 0xf0100849)]

/-- The `N_SO` stabs of the comment, with `N_SLINE` stabs between them. -/
def soStabs (i : ℤ) : Stab :=
  match soAddresses.lookup i with
  | some v => ⟨0, 0x64, 0, 0, v⟩
  | none => ⟨0, 0x44, 0, 0, 0⟩

lemma soStabs_matches (h : Matches soStabs 0 657 0x64 i) : i ∈ soAddresses.map Prod.fst := by
  have htype := h.2.2
  unfold soStabs at htype
  cases hv : soAddresses.lookup i with
  | none =>
    rw [hv] at htype
    exact absurd htype (by decide)
  | some v =>
    obtain ⟨l, k, heq, -⟩ := List.lookup_eq_some_iff.mp hv
    rw [heq]
    simp

lemma soStabs_sorted : SortedStabs soStabs 0 657 0x64 := by
  intro i j hi hj hij
  have h : ∀ i ∈ soAddresses.map Prod.fst, ∀ j ∈ soAddresses.map Prod.fst, i ≤ j →
      (soStabs i).nValue ≤ (soStabs j).nValue := by decide +kernel
  exact h i (soStabs_matches hi) j (soStabs_matches hj) hij

lemma soStabs_spaced : Spaced soStabs 0 657 0x64 0xf0100184 := by
  refine ⟨by decide, fun ⟨i, hi, hv⟩ => ?_⟩
  have h : ∀ i ∈ soAddresses.map Prod.fst, (soStabs i).nValue ≠ 0xf0100184 := by decide +kernel
  exact absurd hv (h i (soStabs_matches hi))

theorem stabBinsearch_brackets_so :
    stabBinsearch soStabs 0 657 0x64 0xf0100184 1400 = some (118, 554) ∧
      ∃ l r, stabBinsearch soStabs 0 657 0x64 0xf0100184 1400 = some (l, r) ∧
        Brackets soStabs 0 657 0x64 0xf0100184 l r :=
  ⟨by decide +kernel, stabBinsearch_brackets (by decide) soStabs_sorted soStabs_spaced (by decide)⟩

end SistemasOperativos.Kern
