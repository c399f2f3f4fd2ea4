import SistemasOperativos.Kern.PmapRules
import Mathlib.Data.Finset.Card
import Mathlib.Order.Interval.Finset.Nat

/-!
# Large pages

`boot_map_region` of `kern/pmap.c` with and without `TP1_PSE`, and the translation of addresses that
the two give.
-/

namespace SistemasOperativos.Kern

open Library

/-- A directory entry that maps four megabytes. -/
def ptePS : Word := 0x080

/-! ### `boot_map_region` -/

/-- The loops of `boot_map_region_pages` and of `boot_map_region`, which differ in the step and in what
they write. They may not end: the result says whether `aux` has reached `size`. -/
def regionLoop (map : Word → Word → PmapM Unit) (step size : Word) : ℕ → Word → Word → Word → PmapM Bool
  | 0, _, _, _ => return false
  | fuel + 1, va, pa, aux => do
    if aux < size then
      map va pa
      regionLoop map step size fuel (va + step) (pa + step) (aux + step)
    else
      return true

def mapPage (pgdir : ℕ) (perm va pa : Word) : PmapM Unit := do
  match ← pgdirWalk (some pgdir) va true with
  | none => throw .panic
  | some entry => writePte entry (pa ||| perm ||| pteP)

def mapLargePage (pgdir : ℕ) (perm va pa : Word) : PmapM Unit :=
  writePte ⟨pgdir, pdx va⟩ (pa ||| perm ||| pteP ||| ptePS)

def bootMapRegionPages (pgdir : ℕ) (va size pa perm : Word) (fuel : ℕ) : PmapM Bool :=
  regionLoop (mapPage pgdir perm) 0x1000 size fuel va pa 0

/-- `boot_map_region` without `TP1_PSE` -/
def bootMapRegion (pgdir : ℕ) (va size pa perm : Word) (fuel : ℕ) : PmapM Bool :=
  bootMapRegionPages pgdir va size pa perm fuel

/-- `boot_map_region` with `TP1_PSE` -/
def bootMapRegionPse (pgdir : ℕ) (va size pa perm : Word) (fuel : ℕ) : PmapM Bool :=
  if ¬(va % ptsize = 0 ∧ size ≥ ptsize) then bootMapRegionPages pgdir va size pa perm fuel
  else regionLoop (mapLargePage pgdir perm) ptsize size fuel va pa 0

/-! ### Translation -/

/-- The permission bits that the processor checks. -/
def permBits : Word := pteP ||| pteW ||| pteU

/-- The physical address and the permissions behind an address, as `check_va2pa` finds them. -/
def translate (mem : ℕ → ℕ → Word) (pgdir : ℕ) (va : Word) : Option (Word × Word) :=
  let pde := mem pgdir (pdx va)
  if !has pde pteP then none
  else if has pde ptePS then some (pgaddr (pdx pde) (ptx va) (pgoff va), pde &&& permBits)
  else
    let pte := mem (pgnum pde) (ptx va)
    if !has pte pteP then none
    else some (pteAddr pte + BitVec.ofNat 32 (pgoff va), pde &&& pte &&& permBits)

/-- The table of a directory entry. -/
def tableOf (mem : ℕ → ℕ → Word) (pgdir x : ℕ) : Option ℕ :=
  if has (mem pgdir x) pteP ∧ ¬has (mem pgdir x) ptePS then some (pgnum (mem pgdir x)) else none

/-- The directory entries of a region. -/
def covered (va size : Word) : Finset ℕ := (Finset.Ico va.toNat (va.toNat + size.toNat)).image (· / 2 ^ 22)

/-- The entries of `X` that have no table yet. -/
def absent (mem : ℕ → ℕ → Word) (pgdir : ℕ) (X : Finset ℕ) : Finset ℕ :=
  X.filter (fun x => has (mem pgdir x) pteP = false)

/-- A directory with memory for the tables that the entries of `X` need. These entries have tables of their
own with all permissions, or none. Entries outside of `X` may be anything that does not share a table with
them, the directory itself included. -/
structure DirOk (s : Pmap) (d : ℕ) (X : Finset ℕ) (l : List ℕ) : Prop where
  npages_le : s.npages ≤ 2 ^ 20
  list : Linked s.ppLink s.pageFreeList l
  nodup : l.Nodup
  free : ∀ f ∈ l, f < s.npages
  dir : d ∉ l
  table : ∀ x t, tableOf s.mem d x = some t → t ∉ l
  apart : ∀ x ∈ X, ∀ y t, tableOf s.mem d x = some t → tableOf s.mem d y = some t → x = y
  small : ∀ x ∈ X, has (s.mem d x) pteP = true →
    has (s.mem d x) ptePS = false ∧ s.mem d x &&& permBits = permBits
  inside : ∀ x ∈ X, ∀ t, tableOf s.mem d x = some t → t < s.npages ∧ t ≠ d
  room : (absent s.mem d X).card ≤ l.length

/-- An entry is the directory itself, as at `UVPT` in `kern_pgdir`. -/
def SelfMapped (s : Pmap) (d : ℕ) : Prop := ∃ a, tableOf s.mem d (pdx a) = some d

/-- Entries of `X` that were absent may be there now; all the others are as they were. -/
def Filled (X : Finset ℕ) (dir dir' : ℕ → Word) : Prop :=
  ∀ x, dir' x = dir x ∨ x ∈ X ∧ has (dir x) pteP = false ∧ has (dir' x) pteP = true

variable {s t : Pmap} {d f x y : ℕ} {X : Finset ℕ} {l : List ℕ} {a v p va pa size perm w : Word}
  {dir dir' dir'' : ℕ → Word}

/-! ### The directory -/

lemma Filled.refl : Filled X dir dir := fun _ => .inl rfl

lemma Filled.trans (h : Filled X dir dir') (h' : Filled X dir' dir'') : Filled X dir dir'' := by
  intro x
  cases h' x with
  | inl hsame =>
    rw [hsame]
    exact h x
  | inr hnew =>
    obtain ⟨hx, hP, hP'⟩ := hnew
    cases h x with
    | inl hsame =>
      rw [hsame] at hP
      exact .inr ⟨hx, hP, hP'⟩
    | inr hold => rw [hP] at hold; cases hold.2.2

/-- Without absent entries nothing is new. -/
lemma Filled.eq {mem : ℕ → ℕ → Word} (h : Filled X (mem d) dir') (habsent : absent mem d X = ∅) : dir' = mem d := by
  funext x
  refine (h x).resolve_right ?_
  rintro ⟨hx, hP, -⟩
  have hmem : x ∈ absent mem d X := Finset.mem_filter.mpr ⟨hx, hP⟩
  rw [habsent] at hmem
  cases hmem

/-! ### Entries -/

lemma getLsbD_aligned (hp : p.toNat % 4096 = 0) {i : ℕ} (hi : i < 12) : p.getLsbD i = false := by
  obtain ⟨q, hq⟩ : ∃ q, p.toNat = 2 ^ 12 * q := ⟨p.toNat / 4096, by omega⟩
  show p.toNat.testBit i = false
  rw [hq, Nat.testBit_two_pow_mul, decide_eq_false (Nat.not_le.mpr hi), Bool.false_and]

lemma getLsbD_low {k : Word} (hk : k.toNat < 4096) {i : ℕ} (hi : 12 ≤ i) : k.getLsbD i = false := by
  apply Nat.testBit_lt_two_pow
  exact Nat.lt_of_lt_of_le hk (Nat.pow_le_pow_right (Nat.succ_pos 1) hi)

/-- Flags and an aligned address have no bits in common. -/
lemma and_low {k : Word} (hp : p.toNat % 4096 = 0) (hk : k.toNat < 4096) : p &&& k = 0 := by
  apply BitVec.eq_of_getLsbD_eq
  intro i _
  rw [BitVec.getLsbD_and, show (0 : Word).getLsbD i = false from BitVec.getLsbD_zero]
  by_cases hi : i < 12
  · rw [getLsbD_aligned hp hi, Bool.false_and]
  · rw [getLsbD_low hk (Nat.not_lt.mp hi), Bool.and_false]

lemma toNat_or_low {k : Word} (hp : p.toNat % 4096 = 0) (hk : k.toNat < 4096) :
    (p ||| k).toNat = p.toNat + k.toNat := by
  rw [← BitVec.add_eq_or_of_and_eq_zero p k (and_low hp hk), BitVec.toNat_add]
  have hlt := p.isLt
  omega

lemma pteAddr_or_low {k : Word} (hp : p.toNat % 4096 = 0) (hk : k.toNat < 4096) : pteAddr (p ||| k) = p := by
  unfold pteAddr
  apply BitVec.eq_of_getLsbD_eq
  intro i hlt
  rw [BitVec.getLsbD_and, BitVec.getLsbD_or, BitVec.getLsbD_not, decide_eq_true hlt, Bool.true_and]
  by_cases hi : i < 12
  · have hmask : (0xfff : Word).getLsbD i = true := by interval_cases i <;> rfl
    rw [hmask, getLsbD_aligned hp hi]
    exact Bool.and_false _
  · have hi := Nat.not_lt.mp hi
    have hmask : (0xfff : Word).getLsbD i = false := getLsbD_low (by decide) hi
    rw [hmask, getLsbD_low hk hi, Bool.or_false]
    exact Bool.and_true _

lemma flags_or_low {k : Word} (hp : p.toNat % 4096 = 0) (m : Word) (hm : m.toNat < 4096) :
    (p ||| k) &&& m = k &&& m := by
  rw [BitVec.and_or_distrib_right, and_low hp hm]
  exact BitVec.zero_or

lemma has_or_low {k : Word} (hp : p.toNat % 4096 = 0) {m : Word} (hm : m.toNat < 4096) :
    has (p ||| k) m = has k m := by
  unfold has
  rw [flags_or_low hp m hm]

lemma page2pa_aligned (f : ℕ) : (page2pa f).toNat % 4096 = 0 := by
  unfold page2pa
  rw [BitVec.toNat_shiftLeft, Nat.shiftLeft_eq]
  omega

/-! ### One page -/

lemma translate_congr {mem mem' : ℕ → ℕ → Word} (hd : mem' d (pdx a) = mem d (pdx a))
    (ht : ∀ t, tableOf mem d (pdx a) = some t → mem' t (ptx a) = mem t (ptx a)) :
    translate mem' d a = translate mem d a := by
  unfold translate
  rw [hd]
  by_cases hP : has (mem d (pdx a)) pteP
  · by_cases hPS : has (mem d (pdx a)) ptePS
    · simp only [hP, hPS, Bool.not_true, Bool.false_eq_true, if_false, if_true]
    · have htable := ht (pgnum (mem d (pdx a))) (if_pos ⟨hP, hPS⟩)
      simp only [hP, hPS, Bool.not_true, Bool.false_eq_true, if_false, htable]
  · simp only [hP, Bool.not_false, if_true]

lemma tableOf_congr {mem mem' : ℕ → ℕ → Word} (hd : mem' d y = mem d y) : tableOf mem' d y = tableOf mem d y := by
  unfold tableOf
  rw [hd]

lemma tableOf_large {mem : ℕ → ℕ → Word} (h : mem d y = w) (hw : has w ptePS = true) : tableOf mem d y = none := by
  unfold tableOf
  rw [h, if_neg]
  exact fun hsmall => hsmall.2 hw

/-- An address below an entry that has a table. -/
lemma translate_table {mem : ℕ → ℕ → Word} (h : tableOf mem d (pdx a) = some f) : translate mem d a =
    if has (mem f (ptx a)) pteP then
      some (pteAddr (mem f (ptx a)) + BitVec.ofNat 32 (pgoff a), mem d (pdx a) &&& mem f (ptx a) &&& permBits)
    else none := by
  unfold tableOf at h
  split at h
  · rename_i hpde
    obtain rfl := Option.some.inj h
    obtain ⟨hP, hPS⟩ := hpde
    unfold translate
    cases hpte : has (mem (pgnum (mem d (pdx a))) (ptx a)) pteP with
    | false => simp only [hP, hPS, hpte, Bool.not_true, Bool.not_false, Bool.false_eq_true, if_false, if_true]
    | true => simp only [hP, hPS, hpte, Bool.not_true, Bool.false_eq_true, if_false, if_true]
  · cases h

lemma present_of_translate {mem : ℕ → ℕ → Word} {r : Word × Word} (h : translate mem d a = some r) :
    has (mem d (pdx a)) pteP = true := by
  by_contra hP
  have hnone : translate mem d a = none :=
    if_pos (show (!has (mem d (pdx a)) pteP) = true by rw [Bool.eq_false_iff.mpr hP]; rfl)
  rw [hnone] at h
  cases h

/-- A store to the entry of a page. -/
lemma DirOk.translate_write (hs : DirOk s d X l) (hx : pdx v ∈ X) (ht : tableOf s.mem d (pdx v) = some f)
    (hw : has w pteP = true) :
    translate (setWord s.mem f (ptx v) w) d a =
      if pdx a = pdx v ∧ ptx a = ptx v then some (pteAddr w + BitVec.ofNat 32 (pgoff a), w &&& permBits)
      else translate s.mem d a := by
  have hne : f ≠ d := (hs.inside _ hx _ ht).2
  have hdir : setWord s.mem f (ptx v) w d = s.mem d := setWord_of_ne (Ne.symm hne)
  split
  · rename_i hpage
    obtain ⟨hpdx, hptx⟩ := hpage
    unfold tableOf at ht
    split at ht
    · rename_i hpde
      obtain rfl := Option.some.inj ht
      have hflags := (hs.small _ hx hpde.1).2
      unfold translate
      rw [hdir, hpdx, hptx]
      simp only [hpde.1, hpde.2, setWord_apply, Bool.not_true, Bool.false_eq_true, if_false, and_self, if_true, hw]
      rw [BitVec.and_comm (s.mem d (pdx v)) w, BitVec.and_assoc, hflags]
    · cases ht
  · rename_i hpage
    refine translate_congr (by rw [hdir]) ?_
    intro t htable
    rw [setWord_apply, if_neg]
    rintro ⟨rfl, hptx⟩
    exact hpage ⟨(hs.apart _ hx _ _ ht htable).symm, hptx⟩

/-- Storing to the entry of a page leaves the directory and the free list alone. -/
lemma DirOk.write (hs : DirOk s d X l) (hf : f ≠ d) (y : ℕ) (w : Word) :
    DirOk { s with mem := setWord s.mem f y w } d X l := by
  have hdir : setWord s.mem f y w d = s.mem d := setWord_of_ne (Ne.symm hf)
  have htable : ∀ x, tableOf (setWord s.mem f y w) d x = tableOf s.mem d x :=
    fun x => tableOf_congr (congrFun hdir x)
  refine ⟨hs.npages_le, hs.list, hs.nodup, hs.free, hs.dir, ?_, ?_, ?_, ?_, ?_⟩
  · intro x t ht
    rw [htable] at ht
    exact hs.table x t ht
  · intro x hmem y t hx hy
    rw [htable] at hx hy
    exact hs.apart x hmem y t hx hy
  · intro x hx
    dsimp only
    rw [hdir]
    exact hs.small x hx
  · intro x hx t ht
    rw [htable] at ht
    exact hs.inside x hx t ht
  · have habsent : absent (setWord s.mem f y w) d X = absent s.mem d X := by
      unfold absent
      rw [hdir]
    dsimp only
    rw [habsent]
    exact hs.room

lemma has_tableEntry_low (f : ℕ) : has (tableEntry f) pteP = true ∧ has (tableEntry f) ptePS = false ∧
    tableEntry f &&& permBits = permBits := by
  have heq : tableEntry f = page2pa f ||| (pteP ||| pteW ||| pteU) := by
    unfold tableEntry
    rw [BitVec.or_assoc, BitVec.or_assoc, ← BitVec.or_assoc pteP]
  have hal := page2pa_aligned f
  rw [heq, has_or_low hal (by decide), has_or_low hal (by decide), flags_or_low hal _ (by decide)]
  decide

/-- The state with a new table `f` for the entry `x`. -/
def withTable (s : Pmap) (d x f : ℕ) : Pmap :=
  { s with
    mem := setWord (Function.update s.mem f (fun _ => 0)) d x (tableEntry f)
    ppRef := Function.update s.ppRef f (s.ppRef f + 1)
    ppLink := Function.update s.ppLink f none
    pageFreeList := s.ppLink f }

/-- A new table. -/
lemma createPageTable_eq (hfree : s.pageFreeList = some f) (hf : f < s.npages) (hn : s.npages ≤ 2 ^ 20) :
    createPageTable ⟨d, x⟩ s = .ok true (withTable s d x f) := by
  have hsat : Sat (createPageTable ⟨d, x⟩) s (fun r t => r = true ∧ t = withTable s d x f)
      (fun _ _ => False) := by
    unfold createPageTable pageAlloc page2kva kaddr memsetZero incRef writePte
    simp only [sat_bind, sat_get, sat_pure, sat_modify, sat_throw, sat_ite, hfree, if_true]
    rw [pgnum_page2pa (Nat.lt_of_lt_of_le hf hn)]
    exact ⟨fun hge => absurd hf (Nat.not_lt.mpr hge), fun _ => ⟨trivial, rfl⟩⟩
  obtain ⟨r, t, hrun, rfl, rfl⟩ := hsat.exists_ok
  exact hrun

section NewTable

lemma DirOk.ne_free (hs : DirOk s d X (f :: l)) : d ≠ f := by
  rintro rfl
  exact hs.dir List.mem_cons_self

lemma DirOk.withTable_mem (hs : DirOk s d X (f :: l)) (g y : ℕ) : (withTable s d x f).mem g y =
    if g = d ∧ y = x then tableEntry f else if g = f then 0 else s.mem g y := by
  show setWord (Function.update s.mem f (fun _ => 0)) d x (tableEntry f) g y = _
  rw [setWord_apply]
  by_cases hg : g = f
  · subst hg
    rw [Function.update_self, if_pos rfl]
  · rw [Function.update_of_ne hg, if_neg hg]

lemma DirOk.withTable_dir (hs : DirOk s d X (f :: l)) (y : ℕ) :
    (withTable s d x f).mem d y = if y = x then tableEntry f else s.mem d y := by
  rw [hs.withTable_mem, if_neg hs.ne_free]
  by_cases hy : y = x
  · rw [if_pos ⟨rfl, hy⟩, if_pos hy]
  · rw [if_neg (fun h => hy h.2), if_neg hy]

lemma DirOk.withTable_tableOf (hs : DirOk s d X (f :: l)) (y : ℕ) :
    tableOf (withTable s d x f).mem d y = if y = x then some f else tableOf s.mem d y := by
  unfold tableOf
  rw [hs.withTable_dir]
  by_cases hy : y = x
  · obtain ⟨hP, hPS, -⟩ := has_tableEntry_low f
    have hf : f < 2 ^ 20 := Nat.lt_of_lt_of_le (hs.free f List.mem_cons_self) hs.npages_le
    have hnum := (target_eq_some (target_tableEntry hf)).2
    rw [if_pos hy, if_pos hy, if_pos ⟨hP, by rw [hPS]; exact Bool.false_ne_true⟩, hnum]
  · rw [if_neg hy, if_neg hy]

lemma DirOk.withTable (hs : DirOk s d X (f :: l)) (hx : x ∈ X) (hP : has (s.mem d x) pteP = false) :
    DirOk (withTable s d x f) d X l := by
  obtain ⟨hhead, hrest⟩ := hs.list
  obtain ⟨hf, hnodup⟩ := List.nodup_cons.mp hs.nodup
  have htail : ∀ g ∈ l, g ∈ f :: l := fun g hg => List.mem_cons_of_mem f hg
  refine ⟨hs.npages_le, hrest.update hf none, hnodup, fun g hg => hs.free g (htail g hg),
    fun h => hs.dir (htail d h), ?_, ?_, ?_, ?_, ?_⟩
  · intro y t ht
    rw [hs.withTable_tableOf] at ht
    split at ht
    · obtain rfl := Option.some.inj ht
      exact hf
    · exact fun h => hs.table y t ht (htail t h)
  · intro y hmem z t hy hz
    rw [hs.withTable_tableOf] at hy hz
    split at hy
    · split at hz
      · rename_i heq heq'
        rw [heq, heq']
      · obtain rfl := Option.some.inj hy
        exact absurd List.mem_cons_self (hs.table z _ hz)
    · split at hz
      · obtain rfl := Option.some.inj hz
        exact absurd List.mem_cons_self (hs.table y _ hy)
      · exact hs.apart y hmem z t hy hz
  · intro y hy
    rw [hs.withTable_dir]
    split
    · exact fun _ => (has_tableEntry_low f).2
    · exact hs.small y hy
  · intro y hy t ht
    rw [hs.withTable_tableOf] at ht
    split at ht
    · obtain rfl := Option.some.inj ht
      exact ⟨hs.free _ List.mem_cons_self, Ne.symm hs.ne_free⟩
    · exact hs.inside y hy t ht
  · have hmem : x ∈ absent s.mem d X := Finset.mem_filter.mpr ⟨hx, hP⟩
    have herase : absent (Kern.withTable s d x f).mem d X = (absent s.mem d X).erase x := by
      ext y
      unfold absent
      rw [Finset.mem_erase, Finset.mem_filter, Finset.mem_filter, hs.withTable_dir]
      by_cases hy : y = x
      · rw [if_pos hy, (has_tableEntry_low f).1]
        exact ⟨fun h => absurd h.2 Bool.noConfusion, fun h => absurd hy h.1⟩
      · rw [if_neg hy]
        exact ⟨fun h => ⟨hy, h⟩, fun h => h.2⟩
    have hroom := hs.room
    rw [herase, Finset.card_erase_of_mem hmem]
    rw [List.length_cons] at hroom
    omega

lemma DirOk.withTable_filled (hs : DirOk s d X (f :: l)) (hx : x ∈ X) (hP : has (s.mem d x) pteP = false) :
    Filled X (s.mem d) ((Kern.withTable s d x f).mem d) := by
  intro y
  rw [hs.withTable_dir]
  by_cases hy : y = x
  · subst hy
    rw [if_pos rfl]
    exact .inr ⟨hx, hP, (has_tableEntry_low f).1⟩
  · exact .inl (if_neg hy)

/-- Addresses that are not seen through the directory itself translate as before. -/
lemma DirOk.withTable_translate (hs : DirOk s d X (f :: l)) (hP : has (s.mem d x) pteP = false)
    (hself : tableOf s.mem d (pdx a) ≠ some d) :
    translate (Kern.withTable s d x f).mem d a = translate s.mem d a := by
  by_cases ha : pdx a = x
  · have hnone : translate s.mem d a = none := by
      unfold translate
      rw [ha]
      simp only [hP, Bool.not_false, if_true]
    have hf : f < 2 ^ 20 := Nat.lt_of_lt_of_le (hs.free f List.mem_cons_self) hs.npages_le
    have hnum := (target_eq_some (target_tableEntry hf)).2
    obtain ⟨hP', hPS, -⟩ := has_tableEntry_low f
    have hzero : (Kern.withTable s d x f).mem f (ptx a) = 0 := by
      rw [hs.withTable_mem, if_neg (fun h => hs.ne_free h.1.symm), if_pos rfl]
    rw [hnone]
    unfold translate
    rw [hs.withTable_dir, if_pos ha]
    simp only [hP', hPS, hnum, hzero, Bool.not_true, Bool.false_eq_true, if_false]
    rfl
  · refine translate_congr (by rw [hs.withTable_dir, if_neg ha]) ?_
    intro t ht
    have hfree : t ≠ f := by
      rintro rfl
      exact hs.table _ _ ht List.mem_cons_self
    have hdir : t ≠ d := by
      rintro rfl
      exact hself ht
    rw [hs.withTable_mem, if_neg (fun h => hdir h.1), if_neg hfree]

end NewTable

/-- The table for a page is found or made. Addresses translate as before, but for those that are seen
through an entry for the directory itself. -/
lemma DirOk.walk (hs : DirOk s d X l) (hx : pdx v ∈ X) :
    Sat (pgdirWalk (some d) v true) s
      (fun r t => ∃ f l', r = some ⟨f, ptx v⟩ ∧ DirOk t d X l' ∧ tableOf t.mem d (pdx v) = some f ∧
        Filled X (s.mem d) (t.mem d) ∧ (∀ y, tableOf t.mem d y = some d ↔ tableOf s.mem d y = some d) ∧
        ∀ a, tableOf s.mem d (pdx a) ≠ some d → translate t.mem d a = translate s.mem d a)
      (fun _ _ => False) := by
  unfold pgdirWalk readPte
  simp only [sat_bind, sat_get, sat_pure]
  by_cases hP : has (s.mem d (pdx v)) pteP = true
  · obtain ⟨hPS, -⟩ := hs.small _ hx hP
    have htable : tableOf s.mem d (pdx v) = some (pgnum (s.mem d (pdx v))) :=
      if_pos ⟨hP, by rw [hPS]; exact Bool.false_ne_true⟩
    have hlt := (hs.inside _ hx _ htable).1
    unfold Kern.kaddr
    simp only [hP, Bool.not_true, Bool.false_eq_true, if_false, sat_bind, sat_pure, sat_get, sat_ite, sat_throw,
      pgnum_pteAddr]
    refine ⟨fun hge => absurd hlt (Nat.not_lt.mpr hge), fun _ => ?_⟩
    exact ⟨_, l, rfl, hs, htable, Filled.refl, fun _ => trivial, fun _ _ => trivial⟩
  · have hP := Bool.eq_false_iff.mpr hP
    have habsent : pdx v ∈ absent s.mem d X := Finset.mem_filter.mpr ⟨hx, hP⟩
    have hpos := Nat.lt_of_lt_of_le (Finset.card_pos.mpr ⟨_, habsent⟩) hs.room
    obtain ⟨f, l', rfl⟩ := List.exists_cons_of_length_pos hpos
    have hf := hs.free f List.mem_cons_self
    have hlist := hs.list
    have hfree : s.pageFreeList = some f := hlist.1
    have hnew : tableOf (Kern.withTable s d (pdx v) f).mem d (pdx v) = some f := by
      rw [hs.withTable_tableOf, if_pos rfl]
    have hnum : pgnum ((Kern.withTable s d (pdx v) f).mem d (pdx v)) = f := by
      have hlt : f < 2 ^ 20 := Nat.lt_of_lt_of_le hf hs.npages_le
      rw [hs.withTable_dir, if_pos rfl]
      exact (target_eq_some (target_tableEntry hlt)).2
    unfold Kern.kaddr
    simp only [hP, Bool.not_false, Bool.not_true, Bool.false_eq_true, if_false, if_true, sat_bind,
      sat_of_ok (createPageTable_eq hfree hf hs.npages_le), sat_pure, sat_get, sat_ite, sat_throw, pgnum_pteAddr,
      hnum]
    refine ⟨fun h => h.elim, fun _ => ⟨fun hge => absurd hf (Nat.not_lt.mpr hge), fun _ => ?_⟩⟩
    refine ⟨f, l', rfl, hs.withTable hx hP, hnew, hs.withTable_filled hx hP, ?_,
      fun a hself => hs.withTable_translate hP hself⟩
    intro y
    rw [hs.withTable_tableOf]
    split
    · rename_i hy
      have hnone : tableOf s.mem d y = none := by
        unfold tableOf
        rw [hy, hP]
        rfl
      rw [hnone]
      exact ⟨fun h => absurd (Option.some.inj h).symm hs.ne_free, fun h => absurd h (Option.some_ne_none d).symm⟩
    · exact Iff.rfl

/-- One page is mapped, and every other address translates as before. -/
lemma DirOk.mapPage (hs : DirOk s d X l) (hx : pdx v ∈ X) (hp : p.toNat % 4096 = 0) (hperm : perm.toNat < 4096) :
    Sat (mapPage d perm v p) s
      (fun _ t => (∃ l', DirOk t d X l') ∧ Filled X (s.mem d) (t.mem d) ∧
        (∀ y, tableOf t.mem d y = some d ↔ tableOf s.mem d y = some d) ∧
        ∀ a, tableOf s.mem d (pdx a) ≠ some d → translate t.mem d a =
          if pdx a = pdx v ∧ ptx a = ptx v then
            some (p + BitVec.ofNat 32 (pgoff a), (perm ||| pteP) &&& permBits)
          else translate s.mem d a)
      (fun _ _ => False) := by
  have hflags : (perm ||| pteP).toNat < 4096 := by
    rw [BitVec.toNat_or]
    exact Nat.or_lt_two_pow (show perm.toNat < 2 ^ 12 from hperm) (by decide)
  have hw : has (p ||| perm ||| pteP) pteP = true := by
    rw [has_or, show has pteP pteP = true by decide, Bool.or_true]
  unfold Kern.mapPage
  rw [sat_bind]
  refine (hs.walk hx).post ?_
  rintro - t ⟨f, l', rfl, ht, htable, hfilled, hself, hsame⟩
  have hne : f ≠ d := (ht.inside _ hx _ htable).2
  have hdir : setWord t.mem f (ptx v) (p ||| perm ||| pteP) d = t.mem d := setWord_of_ne (Ne.symm hne)
  unfold writePte
  rw [sat_modify]
  refine ⟨⟨l', ht.write hne _ _⟩, ?_, fun y => ?_, fun a ha => ?_⟩
  · dsimp only
    rw [hdir]
    exact hfilled
  · rw [← hself y]
    dsimp only
    rw [tableOf_congr (congrFun hdir y)]
  · dsimp only
    rw [ht.translate_write hx htable hw, BitVec.or_assoc, pteAddr_or_low hp hflags, hsame a ha,
      flags_or_low hp _ (by decide)]

/-! ### The loops -/

/-- A loop whose turns do not go round: an invariant indexed by the number of turns. -/
lemma regionLoop_sat {map : Word → Word → PmapM Unit} {step n : ℕ} (I : ℕ → Pmap → Prop)
    (hlast : ∀ k < n, k * step < size.toNat) (hend : size.toNat ≤ n * step) (hfit : n * step < 2 ^ 32)
    (hturn : ∀ k s, k < n → I k s →
      Sat (map (va + BitVec.ofNat 32 (k * step)) (pa + BitVec.ofNat 32 (k * step))) s (fun _ t => I (k + 1) t)
        (fun _ _ => False)) (hs : I 0 s) (fuel : ℕ) :
    Sat (regionLoop map (BitVec.ofNat 32 step) size fuel va pa 0) s
      (fun done t => (done = true → I n t) ∧ (n < fuel → done = true)) (fun _ _ => False) := by
  have key : ∀ fuel k s, k ≤ n → I k s →
      Sat (regionLoop map (BitVec.ofNat 32 step) size fuel (va + BitVec.ofNat 32 (k * step))
        (pa + BitVec.ofNat 32 (k * step)) (BitVec.ofNat 32 (k * step))) s
        (fun done t => (done = true → I n t) ∧ (n < k + fuel → done = true)) (fun _ _ => False) := by
    intro fuel
    induction fuel with
    | zero =>
      intro k s hk _
      exact sat_pure.mpr ⟨Bool.noConfusion, fun h => by omega⟩
    | succ fuel ih =>
      intro k s hk hI
      have hle : k * step ≤ n * step := Nat.mul_le_mul_right step hk
      have hlt : BitVec.ofNat 32 (k * step) < size ↔ k * step < size.toNat := by
        rw [BitVec.lt_def, BitVec.toNat_ofNat, Nat.mod_eq_of_lt (Nat.lt_of_le_of_lt hle hfit)]
      unfold regionLoop
      by_cases hkn : k < n
      · have hadd : BitVec.ofNat 32 (k * step) + BitVec.ofNat 32 step = BitVec.ofNat 32 ((k + 1) * step) := by
          rw [← BitVec.ofNat_add, Nat.add_one_mul]
        rw [if_pos (hlt.mpr (hlast k hkn)), sat_bind]
        refine (hturn k s hkn hI).post ?_
        intro _ t ht
        rw [BitVec.add_assoc, BitVec.add_assoc, hadd]
        refine (ih (k + 1) t hkn ht).post ?_
        exact fun done u hu => ⟨hu.1, fun h => hu.2 (by omega)⟩
      · obtain rfl : k = n := by omega
        rw [if_neg (fun h => absurd (hlt.mp h) (Nat.not_lt.mpr hend))]
        exact sat_pure.mpr ⟨fun _ => hI, fun _ => rfl⟩
  have hzero := key fuel 0 s (Nat.zero_le n) hs
  rw [Nat.zero_mul, Nat.zero_add] at hzero
  have hva : va + BitVec.ofNat 32 0 = va := BitVec.add_zero va
  have hpa : pa + BitVec.ofNat 32 0 = pa := BitVec.add_zero pa
  rw [hva, hpa] at hzero
  exact hzero

/-- In steps of four megabytes `aux` never reaches a size in the last four megabytes. -/
lemma regionLoop_hangs {map : Word → Word → PmapM Unit} (hbig : 2 ^ 32 - 2 ^ 22 < size.toNat) (fuel : ℕ)
    (va pa aux : Word) (haux : aux.toNat % 2 ^ 22 = 0) (s : Pmap) :
    Sat (regionLoop map ptsize size fuel va pa aux) s (fun done _ => done = false) (fun _ _ => True) := by
  induction fuel generalizing va pa aux s with
  | zero => exact sat_pure.mpr rfl
  | succ fuel ih =>
    have hlt := aux.isLt
    have hmore : aux < size := by
      rw [BitVec.lt_def]
      omega
    unfold regionLoop
    rw [if_pos hmore, sat_bind]
    refine (sat_self _ s).mono ?_ (fun _ _ _ => trivial)
    intro _ t _
    refine ih _ _ _ ?_ t
    rw [BitVec.toNat_add, show ptsize.toNat = 2 ^ 22 from rfl]
    omega

/-- The address is one of the `n` from `va` on. -/
def InRegion (va : Word) (n : ℕ) (a : Word) : Prop := va.toNat ≤ a.toNat ∧ a.toNat < va.toNat + n

instance (va : Word) (n : ℕ) (a : Word) : Decidable (InRegion va n a) :=
  inferInstanceAs (Decidable (_ ∧ _))

lemma same_page_iff : (pdx a = pdx v ∧ ptx a = ptx v) ↔ a.toNat / 4096 = v.toNat / 4096 := by
  rw [pdx_eq_div, pdx_eq_div, ptx_eq_mod, ptx_eq_mod]
  omega

lemma pgoff_toNat (a : Word) : pgoff a = a.toNat % 4096 := by
  unfold pgoff
  rw [BitVec.toNat_and, show (0xfff : Word).toNat = 2 ^ 12 - 1 from rfl, Nat.and_two_pow_sub_one_eq_mod]

/-- The state after `k` pages. -/
def PagesMapped (s : Pmap) (d : ℕ) (va size pa perm : Word) (k : ℕ) (t : Pmap) : Prop :=
  (∃ l, DirOk t d (covered va size) l) ∧ Filled (covered va size) (s.mem d) (t.mem d) ∧
    (∀ y, tableOf t.mem d y = some d ↔ tableOf s.mem d y = some d) ∧
    ∀ a, tableOf s.mem d (pdx a) ≠ some d → translate t.mem d a =
      if InRegion va (k * 4096) a then some (pa + (a - va), (perm ||| pteP) &&& permBits)
      else translate s.mem d a

lemma pagesMapped_step {k : ℕ} (hk : k * 4096 < size.toNat) (hva : va.toNat % 4096 = 0)
    (hpa : pa.toNat % 4096 = 0) (hfit : va.toNat + size.toNat ≤ 2 ^ 32) (hperm : perm.toNat < 4096)
    (ht : PagesMapped s d va size pa perm k t) :
    Sat (mapPage d perm (va + BitVec.ofNat 32 (k * 4096)) (pa + BitVec.ofNat 32 (k * 4096))) t
      (fun _ u => PagesMapped s d va size pa perm (k + 1) u) (fun _ _ => False) := by
  obtain ⟨⟨l, hok⟩, hfilled, hself, htrans⟩ := ht
  have hv : (va + BitVec.ofNat 32 (k * 4096)).toNat = va.toNat + k * 4096 := by
    rw [BitVec.toNat_add, BitVec.toNat_ofNat]
    omega
  have hp : (pa + BitVec.ofNat 32 (k * 4096)).toNat % 4096 = 0 := by
    rw [BitVec.toNat_add, BitVec.toNat_ofNat]
    omega
  have hx : pdx (va + BitVec.ofNat 32 (k * 4096)) ∈ covered va size := by
    rw [pdx_eq_div, hv]
    exact Finset.mem_image.mpr ⟨_, Finset.mem_Ico.mpr ⟨by omega, by omega⟩, rfl⟩
  refine (hok.mapPage hx hp hperm).post ?_
  rintro - u ⟨hok', hfilled', hself', htrans'⟩
  refine ⟨hok', hfilled.trans hfilled', fun y => (hself' y).trans (hself y), fun a ha => ?_⟩
  have hsame : (pdx a = pdx (va + BitVec.ofNat 32 (k * 4096)) ∧ ptx a = ptx (va + BitVec.ofNat 32 (k * 4096))) ↔
      a.toNat / 4096 = (va.toNat + k * 4096) / 4096 := by
    rw [same_page_iff, hv]
  rw [htrans' a (fun h => ha ((hself _).mp h))]
  by_cases hpage : a.toNat / 4096 = (va.toNat + k * 4096) / 4096
  · have hin : InRegion va ((k + 1) * 4096) a := ⟨by omega, by omega⟩
    rw [if_pos (hsame.mpr hpage), if_pos hin]
    have haddr : a = va + (BitVec.ofNat 32 (k * 4096) + BitVec.ofNat 32 (pgoff a)) := by
      apply BitVec.eq_of_toNat_eq
      rw [BitVec.toNat_add, BitVec.toNat_add, BitVec.toNat_ofNat, BitVec.toNat_ofNat, pgoff_toNat]
      have hlt := a.isLt
      omega
    have hoff : a - va = BitVec.ofNat 32 (k * 4096) + BitVec.ofNat 32 (pgoff a) := by
      conv_lhs => rw [haddr]
      rw [BitVec.add_comm va, BitVec.add_sub_cancel]
    rw [hoff, BitVec.add_assoc]
  · rw [if_neg (fun h => hpage (hsame.mp h)), htrans a ha]
    have hiff : InRegion va ((k + 1) * 4096) a ↔ InRegion va (k * 4096) a := by
      unfold InRegion
      omega
    by_cases hin : InRegion va (k * 4096) a
    · rw [if_pos hin, if_pos (hiff.mpr hin)]
    · rw [if_neg hin, if_neg (fun h => hin (hiff.mp h))]

/-- The variant with small pages maps the region, if the pages have tables. -/
lemma DirOk.pages_sat (hs : DirOk s d (covered va size) l) (hva : va.toNat % 4096 = 0)
    (hpa : pa.toNat % 4096 = 0) (hsize : size.toNat % 4096 = 0) (hfit : va.toNat + size.toNat ≤ 2 ^ 32)
    (hperm : perm.toNat < 4096) (fuel : ℕ) :
    Sat (bootMapRegionPages d va size pa perm fuel) s
      (fun done t => (done = true → PagesMapped s d va size pa perm (size.toNat / 4096) t) ∧
        (size.toNat / 4096 < fuel → done = true)) (fun _ _ => False) := by
  have hlt := size.isLt
  refine regionLoop_sat (fun k t => PagesMapped s d va size pa perm k t) (fun k hk => by omega) (by omega) (by omega)
    (fun k t hk ht => pagesMapped_step (by omega) hva hpa hfit hperm ht) ?_ fuel
  refine ⟨⟨l, hs⟩, Filled.refl, fun _ => Iff.rfl, fun a _ => ?_⟩
  rw [if_neg]
  rintro ⟨hle, hlt⟩
  omega

/-! ### Four megabytes -/

lemma pgaddr_eq {x y o : ℕ} (hx : x < 1024) (hy : y < 1024) (ho : o < 4096) :
    (pgaddr x y o).toNat = x * 2 ^ 22 + y * 2 ^ 12 + o := by
  have hor : pgaddr x y o = pgaddr x y 0 ||| BitVec.ofNat 32 o := by
    unfold pgaddr
    rw [show BitVec.ofNat 32 0 = 0#32 from rfl, BitVec.or_zero]
  have hoff : (BitVec.ofNat 32 o).toNat = o := by
    rw [BitVec.toNat_ofNat]
    omega
  have hal : (pgaddr x y 0).toNat % 4096 = 0 := by
    rw [pgaddr_toNat hx hy]
    omega
  rw [hor, toNat_or_low hal (by omega), pgaddr_toNat hx hy, hoff]

/-- `ROUNDDOWN(pa, PTSIZE)` -/
def largeBase (pa : Word) : Word := pa - pa % ptsize

lemma largeBase_toNat (pa : Word) : (largeBase pa).toNat = pa.toNat - pa.toNat % 2 ^ 22 := by
  have hmod : (pa % ptsize).toNat = pa.toNat % 2 ^ 22 := by
    rw [BitVec.toNat_umod]
    rfl
  have hle : pa % ptsize ≤ pa := by
    rw [BitVec.le_def, hmod]
    exact Nat.mod_le _ _
  unfold largeBase
  rw [BitVec.toNat_sub_of_le hle, hmod]

lemma has_large (p perm : Word) : has (p ||| perm ||| pteP ||| ptePS) pteP = true ∧
    has (p ||| perm ||| pteP ||| ptePS) ptePS = true := by
  rw [has_or, has_or, has_or (p ||| perm ||| pteP), show has pteP pteP = true by decide,
    show has ptePS ptePS = true by decide, Bool.or_true, Bool.true_or, Bool.or_true]
  exact ⟨rfl, rfl⟩

/-- What `mapLargePage` stores in the entry `x`. -/
def largeEntry (va pa perm : Word) (x : ℕ) : Word :=
  (pa + BitVec.ofNat 32 ((x - va.toNat / 2 ^ 22) * 2 ^ 22)) ||| perm ||| pteP ||| ptePS

/-- The state after `k` entries of four megabytes. -/
def LargeMapped (s : Pmap) (d : ℕ) (va pa perm : Word) (k : ℕ) (t : Pmap) : Prop :=
  (∀ x, t.mem d x = if va.toNat / 2 ^ 22 ≤ x ∧ x < va.toNat / 2 ^ 22 + k then largeEntry va pa perm x
    else s.mem d x) ∧
    ∀ a, tableOf s.mem d (pdx a) ≠ some d → translate t.mem d a =
      if InRegion va (k * 2 ^ 22) a then some (largeBase pa + (a - va), (perm ||| pteP) &&& permBits)
      else translate s.mem d a

lemma largeMapped_step {k : ℕ} (hva : va.toNat % 2 ^ 22 = 0) (hpa : pa.toNat % 4096 = 0)
    (hfit : va.toNat + k * 2 ^ 22 < 2 ^ 32) (hperm : perm.toNat < 4096)
    (ht : LargeMapped s d va pa perm k t) :
    Sat (mapLargePage d perm (va + BitVec.ofNat 32 (k * 2 ^ 22)) (pa + BitVec.ofNat 32 (k * 2 ^ 22))) t
      (fun _ u => LargeMapped s d va pa perm (k + 1) u) (fun _ _ => False) := by
  obtain ⟨hdir, htrans⟩ := ht
  have hself : ∀ y, tableOf t.mem d y = some d → tableOf s.mem d y = some d := by
    intro y hy
    have hentry := hdir y
    split at hentry
    · rw [tableOf_large hentry (has_large _ perm).2] at hy
      cases hy
    · rwa [tableOf_congr hentry] at hy
  have hv : pdx (va + BitVec.ofNat 32 (k * 2 ^ 22)) = va.toNat / 2 ^ 22 + k := by
    rw [pdx_eq_div, BitVec.toNat_add, BitVec.toNat_ofNat]
    omega
  have hp : (pa + BitVec.ofNat 32 (k * 2 ^ 22)).toNat = (pa.toNat + k * 2 ^ 22) % 2 ^ 32 := by
    rw [BitVec.toNat_add, BitVec.toNat_ofNat]
    omega
  have hlargeEntry : largeEntry va pa perm (va.toNat / 2 ^ 22 + k) =
      (pa + BitVec.ofNat 32 (k * 2 ^ 22)) ||| perm ||| pteP ||| ptePS := by
    unfold largeEntry
    rw [Nat.add_sub_cancel_left]
  generalize hpk : pa + BitVec.ofNat 32 (k * 2 ^ 22) = p at hp hlargeEntry
  obtain ⟨hP, hPS⟩ := has_large p perm
  generalize hw : p ||| perm ||| pteP ||| ptePS = w at hP hPS hlargeEntry
  have hlow : (perm ||| pteP ||| ptePS).toNat < 4096 := by
    rw [BitVec.toNat_or, BitVec.toNat_or]
    exact Nat.or_lt_two_pow (Nat.or_lt_two_pow (show perm.toNat < 2 ^ 12 from hperm) (by decide)) (by decide)
  have hal : p.toNat % 4096 = 0 := by omega
  have hsplit : w = p ||| (perm ||| pteP ||| ptePS) := by
    rw [← hw, BitVec.or_assoc, BitVec.or_assoc, BitVec.or_assoc perm]
  have hflags : w &&& permBits = (perm ||| pteP) &&& permBits := by
    rw [hsplit, flags_or_low hal _ (by decide), BitVec.and_or_distrib_right,
      show ptePS &&& permBits = 0#32 by decide, BitVec.or_zero]
  have hpdx : pdx w = pa.toNat / 2 ^ 22 % 1024 + k - (pa.toNat / 2 ^ 22 % 1024 + k) / 1024 * 1024 := by
    rw [pdx_eq_div, hsplit, toNat_or_low hal hlow, hp]
    omega
  unfold mapLargePage writePte
  rw [sat_modify, hv, hw]
  refine ⟨fun x => ?_, fun a ha => ?_⟩
  · dsimp only
    rw [setWord_apply]
    by_cases hx : x = va.toNat / 2 ^ 22 + k
    · subst hx
      rw [if_pos ⟨rfl, rfl⟩, if_pos ⟨Nat.le_add_right _ _, Nat.lt_succ_self _⟩, hlargeEntry]
    · rw [if_neg (fun h => hx h.2), hdir x]
      refine if_congr ?_ rfl rfl
      omega
  · dsimp only
    by_cases hx : pdx a = va.toNat / 2 ^ 22 + k
    · have hdiv := hx
      rw [pdx_eq_div] at hdiv
      have hin : InRegion va ((k + 1) * 2 ^ 22) a := by
        unfold InRegion
        omega
      have haddr : pgaddr (pdx w) (ptx a) (pgoff a) = largeBase pa + (a - va) := by
        have hle : va ≤ a := by
          rw [BitVec.le_def]
          omega
        apply BitVec.eq_of_toNat_eq
        rw [pgaddr_eq (pdx_lt w) (ptx_lt a) (by rw [pgoff_toNat]; omega), BitVec.toNat_add,
          BitVec.toNat_sub_of_le hle, largeBase_toNat, hpdx, ptx_eq_mod, pgoff_toNat]
        have hlt := pa.isLt
        have hlt' := a.isLt
        omega
      have hentry : setWord t.mem d (va.toNat / 2 ^ 22 + k) w d (pdx a) = w := by
        rw [setWord_apply, if_pos ⟨rfl, hx⟩]
      rw [if_pos hin, ← haddr, ← hflags]
      unfold translate
      rw [hentry]
      simp only [hP, hPS, Bool.not_true, Bool.false_eq_true, if_false, if_true]
    · have hiff : InRegion va ((k + 1) * 2 ^ 22) a ↔ InRegion va (k * 2 ^ 22) a := by
        rw [pdx_eq_div] at hx
        unfold InRegion
        omega
      have hsame : translate (setWord t.mem d (va.toNat / 2 ^ 22 + k) w) d a = translate t.mem d a := by
        refine translate_congr ?_ ?_
        · rw [setWord_apply, if_neg (fun h => hx h.2)]
        · intro f hf
          rw [setWord_apply, if_neg]
          rintro ⟨rfl, -⟩
          exact ha (hself _ hf)
      rw [hsame, htrans a ha]
      by_cases hin : InRegion va (k * 2 ^ 22) a
      · rw [if_pos hin, if_pos (hiff.mpr hin)]
      · rw [if_neg hin, if_neg (fun h => hin (hiff.mp h))]

/-- The number of entries of four megabytes that a size takes. -/
def largeCount (size : Word) : ℕ := (size.toNat + (2 ^ 22 - 1)) / 2 ^ 22

/-- The variant with large pages maps whole entries. -/
lemma large_sat (hva : va.toNat % 2 ^ 22 = 0) (hpa : pa.toNat % 4096 = 0)
    (hfit : va.toNat + size.toNat ≤ 2 ^ 32) (hperm : perm.toNat < 4096) (hsize : size.toNat ≤ 2 ^ 32 - 2 ^ 22)
    (s : Pmap) (fuel : ℕ) :
    Sat (regionLoop (mapLargePage d perm) ptsize size fuel va pa 0) s
      (fun done t => (done = true → LargeMapped s d va pa perm (largeCount size) t) ∧
        (largeCount size < fuel → done = true)) (fun _ _ => False) := by
  have hstep : ptsize = BitVec.ofNat 32 (2 ^ 22) := rfl
  unfold largeCount
  rw [hstep]
  refine regionLoop_sat (fun k t => LargeMapped s d va pa perm k t) (fun k hk => by omega) (by omega) (by omega)
    (fun k t hk ht => largeMapped_step hva hpa (by omega) hperm ht) ?_ fuel
  refine ⟨fun x => (if_neg (fun h => absurd h.2 (Nat.not_lt.mpr h.1))).symm, fun a _ => ?_⟩
  rw [if_neg]
  rintro ⟨hle, hlt⟩
  omega

/-! ### The two variants -/

/-- The loop ends, the region is mapped, and every other address translates as before. -/
def MapsRegion (run : ℕ → PmapM Bool) (s : Pmap) (d : ℕ) (va size pa perm : Word) : Prop :=
  ∃ fuel, Sat (run fuel) s
    (fun done t => done = true ∧ ∀ a, translate t.mem d a =
      if InRegion va size.toNat a then some (pa + (a - va), (perm ||| pteP) &&& permBits)
      else translate s.mem d a)
    (fun _ _ => False)

/-- Both variants map the region. -/
def SameTranslation (s : Pmap) (d : ℕ) (va size pa perm : Word) : Prop :=
  MapsRegion (bootMapRegion d va size pa perm) s d va size pa perm ∧
    MapsRegion (bootMapRegionPse d va size pa perm) s d va size pa perm

/-- Nothing of a directory that is a table of its own shows a change: the entries of the region look through
it as the large ones will. -/
def SelfFits (s : Pmap) (d : ℕ) (va size pa perm : Word) : Prop :=
  ∀ a, tableOf s.mem d (pdx a) = some d → ptx a ∈ covered va size →
    translate s.mem d a = some (pteAddr (largeEntry va pa perm (ptx a)) + BitVec.ofNat 32 (pgoff a),
      s.mem d (pdx a) &&& largeEntry va pa perm (ptx a) &&& permBits)

/-- The condition on a region that is mapped with large pages: `pa` is aligned as `va` is, the loop ends,
what lies behind the region in its last entry is mapped that way already, and an entry for the directory
itself shows no change. -/
structure LargeFits (s : Pmap) (d : ℕ) (va size pa perm : Word) : Prop where
  aligned : pa.toNat % ptsize.toNat = 0
  ends : size.toNat ≤ 2 ^ 32 - ptsize.toNat
  behind : ∀ a, InRegion va (largeCount size * ptsize.toNat) a → ¬InRegion va size.toNat a →
    translate s.mem d a = some (pa + (a - va), (perm ||| pteP) &&& permBits)
  self : SelfFits s d va size pa perm

lemma largeBase_eq_iff : largeBase pa = pa ↔ pa.toNat % 2 ^ 22 = 0 := by
  rw [← BitVec.toNat_inj, largeBase_toNat]
  omega

lemma large_iff : (va % ptsize = 0 ∧ size ≥ ptsize) ↔ va.toNat % ptsize.toNat = 0 ∧ ptsize.toNat ≤ size.toNat := by
  rw [← BitVec.toNat_inj, BitVec.toNat_umod]
  exact Iff.rfl

/-- The entries that large pages take. -/
lemma mem_covered (hva : va.toNat % 2 ^ 22 = 0) :
    x ∈ covered va size ↔ va.toNat / 2 ^ 22 ≤ x ∧ x < va.toNat / 2 ^ 22 + largeCount size := by
  unfold covered largeCount
  rw [Finset.mem_image]
  constructor
  · rintro ⟨a, ha, rfl⟩
    obtain ⟨hlo, hhi⟩ := Finset.mem_Ico.mp ha
    omega
  · rintro ⟨hlo, hhi⟩
    refine ⟨x * 2 ^ 22, Finset.mem_Ico.mpr ⟨by omega, by omega⟩, by omega⟩

lemma pdx_mem_covered (hva : va.toNat % 2 ^ 22 = 0) (ha : InRegion va (largeCount size * 2 ^ 22) a) :
    pdx a ∈ covered va size := by
  obtain ⟨hlo, hhi⟩ := ha
  rw [mem_covered hva, pdx_eq_div]
  omega

/-- What large pages leave below an entry for the directory itself. -/
lemma LargeMapped.translate_self (ht : LargeMapped s d va pa perm (largeCount size) t)
    (hva : va.toNat % 2 ^ 22 = 0) (hown : ∀ x ∈ covered va size, tableOf s.mem d x ≠ some d)
    (ha : tableOf s.mem d (pdx a) = some d) : translate t.mem d a =
      if ptx a ∈ covered va size then
        some (pteAddr (largeEntry va pa perm (ptx a)) + BitVec.ofNat 32 (pgoff a),
          s.mem d (pdx a) &&& largeEntry va pa perm (ptx a) &&& permBits)
      else translate s.mem d a := by
  have hentry : t.mem d (pdx a) = s.mem d (pdx a) :=
    (ht.1 _).trans (if_neg (fun h => hown _ ((mem_covered hva).mpr h) ha))
  have hshown := ht.1 (ptx a)
  rw [translate_table (show tableOf t.mem d (pdx a) = some d from (tableOf_congr hentry).trans ha), hentry]
  by_cases hx : ptx a ∈ covered va size
  · rw [if_pos ((mem_covered hva).mp hx)] at hshown
    have hP : has (largeEntry va pa perm (ptx a)) pteP = true := (has_large _ perm).1
    rw [hshown, if_pos hP, if_pos hx]
  · rw [if_neg (fun h => hx ((mem_covered hva).mpr h))] at hshown
    rw [hshown, if_neg hx, translate_table ha]

/-- A region mapped with large pages is mapped as it is to be if and only if it fits them. -/
lemma mapsRegion_large_iff (hva : va.toNat % 2 ^ 22 = 0) (hpa : pa.toNat % 4096 = 0)
    (hfit : va.toNat + size.toNat ≤ 2 ^ 32) (hbig : 2 ^ 22 ≤ size.toNat) (hperm : perm.toNat < 4096)
    (hown : ∀ x ∈ covered va size, tableOf s.mem d x ≠ some d) :
    MapsRegion (fun fuel => regionLoop (mapLargePage d perm) ptsize size fuel va pa 0) s d va size pa perm ↔
      LargeFits s d va size pa perm := by
  have hpt : ptsize.toNat = 2 ^ 22 := rfl
  have hcount : size.toNat ≤ largeCount size * 2 ^ 22 := by
    unfold largeCount
    omega
  have hwhole : ∀ {a}, InRegion va size.toNat a → InRegion va (largeCount size * 2 ^ 22) a :=
    fun hin => ⟨hin.1, Nat.lt_of_lt_of_le hin.2 (Nat.add_le_add_left hcount _)⟩
  constructor
  · rintro ⟨fuel, hrun⟩
    obtain ⟨done, t, hok, rfl, hmaps⟩ := hrun.exists_ok
    have hsize : size.toNat ≤ 2 ^ 32 - 2 ^ 22 := by
      by_contra hgt
      have hhang : Sat (regionLoop (mapLargePage d perm) ptsize size fuel va pa 0) s (fun done _ => done = false)
          (fun _ _ => True) := regionLoop_hangs (Nat.lt_of_not_le hgt) fuel va pa 0 rfl s
      cases hhang.of_ok hok
    obtain ⟨hlarge, -⟩ := (large_sat hva hpa hfit hperm hsize s fuel).of_ok hok
    have hlarge := hlarge rfl
    have hzero : va - va = 0 := BitVec.sub_self va
    have hbase : largeBase pa = pa := by
      have hfirst := hmaps va
      have hin : InRegion va size.toNat va := ⟨le_rfl, by omega⟩
      rw [hlarge.2 va (hown _ (pdx_mem_covered hva (hwhole hin))), if_pos hin, if_pos (hwhole hin), hzero] at hfirst
      have heq := congrArg Prod.fst (Option.some.inj hfirst)
      rwa [show largeBase pa + 0 = largeBase pa from BitVec.add_zero _,
        show pa + 0 = pa from BitVec.add_zero _] at heq
    refine ⟨largeBase_eq_iff.mp hbase, hsize, fun a hin hout => ?_, fun a ha hx => ?_⟩
    · rw [hpt] at hin
      have hbehind := hmaps a
      rw [hlarge.2 a (hown _ (pdx_mem_covered hva hin)), if_pos hin, if_neg hout, hbase] at hbehind
      exact hbehind.symm
    · have hout : ¬InRegion va size.toNat a := fun hin => hown _ (pdx_mem_covered hva (hwhole hin)) ha
      have hshown := hmaps a
      rw [hlarge.translate_self hva hown ha, if_pos hx, if_neg hout] at hshown
      exact hshown.symm
  · rintro ⟨halign, hsize, htail, hshown⟩
    have hbase : largeBase pa = pa := largeBase_eq_iff.mpr halign
    refine ⟨largeCount size + 1, (large_sat hva hpa hfit hperm hsize s _).post ?_⟩
    rintro done t ⟨hlarge, hdone⟩
    have hdone := hdone (Nat.lt_succ_self _)
    have hlarge := hlarge hdone
    refine ⟨hdone, fun a => ?_⟩
    by_cases ha : tableOf s.mem d (pdx a) = some d
    · rw [if_neg (fun hin => hown _ (pdx_mem_covered hva (hwhole hin)) ha), hlarge.translate_self hva hown ha]
      split
      · rename_i hx
        exact (hshown a ha hx).symm
      · rfl
    rw [hlarge.2 a ha, hbase]
    by_cases hin : InRegion va size.toNat a
    · rw [if_pos hin, if_pos (hwhole hin)]
    · rw [if_neg hin]
      split
      · rename_i hall
        exact (htail a hall hin).symm
      · rfl

/-- A new table shows through an entry for the directory itself. -/
lemma PagesMapped.no_new_table {k : ℕ} (ht : PagesMapped s d va size pa perm k t)
    (hfit : va.toNat + size.toNat ≤ 2 ^ 32) (hown : ∀ x ∈ covered va size, tableOf s.mem d x ≠ some d)
    (hmaps : ∀ a, translate t.mem d a =
      if InRegion va size.toNat a then some (pa + (a - va), (perm ||| pteP) &&& permBits)
      else translate s.mem d a) (hself : SelfMapped s d) : absent s.mem d (covered va size) = ∅ := by
  obtain ⟨-, -, hkept, -⟩ := ht
  obtain ⟨w, hw⟩ := hself
  refine Finset.eq_empty_of_forall_notMem fun x hx => ?_
  obtain ⟨hx, hP⟩ := Finset.mem_filter.mp hx
  obtain ⟨n, hn, hdiv⟩ := Finset.mem_image.mp hx
  obtain ⟨hlo, hhi⟩ := Finset.mem_Ico.mp hn
  -- an address of the region below the entry
  have hnum : (BitVec.ofNat 32 n).toNat = n := by
    rw [BitVec.toNat_ofNat]
    omega
  have hpdx : pdx (BitVec.ofNat 32 n) = x := by rw [pdx_eq_div, hnum, hdiv]
  have hin : InRegion va size.toNat (BitVec.ofNat 32 n) := by
    unfold InRegion
    omega
  have hnew := present_of_translate ((hmaps (BitVec.ofNat 32 n)).trans (if_pos hin))
  rw [hpdx] at hnew
  -- the address at which the entry shows
  have hlt : x < 1024 := by omega
  have hpdx' := pdx_pgaddr (pdx_lt w) hlt
  have hptx' := ptx_pgaddr (pdx_lt w) hlt
  have hseen := hmaps (pgaddr (pdx w) x 0)
  have hout : ¬InRegion va size.toNat (pgaddr (pdx w) x 0) := by
    rintro ⟨hge, hle⟩
    refine hown _ ?_ hw
    rw [← hpdx', pdx_eq_div]
    exact Finset.mem_image.mpr ⟨_, Finset.mem_Ico.mpr ⟨hge, hle⟩, rfl⟩
  rw [if_neg hout, translate_table (hpdx'.symm ▸ (hkept _).mpr hw), translate_table (hpdx'.symm ▸ hw), hptx',
    if_pos hnew, hP, if_neg Bool.false_ne_true] at hseen
  cases hseen

/-- The variant with small pages maps the region as it is to be, unless a new table shows. -/
lemma DirOk.mapsRegion_pages_iff (hs : DirOk s d (covered va size) l) (hva : va.toNat % 4096 = 0)
    (hpa : pa.toNat % 4096 = 0) (hsize : size.toNat % 4096 = 0) (hfit : va.toNat + size.toNat ≤ 2 ^ 32)
    (hperm : perm.toNat < 4096) :
    MapsRegion (bootMapRegionPages d va size pa perm) s d va size pa perm ↔
      (SelfMapped s d → absent s.mem d (covered va size) = ∅) := by
  have hpages := hs.pages_sat hva hpa hsize hfit hperm
  have hown : ∀ x ∈ covered va size, tableOf s.mem d x ≠ some d := fun x hx ht => (hs.inside x hx d ht).2 rfl
  constructor
  · rintro ⟨fuel, hrun⟩
    obtain ⟨done, t, hok, rfl, hmaps⟩ := hrun.exists_ok
    exact (((hpages fuel).of_ok hok).1 rfl).no_new_table hfit hown hmaps
  · intro hnew
    refine ⟨size.toNat / 4096 + 1, (hpages _).post ?_⟩
    rintro done t ⟨hmapped, hdone⟩
    have hdone := hdone (Nat.lt_succ_self _)
    obtain ⟨-, hfilled, -, htrans⟩ := hmapped hdone
    refine ⟨hdone, fun a => ?_⟩
    by_cases ha : tableOf s.mem d (pdx a) = some d
    · have hdir : t.mem d = s.mem d := hfilled.eq (hnew ⟨a, ha⟩)
      have hout : ¬InRegion va size.toNat a := by
        rintro ⟨hge, hle⟩
        refine hown _ ?_ ha
        rw [pdx_eq_div]
        exact Finset.mem_image.mpr ⟨_, Finset.mem_Ico.mpr ⟨hge, hle⟩, rfl⟩
      rw [if_neg hout]
      refine translate_congr (congrFun hdir _) fun f hf => ?_
      rw [ha] at hf
      obtain rfl := Option.some.inj hf
      exact congrFun hdir _
    · rw [htrans a ha, Nat.div_mul_cancel (Nat.dvd_of_mod_eq_zero hsize)]

/-- A directory in frame 1 with itself at `UVPT`, as `kern_pgdir` has it, and a table in frame 2 for the
addresses from `KERNBASE` on. -/
def kernDir : Pmap where
  npages := 16
  kernPgdir := 1
  mem := fun f x => if f = 1 ∧ x = 957 then page2pa 1 ||| pteU ||| pteP
    else if f = 1 ∧ x = 960 then tableEntry 2 else 0
  ppRef := fun _ => 0
  ppLink := fun _ => none
  pageFreeList := some 3

lemma tableOf_kernDir (x : ℕ) :
    tableOf kernDir.mem 1 x = if x = 957 then some 1 else if x = 960 then some 2 else none := by
  have hentry : kernDir.mem 1 x =
      if x = 957 then page2pa 1 ||| pteU ||| pteP else if x = 960 then tableEntry 2 else 0 := by
    simp only [kernDir, true_and]
  unfold tableOf
  rw [hentry]
  by_cases hself : x = 957
  · rw [if_pos hself, if_pos hself]
    decide
  · rw [if_neg hself, if_neg hself]
    by_cases htable : x = 960
    · rw [if_pos htable, if_pos htable]
      decide
    · rw [if_neg htable, if_neg htable]
      decide

lemma covered_kernDir {x : ℕ} : x ∈ covered 0xf0001000 0x1000 ↔ x = 960 := by
  have hva : (0xf0001000 : Word).toNat = 4026535936 := rfl
  have hsize : (0x1000 : Word).toNat = 4096 := rfl
  unfold covered
  rw [Finset.mem_image, hva, hsize]
  constructor
  · rintro ⟨a, ha, rfl⟩
    obtain ⟨hlo, hhi⟩ := Finset.mem_Ico.mp ha
    omega
  · rintro rfl
    exact ⟨4026535936, Finset.mem_Ico.mpr ⟨le_rfl, by omega⟩, by decide⟩

lemma absent_kernDir : absent kernDir.mem 1 (covered 0xf0001000 0x1000) = ∅ := by
  refine Finset.filter_eq_empty_iff.mpr fun x hx => ?_
  rw [covered_kernDir.mp hx]
  decide

lemma dirOk_kernDir : DirOk kernDir 1 (covered 0xf0001000 0x1000) [3] where
  npages_le := by decide
  list := ⟨rfl, rfl⟩
  nodup := by decide
  free := by decide
  dir := by decide
  table x t ht := by
    rw [tableOf_kernDir] at ht
    split at ht
    · cases ht
      decide
    · split at ht
      · cases ht
        decide
      · cases ht
  apart x hx y t hx' hy := by
    obtain rfl := covered_kernDir.mp hx
    rw [tableOf_kernDir] at hx' hy
    cases hx'
    split at hy
    · cases hy
    · split at hy
      · rename_i heq
        exact heq.symm
      · cases hy
  small x hx _ := by
    rw [covered_kernDir.mp hx]
    decide
  inside x hx t ht := by
    rw [covered_kernDir.mp hx, tableOf_kernDir] at ht
    cases ht
    decide
  room := by
    rw [absent_kernDir]
    decide

/-- An empty directory in frame 1, and two free frames. -/
def emptyDir : Pmap where
  npages := 16
  kernPgdir := 1
  mem := fun _ _ => 0
  ppRef := fun _ => 0
  ppLink := fun f => if f = 2 then some 3 else none
  pageFreeList := some 2

lemma tableOf_emptyDir (x : ℕ) : tableOf emptyDir.mem 1 x = none := by
  have habsent : ¬has (emptyDir.mem 1 x) pteP = true := show ¬has 0 pteP = true by decide
  exact if_neg (fun h => habsent h.1)

end SistemasOperativos.Kern
