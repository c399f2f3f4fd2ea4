import SistemasOperativos.Fs.Files

/-!
# What the content of the disk means

The bitmap, the fields of a file and its block numbers, as functions of the content, and what the
functions of `fs/fs.c` that look after blocks make of the content.
-/

namespace SistemasOperativos.Fs

open Library Kern

variable {c c' : ℕ → Byte} {s t : Fs} {a b b' f n : ℕ} {w : Word}

/-! ### The bitmap -/

def IsFree (c : ℕ → Byte) (b : ℕ) : Prop := b < nblocksOf c ∧ bitOf c b = true

/-- The block that `alloc_block` takes. -/
def FirstFree (c : ℕ → Byte) (b : ℕ) : Prop := IsFree c b ∧ ∀ b' < b, ¬IsFree c b'

def setUsed (c : ℕ → Byte) (b : ℕ) : ℕ → Byte :=
  putWord c (bitmapAddr + 4 * (b / 32))
    (wordAt c (bitmapAddr + 4 * (b / 32)) &&& ~~~BitVec.twoPow 32 (b % 32))

def setFree (c : ℕ → Byte) (b : ℕ) : ℕ → Byte :=
  putWord c (bitmapAddr + 4 * (b / 32))
    (wordAt c (bitmapAddr + 4 * (b / 32)) ||| BitVec.twoPow 32 (b % 32))

lemma SuperOk.inUse (hs : SuperOk c) (hb : b < 2 + nbitmap c) : InUse c b :=
  ⟨Nat.lt_of_lt_of_le hb hs.exist, hs.reserved b hb⟩

lemma bitmapWord_div (b : ℕ) : (bitmapAddr + 4 * (b / 32)) / 4096 = 2 + b / 32768 := by
  unfold bitmapAddr
  omega

lemma SuperOk.bitmapWord (hs : SuperOk c) (hb : b < nblocksOf c) :
    InUse c ((bitmapAddr + 4 * (b / 32)) / 4096) := by
  rw [bitmapWord_div]
  exact hs.bitmapBlock hb

lemma not_isFree_of_inUse (h : InUse c b) : ¬IsFree c b := by
  rintro ⟨-, hbit⟩
  rw [h.2] at hbit
  cases hbit

/-- A block that may be allocated lies behind the bitmap. -/
lemma SuperOk.le_of_isFree (hs : SuperOk c) (h : IsFree c b) : 2 + nbitmap c ≤ b := by
  by_contra hlt
  exact not_isFree_of_inUse (hs.inUse (Nat.not_le.mp hlt)) h

lemma setUsed_of_ne {i : ℕ} (hi : i < bitmapAddr + 4 * (b / 32) ∨ bitmapAddr + 4 * (b / 32) + 4 ≤ i) :
    setUsed c b i = c i := putWord_of_ne hi

lemma setFree_of_ne {i : ℕ} (hi : i < bitmapAddr + 4 * (b / 32) ∨ bitmapAddr + 4 * (b / 32) + 4 ≤ i) :
    setFree c b i = c i := putWord_of_ne hi

lemma nblocksOf_putWord (ha : bitmapAddr ≤ a) : nblocksOf (putWord c a w) = nblocksOf c := by
  unfold nblocksOf
  rw [wordAt_putWord_of_ne]
  unfold bitmapAddr at ha
  omega

@[simp] lemma nblocksOf_setUsed : nblocksOf (setUsed c b) = nblocksOf c :=
  nblocksOf_putWord (by omega)

@[simp] lemma nblocksOf_setFree : nblocksOf (setFree c b) = nblocksOf c :=
  nblocksOf_putWord (by omega)

lemma bitOf_putWord (w : Word) : bitOf (putWord c (bitmapAddr + 4 * (b / 32)) w) b' =
    if b' / 32 = b / 32 then w.getLsbD (b' % 32) else bitOf c b' := by
  unfold bitOf
  rw [wordAt_putWord_aligned (by unfold bitmapAddr; omega) (by unfold bitmapAddr; omega)]
  by_cases h : b' / 32 = b / 32
  · rw [if_pos h, if_pos (by rw [h])]
  · rw [if_neg h, if_neg (by omega)]

@[simp] lemma bitOf_setUsed : bitOf (setUsed c b) b' = (bitOf c b' && decide (b' ≠ b)) := by
  unfold setUsed
  rw [bitOf_putWord]
  have hlt : b' % 32 < 32 := Nat.mod_lt _ (by decide)
  by_cases h : b' / 32 = b / 32
  · rw [if_pos h, BitVec.getLsbD_and, BitVec.getLsbD_not, BitVec.getLsbD_twoPow]
    unfold bitOf
    rw [h]
    by_cases hb : b' = b
    · subst hb
      simp [hlt]
    · have hne : ¬b % 32 = b' % 32 := by omega
      simp [hlt, hne, hb]
  · have hb : b' ≠ b := fun hb => h (by rw [hb])
    rw [if_neg h]
    simp [hb]

@[simp] lemma bitOf_setFree : bitOf (setFree c b) b' = (bitOf c b' || decide (b' = b)) := by
  unfold setFree
  rw [bitOf_putWord]
  have hlt : b' % 32 < 32 := Nat.mod_lt _ (by decide)
  by_cases h : b' / 32 = b / 32
  · rw [if_pos h, BitVec.getLsbD_or, BitVec.getLsbD_twoPow]
    unfold bitOf
    rw [h]
    by_cases hb : b' = b
    · subst hb
      simp [hlt]
    · have hne : ¬b % 32 = b' % 32 := by omega
      simp [hne, hb]
  · have hb : b' ≠ b := fun hb => h (by rw [hb])
    rw [if_neg h]
    simp [hb]

lemma nbitmap_of_nblocksOf (h : nblocksOf c' = nblocksOf c) : nbitmap c' = nbitmap c := by
  unfold nbitmap
  rw [h]

/-- The bitmap may change as long as the reserved blocks stay in use. -/
lemma SuperOk.mono (hs : SuperOk c) (hnb : nblocksOf c' = nblocksOf c)
    (h : ∀ b < 2 + nbitmap c, bitOf c' b = true → bitOf c b = true) : SuperOk c' := by
  have hbm := nbitmap_of_nblocksOf hnb
  constructor
  · rw [hnb]
    exact hs.size
  · rw [hnb, hbm]
    exact hs.exist
  · intro b hb
    rw [hbm] at hb
    cases hbit : bitOf c' b with
    | false => rfl
    | true =>
      have hfalse := hs.reserved b hb
      rw [h b hb hbit] at hfalse
      cases hfalse

lemma SuperOk.setUsed (hs : SuperOk c) (b : ℕ) : SuperOk (setUsed c b) := by
  apply hs.mono nblocksOf_setUsed
  intro b' _ hbit
  rw [bitOf_setUsed, Bool.and_eq_true] at hbit
  exact hbit.1

lemma SuperOk.setFree (hs : SuperOk c) (hb : 2 + nbitmap c ≤ b) : SuperOk (setFree c b) := by
  apply hs.mono nblocksOf_setFree
  intro b' hlt hbit
  have hne : b' ≠ b := by omega
  rw [bitOf_setFree] at hbit
  simpa [hne] using hbit

/-! ### Allocation -/

lemma loadBitmap_sat (hs : SuperOk s.content) (hb : b < nblocksOf s.content) :
    Sat (loadWord (bitmapAddr + 4 * (b / 32))) s
      (fun w t => w = wordAt s.content (bitmapAddr + 4 * (b / 32)) ∧ Loaded s t ∧ Paid s t ∧
        (t.cache.pages (2 + b / 32768)).isSome) (Short s) := by
  unfold loadWord
  simp only [sat_bind, sat_get, sat_pure]
  rw [bitmapWord_div]
  refine (touch_bitmap hs hb).post ?_
  rintro - t ⟨ht, hpaid, hmap⟩
  exact ⟨by rw [ht.content], ht, hpaid, hmap⟩

lemma blockIsFree_loaded (hs : SuperOk s.content) (b : ℕ) :
    Sat (blockIsFree b) s (fun r t => (r = true ↔ IsFree s.content b) ∧ Loaded s t ∧ Paid s t ∧
      (r = true → (t.cache.pages (2 + b / 32768)).isSome)) (Short s) := by
  unfold blockIsFree
  simp only [sat_bind, sat_get, sat_ite, sat_pure]
  constructor
  · intro hge
    have hnot : ¬IsFree s.content b := fun h => absurd h.1 (Nat.not_lt.mpr hge)
    have hno : ¬false = true := Bool.false_ne_true
    exact ⟨iff_of_false hno hnot, Loaded.refl s, Paid.refl s, fun h => absurd h hno⟩
  · intro hlt
    have hlt : b < nblocksOf s.content := Nat.not_le.mp hlt
    refine (loadBitmap_sat hs hlt).post ?_
    rintro w t ⟨rfl, ht, hpaid, hmap⟩
    exact ⟨⟨fun h => ⟨hlt, h⟩, fun h => h.2⟩, ht, hpaid, fun _ => hmap⟩

lemma freeBlock_sat (hs : SuperOk s.content) (hb : b < nblocksOf s.content) (hpos : b ≠ 0) :
    Sat (freeBlock b) s (fun _ t => t.content = setFree s.content b) NoMem := by
  unfold freeBlock
  simp only [sat_bind, sat_ite, sat_throw]
  refine ⟨fun h => absurd h hpos, fun _ => ?_⟩
  refine (loadWord_sat hs (hs.bitmapWord hb)).post ?_
  rintro w t ⟨rfl, ht⟩
  have hst : SuperOk t.content := by
    rw [ht.content]
    exact hs
  have hbt : b < nblocksOf t.content := by
    rw [ht.content]
    exact hb
  refine (storeWord_sat hst (hst.bitmapWord hbt) (by unfold bitmapAddr; omega) _).post ?_
  intro _ u hu
  rw [hu.content, ht.content]
  rfl

/-- The bit of block `b` is cleared in the cache. -/
def marked (s : Fs) (b : ℕ) : Fs := { s with
  cache := s.cache.change ((bitmapAddr + 4 * (b / 32)) / 4096) (fun data =>
    putWord data ((bitmapAddr + 4 * (b / 32)) % 4096)
      (wordAt s.content (bitmapAddr + 4 * (b / 32)) &&& ~~~BitVec.twoPow 32 (b % 32))) }

/-- Block `b` has been taken: its bit is cleared, and the first block of the bitmap written. -/
def taken (s : Fs) (b : ℕ) : Fs :=
  { marked s b with cache := (marked s b).cache.flush (bitmapAddr / 4096) }

lemma content_taken (hmap : (s.cache.pages (2 + b / 32768)).isSome) :
    (taken s b).content = setUsed s.content b := by
  rw [← bitmapWord_div] at hmap
  have hmark := change_putWord (Loaded.refl s) hmap (by unfold bitmapAddr; omega)
    (wordAt s.content (bitmapAddr + 4 * (b / 32)) &&& ~~~BitVec.twoPow 32 (b % 32))
  exact (content_flush (marked s b) _ _).trans hmark.content

lemma allocFrom_taken (n nb : ℕ) (hs : SuperOk s.content) (hn : nb + n ≤ nblocksOf s.content) :
    Sat (allocFrom n nb) s (fun r t =>
      (∃ b u, r = .ok b ∧ nb ≤ b ∧ IsFree s.content b ∧
        (∀ b', nb ≤ b' → b' < b → ¬IsFree s.content b') ∧ Loaded s u ∧
        (u.cache.pages (2 + b / 32768)).isSome ∧ t = taken u b) ∨
      (r = .error (-eNoDisk) ∧ (∀ b', nb ≤ b' → b' < nb + n → ¬IsFree s.content b') ∧
        Loaded s t)) (Short s) := by
  induction n generalizing nb s with
  | zero =>
    unfold allocFrom
    exact sat_pure.mpr
      (.inr ⟨rfl, fun b' h h' => absurd h' (Nat.not_lt.mpr h), Loaded.refl s⟩)
  | succ n ih =>
    unfold allocFrom
    rw [sat_bind]
    refine (blockIsFree_loaded hs nb).post ?_
    rintro free t ⟨hfree, ht, hpaid, hmap⟩
    rw [sat_ite]
    constructor
    · intro htrue
      have hmap := hmap htrue
      rw [sat_bind]
      refine (loadWord_mapped (by rw [bitmapWord_div]; exact hmap)).post ?_
      rintro w u ⟨rfl, rfl⟩
      rw [sat_bind]
      refine (storeWord_mapped (by rw [bitmapWord_div]; exact hmap) _).post ?_
      rintro - v rfl
      unfold flushBlock
      simp only [sat_bind, sat_ite, sat_throw, sat_modify, sat_pure]
      refine ⟨fun h => absurd h (by decide), fun _ => .inl ⟨nb, u, rfl, le_rfl, hfree.mp htrue, ?_, ht,
        hmap, rfl⟩⟩
      exact fun b' h h' => absurd h' (Nat.not_lt.mpr h)
    · intro hfalse
      have hnot : ¬IsFree s.content nb := fun h => hfalse (hfree.mpr h)
      have hstep : ∀ b', nb ≤ b' → ¬nb + 1 ≤ b' → ¬IsFree s.content b' := by
        intro b' h h'
        have heq : b' = nb := by omega
        rw [heq]
        exact hnot
      have hnext := ih (nb + 1) (s := t) (by rw [ht.content]; exact hs)
        (by rw [ht.content]; omega)
      refine hnext.mono ?_ (fun _ _ h => hpaid.short h)
      rw [ht.content]
      rintro r u (⟨b, v, rfl, hle, hb, hmin, hv, hmap, rfl⟩ | ⟨rfl, hall, hu⟩)
      · refine .inl ⟨b, v, rfl, by omega, hb, ?_, ht.trans hv, hmap, rfl⟩
        intro b' h h'
        by_cases hnext : nb + 1 ≤ b'
        · exact hmin b' hnext h'
        · exact hstep b' h hnext
      · refine .inr ⟨rfl, ?_, ht.trans hu⟩
        intro b' h h'
        by_cases hnext : nb + 1 ≤ b'
        · exact hall b' hnext (by omega)
        · exact hstep b' h hnext

/-- `alloc_block` takes the first free block, or returns `-E_NO_DISK` when there is none. -/
lemma allocBlock_taken (hs : SuperOk s.content) :
    Sat allocBlock s (fun r t =>
      (∃ b u, r = .ok b ∧ FirstFree s.content b ∧ Loaded s u ∧
        (u.cache.pages (2 + b / 32768)).isSome ∧ t = taken u b) ∨
      (r = .error (-eNoDisk) ∧ (∀ b, ¬IsFree s.content b) ∧ Loaded s t)) (Short s) := by
  unfold allocBlock
  rw [sat_bind, sat_get]
  refine (allocFrom_taken _ 0 hs (by omega)).post ?_
  rintro r t (⟨b, u, rfl, -, hb, hmin, hu, hmap, rfl⟩ | ⟨rfl, hall, ht⟩)
  · exact .inl ⟨b, u, rfl, ⟨hb, fun b' h => hmin b' (Nat.zero_le _) h⟩, hu, hmap, rfl⟩
  · exact .inr ⟨rfl, fun b hb => hall b (Nat.zero_le _) (by rw [Nat.zero_add]; exact hb.1) hb, ht⟩

lemma allocBlock_sat (hs : SuperOk s.content) :
    Sat allocBlock s (fun r t =>
      (∃ b, r = .ok b ∧ FirstFree s.content b ∧ t.content = setUsed s.content b) ∨
      (r = .error (-eNoDisk) ∧ (∀ b, ¬IsFree s.content b) ∧ t.content = s.content)) NoMem := by
  refine (allocBlock_taken hs).mono ?_ (fun _ _ h => h.1)
  rintro r t (⟨b, u, rfl, hb, hu, hmap, rfl⟩ | ⟨rfl, hall, ht⟩)
  · refine .inl ⟨b, rfl, hb, ?_⟩
    rw [content_taken hmap, hu.content]
  · exact .inr ⟨rfl, hall, ht.content⟩

end SistemasOperativos.Fs
