import SistemasOperativos.Fs.Layout

/-!
# Allocation on disks of every size

`alloc_block` writes the first block of the bitmap, whatever block it has taken, and the bits of
the blocks from `BLKBITSIZE` on are in the others. `free_block` takes its change back.
-/

namespace SistemasOperativos.Fs

open Library Kern

def blkbitsize : ℕ := 32768

/-- The block of the bitmap that holds the bit of block `b`. -/
def bitmapBlockOf (b : ℕ) : ℕ := 2 + b / blkbitsize

/-- `alloc_block` has taken block `b`: only its bit is cleared, the bitmap block with this bit is
the same on the disk, and `free_block` leads back to the content before. -/
structure Takes (s : Fs) (b : ℕ) (t : Fs) : Prop where
  bit : ∀ b', bitOf t.content b' = (bitOf s.content b' && decide (b' ≠ b))
  below : ∀ a < bitmapAddr, t.content a = s.content a
  written : ∀ o < 4096, t.cache.disk (bitmapBlockOf b) o = t.cache.block (bitmapBlockOf b) o
  freed : Sat (freeBlock b) t (fun _ u => u.content = s.content) (fun _ _ => False)

/-- What the server sees, the disk and the writes to it are as before. -/
structure NothingChanged (s t : Fs) : Prop where
  content : t.content = s.content
  disk : t.cache.disk = s.cache.disk
  log : t.cache.log = s.cache.log

/-- `alloc_block` takes the first free block or finds none, however many pages the kernel has. It
may stop for want of a page if they are fewer than the bitmap blocks that are not in the cache. -/
def AllocOk (s : Fs) : Prop := ∀ n,
  Sat allocBlock { s with frames := n }
    (fun r t => match r with
      | .ok b => FirstFree s.content b ∧ Takes s b t
      | .error e => e = -eNoDisk ∧ (∀ b, ¬IsFree s.content b) ∧ NothingChanged s t)
    (fun e _ => e = .noMem ∧ n < (uncached s).card)

/-- The first free block has its bit in the first block of the bitmap, or the disk already holds
what the bitmap block with its bit becomes. -/
def FlushReaches (s : Fs) : Prop := ∀ b, FirstFree s.content b → b < blkbitsize ∨
  ∀ o < 4096, s.cache.disk (bitmapBlockOf b) o = setUsed s.content b (4096 * bitmapBlockOf b + o)

variable {s t u : Fs} {c : ℕ → Byte} {a b k n o : ℕ}

/-! ### What is in memory -/

/-- Clearing and setting the bit of a free block changes nothing. -/
lemma setFree_setUsed (hb : bitOf c b = true) : setFree (setUsed c b) b = c := by
  have hword : (wordAt c (bitmapAddr + 4 * (b / 32)) &&& ~~~BitVec.twoPow 32 (b % 32)) |||
      BitVec.twoPow 32 (b % 32) = wordAt c (bitmapAddr + 4 * (b / 32)) := by
    apply BitVec.eq_of_getLsbD_eq
    intro i hi
    rw [BitVec.getLsbD_or, BitVec.getLsbD_and, BitVec.getLsbD_not, BitVec.getLsbD_twoPow]
    by_cases hbi : b % 32 = i
    · subst hbi
      unfold bitOf at hb
      simp [hb, hi]
    · simp [hbi, hi]
  unfold setFree setUsed
  rw [wordAt_putWord, hword, putWord_putWord, putWord_wordAt]

lemma freeBlock_mapped (hpos : b ≠ 0) (hmap : (s.cache.pages (2 + b / 32768)).isSome) :
    Sat (freeBlock b) s (fun _ t => t.content = setFree s.content b) (fun _ _ => False) := by
  rw [← bitmapWord_div] at hmap
  unfold freeBlock
  simp only [sat_bind, sat_ite, sat_throw]
  refine ⟨fun h => absurd h hpos, fun _ => ?_⟩
  refine (loadWord_mapped hmap).post ?_
  rintro w t ⟨rfl, rfl⟩
  refine (storeWord_mapped hmap _).post ?_
  rintro - u rfl
  exact (change_putWord (Loaded.refl t) hmap (by unfold bitmapAddr; omega) _).content

lemma block_eq_content (s : Fs) (k : ℕ) (ho : o < 4096) :
    s.cache.block k o = s.content (4096 * k + o) := by
  have hdiv : (4096 * k + o) / 4096 = k := by omega
  have hmod : (4096 * k + o) % 4096 = o := by omega
  unfold Fs.content
  rw [hdiv, hmod]

lemma isSome_taken (h : (s.cache.pages k).isSome) : ((taken s b).cache.pages k).isSome := by
  apply WriteBack.isSome_flush.mpr
  unfold marked
  dsimp only
  exact WriteBack.isSome_change.mpr h

/-! ### What is on the disk -/

/-- The flush is of block 2. -/
lemma disk_taken (hk : k ≠ 2) : (taken s b).cache.disk k = s.cache.disk k :=
  WriteBack.disk_flush_of_ne hk

lemma disk_taken_first (hb : b < blkbitsize) (hmap : (s.cache.pages (bitmapAddr / 4096)).isSome) :
    (taken s b).cache.disk 2 = (taken s b).cache.block 2 := by
  have hblock : (bitmapAddr + 4 * (b / 32)) / 4096 = bitmapAddr / 4096 := by
    unfold bitmapAddr
    unfold blkbitsize at hb
    omega
  have hdirty : (marked s b).cache.IsDirty (bitmapAddr / 4096) := by
    unfold marked
    dsimp only
    rw [hblock]
    exact WriteBack.isDirty_change hmap
  change ((marked s b).cache.flush (bitmapAddr / 4096)).disk (bitmapAddr / 4096) =
    ((marked s b).cache.flush (bitmapAddr / 4096)).block (bitmapAddr / 4096)
  rw [WriteBack.disk_flush_self hdirty, WriteBack.block_flush]

/-- The bitmap block of a taken block is on the disk if its bit is in the first one or if it was
there before. -/
lemma written_taken_iff (hu : Loaded s u) (hmap : (u.cache.pages (2 + b / 32768)).isSome) :
    (∀ o < 4096, (taken u b).cache.disk (bitmapBlockOf b) o =
      (taken u b).cache.block (bitmapBlockOf b) o) ↔
    b < blkbitsize ∨ ∀ o < 4096,
      s.cache.disk (bitmapBlockOf b) o = setUsed s.content b (4096 * bitmapBlockOf b + o) := by
  have hcont : (taken u b).content = setUsed s.content b := by
    rw [content_taken hmap, hu.content]
  by_cases hb : b < blkbitsize
  · have hfirst : bitmapBlockOf b = 2 := by
      unfold bitmapBlockOf
      rw [Nat.div_eq_of_lt hb]
    have hzero : 2 + b / 32768 = 2 := hfirst
    rw [hzero] at hmap
    refine iff_of_true ?_ (.inl hb)
    intro o _
    rw [hfirst, disk_taken_first hb hmap]
  · have hne : bitmapBlockOf b ≠ 2 := by
      unfold bitmapBlockOf blkbitsize
      unfold blkbitsize at hb
      omega
    rw [disk_taken hne, hu.disk, or_iff_right hb]
    apply forall₂_congr
    intro o ho
    rw [block_eq_content _ _ ho, hcont]

/-! ### The calls -/

lemma superOk_of_reserved (hsize : nblocksOf c ≤ maxBlocks)
    (hres : ∀ b < 2 + nbitmap c, InUse c b) : SuperOk c := by
  constructor
  · exact hsize
  · have hlast := (hres (1 + nbitmap c) (by omega)).1
    omega
  · exact fun b hb => (hres b hb).2

lemma FirstFree.unique (h : FirstFree c b) (h' : FirstFree c a) : a = b := by
  rcases Nat.lt_trichotomy a b with hlt | heq | hlt
  · exact absurd h'.1 (h.2 a hlt)
  · exact heq
  · exact absurd h.1 (h'.2 b hlt)

/-- Everything that `alloc_block` has to do but the write of the right bitmap block. -/
lemma takes_taken (hs : SuperOk s.content) (hb : FirstFree s.content b) (hu : Loaded s u)
    (hmap : (u.cache.pages (2 + b / 32768)).isSome)
    (hwritten : b < blkbitsize ∨ ∀ o < 4096,
      s.cache.disk (bitmapBlockOf b) o = setUsed s.content b (4096 * bitmapBlockOf b + o)) :
    Takes s b (taken u b) := by
  have hcont : (taken u b).content = setUsed s.content b := by
    rw [content_taken hmap, hu.content]
  have hpos : b ≠ 0 := by
    have hle := hs.le_of_isFree hb.1
    omega
  constructor
  · intro b'
    rw [hcont, bitOf_setUsed]
  · intro a ha
    rw [hcont]
    exact setUsed_of_ne (.inl (Nat.lt_of_lt_of_le ha (Nat.le_add_right _ _)))
  · exact (written_taken_iff hu hmap).mpr hwritten
  · refine (freeBlock_mapped hpos (isSome_taken hmap)).post ?_
    intro _ v hv
    rw [hv, hcont, setFree_setUsed hb.1.2]

lemma AllocOk.flushReaches (hs : SuperOk s.content) (h : AllocOk s) : FlushReaches s := by
  intro b hb
  -- with a page for every bitmap block the call returns
  obtain ⟨n, hn⟩ : ∃ n, n = (uncached s).card := ⟨_, rfl⟩
  have hreturn : Sat allocBlock { s with frames := n } _ (fun _ _ => False) :=
    ((h n).and (allocBlock_taken hs)).mono (fun _ _ h => h)
      (fun _ _ h => absurd h.1.2 (Nat.not_lt.mpr hn.ge))
  obtain ⟨r, t, -, hok, htaken⟩ := hreturn.exists_ok
  rcases htaken with ⟨b', u, rfl, hb', hu, hmap, rfl⟩ | ⟨-, hall, -⟩
  · obtain rfl := hb.unique hb'
    exact (written_taken_iff hu hmap).mp hok.2.written
  · exact absurd hb.1 (hall b)

/-- For every disk that `check_super` admits and every bitmap with the reserved blocks in use. -/
theorem allocOk_iff (s : Fs) (hsize : nblocksOf s.content ≤ maxBlocks)
    (hres : ∀ b < 2 + nbitmap s.content, InUse s.content b) : AllocOk s ↔ FlushReaches s := by
  have hs := superOk_of_reserved hsize hres
  refine ⟨fun h => h.flushReaches hs, fun h n => ?_⟩
  refine (allocBlock_taken (s := { s with frames := n }) hs).mono ?_ ?_
  · rintro r t (⟨b, u, rfl, hb, hu, hmap, rfl⟩ | ⟨rfl, hall, ht⟩)
    · have htakes := takes_taken (s := { s with frames := n }) hs hb hu hmap (h b hb)
      exact ⟨hb, htakes.bit, htakes.below, htakes.written, htakes.freed⟩
    · exact ⟨rfl, hall, ht.content, ht.disk, ht.log⟩
  · rintro e t ⟨hmem, hlt⟩
    exact ⟨hmem.1, hlt⟩

/-! ### Disks with one free block -/

/-- A disk of `n` blocks of which only block `b` is free, with nothing in the cache. -/
def oneFree (n b : ℕ) : Fs where
  cache := {
    disk := fun k o => setFree (putWord (fun _ => 0) 4100 (BitVec.ofNat 32 n)) b (4096 * k + o)
    pages := fun _ => none
    log := [] }
  frames := 0

lemma content_oneFree :
    (oneFree n b).content = setFree (putWord (fun _ => 0) 4100 (BitVec.ofNat 32 n)) b := by
  funext a
  change setFree _ b (4096 * (a / 4096) + a % 4096) = _
  rw [Nat.div_add_mod]

lemma bitOf_oneFree : bitOf (oneFree n b).content a = decide (a = b) := by
  have hzero : bitOf (putWord (fun _ => 0) 4100 (BitVec.ofNat 32 n)) a = false := by
    unfold bitOf
    rw [wordAt_putWord_of_ne (.inr (by unfold bitmapAddr; omega))]
    unfold wordAt
    simp
  rw [content_oneFree, bitOf_setFree, hzero, Bool.false_or]

lemma nblocksOf_oneFree (hn : n < 2 ^ 32) : nblocksOf (oneFree n b).content = n := by
  rw [content_oneFree, nblocksOf_setFree]
  unfold nblocksOf
  rw [wordAt_putWord, BitVec.toNat_ofNat, Nat.mod_eq_of_lt hn]

/-- Such a disk is one that `fs_init` accepts. -/
lemma reserved_oneFree (hn : n < 2 ^ 32) (hb : 2 + (n + 32767) / 32768 ≤ b) (hlt : b < n) :
    ∀ a < 2 + nbitmap (oneFree n b).content, InUse (oneFree n b).content a := by
  unfold nbitmap InUse
  rw [nblocksOf_oneFree hn]
  intro a ha
  rw [bitOf_oneFree]
  exact ⟨by omega, decide_eq_false (by omega)⟩

lemma firstFree_oneFree (hn : n < 2 ^ 32) (hlt : b < n) :
    FirstFree (oneFree n b).content a ↔ a = b := by
  unfold FirstFree IsFree
  simp only [nblocksOf_oneFree hn, bitOf_oneFree, decide_eq_true_eq]
  constructor
  · exact fun h => h.1.2
  · rintro rfl
    exact ⟨⟨hlt, rfl⟩, fun b' hb' h => absurd h.2 (Nat.ne_of_lt hb')⟩

theorem allocOk_oneBitmapBlock : AllocOk (oneFree 1024 700) := by
  apply (allocOk_iff _ (by rw [nblocksOf_oneFree (by decide)]; decide)
    (reserved_oneFree (by decide) (by decide) (by decide))).mpr
  intro b hb
  rw [firstFree_oneFree (by decide) (by decide)] at hb
  exact .inl (by rw [hb]; decide)

theorem allocOk_fails : ∃ s : Fs, nblocksOf s.content ≤ maxBlocks ∧
    (∀ b < 2 + nbitmap s.content, InUse s.content b) ∧ ¬AllocOk s := by
  have hsize : nblocksOf (oneFree 32769 32768).content ≤ maxBlocks := by
    rw [nblocksOf_oneFree (by decide)]
    decide
  have hres : ∀ b < 2 + nbitmap (oneFree 32769 32768).content,
      InUse (oneFree 32769 32768).content b :=
    reserved_oneFree (by decide) (by decide) (by decide)
  refine ⟨_, hsize, hres, fun h => ?_⟩
  have hfirst : FirstFree (oneFree 32769 32768).content 32768 :=
    (firstFree_oneFree (by decide) (by decide)).mpr rfl
  rcases h.flushReaches (superOk_of_reserved hsize hres) 32768 hfirst with hlt | hdisk
  · exact absurd hlt (by decide)
  · have hbyte := hdisk 0 (by decide)
    rw [content_oneFree] at hbyte
    exact absurd hbyte (by decide)

end SistemasOperativos.Fs
