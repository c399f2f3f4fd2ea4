import SistemasOperativos.Fs.Layout

/-!
# The blocks of a file

The block numbers that a file stores, and what `file_block_walk` and `file_get_block` make of them.
-/

namespace SistemasOperativos.Fs

open Library Kern

/-- Where a file stores a block number. -/
inductive Slot
  | direct (i : ℕ)
  | indirect
  | entry (i : ℕ)
  deriving DecidableEq

def fileSize (c : ℕ → Byte) (f : ℕ) : Word := wordAt c (fSize f)
def fileType (c : ℕ → Byte) (f : ℕ) : Word := wordAt c (fType f)
def indirectOf (c : ℕ → Byte) (f : ℕ) : ℕ := (wordAt c (fIndirect f)).toNat

def slotAddr (c : ℕ → Byte) (f : ℕ) : Slot → ℕ
  | .direct i => fDirect f i
  | .indirect => fIndirect f
  | .entry i => 4096 * indirectOf c f + 4 * i

@[simp] lemma slotAddr_direct (c : ℕ → Byte) (f i : ℕ) : slotAddr c f (.direct i) = f + 136 + 4 * i :=
  rfl
@[simp] lemma slotAddr_indirect (c : ℕ → Byte) (f : ℕ) : slotAddr c f .indirect = f + 176 := rfl
@[simp] lemma slotAddr_entry (c : ℕ → Byte) (f i : ℕ) :
    slotAddr c f (.entry i) = 4096 * indirectOf c f + 4 * i := rfl

/-- The block number in a slot. -/
def ptr (c : ℕ → Byte) (f : ℕ) (p : Slot) : ℕ := (wordAt c (slotAddr c f p)).toNat

/-- The slots that a file has. -/
def Slot.Valid (c : ℕ → Byte) (f : ℕ) : Slot → Prop
  | .direct i => i < ndirect
  | .indirect => True
  | .entry i => i < nindirect ∧ indirectOf c f ≠ 0

/-- The slot of the block `n` of a file. -/
def blockSlot (n : ℕ) : Slot := if n < ndirect then .direct n else .entry (n - ndirect)

/-- Where a `struct File` can be: in the super block or behind the bitmap, inside of one block. -/
structure FileAt (c : ℕ → Byte) (f : ℕ) : Prop where
  inUse : InUse c (f / 4096)
  fits : f % 4096 + 256 ≤ 4096
  aligned : f % 4 = 0
  place : f = rootAddr ∨ 2 + nbitmap c ≤ f / 4096

/-- The content after the allocation of the indirect block `b`. -/
def withIndirect (c : ℕ → Byte) (f b : ℕ) : ℕ → Byte :=
  cleared (putWord (setUsed c b) (fIndirect f) (BitVec.ofNat 32 b)) b

/-- The content after the allocation of the block `b` for the slot at `a`. -/
def withBlock (c : ℕ → Byte) (a b : ℕ) : ℕ → Byte := putWord (setUsed c b) a (BitVec.ofNat 32 b)

/-- The first part of `file_get_block`: the indirect block is there, or it is allocated. -/
inductive GetsIndirect (c : ℕ → Byte) (f n : ℕ) : (ℕ → Byte) → Prop
  | present (h : n < ndirect ∨ indirectOf c f ≠ 0) : GetsIndirect c f n c
  | allocated {b : ℕ} (h : ndirect ≤ n) (hzero : indirectOf c f = 0) (hb : FirstFree c b) :
      GetsIndirect c f n (withIndirect c f b)

/-- The second part: the block is there, or it is allocated. -/
inductive GetsBlock (c : ℕ → Byte) (f n : ℕ) : (ℕ → Byte) → Prop
  | present (h : ptr c f (blockSlot n) ≠ 0) : GetsBlock c f n c
  | allocated {b : ℕ} (hzero : ptr c f (blockSlot n) = 0) (hb : FirstFree c b) :
      GetsBlock c f n (withBlock c (slotAddr c f (blockSlot n)) b)

/-- There is no block for the slot of block `n` of a file. -/
def NoRoom (c : ℕ → Byte) (f n : ℕ) : Prop :=
  ∃ c₁, GetsIndirect c f n c₁ ∧ ptr c₁ f (blockSlot n) = 0 ∧ ∀ b, ¬IsFree c₁ b

/-- What stops `file_get_block` on a well-formed disk: no memory, or no free block, whose number
`-E_NO_DISK` is not taken for an error. -/
def StopAt (c : ℕ → Byte) (f n : ℕ) (e : FsExit) (t : Fs) : Prop :=
  NoMem e t ∨ (e = .badBlock 4294967287 ∧ n < ndirect + nindirect ∧ NoRoom c f n ∧
    ∀ b, ¬IsFree t.content b)

variable {c c' : ℕ → Byte} {s t : Fs} {a b b' f n k : ℕ} {w : Word}

/-! ### Places behind the bitmap -/

lemma FileAt.field_div (h : FileAt c f) (hk : k < 256) : (f + k) / 4096 = f / 4096 := by
  have hfits := h.fits
  omega

lemma FileAt.field (h : FileAt c f) (hk : k < 256) : InUse c ((f + k) / 4096) := by
  rw [h.field_div hk]
  exact h.inUse

/-- A word that is neither in the super block's own fields nor in the bitmap. -/
def Clear (c : ℕ → Byte) (a : ℕ) : Prop := (4104 ≤ a ∧ a + 4 ≤ 8192) ∨ 4096 * (2 + nbitmap c) ≤ a

lemma FileAt.clear (h : FileAt c f) (hk : k + 4 ≤ 256) : Clear c (f + k) := by
  unfold Clear
  rcases h.place with rfl | hplace
  · unfold rootAddr
    omega
  · omega

section Clear

lemma putWord_superByte (ha : Clear c a) (w : Word) :
    ∀ i, SuperByte c i → putWord c a w i = c i := by
  intro i hi
  apply putWord_of_ne
  unfold SuperByte at hi
  unfold Clear at ha
  omega

lemma cleared_superByte (hb : 2 + nbitmap c ≤ b) : ∀ i, SuperByte c i → cleared c b i = c i := by
  intro i hi
  unfold cleared
  rw [if_neg]
  unfold SuperByte at hi
  omega

/-- The bitmap and the super block are the same. -/
structure SameSuper (c c' : ℕ → Byte) : Prop where
  nblocks : nblocksOf c' = nblocksOf c
  bit : ∀ b < nblocksOf c, bitOf c' b = bitOf c b

lemma sameSuper_of (h : ∀ i, SuperByte c i → c' i = c i) : SameSuper c c' :=
  ⟨nblocksOf_congr h, fun _ hb => bitOf_congr h hb⟩

lemma SameSuper.inUse (h : SameSuper c c') : InUse c' b ↔ InUse c b := by
  unfold InUse
  rw [h.nblocks]
  constructor
  · rintro ⟨hb, hbit⟩
    exact ⟨hb, (h.bit b hb) ▸ hbit⟩
  · rintro ⟨hb, hbit⟩
    exact ⟨hb, (h.bit b hb).trans hbit⟩

lemma SameSuper.isFree (h : SameSuper c c') : IsFree c' b ↔ IsFree c b := by
  unfold IsFree
  rw [h.nblocks]
  constructor
  · rintro ⟨hb, hbit⟩
    exact ⟨hb, (h.bit b hb) ▸ hbit⟩
  · rintro ⟨hb, hbit⟩
    exact ⟨hb, (h.bit b hb).trans hbit⟩

lemma SameSuper.superOk (h : SameSuper c c') (hs : SuperOk c) : SuperOk c' := by
  apply hs.mono h.nblocks
  intro b hb hbit
  rw [h.bit b (Nat.lt_of_lt_of_le hb hs.exist)] at hbit
  exact hbit

lemma SameSuper.nbitmap (h : SameSuper c c') : Fs.nbitmap c' = Fs.nbitmap c :=
  nbitmap_of_nblocksOf h.nblocks

lemma SameSuper.fileAt (h : SameSuper c c') (hf : FileAt c f) : FileAt c' f := by
  constructor
  · exact h.inUse.mpr hf.inUse
  · exact hf.fits
  · exact hf.aligned
  · rw [h.nbitmap]
    exact hf.place

lemma sameSuper_putWord (ha : Clear c a) (w : Word) : SameSuper c (putWord c a w) :=
  sameSuper_of (putWord_superByte ha w)

lemma sameSuper_cleared (hb : 2 + nbitmap c ≤ b) : SameSuper c (cleared c b) :=
  sameSuper_of (cleared_superByte hb)

end Clear

lemma InUse.setUsed (h : InUse c b') (b : ℕ) : InUse (setUsed c b) b' := by
  unfold InUse
  rw [nblocksOf_setUsed, bitOf_setUsed, h.2]
  exact ⟨h.1, rfl⟩

lemma inUse_setUsed (h : IsFree c b) : InUse (setUsed c b) b := by
  unfold InUse
  rw [nblocksOf_setUsed, bitOf_setUsed]
  exact ⟨h.1, by simp⟩

lemma nbitmap_setUsed : nbitmap (setUsed c b) = nbitmap c := nbitmap_of_nblocksOf nblocksOf_setUsed

lemma FileAt.setUsed (h : FileAt c f) (b : ℕ) : FileAt (setUsed c b) f := by
  constructor
  · exact h.inUse.setUsed b
  · exact h.fits
  · exact h.aligned
  · rw [nbitmap_setUsed]
    exact h.place

/-- A word behind the bitmap is not changed by a change of the bitmap. -/
lemma wordAt_setUsed (hb : b < nblocksOf c) (ha : Clear c a) :
    wordAt (setUsed c b) a = wordAt c a := by
  have hlt : b / 32768 < nbitmap c := by
    unfold nbitmap
    omega
  apply wordAt_putWord_of_ne
  unfold Clear at ha
  unfold bitmapAddr
  omega

lemma toNat_eq_zero {w : Word} : w.toNat = 0 ↔ w = 0 :=
  ⟨fun h => BitVec.eq_of_toNat_eq h, fun h => congrArg BitVec.toNat h⟩

lemma indirectOf_eq_zero : indirectOf c f = 0 ↔ wordAt c (fIndirect f) = 0 := toNat_eq_zero

/-! ### `file_block_walk` -/

/-- What the blocks of a file need to be, for the server to find them. -/
structure BlocksAt (c : ℕ → Byte) (f n : ℕ) : Prop where
  file : FileAt c f
  indirect : indirectOf c f ≠ 0 → InUse c (indirectOf c f) ∧ 2 + nbitmap c ≤ indirectOf c f
  apart : indirectOf c f ≠ f / 4096
  block : (blockSlot n).Valid c f → ptr c f (blockSlot n) ≠ 0 → InUse c (ptr c f (blockSlot n))

lemma diskaddr_sat (hpos : b ≠ 0) (hb : b < nblocksOf s.content) :
    Sat (diskaddr b) s (fun a t => a = 4096 * b ∧ t = s) NoMem := by
  unfold diskaddr
  simp only [sat_bind, sat_get, sat_ite, sat_throw, sat_pure]
  refine ⟨fun h => ?_, fun _ => ⟨trivial, trivial⟩⟩
  rcases h with h | h
  · exact absurd h hpos
  · exact absurd hb (Nat.not_lt.mpr h)

lemma toNat_ofNat_block (hs : SuperOk c) (hb : b < nblocksOf c) :
    (BitVec.ofNat 32 b).toNat = b := by
  have hlt : b < maxBlocks := Nat.lt_of_lt_of_le hb hs.size
  unfold maxBlocks at hlt
  rw [BitVec.toNat_ofNat]
  omega

lemma withIndirect_file (hs : SuperOk c) (hf : FileAt c f) (hb : IsFree c b) :
    SuperOk (withIndirect c f b) ∧ FileAt (withIndirect c f b) f ∧ InUse (withIndirect c f b) b ∧
      nblocksOf (withIndirect c f b) = nblocksOf c ∧
      ∀ b', InUse c b' → InUse (withIndirect c f b) b' := by
  have hle := hs.le_of_isFree hb
  have hput : SameSuper (setUsed c b) (putWord (setUsed c b) (fIndirect f) (BitVec.ofNat 32 b)) :=
    sameSuper_putWord ((hf.setUsed b).clear (by decide)) _
  have hbm : nbitmap (putWord (setUsed c b) (fIndirect f) (BitVec.ofNat 32 b)) = nbitmap c :=
    hput.nbitmap.trans nbitmap_setUsed
  have hclear : SameSuper (putWord (setUsed c b) (fIndirect f) (BitVec.ofNat 32 b))
      (withIndirect c f b) := sameSuper_cleared (by rw [hbm]; exact hle)
  refine ⟨?_, ?_, ?_, ?_, ?_⟩
  · exact hclear.superOk (hput.superOk (hs.setUsed b))
  · exact hclear.fileAt (hput.fileAt (hf.setUsed b))
  · exact hclear.inUse.mpr (hput.inUse.mpr (inUse_setUsed hb))
  · rw [hclear.nblocks, hput.nblocks, nblocksOf_setUsed]
  · exact fun b' h => hclear.inUse.mpr (hput.inUse.mpr (h.setUsed b))

/-- A block that is in use is not the one that is cleared. -/
lemma FileAt.ne_of_isFree (hf : FileAt c f) (hb : IsFree c b) : f / 4096 ≠ b := by
  intro h
  have huse := hf.inUse
  rw [h] at huse
  exact not_isFree_of_inUse huse hb

lemma indirectOf_withIndirect (hs : SuperOk c) (hf : FileAt c f) (hb : IsFree c b) :
    indirectOf (withIndirect c f b) f = b := by
  have hne := hf.ne_of_isFree hb
  have hdiv := hf.field_div (k := 176) (by decide)
  have hfits := hf.fits
  unfold indirectOf withIndirect
  have hcong : wordAt (cleared (putWord (setUsed c b) (fIndirect f) (BitVec.ofNat 32 b)) b)
      (fIndirect f) =
      wordAt (putWord (setUsed c b) (fIndirect f) (BitVec.ofNat 32 b)) (fIndirect f) := by
    apply wordAt_congr
    intro i hi hi'
    unfold fIndirect at hi hi'
    unfold cleared
    rw [if_neg]
    omega
  rw [hcong, wordAt_putWord, toNat_ofNat_block hs hb.1]

lemma indirectSlot_sat (hs : SuperOk s.content) (hf : FileAt s.content f)
    (hpos : indirectOf s.content f ≠ 0) (hind : InUse s.content (indirectOf s.content f)) (n : ℕ) :
    Sat (indirectSlot f n) s (fun r t => r = .ok (slotAddr s.content f (.entry (n - ndirect))) ∧
      Loaded s t) NoMem := by
  unfold indirectSlot
  rw [sat_bind]
  refine (loadWord_sat hs (hf.field (by decide))).post ?_
  rintro w t ⟨rfl, ht⟩
  have hlt : indirectOf s.content f < nblocksOf t.content := by
    rw [ht.content]
    exact hind.1
  rw [sat_bind]
  refine (diskaddr_sat hpos hlt).post ?_
  rintro blk u ⟨rfl, rfl⟩
  exact sat_pure.mpr ⟨rfl, ht⟩

lemma allocIndirect_sat (hs : SuperOk s.content) (hf : FileAt s.content f) :
    Sat (allocIndirect f) s (fun r t =>
      (∃ b, r = .ok () ∧ FirstFree s.content b ∧ t.content = withIndirect s.content f b) ∨
      (r = .error (-eNoDisk) ∧ (∀ b, ¬IsFree s.content b) ∧ t.content = s.content)) NoMem := by
  unfold allocIndirect
  rw [sat_bind]
  refine (allocBlock_sat hs).post ?_
  rintro r t (⟨b, rfl, hb, ht⟩ | ⟨rfl, hall, ht⟩)
  · dsimp only
    have hle := hs.le_of_isFree hb.1
    have hst : SuperOk t.content := by
      rw [ht]
      exact hs.setUsed b
    have hft : FileAt t.content f := by
      rw [ht]
      exact hf.setUsed b
    rw [sat_bind]
    refine (storeWord_sat hst (hft.field (by decide)) ?_ _).post ?_
    · have hal := hf.aligned
      omega
    intro _ u hu
    have hsu : SameSuper t.content u.content := by
      rw [hu.content]
      exact sameSuper_putWord (hft.clear (by decide)) _
    rw [sat_bind]
    refine (diskaddr_sat (b := b) (by omega) ?_).post ?_
    · rw [hsu.nblocks, ht, nblocksOf_setUsed]
      exact hb.1.1
    rintro a v ⟨rfl, rfl⟩
    have hmax : 4096 * b / 4096 < maxBlocks := by
      have hlt := Nat.lt_of_lt_of_le hb.1.1 hs.size
      omega
    have hpages := pageAllocAt_clearBlock_sat v b
    rw [sat_bind] at hpages ⊢
    refine hpages.post ?_
    intro _ x hx
    rw [sat_bind]
    refine hx.post ?_
    rintro _ y ⟨m, rfl⟩
    rw [sat_bind]
    refine (flushBlock_sat hmax).post ?_
    rintro - z rfl
    refine sat_pure.mpr (.inl ⟨b, rfl, hb, ?_⟩)
    rw [content_flush]
    refine (content_cleared v b m).trans ?_
    rw [hu.content, ht]
    rfl
  · exact sat_pure.mpr (.inr ⟨rfl, hall, ht⟩)

/-- The outcomes of `file_block_walk` that do not look at the disk. -/
lemma fileBlockWalk_inval (alloc : Bool) (hn : ndirect + nindirect ≤ n) :
    Sat (fileBlockWalk f n alloc) s (fun r t => r = .error (-eInval) ∧ t = s) NoMem := by
  unfold fileBlockWalk
  simp only [sat_bind, sat_ite, sat_pure]
  exact ⟨fun _ => ⟨trivial, trivial⟩, fun h => absurd hn h⟩

lemma fileBlockWalk_found (alloc : Bool) (hs : SuperOk s.content) (hb : BlocksAt s.content f n)
    (hn : n < ndirect + nindirect) (h : n < ndirect ∨ indirectOf s.content f ≠ 0) :
    Sat (fileBlockWalk f n alloc) s
      (fun r t => r = .ok (slotAddr s.content f (blockSlot n)) ∧ Loaded s t) NoMem := by
  unfold fileBlockWalk
  simp only [sat_bind, sat_ite, sat_pure]
  refine ⟨fun hge => absurd hn (Nat.not_lt.mpr hge), fun _ => ⟨fun hlt => ?_, fun hge => ?_⟩⟩
  · unfold blockSlot
    rw [if_pos hlt]
    exact ⟨rfl, Loaded.refl s⟩
  · have hpos : indirectOf s.content f ≠ 0 := h.resolve_left hge
    refine (loadWord_sat hs (hb.file.field (by decide))).post ?_
    rintro w t ⟨rfl, ht⟩
    refine ⟨fun hzero => absurd (indirectOf_eq_zero.mpr hzero) hpos, fun _ => ?_⟩
    unfold blockSlot
    rw [if_neg hge]
    have h := indirectSlot_sat (s := t) (f := f) (by rw [ht.content]; exact hs)
      (by rw [ht.content]; exact hb.file) (by rw [ht.content]; exact hpos)
      (by rw [ht.content]; exact (hb.indirect hpos).1) n
    refine h.post ?_
    rw [ht.content]
    rintro r u ⟨rfl, hu⟩
    exact ⟨rfl, ht.trans hu⟩

lemma fileBlockWalk_absent (hs : SuperOk s.content) (hf : FileAt s.content f) (hn : ndirect ≤ n)
    (hn' : n < ndirect + nindirect) (hzero : indirectOf s.content f = 0) :
    Sat (fileBlockWalk f n false) s (fun r t => r = .error (-eNotFound) ∧ Loaded s t) NoMem := by
  unfold fileBlockWalk
  simp only [sat_bind, sat_ite, sat_pure]
  refine ⟨fun hge => absurd hn' (Nat.not_lt.mpr hge), fun _ => ⟨fun hlt => absurd hlt (Nat.not_lt.mpr hn),
    fun _ => ?_⟩⟩
  refine (loadWord_sat hs (hf.field (by decide))).post ?_
  rintro w t ⟨rfl, ht⟩
  refine ⟨fun _ => ⟨fun _ => ⟨trivial, ht⟩, fun h => absurd rfl h⟩, fun hne => ?_⟩
  exact absurd (indirectOf_eq_zero.mp hzero) hne

/-- The slot of a block that a file has. -/
structure SlotAt (c : ℕ → Byte) (a : ℕ) : Prop where
  inUse : InUse c (a / 4096)
  aligned : a % 4 = 0
  clear : Clear c a

lemma BlocksAt.slotAt (hb : BlocksAt c f n) (hn : n < ndirect + nindirect)
    (h : n < ndirect ∨ indirectOf c f ≠ 0) : SlotAt c (slotAddr c f (blockSlot n)) := by
  have hal := hb.file.aligned
  unfold ndirect nindirect at hn
  unfold ndirect at h
  unfold blockSlot ndirect
  by_cases hlt : n < 10
  · rw [if_pos hlt]
    have hfield := hb.file.field (k := 136 + 4 * n) (by omega)
    have hclear := hb.file.clear (k := 136 + 4 * n) (by omega)
    rw [← Nat.add_assoc] at hfield hclear
    refine ⟨hfield, ?_, hclear⟩
    rw [slotAddr_direct]
    omega
  · rw [if_neg hlt]
    have hpos := h.resolve_left hlt
    obtain ⟨huse, hle⟩ := hb.indirect hpos
    have hdiv : (4096 * indirectOf c f + 4 * (n - 10)) / 4096 = indirectOf c f := by omega
    rw [slotAddr_entry]
    constructor
    · rw [hdiv]
      exact huse
    · omega
    · exact .inr (by omega)

/-- The indirect block is empty at first. -/
lemma ptr_withIndirect (hs : SuperOk c) (hf : FileAt c f) (hb : IsFree c b) (hn : ndirect ≤ n)
    (hn' : n < ndirect + nindirect) : ptr (withIndirect c f b) f (blockSlot n) = 0 := by
  unfold ndirect nindirect at hn'
  unfold ndirect at hn
  unfold ptr blockSlot
  rw [if_neg (by unfold ndirect; omega), slotAddr_entry, indirectOf_withIndirect hs hf hb]
  have hbyte : ∀ i, 4096 * b ≤ i → i < 4096 * b + 4096 → withIndirect c f b i = 0 := by
    intro i hi hi'
    unfold withIndirect cleared
    rw [if_pos]
    omega
  have hzero : wordAt (withIndirect c f b) (4096 * b + 4 * (n - ndirect)) = 0 := by
    unfold wordAt ndirect
    rw [hbyte _ (by omega) (by omega), hbyte _ (by omega) (by omega), hbyte _ (by omega) (by omega),
      hbyte _ (by omega) (by omega)]
    rfl
  rw [hzero]
  rfl

lemma BlocksAt.withIndirect (hs : SuperOk c) (h : BlocksAt c f n) (hb : IsFree c b)
    (hn : ndirect ≤ n) (hn' : n < ndirect + nindirect) : BlocksAt (withIndirect c f b) f n := by
  obtain ⟨-, hfile, huse, hnb, -⟩ := withIndirect_file hs h.file hb
  constructor
  · exact hfile
  · rw [indirectOf_withIndirect hs h.file hb, nbitmap_of_nblocksOf hnb]
    exact fun _ => ⟨huse, hs.le_of_isFree hb⟩
  · rw [indirectOf_withIndirect hs h.file hb]
    exact (h.file.ne_of_isFree hb).symm
  · exact fun _ hne => absurd (ptr_withIndirect hs h.file hb hn hn') hne

/-- What the first part of `file_get_block` leaves to the second. -/
lemma GetsIndirect.next (hg : GetsIndirect c f n c') (hs : SuperOk c) (hb : BlocksAt c f n)
    (hn : n < ndirect + nindirect) :
    SuperOk c' ∧ BlocksAt c' f n ∧ (n < ndirect ∨ indirectOf c' f ≠ 0) ∧
      nblocksOf c' = nblocksOf c := by
  cases hg with
  | present h => exact ⟨hs, hb, h, rfl⟩
  | allocated hge hzero hfree =>
    obtain ⟨hs', -, -, hnb, -⟩ := withIndirect_file hs hb.file hfree.1
    refine ⟨hs', hb.withIndirect hs hfree.1 hge hn, .inr ?_, hnb⟩
    rw [indirectOf_withIndirect hs hb.file hfree.1]
    have hle := hs.le_of_isFree hfree.1
    omega

lemma fileBlockWalk_sat (hs : SuperOk s.content) (hb : BlocksAt s.content f n)
    (hn : n < ndirect + nindirect) :
    Sat (fileBlockWalk f n true) s (fun r t =>
      (GetsIndirect s.content f n t.content ∧ r = .ok (slotAddr t.content f (blockSlot n))) ∨
      (r = .error (-eNoDisk) ∧ ndirect ≤ n ∧ indirectOf s.content f = 0 ∧
        (∀ b, ¬IsFree s.content b) ∧ t.content = s.content)) NoMem := by
  by_cases hpresent : n < ndirect ∨ indirectOf s.content f ≠ 0
  · refine (fileBlockWalk_found true hs hb hn hpresent).post ?_
    rintro r t ⟨rfl, ht⟩
    rw [ht.content]
    exact .inl ⟨.present hpresent, rfl⟩
  · have hge : ¬n < ndirect := fun h => hpresent (.inl h)
    have hzero : indirectOf s.content f = 0 := by
      by_contra h
      exact hpresent (.inr h)
    unfold fileBlockWalk
    simp only [sat_bind, sat_ite, sat_pure]
    refine ⟨fun h => absurd hn (Nat.not_lt.mpr h), fun _ => ⟨fun h => absurd h hge, fun _ => ?_⟩⟩
    refine (loadWord_sat hs (hb.file.field (by decide))).post ?_
    rintro w t ⟨rfl, ht⟩
    refine ⟨fun _ => ?_, fun hne => absurd (indirectOf_eq_zero.mp hzero) hne⟩
    refine ⟨fun h => absurd h (by decide), fun _ => ?_⟩
    have hst : SuperOk t.content := by
      rw [ht.content]
      exact hs
    have hbt : BlocksAt t.content f n := by
      rw [ht.content]
      exact hb
    refine (allocIndirect_sat hst hbt.file).post ?_
    rw [ht.content]
    rintro r u (⟨b, rfl, hfree, hu⟩ | ⟨rfl, hall, hu⟩)
    · dsimp only
      have hgets : GetsIndirect s.content f n u.content := by
        rw [hu]
        exact .allocated (Nat.not_lt.mp hge) hzero hfree
      obtain ⟨hsu, hbu, hok, -⟩ := hgets.next hs hb hn
      have hpos := hok.resolve_left hge
      refine (indirectSlot_sat hsu hbu.file hpos (hbu.indirect hpos).1 n).post ?_
      rintro r v ⟨rfl, hv⟩
      rw [hv.content]
      refine .inl ⟨hgets, ?_⟩
      unfold blockSlot
      rw [if_neg hge]
    · exact sat_pure.mpr (.inr ⟨rfl, Nat.not_lt.mp hge, hzero, hall, hu⟩)

/-! ### `file_get_block` -/

lemma fillSlot_sat (hs : SuperOk s.content) (ha : SlotAt s.content a) :
    Sat (fillSlot a) s (fun _ t =>
      ((wordAt s.content a).toNat ≠ 0 ∧ t.content = s.content) ∨
      ((wordAt s.content a).toNat = 0 ∧ ∃ b, FirstFree s.content b ∧
        t.content = withBlock s.content a b) ∨
      ((wordAt s.content a).toNat = 0 ∧ (∀ b, ¬IsFree s.content b) ∧
        t.content = putWord s.content a 4294967287)) NoMem := by
  unfold fillSlot
  simp only [sat_bind, sat_ite, sat_pure]
  refine (loadWord_sat hs ha.inUse).post ?_
  rintro w t ⟨rfl, ht⟩
  have hst : SuperOk t.content := by
    rw [ht.content]
    exact hs
  constructor
  · intro hzero
    refine (allocBlock_sat hst).post ?_
    rw [ht.content]
    rintro r u (⟨b, rfl, hfree, hu⟩ | ⟨rfl, hall, hu⟩)
    · have hsu : SuperOk u.content := by
        rw [hu]
        exact hs.setUsed b
      have hau : InUse u.content (a / 4096) := by
        rw [hu]
        exact ha.inUse.setUsed b
      refine (storeWord_sat hsu hau ha.aligned _).post ?_
      intro _ v hv
      refine .inr (.inl ⟨toNat_eq_zero.mpr hzero, b, hfree, ?_⟩)
      rw [hv.content, hu]
      rfl
    · have hsu : SuperOk u.content := by
        rw [hu]
        exact hs
      have hau : InUse u.content (a / 4096) := by
        rw [hu]
        exact ha.inUse
      refine (storeWord_sat hsu hau ha.aligned _).post ?_
      intro _ v hv
      refine .inr (.inr ⟨toNat_eq_zero.mpr hzero, hall, ?_⟩)
      rw [hv.content, hu]
      rfl
  · intro hne
    exact .inl ⟨fun h => hne (toNat_eq_zero.mp h), ht.content⟩

lemma wordAt_withBlock (hs : SuperOk c) (hb : b < nblocksOf c) :
    (wordAt (withBlock c a b) a).toNat = b := by
  unfold withBlock
  rw [wordAt_putWord, toNat_ofNat_block hs hb]

lemma sameSuper_withBlock (ha : SlotAt c a) (b : ℕ) : SameSuper (setUsed c b) (withBlock c a b) := by
  apply sameSuper_putWord
  unfold Clear
  rw [nbitmap_setUsed]
  exact ha.clear

lemma valid_blockSlot (hn : n < ndirect + nindirect) (h : n < ndirect ∨ indirectOf c f ≠ 0) :
    (blockSlot n).Valid c f := by
  unfold blockSlot
  by_cases hlt : n < ndirect
  · rw [if_pos hlt]
    exact hlt
  · rw [if_neg hlt]
    refine ⟨?_, h.resolve_left hlt⟩
    omega

/-- The end of `file_get_block`, when the slot at `a` holds a block number. -/
lemma slotBlock_sat (hs : SuperOk s.content) (ha : InUse s.content (a / 4096))
    (hpos : (wordAt s.content a).toNat ≠ 0) (hlt : (wordAt s.content a).toNat < nblocksOf s.content) :
    Sat (do
      let blk ← diskaddr (← loadWord a).toNat
      flushBlock a
      return (.ok blk : Except ℤ ℕ)) s
      (fun r t => r = .ok (4096 * (wordAt s.content a).toNat) ∧ t.content = s.content) NoMem := by
  rw [sat_bind]
  refine (loadWord_sat hs ha).post ?_
  rintro w t ⟨rfl, ht⟩
  rw [sat_bind]
  refine (diskaddr_sat hpos (by rw [ht.content]; exact hlt)).post ?_
  rintro blk u ⟨rfl, rfl⟩
  rw [sat_bind]
  refine (flushBlock_sat (Nat.lt_of_lt_of_le ha.1 hs.size)).post ?_
  rintro - v rfl
  refine sat_pure.mpr ⟨rfl, ?_⟩
  rw [content_flush, ht.content]

/-- The outcomes of `file_get_block`. The address of the block is in the slot at the end. -/
inductive GotBlock (c : ℕ → Byte) (f n : ℕ) : Except ℤ ℕ → (ℕ → Byte) → Prop
  | inval (h : ndirect + nindirect ≤ n) : GotBlock c f n (.error (-eInval)) c
  | full (h : n < ndirect + nindirect) (hge : ndirect ≤ n) (hzero : indirectOf c f = 0)
      (hall : ∀ b, ¬IsFree c b) : GotBlock c f n (.error (-eNoDisk)) c
  | got {c₁ c₂ : ℕ → Byte} (h : n < ndirect + nindirect) (h₁ : GetsIndirect c f n c₁)
      (h₂ : GetsBlock c₁ f n c₂) : GotBlock c f n (.ok (4096 * ptr c₂ f (blockSlot n))) c₂

/-- The slot stays where it is when it is filled. -/
lemma slotAddr_withBlock (hb : BlocksAt c f n) (hn : n < ndirect + nindirect)
    (h : n < ndirect ∨ indirectOf c f ≠ 0) (hfree : IsFree c b) :
    slotAddr (withBlock c (slotAddr c f (blockSlot n)) b) f (blockSlot n) =
      slotAddr c f (blockSlot n) := by
  unfold blockSlot
  by_cases hlt : n < ndirect
  · rw [if_pos hlt]
    rfl
  · rw [if_neg hlt]
    have hpos := h.resolve_left hlt
    have hapart := hb.apart
    have hfits := hb.file.fits
    unfold ndirect nindirect at hn
    have hind : indirectOf (withBlock c (4096 * indirectOf c f + 4 * (n - ndirect)) b) f =
        indirectOf c f := by
      unfold indirectOf withBlock fIndirect
      rw [wordAt_putWord_of_ne]
      · rw [wordAt_setUsed hfree.1 (hb.file.clear (by decide))]
      · change f + 176 + 4 ≤ 4096 * indirectOf c f + 4 * (n - ndirect) ∨
          4096 * indirectOf c f + 4 * (n - ndirect) + 4 ≤ f + 176
        unfold ndirect
        omega
    rw [slotAddr_entry, slotAddr_entry, hind]

lemma fileGetBlock_sat (hs : SuperOk s.content) (hb : BlocksAt s.content f n) :
    Sat (fileGetBlock f n) s (fun r t => GotBlock s.content f n r t.content)
      (StopAt s.content f n) := by
  unfold fileGetBlock
  rw [sat_bind]
  by_cases hn : n < ndirect + nindirect
  · refine (fileBlockWalk_sat hs hb hn).mono ?_ (fun _ _ h => .inl h)
    rintro r t (⟨hgets, rfl⟩ | ⟨rfl, hge, hzero, hall, ht⟩)
    · dsimp only
      obtain ⟨hst, hbt, hok, hnb⟩ := hgets.next hs hb hn
      have hslot := hbt.slotAt hn hok
      rw [sat_bind]
      refine (fillSlot_sat hst hslot).mono ?_ (fun _ _ h => .inl h)
      rintro - u (⟨hpos, hu⟩ | ⟨hzero, b, hfree, hu⟩ | ⟨hzero, hall, hu⟩)
      · have hblock := hbt.block (valid_blockSlot hn hok) hpos
        have h := slotBlock_sat (s := u) (a := slotAddr t.content f (blockSlot n))
          (by rw [hu]; exact hst) (by rw [hu]; exact hslot.inUse) (by rw [hu]; exact hpos)
          (by rw [hu]; exact hblock.1)
        refine h.mono ?_ (fun _ _ h => .inl h)
        rintro r v ⟨rfl, hv⟩
        rw [hv, hu]
        exact .got hn hgets (.present hpos)
      · have hsame := sameSuper_withBlock hslot b
        have hword := wordAt_withBlock (a := slotAddr t.content f (blockSlot n)) hst hfree.1.1
        have hle := hst.le_of_isFree hfree.1
        have h := slotBlock_sat (s := u) (a := slotAddr t.content f (blockSlot n))
          (by rw [hu]; exact hsame.superOk (hst.setUsed b))
          (by rw [hu]; exact hsame.inUse.mpr (hslot.inUse.setUsed b))
          (by rw [hu, hword]; omega)
          (by rw [hu, hword, hsame.nblocks, nblocksOf_setUsed]; exact hfree.1.1)
        refine h.mono ?_ (fun _ _ h => .inl h)
        rintro r v ⟨rfl, hv⟩
        have hgot := GotBlock.got hn hgets (.allocated hzero hfree)
        unfold ptr at hgot
        rw [slotAddr_withBlock hbt hn hok hfree.1] at hgot
        rw [hv, hu]
        exact hgot
      · have hsame : SameSuper t.content u.content := by
          rw [hu]
          exact sameSuper_putWord hslot.clear _
        have hsu := hsame.superOk hst
        rw [sat_bind]
        refine (loadWord_sat hsu (hsame.inUse.mpr hslot.inUse)).mono ?_ (fun _ _ h => .inl h)
        rintro w v ⟨rfl, hv⟩
        have hword : (wordAt u.content (slotAddr t.content f (blockSlot n))).toNat = 4294967287 := by
          rw [hu, wordAt_putWord]
          rfl
        have hmax := hsu.size
        unfold maxBlocks at hmax
        unfold diskaddr
        simp only [sat_bind, sat_get, sat_ite, sat_throw, sat_pure]
        rw [hword, hv.content]
        refine ⟨fun _ => .inr ⟨rfl, hn, ⟨t.content, hgets, hzero, hall⟩, ?_⟩,
          fun h => absurd (.inr (by omega)) h⟩
        intro b hb
        rw [hv.content, hsame.isFree] at hb
        exact hall b hb
    · refine sat_pure.mpr ?_
      rw [ht]
      exact .full hn hge hzero hall
  · refine (fileBlockWalk_inval true (Nat.not_lt.mp hn)).mono ?_ (fun _ _ h => .inl h)
    rintro r t ⟨rfl, rfl⟩
    exact sat_pure.mpr (.inval (Nat.not_lt.mp hn))

end SistemasOperativos.Fs
