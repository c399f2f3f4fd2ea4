import SistemasOperativos.Fs.Changes
import Mathlib.Data.Finset.Card

/-!
# What `file_get_block` adds to a file

The block that it finds or allocates, and everything that it leaves alone.
-/

namespace SistemasOperativos.Fs

open Library Kern

variable {c c' c'' : ℕ → Byte} {F : Set ℕ} {len : ℕ → ℕ} {s t : Fs} {a b d f g i m n N : ℕ}

/-- The number of the block `n` of a file, `0` where it has none. -/
def blockOf (c : ℕ → Byte) (f n : ℕ) : ℕ :=
  if n < ndirect ∨ indirectOf c f ≠ 0 then ptr c f (blockSlot n) else 0

/-- A block with the contents of a file, in a directory behind its last block only. -/
def DataBlock (c : ℕ → Byte) (F : Set ℕ) (len : ℕ → ℕ) (b : ℕ) : Prop :=
  ∃ g ∈ F, ∃ m < maxLen, (IsDir c g → len g ≤ m) ∧ blockOf c g m ≠ 0 ∧ b = blockOf c g m

/-- The number of blocks for a file of `n` bytes. -/
def ceilBlocks (n : ℕ) : ℕ := (n + 4095) / 4096

/-- `MAXFILESIZE`. -/
def maxFileSize : ℕ := maxLen * 4096

/-- The number of free blocks. -/
def freeCount (c : ℕ → Byte) : ℕ :=
  ((Finset.range (nblocksOf c)).filter (fun b => bitOf c b = true)).card

/-- The free blocks, in the order in which `alloc_block` takes them. -/
def freeList (c : ℕ → Byte) : List ℕ :=
  (List.range (nblocksOf c)).filter (fun b => bitOf c b = true)

/-- The number of blocks that an indirect block takes, before the block `n` of a file. -/
def extra (c : ℕ → Byte) (f n : ℕ) : ℕ := if ndirect ≤ n ∧ indirectOf c f = 0 then 1 else 0

/-- The number of blocks that `file_get_block` takes. -/
def wanted (c : ℕ → Byte) (f n : ℕ) : ℕ := if blockOf c f n = 0 then extra c f n + 1 else 0

/-! ### Sizes -/

lemma ceilBlocks_mono (h : m ≤ n) : ceilBlocks m ≤ ceilBlocks n := by
  unfold ceilBlocks
  omega

lemma ceilBlocks_le_maxLen (h : n ≤ maxFileSize) : ceilBlocks n ≤ maxLen := by
  unfold ceilBlocks
  unfold maxFileSize maxLen ndirect nindirect at h
  unfold maxLen ndirect nindirect
  omega

lemma small_of_le_maxFileSize (h : n ≤ maxFileSize) : n + 4095 < 2 ^ 31 := by
  unfold maxFileSize maxLen ndirect nindirect at h
  omega

/-! ### The block numbers of a file -/

lemma blockOf_of_has (h : n < ndirect ∨ indirectOf c f ≠ 0) :
    blockOf c f n = ptr c f (blockSlot n) := if_pos h

lemma has_of_blockOf (h : blockOf c f n ≠ 0) : n < ndirect ∨ indirectOf c f ≠ 0 := by
  by_contra hno
  exact h (if_neg hno)

lemma blockSlot_inj (h : blockSlot n = blockSlot m) : n = m := by
  unfold blockSlot at h
  by_cases hn : n < ndirect
  · by_cases hm : m < ndirect
    · rw [if_pos hn, if_pos hm] at h
      exact Slot.direct.inj h
    · rw [if_pos hn, if_neg hm] at h
      cases h
  · by_cases hm : m < ndirect
    · rw [if_neg hn, if_pos hm] at h
      cases h
    · rw [if_neg hn, if_neg hm] at h
      have h := Slot.entry.inj h
      omega

namespace Tree

lemma blockOf_valid (hn : n < maxLen) (hpos : blockOf c f n ≠ 0) :
    (blockSlot n).Valid c f ∧ ptr c f (blockSlot n) = blockOf c f n :=
  ⟨valid_blockSlot hn (has_of_blockOf hpos), (blockOf_of_has (has_of_blockOf hpos)).symm⟩

lemma blockOf_inUse (h : Tree c F len) (hf : f ∈ F) (hn : n < maxLen) (hpos : blockOf c f n ≠ 0) :
    2 + nbitmap c ≤ blockOf c f n ∧ InUse c (blockOf c f n) := by
  obtain ⟨hvalid, hptr⟩ := blockOf_valid hn hpos
  rw [← hptr] at hpos ⊢
  exact h.slots f hf _ hvalid hpos

lemma blockOf_inj (h : Tree c F len) (hf : f ∈ F) (hg : g ∈ F) (hn : n < maxLen) (hm : m < maxLen)
    (hpos : blockOf c f n ≠ 0) (heq : blockOf c f n = blockOf c g m) : f = g ∧ n = m := by
  obtain ⟨hvalid, hptr⟩ := blockOf_valid hn hpos
  obtain ⟨hvalid', hptr'⟩ := blockOf_valid hm (heq ▸ hpos)
  rw [← hptr] at hpos
  rw [← hptr, ← hptr'] at heq
  obtain ⟨hfg, hslot⟩ := h.inj f hf g hg _ _ hvalid hvalid' hpos heq
  exact ⟨hfg, blockSlot_inj hslot⟩

lemma indirectOf_ne_blockOf (h : Tree c F len) (hf : f ∈ F) (hg : g ∈ F) (hn : n < maxLen)
    (hpos : blockOf c f n ≠ 0) : indirectOf c g ≠ blockOf c f n := by
  intro heq
  obtain ⟨hvalid, hptr⟩ := blockOf_valid hn hpos
  rw [← hptr] at heq hpos
  have hslot := (h.inj f hf g hg _ .indirect hvalid (Slot.valid_indirect c g) hpos heq.symm).2
  exact blockSlot_ne_indirect n hslot

/-- No file is in a block with contents. -/
lemma place_ne_blockOf (h : Tree c F len) (hf : f ∈ F) (hn : n < maxLen) (hpos : blockOf c f n ≠ 0)
    (hdata : IsDir c f → len f ≤ n) (hg : Place c F len g) : g / 4096 ≠ blockOf c f n := by
  intro heq
  rcases hg with rfl | ⟨d, hd, hdir, k, hk, hmax, j, hj, rfl⟩
  · have hle := (h.blockOf_inUse hf hn hpos).1
    unfold rootAddr at heq
    omega
  · obtain ⟨hvalid, hptr⟩ := blockOf_valid hn hpos
    rw [entryAt_div hj, ← hptr] at heq
    obtain ⟨rfl, hslot⟩ := h.inj d hd f hf _ _ (h.valid hd hdir hk hmax) hvalid
      (h.present d hd hdir k hk hmax) heq
    obtain rfl := blockSlot_inj hslot
    exact absurd (hdata hdir) (Nat.not_le.mpr hk)

end Tree

lemma Inert.blockOf_same (h : Inert F len c c') (hg : g ∈ F) (hn : n < maxLen) :
    blockOf c' g n = blockOf c g n := by
  unfold blockOf
  rw [h.indirect g hg]
  by_cases hhas : n < ndirect ∨ indirectOf c g ≠ 0
  · rw [if_pos hhas, if_pos hhas, h.ptrs g hg _ (valid_blockSlot hn hhas)]
  · rw [if_neg hhas, if_neg hhas]

/-- New contents of one block. -/
structure Rewritten (F : Set ℕ) (len : ℕ → ℕ) (b : ℕ) (c c' : ℕ → Byte) : Prop
    extends Inert F len c c' where
  sizes : ∀ g ∈ F, fileSize c' g = fileSize c g
  same : ∀ i, i / 4096 ≠ b → c' i = c i

lemma Tree.rewritten (h : Tree c F len) (hb : DataBlock c F len b)
    (hsame : ∀ i, i / 4096 ≠ b → c' i = c i) : Rewritten F len b c c' := by
  obtain ⟨f, hf, n, hn, hdata, hpos, rfl⟩ := hb
  have hle := (h.blockOf_inUse hf hn hpos).1
  have hsuper : SameSuper c c' := by
    apply sameSuper_of
    intro i hi
    apply hsame
    unfold SuperByte at hi
    omega
  have hplace : ∀ g, Place c F len g → ∀ k < 256, (g + k) / 4096 ≠ blockOf c f n := by
    intro g hg k hk
    have hne := h.place_ne_blockOf hf hn hpos hdata hg
    have hfits := (h.fileAt_place hg).fits
    omega
  constructor
  · apply h.inert (P := fun i => i / 4096 = blockOf c f n) hsuper hsame
    · constructor
      · exact fun g hg i _ hi => hplace g (h.home g hg) i (by omega)
      · intro g hg _ i hi heq
        exact h.indirectOf_ne_blockOf hf hg hn hpos (hi.symm.trans heq)
    · intro g hg i hi
      unfold maxnamelen at hi
      exact hplace g hg i (by omega)
  · intro g hg
    apply wordAt_congr
    intro i hi hi'
    unfold fSize at hi hi'
    apply hsame
    obtain ⟨k, rfl⟩ := Nat.exists_eq_add_of_le (Nat.le_trans (Nat.le_add_right g 128) hi)
    exact hplace g (h.home g hg) k (by omega)
  · exact hsame

/-! ### Steps that only add blocks -/

/-- Every block stays where it is, with its contents. -/
structure Steady (F : Set ℕ) (len : ℕ → ℕ) (c c' : ℕ → Byte) : Prop where
  tree : Tree c' F len
  kept : Kept F len c c'
  sizes : ∀ g ∈ F, fileSize c' g = fileSize c g
  nblocks : nblocksOf c' = nblocksOf c
  data : ∀ i, DataBlock c F len (i / 4096) → c' i = c i

/-- The block `n` of `f` is there now: it was there before, or it is the next free block, behind the
one that its indirect block has taken. -/
structure Filled (F : Set ℕ) (len : ℕ → ℕ) (f n : ℕ) (c c' : ℕ → Byte) : Prop
    extends Steady F len c c' where
  idle : blockOf c f n ≠ 0 → c' = c
  others : ∀ g ∈ F, ∀ m < maxLen, ¬(g = f ∧ m = n) → blockOf c' g m = blockOf c g m
  block : blockOf c' f n ≠ 0
  taken : blockOf c f n = 0 → (freeList c)[extra c f n]? = some (blockOf c' f n)
  list : freeList c' = (freeList c).drop (wanted c f n)
  indirect : ∀ g ∈ F, indirectOf c' g = indirectOf c g ∨
    (g = f ∧ extra c f n = 1 ∧ (freeList c)[0]? = some (indirectOf c' g))
  same : ∀ i, IsFree c (i / 4096) → i / 4096 ≠ indirectOf c' f → c' i = c i

/-- The bytes of a block with contents are none of a slot. -/
lemma Tree.data_notWordOf (h : Tree c F len) {p : Slot} (hf : f ∈ F) (hp : p.Valid c f)
    (hi : DataBlock c F len (i / 4096)) : ¬WordOf (slotAddr c f p) i := by
  obtain ⟨g, hg, m, hm, hdata, hpos, heq⟩ := hi
  have hplace := h.place_ne_blockOf hg hm hpos hdata (h.home f hf)
  have hind := h.indirectOf_ne_blockOf hg hf hm hpos
  have hfits := (h.fileAt hf).fits
  have hal := (h.slotAt hf hp).aligned
  unfold WordOf
  rcases slotAddr_cases hp with ⟨-, hlo, hhi⟩ | ⟨-, -, hdiv⟩
  · omega
  · omega

lemma Tree.data_inUse (h : Tree c F len) (hi : DataBlock c F len b) :
    InUse c b ∧ 2 + nbitmap c ≤ b := by
  obtain ⟨g, hg, m, hm, -, hpos, rfl⟩ := hi
  obtain ⟨hle, huse⟩ := h.blockOf_inUse hg hm hpos
  exact ⟨huse, hle⟩

lemma Tree.data_same (h : Tree c F len) {p : Slot} (hf : f ∈ F) (hp : p.Valid c f)
    (hc : Change c c' (WordOf (slotAddr c f p))) (hi : DataBlock c F len (i / 4096)) : c' i = c i := by
  obtain ⟨huse, hle⟩ := h.data_inUse hi
  apply hc.same i huse (.inr (by omega))
  exact h.data_notWordOf hf hp hi

lemma bitmap_apart (hb : b < nblocksOf c) (hi : (4104 ≤ i ∧ i < 8192) ∨ 4096 * (2 + nbitmap c) ≤ i) :
    i < bitmapAddr + 4 * (b / 32) ∨ bitmapAddr + 4 * (b / 32) + 4 ≤ i := by
  have hlt : b / 32768 < nbitmap c := by
    unfold nbitmap
    omega
  unfold bitmapAddr
  omega

lemma withBlock_of_ne (hb : b < nblocksOf c)
    (hi : (4104 ≤ i ∧ i < 8192) ∨ 4096 * (2 + nbitmap c) ≤ i) (hne : ¬WordOf a i) :
    withBlock c a b i = c i := by
  unfold withBlock
  rw [putWord_of_ne, setUsed_of_ne (bitmap_apart hb hi)]
  unfold WordOf at hne
  omega

lemma change_withBlock (hs : SuperOk c) (ha : SlotAt c a) (hb : IsFree c b) :
    Change c (withBlock c a b) (WordOf a) := by
  have hsame := sameSuper_withBlock ha b
  constructor
  · exact hsame.superOk (hs.setUsed b)
  · rw [hsame.nblocks, nblocksOf_setUsed]
  · exact fun i _ hi hne => withBlock_of_ne hb.1 hi hne

lemma withIndirect_of_ne (hb : b < nblocksOf c)
    (hi : (4104 ≤ i ∧ i < 8192) ∨ 4096 * (2 + nbitmap c) ≤ i) (hne : ¬WordOf (fIndirect f) i)
    (hblock : i / 4096 ≠ b) : withIndirect c f b i = c i := by
  unfold withIndirect cleared
  rw [if_neg hblock, putWord_of_ne, setUsed_of_ne (bitmap_apart hb hi)]
  unfold WordOf at hne
  omega

lemma change_withIndirect (hs : SuperOk c) (hf : FileAt c f) (hb : IsFree c b) :
    Change c (withIndirect c f b) (WordOf (slotAddr c f .indirect)) := by
  obtain ⟨hs', -, -, hnb, -⟩ := withIndirect_file hs hf hb
  constructor
  · exact hs'
  · exact hnb
  · intro i huse hi hne
    apply withIndirect_of_ne hb.1 hi hne
    rintro rfl
    exact not_isFree_of_inUse huse hb

lemma inUse_withBlock (ha : SlotAt c a) (h : InUse c m) (b : ℕ) : InUse (withBlock c a b) m :=
  (sameSuper_withBlock ha b).inUse.mpr (h.setUsed b)

/-! ### The free blocks -/

lemma extra_eq_one : extra c f n = 1 ↔ ndirect ≤ n ∧ indirectOf c f = 0 := by
  unfold extra
  split
  · exact ⟨fun _ => ‹_›, fun _ => rfl⟩
  · exact ⟨fun h => absurd h (by decide), fun h => absurd h ‹_›⟩

lemma extra_eq_zero : extra c f n = 0 ↔ n < ndirect ∨ indirectOf c f ≠ 0 := by
  unfold extra
  split
  · rename_i h
    exact ⟨fun h => absurd h (by decide), fun hor => hor.elim (fun hlt => absurd h.1 (Nat.not_le.mpr hlt))
      (fun hne => absurd h.2 hne)⟩
  · rename_i h
    refine ⟨fun _ => ?_, fun _ => rfl⟩
    by_contra hno
    exact h ⟨Nat.not_lt.mp (fun hlt => hno (.inl hlt)), not_not.mp (fun hne => hno (.inr hne))⟩

lemma mem_freeList : b ∈ freeList c ↔ IsFree c b := by
  unfold freeList IsFree
  rw [List.mem_filter, List.mem_range, decide_eq_true_eq]

lemma freeList_eq_nil : freeList c = [] ↔ ∀ b, ¬IsFree c b := by
  rw [List.eq_nil_iff_forall_not_mem]
  simp only [mem_freeList]

lemma freeCount_eq_length (c : ℕ → Byte) : freeCount c = (freeList c).length := rfl

lemma freeList_of_sameSuper (h : SameSuper c c') : freeList c' = freeList c := by
  unfold freeList
  rw [h.nblocks]
  apply List.filter_congr
  intro b hb
  rw [h.bit b (List.mem_range.mp hb)]

lemma freeCount_of_sameSuper (h : SameSuper c c') : freeCount c' = freeCount c := by
  rw [freeCount_eq_length, freeList_of_sameSuper h]
  rfl

/-- The block that `alloc_block` takes is the first one of the list. -/
lemma freeList_setUsed (hb : FirstFree c b) : freeList c = b :: freeList (setUsed c b) := by
  obtain ⟨⟨hlt, hbit⟩, hmin⟩ := hb
  obtain ⟨k, hk⟩ := Nat.exists_eq_add_of_lt hlt
  have hsplit : List.range (nblocksOf c) = List.range b ++ b :: List.range' (b + 1) k := by
    rw [hk, List.range_eq_range', List.range_eq_range', Nat.add_assoc, ← List.range'_append_1,
      Nat.zero_add, List.range'_succ]
  have hfront : ∀ m ∈ List.range b, ¬decide (bitOf c m = true) = true := by
    intro m hm hfree
    have hm := List.mem_range.mp hm
    exact hmin m hm ⟨Nat.lt_trans hm hlt, of_decide_eq_true hfree⟩
  have hfront' : ∀ m ∈ List.range b, ¬decide (bitOf (setUsed c b) m = true) = true := by
    intro m hm hfree
    apply hfront m hm
    rw [bitOf_setUsed] at hfree
    simp only [Bool.and_eq_true, decide_eq_true_eq] at hfree ⊢
    exact hfree.1
  have hrest : (List.range' (b + 1) k).filter (fun m => decide (bitOf (setUsed c b) m = true)) =
      (List.range' (b + 1) k).filter (fun m => decide (bitOf c m = true)) := by
    apply List.filter_congr
    intro m hm
    have hne : m ≠ b := by
      rw [List.mem_range'_1] at hm
      omega
    rw [bitOf_setUsed]
    simp [hne]
  unfold freeList
  rw [nblocksOf_setUsed, hsplit, List.filter_append, List.filter_append,
    List.filter_eq_nil_iff.mpr hfront, List.filter_eq_nil_iff.mpr hfront', List.nil_append,
    List.nil_append, List.filter_cons_of_pos (by simpa using hbit), List.filter_cons_of_neg (by simp),
    hrest]

lemma freeList_withBlock (ha : SlotAt c a) (hb : FirstFree c b) :
    freeList c = b :: freeList (withBlock c a b) := by
  rw [freeList_of_sameSuper (sameSuper_withBlock ha b), ← freeList_setUsed hb]

/-! ### The indirect block -/

lemma sameSuper_withIndirect (hs : SuperOk c) (hf : FileAt c f) (hb : IsFree c b) :
    SameSuper (setUsed c b) (withIndirect c f b) := by
  have hput : SameSuper (setUsed c b) (putWord (setUsed c b) (fIndirect f) (BitVec.ofNat 32 b)) :=
    sameSuper_putWord ((hf.setUsed b).clear (by decide)) _
  have hclear : SameSuper (putWord (setUsed c b) (fIndirect f) (BitVec.ofNat 32 b))
      (withIndirect c f b) := by
    apply sameSuper_cleared
    rw [hput.nbitmap, nbitmap_setUsed]
    exact hs.le_of_isFree hb
  constructor
  · exact hclear.nblocks.trans hput.nblocks
  · intro m hm
    rw [hclear.bit m (by rw [hput.nblocks]; exact hm), hput.bit m hm]

lemma freeList_withIndirect (hs : SuperOk c) (hf : FileAt c f) (hb : FirstFree c b) :
    freeList c = b :: freeList (withIndirect c f b) := by
  rw [freeList_of_sameSuper (sameSuper_withIndirect hs hf hb.1), ← freeList_setUsed hb]

lemma withIndirect_empty (i : ℕ) (hi : i < nindirect) :
    wordAt (withIndirect c f b) (4096 * b + 4 * i) = 0 := by
  unfold nindirect at hi
  have hbyte : ∀ k, 4096 * b ≤ k → k < 4096 * b + 4096 → withIndirect c f b k = 0 := by
    intro k hk hk'
    unfold withIndirect cleared
    rw [if_pos]
    omega
  unfold wordAt
  rw [hbyte _ (by omega) (by omega), hbyte _ (by omega) (by omega), hbyte _ (by omega) (by omega),
    hbyte _ (by omega) (by omega)]
  rfl

lemma Tree.tree_withIndirect (h : Tree c F len) (hf : f ∈ F) (hzero : indirectOf c f = 0)
    (hb : IsFree c b) :
    Tree (withIndirect c f b) F len ∧ Kept F len c (withIndirect c f b) := by
  have hfile := h.fileAt hf
  obtain ⟨-, -, huse, -, hmono⟩ := withIndirect_file h.super hfile hb
  exact h.putIndirect hf (change_withIndirect h.super hfile hb)
    (indirectOf_withIndirect h.super hfile hb)
    (.inr ⟨hzero, hb, huse, withIndirect_empty⟩) (fun b' _ hb' _ => hmono b' hb')

/-- A change of the number of an indirect block leaves the block numbers outside of it. -/
lemma Tree.blockOf_putIndirect (h : Tree c F len) (hf : f ∈ F)
    (hc : Change c c' (WordOf (slotAddr c f .indirect))) (hg : g ∈ F) (hm : m < maxLen)
    (hne : g = f → m < ndirect) : blockOf c' g m = blockOf c g m := by
  have hq : Slot.Valid c f .indirect := Slot.valid_indirect c f
  by_cases hlt : m < ndirect
  · rw [blockOf_of_has (.inl hlt), blockOf_of_has (.inl hlt)]
    have hvalid : (blockSlot m).Valid c g := valid_blockSlot hm (.inl hlt)
    have hslot : blockSlot m = .direct m := if_pos hlt
    apply h.ptr_slot hf hq hc hg hvalid
    · rintro ⟨-, heq⟩
      exact blockSlot_ne_indirect m heq
    · rw [hslot]
      rfl
  · have hgf : g ≠ f := fun heq => hlt (hne heq)
    have hsame : indirectOf c' g = indirectOf c g := h.indirectOf_putIndirect hf hc hg hgf
    unfold blockOf
    rw [hsame]
    by_cases hpos : indirectOf c g = 0
    · rw [if_neg, if_neg]
      · exact fun hor => hor.elim hlt (fun hne => hne hpos)
      · exact fun hor => hor.elim hlt (fun hne => hne hpos)
    · rw [if_pos (.inr hpos), if_pos (.inr hpos)]
      apply h.ptr_slot hf hq hc hg (valid_blockSlot hm (.inr hpos)) (fun heq => hgf heq.1)
      exact slotAddr_of_indirectOf hsame _

/-- The other block numbers are as they were, those of the new indirect block are `0`. -/
lemma Tree.blockOf_withIndirect (h : Tree c F len) (hf : f ∈ F) (hzero : indirectOf c f = 0)
    (hb : IsFree c b) (hg : g ∈ F) (hm : m < maxLen) :
    blockOf (withIndirect c f b) g m = blockOf c g m := by
  have hfile := h.fileAt hf
  have hind := indirectOf_withIndirect h.super hfile hb
  by_cases hout : g = f → m < ndirect
  · exact h.blockOf_putIndirect hf (change_withIndirect h.super hfile hb) hg hm hout
  · obtain ⟨rfl, hge⟩ := Classical.not_imp.mp hout
    have hpos : indirectOf (withIndirect c g b) g ≠ 0 := by
      have hle := h.super.le_of_isFree hb
      omega
    have hno : ¬(m < ndirect ∨ indirectOf c g ≠ 0) := by
      rintro (hm | hne)
      · exact hge hm
      · exact hne hzero
    rw [blockOf_of_has (.inr hpos)]
    unfold blockOf
    rw [if_neg hno]
    exact ptr_withIndirect h.super hfile hb (Nat.not_lt.mp hge) hm

lemma Tree.steady_withIndirect (h : Tree c F len) (hf : f ∈ F) (hzero : indirectOf c f = 0)
    (hb : IsFree c b) : Steady F len c (withIndirect c f b) := by
  have hfile := h.fileAt hf
  have hc := change_withIndirect h.super hfile hb
  have hq : Slot.Valid c f .indirect := Slot.valid_indirect c f
  obtain ⟨htree, hkept⟩ := h.tree_withIndirect hf hzero hb
  constructor
  · exact htree
  · exact hkept
  · exact fun g hg => (h.type_slot hf hq hc hg).2
  · exact hc.nblocks
  · exact fun i hi => h.data_same hf hq hc hi

/-! ### The block -/

lemma Tree.tree_withBlock (h : Tree c F len) (hf : f ∈ F) (hn : n < maxLen)
    (hhas : n < ndirect ∨ indirectOf c f ≠ 0) (hzero : ptr c f (blockSlot n) = 0)
    (hb : IsFree c b) :
    Tree (withBlock c (slotAddr c f (blockSlot n)) b) F len ∧
      Kept F len c (withBlock c (slotAddr c f (blockSlot n)) b) := by
  have hvalid := valid_blockSlot hn hhas
  have hslot := h.slotAt hf hvalid
  apply h.putSlot hf hvalid (blockSlot_ne_indirect n) (change_withBlock h.super hslot hb)
    (wordAt_withBlock h.super hb.1)
  · exact .inr ⟨hb, (sameSuper_withBlock hslot b).inUse.mpr (inUse_setUsed hb)⟩
  · exact fun b' _ hb' _ => inUse_withBlock hslot hb' b
  · intro hdir k hk hmax heq
    obtain rfl := blockSlot_inj heq
    exact h.present f hf hdir n hk hmax hzero

lemma Tree.indirectOf_putSlot (h : Tree c F len) (hf : f ∈ F) (hn : n < maxLen)
    (hhas : n < ndirect ∨ indirectOf c f ≠ 0)
    (hc : Change c c' (WordOf (slotAddr c f (blockSlot n)))) (hg : g ∈ F) :
    indirectOf c' g = indirectOf c g := by
  have hptr : ptr c' g .indirect = ptr c g .indirect :=
    h.ptr_slot hf (valid_blockSlot hn hhas) hc hg (Slot.valid_indirect c g)
      (fun heq => blockSlot_ne_indirect n heq.2.symm) rfl
  rw [ptr_indirect, ptr_indirect] at hptr
  exact hptr

/-- The block numbers after a change of one of them. -/
lemma Tree.blockOf_putSlot (h : Tree c F len) (hf : f ∈ F) (hn : n < maxLen)
    (hhas : n < ndirect ∨ indirectOf c f ≠ 0)
    (hc : Change c c' (WordOf (slotAddr c f (blockSlot n))))
    (hv : (wordAt c' (slotAddr c f (blockSlot n))).toNat = b) (hg : g ∈ F) (hm : m < maxLen) :
    blockOf c' g m = if g = f ∧ m = n then b else blockOf c g m := by
  have hvalid := valid_blockSlot hn hhas
  have hind := h.indirectOf_putSlot hf hn hhas hc hg
  have haddr := slotAddr_of_indirectOf hind
  unfold blockOf
  rw [hind]
  by_cases heq : g = f ∧ m = n
  · obtain ⟨rfl, rfl⟩ := heq
    rw [if_pos hhas, if_pos ⟨rfl, rfl⟩]
    unfold ptr
    rw [haddr, hv]
  · rw [if_neg heq]
    by_cases hhas' : m < ndirect ∨ indirectOf c g ≠ 0
    · rw [if_pos hhas', if_pos hhas']
      apply h.ptr_slot hf hvalid hc hg (valid_blockSlot hm hhas')
      · rintro ⟨rfl, hslot⟩
        exact heq ⟨rfl, blockSlot_inj hslot⟩
      · exact haddr _
    · rw [if_neg hhas', if_neg hhas']

lemma Tree.indirectOf_withBlock (h : Tree c F len) (hf : f ∈ F) (hn : n < maxLen)
    (hhas : n < ndirect ∨ indirectOf c f ≠ 0) (hb : IsFree c b) (hg : g ∈ F) :
    indirectOf (withBlock c (slotAddr c f (blockSlot n)) b) g = indirectOf c g :=
  h.indirectOf_putSlot hf hn hhas
    (change_withBlock h.super (h.slotAt hf (valid_blockSlot hn hhas)) hb) hg

lemma Tree.blockOf_withBlock (h : Tree c F len) (hf : f ∈ F) (hn : n < maxLen)
    (hhas : n < ndirect ∨ indirectOf c f ≠ 0) (hb : IsFree c b) (hg : g ∈ F) (hm : m < maxLen) :
    blockOf (withBlock c (slotAddr c f (blockSlot n)) b) g m =
      if g = f ∧ m = n then b else blockOf c g m :=
  h.blockOf_putSlot hf hn hhas
    (change_withBlock h.super (h.slotAt hf (valid_blockSlot hn hhas)) hb)
    (wordAt_withBlock h.super hb.1) hg hm

lemma Tree.filled_withBlock (h : Tree c F len) (hf : f ∈ F) (hn : n < maxLen)
    (hhas : n < ndirect ∨ indirectOf c f ≠ 0) (hzero : ptr c f (blockSlot n) = 0)
    (hb : FirstFree c b) : Filled F len f n c (withBlock c (slotAddr c f (blockSlot n)) b) := by
  have hvalid := valid_blockSlot hn hhas
  have hslot := h.slotAt hf hvalid
  have hc := change_withBlock h.super hslot hb.1
  obtain ⟨htree, hkept⟩ := h.tree_withBlock hf hn hhas hzero hb.1
  have hle := h.super.le_of_isFree hb.1
  have hself := h.blockOf_withBlock hf hn hhas hb.1 hf hn
  rw [if_pos ⟨rfl, rfl⟩] at hself
  have hold : blockOf c f n = 0 := (blockOf_of_has hhas).trans hzero
  have hextra : extra c f n = 0 := extra_eq_zero.mpr hhas
  have hlist := freeList_withBlock hslot hb
  constructor
  · constructor
    · exact htree
    · exact hkept
    · exact fun g hg => (h.type_slot hf hvalid hc hg).2
    · exact hc.nblocks
    · exact fun i hi => h.data_same hf hvalid hc hi
  · exact fun hne => absurd hold hne
  · intro g hg m hm hne
    rw [h.blockOf_withBlock hf hn hhas hb.1 hg hm, if_neg hne]
  · rw [hself]
    omega
  · intro _
    rw [hextra, hself, hlist]
    rfl
  · unfold wanted
    rw [if_pos hold, hextra, hlist]
    rfl
  · exact fun g hg => .inl (h.indirectOf_withBlock hf hn hhas hb.1 hg)
  · intro i hi _
    have hle' := h.super.le_of_isFree hi
    apply withBlock_of_ne hb.1.1 (.inr (by omega))
    have huse := hslot.inUse
    have hal := hslot.aligned
    unfold WordOf
    intro hword
    have hdiv : slotAddr c f (blockSlot n) / 4096 = i / 4096 := by omega
    rw [hdiv] at huse
    exact not_isFree_of_inUse huse hi

/-! ### `file_get_block` -/

lemma Steady.refl (h : Tree c F len) : Steady F len c c :=
  ⟨h, Kept.refl F len c, fun _ _ => rfl, rfl, fun _ _ => rfl⟩

lemma Filled.refl (h : Tree c F len) (hpos : blockOf c f n ≠ 0) : Filled F len f n c c where
  toSteady := .refl h
  idle _ := rfl
  others _ _ _ _ _ := rfl
  block := hpos
  taken hzero := absurd hzero hpos
  list := by
    unfold wanted
    rw [if_neg hpos, List.drop_zero]
  indirect _ _ := .inl rfl
  same _ _ _ := rfl

/-- What the allocation of the indirect block leaves. -/
structure Prepared (F : Set ℕ) (len : ℕ → ℕ) (f n : ℕ) (c c' : ℕ → Byte) : Prop
    extends Steady F len c c' where
  idle : n < ndirect ∨ indirectOf c f ≠ 0 → c' = c
  has : n < ndirect ∨ indirectOf c' f ≠ 0
  blocks : ∀ g ∈ F, ∀ m < maxLen, blockOf c' g m = blockOf c g m
  list : freeList c' = (freeList c).drop (extra c f n)
  indirect : ∀ g ∈ F, indirectOf c' g = indirectOf c g ∨
    (g = f ∧ extra c f n = 1 ∧ (freeList c)[0]? = some (indirectOf c' g))
  same : ∀ i, IsFree c (i / 4096) → i / 4096 ≠ indirectOf c' f → c' i = c i

lemma Tree.prepared (h : Tree c F len) (hf : f ∈ F) (hg : GetsIndirect c f n c') :
    Prepared F len f n c c' := by
  cases hg with
  | present hhas =>
    have hextra : extra c f n = 0 := extra_eq_zero.mpr hhas
    constructor
    · exact .refl h
    · exact fun _ => rfl
    · exact hhas
    · exact fun _ _ _ _ => rfl
    · rw [hextra, List.drop_zero]
    · exact fun _ _ => .inl rfl
    · exact fun _ _ _ => rfl
  | allocated hge hzero hfree =>
    rename_i b
    have hb := hfree.1
    have hfile := h.fileAt hf
    have hle := h.super.le_of_isFree hb
    have hind := indirectOf_withIndirect h.super hfile hb
    have hlist := freeList_withIndirect h.super hfile hfree
    have hextra : extra c f n = 1 := if_pos ⟨hge, hzero⟩
    constructor
    · exact h.steady_withIndirect hf hzero hb
    · rintro (hlt | hne)
      · exact absurd hlt (Nat.not_lt.mpr hge)
      · exact absurd hzero hne
    · exact .inr (by omega)
    · exact fun g hg m hm => h.blockOf_withIndirect hf hzero hb hg hm
    · rw [hextra, hlist]
      rfl
    · intro g hg
      by_cases hgf : g = f
      · subst hgf
        refine .inr ⟨rfl, hextra, ?_⟩
        rw [hlist, hind]
        rfl
      · exact .inl (h.indirectOf_putIndirect hf (change_withIndirect h.super hfile hb) hg hgf)
    · intro i hi hne
      rw [hind] at hne
      have hle' := h.super.le_of_isFree hi
      apply withIndirect_of_ne hb.1 (.inr (by omega)) ?_ hne
      have huse := hfile.field (k := 176) (by decide)
      have hal := hfile.aligned
      unfold WordOf fIndirect
      intro hword
      have hdiv : (f + 176) / 4096 = i / 4096 := by omega
      rw [hdiv] at huse
      exact not_isFree_of_inUse huse hi

lemma Tree.filled (h : Tree c F len) (hf : f ∈ F) (hn : n < maxLen)
    (hhas : n < ndirect ∨ indirectOf c f ≠ 0) (hg : GetsBlock c f n c') :
    Filled F len f n c c' := by
  cases hg with
  | present hpos =>
    rw [← blockOf_of_has hhas] at hpos
    exact .refl h hpos
  | allocated hzero hfree => exact h.filled_withBlock hf hn hhas hzero hfree

/-- Blocks stay data blocks while only blocks are added. -/
lemma Prepared.dataBlock (hp : Prepared F len f n c c') (hi : DataBlock c F len b) :
    DataBlock c' F len b := by
  obtain ⟨g, hg, m, hm, hdata, hpos, rfl⟩ := hi
  have hsame := hp.blocks g hg m hm
  exact ⟨g, hg, m, hm, fun hdir => hdata ((hp.kept.isDir hg).mp hdir), hsame ▸ hpos, hsame.symm⟩

lemma Prepared.filled (hp : Prepared F len f n c c') (hf : f ∈ F) (hn : n < maxLen)
    (hq : Filled F len f n c' c'') : Filled F len f n c c'' := by
  have hblocks := hp.blocks f hf n hn
  by_cases hhas : n < ndirect ∨ indirectOf c f ≠ 0
  · rw [hp.idle hhas] at hq
    exact hq
  have hzero : blockOf c f n = 0 := if_neg hhas
  have hzero' : blockOf c' f n = 0 := hblocks.trans hzero
  have hextra' : extra c' f n = 0 := extra_eq_zero.mpr hp.has
  have hind : indirectOf c'' f = indirectOf c' f := by
    rcases hq.indirect f hf with heq | ⟨-, hone, -⟩
    · exact heq
    · omega
  constructor
  · constructor
    · exact hq.tree
    · exact hp.kept.trans hq.kept
    · exact fun g hg => (hq.sizes g hg).trans (hp.sizes g hg)
    · exact hq.nblocks.trans hp.nblocks
    · exact fun i hi => (hq.data i (hp.dataBlock hi)).trans (hp.data i hi)
  · exact fun hpos => absurd hzero hpos
  · exact fun g hg m hm hne => (hq.others g hg m hm hne).trans (hp.blocks g hg m hm)
  · exact hq.block
  · intro _
    have htaken := hq.taken hzero'
    rw [hp.list, hextra', List.getElem?_drop, Nat.add_zero] at htaken
    exact htaken
  · have hlist := hq.list
    unfold wanted at hlist ⊢
    rw [if_pos hzero', hextra', hp.list, List.drop_drop] at hlist
    rw [if_pos hzero]
    exact hlist
  · intro g hg
    rcases hq.indirect g hg with heq | ⟨-, hone, -⟩
    · rw [heq]
      exact hp.indirect g hg
    · omega
  · intro i hi hne
    rw [hind] at hne
    have hsame := hp.same i hi hne
    rw [← hsame]
    apply hq.same i ?_ (by rw [hind]; exact hne)
    -- the block is still free: the indirect block has taken another one
    have hmem := mem_freeList.mpr hi
    rcases hp.indirect f hf with heq | ⟨-, hone, hhead⟩
    · have hpos := hp.has
      rw [heq] at hpos
      exact absurd hpos hhas
    · rw [← mem_freeList, hp.list, hone]
      cases hlist : freeList c with
      | nil =>
        rw [hlist] at hmem
        cases hmem
      | cons x xs =>
        rw [hlist] at hhead hmem
        have hx : x = indirectOf c' f := Option.some.inj hhead
        rw [List.mem_cons] at hmem
        rcases hmem with hb | hb
        · exact absurd (hb.trans hx) hne
        · exact hb

/-- The blocks that are not free any more. -/
lemma Filled.covered (hq : Filled F len f n c c') (hf : f ∈ F) (hb : IsFree c b) :
    IsFree c' b ∨ b = indirectOf c' f ∨ b = blockOf c' f n := by
  by_cases hzero : blockOf c f n = 0
  · obtain ⟨k, hk⟩ := List.getElem?_of_mem (mem_freeList.mpr hb)
    have htaken := hq.taken hzero
    have hlist := hq.list
    unfold wanted at hlist
    rw [if_pos hzero] at hlist
    by_cases hlt : k < extra c f n + 1
    · by_cases heq : k = extra c f n
      · rw [heq, htaken] at hk
        exact .inr (.inr (Option.some.inj hk).symm)
      · have hextra : extra c f n = 1 ∧ k = 0 := by
          unfold extra at heq hlt ⊢
          split at hlt
          · rw [if_pos ‹_›] at heq ⊢
            omega
          · rw [if_neg ‹_›] at heq
            omega
        obtain ⟨hone, rfl⟩ := hextra
        rcases hq.indirect f hf with hsame | ⟨-, -, hhead⟩
        · obtain ⟨hge, hnone⟩ := extra_eq_one.mp hone
          rcases has_of_blockOf hq.block with hdirect | hpos
          · exact absurd hdirect (Nat.not_lt.mpr hge)
          · exact absurd (hsame.trans hnone) hpos
        · rw [hk] at hhead
          exact .inr (.inl (Option.some.inj hhead))
    · left
      rw [← mem_freeList, hlist, List.mem_iff_getElem?]
      refine ⟨k - (extra c f n + 1), ?_⟩
      rw [List.getElem?_drop, ← hk]
      congr 1
      omega
  · rw [hq.idle hzero]
    exact .inl hb

/-- The outcomes of `file_get_block`, by the number of blocks that are left. -/
inductive Gets (F : Set ℕ) (len : ℕ → ℕ) (f n : ℕ) (c : ℕ → Byte) :
    Except ℤ ℕ → (ℕ → Byte) → Prop
  | inval (hn : maxLen ≤ n) : Gets F len f n c (.error (-eInval)) c
  /-- there is no block for the indirect block -/
  | full (hn : n < maxLen) (hextra : extra c f n = 1) (hfull : freeCount c = 0) :
      Gets F len f n c (.error (-eNoDisk)) c
  | got {c' : ℕ → Byte} (hn : n < maxLen) (hroom : wanted c f n ≤ freeCount c)
      (hfilled : Filled F len f n c c') : Gets F len f n c (.ok (4096 * blockOf c' f n)) c'

/-- `file_get_block` stops the server where the block itself cannot be had. -/
def Jams (c : ℕ → Byte) (f n : ℕ) : Prop :=
  n < maxLen ∧ blockOf c f n = 0 ∧ freeCount c = extra c f n

/-- The file has room for the block where `file_get_block` has found it. -/
lemma Filled.wanted_le (hq : Filled F len f n c c') : wanted c f n ≤ freeCount c := by
  unfold wanted
  by_cases hzero : blockOf c f n = 0
  · obtain ⟨hlt, -⟩ := List.getElem?_eq_some_iff.mp (hq.taken hzero)
    rw [if_pos hzero, freeCount_eq_length]
    omega
  · rw [if_neg hzero]
    exact Nat.zero_le _

lemma Prepared.extra_le (hp : Prepared F len f n c c') (hf : f ∈ F) : extra c f n ≤ freeCount c := by
  by_cases hextra : extra c f n = 1
  · rcases hp.indirect f hf with heq | ⟨-, -, hhead⟩
    · have hcond := extra_eq_one.mp hextra
      rcases hp.has with hlt | hpos
      · exact absurd hlt (Nat.not_lt.mpr hcond.1)
      · exact absurd (heq.trans hcond.2) hpos
    · obtain ⟨hlt, -⟩ := List.getElem?_eq_some_iff.mp hhead
      rw [hextra, freeCount_eq_length]
      exact hlt
  · have hzero : extra c f n = 0 := by
      unfold extra at hextra ⊢
      split at hextra
      · exact absurd rfl hextra
      · rw [if_neg ‹_›]
    rw [hzero]
    exact Nat.zero_le _

lemma Tree.jams (h : Tree c F len) (hf : f ∈ F) (hn : n < maxLen) (hno : NoRoom c f n) :
    Jams c f n := by
  obtain ⟨c₁, hgets, hzero, hall⟩ := hno
  have hp := h.prepared hf hgets
  have hblock : blockOf c f n = 0 := by
    rw [← hp.blocks f hf n hn, blockOf_of_has hp.has]
    exact hzero
  refine ⟨hn, hblock, ?_⟩
  have hnil := freeList_eq_nil.mpr hall
  have hle := hp.extra_le hf
  rw [hp.list, List.drop_eq_nil_iff] at hnil
  rw [freeCount_eq_length] at hle ⊢
  omega

/-- `file_get_block` of any block of any file. -/
lemma Tree.getBlock_sat (h : Tree c F len) (hf : f ∈ F) (n : ℕ) (hs : s.content = c) :
    Sat (fileGetBlock f n) s (fun r t => Gets F len f n c r t.content)
      (fun e t => NoMem e t ∨ (e = .badBlock 4294967287 ∧ Jams c f n)) := by
  have hget := fileGetBlock_sat (s := s) (f := f) (n := n) (by rw [hs]; exact h.super)
    (by rw [hs]; exact h.blocksAt hf n)
  rw [hs] at hget
  refine hget.mono ?_ ?_
  · intro r t hgot
    generalize t.content = c' at hgot
    cases hgot with
    | inval hn => exact .inval hn
    | full hn hge hzero hall =>
      have hnil := freeList_eq_nil.mpr hall
      refine .full hn (if_pos ⟨hge, hzero⟩) ?_
      rw [freeCount_eq_length, hnil]
      rfl
    | got hn h₁ h₂ =>
      have hp := h.prepared hf h₁
      have hq := hp.filled hf hn (hp.tree.filled hf hn hp.has h₂)
      have hgets := Gets.got hn hq.wanted_le hq
      rw [blockOf_of_has (has_of_blockOf hq.block)] at hgets
      exact hgets
  · rintro e t (hmem | ⟨rfl, hn, hno, -⟩)
    · exact .inl hmem
    · exact .inr ⟨rfl, h.jams hf hn hno⟩

end SistemasOperativos.Fs
