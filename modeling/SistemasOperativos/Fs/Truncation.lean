import SistemasOperativos.Fs.Growth
import SistemasOperativos.Library.SignedWords
import Mathlib.Order.Interval.Finset.Nat

/-!
# Truncating a file

What `file_free_block`, `file_truncate_blocks` and a shrinking `file_set_size` take from a file, and
that everything else stays.
-/

namespace SistemasOperativos.Fs

open Library Kern

variable {c c' c'' : ℕ → Byte} {F : Set ℕ} {len : ℕ → ℕ} {s t : Fs} {a b d f g i m n lo hi : ℕ}
  {newsize : Word}

/-- The content after the block `b` of the slot at `a` has been given back. -/
def withoutBlock (c : ℕ → Byte) (a b : ℕ) : ℕ → Byte := putWord (setFree c b) a 0

/-- The number of blocks that a file refers to, with its indirect block. -/
def held (c : ℕ → Byte) (f : ℕ) : ℕ :=
  ((Finset.range maxLen).filter (fun m => blockOf c f m ≠ 0)).card +
    if indirectOf c f ≠ 0 then 1 else 0

/-- There is no block behind the end of the file. -/
def NoTail (c : ℕ → Byte) (f : ℕ) : Prop :=
  ∀ n < maxLen, ceilBlocks (fileSize c f).toNat ≤ n → blockOf c f n = 0

/-- The content after `file_free_block`. -/
def afterFree (c : ℕ → Byte) (f n : ℕ) : ℕ → Byte :=
  if blockOf c f n = 0 then c else withoutBlock c (slotAddr c f (blockSlot n)) (blockOf c f n)

/-- The blocks of `f` from `lo` up to `hi` are gone. -/
structure Cut (F : Set ℕ) (len : ℕ → ℕ) (f lo hi : ℕ) (c c' : ℕ → Byte) : Prop where
  tree : Tree c' F len
  kept : Kept F len c c'
  sizes : ∀ g ∈ F, fileSize c' g = fileSize c g
  nblocks : nblocksOf c' = nblocksOf c
  indirect : ∀ g ∈ F, indirectOf c' g = indirectOf c g
  blocks : ∀ g ∈ F, ∀ m < maxLen,
    blockOf c' g m = if g = f ∧ lo ≤ m ∧ m < hi then 0 else blockOf c g m
  free : ∀ b, IsFree c' b ↔
    IsFree c b ∨ ∃ m, lo ≤ m ∧ m < hi ∧ blockOf c f m ≠ 0 ∧ b = blockOf c f m
  count : freeCount c' =
    freeCount c + ((Finset.Ico lo hi).filter (fun m => blockOf c f m ≠ 0)).card
  same : ∀ i, (4104 ≤ i ∧ i < 8192) ∨ 4096 * (2 + nbitmap c) ≤ i →
    (∀ m, lo ≤ m → m < hi → blockOf c f m ≠ 0 → ¬WordOf (slotAddr c f (blockSlot m)) i) → c' i = c i

/-! ### One block -/

lemma nbitmap_setFree : nbitmap (setFree c b) = nbitmap c := nbitmap_of_nblocksOf nblocksOf_setFree

lemma isFree_setFree (hb : b < nblocksOf c) : IsFree (setFree c b) m ↔ IsFree c m ∨ m = b := by
  unfold IsFree
  rw [nblocksOf_setFree, bitOf_setFree, Bool.or_eq_true, decide_eq_true_eq]
  constructor
  · rintro ⟨hm, hbit | rfl⟩
    · exact .inl ⟨hm, hbit⟩
    · exact .inr rfl
  · rintro (⟨hm, hbit⟩ | rfl)
    · exact ⟨hm, .inl hbit⟩
    · exact ⟨hb, .inr rfl⟩

lemma freeCount_setFree (hb : InUse c b) : freeCount (setFree c b) = freeCount c + 1 := by
  have hset : (Finset.range (nblocksOf c)).filter (fun m => bitOf (setFree c b) m = true) =
      insert b ((Finset.range (nblocksOf c)).filter (fun m => bitOf c m = true)) := by
    ext m
    rw [Finset.mem_insert, Finset.mem_filter, Finset.mem_filter, bitOf_setFree, Finset.mem_range]
    by_cases hm : m = b
    · subst hm
      simp [hb.1]
    · simp [hm]
  unfold freeCount
  rw [nblocksOf_setFree, hset, Finset.card_insert_of_notMem]
  simp [hb.2]

lemma clear_setFree (ha : Clear c a) : Clear (setFree c b) a := by
  unfold Clear at ha ⊢
  rw [nbitmap_setFree]
  exact ha

lemma sameSuper_withoutBlock (ha : Clear c a) : SameSuper (setFree c b) (withoutBlock c a b) :=
  sameSuper_putWord (clear_setFree ha) 0

lemma isFree_withoutBlock (ha : Clear c a) (hb : b < nblocksOf c) :
    IsFree (withoutBlock c a b) m ↔ IsFree c m ∨ m = b := by
  rw [(sameSuper_withoutBlock ha).isFree, isFree_setFree hb]

lemma freeCount_withoutBlock (ha : Clear c a) (hb : InUse c b) :
    freeCount (withoutBlock c a b) = freeCount c + 1 := by
  rw [freeCount_of_sameSuper (sameSuper_withoutBlock ha), freeCount_setFree hb]

lemma withoutBlock_of_ne (hb : b < nblocksOf c)
    (hi : (4104 ≤ i ∧ i < 8192) ∨ 4096 * (2 + nbitmap c) ≤ i) (hne : ¬WordOf a i) :
    withoutBlock c a b i = c i := by
  unfold withoutBlock
  rw [putWord_of_ne, setFree_of_ne (bitmap_apart hb hi)]
  unfold WordOf at hne
  omega

lemma change_withoutBlock (hs : SuperOk c) (ha : Clear c a) (hle : 2 + nbitmap c ≤ b)
    (hb : b < nblocksOf c) : Change c (withoutBlock c a b) (WordOf a) := by
  have hsame := sameSuper_withoutBlock (b := b) ha
  constructor
  · exact hsame.superOk (hs.setFree hle)
  · rw [hsame.nblocks, nblocksOf_setFree]
  · exact fun i _ hi hne => withoutBlock_of_ne hb hi hne

/-- The blocks that stay in use. -/
lemma inUse_withoutBlock (ha : Clear c a) (hm : InUse c m) (hne : m ≠ b) :
    InUse (withoutBlock c a b) m := by
  rw [(sameSuper_withoutBlock ha).inUse]
  unfold InUse
  rw [nblocksOf_setFree, bitOf_setFree, hm.2]
  exact ⟨hm.1, by simp [hne]⟩

lemma Tree.fileFreeBlock_sat (h : Tree c F len) (hf : f ∈ F) (hn : n < maxLen)
    (hdata : IsDir c f → len f ≤ n) (hs : s.content = c) :
    Sat (fileFreeBlock f n) s (fun _ t => t.content = afterFree c f n) NoMem := by
  have hsuper : SuperOk s.content := by
    rw [hs]
    exact h.super
  have hblocks : BlocksAt s.content f n := by
    rw [hs]
    exact h.blocksAt hf n
  unfold fileFreeBlock
  rw [sat_bind]
  by_cases hhas : n < ndirect ∨ indirectOf c f ≠ 0
  · refine (fileBlockWalk_found false hsuper hblocks hn (by rw [hs]; exact hhas)).post ?_
    rintro r t ⟨rfl, ht⟩
    dsimp only
    rw [hs]
    have hct : t.content = c := ht.content.trans hs
    have hslot := h.slotAt hf (valid_blockSlot hn hhas)
    rw [sat_bind]
    refine (loadWord_sat (by rw [hct]; exact h.super) (by rw [hct]; exact hslot.inUse)).post ?_
    rintro w u ⟨rfl, hu⟩
    have hcu : u.content = c := hu.content.trans hct
    have hptr : (wordAt t.content (slotAddr c f (blockSlot n))).toNat = blockOf c f n := by
      rw [hct, blockOf_of_has hhas]
      rfl
    unfold afterFree
    simp only [sat_bind, sat_ite, sat_pure]
    constructor
    · intro hne
      have hpos : blockOf c f n ≠ 0 := by
        rw [← hptr]
        exact fun hzero => hne (toNat_eq_zero.mp hzero)
      obtain ⟨hle, huse⟩ := h.blockOf_inUse hf hn hpos
      rw [if_neg hpos, hptr]
      refine (freeBlock_sat (by rw [hcu]; exact h.super) (by rw [hcu]; exact huse.1) hpos).post ?_
      intro _ v hv
      rw [hcu] at hv
      refine (storeWord_sat (by rw [hv]; exact h.super.setFree hle) ?_ hslot.aligned _).post ?_
      · rw [hv]
        unfold InUse
        have hne : slotAddr c f (blockSlot n) / 4096 ≠ blockOf c f n := by
          rcases slotAddr_cases (valid_blockSlot hn hhas) with ⟨-, hlo, hhi⟩ | ⟨-, -, hdiv⟩
          · have hplace := h.place_ne_blockOf hf hn hpos hdata (h.home f hf)
            have hfits := (h.fileAt hf).fits
            omega
          · rw [hdiv]
            exact h.indirectOf_ne_blockOf hf hf hn hpos
        rw [nblocksOf_setFree, bitOf_setFree, hslot.inUse.2]
        exact ⟨hslot.inUse.1, by simp [hne]⟩
      · intro _ x hx
        rw [hx.content, hv]
        rfl
    · intro hzero
      have hzero : blockOf c f n = 0 := by
        rw [← hptr, not_not.mp hzero]
        rfl
      rw [if_pos hzero]
      exact hcu
  · have hge : ndirect ≤ n := Nat.not_lt.mp (fun hlt => hhas (.inl hlt))
    have hzero : indirectOf c f = 0 := not_not.mp (fun hne => hhas (.inr hne))
    refine (fileBlockWalk_absent hsuper hblocks.file hge hn (by rw [hs]; exact hzero)).post ?_
    rintro r t ⟨rfl, ht⟩
    refine sat_pure.mpr ?_
    unfold afterFree blockOf
    rw [if_pos (if_neg hhas)]
    exact ht.content.trans hs

/-! ### A range of blocks -/

lemma Tree.cut_refl (h : Tree c F len) (f lo : ℕ) : Cut F len f lo lo c c := by
  have hnone : ∀ m, ¬(lo ≤ m ∧ m < lo) := fun m hm => absurd hm.2 (Nat.not_lt.mpr hm.1)
  constructor
  · exact h
  · exact Kept.refl F len c
  · exact fun g _ => rfl
  · rfl
  · exact fun g _ => rfl
  · intro g _ m _
    rw [if_neg (fun hm => hnone m hm.2)]
  · exact fun b => ⟨.inl, fun hb => hb.elim id (fun ⟨m, hlo, hhi, _⟩ => absurd ⟨hlo, hhi⟩ (hnone m))⟩
  · simp
  · exact fun i _ _ => rfl

/-- One block more. -/
lemma Cut.succ (hc : Cut F len f lo hi c c') (hf : f ∈ F)
    (hno : NoEntries c len f) (hlo : lo ≤ hi) (hmax : hi < maxLen) :
    Cut F len f lo (hi + 1) c (afterFree c' f hi) := by
  have hblock : blockOf c' f hi = blockOf c f hi := by
    rw [hc.blocks f hf hi hmax, if_neg (by omega)]
  have hno' := hc.kept.noEntries hf hno
  have hset : (Finset.Ico lo (hi + 1)) = insert hi (Finset.Ico lo hi) := by
    ext m
    rw [Finset.mem_insert, Finset.mem_Ico, Finset.mem_Ico]
    omega
  unfold afterFree
  rw [hblock]
  by_cases hzero : blockOf c f hi = 0
  · rw [if_pos hzero]
    constructor
    · exact hc.tree
    · exact hc.kept
    · exact hc.sizes
    · exact hc.nblocks
    · exact hc.indirect
    · intro g hg m hm
      rw [hc.blocks g hg m hm]
      by_cases heq : g = f ∧ m = hi
      · obtain ⟨rfl, rfl⟩ := heq
        rw [if_neg (by omega), if_pos ⟨rfl, by omega, by omega⟩, hzero]
      · have hiff : (g = f ∧ lo ≤ m ∧ m < hi + 1) ↔ (g = f ∧ lo ≤ m ∧ m < hi) := by omega
        simp only [hiff]
    · intro b
      rw [hc.free]
      constructor
      · rintro (hb | ⟨m, hlo, hhi, hm⟩)
        · exact .inl hb
        · exact .inr ⟨m, hlo, by omega, hm⟩
      · rintro (hb | ⟨m, hlo, hhi, hpos, hm⟩)
        · exact .inl hb
        · have hne : m ≠ hi := by
            rintro rfl
            exact hpos hzero
          exact .inr ⟨m, hlo, by omega, hpos, hm⟩
    · rw [hc.count, hset, Finset.filter_insert, if_neg (not_not.mpr hzero)]
    · exact fun i hi' hne => hc.same i hi' (fun m hlo hhi => hne m hlo (by omega))
  · rw [if_neg hzero]
    have hpos : blockOf c' f hi ≠ 0 := by
      rw [hblock]
      exact hzero
    have hhas := has_of_blockOf hpos
    have hvalid := valid_blockSlot hmax hhas
    obtain ⟨hle, huse⟩ := hc.tree.blockOf_inUse hf hmax hpos
    rw [hblock] at hle huse
    have hslot := hc.tree.slotAt hf hvalid
    have haddr : slotAddr c' f (blockSlot hi) = slotAddr c f (blockSlot hi) :=
      slotAddr_of_indirectOf (hc.indirect f hf) _
    have hchange := change_withoutBlock hc.tree.super hslot.clear hle huse.1
    have hword : (wordAt (withoutBlock c' (slotAddr c' f (blockSlot hi)) (blockOf c f hi))
        (slotAddr c' f (blockSlot hi))).toNat = 0 := by
      unfold withoutBlock
      rw [wordAt_putWord]
      rfl
    obtain ⟨htree, hkept⟩ := hc.tree.putSlot hf hvalid (blockSlot_ne_indirect hi) hchange hword
      (.inl rfl) (fun b _ hb hne => inUse_withoutBlock hslot.clear hb (by
        rw [← hblock, blockOf_of_has hhas]
        exact hne))
      (fun hdir n hn _ => by
        rw [hno' hdir] at hn
        exact absurd hn (Nat.not_lt_zero n))
    constructor
    · exact htree
    · exact hc.kept.trans hkept
    · exact fun g hg => (hc.tree.type_slot hf hvalid hchange hg).2.trans (hc.sizes g hg)
    · rw [hchange.nblocks, hc.nblocks]
    · exact fun g hg => (hc.tree.indirectOf_putSlot hf hmax hhas hchange hg).trans (hc.indirect g hg)
    · intro g hg m hm
      rw [hc.tree.blockOf_putSlot hf hmax hhas hchange hword hg hm, hc.blocks g hg m hm]
      by_cases heq : g = f ∧ m = hi
      · rw [if_pos heq, if_pos ⟨heq.1, by omega, by omega⟩]
      · have hiff : (g = f ∧ lo ≤ m ∧ m < hi + 1) ↔ (g = f ∧ lo ≤ m ∧ m < hi) := by omega
        simp only [if_neg heq, hiff]
    · intro b
      rw [isFree_withoutBlock hslot.clear huse.1, hc.free]
      constructor
      · rintro ((hb | ⟨m, hlo, hhi, hm⟩) | rfl)
        · exact .inl hb
        · exact .inr ⟨m, hlo, by omega, hm⟩
        · exact .inr ⟨hi, hlo, by omega, hzero, rfl⟩
      · rintro (hb | ⟨m, hlo, hhi, hpos, rfl⟩)
        · exact .inl (.inl hb)
        · by_cases hm : m = hi
          · exact .inr (by rw [hm])
          · exact .inl (.inr ⟨m, hlo, by omega, hpos, rfl⟩)
    · rw [freeCount_withoutBlock hslot.clear huse, hc.count, hset, Finset.filter_insert,
        if_pos hzero, Finset.card_insert_of_notMem]
      · omega
      · simp
    · intro i hi' hne
      rw [haddr, withoutBlock_of_ne huse.1]
      · exact hc.same i hi' (fun m hlo hhi => hne m hlo (by omega))
      · rw [nbitmap_of_nblocksOf hc.nblocks]
        exact hi'
      · exact hne hi hlo (by omega) hzero

/-! ### `file_truncate_blocks` -/

lemma toNat_blocksFor {size : Word} (h : size.toNat + 4095 < 2 ^ 31) :
    (blocksFor size).toNat = ceilBlocks size.toNat := by
  have hadd : (size + 4095).toNat = size.toNat + 4095 := by
    rw [BitVec.toNat_add]
    change (size.toNat + 4095) % 2 ^ 32 = _
    omega
  unfold blocksFor ceilBlocks
  rw [toNat_sdiv_of_small (by omega) (by decide), hadd]
  rfl

/-- The content after the indirect block has been given back. -/
def withoutIndirect (c : ℕ → Byte) (f : ℕ) : ℕ → Byte :=
  withoutBlock c (fIndirect f) (indirectOf c f)

/-- The content after the end of `file_truncate_blocks`, with `n` blocks left. -/
def afterDrop (c : ℕ → Byte) (f n : ℕ) : ℕ → Byte :=
  if n ≤ ndirect ∧ indirectOf c f ≠ 0 then withoutIndirect c f else c

/-- The content after `n` blocks from `lo` on have been freed. -/
def cutAt (c : ℕ → Byte) (f lo : ℕ) : ℕ → ℕ → Byte
  | 0 => c
  | n + 1 => afterFree (cutAt c f lo n) f (lo + n)

lemma Tree.cut (h : Tree c F len) (hf : f ∈ F) (hno : NoEntries c len f) (lo n : ℕ) (hmax : lo + n ≤ maxLen) :
    Cut F len f lo (lo + n) c (cutAt c f lo n) := by
  induction n with
  | zero => exact h.cut_refl f lo
  | succ n ih => exact (ih (by omega)).succ hf hno (by omega) (by omega)

lemma Tree.cut_min (h : Tree c F len) (hf : f ∈ F) (hno : NoEntries c len f) (lo n : ℕ) :
    Cut F len f lo (lo + min n (maxLen - lo)) c (cutAt c f lo (min n (maxLen - lo))) := by
  by_cases hmax : lo ≤ maxLen
  · exact h.cut hf hno lo _ (by omega)
  · have hzero : maxLen - lo = 0 := by omega
    rw [hzero, Nat.min_zero]
    exact h.cut_refl f lo

/-- There are no blocks behind the last that a file can have. -/
lemma fileFreeBlock_inval (f : ℕ) (hn : maxLen ≤ n) :
    Sat (fileFreeBlock f n) s (fun _ t => t = s) NoMem := by
  unfold fileFreeBlock
  rw [sat_bind]
  refine (fileBlockWalk_inval false hn).mono ?_ (fun _ _ h => h)
  rintro r t ⟨rfl, rfl⟩
  exact sat_pure.mpr rfl

/-- The loop of `file_truncate_blocks`. -/
lemma Tree.cut_sat (h : Tree c F len) (hf : f ∈ F) (hno : NoEntries c len f) (lo n : ℕ) (hs : s.content = c) :
    Sat (forM (List.range' lo n) (fun bno => do
      let _ ← fileFreeBlock f bno)) s
      (fun _ t => t.content = cutAt c f lo (min n (maxLen - lo))) NoMem := by
  have hloop : Sat (forM (List.range' lo n) (fun bno => do
      let _ ← fileFreeBlock f bno)) s
      (fun _ t => t.content = cutAt c f lo (min (lo + n - lo) (maxLen - lo))) NoMem := by
    apply sat_forM_range' (fun m (t : Fs) => t.content = cutAt c f lo (min (m - lo) (maxLen - lo)))
    · intro m t hlo hhi ht
      rw [sat_bind]
      by_cases hm : m < maxLen
      · have hnow : min (m - lo) (maxLen - lo) = m - lo := by omega
        have hnext : min (m + 1 - lo) (maxLen - lo) = m - lo + 1 := by omega
        have hc : Cut F len f lo m c (cutAt c f lo (m - lo)) := by
          have hc := h.cut hf hno lo (m - lo) (by omega)
          rw [Nat.add_sub_cancel' hlo] at hc
          exact hc
        have hno' := hc.kept.noEntries hf hno
        rw [hnow] at ht
        refine (hc.tree.fileFreeBlock_sat hf hm (fun hdir => (hno' hdir).trans_le (Nat.zero_le m)) ht).post ?_
        intro _ u hu
        refine sat_pure.mpr ?_
        rw [hu, hnext]
        change _ = afterFree (cutAt c f lo (m - lo)) f (lo + (m - lo))
        rw [Nat.add_sub_cancel' hlo]
      · have hnext : min (m + 1 - lo) (maxLen - lo) = min (m - lo) (maxLen - lo) := by omega
        refine (fileFreeBlock_inval f (Nat.not_lt.mp hm)).post ?_
        rintro _ u rfl
        refine sat_pure.mpr ?_
        rw [hnext]
        exact ht
    · rw [Nat.sub_self, Nat.zero_min]
      exact hs
  rw [Nat.add_sub_cancel_left] at hloop
  exact hloop

/-- The end of `file_truncate_blocks`. -/
lemma Tree.drop_sat (h : Tree c F len) (hf : f ∈ F) (n : ℕ) (hs : s.content = c) :
    Sat (do
      let ind ← loadWord (fIndirect f)
      if n ≤ ndirect ∧ ind ≠ 0 then
        freeBlock ind.toNat
        storeWord (fIndirect f) 0 : FsM Unit) s (fun _ t => t.content = afterDrop c f n) NoMem := by
  have hfile := h.fileAt hf
  have huse := hfile.field (k := 176) (by decide)
  rw [sat_bind]
  refine (loadWord_sat (by rw [hs]; exact h.super) (by rw [hs]; exact huse)).post ?_
  rintro w t ⟨rfl, ht⟩
  have hct : t.content = c := ht.content.trans hs
  rw [hs, sat_ite]
  unfold afterDrop
  constructor
  · rintro ⟨hle, hne⟩
    have hpos : indirectOf c f ≠ 0 := fun hzero => hne (indirectOf_eq_zero.mp hzero)
    obtain ⟨hge, hind⟩ := h.slots f hf .indirect (Slot.valid_indirect c f) hpos
    rw [ptr_indirect] at hge hind
    rw [if_pos ⟨hle, hpos⟩, sat_bind]
    refine (freeBlock_sat (by rw [hct]; exact h.super) (by rw [hct]; exact hind.1) hpos).post ?_
    intro _ u hu
    rw [hct] at hu
    have hal := hfile.aligned
    refine (storeWord_sat (by rw [hu]; exact h.super.setFree hge) ?_ (by unfold fIndirect; omega) _).post ?_
    · have hapart := h.indirect_ne hf hpos (h.home f hf)
      have hdiv := hfile.field_div (k := 176) (by decide)
      have hne : (f + 176) / 4096 ≠ indirectOf c f := by omega
      rw [hu]
      unfold InUse fIndirect
      rw [nblocksOf_setFree, bitOf_setFree, huse.2]
      exact ⟨huse.1, by simp [hne]⟩
    · intro _ v hv
      rw [hv.content, hu]
      rfl
  · intro hno
    rw [if_neg]
    · exact sat_pure.mpr hct
    · exact fun hand => hno ⟨hand.1, fun hzero => hand.2 (indirectOf_eq_zero.mpr hzero)⟩

/-- The indirect block is gone if `n` blocks do not need it. -/
structure Dropped (F : Set ℕ) (len : ℕ → ℕ) (f n : ℕ) (c c' : ℕ → Byte) : Prop where
  tree : Tree c' F len
  kept : Kept F len c c'
  sizes : ∀ g ∈ F, fileSize c' g = fileSize c g
  nblocks : nblocksOf c' = nblocksOf c
  indirect : ∀ g ∈ F, indirectOf c' g = if g = f ∧ n ≤ ndirect then 0 else indirectOf c g
  blocks : ∀ g ∈ F, ∀ m < maxLen,
    blockOf c' g m = if g = f ∧ n ≤ ndirect ∧ ndirect ≤ m then 0 else blockOf c g m
  free : ∀ b, IsFree c' b ↔
    IsFree c b ∨ (n ≤ ndirect ∧ indirectOf c f ≠ 0 ∧ b = indirectOf c f)
  count : freeCount c' = freeCount c + if n ≤ ndirect ∧ indirectOf c f ≠ 0 then 1 else 0
  same : ∀ i, (4104 ≤ i ∧ i < 8192) ∨ 4096 * (2 + nbitmap c) ≤ i →
    (n ≤ ndirect → indirectOf c f ≠ 0 → ¬WordOf (fIndirect f) i) → c' i = c i

lemma Tree.dropped (h : Tree c F len) (hf : f ∈ F) (hno : NoEntries c len f) (n : ℕ) :
    Dropped F len f n c (afterDrop c f n) := by
  unfold afterDrop
  by_cases hdrop : n ≤ ndirect ∧ indirectOf c f ≠ 0
  · obtain ⟨hle, hpos⟩ := hdrop
    rw [if_pos ⟨hle, hpos⟩]
    have hfile := h.fileAt hf
    have hq : Slot.Valid c f .indirect := Slot.valid_indirect c f
    have hclear : Clear c (slotAddr c f .indirect) := hfile.clear (k := 176) (by decide)
    obtain ⟨hge, huse⟩ := h.slots f hf .indirect hq hpos
    rw [ptr_indirect] at hge huse
    have hc : Change c (withoutIndirect c f) (WordOf (slotAddr c f .indirect)) :=
      change_withoutBlock h.super hclear hge huse.1
    have hzero : indirectOf (withoutIndirect c f) f = 0 := by
      unfold indirectOf withoutIndirect withoutBlock
      rw [wordAt_putWord]
      rfl
    obtain ⟨htree, hkept⟩ := h.putIndirect hf hc hzero (.inl ⟨rfl, hno⟩)
      (fun b _ hb hne => inUse_withoutBlock hclear hb hne)
    constructor
    · exact htree
    · exact hkept
    · exact fun g hg => (h.type_slot hf hq hc hg).2
    · exact hc.nblocks
    · intro g hg
      by_cases hgf : g = f
      · subst hgf
        rw [if_pos ⟨rfl, hle⟩, hzero]
      · rw [if_neg (fun hand => hgf hand.1)]
        exact h.indirectOf_putIndirect hf hc hg hgf
    · intro g hg m hm
      by_cases hout : g = f → m < ndirect
      · rw [if_neg, h.blockOf_putIndirect hf hc hg hm hout]
        rintro ⟨rfl, -, hge⟩
        exact absurd (hout rfl) (Nat.not_lt.mpr hge)
      · obtain ⟨rfl, hm'⟩ := Classical.not_imp.mp hout
        rw [if_pos ⟨rfl, hle, Nat.not_lt.mp hm'⟩]
        unfold blockOf
        rw [if_neg (fun hor => hor.elim hm' (fun hne => hne hzero))]
    · intro b
      refine (isFree_withoutBlock hclear huse.1).trans ?_
      simp only [hle, hpos, ne_eq, not_false_eq_true, true_and]
    · rw [if_pos ⟨hle, hpos⟩]
      exact freeCount_withoutBlock hclear huse
    · exact fun i hi hne => withoutBlock_of_ne huse.1 hi (hne hle hpos)
  · rw [if_neg hdrop]
    have hzero : n ≤ ndirect → indirectOf c f = 0 := fun hle => not_not.mp (fun hne => hdrop ⟨hle, hne⟩)
    constructor
    · exact h
    · exact Kept.refl F len c
    · exact fun _ _ => rfl
    · rfl
    · intro g _
      by_cases hg : g = f ∧ n ≤ ndirect
      · rw [if_pos hg, hg.1, hzero hg.2]
      · rw [if_neg hg]
    · intro g _ m _
      by_cases hg : g = f ∧ n ≤ ndirect ∧ ndirect ≤ m
      · obtain ⟨rfl, hle, hge⟩ := hg
        rw [if_pos ⟨rfl, hle, hge⟩]
        unfold blockOf
        rw [if_neg (fun hor => hor.elim (Nat.not_lt.mpr hge) (fun hne => hne (hzero hle)))]
      · rw [if_neg hg]
    · exact fun b => ⟨.inl, fun hb => hb.elim id (fun ⟨hle, hne, _⟩ => absurd ⟨hle, hne⟩ hdrop)⟩
    · rw [if_neg hdrop, Nat.add_zero]
    · exact fun _ _ _ => rfl

/-! ### `file_set_size` -/

/-- What a smaller size makes of a file. -/
structure Shrunk (F : Set ℕ) (f : ℕ) (newsize : Word) (c c' : ℕ → Byte) : Prop where
  size : fileSize c' f = newsize
  /-- exactly the blocks behind the new end have gone from the file -/
  blocks : ∀ n < maxLen,
    blockOf c' f n = if ceilBlocks newsize.toNat ≤ n then 0 else blockOf c f n
  zeroed : ∀ n < maxLen, ceilBlocks newsize.toNat ≤ n → blockOf c f n ≠ 0 →
    wordAt c' (slotAddr c f (blockSlot n)) = 0
  indirect : indirectOf c' f =
    if ceilBlocks newsize.toNat ≤ ndirect then 0 else indirectOf c f
  /-- and exactly they are free now -/
  free : ∀ b, IsFree c' b ↔ IsFree c b ∨
    (∃ n < maxLen, ceilBlocks newsize.toNat ≤ n ∧ blockOf c f n ≠ 0 ∧ b = blockOf c f n) ∨
    (ceilBlocks newsize.toNat ≤ ndirect ∧ indirectOf c f ≠ 0 ∧ b = indirectOf c f)
  count : freeCount c' + held c' f = freeCount c + held c f
  others : ∀ g ∈ F, g ≠ f → fileSize c' g = fileSize c g ∧ indirectOf c' g = indirectOf c g ∧
    ∀ n < maxLen, blockOf c' g n = blockOf c g n
  /-- outside of the bitmap, nothing but the size and the slots of the freed blocks changes -/
  same : ∀ i, (4104 ≤ i ∧ i < 8192) ∨ 4096 * (2 + nbitmap c) ≤ i → ¬WordOf (fSize f) i →
    (ceilBlocks newsize.toNat ≤ ndirect → indirectOf c f ≠ 0 → ¬WordOf (fIndirect f) i) →
    (∀ n < maxLen, ceilBlocks newsize.toNat ≤ n → blockOf c f n ≠ 0 →
      ¬WordOf (slotAddr c f (blockSlot n)) i) → c' i = c i

/-- The steps of a shrinking `file_set_size`: the blocks, the indirect block, the size. -/
structure Shrinks (F : Set ℕ) (len : ℕ → ℕ) (f : ℕ) (newsize : Word)
    (c c₁ c₂ c₃ : ℕ → Byte) : Prop where
  cut : Cut F len f (ceilBlocks newsize.toNat) (ceilBlocks (fileSize c f).toNat) c c₁
  dropped : Dropped F len f (ceilBlocks newsize.toNat) c₁ c₂
  resized : Resized F len f newsize c₂ c₃
  lt : newsize.toNat < (fileSize c f).toNat
  le : ceilBlocks (fileSize c f).toNat ≤ maxLen
  tail : NoTail c f

namespace Shrinks

variable {c₁ c₂ c₃ : ℕ → Byte}

lemma blocks (h : Shrinks F len f newsize c c₁ c₂ c₃) (hf : f ∈ F) (hn : n < maxLen) :
    blockOf c₃ f n = if ceilBlocks newsize.toNat ≤ n then 0 else blockOf c f n := by
  rw [h.resized.toInert.blockOf_same hf hn, h.dropped.blocks f hf n hn, h.cut.blocks f hf n hn]
  by_cases hle : ceilBlocks newsize.toNat ≤ n
  · rw [if_pos hle]
    by_cases hlt : n < ceilBlocks (fileSize c f).toNat
    · have hgone : (if f = f ∧ ceilBlocks newsize.toNat ≤ n ∧ n < ceilBlocks (fileSize c f).toNat
          then 0 else blockOf c f n) = 0 := if_pos ⟨rfl, hle, hlt⟩
      rw [hgone, ite_self]
    · rw [h.tail n hn (Nat.not_lt.mp hlt), ite_self, ite_self]
  · rw [if_neg hle, if_neg (by omega), if_neg (by omega)]

lemma others (h : Shrinks F len f newsize c c₁ c₂ c₃) (hg : g ∈ F) (hne : g ≠ f)
    (hn : n < maxLen) : blockOf c₃ g n = blockOf c g n := by
  rw [h.resized.toInert.blockOf_same hg hn, h.dropped.blocks g hg n hn, h.cut.blocks g hg n hn,
    if_neg (fun hand => hne hand.1), if_neg (fun hand => hne hand.1)]

lemma indirect (h : Shrinks F len f newsize c c₁ c₂ c₃) (hg : g ∈ F) :
    indirectOf c₃ g =
      if g = f ∧ ceilBlocks newsize.toNat ≤ ndirect then 0 else indirectOf c g := by
  rw [h.resized.indirect g hg, h.dropped.indirect g hg, h.cut.indirect g hg]

lemma same (h : Shrinks F len f newsize c c₁ c₂ c₃) (hf : f ∈ F)
    (hi : (4104 ≤ i ∧ i < 8192) ∨ 4096 * (2 + nbitmap c) ≤ i) (hsize : ¬WordOf (fSize f) i)
    (hind : ceilBlocks newsize.toNat ≤ ndirect → indirectOf c f ≠ 0 → ¬WordOf (fIndirect f) i)
    (hslots : ∀ n < maxLen, ceilBlocks newsize.toNat ≤ n → blockOf c f n ≠ 0 →
      ¬WordOf (slotAddr c f (blockSlot n)) i) : c₃ i = c i := by
  rw [h.resized.same i hsize, h.dropped.same i, h.cut.same i hi]
  · exact fun m hlo hhi => hslots m (Nat.lt_of_lt_of_le hhi h.le) hlo
  · rw [nbitmap_of_nblocksOf h.cut.nblocks]
    exact hi
  · rw [h.cut.indirect f hf]
    exact hind

/-- The slots of the freed blocks are `0`. -/
lemma zeroed (h : Shrinks F len f newsize c c₁ c₂ c₃) (ht : Tree c F len) (hf : f ∈ F)
    (hn : n < maxLen) (hle : ceilBlocks newsize.toNat ≤ n) (hpos : blockOf c f n ≠ 0) :
    wordAt c₃ (slotAddr c f (blockSlot n)) = 0 := by
  have hhas := has_of_blockOf hpos
  have hslot := ht.slotAt hf (valid_blockSlot hn hhas)
  have hlt : n < ceilBlocks (fileSize c f).toNat := by
    by_contra hge
    exact hpos (h.tail n hn (Nat.not_lt.mp hge))
  have hcut : blockOf c₁ f n = 0 := by
    rw [h.cut.blocks f hf n hn, if_pos ⟨rfl, hle, hlt⟩]
  have haddr : slotAddr c₁ f (blockSlot n) = slotAddr c f (blockSlot n) :=
    slotAddr_of_indirectOf (h.cut.indirect f hf) _
  have hword : wordAt c₁ (slotAddr c f (blockSlot n)) = 0 := by
    rw [blockOf_of_has (by rw [h.cut.indirect f hf]; exact hhas)] at hcut
    unfold ptr at hcut
    rw [haddr] at hcut
    exact toNat_eq_zero.mp hcut
  rw [← hword]
  apply wordAt_congr
  intro i hi hi'
  have hin : WordOf (slotAddr c f (blockSlot n)) i := ⟨hi, hi'⟩
  have hsize : ¬WordOf (fSize f) i := by
    intro hword
    obtain ⟨k, rfl⟩ := Nat.exists_eq_add_of_le hword.1
    unfold WordOf fSize at hword
    exact ht.not_wordOf_slot (i := 128 + k) (ht.home f hf) hf (valid_blockSlot hn hhas) (by omega)
      (by rw [← Nat.add_assoc]; exact hin)
  have hind : ¬WordOf (fIndirect f) i := by
    have hne : slotAddr c f (blockSlot n) ≠ slotAddr c f .indirect := fun heq =>
      blockSlot_ne_indirect n (ht.slotAddr_inj hf hf (valid_blockSlot hn hhas)
        (Slot.valid_indirect c f) heq).2
    exact not_wordOf (ht.slotAt hf (Slot.valid_indirect c f)).aligned hslot.aligned hne hi hi'
  rw [h.resized.same i hsize, h.dropped.same i]
  · rw [nbitmap_of_nblocksOf h.cut.nblocks]
    have hclear := hslot.clear
    unfold Clear at hclear
    omega
  · exact fun _ _ => hind

lemma free (h : Shrinks F len f newsize c c₁ c₂ c₃) (hf : f ∈ F) : IsFree c₃ b ↔ IsFree c b ∨
    (∃ n < maxLen, ceilBlocks newsize.toNat ≤ n ∧ blockOf c f n ≠ 0 ∧ b = blockOf c f n) ∨
    (ceilBlocks newsize.toNat ≤ ndirect ∧ indirectOf c f ≠ 0 ∧ b = indirectOf c f) := by
  rw [h.resized.super.isFree, h.dropped.free, h.cut.free, h.cut.indirect f hf, or_assoc]
  have hiff : (∃ m, ceilBlocks newsize.toNat ≤ m ∧ m < ceilBlocks (fileSize c f).toNat ∧
      blockOf c f m ≠ 0 ∧ b = blockOf c f m) ↔
      ∃ n < maxLen, ceilBlocks newsize.toNat ≤ n ∧ blockOf c f n ≠ 0 ∧ b = blockOf c f n := by
    constructor
    · rintro ⟨m, hlo, hhi, hm⟩
      exact ⟨m, Nat.lt_of_lt_of_le hhi h.le, hlo, hm⟩
    · rintro ⟨m, hm, hlo, hpos, heq⟩
      refine ⟨m, hlo, ?_, hpos, heq⟩
      by_contra hge
      exact hpos (h.tail m hm (Nat.not_lt.mp hge))
  rw [hiff]

lemma count (h : Shrinks F len f newsize c c₁ c₂ c₃) (hf : f ∈ F) :
    freeCount c₃ + held c₃ f = freeCount c + held c f := by
  have hset : (Finset.range maxLen).filter (fun m => blockOf c f m ≠ 0) =
      (Finset.range maxLen).filter (fun m => blockOf c₃ f m ≠ 0) ∪
      (Finset.Ico (ceilBlocks newsize.toNat) (ceilBlocks (fileSize c f).toNat)).filter
        (fun m => blockOf c f m ≠ 0) := by
    ext m
    rw [Finset.mem_union, Finset.mem_filter, Finset.mem_filter, Finset.mem_filter,
      Finset.mem_range, Finset.mem_Ico]
    constructor
    · rintro ⟨hm, hpos⟩
      by_cases hle : ceilBlocks newsize.toNat ≤ m
      · refine .inr ⟨⟨hle, ?_⟩, hpos⟩
        by_contra hge
        exact hpos (h.tail m hm (Nat.not_lt.mp hge))
      · refine .inl ⟨hm, ?_⟩
        rw [h.blocks hf hm, if_neg hle]
        exact hpos
    · rintro (⟨hm, hpos⟩ | ⟨⟨-, hhi⟩, hpos⟩)
      · refine ⟨hm, fun hzero => hpos ?_⟩
        rw [h.blocks hf hm, hzero, ite_self]
      · exact ⟨Nat.lt_of_lt_of_le hhi h.le, hpos⟩
  have hdisj : Disjoint ((Finset.range maxLen).filter (fun m => blockOf c₃ f m ≠ 0))
      ((Finset.Ico (ceilBlocks newsize.toNat) (ceilBlocks (fileSize c f).toNat)).filter
        (fun m => blockOf c f m ≠ 0)) := by
    rw [Finset.disjoint_left]
    intro m hm hm'
    rw [Finset.mem_filter, Finset.mem_range] at hm
    rw [Finset.mem_filter, Finset.mem_Ico] at hm'
    apply hm.2
    rw [h.blocks hf hm.1, if_pos hm'.1.1]
  unfold held
  rw [freeCount_of_sameSuper h.resized.super, h.dropped.count, h.cut.count, h.indirect hf, hset,
    Finset.card_union_of_disjoint hdisj, h.cut.indirect f hf]
  by_cases hle : ceilBlocks newsize.toNat ≤ ndirect
  · by_cases hpos : indirectOf c f = 0
    · simp only [hle, hpos, ne_eq, not_true_eq_false, and_false, if_false, and_self, if_true]
      omega
    · simp only [hle, hpos, ne_eq, not_false_eq_true, not_true_eq_false, and_self, if_true, if_false]
      omega
  · simp only [hle, false_and, and_false, if_false]
    omega

lemma shrunk (h : Shrinks F len f newsize c c₁ c₂ c₃) (ht : Tree c F len) (hf : f ∈ F) :
    Shrunk F f newsize c c₃ where
  size := h.resized.size
  blocks _ hn := h.blocks hf hn
  zeroed _ hn hle hpos := h.zeroed ht hf hn hle hpos
  indirect := by
    rw [h.indirect hf]
    simp only [true_and]
  free _ := h.free hf
  count := h.count hf
  others g hg hne := by
    refine ⟨?_, ?_, fun n hn => h.others hg hne hn⟩
    · rw [h.resized.sizes g hg hne, h.dropped.sizes g hg, h.cut.sizes g hg]
    · rw [h.indirect hg, if_neg (fun hand => hne hand.1)]
  same _ hi hsize hind hslots := h.same hf hi hsize hind hslots

end Shrinks

/-- The content after `file_truncate_blocks`. -/
def truncated (c : ℕ → Byte) (f : ℕ) (newsize : Word) : ℕ → Byte :=
  afterDrop (cutAt c f (blocksFor newsize).toNat
    (min ((blocksFor (fileSize c f)).toNat - (blocksFor newsize).toNat)
      (maxLen - (blocksFor newsize).toNat))) f (blocksFor newsize).toNat

lemma Tree.fileTruncateBlocks_sat (h : Tree c F len) (hf : f ∈ F) (hno : NoEntries c len f) (newsize : Word)
    (hs : s.content = c) :
    Sat (fileTruncateBlocks f newsize) s (fun _ t => t.content = truncated c f newsize) NoMem := by
  unfold fileTruncateBlocks
  rw [sat_bind]
  refine (loadWord_sat (by rw [hs]; exact h.super)
    (by rw [hs]; exact (h.fileAt hf).field (k := 128) (by decide))).post ?_
  rintro w t ⟨rfl, ht⟩
  have hct : t.content = c := ht.content.trans hs
  have hw : wordAt s.content (fSize f) = fileSize c f := by
    rw [hs]
    rfl
  dsimp only
  rw [hw, sat_bind]
  refine (h.cut_sat hf hno _ _ hct).post ?_
  intro _ u hu
  exact (h.cut_min hf hno _ _).tree.drop_sat hf _ hu

/-- The steps of a truncation of a file that is not too large. -/
lemma Tree.truncated_steps (h : Tree c F len) (hf : f ∈ F) (hno : NoEntries c len f)
    (hle : newsize.toNat ≤ (fileSize c f).toNat) (hmax : (fileSize c f).toNat ≤ maxFileSize) :
    ∃ c₁, Cut F len f (ceilBlocks newsize.toNat) (ceilBlocks (fileSize c f).toNat) c c₁ ∧
      Dropped F len f (ceilBlocks newsize.toNat) c₁ (truncated c f newsize) := by
  have hold : (blocksFor (fileSize c f)).toNat = ceilBlocks (fileSize c f).toNat :=
    toNat_blocksFor (small_of_le_maxFileSize hmax)
  have hnew : (blocksFor newsize).toNat = ceilBlocks newsize.toNat :=
    toNat_blocksFor (small_of_le_maxFileSize (hle.trans hmax))
  have hmono := ceilBlocks_mono hle
  have hlast := ceilBlocks_le_maxLen hmax
  have hcount : min (ceilBlocks (fileSize c f).toNat - ceilBlocks newsize.toNat)
      (maxLen - ceilBlocks newsize.toNat) =
      ceilBlocks (fileSize c f).toNat - ceilBlocks newsize.toNat := by omega
  have hsum : ceilBlocks newsize.toNat + (ceilBlocks (fileSize c f).toNat - ceilBlocks newsize.toNat) =
      ceilBlocks (fileSize c f).toNat := by omega
  have hcut := h.cut hf hno (ceilBlocks newsize.toNat)
    (ceilBlocks (fileSize c f).toNat - ceilBlocks newsize.toNat) (by omega)
  rw [hsum] at hcut
  refine ⟨_, hcut, ?_⟩
  unfold truncated
  rw [hold, hnew, hcount]
  exact hcut.tree.dropped hf (hcut.kept.noEntries hf hno) _

/-- The file has a new size, and everything but its blocks behind the end is as before. -/
theorem fileSetSize_shrinks (h : Wf c F) (hf : f ∈ F) (hreg : ¬IsDir c f) (htail : ∀ g ∈ F, NoTail c g)
    (hpos : 0 ≤ newsize.toInt) (hlt : newsize.toInt < (fileSize c f).toInt)
    (hmax : (fileSize c f).toInt ≤ maxFileSize) (hs : s.content = c) :
    Sat (fileSetSize f newsize) s (fun _ t => Shrunk F f newsize c t.content ∧ Wf t.content F ∧
      ∀ g ∈ F, NoTail t.content g) NoMem := by
  have hfile := h.fileAt hf
  have hno : NoEntries c (dirLen c) f := noEntries_of_reg hreg
  have hslt : newsize.slt (fileSize c f) = true := BitVec.slt_iff_toInt_lt.mpr hlt
  have hold := small_of_toInt (hpos.trans (Int.le_of_lt hlt))
  have hnew := small_of_toInt hpos
  rw [toInt_of_small hold] at hlt hmax
  rw [toInt_of_small hnew] at hlt
  have hlt : newsize.toNat < (fileSize c f).toNat := by omega
  have hmax : (fileSize c f).toNat ≤ maxFileSize := by omega
  unfold fileSetSize
  rw [sat_bind]
  refine (loadWord_sat (by rw [hs]; exact h.super)
    (by rw [hs]; exact hfile.field (k := 128) (by decide))).post ?_
  rintro w t ⟨rfl, ht⟩
  have hct : t.content = c := ht.content.trans hs
  have hcond : newsize.slt (wordAt s.content (fSize f)) = true := by
    rw [hs]
    exact hslt
  rw [if_pos hcond, sat_bind]
  refine (h.fileTruncateBlocks_sat hf hno newsize hct).post ?_
  intro _ u hu
  obtain ⟨c₁, hcut, hdrop⟩ := h.truncated_steps hf hno (Nat.le_of_lt hlt) hmax
  rw [← hu] at hdrop
  have hfile' := hdrop.tree.fileAt hf
  rw [sat_bind]
  have hal := hfile'.aligned
  refine (storeWord_sat hdrop.tree.super (hfile'.field (k := 128) (by decide))
    (by omega) newsize).post ?_
  intro _ v hv
  have hv : v.content = putWord u.content (fSize f) newsize := hv.content
  have hresized := hdrop.tree.resized hf newsize
  rw [← hv] at hresized
  have hsteps : Shrinks F (dirLen c) f newsize c c₁ u.content v.content :=
    ⟨hcut, hdrop, hresized, hlt, ceilBlocks_le_maxLen hmax, htail f hf⟩
  have hshrunk := hsteps.shrunk h.toTree hf
  have hblock : f / 4096 < maxBlocks :=
    Nat.lt_of_lt_of_le hfile.inUse.1 h.super.size
  refine (flushBlock_sat hblock).post ?_
  rintro - x rfl
  rw [content_flush]
  refine ⟨hshrunk, ?_, ?_⟩
  · apply h.of_tree hresized.tree ((hcut.kept.trans hdrop.kept).trans hresized.kept)
    intro d hd hdir
    have hne : d ≠ f := by
      rintro rfl
      exact hreg hdir
    exact (hshrunk.others d hd hne).1
  · intro g hg n hn hle
    by_cases hgf : g = f
    · subst hgf
      rw [hshrunk.size] at hle
      rw [hshrunk.blocks n hn, if_pos hle]
    · obtain ⟨hsize, -, hblocks⟩ := hshrunk.others g hg hgf
      rw [hsize] at hle
      rw [hblocks n hn]
      exact htail g hg n hn hle

lemma noTail_smallDisk : ∀ g ∈ smallFiles, NoTail smallDisk g := by
  intro g hg n hn hle
  have hsizes : ceilBlocks (fileSize smallDisk rootAddr).toNat = 1 ∧
      ceilBlocks (fileSize smallDisk 12288).toNat = 2 := by decide +kernel
  by_contra hpos
  obtain ⟨hvalid, hptr⟩ := Tree.blockOf_valid hn hpos
  rw [← hptr] at hpos
  rcases smallDisk_slot hg hvalid hpos with ⟨rfl, hslot, -⟩ | ⟨rfl, hslot, -⟩ | ⟨rfl, hslot, -⟩
  · obtain rfl := blockSlot_inj (m := 0) hslot
    omega
  · obtain rfl := blockSlot_inj (m := 0) hslot
    omega
  · obtain rfl := blockSlot_inj (m := 1) hslot
    omega

theorem fileSetSize_shrinks_small : Sat (fileSetSize 12288 100) (onDisk smallDisk 8)
    (fun _ t => Shrunk smallFiles 12288 100 smallDisk t.content ∧ Wf t.content smallFiles ∧
      ∀ g ∈ smallFiles, NoTail t.content g) NoMem := by
  apply fileSetSize_shrinks wf_smallDisk
  · exact .inr rfl
  · unfold IsDir
    decide +kernel
  · exact noTail_smallDisk
  · decide
  · decide +kernel
  · decide +kernel
  · exact content_onDisk smallDisk 8

end SistemasOperativos.Fs
