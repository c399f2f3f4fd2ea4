import SistemasOperativos.Fs.Quiet

/-!
# Positions before a file

A position between `-4096` and `0` is taken for one in block 0 of a file, and lies in the block of the
disk before it.
-/

namespace SistemasOperativos.Fs

open Library Kern

/-- `file_get_block` does not find the block `j`. -/
def NoBlock (c : ℕ → Byte) (f j : ℕ) : Prop := maxLen ≤ j ∨ freeCount c < wanted c f j

/-- The block before the block 0 of a file is free and not in the cache, so that an access to it stops
the server. -/
def Barred (s : Fs) (c : ℕ → Byte) (f : ℕ) : Prop :=
  blockOf c f 0 ≠ 0 ∧ IsFree c (blockOf c f 0 - 1) ∧ s.cache.pages (blockOf c f 0 - 1) = none

/-- The content when a file has got its block 0. -/
def firstFilled (c : ℕ → Byte) (f : ℕ) : ℕ → Byte :=
  if blockOf c f 0 = 0 then withBlock c (fDirect f 0) (standIn c f 0 0) else c

variable {c c' : ℕ → Byte} {F : Set ℕ} {len : ℕ → ℕ} {s t : Fs} {a b d f j k m n : ℕ} {v : Bool}
  {pos stop w : Word} {bs : List Byte} {x : Byte}

/-! ### Accesses that succeed -/

/-- An access to a free block that is not in the cache stops the server. -/
lemma touch_free (hfree : IsFree s.content b) (hnone : s.cache.pages b = none) :
    Sat (touch b) s (fun _ _ => False) Anyhow := by
  have hisNone : (s.cache.pages b).isNone = true := by
    rw [hnone]
    rfl
  unfold touch touchWith
  simp only [sat_bind, sat_get, sat_ite, sat_throw, sat_pure]
  refine ⟨fun _ => ?_, fun hsome => absurd hisNone hsome⟩
  refine (bcRead_looks b hisNone).post ?_
  intro _ t ht
  refine (touchWith_looks 2 (2 + b / 32768) _ t ht).post ?_
  intro _ u hu
  refine ⟨fun _ => trivial, fun hbit => hbit ?_⟩
  rw [hu]
  exact hfree.2

/-! ### Which blocks are in the cache -/

/-- The block `b'`, and the `n` bitmap blocks that an access to it can need, are not `b`. -/
structure Apart (n b b' : ℕ) : Prop where
  above : 2 + n ≤ b
  ne : b' ≠ b
  bitmap : b' / 32768 < n

/-- Whether the block `b` is in the cache stays as it is. -/
abbrev KeepsPage {α : Type} (b : ℕ) (v : Bool) (m : FsM α) : Prop :=
  Keeps (fun s => (s.cache.pages b).isSome = v) Anyhow m

lemma apart_bitmap {b' : ℕ} (hle : 2 + n ≤ b) (h : b' / 32768 < n) : Apart n b (2 + b' / 32768) := by
  constructor
  · exact hle
  · omega
  · omega

section KeepsPage

variable {b' : ℕ}

lemma bcRead_keepsPage (h : b' ≠ b) : KeepsPage b v (bcRead b') := by
  intro s hs
  unfold bcRead
  simp only [sat_bind, sat_get, sat_ite, sat_throw, sat_set]
  refine ⟨fun _ => trivial, fun _ => ⟨fun _ => trivial, fun _ => ⟨fun _ => trivial, fun _ => ?_⟩⟩⟩
  change (Function.update s.cache.pages b' _ b).isSome = v
  rw [Function.update_of_ne h.symm]
  exact hs

lemma touchWith_keepsPage (h : Apart n b b') (fuel : ℕ) : KeepsPage b v (touchWith fuel b') := by
  induction fuel generalizing b' with
  | zero =>
    intro s hs
    unfold touchWith
    simp only [sat_bind, sat_get, sat_ite, sat_throw, sat_pure]
    exact ⟨fun _ => trivial, fun _ => hs⟩
  | succ fuel ih =>
    intro s hs
    unfold touchWith
    simp only [sat_bind, sat_get, sat_ite, sat_throw, sat_pure]
    refine ⟨fun _ => ?_, fun _ => hs⟩
    refine (bcRead_keepsPage h.ne s hs).post ?_
    intro _ t ht
    refine (ih (apart_bitmap h.above h.bitmap) t ht).post ?_
    exact fun _ u hu => ⟨fun _ => trivial, fun _ => hu⟩

lemma get_keepsPage : KeepsPage b v (get : FsM Fs) := fun _ hs => sat_get.mpr hs

lemma loadWord_keepsPage (h : Apart n b (a / 4096)) : KeepsPage b v (loadWord a) :=
  (touchWith_keepsPage h 3).bind fun _ => get_keepsPage.bind fun _ => .pure _

lemma storeWord_keepsPage (h : Apart n b (a / 4096)) (w : Word) : KeepsPage b v (storeWord a w) := by
  refine (touchWith_keepsPage h 3).bind fun _ s hs => sat_modify.mpr ?_
  change ((s.cache.change (a / 4096) (fun data => putWord data (a % 4096) w)).pages b).isSome = v
  rw [Bool.eq_iff_iff, WriteBack.isSome_change, ← Bool.eq_iff_iff]
  exact hs

lemma flushBlock_keepsPage (a : ℕ) : KeepsPage b v (flushBlock a) := by
  intro s hs
  unfold flushBlock
  simp only [sat_bind, sat_ite, sat_throw, sat_modify]
  refine ⟨fun _ => trivial, fun _ => ?_⟩
  rw [Bool.eq_iff_iff, WriteBack.isSome_flush, ← Bool.eq_iff_iff]
  exact hs

lemma diskaddr_keepsPage (b' : ℕ) : KeepsPage b v (diskaddr b') := by
  intro s hs
  unfold diskaddr
  simp only [sat_bind, sat_get, sat_ite, sat_throw, sat_pure]
  exact ⟨fun _ => trivial, fun _ => hs⟩

lemma freeBlock_keepsPage (hle : 2 + n ≤ b) (h : b' / 32768 < n) : KeepsPage b v (freeBlock b') := by
  have hapart : Apart n b ((bitmapAddr + 4 * (b' / 32)) / 4096) := by
    rw [bitmapWord_div]
    exact apart_bitmap hle h
  unfold freeBlock
  intro s hs
  simp only [sat_bind, sat_ite, sat_throw]
  refine ⟨fun _ => trivial, fun _ => ?_⟩
  refine (loadWord_keepsPage hapart s hs).post ?_
  exact fun w t ht => storeWord_keepsPage hapart _ t ht

end KeepsPage

/-- A free block is none that an access to a file needs. -/
lemma Tree.apart_file (h : Tree c F len) (hf : f ∈ F) (hb : IsFree c b) : Apart (nbitmap c) b (f / 4096) := by
  have huse := (h.fileAt hf).inUse
  constructor
  · exact h.super.le_of_isFree hb
  · rintro rfl
    exact not_isFree_of_inUse huse hb
  · have hlt := huse.1
    unfold nbitmap
    omega

section Sizes

variable (h : Tree s.content F len) (hf : f ∈ F) (hapart : Apart (nbitmap s.content) b (f / 4096))
include h hf hapart

lemma Tree.apart_field (hk : k < 256) : Apart (nbitmap s.content) b ((f + k) / 4096) := by
  rw [(h.fileAt hf).field_div hk]
  exact hapart

/-- `file_truncate_blocks` that frees no block of the file, but for its indirect block. -/
lemma Tree.fileTruncateBlocks_page
    (hnone : (blocksFor (fileSize s.content f)).toNat ≤ (blocksFor w).toNat) :
    Sat (fileTruncateBlocks f w) s (fun _ t => (t.cache.pages b).isSome = (s.cache.pages b).isSome)
      Anyhow := by
  have hfile := h.fileAt hf
  have hsize : Apart (nbitmap s.content) b (fSize f / 4096) := h.apart_field hf hapart (k := 128) (by decide)
  have hind : Apart (nbitmap s.content) b (fIndirect f / 4096) :=
    h.apart_field hf hapart (k := 176) (by decide)
  have hw : wordAt s.content (f + 128) = fileSize s.content f := rfl
  unfold fileTruncateBlocks
  rw [sat_bind]
  refine ((loadWord_sat h.super (hfile.field (k := 128) (by decide))).and
    (loadWord_keepsPage hsize s rfl)).mono ?_ (fun _ _ _ => trivial)
  rintro x t ⟨⟨rfl, ht⟩, hpage⟩
  dsimp only
  rw [hw, Nat.sub_eq_zero_of_le hnone, List.range'_zero, sat_bind]
  refine sat_pure.mpr ?_
  rw [sat_bind]
  refine ((loadWord_sat (by rw [ht.content]; exact h.super)
    (by rw [ht.content]; exact hfile.field (k := 176) (by decide))).and
    (loadWord_keepsPage hind t hpage)).mono ?_ (fun _ _ _ => trivial)
  rintro x u ⟨⟨rfl, -⟩, hpage⟩
  rw [ht.content, sat_ite]
  refine ⟨fun ⟨_, hne⟩ => ?_, fun _ => sat_pure.mpr hpage⟩
  have hpos : indirectOf s.content f ≠ 0 := fun hzero => hne (indirectOf_eq_zero.mp hzero)
  have hlt : indirectOf s.content f < nblocksOf s.content :=
    (h.slots f hf .indirect (Slot.valid_indirect _ f) hpos).2.1
  have hbit : indirectOf s.content f / 32768 < nbitmap s.content := by
    unfold nbitmap
    omega
  rw [sat_bind]
  refine (freeBlock_keepsPage hapart.above hbit u hpage).post ?_
  exact fun _ v hv => storeWord_keepsPage hind 0 v hv

lemma Tree.fileSetSize_page (hnone : w.slt (fileSize s.content f) = true →
      (blocksFor (fileSize s.content f)).toNat ≤ (blocksFor w).toNat) :
    Sat (fileSetSize f w) s (fun _ t => (t.cache.pages b).isSome = (s.cache.pages b).isSome) Anyhow := by
  have hsize : Apart (nbitmap s.content) b (fSize f / 4096) := h.apart_field hf hapart (k := 128) (by decide)
  have htail : KeepsPage b (s.cache.pages b).isSome (do
      storeWord (fSize f) w
      flushBlock f : FsM Unit) := (storeWord_keepsPage hsize w).bind fun _ => flushBlock_keepsPage f
  unfold fileSetSize
  rw [sat_bind]
  refine ((loadWord_sat h.super ((h.fileAt hf).field (k := 128) (by decide))).and
    (loadWord_keepsPage hsize s rfl)).mono ?_ (fun _ _ _ => trivial)
  rintro x t ⟨⟨rfl, ht⟩, hpage⟩
  rw [sat_ite]
  refine ⟨fun hlt => ?_, fun _ => htail t hpage⟩
  rw [← ht.content] at h hapart hnone hlt
  rw [sat_bind]
  refine (h.fileTruncateBlocks_page hf hapart (hnone hlt)).post ?_
  exact fun _ u hu => htail u (hu.trans hpage)

end Sizes

/-- A block 0 that is still there at the beginning of the loop of `file_write` before the file is one that
`file_set_size` has not looked at. -/
lemma Tree.begun_page (h : Tree s.content F len) (hf : f ∈ F) (hno : NoEntries s.content len f)
    (hstop : 2 ^ 32 < stop.toNat + 4096) (hpos : blockOf (begun s.content f stop) f 0 ≠ 0)
    (hb : IsFree (begun s.content f stop) b) :
    Sat (if fileSize s.content f < stop then fileSetSize f stop else pure ()) s
      (fun _ t => (t.cache.pages b).isSome = (s.cache.pages b).isSome) Anyhow := by
  rw [sat_ite]
  refine ⟨fun hlt => ?_, fun _ => sat_pure.mpr rfl⟩
  unfold begun at hpos hb
  rw [if_pos hlt] at hpos hb
  have hsized := h.sized hf hno stop
  have hapart := hsized.tree.apart_file hf hb
  rw [nbitmap_of_nblocksOf hsized.nblocks] at hapart
  apply h.fileSetSize_page hf hapart
  intro hslt
  have hzero : (blocksFor stop).toNat = 0 := by
    have hadd : (stop + 4095).toNat = stop.toNat + 4095 - 2 ^ 32 := by
      have hlt := stop.isLt
      rw [BitVec.toNat_add]
      change (stop.toNat + 4095) % 2 ^ 32 = _
      omega
    have hlt := stop.isLt
    unfold blocksFor
    rw [toNat_sdiv (by omega), hadd]
    omega
  by_contra hold
  have hcut := h.cut_min hf hno (blocksFor stop).toNat
    ((blocksFor (fileSize s.content f)).toNat - (blocksFor stop).toNat)
  unfold Fs.sized truncated at hpos
  rw [if_pos hslt] at hpos
  generalize cutAt s.content f (blocksFor stop).toNat (min ((blocksFor (fileSize s.content f)).toNat -
    (blocksFor stop).toNat) (maxLen - (blocksFor stop).toNat)) = c₁ at hcut hpos
  have hdrop := hcut.tree.dropped hf (hcut.kept.noEntries hf hno) (blocksFor stop).toNat
  have hr := hdrop.tree.resized hf stop
  have hmax : 0 < maxLen := by decide
  rw [hr.toInert.blockOf_same hf hmax, hdrop.blocks f hf 0 hmax, hcut.blocks f hf 0 hmax, hzero] at hpos
  have hlast : 0 < min ((blocksFor (fileSize s.content f)).toNat - 0) (maxLen - 0) := by omega
  rw [if_neg (fun hand => absurd hand.2.2 (by decide)), if_pos ⟨rfl, le_rfl, by omega⟩] at hpos
  exact hpos rfl

/-- `file_get_block` of a block 0 that is there. -/
lemma Tree.getFirst_page (h : Tree s.content F len) (hf : f ∈ F) (hpos : blockOf s.content f 0 ≠ 0)
    (hb : IsFree s.content b) :
    Sat (fileGetBlock f 0) s (fun _ t => (t.cache.pages b).isSome = (s.cache.pages b).isSome) Anyhow := by
  have hfile := h.fileAt hf
  have hslot : Apart (nbitmap s.content) b (fDirect f 0 / 4096) := by
    have hdiv := hfile.field_div (k := 136) (by decide)
    have heq : fDirect f 0 / 4096 = f / 4096 := hdiv
    rw [heq]
    exact h.apart_file hf hb
  unfold fileGetBlock fileBlockWalk
  rw [sat_bind, if_neg (by decide), if_pos (by decide)]
  refine sat_pure.mpr ?_
  dsimp only
  rw [sat_bind]
  unfold fillSlot
  rw [sat_bind]
  refine ((loadWord_sat h.super (hfile.field (k := 136) (by decide))).and
    (loadWord_keepsPage hslot s rfl)).mono ?_ (fun _ _ _ => trivial)
  rintro x t ⟨⟨rfl, -⟩, hpage⟩
  rw [if_neg]
  · refine sat_pure.mpr ?_
    exact ((loadWord_keepsPage hslot).bind fun _ => (diskaddr_keepsPage _).bind fun _ =>
      (flushBlock_keepsPage _).bind fun _ => .pure _) t hpage
  · intro hzero
    apply hpos
    rw [blockOf_of_has (.inl (by decide))]
    exact toNat_eq_zero.mpr hzero

/-! ### Block 0 -/

lemma sourceBlock_first (hpos : blockOf c f 0 ≠ 0) : sourceBlock c f 0 0 = blockOf c f 0 := if_neg hpos

/-- A missing block 0 is the first block that is free. -/
lemma sourceBlock_firstFree (hzero : blockOf c f 0 = 0) (hb : FirstFree c b) :
    sourceBlock c f 0 0 = b := by
  have hextra : extra c f 0 = 0 := extra_eq_zero.mpr (.inl (by decide))
  unfold sourceBlock standIn
  rw [if_pos hzero, holes_self, hextra, freeList_setUsed hb]
  rfl

lemma inUse_of_not_isFree (hlt : b < nblocksOf c) (h : ¬IsFree c b) : InUse c b := by
  refine ⟨hlt, ?_⟩
  rw [← Bool.not_eq_true]
  exact fun hbit => h ⟨hlt, hbit⟩

lemma FirstFree.inUse_pred (hs : SuperOk c) (hb : FirstFree c b) : InUse c (b - 1) := by
  have hle := hs.le_of_isFree hb.1
  exact inUse_of_not_isFree (Nat.lt_of_le_of_lt (Nat.sub_le b 1) hb.1.1) (hb.2 (b - 1) (by omega))

/-- What `file_get_block` leaves of the block 0 of a file, and of the block before it. -/
structure GotFirst (s : Fs) (f : ℕ) (r : Except ℤ ℕ) (t : Fs) : Prop where
  result : r = .ok (4096 * sourceBlock s.content f 0 0)
  room : ¬NoBlock s.content f 0
  content : t.content = firstFilled s.content f
  above : 2 + nbitmap s.content ≤ sourceBlock s.content f 0 0
  ready : ¬Barred s s.content f → Ready t (sourceBlock s.content f 0 0 - 1)
  free : Barred s s.content f →
    IsFree t.content (sourceBlock s.content f 0 0 - 1) ∧ t.cache.pages (sourceBlock s.content f 0 0 - 1) = none

/-- A direct slot is filled, if there is a block for it. -/
lemma Gets.direct {r : Except ℤ ℕ} (h : Gets F len f n c r c') (hn : n < ndirect) :
    r = .ok (4096 * blockOf c' f n) ∧ wanted c f n ≤ freeCount c ∧ Filled F len f n c c' := by
  cases h with
  | inval hmax =>
    unfold maxLen at hmax
    omega
  | full _ hextra => exact absurd (extra_eq_one.mp hextra).1 (Nat.not_le.mpr hn)
  | got _ hroom hfilled => exact ⟨rfl, hroom, hfilled⟩

/-- The slot of a missing block 0 gets the first block that is free. -/
lemma GotBlock.first {r : Except ℤ ℕ} (h : GotBlock c f 0 r c') (hzero : blockOf c f 0 = 0) :
    ∃ b, FirstFree c b ∧ c' = withBlock c (slotAddr c f (blockSlot 0)) b := by
  cases h with
  | inval hmax => exact absurd hmax (by decide)
  | full _ hge => exact absurd hge (by decide)
  | got _ h₁ h₂ =>
    cases h₁ with
    | allocated hge => exact absurd hge (by decide)
    | present =>
      cases h₂ with
      | present hpos =>
        rw [blockOf_of_has (.inl (by decide))] at hzero
        exact absurd hzero hpos
      | allocated _ hb => exact ⟨_, hb, rfl⟩

lemma Tree.getFirst_missing (h : Tree s.content F len) (hf : f ∈ F) (hzero : blockOf s.content f 0 = 0) :
    Sat (fileGetBlock f 0) s (GotFirst s f) (fun e t => NoMem e t ∨ NoBlock s.content f 0) := by
  refine ((h.getBlock_sat hf 0 rfl).and (fileGetBlock_sat h.super (h.blocksAt hf 0))).mono ?_ ?_
  · rintro r t ⟨hgets, hgot⟩
    obtain ⟨rfl, hroom, hfilled⟩ := hgets.direct (by decide)
    obtain ⟨b, hb, hct⟩ := hgot.first hzero
    have hsource := sourceBlock_firstFree hzero hb
    have hslot := (h.blocksAt hf 0).slotAt (by decide) (.inl (by decide))
    have hblock : blockOf t.content f 0 = b := by
      rw [blockOf_of_has (.inl (by decide)), hct]
      exact wordAt_withBlock h.super hb.1.1
    constructor
    · rw [hblock, hsource]
    · rintro (hmax | hfull)
      · exact absurd hmax (by decide)
      · exact absurd hroom (Nat.not_le.mpr hfull)
    · unfold firstFilled
      unfold sourceBlock at hsource
      rw [if_pos hzero] at hsource
      rw [if_pos hzero, hsource]
      exact hct
    · rw [hsource]
      exact h.super.le_of_isFree hb.1
    · intro _
      rw [hsource]
      refine .inr ⟨hfilled.tree.super, ?_⟩
      rw [hct]
      exact (sameSuper_withBlock hslot b).inUse.mpr ((hb.inUse_pred h.super).setUsed b)
    · exact fun hbarred => absurd hzero hbarred.1
  · rintro e t ⟨hmem | ⟨-, hn, -, hcount⟩, -⟩
    · exact .inl hmem
    · refine .inr (.inr ?_)
      unfold wanted
      rw [if_pos hzero]
      omega

lemma Tree.getFirst_present (h : Tree s.content F len) (hf : f ∈ F) (hpos : blockOf s.content f 0 ≠ 0) :
    Sat (fileGetBlock f 0) s (GotFirst s f) NoMem := by
  obtain ⟨hle, huse⟩ := h.blockOf_inUse hf (by decide) hpos
  have hpage : Sat (fileGetBlock f 0) s (fun _ t => IsFree s.content (blockOf s.content f 0 - 1) →
      (t.cache.pages (blockOf s.content f 0 - 1)).isSome =
        (s.cache.pages (blockOf s.content f 0 - 1)).isSome) Anyhow := by
    by_cases hb : IsFree s.content (blockOf s.content f 0 - 1)
    · exact (h.getFirst_page hf hpos hb).post (fun _ _ hsame _ => hsame)
    · exact (sat_self _ s).mono (fun _ _ _ hyes => absurd hyes hb) (fun _ _ _ => trivial)
  refine ((h.getBlock_sat hf 0 rfl).and hpage).mono ?_ ?_
  · rintro r t ⟨hgets, hpage⟩
    obtain ⟨rfl, hroom, hfilled⟩ := hgets.direct (by decide)
    have hct := hfilled.idle hpos
    have hsource := sourceBlock_first hpos
    constructor
    · rw [hsource, hct]
    · rintro (hmax | hfull)
      · exact absurd hmax (by decide)
      · exact absurd hroom (Nat.not_le.mpr hfull)
    · rw [hct]
      exact (if_neg hpos).symm
    · rw [hsource]
      exact hle
    · intro hnot
      rw [hsource]
      by_cases hb : IsFree s.content (blockOf s.content f 0 - 1)
      · left
        rw [hpage hb, Option.isSome_iff_ne_none]
        exact fun hnone => hnot ⟨hpos, hb, hnone⟩
      · right
        rw [hct]
        exact ⟨h.super, inUse_of_not_isFree (Nat.lt_of_le_of_lt (Nat.sub_le _ 1) huse.1) hb⟩
    · rintro ⟨-, hb, hnone⟩
      rw [hsource, hct]
      refine ⟨hb, ?_⟩
      have hsame := hpage hb
      rw [hnone] at hsame
      exact Option.not_isSome_iff_eq_none.mp (by rw [hsame]; exact Bool.false_ne_true)
  · rintro e t ⟨hmem | ⟨-, -, hzero, -⟩, -⟩
    · exact hmem
    · exact absurd hzero hpos

lemma Tree.getFirst_sat (h : Tree s.content F len) (hf : f ∈ F) :
    Sat (fileGetBlock f 0) s (GotFirst s f) (fun e t => NoMem e t ∨ NoBlock s.content f 0) := by
  by_cases hzero : blockOf s.content f 0 = 0
  · exact h.getFirst_missing hf hzero
  · exact (h.getFirst_present hf hzero).mono (fun _ _ hr => hr) (fun _ _ he => .inl he)

/-! ### Positions -/

section Near

variable (hpos : 2 ^ 32 < pos.toNat + 4096)
include hpos

lemma srem_near : pos.srem 4096 = pos := by
  have hlt := pos.isLt
  apply BitVec.eq_of_toNat_eq
  rw [toNat_srem_of_large (by omega) (by decide)]
  change (2 ^ 32 - (2 ^ 32 - pos.toNat) % 4096) % 2 ^ 32 = pos.toNat
  omega

lemma toNat_sdiv_near : (pos.sdiv 4096).toNat = 0 := by
  have hlt := pos.isLt
  rw [toNat_sdiv_of_large (by omega) (by decide)]
  change (2 ^ 32 - (2 ^ 32 - pos.toNat) / 4096) % 2 ^ 32 = 0
  omega

/-- The rest of a range is moved at once. -/
lemma chunk_near (hlt : pos.toNat < stop.toNat) : chunk pos stop = stop - pos := by
  have hstop := stop.isLt
  have hsub : (stop - pos).toNat = stop.toNat - pos.toNat := BitVec.toNat_sub_of_le (Nat.le_of_lt hlt)
  have hroom : (4096 - pos : Word).toNat = 2 ^ 32 - pos.toNat + 4096 := by
    rw [BitVec.toNat_sub]
    change (2 ^ 32 - pos.toNat + 4096) % 2 ^ 32 = _
    omega
  apply BitVec.eq_of_toNat_eq
  unfold chunk
  rw [toNat_minWord, srem_near hpos, hsub, hroom]
  omega

lemma posAddr_near (b : ℕ) (hb : 1 ≤ b) :
    posAddr (4096 * b) pos = 4096 * (b - 1) + (pos.toNat + 4096 - 2 ^ 32) := by
  have hlt := pos.isLt
  have hint : pos.toInt = (pos.toNat : ℤ) - 2 ^ 32 := by
    rw [BitVec.toInt_eq_toNat_cond, if_neg (by omega)]
    rfl
  unfold posAddr
  rw [srem_near hpos, hint]
  omega

/-- The loop of `file_read` over positions before the file. -/
lemma Tree.readNear_sat (h : Tree s.content F len) (hf : f ∈ F) (hlt : pos.toNat < stop.toNat) (fuel : ℕ) :
    Sat (readLoop f stop (fuel + 1) pos) s
      (fun r _ => ¬NoBlock s.content f 0 ∧ ¬Barred s s.content f ∧ ∃ bs, r = .ok bs ∧
        bs.length = stop.toNat - pos.toNat ∧ ∀ k (hk : k < bs.length),
          bs[k] = firstFilled s.content f (posAddr (4096 * sourceBlock s.content f 0 0) pos + k))
      (fun e t => NoMem e t ∨ NoBlock s.content f 0 ∨ Barred s s.content f) := by
  have hstop := stop.isLt
  have hsub : (stop - pos).toNat = stop.toNat - pos.toNat := BitVec.toNat_sub_of_le (Nat.le_of_lt hlt)
  unfold readLoop
  rw [if_pos (show pos < stop from hlt), sat_bind, toNat_sdiv_near hpos, chunk_near hpos hlt]
  refine (h.getFirst_sat hf).mono ?_ (fun _ _ he => he.imp id .inl)
  rintro r t ⟨rfl, hroom, hct, habove, hready, hfree⟩
  have haddr := posAddr_near hpos (sourceBlock s.content f 0 0) (by omega)
  generalize hb : sourceBlock s.content f 0 0 = b at habove hready hfree haddr ⊢
  dsimp only
  rw [sat_bind, haddr, hsub]
  have hdiv : (4096 * (b - 1) + (pos.toNat + 4096 - 2 ^ 32)) / 4096 = b - 1 := by omega
  by_cases hbarred : Barred s s.content f
  · obtain ⟨n, hn⟩ := Nat.exists_eq_add_of_lt hlt
    obtain ⟨hisFree, hnone⟩ := hfree hbarred
    have hlen : stop.toNat - pos.toNat = n + 1 := by omega
    rw [hlen]
    unfold loadBytes loadByte
    rw [sat_bind, sat_bind, hdiv]
    exact (touch_free hisFree hnone).mono (fun _ _ hfalse => hfalse.elim) (fun _ _ _ => .inr (.inr hbarred))
  · refine (loadBytes_ready _ (hready hbarred) (.inr hdiv) (by omega)).mono ?_ (fun _ _ he => .inl he)
    rintro bs u ⟨hlen, hbs, -⟩
    rw [sat_bind]
    have hend : pos + (stop - pos) = stop := by
      apply BitVec.eq_of_toNat_eq
      rw [BitVec.toNat_add, hsub]
      omega
    rw [hend]
    have hdone : Sat (readLoop f stop fuel stop) u (fun r _ => r = .ok []) (fun _ _ => False) := by
      cases fuel with
      | zero =>
        unfold readLoop
        exact sat_pure.mpr rfl
      | succ fuel =>
        unfold readLoop
        rw [if_neg (show ¬stop < stop from Nat.lt_irrefl stop.toNat)]
        exact sat_pure.mpr rfl
    refine hdone.mono ?_ (fun _ _ hfalse => hfalse.elim)
    rintro r v rfl
    refine sat_pure.mpr ⟨hroom, hbarred, bs, by rw [List.append_nil], hlen, ?_⟩
    intro k hk
    rw [hbs k hk, hct]

end Near

end SistemasOperativos.Fs
