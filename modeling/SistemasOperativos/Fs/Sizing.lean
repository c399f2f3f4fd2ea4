import SistemasOperativos.Fs.Transfer

/-!
# Sizes of every kind

`file_set_size` and `file_write`, whatever the size or the offset, of a file without entries.
-/

namespace SistemasOperativos.Fs

open Library Kern

/-- A new size takes blocks from the file at most. -/
structure Sized (F : Set ℕ) (len : ℕ → ℕ) (f : ℕ) (w : Word) (c c' : ℕ → Byte) : Prop where
  tree : Tree c' F len
  kept : Kept F len c c'
  size : fileSize c' f = w
  sizes : ∀ g ∈ F, g ≠ f → fileSize c' g = fileSize c g
  nblocks : nblocksOf c' = nblocksOf c
  blocks : ∀ g ∈ F, ∀ m < maxLen, blockOf c' g m = blockOf c g m ∨ (g = f ∧ blockOf c' g m = 0)
  indirect : ∀ g ∈ F, indirectOf c' g = indirectOf c g ∨ (g = f ∧ indirectOf c' g = 0)
  free : ∀ b, IsFree c b → IsFree c' b
  same : ∀ i, DataBlock c F len (i / 4096) ∨ IsFree c (i / 4096) → c' i = c i

variable {c c' : ℕ → Byte} {F : Set ℕ} {len : ℕ → ℕ} {s t : Fs} {b f g i j m n : ℕ}
  {w offset stop : Word} {buf : List Byte}

/-! ### `file_set_size` -/

/-- Contents and free blocks are apart from the slots. -/
lemma Tree.region_apart (h : Tree c F len) (hf : f ∈ F) {p : Slot} (hp : p.Valid c f)
    (hi : DataBlock c F len (i / 4096) ∨ IsFree c (i / 4096)) : ¬WordOf (slotAddr c f p) i := by
  rcases hi with hdata | hfree
  · exact h.data_notWordOf hf hp hdata
  · intro hword
    have hslot := h.slotAt hf hp
    have hal := hslot.aligned
    unfold WordOf at hword
    have hdiv : slotAddr c f p / 4096 = i / 4096 := by omega
    rw [← hdiv] at hfree
    exact not_isFree_of_inUse hslot.inUse hfree

lemma Tree.region_above (h : Tree c F len)
    (hi : DataBlock c F len (i / 4096) ∨ IsFree c (i / 4096)) : 4096 * (2 + nbitmap c) ≤ i := by
  have hle : 2 + nbitmap c ≤ i / 4096 := by
    rcases hi with hdata | hfree
    · exact (h.data_inUse hdata).2
    · exact h.super.le_of_isFree hfree
  omega

lemma Tree.region_size (h : Tree c F len) (hf : f ∈ F)
    (hi : DataBlock c F len (i / 4096) ∨ IsFree c (i / 4096)) : ¬WordOf (fSize f) i := by
  intro hword
  have hfile := h.fileAt hf
  have hfits := hfile.fits
  have hdiv : i / 4096 = f / 4096 := by
    unfold WordOf fSize at hword
    omega
  rcases hi with ⟨g, hg, j, hj, hdata, hpos, heq⟩ | hfree
  · exact h.place_ne_blockOf hg hj hpos hdata (h.home f hf) (hdiv.symm.trans heq)
  · rw [hdiv] at hfree
    exact not_isFree_of_inUse hfile.inUse hfree

lemma Tree.sized (h : Tree c F len) (hf : f ∈ F) (hno : NoEntries c len f) (w : Word) :
    Sized F len f w c (sized c f w) := by
  unfold Fs.sized
  by_cases hlt : w.slt (fileSize c f) = true
  · rw [if_pos hlt]
    unfold truncated
    have hcut := h.cut_min hf hno (blocksFor w).toNat
      ((blocksFor (fileSize c f)).toNat - (blocksFor w).toNat)
    generalize cutAt c f (blocksFor w).toNat (min ((blocksFor (fileSize c f)).toNat -
      (blocksFor w).toNat) (maxLen - (blocksFor w).toNat)) = c₁ at hcut ⊢
    have hdrop := hcut.tree.dropped hf (hcut.kept.noEntries hf hno) (blocksFor w).toNat
    have hr := hdrop.tree.resized hf w
    constructor
    · exact hr.tree
    · exact (hcut.kept.trans hdrop.kept).trans hr.kept
    · exact hr.size
    · exact fun g hg hne => ((hr.sizes g hg hne).trans (hdrop.sizes g hg)).trans (hcut.sizes g hg)
    · exact (hr.super.nblocks.trans hdrop.nblocks).trans hcut.nblocks
    · intro g hg m hm
      rw [hr.toInert.blockOf_same hg hm, hdrop.blocks g hg m hm, hcut.blocks g hg m hm]
      by_cases hgf : g = f
      · split
        · exact .inr ⟨hgf, rfl⟩
        · split
          · exact .inr ⟨hgf, rfl⟩
          · exact .inl rfl
      · rw [if_neg (fun hand => hgf hand.1), if_neg (fun hand => hgf hand.1)]
        exact .inl rfl
    · intro g hg
      rw [hr.indirect g hg, hdrop.indirect g hg, hcut.indirect g hg]
      split
      · rename_i hand
        exact .inr ⟨hand.1, rfl⟩
      · exact .inl rfl
    · exact fun b hb => hr.super.isFree.mpr ((hdrop.free b).mpr (.inl ((hcut.free b).mpr (.inl hb))))
    · intro i hi
      have habove := h.region_above hi
      rw [hr.same i (h.region_size hf hi), hdrop.same i, hcut.same i (.inr habove)]
      · intro m hlo hhi hpos
        have hm : m < maxLen := by omega
        exact h.region_apart hf (valid_blockSlot hm (has_of_blockOf hpos)) hi
      · rw [nbitmap_of_nblocksOf hcut.nblocks]
        exact .inr habove
      · exact fun _ _ => h.region_apart hf (Slot.valid_indirect c f) hi
  · rw [if_neg hlt]
    have hr := h.resized hf w
    constructor
    · exact hr.tree
    · exact hr.kept
    · exact hr.size
    · exact hr.sizes
    · exact hr.super.nblocks
    · exact fun g hg m hm => .inl (hr.toInert.blockOf_same hg hm)
    · exact fun g hg => .inl (hr.indirect g hg)
    · exact fun b hb => hr.super.isFree.mpr hb
    · exact fun i hi => hr.same i (h.region_size hf hi)

lemma Tree.fileSetSize_sat (h : Tree c F len) (hf : f ∈ F) (hno : NoEntries c len f) (w : Word)
    (hs : s.content = c) :
    Sat (fileSetSize f w) s (fun _ t => t.content = Fs.sized c f w) NoMem := by
  have hfile := h.fileAt hf
  have hal := hfile.aligned
  have hblock : f / 4096 < maxBlocks := Nat.lt_of_lt_of_le hfile.inUse.1 h.super.size
  unfold fileSetSize
  rw [sat_bind]
  refine (loadWord_sat (by rw [hs]; exact h.super)
    (by rw [hs]; exact hfile.field (k := 128) (by decide))).post ?_
  rintro x t ⟨rfl, ht⟩
  have hct : t.content = c := ht.content.trans hs
  have hw : wordAt s.content (fSize f) = fileSize c f := by
    rw [hs]
    rfl
  -- the rest after the truncation
  have htail : ∀ (c₁ : ℕ → Byte) (u : Fs), Tree c₁ F len → u.content = c₁ → Sat (do
      storeWord (fSize f) w
      flushBlock f : FsM Unit) u (fun _ v => v.content = putWord c₁ (fSize f) w) NoMem := by
    intro c₁ u htree hu
    rw [sat_bind]
    refine (storeWord_sat (by rw [hu]; exact htree.super)
      (by rw [hu]; exact (htree.fileAt hf).field (k := 128) (by decide)) (by unfold fSize; omega) w).post ?_
    intro _ v hv
    refine (flushBlock_sat hblock).post ?_
    rintro - x rfl
    rw [content_flush, hv.content, hu]
  unfold Fs.sized
  rw [hw]
  by_cases hlt : w.slt (fileSize c f) = true
  · rw [if_pos hlt, if_pos hlt, sat_bind]
    refine (h.fileTruncateBlocks_sat hf hno w hct).post ?_
    intro _ u hu
    have hcut := h.cut_min hf hno (blocksFor w).toNat
      ((blocksFor (fileSize c f)).toNat - (blocksFor w).toNat)
    apply htail _ u ?_ hu
    exact (hcut.tree.dropped hf (hcut.kept.noEntries hf hno) _).tree
  · rw [if_neg hlt, if_neg hlt]
    exact htail c t h hct

/-! ### `file_write` -/

lemma Tree.tree_begun (h : Tree c F len) (hf : f ∈ F) (hno : NoEntries c len f) (stop : Word) :
    Tree (begun c f stop) F len ∧ Kept F len c (begun c f stop) ∧
      ∀ g ∈ F, g ≠ f → fileSize (begun c f stop) g = fileSize c g := by
  unfold begun
  split
  · have hsized := h.sized hf hno stop
    exact ⟨hsized.tree, hsized.kept, hsized.sizes⟩
  · exact ⟨h, Kept.refl F len c, fun _ _ _ => rfl⟩

/-- `file_write` up to its loop. -/
lemma Tree.fileWrite_begun (h : Tree c F len) (hf : f ∈ F) (hno : NoEntries c len f) (hs : s.content = c)
    (hstop : offset + BitVec.ofNat 32 buf.length = stop) {Q : Except ℤ ℕ → Fs → Prop}
    {E : FsExit → Fs → Prop} (hE : ∀ e t, NoMem e t → E e t)
    (hloop : ∀ u : Fs, u.content = begun c f stop → Sat (do
      match ← writeLoop f stop buf.length offset buf with
      | .error r => return .error r
      | .ok _ => return .ok buf.length : FsM (Except ℤ ℕ)) u Q E) :
    Sat (fileWrite f buf offset) s Q E := by
  unfold begun at hloop
  unfold fileWrite
  dsimp only
  rw [hstop, sat_bind]
  refine (loadWord_sat (by rw [hs]; exact h.super)
    (by rw [hs]; exact (h.fileAt hf).field (k := 128) (by decide))).mono ?_ hE
  rintro x t ⟨rfl, ht⟩
  have hct : t.content = c := ht.content.trans hs
  have hw : wordAt s.content (fSize f) = fileSize c f := by
    rw [hs]
    rfl
  rw [hw, sat_ite]
  constructor
  · intro hlt
    rw [if_pos hlt] at hloop
    rw [sat_bind]
    exact (h.fileSetSize_sat hf hno stop hct).mono (fun _ u hu => hloop u hu) hE
  · intro hge
    rw [if_neg hge] at hloop
    exact hloop t hct

end SistemasOperativos.Fs
