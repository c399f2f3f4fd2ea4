import SistemasOperativos.Fs.Growth
import Mathlib.Order.Interval.Finset.Nat

/-!
# A range of a file, block by block

What the loops of `file_read` and `file_write` make of the blocks that they pass: a block that is
missing is the next free one, with the contents that it had.
-/

namespace SistemasOperativos.Fs

open Library Kern

/-- The number of missing blocks of a file from `n₀` up to `m`. -/
def holes (c : ℕ → Byte) (f n₀ m : ℕ) : ℕ :=
  ((Finset.Ico n₀ m).filter (fun j => blockOf c f j = 0)).card

/-- The number of blocks that are taken for the blocks from `n₀` up to `m`. -/
def need (c : ℕ → Byte) (f n₀ m : ℕ) : ℕ :=
  holes c f n₀ m + if n₀ < m ∧ ndirect < m ∧ indirectOf c f = 0 then 1 else 0

/-- The free block that stands in for the missing block `j`, for a loop that begins at block `n₀`. -/
def standIn (c : ℕ → Byte) (f n₀ j : ℕ) : ℕ :=
  ((freeList c)[holes c f n₀ j + extra c f j]?).getD 0

/-- The block `j` of a file, for a loop that begins at block `n₀`. -/
def sourceBlock (c : ℕ → Byte) (f n₀ j : ℕ) : ℕ :=
  if blockOf c f j = 0 then standIn c f n₀ j else blockOf c f j

/-- The address of the position `p` of a file. -/
def posOf (c : ℕ → Byte) (f p : ℕ) : ℕ := 4096 * blockOf c f (p / 4096) + p % 4096

/-- The blocks of `f` from `n₀` up to `m` have been passed, the positions from `lo` up to `hi` hold
`data` now, and the size is `w`. -/
structure Passed (F : Set ℕ) (len : ℕ → ℕ) (f n₀ m lo hi : ℕ) (data : ℕ → Byte) (w : Word)
    (c c' : ℕ → Byte) : Prop where
  tree : Tree c' F len
  kept : Kept F len c c'
  size : fileSize c' f = w
  sizes : ∀ g ∈ F, g ≠ f → fileSize c' g = fileSize c g
  nblocks : nblocksOf c' = nblocksOf c
  blocks : ∀ g ∈ F, ∀ j < maxLen,
    blockOf c' g j = if g = f ∧ n₀ ≤ j ∧ j < m then sourceBlock c f n₀ j else blockOf c g j
  present : ∀ j, n₀ ≤ j → j < m → j < maxLen ∧ blockOf c' f j ≠ 0
  room : need c f n₀ m ≤ freeCount c
  list : freeList c' = (freeList c).drop (need c f n₀ m)
  indirect : ∀ g ∈ F, indirectOf c' g = indirectOf c g ∨
    (g = f ∧ indirectOf c f = 0 ∧ n₀ < m ∧ ndirect < m ∧ IsFree c (indirectOf c' g))
  covered : ∀ b, IsFree c b →
    IsFree c' b ∨ b = indirectOf c' f ∨ ∃ j, n₀ ≤ j ∧ j < m ∧ b = blockOf c' f j
  added : n₀ < m → ndirect < m → indirectOf c' f ≠ 0
  written : ∀ p, lo ≤ p → p < hi → c' (posOf c' f p) = data p
  same : ∀ i, DataBlock c F len (i / 4096) ∨ (IsFree c (i / 4096) ∧ i / 4096 ≠ indirectOf c' f) →
    (∀ p, lo ≤ p → p < hi → i ≠ posOf c' f p) → c' i = c i

variable {c c' c'' : ℕ → Byte} {F : Set ℕ} {len : ℕ → ℕ} {s t : Fs} {a b d f g i j m n n₀ p lo hi : ℕ}
  {data : ℕ → Byte} {w : Word}

/-! ### Counting -/

lemma holes_self (c : ℕ → Byte) (f n : ℕ) : holes c f n n = 0 := by
  unfold holes
  rw [Finset.Ico_self]
  rfl

lemma holes_succ (h : n₀ ≤ m) :
    holes c f n₀ (m + 1) = holes c f n₀ m + if blockOf c f m = 0 then 1 else 0 := by
  have hset : Finset.Ico n₀ (m + 1) = insert m (Finset.Ico n₀ m) := by
    ext j
    rw [Finset.mem_insert, Finset.mem_Ico, Finset.mem_Ico]
    omega
  unfold holes
  rw [hset, Finset.filter_insert]
  by_cases hzero : blockOf c f m = 0
  · rw [if_pos hzero, if_pos hzero, Finset.card_insert_of_notMem]
    simp
  · rw [if_neg hzero, if_neg hzero, Nat.add_zero]

lemma need_self (c : ℕ → Byte) (f n : ℕ) : need c f n n = 0 := by
  unfold need
  rw [holes_self, if_neg (fun h => Nat.lt_irrefl n h.1)]

/-- What is wanted for the next block, after the blocks before it. -/
lemma need_succ (h : n₀ ≤ m) (hzero : blockOf c f m = 0) :
    need c f n₀ (m + 1) = holes c f n₀ m + extra c f m + 1 := by
  unfold need extra
  rw [holes_succ h, if_pos hzero]
  by_cases hind : ndirect ≤ m ∧ indirectOf c f = 0
  · rw [if_pos hind, if_pos ⟨by omega, by omega, hind.2⟩]
  · rw [if_neg hind, if_neg]
    rintro ⟨-, hlt, hzero⟩
    exact hind ⟨by omega, hzero⟩

lemma need_succ_of_ne (h : n₀ ≤ m) (hpos : blockOf c f m ≠ 0) :
    need c f n₀ (m + 1) = need c f n₀ m := by
  have hhas := has_of_blockOf hpos
  unfold need
  rw [holes_succ h, if_neg hpos]
  by_cases hind : indirectOf c f = 0
  · have hlt : m < ndirect := hhas.resolve_right (fun hne => hne hind)
    rw [if_neg, if_neg]
    · omega
    · omega
  · rw [if_neg (fun hand => hind hand.2.2), if_neg (fun hand => hind hand.2.2)]

/-! ### One block more -/

lemma Tree.passed_refl (h : Tree c F len) (f n₀ lo : ℕ) (data : ℕ → Byte) :
    Passed F len f n₀ n₀ lo lo data (fileSize c f) c c where
  tree := h
  kept := Kept.refl F len c
  size := rfl
  sizes _ _ _ := rfl
  nblocks := rfl
  blocks g _ j _ := by
    rw [if_neg]
    rintro ⟨-, hle, hlt⟩
    exact absurd hle (Nat.not_le.mpr hlt)
  present j hle hlt := absurd hle (Nat.not_le.mpr hlt)
  room := by
    rw [need_self]
    exact Nat.zero_le _
  list := by
    rw [need_self, List.drop_zero]
  indirect _ _ := .inl rfl
  covered _ hb := .inl hb
  added hlt := absurd hlt (Nat.lt_irrefl n₀)
  written p hlo hhi := absurd hlo (Nat.not_le.mpr hhi)
  same _ _ _ := rfl

namespace Passed

/-- The free blocks that the next block takes. -/
lemma need_add_extra (hp : Passed F len f n₀ m lo hi data w c c') (hf : f ∈ F) :
    need c f n₀ m + extra c' f m = holes c f n₀ m + extra c f m := by
  unfold need extra
  by_cases hind : indirectOf c f = 0
  · by_cases hpassed : n₀ < m ∧ ndirect < m
    · have hpos := hp.added hpassed.1 hpassed.2
      rw [if_pos ⟨hpassed.1, hpassed.2, hind⟩, if_neg (fun hand => hpos hand.2),
        if_pos ⟨Nat.le_of_lt hpassed.2, hind⟩]
    · have hsame : indirectOf c' f = indirectOf c f := by
        rcases hp.indirect f hf with heq | ⟨-, -, hlt, hlt', -⟩
        · exact heq
        · exact absurd ⟨hlt, hlt'⟩ hpassed
      rw [if_neg (fun hand => hpassed ⟨hand.1, hand.2.1⟩), hsame]
      omega
  · have hsame : indirectOf c' f = indirectOf c f := by
      rcases hp.indirect f hf with heq | ⟨-, hzero', -⟩
      · exact heq
      · exact absurd hzero' hind
    rw [if_neg (fun hand => hind hand.2.2), hsame]
    omega

/-- A block of a file that has been passed is where a loop finds it. -/
lemma posOf_congr (h : blockOf c' f (p / 4096) = blockOf c f (p / 4096)) : posOf c' f p = posOf c f p := by
  unfold posOf
  rw [h]

lemma dataBlock (hp : Passed F len f n₀ m lo hi data w c c') (hb : DataBlock c F len b) :
    DataBlock c' F len b := by
  obtain ⟨g, hg, j, hj, hdata, hpos, rfl⟩ := hb
  have hsame : blockOf c' g j = blockOf c g j := by
    rw [hp.blocks g hg j hj]
    split
    · rename_i h
      obtain ⟨rfl, -⟩ := h
      unfold sourceBlock
      rw [if_neg hpos]
    · rfl
  exact ⟨g, hg, j, hj, fun hdir => hdata ((hp.kept.isDir hg).mp hdir), hsame ▸ hpos, hsame.symm⟩

/-- The next block is there already. -/
lemma next_idle (hp : Passed F len f n₀ m lo hi data w c c') (hf : f ∈ F) (h : n₀ ≤ m) (hm : m < maxLen)
    (hpos : blockOf c' f m ≠ 0) : Passed F len f n₀ (m + 1) lo hi data w c c' := by
  have hsame : blockOf c' f m = blockOf c f m := by
    rw [hp.blocks f hf m hm, if_neg (fun hand => Nat.lt_irrefl m hand.2.2)]
  have hpos' : blockOf c f m ≠ 0 := hsame ▸ hpos
  constructor
  · exact hp.tree
  · exact hp.kept
  · exact hp.size
  · exact hp.sizes
  · exact hp.nblocks
  · intro g hg j hj
    rw [hp.blocks g hg j hj]
    by_cases hlast : g = f ∧ j = m
    · obtain ⟨rfl, rfl⟩ := hlast
      rw [if_neg (fun hand => Nat.lt_irrefl j hand.2.2), if_pos ⟨rfl, h, Nat.lt_succ_self j⟩]
      unfold sourceBlock
      rw [if_neg hpos']
    · have hiff : (g = f ∧ n₀ ≤ j ∧ j < m + 1) ↔ (g = f ∧ n₀ ≤ j ∧ j < m) := by omega
      simp only [hiff]
  · intro j hle hlt
    by_cases hj : j = m
    · rw [hj]
      exact ⟨hm, hpos⟩
    · exact hp.present j hle (by omega)
  · rw [need_succ_of_ne h hpos']
    exact hp.room
  · rw [need_succ_of_ne h hpos']
    exact hp.list
  · intro g hg
    rcases hp.indirect g hg with heq | ⟨hgf, hzero, hlt, hlt', hfree⟩
    · exact .inl heq
    · exact .inr ⟨hgf, hzero, by omega, by omega, hfree⟩
  · intro b hb
    rcases hp.covered b hb with hfree | heq | ⟨j, hle, hlt, heq⟩
    · exact .inl hfree
    · exact .inr (.inl heq)
    · exact .inr (.inr ⟨j, hle, by omega, heq⟩)
  · intro _ hlt'
    rcases has_of_blockOf hpos with hdirect | hind
    · omega
    · exact hind
  · exact hp.written
  · exact hp.same

/-- The next block is allocated. -/
lemma next_taken (hp : Passed F len f n₀ m lo hi data w c c') (ht : Tree c F len) (hf : f ∈ F)
    (hdata : IsDir c f → len f ≤ n₀) (h : n₀ ≤ m) (hm : m < maxLen)
    (hrange : ∀ p, lo ≤ p → p < hi → n₀ ≤ p / 4096 ∧ p / 4096 < m)
    (hzero : blockOf c' f m = 0) (hq : Filled F len f m c' c'') :
    Passed F len f n₀ (m + 1) lo hi data w c c'' := by
  have hzero' : blockOf c f m = 0 := by
    rw [← hzero, hp.blocks f hf m hm, if_neg (fun hand => Nat.lt_irrefl m hand.2.2)]
  have hwanted : wanted c' f m = extra c' f m + 1 := if_pos hzero
  have hneed : need c f n₀ (m + 1) = need c f n₀ m + wanted c' f m := by
    rw [need_succ h hzero', hwanted, ← hp.need_add_extra hf]
    omega
  have htaken : (freeList c)[holes c f n₀ m + extra c f m]? = some (blockOf c'' f m) := by
    have htaken := hq.taken hzero
    rw [hp.list, List.getElem?_drop, hp.need_add_extra hf] at htaken
    exact htaken
  have hstand : standIn c f n₀ m = blockOf c'' f m := by
    unfold standIn
    rw [htaken]
    rfl
  have hold : ∀ j, n₀ ≤ j → j < m → blockOf c'' f j = blockOf c' f j := fun j _ hlt =>
    hq.others f hf j (by omega) (fun hand => by omega)
  have hposOf : ∀ p, lo ≤ p → p < hi → posOf c'' f p = posOf c' f p := fun p hlo hhi =>
    posOf_congr (hold _ (hrange p hlo hhi).1 (hrange p hlo hhi).2)
  -- the indirect block that is there stays
  have hind : indirectOf c' f ≠ 0 → indirectOf c'' f = indirectOf c' f := by
    intro hpos
    rcases hq.indirect f hf with heq | ⟨-, hone, -⟩
    · exact heq
    · exact absurd (extra_eq_one.mp hone).2 hpos
  have hfree0 : ∀ b, IsFree c b → b ≠ 0 := by
    intro b hb hb0
    have hle := ht.super.le_of_isFree hb
    omega
  constructor
  · exact hq.tree
  · exact hp.kept.trans hq.kept
  · exact (hq.sizes f hf).trans hp.size
  · exact fun g hg hne => (hq.sizes g hg).trans (hp.sizes g hg hne)
  · exact hq.nblocks.trans hp.nblocks
  · intro g hg j hj
    by_cases hlast : g = f ∧ j = m
    · obtain ⟨rfl, rfl⟩ := hlast
      rw [if_pos ⟨rfl, h, Nat.lt_succ_self j⟩]
      unfold sourceBlock
      rw [if_pos hzero', hstand]
    · have hiff : (g = f ∧ n₀ ≤ j ∧ j < m + 1) ↔ (g = f ∧ n₀ ≤ j ∧ j < m) := by omega
      rw [hq.others g hg j hj hlast, hp.blocks g hg j hj]
      simp only [hiff]
  · intro j hle hlt
    by_cases hj : j = m
    · rw [hj]
      exact ⟨hm, hq.block⟩
    · rw [hold j hle (by omega)]
      exact hp.present j hle (by omega)
  · obtain ⟨hlt, -⟩ := List.getElem?_eq_some_iff.mp htaken
    rw [need_succ h hzero', freeCount_eq_length]
    exact hlt
  · rw [hneed, hq.list, hp.list, List.drop_drop]
  · intro g hg
    rcases hq.indirect g hg with heq | ⟨rfl, hone, hhead⟩
    · rw [heq]
      rcases hp.indirect g hg with heq' | ⟨hgf, hnone, hlt, hlt', hfree⟩
      · exact .inl heq'
      · exact .inr ⟨hgf, hnone, by omega, by omega, hfree⟩
    · obtain ⟨hge, hnone⟩ := extra_eq_one.mp hone
      have hfree : IsFree c (indirectOf c'' g) := by
        rw [← mem_freeList]
        have hmem := List.mem_of_getElem? hhead
        rw [hp.list] at hmem
        exact List.mem_of_mem_drop hmem
      refine .inr ⟨rfl, ?_, by omega, by omega, hfree⟩
      rcases hp.indirect g hf with heq | ⟨-, hnone', -⟩
      · rw [← heq]
        exact hnone
      · exact hnone'
  · intro b hb
    rcases hp.covered b hb with hfree | heq | ⟨j, hle, hlt, heq⟩
    · rcases hq.covered hf hfree with hfree | heq | heq
      · exact .inl hfree
      · exact .inr (.inl heq)
      · exact .inr (.inr ⟨m, h, Nat.lt_succ_self m, heq⟩)
    · rw [hind (by rw [← heq]; exact hfree0 b hb)]
      exact .inr (.inl heq)
    · exact .inr (.inr ⟨j, hle, by omega, by rw [hold j hle hlt, heq]⟩)
  · intro _ hlt'
    rcases has_of_blockOf hq.block with hdirect | hpos
    · omega
    · exact hpos
  · intro p hlo hhi
    rw [hposOf p hlo hhi]
    have hin := hrange p hlo hhi
    rw [hq.data]
    · exact hp.written p hlo hhi
    · refine ⟨f, hf, p / 4096, by omega, ?_, (hp.present _ hin.1 hin.2).2, ?_⟩
      · intro hdir
        exact (hdata ((hp.kept.isDir hf).mp hdir)).trans hin.1
      · unfold posOf
        omega
  · intro i hregion hout
    have hout' : ∀ p, lo ≤ p → p < hi → i ≠ posOf c' f p := by
      intro p hlo hhi
      rw [← hposOf p hlo hhi]
      exact hout p hlo hhi
    rcases hregion with hi | ⟨hi, hne⟩
    · rw [hq.data i (hp.dataBlock hi)]
      exact hp.same i (.inl hi) hout'
    · have hne' : i / 4096 ≠ indirectOf c' f := by
        by_cases hnone : indirectOf c' f = 0
        · rw [hnone]
          exact hfree0 _ hi
        · rw [← hind hnone]
          exact hne
      rw [← hp.same i (.inr ⟨hi, hne'⟩) hout']
      rcases hp.covered _ hi with hfree | heq | ⟨j, hle, hlt, heq⟩
      · exact hq.same i hfree hne
      · exact absurd heq hne'
      · apply hq.data
        refine ⟨f, hf, j, by omega, ?_, (hp.present j hle hlt).2, heq⟩
        intro hdir
        exact (hdata ((hp.kept.isDir hf).mp hdir)).trans hle

lemma next (hp : Passed F len f n₀ m lo hi data w c c') (ht : Tree c F len) (hf : f ∈ F)
    (hdata : IsDir c f → len f ≤ n₀) (h : n₀ ≤ m) (hm : m < maxLen)
    (hrange : ∀ p, lo ≤ p → p < hi → n₀ ≤ p / 4096 ∧ p / 4096 < m)
    (hq : Filled F len f m c' c'') : Passed F len f n₀ (m + 1) lo hi data w c c'' := by
  by_cases hzero : blockOf c' f m = 0
  · exact hp.next_taken ht hf hdata h hm hrange hzero hq
  · have heq := hq.idle hzero
    subst heq
    exact hp.next_idle hf h hm hzero

/-- A block that has been passed holds data of the file. -/
lemma dataBlock_of (hp : Passed F len f n₀ m lo hi data w c c') (hf : f ∈ F)
    (hdata : IsDir c f → len f ≤ n₀) (hle : n₀ ≤ j) (hlt : j < m) :
    DataBlock c' F len (blockOf c' f j) := by
  obtain ⟨hmax, hpos⟩ := hp.present j hle hlt
  refine ⟨f, hf, j, hmax, ?_, hpos, rfl⟩
  intro hdir
  exact (hdata ((hp.kept.isDir hf).mp hdir)).trans hle

lemma posOf_div (c : ℕ → Byte) (f p : ℕ) : posOf c f p / 4096 = blockOf c f (p / 4096) := by
  unfold posOf
  omega

/-- Positions of one block follow each other. -/
lemma posOf_add (h : p % 4096 + n < 4096) : posOf c f (p + n) = posOf c f p + n := by
  have hdiv : (p + n) / 4096 = p / 4096 := by omega
  unfold posOf
  rw [hdiv]
  omega

/-- Bytes are stored behind those that have been written. -/
lemma write (hp : Passed F len f n₀ m lo hi data w c c') (hf : f ∈ F)
    (hdata : IsDir c f → len f ≤ n₀) (hlo : n₀ ≤ lo / 4096) (hlohi : lo ≤ hi) (hlt : hi / 4096 < m)
    (bs : List Byte) (hfits : hi % 4096 + bs.length ≤ 4096)
    (hbs : ∀ k (hk : k < bs.length), bs[k] = data (hi + k)) :
    Passed F len f n₀ m lo (hi + bs.length) data w c (putBytes c' (posOf c' f hi) bs) := by
  have hle : n₀ ≤ hi / 4096 := hlo.trans (Nat.div_le_div_right hlohi)
  have hmax := (hp.present _ hle hlt).1
  have hblock := hp.dataBlock_of hf hdata hle hlt
  have hdiv := posOf_div c' f hi
  have hstart : posOf c' f hi % 4096 = hi % 4096 := by
    unfold posOf
    omega
  have hr : Rewritten F len (blockOf c' f (hi / 4096)) c' (putBytes c' (posOf c' f hi) bs) := by
    apply hp.tree.rewritten hblock
    intro i hi'
    apply putBytes_of_ne
    omega
  have hsame : ∀ g ∈ F, ∀ j < maxLen,
      blockOf (putBytes c' (posOf c' f hi) bs) g j = blockOf c' g j :=
    fun g hg j hj => hr.toInert.blockOf_same hg hj
  have hposOf : ∀ p, lo ≤ p → p < hi + bs.length →
      posOf (putBytes c' (posOf c' f hi) bs) f p = posOf c' f p :=
    fun p _ hhi => posOf_congr (hsame f hf _ (by omega))
  constructor
  · exact hr.tree
  · exact hp.kept.trans hr.kept
  · exact (hr.sizes f hf).trans hp.size
  · exact fun g hg hne => (hr.sizes g hg).trans (hp.sizes g hg hne)
  · exact hr.super.nblocks.trans hp.nblocks
  · exact fun g hg j hj => (hsame g hg j hj).trans (hp.blocks g hg j hj)
  · intro j hle' hlt'
    rw [hsame f hf j (hp.present j hle' hlt').1]
    exact hp.present j hle' hlt'
  · exact hp.room
  · rw [freeList_of_sameSuper hr.super]
    exact hp.list
  · intro g hg
    rw [hr.indirect g hg]
    exact hp.indirect g hg
  · intro b hb
    rcases hp.covered b hb with hfree | heq | ⟨j, hle', hlt', heq⟩
    · exact .inl (hr.super.isFree.mpr hfree)
    · exact .inr (.inl (by rw [hr.indirect f hf, heq]))
    · refine .inr (.inr ⟨j, hle', hlt', ?_⟩)
      rw [hsame f hf j (hp.present j hle' hlt').1, heq]
  · intro hlt hlt'
    rw [hr.indirect f hf]
    exact hp.added hlt hlt'
  · intro p hlo' hhi
    rw [hposOf p hlo' hhi]
    by_cases hold : p < hi
    · rw [← hp.written p hlo' hold]
      apply putBytes_of_ne
      have hdiv' := posOf_div c' f p
      by_cases hsameBlock : p / 4096 = hi / 4096
      · have hmod : posOf c' f p % 4096 = p % 4096 := by
          unfold posOf
          omega
        rw [hsameBlock] at hdiv'
        omega
      · have hne : blockOf c' f (p / 4096) ≠ blockOf c' f (hi / 4096) := by
          intro heq
          have hin : n₀ ≤ p / 4096 := hlo.trans (Nat.div_le_div_right hlo')
          have hpm : p / 4096 ≤ hi / 4096 := Nat.div_le_div_right (Nat.le_of_lt hold)
          have hinj := hp.tree.blockOf_inj hf hf (by omega) hmax
            (hp.present _ hin (by omega)).2 heq
          exact hsameBlock hinj.2
        omega
    · obtain ⟨k, rfl⟩ := Nat.exists_eq_add_of_le (Nat.not_lt.mp hold)
      have hk : k < bs.length := by omega
      rw [posOf_add (by omega), putBytes_of_lt hk]
      exact hbs k hk
  · intro i hregion hout
    rw [hr.indirect f hf] at hregion
    rw [putBytes_of_ne]
    · apply hp.same i hregion
      intro p hlo' hhi
      rw [← hposOf p hlo' (by omega)]
      exact hout p hlo' (by omega)
    · by_contra hin
      obtain ⟨k, hk⟩ := Nat.exists_eq_add_of_le (Nat.not_lt.mp (fun h => hin (.inl h)))
      apply hout (hi + k) (by omega) (by omega)
      rw [hposOf (hi + k) (by omega) (by omega), posOf_add (by omega)]
      exact hk

end Passed

/-! ### A new size -/

namespace Resized

variable {c₁ : ℕ → Byte}

lemma holes_eq (hr : Resized F len f w c c₁) (hg : g ∈ F) (hm : m ≤ maxLen) :
    holes c₁ g n₀ m = holes c g n₀ m := by
  unfold holes
  congr 1
  apply Finset.filter_congr
  intro j hj
  rw [Finset.mem_Ico] at hj
  rw [hr.toInert.blockOf_same hg (by omega)]

lemma need_eq (hr : Resized F len f w c c₁) (hg : g ∈ F) (hm : m ≤ maxLen) :
    need c₁ g n₀ m = need c g n₀ m := by
  unfold need
  rw [hr.holes_eq hg hm, hr.indirect g hg]

lemma freeList_eq (hr : Resized F len f w c c₁) : freeList c₁ = freeList c :=
  freeList_of_sameSuper hr.super

lemma freeCount_eq (hr : Resized F len f w c c₁) : freeCount c₁ = freeCount c :=
  freeCount_of_sameSuper hr.super

lemma extra_eq (hr : Resized F len f w c c₁) (hg : g ∈ F) : extra c₁ g m = extra c g m := by
  unfold extra
  rw [hr.indirect g hg]

lemma sourceBlock_eq (hr : Resized F len f w c c₁) (hg : g ∈ F) (hj : j < maxLen) :
    sourceBlock c₁ g n₀ j = sourceBlock c g n₀ j := by
  unfold sourceBlock standIn
  rw [hr.toInert.blockOf_same hg hj, hr.freeList_eq, hr.holes_eq hg (Nat.le_of_lt hj), hr.extra_eq hg]

/-- Contents and free blocks are the same. -/
lemma same_of_region (hr : Resized F len f w c c₁) (h : Tree c F len) (hf : f ∈ F)
    (hi : DataBlock c F len (i / 4096) ∨ IsFree c (i / 4096)) : c₁ i = c i := by
  have hfits := (h.fileAt hf).fits
  apply hr.same
  intro hword
  have hdiv : i / 4096 = f / 4096 := by
    unfold WordOf fSize at hword
    omega
  rcases hi with ⟨g, hg, j, hj, hdata, hpos, heq⟩ | hfree
  · exact h.place_ne_blockOf hg hj hpos hdata (h.home f hf) (hdiv.symm.trans heq)
  · rw [hdiv] at hfree
    exact not_isFree_of_inUse (h.fileAt hf).inUse hfree

lemma dataBlock (hr : Resized F len f w c c₁) (hb : DataBlock c F len b) :
    DataBlock c₁ F len b := by
  obtain ⟨g, hg, j, hj, hdata, hpos, rfl⟩ := hb
  have hsame := hr.toInert.blockOf_same hg hj
  exact ⟨g, hg, j, hj, fun hdir => hdata ((hr.kept.isDir hg).mp hdir), hsame ▸ hpos, hsame.symm⟩

/-- A range that is passed after the file has got its new size. -/
lemma passed (hr : Resized F len f w c c₁) (h : Tree c F len) (hf : f ∈ F)
    (hp : Passed F len f n₀ m lo hi data w c₁ c') : Passed F len f n₀ m lo hi data w c c' := by
  have hneed : need c₁ f n₀ m = need c f n₀ m := by
    by_cases hm : m ≤ maxLen
    · exact hr.need_eq hf hm
    · by_cases hlt : n₀ < m
      · have hmax := (hp.present (m - 1) (by omega) (by omega)).1
        omega
      · unfold need holes
        rw [Finset.Ico_eq_empty hlt, if_neg (fun hand => hlt hand.1), if_neg (fun hand => hlt hand.1)]
        rfl
  constructor
  · exact hp.tree
  · exact hr.kept.trans hp.kept
  · exact hp.size
  · exact fun g hg hne => (hp.sizes g hg hne).trans (hr.sizes g hg hne)
  · exact hp.nblocks.trans hr.super.nblocks
  · intro g hg j hj
    rw [hp.blocks g hg j hj, hr.sourceBlock_eq hf hj, hr.toInert.blockOf_same hg hj]
  · exact hp.present
  · rw [← hneed, ← hr.freeCount_eq]
    exact hp.room
  · rw [hp.list, hr.freeList_eq, hneed]
  · intro g hg
    have hind := hp.indirect g hg
    rw [hr.indirect g hg, hr.indirect f hf, hr.super.isFree] at hind
    exact hind
  · exact fun b hb => hp.covered b (hr.super.isFree.mpr hb)
  · exact hp.added
  · exact hp.written
  · intro i hi hout
    rw [hp.same i (hi.imp hr.dataBlock (fun hand => ⟨hr.super.isFree.mpr hand.1, hand.2⟩)) hout]
    exact hr.same_of_region h hf (hi.imp id And.left)

end Resized

end SistemasOperativos.Fs
