import SistemasOperativos.Fs.Wellformed

/-!
# Changes of a well-formed disk

The places of the files and of their block numbers are apart, so that the change of one word is the
change of one field.
-/

namespace SistemasOperativos.Fs

open Library Kern

variable {c c' c'' : ℕ → Byte} {F : Set ℕ} {len : ℕ → ℕ} {P : ℕ → Prop} {a b d e f g i j n v : ℕ}
  {p q : Slot}

/-! ### Places -/

/-- `f` is the root or an entry of a directory. -/
def Place (c : ℕ → Byte) (F : Set ℕ) (len : ℕ → ℕ) (f : ℕ) : Prop :=
  f = rootAddr ∨ ∃ d ∈ F, IsDir c d ∧ EntryOf c (len d) d f

lemma Tree.fileAt_place (h : Tree c F len) (hf : Place c F len f) : FileAt c f := by
  rcases hf with rfl | ⟨d, hd, hdir, he⟩
  · exact h.fileAt h.root
  · exact h.fileAt_entry hd hdir he

lemma Tree.place_mod (h : Tree c F len) (hf : Place c F len f) :
    f = rootAddr ∨ (f % 256 = 0 ∧ 8192 ≤ f) := by
  rcases hf with rfl | ⟨d, hd, hdir, n, hn, hmax, j, hj, rfl⟩
  · exact .inl rfl
  · have hle := (h.dirBlock hd hdir hn hmax).1
    right
    unfold entryAt sizeofFile
    omega

/-- Two files do not overlap. -/
lemma Tree.apart (h : Tree c F len) (hf : Place c F len f) (hg : Place c F len g) (hne : f ≠ g) :
    f + 256 ≤ g ∨ g + 256 ≤ f := by
  rcases h.place_mod hf with rfl | hf
  · rcases h.place_mod hg with rfl | hg
    · exact absurd rfl hne
    · unfold rootAddr
      omega
  · rcases h.place_mod hg with rfl | hg
    · unfold rootAddr
      omega
    · omega

/-- A slot is in its file or in the indirect block of its file. -/
lemma slotAddr_cases (hp : p.Valid c f) :
    (p = .indirect ∨ ∃ i < ndirect, p = .direct i) ∧ f + 136 ≤ slotAddr c f p ∧
      slotAddr c f p + 4 ≤ f + 180 ∨
    (∃ i < nindirect, p = .entry i) ∧ indirectOf c f ≠ 0 ∧
      slotAddr c f p / 4096 = indirectOf c f := by
  cases p with
  | direct i =>
    have hi : i < 10 := hp
    rw [slotAddr_direct]
    exact .inl ⟨.inr ⟨i, hp, rfl⟩, by omega, by omega⟩
  | indirect =>
    rw [slotAddr_indirect]
    exact .inl ⟨.inl rfl, by omega, by omega⟩
  | entry i =>
    have hi : i < 1024 := hp.1
    rw [slotAddr_entry]
    exact .inr ⟨⟨i, hp.1, rfl⟩, hp.2, by omega⟩

lemma slotAddr_mod (hf : FileAt c f) : slotAddr c f p % 4 = 0 := by
  have hal := hf.aligned
  cases p with
  | direct i =>
    rw [slotAddr_direct]
    omega
  | indirect =>
    rw [slotAddr_indirect]
    omega
  | entry i =>
    rw [slotAddr_entry]
    omega

lemma Tree.slotAt (h : Tree c F len) (hf : f ∈ F) (hp : p.Valid c f) :
    SlotAt c (slotAddr c f p) := by
  have hfile := h.fileAt hf
  have hmod := slotAddr_mod (p := p) hfile
  rcases slotAddr_cases hp with ⟨-, hlo, hhi⟩ | ⟨-, hpos, hdiv⟩
  · obtain ⟨k, hk⟩ := Nat.exists_eq_add_of_le hlo
    rw [Nat.add_assoc] at hk
    have huse := hfile.field (k := 136 + k) (by omega)
    have hclear := hfile.clear (k := 136 + k) (by omega)
    rw [← hk] at huse hclear
    exact ⟨huse, hmod, hclear⟩
  · obtain ⟨hle, huse⟩ := h.slots f hf .indirect (Slot.valid_indirect c f) hpos
    rw [ptr_indirect] at hle huse
    refine ⟨?_, hmod, .inr ?_⟩
    · rw [hdiv]
      exact huse
    · omega

/-- Two slots are two words. -/
lemma Tree.slotAddr_inj (h : Tree c F len) (hf : f ∈ F) (hg : g ∈ F) (hp : p.Valid c f)
    (hq : q.Valid c g) (heq : slotAddr c f p = slotAddr c g q) : f = g ∧ p = q := by
  have hplace := h.home f hf
  have hplace' := h.home g hg
  have hfits := (h.fileAt hf).fits
  have hfits' := (h.fileAt hg).fits
  rcases slotAddr_cases hp with ⟨hkind, hlo, hhi⟩ | ⟨⟨i, hi, rfl⟩, hpos, hdiv⟩
  · rcases slotAddr_cases hq with ⟨hkind', hlo', hhi'⟩ | ⟨-, hpos', hdiv'⟩
    · have hfg : f = g := by
        by_contra hne
        rcases h.apart hplace hplace' hne with hapart | hapart
        · omega
        · omega
      subst hfg
      refine ⟨rfl, ?_⟩
      rcases hkind with rfl | ⟨i, hi, rfl⟩
      · rcases hkind' with rfl | ⟨k, hk, rfl⟩
        · rfl
        · rw [slotAddr_indirect, slotAddr_direct] at heq
          unfold ndirect at hk
          omega
      · rcases hkind' with rfl | ⟨k, hk, rfl⟩
        · rw [slotAddr_indirect, slotAddr_direct] at heq
          unfold ndirect at hi
          omega
        · rw [slotAddr_direct, slotAddr_direct] at heq
          have hik : i = k := by omega
          rw [hik]
    · have hne := h.indirect_ne hg hpos' hplace
      omega
  · rcases slotAddr_cases hq with ⟨-, hlo', hhi'⟩ | ⟨⟨k, hk, rfl⟩, hpos', hdiv'⟩
    · have hne := h.indirect_ne hf hpos hplace'
      omega
    · have hind : indirectOf c f = indirectOf c g := by omega
      obtain ⟨rfl, -⟩ := h.inj f hf g hg .indirect .indirect (Slot.valid_indirect c f)
        (Slot.valid_indirect c g) hpos hind
      rw [slotAddr_entry, slotAddr_entry] at heq
      have hik : i = k := by omega
      rw [hik]
      exact ⟨rfl, rfl⟩

/-! ### What a change leaves -/

/-- A change that leaves the bytes of blocks in use alone, but for those that satisfy `P`. -/
structure Change (c c' : ℕ → Byte) (P : ℕ → Prop) : Prop where
  super : SuperOk c'
  nblocks : nblocksOf c' = nblocksOf c
  same : ∀ i, InUse c (i / 4096) → (4104 ≤ i ∧ i < 8192) ∨ 4096 * (2 + nbitmap c) ≤ i → ¬P i →
    c' i = c i

/-- The bytes of the word at `a`. -/
def WordOf (a i : ℕ) : Prop := a ≤ i ∧ i < a + 4

lemma Change.word (hc : Change c c' P) (huse : InUse c (a / 4096)) (hclear : Clear c a)
    (hal : a % 4 = 0) (hP : ∀ i, a ≤ i → i < a + 4 → ¬P i) : wordAt c' a = wordAt c a := by
  apply wordAt_congr
  intro i hi hi'
  have hdiv : i / 4096 = a / 4096 := by omega
  apply hc.same i
  · rw [hdiv]
    exact huse
  · unfold Clear at hclear
    omega
  · exact hP i hi hi'

lemma Change.slot (hc : Change c c' P) (ha : SlotAt c a) (hP : ∀ i, a ≤ i → i < a + 4 → ¬P i) :
    wordAt c' a = wordAt c a := hc.word ha.inUse ha.clear ha.aligned hP

lemma Change.field {k : ℕ} (hc : Change c c' P) (hf : FileAt c f) (hk : k + 4 ≤ 256)
    (hal : k % 4 = 0) (hP : ∀ i, f + k ≤ i → i < f + k + 4 → ¬P i) :
    wordAt c' (f + k) = wordAt c (f + k) := by
  have hf4 := hf.aligned
  exact hc.word (hf.field (by omega)) (hf.clear hk) (by omega) hP

lemma Change.byte (hc : Change c c' P) (hf : FileAt c f) (hi : i < 256) (hP : ¬P (f + i)) :
    c' (f + i) = c (f + i) := by
  apply hc.same
  · exact hf.field hi
  · have hfits := hf.fits
    rcases hf.place with rfl | hle
    · unfold rootAddr
      omega
    · omega
  · exact hP

/-- The directories and their entries are where they were, with the same names. -/
structure Kept (F : Set ℕ) (len : ℕ → ℕ) (c c' : ℕ → Byte) : Prop where
  types : ∀ f ∈ F, fileType c' f = fileType c f
  blocks : ∀ d ∈ F, IsDir c d → ∀ n < len d, n < maxLen →
    ptr c' d (blockSlot n) = ptr c d (blockSlot n)
  names : ∀ f, Place c F len f → ∀ i < maxnamelen, c' (f + i) = c (f + i)

lemma Kept.refl (F : Set ℕ) (len : ℕ → ℕ) (c : ℕ → Byte) : Kept F len c c :=
  ⟨fun _ _ => rfl, fun _ _ _ _ _ _ => rfl, fun _ _ _ _ => rfl⟩

lemma Kept.isDir (hk : Kept F len c c') (hf : f ∈ F) : IsDir c' f ↔ IsDir c f := by
  unfold IsDir
  rw [hk.types f hf]

lemma Kept.entryOf (hk : Kept F len c c') (hd : d ∈ F) (hdir : IsDir c d) :
    EntryOf c' (len d) d e ↔ EntryOf c (len d) d e := by
  have hat : ∀ n < len d, n < maxLen → ∀ j, entryAt c' d n j = entryAt c d n j := by
    intro n hn hmax j
    unfold entryAt
    rw [hk.blocks d hd hdir n hn hmax]
  constructor
  · rintro ⟨n, hn, hmax, j, hj, rfl⟩
    exact ⟨n, hn, hmax, j, hj, hat n hn hmax j⟩
  · rintro ⟨n, hn, hmax, j, hj, rfl⟩
    exact ⟨n, hn, hmax, j, hj, (hat n hn hmax j).symm⟩

lemma Kept.place (hk : Kept F len c c') : Place c' F len f ↔ Place c F len f := by
  constructor
  · rintro (rfl | ⟨d, hd, hdir, he⟩)
    · exact .inl rfl
    · have hdir := (hk.isDir hd).mp hdir
      exact .inr ⟨d, hd, hdir, (hk.entryOf hd hdir).mp he⟩
  · rintro (rfl | ⟨d, hd, hdir, he⟩)
    · exact .inl rfl
    · exact .inr ⟨d, hd, (hk.isDir hd).mpr hdir, (hk.entryOf hd hdir).mpr he⟩

lemma Kept.trans (hk : Kept F len c c') (hk' : Kept F len c' c'') : Kept F len c c'' where
  types f hf := (hk'.types f hf).trans (hk.types f hf)
  blocks d hd hdir n hn hmax :=
    (hk'.blocks d hd ((hk.isDir hd).mpr hdir) n hn hmax).trans (hk.blocks d hd hdir n hn hmax)
  names f hf i hi := (hk'.names f (hk.place.mpr hf) i hi).trans (hk.names f hf i hi)

/-- A tree stays one when every block number is an old one, or a free block in the slot `q` of
`g`. -/
lemma Tree.change (h : Tree c F len) (hs : SuperOk c') (hnb : nblocksOf c' = nblocksOf c)
    (htypes : ∀ f ∈ F, fileType c' f = fileType c f)
    (hblocks : ∀ d ∈ F, IsDir c d → ∀ n < len d, n < maxLen →
      ptr c' d (blockSlot n) = ptr c d (blockSlot n))
    (hnames : ∀ f, Place c F len f → c' f ≠ 0 → c f ≠ 0 ∨ f ∈ F)
    (hterm : ∀ f ∈ F, ∃ i < maxnamelen, c' (f + i) = 0)
    (hind : ∀ d ∈ F, IsDir c d → ndirect < len d → indirectOf c d ≠ 0 → indirectOf c' d ≠ 0)
    (hptr : ∀ f ∈ F, ∀ p : Slot, p.Valid c' f → ptr c' f p ≠ 0 →
      (p.Valid c f ∧ ptr c' f p = ptr c f p ∧ InUse c' (ptr c f p)) ∨
      (f = g ∧ p = q ∧ IsFree c (ptr c' f p) ∧ InUse c' (ptr c' f p))) : Tree c' F len := by
  have hbm : nbitmap c' = nbitmap c := nbitmap_of_nblocksOf hnb
  have hisDir : ∀ f ∈ F, IsDir c' f ↔ IsDir c f := by
    intro f hf
    unfold IsDir
    rw [htypes f hf]
  have hentry : ∀ d ∈ F, IsDir c d → ∀ e, EntryOf c' (len d) d e ↔ EntryOf c (len d) d e := by
    intro d hd hdir e
    have hat : ∀ n < len d, n < maxLen → ∀ j, entryAt c' d n j = entryAt c d n j := by
      intro n hn hmax j
      unfold entryAt
      rw [hblocks d hd hdir n hn hmax]
    constructor
    · rintro ⟨n, hn, hmax, j, hj, rfl⟩
      exact ⟨n, hn, hmax, j, hj, hat n hn hmax j⟩
    · rintro ⟨n, hn, hmax, j, hj, rfl⟩
      exact ⟨n, hn, hmax, j, hj, (hat n hn hmax j).symm⟩
  constructor
  · exact hs
  · exact h.root
  · exact (hisDir rootAddr h.root).mpr h.rootDir
  · intro f hf
    rcases h.home f hf with rfl | ⟨d, hd, hdir, he⟩
    · exact .inl rfl
    · exact .inr ⟨d, hd, (hisDir d hd).mpr hdir, (hentry d hd hdir f).mpr he⟩
  · intro d hd hdir e he hne
    have hdir := (hisDir d hd).mp hdir
    have he := (hentry d hd hdir e).mp he
    rcases hnames e (.inr ⟨d, hd, hdir, he⟩) hne with hne | hmem
    · exact h.named d hd hdir e he hne
    · exact hmem
  · exact hterm
  · intro f hf p hp hpos
    rw [hbm]
    rcases hptr f hf p hp hpos with ⟨hold, heq, huse⟩ | ⟨-, -, hfree, huse⟩
    · rw [heq] at hpos ⊢
      exact ⟨(h.slots f hf p hold hpos).1, huse⟩
    · exact ⟨h.super.le_of_isFree hfree, huse⟩
  · intro f hf f' hf' p p' hp hp' hpos heq
    have hpos' : ptr c' f' p' ≠ 0 := heq ▸ hpos
    rcases hptr f hf p hp hpos with ⟨hold, hsame, -⟩ | ⟨rfl, rfl, hfree, -⟩
    · rcases hptr f' hf' p' hp' hpos' with ⟨hold', hsame', -⟩ | ⟨-, -, hfree, -⟩
      · rw [hsame] at hpos
        rw [hsame, hsame'] at heq
        exact h.inj f hf f' hf' p p' hold hold' hpos heq
      · rw [← heq, hsame] at hfree
        rw [hsame] at hpos
        exact absurd hfree (not_isFree_of_inUse (h.slots f hf p hold hpos).2)
    · rcases hptr f' hf' p' hp' hpos' with ⟨hold', hsame', -⟩ | ⟨rfl, rfl, -, -⟩
      · rw [heq, hsame'] at hfree
        rw [hsame'] at hpos'
        exact absurd hfree (not_isFree_of_inUse (h.slots f' hf' p' hold' hpos').2)
      · exact ⟨rfl, rfl⟩
  · intro d hd hdir hlt
    have hdir := (hisDir d hd).mp hdir
    exact hind d hd hdir hlt (h.indirect d hd hdir hlt)
  · intro d hd hdir n hn hmax
    have hdir := (hisDir d hd).mp hdir
    rw [hblocks d hd hdir n hn hmax]
    exact h.present d hd hdir n hn hmax

/-- The same when the names are kept. -/
lemma Tree.kept (h : Tree c F len) (hk : Kept F len c c') (hs : SuperOk c')
    (hnb : nblocksOf c' = nblocksOf c)
    (hind : ∀ d ∈ F, IsDir c d → ndirect < len d → indirectOf c d ≠ 0 → indirectOf c' d ≠ 0)
    (hptr : ∀ f ∈ F, ∀ p : Slot, p.Valid c' f → ptr c' f p ≠ 0 →
      (p.Valid c f ∧ ptr c' f p = ptr c f p ∧ InUse c' (ptr c f p)) ∨
      (f = g ∧ p = q ∧ IsFree c (ptr c' f p) ∧ InUse c' (ptr c' f p))) : Tree c' F len := by
  apply h.change hs hnb hk.types hk.blocks ?_ ?_ hind hptr
  · intro f hf hne
    have hzero := hk.names f hf 0 (by decide)
    rw [Nat.add_zero] at hzero
    rw [hzero] at hne
    exact .inl hne
  · intro f hf
    obtain ⟨i, hi, hzero⟩ := h.terminated f hf
    exact ⟨i, hi, by rw [hk.names f (h.home f hf) i hi, hzero]⟩

/-! ### Changes that leave the block numbers alone -/

lemma slotAddr_of_indirectOf (hind : indirectOf c' f = indirectOf c f) (p : Slot) :
    slotAddr c' f p = slotAddr c f p := by
  cases p with
  | direct i => rfl
  | indirect => rfl
  | entry i => rw [slotAddr_entry, slotAddr_entry, hind]

lemma valid_of_indirectOf (hind : indirectOf c' f = indirectOf c f) :
    p.Valid c' f ↔ p.Valid c f := by
  cases p with
  | direct i => exact Iff.rfl
  | indirect => exact Iff.rfl
  | entry i =>
    unfold Slot.Valid
    rw [hind]

lemma Tree.ptr_same (h : Tree c F len) (hc : Change c c' P) (hf : f ∈ F) (hp : p.Valid c f)
    (haddr : slotAddr c' f p = slotAddr c f p)
    (hP : ∀ i, slotAddr c f p ≤ i → i < slotAddr c f p + 4 → ¬P i) : ptr c' f p = ptr c f p := by
  unfold ptr
  rw [haddr, hc.slot (h.slotAt hf hp) hP]

/-- The bytes of block numbers and types. -/
structure Untouched (c : ℕ → Byte) (F : Set ℕ) (P : ℕ → Prop) : Prop where
  fields : ∀ f ∈ F, ∀ i, 132 ≤ i → i < 180 → ¬P (f + i)
  indirect : ∀ f ∈ F, indirectOf c f ≠ 0 → ∀ i, i / 4096 = indirectOf c f → ¬P i

lemma Tree.type_same (h : Tree c F len) (hc : Change c c' P) (hP : Untouched c F P) (hf : f ∈ F) :
    fileType c' f = fileType c f := by
  unfold fileType fType
  apply hc.field (h.fileAt hf) (by decide) (by decide)
  intro i hi hi'
  obtain ⟨k, rfl⟩ := Nat.exists_eq_add_of_le (Nat.le_trans (Nat.le_add_right f 132) hi)
  exact hP.fields f hf k (by omega) (by omega)

lemma Tree.indirectOf_same (h : Tree c F len) (hc : Change c c' P) (hP : Untouched c F P)
    (hf : f ∈ F) : indirectOf c' f = indirectOf c f := by
  unfold indirectOf fIndirect
  rw [hc.field (h.fileAt hf) (by decide) (by decide)]
  intro i hi hi'
  obtain ⟨k, rfl⟩ := Nat.exists_eq_add_of_le (Nat.le_trans (Nat.le_add_right f 176) hi)
  exact hP.fields f hf k (by omega) (by omega)

lemma Tree.ptr_untouched (h : Tree c F len) (hc : Change c c' P) (hP : Untouched c F P) (hf : f ∈ F)
    (hp : p.Valid c f) : ptr c' f p = ptr c f p := by
  apply h.ptr_same hc hf hp
  · exact slotAddr_of_indirectOf (h.indirectOf_same hc hP hf) p
  · intro i hi hi'
    rcases slotAddr_cases hp with ⟨-, hlo, hhi⟩ | ⟨-, hpos, hdiv⟩
    · obtain ⟨k, rfl⟩ := Nat.exists_eq_add_of_le (Nat.le_trans (Nat.le_add_right f 136) (hlo.trans hi))
      exact hP.fields f hf k (by omega) (by omega)
    · have hal := (h.slotAt hf hp).aligned
      exact hP.indirect f hf hpos i (by omega)

lemma Tree.untouched (h : Tree c F len) (hc : Change c c' P) (hP : Untouched c F P)
    (huse : ∀ b, InUse c b → InUse c' b)
    (hnames : ∀ f, Place c F len f → c' f ≠ 0 → c f ≠ 0 ∨ f ∈ F)
    (hterm : ∀ f ∈ F, ∃ i < maxnamelen, c' (f + i) = 0) : Tree c' F len := by
  apply h.change (g := rootAddr) (q := .indirect) hc.super hc.nblocks
  · exact fun f hf => h.type_same hc hP hf
  · exact fun d hd hdir n hn hmax => h.ptr_untouched hc hP hd (h.valid hd hdir hn hmax)
  · exact hnames
  · exact hterm
  · intro d hd _ _ hpos
    rw [h.indirectOf_same hc hP hd]
    exact hpos
  · intro f hf p hp hpos
    have hvalid := (valid_of_indirectOf (h.indirectOf_same hc hP hf)).mp hp
    have hsame := h.ptr_untouched hc hP hf hvalid
    rw [hsame] at hpos
    exact .inl ⟨hvalid, hsame, huse _ (h.slots f hf p hvalid hpos).2⟩

lemma Tree.kept_untouched (h : Tree c F len) (hc : Change c c' P) (hP : Untouched c F P)
    (hnames : ∀ f, Place c F len f → ∀ i < maxnamelen, ¬P (f + i)) : Kept F len c c' where
  types f hf := h.type_same hc hP hf
  blocks d hd hdir n hn hmax := h.ptr_untouched hc hP hd (h.valid hd hdir hn hmax)
  names f hf i hi :=
    hc.byte (h.fileAt_place hf) (Nat.lt_trans hi (by decide)) (hnames f hf i hi)

/-- A change that touches neither names nor block numbers. -/
lemma Tree.tree_untouched (h : Tree c F len) (hc : Change c c' P) (hP : Untouched c F P)
    (hnames : ∀ f, Place c F len f → ∀ i < maxnamelen, ¬P (f + i))
    (huse : ∀ b, InUse c b → InUse c' b) : Tree c' F len ∧ Kept F len c c' := by
  have hk := h.kept_untouched hc hP hnames
  refine ⟨?_, hk⟩
  apply h.untouched hc hP huse
  · intro f hf hne
    have hzero := hk.names f hf 0 (by decide)
    rw [Nat.add_zero] at hzero
    rw [hzero] at hne
    exact .inl hne
  · intro f hf
    obtain ⟨i, hi, hzero⟩ := h.terminated f hf
    exact ⟨i, hi, by rw [hk.names f (h.home f hf) i hi, hzero]⟩

/-! ### Changes of a block number -/

lemma not_wordOf (ha : a % 4 = 0) (hb : b % 4 = 0) (hne : b ≠ a) (hi : b ≤ i) (hi' : i < b + 4) :
    ¬WordOf a i := by
  unfold WordOf
  omega

/-- A slot holds neither a byte of a name nor a size or a type. -/
lemma Tree.not_wordOf_slot (h : Tree c F len) (hf : Place c F len f) (hg : g ∈ F)
    (hq : q.Valid c g) (hi : i < 136) : ¬WordOf (slotAddr c g q) (f + i) := by
  have hfits := (h.fileAt_place hf).fits
  unfold WordOf
  rcases slotAddr_cases hq with ⟨-, hlo, hhi⟩ | ⟨-, hpos, hdiv⟩
  · by_cases hfg : f = g
    · subst hfg
      omega
    · rcases h.apart hf (h.home g hg) hfg with hapart | hapart
      · omega
      · omega
  · have hne := h.indirect_ne hg hpos hf
    have hal := (h.slotAt hg hq).aligned
    omega

lemma Tree.type_slot (h : Tree c F len) (hg : g ∈ F) (hq : q.Valid c g)
    (hc : Change c c' (WordOf (slotAddr c g q))) (hf : f ∈ F) :
    fileType c' f = fileType c f ∧ fileSize c' f = fileSize c f := by
  unfold fileType fileSize fType fSize
  constructor
  · apply hc.field (h.fileAt hf) (by decide) (by decide)
    intro i hi hi'
    obtain ⟨k, rfl⟩ := Nat.exists_eq_add_of_le (Nat.le_trans (Nat.le_add_right f 132) hi)
    exact h.not_wordOf_slot (h.home f hf) hg hq (by omega)
  · apply hc.field (h.fileAt hf) (by decide) (by decide)
    intro i hi hi'
    obtain ⟨k, rfl⟩ := Nat.exists_eq_add_of_le (Nat.le_trans (Nat.le_add_right f 128) hi)
    exact h.not_wordOf_slot (h.home f hf) hg hq (by omega)

/-- The other slots are as they were. -/
lemma Tree.ptr_slot (h : Tree c F len) (hg : g ∈ F) (hq : q.Valid c g)
    (hc : Change c c' (WordOf (slotAddr c g q))) (hf : f ∈ F) (hp : p.Valid c f)
    (hne : ¬(f = g ∧ p = q)) (haddr : slotAddr c' f p = slotAddr c f p) :
    ptr c' f p = ptr c f p := by
  apply h.ptr_same hc hf hp haddr
  intro i hi hi'
  apply not_wordOf (h.slotAt hg hq).aligned (h.slotAt hf hp).aligned ?_ hi hi'
  exact fun heq => hne (h.slotAddr_inj hf hg hp hq heq)

lemma Tree.kept_slot (h : Tree c F len) (hg : g ∈ F) (hq : q.Valid c g)
    (hc : Change c c' (WordOf (slotAddr c g q)))
    (hblocks : ∀ d ∈ F, IsDir c d → ∀ n < len d, n < maxLen →
      ptr c' d (blockSlot n) = ptr c d (blockSlot n)) : Kept F len c c' where
  types f hf := (h.type_slot hg hq hc hf).1
  blocks := hblocks
  names f hf i hi := by
    unfold maxnamelen at hi
    exact hc.byte (h.fileAt_place hf) (by omega) (h.not_wordOf_slot hf hg hq (by omega))

/-- A block number other than that of an indirect block changes. -/
lemma Tree.putSlot (h : Tree c F len) (hg : g ∈ F) (hq : q.Valid c g) (hne : q ≠ .indirect)
    (hc : Change c c' (WordOf (slotAddr c g q))) (hv : (wordAt c' (slotAddr c g q)).toNat = v)
    (hnew : v = 0 ∨ (IsFree c v ∧ InUse c' v))
    (huse : ∀ b, b ≠ 0 → InUse c b → b ≠ ptr c g q → InUse c' b)
    (hdir : IsDir c g → ∀ n < len g, n < maxLen → q ≠ blockSlot n) :
    Tree c' F len ∧ Kept F len c c' := by
  have hind : ∀ f ∈ F, indirectOf c' f = indirectOf c f := by
    intro f hf
    have hsame : ptr c' f .indirect = ptr c f .indirect :=
      h.ptr_slot hg hq hc hf (Slot.valid_indirect c f) (fun heq => hne heq.2.symm) rfl
    rw [ptr_indirect, ptr_indirect] at hsame
    exact hsame
  have haddr : ∀ f ∈ F, ∀ p, slotAddr c' f p = slotAddr c f p :=
    fun f hf p => slotAddr_of_indirectOf (hind f hf) p
  have hk : Kept F len c c' := by
    apply h.kept_slot hg hq hc
    intro d hd hisDir n hn hmax
    apply h.ptr_slot hg hq hc hd (h.valid hd hisDir hn hmax) ?_ (haddr d hd _)
    rintro ⟨rfl, heq⟩
    exact hdir hisDir n hn hmax heq.symm
  refine ⟨?_, hk⟩
  apply h.kept (g := g) (q := q) hk hc.super hc.nblocks
  · intro d hd _ _ hpos
    rw [hind d hd]
    exact hpos
  · intro f hf p hp hpos
    have hvalid := (valid_of_indirectOf (hind f hf)).mp hp
    by_cases heq : f = g ∧ p = q
    · obtain ⟨rfl, rfl⟩ := heq
      have hptr : ptr c' f p = v := by
        unfold ptr
        rw [haddr f hf p, hv]
      rw [hptr] at hpos ⊢
      exact .inr ⟨rfl, rfl, hnew.resolve_left hpos⟩
    · have hsame := h.ptr_slot hg hq hc hf hvalid heq (haddr f hf p)
      rw [hsame] at hpos
      refine .inl ⟨hvalid, hsame, huse _ hpos (h.slots f hf p hvalid hpos).2 ?_⟩
      exact fun hptr => heq (h.inj f hf g hg p q hvalid hq hpos hptr)

lemma Tree.indirectOf_putIndirect (h : Tree c F len) (hg : g ∈ F)
    (hc : Change c c' (WordOf (slotAddr c g .indirect))) (hf : f ∈ F) (hne : f ≠ g) :
    indirectOf c' f = indirectOf c f := by
  have hsame : ptr c' f .indirect = ptr c f .indirect :=
    h.ptr_slot hg (Slot.valid_indirect c g) hc hf (Slot.valid_indirect c f)
      (fun heq => hne heq.1) rfl
  rw [ptr_indirect, ptr_indirect] at hsame
  exact hsame

/-- `f` is no directory, or none of its blocks counts. -/
def NoEntries (c : ℕ → Byte) (len : ℕ → ℕ) (f : ℕ) : Prop := IsDir c f → len f = 0

lemma noEntries_of_reg (hreg : ¬IsDir c f) : NoEntries c len f := fun hdir => absurd hdir hreg

lemma Kept.noEntries (hk : Kept F len c c') (hf : f ∈ F) (hno : NoEntries c len f) : NoEntries c' len f :=
  fun hdir => hno ((hk.isDir hf).mp hdir)

/-- An indirect block comes with no block numbers in it, or it goes. -/
lemma Tree.putIndirect (h : Tree c F len) (hg : g ∈ F)
    (hc : Change c c' (WordOf (slotAddr c g .indirect))) (hv : indirectOf c' g = v)
    (hnew : (v = 0 ∧ NoEntries c len g) ∨ (indirectOf c g = 0 ∧ IsFree c v ∧ InUse c' v ∧
      ∀ i < nindirect, wordAt c' (4096 * v + 4 * i) = 0))
    (huse : ∀ b, b ≠ 0 → InUse c b → b ≠ indirectOf c g → InUse c' b) :
    Tree c' F len ∧ Kept F len c c' := by
  have hq : Slot.Valid c g .indirect := Slot.valid_indirect c g
  have hother : ∀ f ∈ F, f ≠ g → indirectOf c' f = indirectOf c f :=
    fun f hf hfg => h.indirectOf_putIndirect hg hc hf hfg
  have hdirect : ∀ i < ndirect, ptr c' g (.direct i) = ptr c g (.direct i) := by
    intro i hi
    have hvalid : Slot.Valid c g (.direct i) := hi
    exact h.ptr_slot hg hq hc hg hvalid (by simp) rfl
  have hk : Kept F len c c' := by
    apply h.kept_slot hg hq hc
    intro d hd hisDir n hn hmax
    by_cases hdg : d = g
    · subst hdg
      by_cases hlt : n < ndirect
      · unfold blockSlot
        rw [if_pos hlt]
        exact hdirect n hlt
      · rcases hnew with ⟨-, hno⟩ | ⟨hzero, -⟩
        · rw [hno hisDir] at hn
          exact absurd hn (Nat.not_lt_zero n)
        · exact absurd hzero (h.indirect d hd hisDir (by omega))
    · apply h.ptr_slot hg hq hc hd (h.valid hd hisDir hn hmax) (fun heq => hdg heq.1)
      exact slotAddr_of_indirectOf (hother d hd hdg) _
  refine ⟨?_, hk⟩
  apply h.kept (g := g) (q := .indirect) hk hc.super hc.nblocks
  · intro d hd hisDir hlt hpos
    by_cases hdg : d = g
    · subst hdg
      rcases hnew with ⟨-, hno⟩ | ⟨hzero, -⟩
      · rw [hno hisDir] at hlt
        exact absurd hlt (Nat.not_lt_zero ndirect)
      · exact absurd hzero hpos
    · rw [hother d hd hdg]
      exact hpos
  · intro f hf p hp hpos
    have hold : ∀ hvalid : p.Valid c f, ¬(f = g ∧ p = .indirect) →
        slotAddr c' f p = slotAddr c f p →
        p.Valid c f ∧ ptr c' f p = ptr c f p ∧ InUse c' (ptr c f p) := by
      intro hvalid hne haddr
      have hsame := h.ptr_slot hg hq hc hf hvalid hne haddr
      rw [hsame] at hpos
      refine ⟨hvalid, hsame, huse _ hpos (h.slots f hf p hvalid hpos).2 ?_⟩
      exact fun hptr => hne (h.inj f hf g hg p .indirect hvalid hq hpos hptr)
    by_cases hfg : f = g
    · subst hfg
      cases p with
      | direct i => exact .inl (hold hp (by simp) rfl)
      | indirect =>
        rw [ptr_indirect, hv] at hpos ⊢
        rcases hnew with ⟨hzero, -⟩ | ⟨-, hfree, huse', -⟩
        · exact absurd hzero hpos
        · exact .inr ⟨rfl, rfl, hfree, huse'⟩
      | entry i =>
        obtain ⟨hi, hpos'⟩ := hp
        rw [hv] at hpos'
        rcases hnew with ⟨hzero, -⟩ | ⟨-, -, -, hempty⟩
        · exact absurd hzero hpos'
        · unfold ptr at hpos
          rw [slotAddr_entry, hv, hempty i hi] at hpos
          exact absurd rfl hpos
    · have hind := hother f hf hfg
      exact .inl (hold ((valid_of_indirectOf hind).mp hp) (fun heq => hfg heq.1)
        (slotAddr_of_indirectOf hind p))

/-! ### Sizes -/

/-- The number of blocks of a directory matters only. -/
lemma Tree.len_congr {len' : ℕ → ℕ} (h : Tree c F len)
    (heq : ∀ d ∈ F, IsDir c d → len' d = len d) : Tree c F len' where
  super := h.super
  root := h.root
  rootDir := h.rootDir
  home f hf := (h.home f hf).imp id (fun ⟨d, hd, hdir, he⟩ => ⟨d, hd, hdir, by
    rw [heq d hd hdir]
    exact he⟩)
  named d hd hdir e he := h.named d hd hdir e (by
    rw [← heq d hd hdir]
    exact he)
  terminated := h.terminated
  slots := h.slots
  inj := h.inj
  indirect d hd hdir hlt := h.indirect d hd hdir (by
    rw [← heq d hd hdir]
    exact hlt)
  present d hd hdir n hn := h.present d hd hdir n (by
    rw [← heq d hd hdir]
    exact hn)

/-- A disk stays well-formed with its tree when the sizes of the directories stay. -/
lemma Wf.of_tree (h : Wf c F) (ht : Tree c' F (dirLen c)) (hk : Kept F (dirLen c) c c')
    (hsize : ∀ d ∈ F, IsDir c d → fileSize c' d = fileSize c d) : Wf c' F := by
  have hlen : ∀ d ∈ F, IsDir c' d → dirLen c' d = dirLen c d := by
    intro d hd hdir
    unfold dirLen
    rw [hsize d hd ((hk.isDir hd).mp hdir)]
  constructor
  · exact ht.len_congr hlen
  · intro d hd hdir
    rw [hsize d hd ((hk.isDir hd).mp hdir)]
    exact h.whole d hd ((hk.isDir hd).mp hdir)
  · intro d hd hdir
    rw [hlen d hd hdir]
    exact h.bound d hd ((hk.isDir hd).mp hdir)

/-- A change of bytes outside of names, types, block numbers and the bitmap. -/
structure Inert (F : Set ℕ) (len : ℕ → ℕ) (c c' : ℕ → Byte) : Prop where
  tree : Tree c' F len
  kept : Kept F len c c'
  super : SameSuper c c'
  indirect : ∀ g ∈ F, indirectOf c' g = indirectOf c g
  ptrs : ∀ g ∈ F, ∀ p : Slot, p.Valid c g → ptr c' g p = ptr c g p

lemma Tree.inert (h : Tree c F len) (hsuper : SameSuper c c') (hsame : ∀ i, ¬P i → c' i = c i)
    (hP : Untouched c F P) (hnames : ∀ g, Place c F len g → ∀ i < maxnamelen, ¬P (g + i)) :
    Inert F len c c' := by
  have hc : Change c c' P :=
    ⟨hsuper.superOk h.super, hsuper.nblocks, fun i _ _ hi => hsame i hi⟩
  obtain ⟨htree, hkept⟩ := h.tree_untouched hc hP hnames (fun b hb => hsuper.inUse.mpr hb)
  constructor
  · exact htree
  · exact hkept
  · exact hsuper
  · exact fun g hg => h.indirectOf_same hc hP hg
  · exact fun g hg p hp => h.ptr_untouched hc hP hg hp

/-- What a new size of a file leaves. -/
structure Resized (F : Set ℕ) (len : ℕ → ℕ) (f : ℕ) (w : Word) (c c' : ℕ → Byte) : Prop
    extends Inert F len c c' where
  size : fileSize c' f = w
  sizes : ∀ g ∈ F, g ≠ f → fileSize c' g = fileSize c g
  same : ∀ i, ¬WordOf (fSize f) i → c' i = c i

lemma Tree.not_wordOf_size (h : Tree c F len) (hf : Place c F len f) (hg : Place c F len g) {k : ℕ}
    (hk : k < 256) (hne : f = g → k < 128 ∨ 132 ≤ k) : ¬WordOf (fSize f) (g + k) := by
  have hfits := (h.fileAt_place hf).fits
  unfold WordOf fSize
  by_cases hfg : f = g
  · have hout := hne hfg
    omega
  · rcases h.apart hf hg hfg with hapart | hapart
    · omega
    · omega

lemma Tree.resized (h : Tree c F len) (hf : f ∈ F) (w : Word) :
    Resized F len f w c (putWord c (fSize f) w) := by
  have hfile := h.fileAt hf
  have hplace := h.home f hf
  have hsuper : SameSuper c (putWord c (fSize f) w) := sameSuper_putWord (hfile.clear (by decide)) w
  have hsame : ∀ i, ¬WordOf (fSize f) i → putWord c (fSize f) w i = c i := by
    intro i hi
    apply putWord_of_ne
    unfold WordOf at hi
    omega
  constructor
  · apply h.inert hsuper hsame
    · constructor
      · intro g hg i hlo hhi
        exact h.not_wordOf_size hplace (h.home g hg) (by omega) (fun _ => .inr hlo)
      · intro g hg hpos i hi hword
        have hne := h.indirect_ne hg hpos hplace
        have hfits := hfile.fits
        unfold WordOf fSize at hword
        omega
    · intro g hg i hi
      unfold maxnamelen at hi
      exact h.not_wordOf_size hplace hg (by omega) (fun _ => .inl hi)
  · exact wordAt_putWord
  · intro g hg hne
    apply wordAt_congr
    intro i hi hi'
    unfold fSize at hi hi'
    apply hsame
    obtain ⟨k, rfl⟩ := Nat.exists_eq_add_of_le (Nat.le_trans (Nat.le_add_right g 128) hi)
    exact h.not_wordOf_size hplace (h.home g hg) (by omega) (fun heq => absurd heq.symm hne)
  · exact hsame

end SistemasOperativos.Fs
