import SistemasOperativos.Fs.Create
import SistemasOperativos.Fs.Sizing

/-!
# The entry of a new file

Where `dir_alloc_file` puts a new file, and what `file_create` leaves alone when it writes its name
there.
-/

namespace SistemasOperativos.Fs

open Library Kern

/-- The bytes of the name of the entry `e`. -/
def NameOf (e i : ℕ) : Prop := e ≤ i ∧ i < e + maxnamelen

/-- The block that a directory without a free entry gets. -/
def nextBlock (c : ℕ → Byte) (d : ℕ) : ℕ :=
  if blockOf c d (dirLen c d) ≠ 0 then blockOf c d (dirLen c d)
  else ((freeList c)[extra c d (dirLen c d)]?).getD 0

/-- The entry that `dir_alloc_file` takes. -/
def newEntry (c : ℕ → Byte) (d : ℕ) : ℕ := (freeEntry c d).getD (4096 * nextBlock c d)

/-- The other entries that a directory gets with a new block. -/
def strayEntries (c : ℕ → Byte) (d : ℕ) : List ℕ :=
  if (freeEntry c d).isSome then []
  else (List.range' 1 (blkfiles - 1)).map (fun j => 4096 * nextBlock c d + sizeofFile * j)

/-- The entry `e` for a new file of the directory `d`, with the content `c'` after it has been
found. -/
structure Chosen (F : Set ℕ) (c : ℕ → Byte) (d e : ℕ) (c' : ℕ → Byte) : Prop where
  tree : Tree c' F (dirLen c)
  kept : Kept F (dirLen c) c c'
  sizes : ∀ g ∈ F, g ≠ d → fileSize c' g = fileSize c g
  new : e = newEntry c d
  mod : e % 256 = 0
  inUse : InUse c' (e / 4096)
  behind : 2 + nbitmap c ≤ e / 4096
  nblocks : nblocksOf c' = nblocksOf c
  fields : ∀ g ∈ F, ∀ i, 128 ≤ i → i < 180 → ¬NameOf e (g + i)
  indirect : ∀ g ∈ F, indirectOf c' g ≠ 0 → ∀ i, i / 4096 = indirectOf c' g → ¬NameOf e i
  names : ∀ g, Place c' F (dirLen c) g → g ≠ e → ∀ i < maxnamelen, ¬NameOf e (g + i)
  /-- the bytes of the entry are those that were there -/
  same : ∀ i < 256, c' (e + i) = c (e + i)
  /-- an old entry without a name, or the first one of a new block -/
  found : (freeEntry c d = some e ∧ c' = c) ∨
    (freeEntry c d = none ∧ fileSize c' d = fileSize c d + 4096 ∧ dirLen c d < maxLen ∧
      e = 4096 * blockOf c' d (dirLen c d) ∧ blockOf c' d (dirLen c d) ≠ 0 ∧
      ∀ i, i / 4096 = e / 4096 → c' i = c i)

variable {c c' c'' : ℕ → Byte} {F : Set ℕ} {len : ℕ → ℕ} {s t : Fs} {d e f g i j n : ℕ}
  {name path x : CString}

/-! ### The choice -/

lemma freeEntry_entry (h : freeEntry c d = some e) : Entry c d e ∧ c e = 0 := by
  have hfree := List.find?_some h
  exact ⟨mem_entries.mp (List.mem_of_find?_eq_some h), of_decide_eq_true hfree⟩

lemma Tree.entry_block (h : Tree c F len) (hd : d ∈ F) (hdir : IsDir c d)
    (he : EntryOf c (len d) d e) : e % 256 = 0 ∧ InUse c (e / 4096) ∧ 2 + nbitmap c ≤ e / 4096 := by
  obtain ⟨n, hn, hmax, j, hj, rfl⟩ := he
  obtain ⟨hle, huse⟩ := h.dirBlock hd hdir hn hmax
  rw [entryAt_div hj]
  refine ⟨?_, huse, hle⟩
  unfold entryAt sizeofFile
  omega

/-- An entry is in one directory only. -/
lemma Tree.entry_unique (h : Tree c F len) (hd : d ∈ F) (hdir : IsDir c d) (hg : g ∈ F)
    (hdir' : IsDir c g) (he : EntryOf c (len d) d e) (he' : EntryOf c (len g) g e) : d = g := by
  obtain ⟨n, hn, hmax, j, hj, rfl⟩ := he
  obtain ⟨m, hm, hmax', k, hk, heq⟩ := he'
  have hdiv : entryAt c d n j / 4096 = entryAt c g m k / 4096 := by rw [heq]
  rw [entryAt_div hj, entryAt_div hk] at hdiv
  exact (h.inj d hd g hg _ _ (h.valid hd hdir hn hmax) (h.valid hg hdir' hm hmax')
    (h.present d hd hdir n hn hmax) hdiv).1

lemma Wf.chosen_found (h : Wf c F) (hd : d ∈ F) (hdir : IsDir c d) (he : freeEntry c d = some e) :
    Chosen F c d e c := by
  obtain ⟨hentry, hfree⟩ := freeEntry_entry he
  obtain ⟨hmod, huse, hle⟩ := h.toTree.entry_block hd hdir hentry
  have hplace : Place c F (dirLen c) e := .inr ⟨d, hd, hdir, hentry⟩
  constructor
  · exact h.toTree
  · exact .refl F _ c
  · exact fun _ _ _ => rfl
  · unfold newEntry
    rw [he]
    rfl
  · exact hmod
  · exact huse
  · exact hle
  · rfl
  · intro g hg i hlo hhi hname
    unfold NameOf maxnamelen at hname
    by_cases hge : g = e
    · omega
    · rcases h.apart (h.home g hg) hplace hge with hapart | hapart
      · omega
      · omega
  · intro g hg hpos i hi hname
    have hne := h.indirect_ne hg hpos hplace
    unfold NameOf maxnamelen at hname
    omega
  · intro g hg hge i hi hname
    unfold NameOf at hname
    unfold maxnamelen at hi hname
    rcases h.apart hg hplace hge with hapart | hapart
    · omega
    · omega
  · exact fun _ _ => rfl
  · exact .inl ⟨he, rfl⟩

lemma Filled.same_block (hq : Filled F len f n c c') (hf : f ∈ F) (hn : n < maxLen)
    (hi : i / 4096 = blockOf c' f n) : c' i = c i := by
  by_cases hzero : blockOf c f n = 0
  · have hmem := mem_freeList.mp (List.mem_of_getElem? (hq.taken hzero))
    rw [← hi] at hmem
    apply hq.same i hmem
    rw [hi]
    exact fun heq => hq.tree.indirectOf_ne_blockOf hf hf hn hq.block heq.symm
  · have hidle := hq.idle hzero
    rw [hidle]

lemma Wf.chosen_grown (h : Wf c F) (hd : d ∈ F) (hdir : IsDir c d) (hfree : freeEntry c d = none)
    (hn : dirLen c d < maxLen) (hq : Filled F (dirLen c) d (dirLen c d) (lengthened c d) c') :
    Chosen F c d (4096 * blockOf c' d (dirLen c d)) c' := by
  have hr : Resized F (dirLen c) d (fileSize c d + 4096) c (lengthened c d) :=
    h.toTree.resized hd (fileSize c d + 4096)
  have hdir' : IsDir c' d := (hq.kept.isDir hd).mpr ((hr.kept.isDir hd).mpr hdir)
  have hdata : IsDir c' d → dirLen c d ≤ dirLen c d := fun _ => le_rfl
  have hsize : fileSize c' d = fileSize c d + 4096 := (hq.sizes d hd).trans hr.size
  have hblock : blockOf c' d (dirLen c d) = nextBlock c d := by
    by_cases hzero : blockOf c d (dirLen c d) = 0
    · have hzero' : blockOf (lengthened c d) d (dirLen c d) = 0 := by
        rw [hr.toInert.blockOf_same hd hn]
        exact hzero
      have htaken := hq.taken hzero'
      have hlist : freeList (lengthened c d) = freeList c := freeList_of_sameSuper hr.super
      rw [hr.extra_eq hd, hlist] at htaken
      unfold nextBlock
      rw [if_neg (not_not.mpr hzero), htaken]
      rfl
    · have hpos : blockOf (lengthened c d) d (dirLen c d) ≠ 0 := by
        rw [hr.toInert.blockOf_same hd hn]
        exact hzero
      unfold nextBlock
      rw [if_pos hzero, hq.idle hpos, hr.toInert.blockOf_same hd hn]
  have hnb : nblocksOf c' = nblocksOf c := hq.nblocks.trans hr.super.nblocks
  obtain ⟨hle, huse⟩ := hq.tree.blockOf_inUse hd hn hq.block
  rw [nbitmap_of_nblocksOf hnb] at hle
  have hplace : ∀ g, Place c' F (dirLen c) g → g / 4096 ≠ blockOf c' d (dirLen c d) :=
    fun g hg => hq.tree.place_ne_blockOf hd hn hq.block hdata hg
  have hdiv : 4096 * blockOf c' d (dirLen c d) / 4096 = blockOf c' d (dirLen c d) :=
    Nat.mul_div_cancel_left _ (by decide)
  have hsame : ∀ i, i / 4096 = blockOf c' d (dirLen c d) → c' i = c i := by
    intro i hi
    rw [hq.same_block hd hn hi]
    apply hr.same
    have hne := hplace d (hq.tree.home d hd)
    have hfits := (hq.tree.fileAt hd).fits
    unfold WordOf fSize
    omega
  constructor
  · exact hq.tree
  · exact hr.kept.trans hq.kept
  · exact fun g hg hne => (hq.sizes g hg).trans (hr.sizes g hg hne)
  · unfold newEntry
    rw [hfree, hblock]
    rfl
  · omega
  · rw [hdiv]
    exact huse
  · rw [hdiv]
    exact hle
  · exact hnb
  · intro g hg i hlo hhi hname
    have hne := hplace g (hq.tree.home g hg)
    have hfits := (hq.tree.fileAt hg).fits
    unfold NameOf maxnamelen at hname
    omega
  · intro g hg hpos i hi hname
    have hne := hq.tree.indirectOf_ne_blockOf hd hg hn hq.block
    unfold NameOf maxnamelen at hname
    omega
  · intro g hg _ i hi hname
    have hne := hplace g hg
    have hfits := (hq.tree.fileAt_place hg).fits
    unfold NameOf at hname
    unfold maxnamelen at hi hname
    omega
  · exact fun i hi => hsame _ (by omega)
  · refine .inr ⟨hfree, hsize, hn, rfl, hq.block, fun i hi => hsame i ?_⟩
    rw [hi, hdiv]

/-- `dir_alloc_file` chooses an entry where it returns one. -/
lemma Wf.chosen (h : Wf c F) (hd : d ∈ F) (hdir : IsDir c d) (ha : Allocates F c d (.ok e) c') :
    Chosen F c d e c' := by
  cases ha with
  | found he => exact h.chosen_found hd hdir he
  | grown hfree hlen hgets =>
    cases hgets with
    | got hn hroom hq => exact h.chosen_grown hd hdir hfree hn hq

/-! ### The name -/

lemma withName_of_not (hname : name.length < maxnamelen) (hi : ¬NameOf e i) :
    withName c e name i = c i := by
  apply putBytes_of_ne
  rw [List.length_append, List.length_map, List.length_singleton]
  unfold NameOf at hi
  omega

lemma nameIs_withName : nameIs (withName c e name) e x = decide (x = name) := by
  induction name generalizing c e x with
  | nil =>
    have hzero : withName c e [] e = 0 := Function.update_self e 0 c
    cases x with
    | nil =>
      unfold nameIs
      rw [hzero]
      rfl
    | cons y ys =>
      have hne : ¬(0 : Byte) = y.val := fun heq => y.2 heq.symm
      unfold nameIs
      rw [hzero, decide_eq_false hne, Bool.false_and]
      rfl
  | cons z zs ih =>
    have hcons : withName c e (z :: zs) = withName (Function.update c e z.val) (e + 1) zs := rfl
    have hhead : withName c e (z :: zs) e = z.val := by
      rw [hcons]
      unfold withName
      rw [putBytes_of_ne (.inl (Nat.lt_succ_self e)), Function.update_self]
    cases x with
    | nil =>
      unfold nameIs
      rw [hhead, decide_eq_false z.2]
      rfl
    | cons y ys =>
      unfold nameIs
      rw [hhead, hcons, ih]
      by_cases hyz : y = z
      · simp [hyz]
      · have hne : ¬z.val = y.val := fun heq => hyz (Subtype.ext heq).symm
        simp [hyz, hne]

namespace Chosen

variable (h : Chosen F c d e c')
include h

lemma new_eq (hfree : freeEntry c d = none) : e = 4096 * nextBlock c d := by
  have hnew := h.new
  unfold newEntry at hnew
  rw [hfree] at hnew
  exact hnew

lemma fileAt : FileAt c' e where
  inUse := h.inUse
  fits := by
    have hmod := h.mod
    omega
  aligned := by
    have hmod := h.mod
    omega
  place := by
    rw [nbitmap_of_nblocksOf h.nblocks]
    exact .inr h.behind

lemma sameSuper (hname : name.length < maxnamelen) : SameSuper c' (withName c' e name) := by
  apply sameSuper_of
  intro i hi
  apply withName_of_not hname
  have hbehind := h.behind
  unfold SuperByte at hi
  unfold NameOf
  rw [nbitmap_of_nblocksOf h.nblocks] at hi
  omega

lemma change (hname : name.length < maxnamelen) : Change c' (withName c' e name) (NameOf e) :=
  ⟨(h.sameSuper hname).superOk h.tree.super, (h.sameSuper hname).nblocks,
    fun _ _ _ hi => withName_of_not hname hi⟩

lemma untouched : Untouched c' F (NameOf e) :=
  ⟨fun g hg i hlo hhi => h.fields g hg i (by omega) hhi, h.indirect⟩

lemma type_named (hname : name.length < maxnamelen) (hg : g ∈ F) :
    fileType (withName c' e name) g = fileType c g :=
  (h.tree.type_same (h.change hname) h.untouched hg).trans (h.kept.types g hg)

lemma isDir_named (hname : name.length < maxnamelen) (hg : g ∈ F) :
    IsDir (withName c' e name) g ↔ IsDir c g := by
  unfold IsDir
  rw [h.type_named hname hg]

/-- The fields of the new file are those that were there. -/
lemma field_named (hname : name.length < maxnamelen) {k : ℕ} (hlo : 128 ≤ k) (hhi : k + 4 ≤ 256) :
    wordAt (withName c' e name) (e + k) = wordAt c (e + k) := by
  apply wordAt_congr
  intro i hi hi'
  obtain ⟨m, rfl⟩ := Nat.exists_eq_add_of_le (Nat.le_trans (Nat.le_add_right e k) hi)
  rw [withName_of_not hname, h.same m (by omega)]
  unfold NameOf maxnamelen
  omega

lemma size_named (hname : name.length < maxnamelen) (hg : g ∈ F) :
    fileSize (withName c' e name) g = fileSize c' g := by
  apply (h.change hname).field (h.tree.fileAt hg) (by decide) (by decide)
  intro i hi hi'
  obtain ⟨k, rfl⟩ := Nat.exists_eq_add_of_le (Nat.le_trans (Nat.le_add_right g 128) hi)
  exact h.fields g hg k (by omega) (by omega)

lemma indirectOf_named (hname : name.length < maxnamelen) (hg : g ∈ F) :
    indirectOf (withName c' e name) g = indirectOf c' g :=
  h.tree.indirectOf_same (h.change hname) h.untouched hg

lemma ptr_named (hname : name.length < maxnamelen) (hg : g ∈ F) {p : Slot} (hp : p.Valid c' g) :
    ptr (withName c' e name) g p = ptr c' g p :=
  h.tree.ptr_untouched (h.change hname) h.untouched hg hp

lemma blocksAt_named (hname : name.length < maxnamelen) (hg : g ∈ F) (n : ℕ) :
    BlocksAt (withName c' e name) g n := by
  have hsuper := h.sameSuper hname
  have hind := h.indirectOf_named hname hg
  have hb := h.tree.blocksAt hg n
  constructor
  · exact hsuper.fileAt hb.file
  · rw [hind, hsuper.inUse, hsuper.nbitmap]
    exact hb.indirect
  · rw [hind]
    exact hb.apart
  · intro hvalid hpos
    have hvalid := (valid_of_indirectOf hind).mp hvalid
    rw [h.ptr_named hname hg hvalid] at hpos ⊢
    exact hsuper.inUse.mpr (hb.block hvalid hpos)

/-- The other entries keep their names. -/
lemma nameIs_named (hname : name.length < maxnamelen) (hg : Place c F (dirLen c) g) (hne : g ≠ e)
    (hx : x.length < maxnamelen) : nameIs (withName c' e name) g x = nameIs c g x := by
  apply nameIs_congr
  intro i hi
  have hlt := Nat.lt_of_le_of_lt hi hx
  rw [withName_of_not hname (h.names g (h.kept.place.mpr hg) hne i hlt), h.kept.names g hg i hlt]

/-- The blocks of a directory stay, up to the length that it has had. -/
lemma dirPtr_named (hname : name.length < maxnamelen) (hg : g ∈ F) (hdir : IsDir c g)
    (hn : n < dirLen c g) (hmax : n < maxLen) :
    ptr (withName c' e name) g (blockSlot n) = ptr c g (blockSlot n) := by
  have hdir' := (h.kept.isDir hg).mpr hdir
  rw [h.ptr_named hname hg (h.tree.valid hg hdir' hn hmax), h.kept.blocks g hg hdir n hn hmax]

/-! ### Directories -/

/-- The new length of a directory. -/
lemma dirLen_named (hw : Wf c F) (hname : name.length < maxnamelen) (hg : g ∈ F) (hdir : IsDir c g) :
    (fileSize (withName c' e name) g).toNat % 4096 = 0 ∧
    ((dirLen (withName c' e name) g = dirLen c g ∧ (g = d → freeEntry c d = some e)) ∨
      (g = d ∧ freeEntry c d = none ∧ dirLen (withName c' e name) g = dirLen c g + 1 ∧
        dirLen c g < maxLen ∧ e = 4096 * blockOf c' g (dirLen c g) ∧
        blockOf c' g (dirLen c g) ≠ 0)) := by
  have hwhole := hw.whole g hg hdir
  have hsize := h.size_named hname hg
  have hlen : dirLen (withName c' e name) g = (fileSize c' g).toNat / 4096 := by
    unfold dirLen
    rw [hsize]
  rw [hsize, hlen]
  by_cases hgd : g = d
  · subst hgd
    rcases h.found with ⟨hfree, rfl⟩ | ⟨hfree, hgrown, hn, he, hpos, -⟩
    · exact ⟨hwhole, .inl ⟨rfl, fun _ => hfree⟩⟩
    · have hlt : (fileSize c g).toNat + 4096 < 2 ^ 32 := by
        unfold dirLen maxLen ndirect nindirect at hn
        omega
      have hnat : (fileSize c g + 4096).toNat = (fileSize c g).toNat + 4096 := by
        rw [BitVec.toNat_add]
        exact Nat.mod_eq_of_lt hlt
      rw [hgrown, hnat]
      refine ⟨by omega, .inr ⟨rfl, hfree, ?_, hn, he, hpos⟩⟩
      unfold dirLen
      omega
  · rw [h.sizes g hg hgd]
    exact ⟨hwhole, .inl ⟨rfl, fun heq => absurd heq hgd⟩⟩

/-- The block that a directory has got. -/
lemma newBlock_named (hname : name.length < maxnamelen) (hd : d ∈ F) (hn : n < maxLen)
    (hpos : blockOf c' d n ≠ 0) : ptr (withName c' e name) d (blockSlot n) = blockOf c' d n := by
  obtain ⟨hvalid, hptr⟩ := Tree.blockOf_valid hn hpos
  rw [h.ptr_named hname hd hvalid, hptr]

lemma dirOk_named (hw : Wf c F) (hname : name.length < maxnamelen) (hg : g ∈ F) (hdir : IsDir c g) :
    DirOk (withName c' e name) g := by
  obtain ⟨hwhole, hlen⟩ := h.dirLen_named hw hname hg hdir
  have hsuper := h.sameSuper hname
  have hdir' := (h.kept.isDir hg).mpr hdir
  have hbm : nbitmap (withName c' e name) = nbitmap c' := hsuper.nbitmap
  have hind := h.indirectOf_named hname hg
  have hold : ∀ n < dirLen c g, n < maxLen → (n < ndirect ∨ indirectOf (withName c' e name) g ≠ 0) ∧
      ptr (withName c' e name) g (blockSlot n) ≠ 0 ∧
      2 + nbitmap (withName c' e name) ≤ ptr (withName c' e name) g (blockSlot n) := by
    intro n hn hmax
    rw [hbm, hind, h.ptr_named hname hg (h.tree.valid hg hdir' hn hmax)]
    refine ⟨?_, h.tree.present g hg hdir' n hn hmax, (h.tree.dirBlock hg hdir' hn hmax).1⟩
    by_cases hlt : n < ndirect
    · exact .inl hlt
    · exact .inr (h.tree.indirect g hg hdir' (by omega))
  apply dirOk_of_blocks (hsuper.superOk h.tree.super) (h.blocksAt_named hname hg) hwhole
  · have hbound := hw.bound g hg hdir
    rcases hlen with ⟨heq, -⟩ | ⟨rfl, -, heq, hmax, -⟩
    · omega
    · omega
  · intro n hn hmax
    rcases hlen with ⟨heq, -⟩ | ⟨rfl, -, heq, -, -, hpos⟩
    · exact hold n (heq ▸ hn) hmax
    · by_cases hlt : n < dirLen c g
      · exact hold n hlt hmax
      · obtain rfl : n = dirLen c g := by omega
        rw [hbm, hind, h.newBlock_named hname hg hmax hpos]
        exact ⟨has_of_blockOf hpos, hpos, (h.tree.blockOf_inUse hg hmax hpos).1⟩

/-- The entries of a directory whose length stays. -/
lemma entries_named (hname : name.length < maxnamelen) (hg : g ∈ F) (hdir : IsDir c g)
    (hlen : dirLen (withName c' e name) g = dirLen c g) :
    entries (withName c' e name) g = entries c g := by
  unfold entries
  rw [hlen]
  exact entriesFrom_congr fun n _ hn => h.dirPtr_named hname hg hdir (by omega) (by omega)

/-- The entries of a directory that has got a block. -/
lemma entries_grown (hname : name.length < maxnamelen) (hd : d ∈ F) (hdir : IsDir c d)
    (hlen : dirLen (withName c' e name) d = dirLen c d + 1) (hmax : dirLen c d < maxLen)
    (he : e = 4096 * blockOf c' d (dirLen c d)) (hpos : blockOf c' d (dirLen c d) ≠ 0) :
    entries (withName c' e name) d =
      entries c d ++ (List.range blkfiles).map (fun j => e + sizeofFile * j) := by
  have hmin : min (dirLen c d + 1) maxLen = dirLen c d + 1 := by omega
  have hmin' : min (dirLen c d) maxLen = dirLen c d := by omega
  unfold entries
  rw [hlen, hmin, hmin', entriesFrom_succ, Nat.zero_add]
  congr 1
  · exact entriesFrom_congr fun n _ hn => h.dirPtr_named hname hd hdir (by omega) (by omega)
  · apply List.map_congr_left
    intro j _
    unfold entryAt
    rw [h.newBlock_named hname hd hmax hpos, ← he]

/-! ### Lookups -/

/-- An old entry is not the new one, but where a free entry is taken. -/
lemma entry_ne (hd : d ∈ F) (hdir : IsDir c d) (hg : g ∈ F) (hdir' : IsDir c g) (he : Entry c g i) :
    i ≠ e ∨ (g = d ∧ freeEntry c d = some e) := by
  rcases h.found with ⟨hfree, rfl⟩ | ⟨-, -, hmax, heq, hpos, -⟩
  · by_cases hgd : g = d
    · exact .inr ⟨hgd, hfree⟩
    · left
      rintro rfl
      exact hgd (h.tree.entry_unique hg hdir' hd hdir he (freeEntry_entry hfree).1)
  · left
    rintro rfl
    have hplace : Place c' F (dirLen c) i := h.kept.place.mpr (.inr ⟨g, hg, hdir', he⟩)
    apply h.tree.place_ne_blockOf hd hmax hpos (fun _ => le_rfl) hplace
    rw [heq, Nat.mul_div_cancel_left _ (by decide)]

/-- The lookups in the other directories. -/
lemma lookup_other (hw : Wf c F) (hname : name.length < maxnamelen) (hd : d ∈ F) (hdir : IsDir c d)
    (hg : g ∈ F) (hdir' : IsDir c g) (hgd : g ≠ d) (hx : x.length < maxnamelen) :
    lookupAt (withName c' e name) g x = lookupAt c g x := by
  have hlen : dirLen (withName c' e name) g = dirLen c g := by
    rcases (h.dirLen_named hw hname hg hdir').2 with ⟨heq, -⟩ | ⟨heq, -⟩
    · exact heq
    · exact absurd heq hgd
  have hfind : (entries c g).find? (fun i => nameIs (withName c' e name) i x) =
      (entries c g).find? (fun i => nameIs c i x) := by
    apply List.find?_congr
    intro i hi
    have hentry := mem_entries.mp hi
    have hne := (h.entry_ne hd hdir hg hdir' hentry).resolve_right (fun hand => hgd hand.1)
    exact h.nameIs_named hname (.inr ⟨g, hg, hdir', hentry⟩) hne hx
  unfold lookupAt
  rw [h.entries_named hname hg hdir' hlen, hfind, hlen]

/-- The entries of the directory, with those of its new block. -/
lemma entries_self (hw : Wf c F) (hname : name.length < maxnamelen) (hd : d ∈ F) (hdir : IsDir c d) :
    (freeEntry c d = some e ∧ dirLen (withName c' e name) d = dirLen c d ∧
      entries (withName c' e name) d = entries c d) ∨
    (freeEntry c d = none ∧ dirLen (withName c' e name) d ≤ maxLen ∧ dirLen c d ≤ maxLen ∧
      entries (withName c' e name) d = entries c d ++ e :: strayEntries c d) := by
  rcases (h.dirLen_named hw hname hd hdir).2 with ⟨hlen, hfree⟩ | ⟨-, hfree, hlen, hmax, he, hpos⟩
  · exact .inl ⟨hfree rfl, hlen, h.entries_named hname hd hdir hlen⟩
  · refine .inr ⟨hfree, by omega, by omega, ?_⟩
    have hnew := h.new_eq hfree
    have hrange : List.range blkfiles = 0 :: List.range' 1 (blkfiles - 1) := by decide
    rw [h.entries_grown hname hd hdir hlen hmax he hpos, hrange, List.map_cons]
    unfold strayEntries
    rw [hfree, if_neg (by simp), ← hnew]
    rfl

/-- The entries of any directory. -/
lemma entry_named (hw : Wf c F) (hname : name.length < maxnamelen) (hd : d ∈ F) (hdir : IsDir c d)
    (hg : g ∈ F) (hdir' : IsDir c g) : Entry (withName c' e name) g i ↔
      Entry c g i ∨ (g = d ∧ (i = e ∨ i ∈ strayEntries c d)) := by
  rw [← mem_entries, ← mem_entries]
  by_cases hgd : g = d
  · subst hgd
    rcases h.entries_self hw hname hd hdir with ⟨hfree, -, hentries⟩ | ⟨-, -, -, hentries⟩
    · have hnone : strayEntries c g = [] := by
        unfold strayEntries
        rw [hfree]
        rfl
      rw [hentries, hnone]
      constructor
      · exact .inl
      · rintro (hi | ⟨-, rfl | hi⟩)
        · exact hi
        · exact List.mem_of_find?_eq_some hfree
        · exact absurd hi List.not_mem_nil
    · rw [hentries, List.mem_append, List.mem_cons]
      constructor
      · rintro (hi | hi)
        · exact .inl hi
        · exact .inr ⟨rfl, hi⟩
      · rintro (hi | ⟨-, hi⟩)
        · exact .inl hi
        · exact .inr hi
  · rcases (h.dirLen_named hw hname hg hdir').2 with ⟨hlen, -⟩ | ⟨heq, -⟩
    · rw [h.entries_named hname hg hdir' hlen]
      exact ⟨.inl, fun hor => hor.resolve_right (fun hand => hgd hand.1)⟩
    · exact absurd heq hgd

lemma lookup_own (hw : Wf c F) (hname : name.length < maxnamelen) (hd : d ∈ F) (hdir : IsDir c d)
    (hmissing : ∀ i, Entry c d i → nameIs c i name = false) :
    lookupAt (withName c' e name) d name = .ok e := by
  have hself : nameIs (withName c' e name) e name = true := by
    rw [nameIs_withName]
    exact decide_eq_true rfl
  have hother : ∀ i, Entry c d i → i ≠ e → nameIs (withName c' e name) i name = false := by
    intro i hi hne
    rw [h.nameIs_named hname (.inr ⟨d, hd, hdir, hi⟩) hne hname]
    exact hmissing i hi
  have hfind : (entries (withName c' e name) d).find? (fun i => nameIs (withName c' e name) i name) =
      some e := by
    rcases h.entries_self hw hname hd hdir with ⟨hfree, -, hentries⟩ | ⟨hfree, -, -, hentries⟩
    · rw [hentries]
      obtain ⟨i, hi⟩ : ∃ i, (entries c d).find? (fun i => nameIs (withName c' e name) i name) = some i := by
        rw [← Option.isSome_iff_exists, List.find?_isSome]
        exact ⟨e, mem_entries.mpr (freeEntry_entry hfree).1, hself⟩
      have hyes := List.find?_some hi
      have hentry := mem_entries.mp (List.mem_of_find?_eq_some hi)
      rw [hi]
      by_contra hne
      rw [hother i hentry (fun heq => hne (congrArg some heq))] at hyes
      cases hyes
    · have hnone : (entries c d).find? (fun i => nameIs (withName c' e name) i name) = none := by
        rw [List.find?_eq_none]
        intro i hi
        have hentry := mem_entries.mp hi
        rw [hother i hentry]
        · exact Bool.false_ne_true
        · rcases h.entry_ne hd hdir hd hdir hentry with hne | ⟨-, hsome⟩
          · exact hne
          · rw [hfree] at hsome
            cases hsome
      rw [hentries, List.find?_append, hnone, Option.none_or]
      exact List.find?_cons_of_pos hself
  unfold lookupAt
  rw [hfind]

/-- The entries that come with a new block are as they were. -/
lemma same_stray (hname : name.length < maxnamelen) (hi : i ∈ strayEntries c d) (hn : n < 256) :
    withName c' e name (i + n) = c (i + n) := by
  rcases h.found with ⟨hfree, -⟩ | ⟨hfree, -, -, heq, -, hsame⟩
  · unfold strayEntries at hi
    rw [hfree] at hi
    exact absurd hi List.not_mem_nil
  · unfold strayEntries at hi
    rw [hfree, if_neg (by simp), ← h.new_eq hfree, List.mem_map] at hi
    obtain ⟨j, hj, rfl⟩ := hi
    rw [List.mem_range'_1] at hj
    unfold blkfiles at hj
    unfold sizeofFile
    rw [withName_of_not hname, hsame]
    · omega
    · unfold NameOf maxnamelen
      omega

lemma nameIs_stray (hname : name.length < maxnamelen) (hi : i ∈ strayEntries c d)
    (hx : x.length < maxnamelen) : nameIs (withName c' e name) i x = nameIs c i x := by
  apply nameIs_congr
  intro k hk
  unfold maxnamelen at hx
  exact h.same_stray hname hi (by omega)

/-- The lookups of the other names in the directory of a new file. -/
lemma lookup_rest (hw : Wf c F) (hname : name.length < maxnamelen) (hd : d ∈ F) (hdir : IsDir c d)
    (hx : x.length < maxnamelen) (hnil : x ≠ []) (hne : x ≠ name) :
    lookupAt (withName c' e name) d x = match lookupAt c d x with
      | .ok i => .ok i
      | .error r => match (strayEntries c d).find? (fun i => nameIs c i x) with
        | some i => .ok i
        | none => .error r := by
  have hself : nameIs (withName c' e name) e x = false := by
    rw [nameIs_withName]
    exact decide_eq_false hne
  have hfind : (entries c d).find? (fun i => nameIs (withName c' e name) i x) =
      (entries c d).find? (fun i => nameIs c i x) := by
    apply List.find?_congr
    intro i hi
    have hentry := mem_entries.mp hi
    rcases h.entry_ne hd hdir hd hdir hentry with hie | ⟨-, hfree⟩
    · exact h.nameIs_named hname (.inr ⟨d, hd, hdir, hentry⟩) hie hx
    · by_cases hie : i = e
      · subst hie
        rw [hself]
        cases x with
        | nil => exact absurd rfl hnil
        | cons y ys =>
          have hbyte : ¬c i = y.val := fun heq => y.2 (heq.symm.trans (freeEntry_entry hfree).2)
          unfold nameIs
          rw [decide_eq_false hbyte, Bool.false_and]
      · exact h.nameIs_named hname (.inr ⟨d, hd, hdir, hentry⟩) hie hx
  have hstray : (strayEntries c d).find? (fun i => nameIs (withName c' e name) i x) =
      (strayEntries c d).find? (fun i => nameIs c i x) :=
    List.find?_congr fun i hi => h.nameIs_stray hname hi hx
  unfold lookupAt
  rcases h.entries_self hw hname hd hdir with ⟨hfree, hlen, hentries⟩ | ⟨-, hlen, hlen', hentries⟩
  · have hnone : strayEntries c d = [] := by
      unfold strayEntries
      rw [hfree]
      rfl
    rw [hentries, hfind, hlen, hnone]
    cases (entries c d).find? (fun i => nameIs c i x) with
    | some i => rfl
    | none => rfl
  · have hcons : (e :: strayEntries c d).find? (fun i => nameIs (withName c' e name) i x) =
        (strayEntries c d).find? (fun i => nameIs c i x) := by
      rw [← hstray]
      exact List.find?_cons_of_neg (by rw [hself]; exact Bool.false_ne_true)
    rw [hentries, List.find?_append, hfind, hcons, if_pos hlen, if_pos hlen']
    cases (entries c d).find? (fun i => nameIs c i x) with
    | some i => rfl
    | none =>
      cases (strayEntries c d).find? (fun i => nameIs c i x) with
      | some i => rfl
      | none => rfl

end Chosen

/-! ### `file_create` -/

/-- What stops `file_create`: its directory cannot get the block that it needs. -/
def CreateJams (c : ℕ → Byte) (path : CString) (x : FsExit) : Prop :=
  x = .badBlock 4294967287 ∧ ∃ r d name,
    walkAt c 0 rootAddr (components (skipSlash path)) = .error (r, some (d, name)) ∧
    freeEntry c d = none ∧ Jams (lengthened c d) d (dirLen c d)

lemma Wf.fileCreate_sat (h : Wf c F) (path : CString) (hs : s.content = c) :
    Sat (fileCreate path) s (fun r t => Creates F c path r t.content)
      (fun x t => NoMem x t ∨ CreateJams c path x) := by
  unfold fileCreate
  rw [sat_bind]
  refine (h.walkPath_sat path hs).mono ?_ (fun _ _ hmem => .inl hmem)
  rintro r t ⟨rfl, ht⟩
  rcases hwalk : walkAt c 0 rootAddr (components (skipSlash path)) with ⟨r, _ | ⟨d, name⟩⟩ | ⟨d, f⟩
  · rw [sat_pure, ht]
    exact .unreached hwalk
  · obtain ⟨hd, hdir, -, hname⟩ := h.walkAt_parent 0 h.root
      (ne_nil_of_mem_components (noSlash_skipSlash path)) hwalk
    dsimp only
    rw [sat_bind]
    refine (h.dirAllocFile_sat hd hdir ht).mono ?_ ?_
    · intro r u halloc
      generalize hcu : u.content = c' at halloc
      cases r with
      | error r =>
        rw [sat_pure, hcu]
        exact .refused hwalk halloc
      | ok e =>
        have hc := h.chosen hd hdir halloc
        have hfile := hc.fileAt
        have hfits := hfile.fits
        have hlen : (name.map (fun y : CChar => y.val) ++ [0]).length = name.length + 1 := by
          rw [List.length_append, List.length_map, List.length_singleton]
        have hshort := hname
        unfold maxnamelen at hshort
        dsimp only
        rw [sat_bind]
        refine (storeBytes_sat _ (by rw [hlen]; omega) (by rw [hcu]; exact hc.tree.super)
          (by rw [hcu, nbitmap_of_nblocksOf hc.nblocks]; exact hc.behind)
          (by rw [hcu]; exact hc.inUse)).mono ?_ (fun _ _ hmem => .inl hmem)
        intro _ v hv
        rw [hcu] at hv
        change v.content = withName c' e name at hv
        rw [sat_bind]
        refine (fileFlush_sat (by rw [hv]; exact (hc.sameSuper hname).superOk hc.tree.super)
          (fun n => by rw [hv]; exact hc.blocksAt_named hname hd n)).mono ?_ (fun _ _ hmem => .inl hmem)
        intro _ x hx
        rw [sat_pure, hx, hv]
        exact .created hwalk halloc
    · rintro x u (hmem | ⟨rfl, hfree, hjams⟩)
      · exact .inl hmem
      · exact .inr ⟨rfl, r, d, name, hwalk, hfree, hjams⟩
  · rw [sat_pure, ht]
    exact .present hwalk

end SistemasOperativos.Fs
