import SistemasOperativos.Fs.Transfer
import SistemasOperativos.Fs.Memory

/-!
# Reading what has been written

A `file_write` between `file_read`s. A read takes a block for every hole that it passes, so that the bytes
it returns stand in the file from then on.
-/

namespace SistemasOperativos.Fs

open Library Kern

/-- The block of the position `p` of `f` is there, and `x` stands at the position. -/
structure HasByte (c : ℕ → Byte) (f p : ℕ) (x : Byte) : Prop where
  lt : p / 4096 < maxLen
  present : blockOf c f (p / 4096) ≠ 0
  byte : c (posOf c f p) = x

/-- On a well-formed disk a `file_read` of `n` bytes at `o` of the regular file `g` has returned `bs`; it has
left the disk `c`. -/
def HasRead (F : Set ℕ) (c : ℕ → Byte) (g : ℕ) (n o : Word) (bs : List Byte) : Prop :=
  g ∈ F ∧ o.toNat < 2 ^ 31 ∧ ∃ u v : Fs, Wf u.content F ∧ ¬IsDir u.content g ∧
    (fileSize u.content g).toNat ≤ maxFileSize ∧ fileRead g n o u = .ok (.ok bs) v ∧ v.content = c

/-- A `file_write` of `buf` at `offset` that does what a reader expects of it. -/
structure Written (F : Set ℕ) (f : ℕ) (buf : List Byte) (offset : Word) (c c' : ℕ → Byte)
    (r : Except ℤ ℕ) : Prop where
  result : r = .ok buf.length
  size : (fileSize c' f).toNat = max (fileSize c f).toNat (offset.toNat + buf.length)
  reads : ∀ (u : Fs) (n o : Word), u.content = c' → o.toNat < 2 ^ 31 →
    Sat (fileRead f n o) u (fun r _ => ∃ bs, r = .ok bs ∧
      bs.length = min n.toNat ((fileSize c' f).toNat - o.toNat) ∧
      ∀ k (hk : k < bs.length) i (hi : i < buf.length), o.toNat + k = offset.toNat + i →
        bs[k] = buf[i]) NoMem
  /-- what was read before the write is read after it -/
  rest : ∀ (g : ℕ) (n o : Word) (bs : List Byte), HasRead F c g n o bs →
    ∀ (u v : Fs) (n' o' : Word) (bs' : List Byte), u.content = c' → o'.toNat < 2 ^ 31 →
      fileRead g n' o' u = .ok (.ok bs') v → ∀ k (hk : k < bs.length) k' (hk' : k' < bs'.length),
        o.toNat + k = o'.toNat + k' →
        ¬(g = f ∧ offset.toNat ≤ o.toNat + k ∧ o.toNat + k < offset.toNat + buf.length) → bs'[k'] = bs[k]
  sizes : ∀ g ∈ F, g ≠ f → fileSize c' g = fileSize c g
  others : ∀ (g : ℕ) (n o : Word) (bs : List Byte), g ≠ f → HasRead F c g n o bs →
    ∀ u : Fs, u.content = c' → Sat (fileRead g n o) u (fun r _ => r = .ok bs) NoMem
  dirs : Kept F (dirLen c) c c'

variable {c c' : ℕ → Byte} {F : Set ℕ} {len : ℕ → ℕ} {s t : Fs} {f g i j k m n n₀ p lo hi w₀ w₁ : ℕ}
  {data : ℕ → Byte} {w count offset : Word} {x : Byte} {bs buf : List Byte}

/-! ### Room -/

lemma need_le (hn : n ≤ n₀) (hm : m ≤ j) : need c f n₀ m ≤ need c f n j := by
  have hholes : holes c f n₀ m ≤ holes c f n j := by
    apply Finset.card_le_card
    apply Finset.filter_subset_filter
    exact Finset.Ico_subset_Ico hn hm
  unfold need
  by_cases hnew : n₀ < m ∧ ndirect < m ∧ indirectOf c f = 0
  · rw [if_pos hnew, if_pos ⟨by omega, by omega, hnew.2.2⟩]
    omega
  · rw [if_neg hnew]
    omega

lemma not_refused {r : ℤ} (h : n₀ ≤ j) (hj : j < m) (hm : m ≤ maxLen)
    (hroom : need c f n₀ m ≤ freeCount c) : ¬Refused c f n₀ j r := by
  rintro (⟨hmax, -⟩ | ⟨-, -, hcount, hge, hzero, hfirst⟩)
  · omega
  · have hblock : blockOf c f j = 0 := if_neg (fun hhas => hhas.elim (by omega) (fun hne => hne hzero))
    have hnext := need_succ h hblock
    have hextra : extra c f j = 1 := extra_eq_one.mpr ⟨hge, hzero⟩
    have hneed : need c f n₀ j = holes c f n₀ j := by
      unfold need
      rw [if_neg (fun hand => hfirst ⟨hand.1, hand.2.1⟩), Nat.add_zero]
    have hle : need c f n₀ (j + 1) ≤ need c f n₀ m := need_le le_rfl hj
    omega

lemma not_chokes (h : n₀ ≤ j) (hj : j < m) (hroom : need c f n₀ m ≤ freeCount c) :
    ¬Chokes c f n₀ j := by
  rintro ⟨-, hzero, hcount⟩
  have hnext := need_succ h hzero
  have hle : need c f n₀ (j + 1) ≤ need c f n₀ m := need_le le_rfl hj
  omega

/-! ### `file_read` -/

/-- No read passes more blocks than a file can have. -/
lemma passedTo_le (hsize : (fileSize c f).toNat ≤ maxFileSize)
    (hlt : offset.toNat < readStop c f count offset) :
    passedTo (offset.toNat / 4096) offset.toNat (readStop c f count offset) ≤ maxLen := by
  unfold passedTo
  rw [if_pos hlt]
  apply ceilBlocks_le_maxLen
  unfold readStop at hlt ⊢
  omega

lemma passedTo_of_le (h : n ≤ m) : passedTo n₀ m n = n₀ := if_neg (Nat.not_lt.mpr h)

/-- A `file_read` that finds room for the missing blocks. -/
lemma Tree.fileRead_found (h : Tree c F len) (hf : f ∈ F) (hreg : ¬IsDir c f)
    (hsize : (fileSize c f).toNat ≤ maxFileSize) (ho : offset.toNat < 2 ^ 31)
    (hroom : need c f (offset.toNat / 4096) (passedTo (offset.toNat / 4096) offset.toNat
      (readStop c f count offset)) ≤ freeCount c) (hs : s.content = c) :
    Sat (fileRead f count offset) s
      (fun r _ => ∃ bs, r = .ok bs ∧ ReadsAt c f count offset bs) NoMem := by
  have hsmall := small_of_le_maxFileSize hsize
  have hnone : ∀ j, offset.toNat / 4096 ≤ j →
      j < passedTo (offset.toNat / 4096) offset.toNat (readStop c f count offset) →
      offset.toNat < readStop c f count offset := by
    intro j hj hlt
    by_contra hge
    rw [passedTo_of_le (Nat.not_lt.mp hge)] at hlt
    omega
  refine (h.fileRead_sat hf count offset (fun hdir => absurd hdir hreg) ho (by omega) hs).mono ?_ ?_
  · rintro r t (⟨bs, rfl, hbs, -⟩ | ⟨r', j, rfl, hj, hlt, hr, -⟩)
    · exact ⟨bs, rfl, hbs⟩
    · exact absurd hr (not_refused hj hlt (passedTo_le hsize (hnone j hj hlt)) hroom)
  · rintro e t (hmem | ⟨-, j, hj, hlt, hc⟩)
    · exact hmem
    · exact absurd hc (not_chokes hj hlt hroom)

/-! ### The bytes of a file -/

namespace HasByte

lemma dataBlock (h : HasByte c f p x) (hf : f ∈ F) (hreg : ¬IsDir c f) :
    DataBlock c F len (posOf c f p / 4096) :=
  ⟨f, hf, p / 4096, h.lt, fun hdir => absurd hdir hreg, h.present, Passed.posOf_div c f p⟩

/-- The block and the byte are all that matters. -/
lemma congr (h : HasByte c f p x) (hblock : blockOf c' f (p / 4096) = blockOf c f (p / 4096))
    (hbyte : c' (posOf c f p) = c (posOf c f p)) : HasByte c' f p x := by
  constructor
  · exact h.lt
  · rw [hblock]
    exact h.present
  · have hpos : posOf c' f p = posOf c f p := by
      unfold posOf
      rw [hblock]
    rw [hpos, hbyte]
    exact h.byte

end HasByte

lemma range_passedTo (hlo : lo ≤ p) (hhi : p < hi) :
    lo / 4096 ≤ p / 4096 ∧ p / 4096 < passedTo (lo / 4096) lo hi := by
  unfold passedTo ceilBlocks
  rw [if_pos (by omega)]
  omega

/-- A file whose bytes are known has a block for each of them. -/
lemma not_refused_of_hasByte {r : ℤ} (hb : HasByte c f p x) (hj : p / 4096 = j) : ¬Refused c f n j r := by
  subst hj
  rintro (⟨hmax, -⟩ | ⟨-, -, -, hge, hzero, -⟩)
  · exact absurd hb.lt (Nat.not_lt.mpr hmax)
  · rcases has_of_blockOf hb.present with hlt | hpos
    · exact absurd hlt (Nat.not_lt.mpr hge)
    · exact hpos hzero

lemma not_chokes_of_hasByte (hb : HasByte c f p x) (hj : p / 4096 = j) : ¬Chokes c f n j := by
  subst hj
  exact fun hc => hb.present hc.2.1

/-- A block that a read passes has one of its positions. -/
lemma exists_read_pos (hj : offset.toNat / 4096 ≤ j)
    (hlt : j < passedTo (offset.toNat / 4096) offset.toNat (readStop c f count offset))
    (hbs : bs.length = readStop c f count offset - offset.toNat) :
    ∃ k, k < bs.length ∧ (offset.toNat + k) / 4096 = j := by
  have hstop : max offset.toNat (4096 * j) < readStop c f count offset := by
    unfold passedTo ceilBlocks at hlt
    split at hlt
    · omega
    · omega
  exact ⟨max offset.toNat (4096 * j) - offset.toNat, by omega, by omega⟩

/-- A read returns the bytes that stand in the file. -/
lemma ReadsAt.byte (h : ReadsAt c f count offset bs) (hk : k < bs.length) (hp : offset.toNat + k = p)
    (hb : HasByte c f p x) : bs[k] = x := by
  subst hp
  rw [h.2 k hk, ← hb.byte]
  unfold posOf sourceBlock
  rw [if_neg hb.present]

/-- The positions that a loop has not written hold what they have held. -/
lemma Passed.hasByte (hp : Passed F len f w₀ w₁ lo hi data w c c') (hf : f ∈ F) (hmax : hi ≤ maxFileSize)
    (hg : g ∈ F) (hreg : ¬IsDir c g) (hout : ¬(g = f ∧ lo ≤ p ∧ p < hi)) (h : HasByte c g p x) :
    HasByte c' g p x := by
  have hblock : blockOf c' g (p / 4096) = blockOf c g (p / 4096) := by
    rw [hp.blocks g hg _ h.lt]
    split
    · rename_i hin
      unfold sourceBlock
      rw [← hin.1, if_neg h.present]
    · rfl
  apply h.congr hblock
  apply hp.same _ (.inl (h.dataBlock hg hreg))
  intro q hlo hhi heq
  have hdiv := Passed.posOf_div c' f q
  have hdiv' := Passed.posOf_div c g p
  have hmod : q % 4096 = p % 4096 := by
    unfold posOf at heq
    omega
  have hq : q / 4096 < maxLen := by
    unfold maxFileSize at hmax
    omega
  have hsame : blockOf c' g (p / 4096) = blockOf c' f (q / 4096) := by rw [hblock, ← hdiv', heq, hdiv]
  obtain ⟨hgf, hpq⟩ := hp.tree.blockOf_inj hg hf h.lt hq (by rw [hblock]; exact h.present) hsame
  exact hout ⟨hgf, by omega, by omega⟩

/-- The bytes that a read has returned stand in the file. -/
lemma Passed.hasByte_read
    (hp : Passed F len f (offset.toNat / 4096) (passedTo (offset.toNat / 4096) offset.toNat
      (readStop c f count offset)) 0 0 data w c c')
    (hf : f ∈ F) (hreg : ¬IsDir c f) (hbs : ReadsAt c f count offset bs) (hk : k < bs.length) :
    HasByte c' f (offset.toNat + k) bs[k] := by
  have hlen := hbs.1
  obtain ⟨hle, hlt⟩ := range_passedTo (Nat.le_add_right offset.toNat k)
    (show offset.toNat + k < readStop c f count offset by omega)
  obtain ⟨hmax, hpos⟩ := hp.present _ hle hlt
  refine ⟨hmax, hpos, ?_⟩
  have hblock := hp.blocks f hf _ hmax
  rw [if_pos ⟨rfl, hle, hlt⟩] at hblock
  rw [hp.same, hbs.2 k hk]
  · unfold posOf
    rw [hblock]
  · rw [Passed.posOf_div]
    exact hp.region hf (fun hdir => absurd hdir hreg) hle hlt
  · exact fun q hlo hhi => absurd hlo (Nat.not_le.mpr hhi)

/-- The bytes that have been written stand in the file. -/
lemma Passed.hasByte_written (hp : Passed F len f (lo / 4096) (passedTo (lo / 4096) lo hi) lo hi data w c c')
    (hlo : lo ≤ p) (hhi : p < hi) : HasByte c' f p (data p) := by
  obtain ⟨hle, hlt⟩ := range_passedTo hlo hhi
  obtain ⟨hmax, hpos⟩ := hp.present _ hle hlt
  exact ⟨hmax, hpos, hp.written p hlo hhi⟩

/-- A read leaves a well-formed disk. -/
lemma HasRead.wf (h : HasRead F c g count offset bs) : Wf c F := by
  obtain ⟨hg, ho, u, v, hu, hreg, hsize, hrun, rfl⟩ := h
  have hsmall := small_of_le_maxFileSize hsize
  have hp : ∃ m, Passed F (dirLen u.content) g (offset.toNat / 4096) m 0 0 (fun _ => 0) (fileSize u.content g)
      u.content v.content := by
    rcases (hu.toTree.fileRead_sat hg count offset (fun hdir => absurd hdir hreg) ho (by omega) rfl).of_ok
      hrun with ⟨-, -, -, hp⟩ | ⟨r', j, heq, -⟩
    · exact ⟨_, hp⟩
    · cases heq
  obtain ⟨m, hp⟩ := hp
  apply hu.of_tree hp.tree hp.kept
  intro d hd _
  by_cases hdg : d = g
  · rw [hdg, hp.size]
  · exact hp.sizes d hd hdg

/-- What a read has returned stands in the file. -/
structure StandsIn (c : ℕ → Byte) (g : ℕ) (n o : Word) (bs : List Byte) : Prop where
  regular : ¬IsDir c g
  size : (fileSize c g).toNat ≤ maxFileSize
  length : bs.length = readStop c g n o - o.toNat
  byte : ∀ k (hk : k < bs.length), HasByte c g (o.toNat + k) bs[k]

lemma HasRead.standsIn (h : HasRead F c g count offset bs) : StandsIn c g count offset bs := by
  obtain ⟨hg, ho, u, v, hu, hreg, hsize, hrun, rfl⟩ := h
  have hsmall := small_of_le_maxFileSize hsize
  have hread := (hu.toTree.fileRead_sat hg count offset (fun hdir => absurd hdir hreg) ho (by omega) rfl).of_ok
    hrun
  rcases hread with ⟨bs', heq, hbs, hp⟩ | ⟨r', j, heq, -⟩
  · cases heq
    refine ⟨fun hdir => hreg ((hp.kept.isDir hg).mp hdir), ?_, ?_, fun k hk => hp.hasByte_read hg hreg hbs hk⟩
    · rw [hp.size]
      exact hsize
    · have hlen := hbs.1
      unfold readStop at hlen ⊢
      rw [hp.size]
      exact hlen
  · cases heq

/-- It is read again. -/
lemma StandsIn.fileRead_sat (h : StandsIn c g count offset bs) (ht : Tree c F len) (hg : g ∈ F)
    (ho : offset.toNat < 2 ^ 31) (hs : s.content = c) :
    Sat (fileRead g count offset) s (fun r _ => r = .ok bs) NoMem := by
  have hsmall := small_of_le_maxFileSize h.size
  refine (ht.fileRead_sat hg count offset (fun hdir => absurd hdir h.regular) ho (by omega) hs).mono ?_ ?_
  · rintro r t (⟨bs', rfl, hbs, -⟩ | ⟨r', j, rfl, hj, hlt, hr, -⟩)
    · have hlen : bs'.length = bs.length := hbs.1.trans h.length.symm
      refine congrArg Except.ok (List.ext_getElem hlen fun k hk hk' => ?_)
      exact hbs.byte hk rfl (h.byte k hk')
    · obtain ⟨k, hk, hpos⟩ := exists_read_pos hj hlt h.length
      exact absurd hr (not_refused_of_hasByte (h.byte k hk) hpos)
  · rintro e t (hmem | ⟨-, j, hj, hlt, hc⟩)
    · exact hmem
    · obtain ⟨k, hk, hpos⟩ := exists_read_pos hj hlt h.length
      exact absurd hc (not_chokes_of_hasByte (h.byte k hk) hpos)

/-! ### After a write -/

namespace Passed

lemma blockOf_eq_zero (hp : Passed F len f w₀ w₁ lo hi data w c c') (hg : g ∈ F) (hj : j < maxLen) :
    blockOf c' g j = 0 ↔ blockOf c g j = 0 ∧ ¬(g = f ∧ w₀ ≤ j ∧ j < w₁) := by
  by_cases hin : g = f ∧ w₀ ≤ j ∧ j < w₁
  · obtain ⟨rfl, hle, hlt⟩ := hin
    exact ⟨fun hzero => absurd hzero (hp.present j hle hlt).2, fun hand => absurd ⟨rfl, hle, hlt⟩ hand.2⟩
  · rw [hp.blocks g hg j hj, if_neg hin]
    exact ⟨fun hzero => ⟨hzero, hin⟩, And.left⟩

lemma indirectOf_eq_zero (hp : Passed F len f w₀ w₁ lo hi data w c c') (hg : g ∈ F) :
    indirectOf c' g = 0 ↔ indirectOf c g = 0 ∧ ¬(g = f ∧ w₀ < w₁ ∧ ndirect < w₁) := by
  have hind := hp.indirect g hg
  constructor
  · intro hzero
    refine ⟨?_, ?_⟩
    · rcases hind with heq | ⟨rfl, hnone, -⟩
      · rw [← heq]
        exact hzero
      · exact hnone
    · rintro ⟨rfl, hlt, hlt'⟩
      exact hp.added hlt hlt' hzero
  · rintro ⟨hzero, hout⟩
    rcases hind with heq | ⟨hgf, -, hlt, hlt', -⟩
    · rw [heq]
      exact hzero
    · exact absurd ⟨hgf, hlt, hlt'⟩ hout

/-- The blocks that have been taken are missing no more. -/
lemma need_add_need (hp : Passed F len f w₀ w₁ lo hi data w c c') (hf : f ∈ F) (hm : w₁ ≤ m)
    (hmax : m ≤ maxLen) : need c' f 0 m + need c f w₀ w₁ ≤ need c f 0 m := by
  have hholes : holes c' f 0 m + holes c f w₀ w₁ ≤ holes c f 0 m := by
    unfold holes
    rw [← Finset.card_union_of_disjoint]
    · apply Finset.card_le_card
      intro j hj
      rw [Finset.mem_union, Finset.mem_filter, Finset.mem_filter, Finset.mem_Ico,
        Finset.mem_Ico] at hj
      rw [Finset.mem_filter, Finset.mem_Ico]
      rcases hj with ⟨hj, hzero⟩ | ⟨hj, hzero⟩
      · exact ⟨hj, ((hp.blockOf_eq_zero hf (by omega)).mp hzero).1⟩
      · exact ⟨by omega, hzero⟩
    · rw [Finset.disjoint_left]
      intro j hj hj'
      rw [Finset.mem_filter, Finset.mem_Ico] at hj hj'
      exact ((hp.blockOf_eq_zero hf (by omega)).mp hj.2).2 ⟨rfl, hj'.1⟩
  have hind := hp.indirectOf_eq_zero hf
  unfold need
  by_cases hzero : indirectOf c f = 0
  · by_cases htaken : w₀ < w₁ ∧ ndirect < w₁
    · have hpos : indirectOf c' f ≠ 0 := hp.added htaken.1 htaken.2
      rw [if_neg (fun hand => hpos hand.2.2), if_pos ⟨htaken.1, htaken.2, hzero⟩,
        if_pos ⟨by omega, by omega, hzero⟩]
      omega
    · have hzero' : indirectOf c' f = 0 := hind.mpr ⟨hzero, fun hand => htaken hand.2⟩
      simp only [hzero, hzero', and_true]
      rw [if_neg htaken]
      omega
  · have hpos : indirectOf c' f ≠ 0 := fun hnone => hzero (hind.mp hnone).1
    rw [if_neg (fun hand => hpos hand.2.2), if_neg (fun hand => hzero hand.2.2),
      if_neg (fun hand => hzero hand.2.2)]
    omega

lemma room_after (hp : Passed F len f w₀ w₁ lo hi data w c c') (hf : f ∈ F) (hm : w₁ ≤ m)
    (hmax : m ≤ maxLen) (hroom : need c f 0 m ≤ freeCount c) : need c' f 0 m ≤ freeCount c' := by
  have hneed := hp.need_add_need hf hm hmax
  have hfree := hp.freeCount_eq
  omega

end Passed

/-! ### `file_write` -/

lemma toNat_sizeAfter (c : ℕ → Byte) (f : ℕ) (stop : Word) :
    (sizeAfter c f stop).toNat = max (fileSize c f).toNat stop.toNat := by
  unfold sizeAfter
  by_cases hlt : fileSize c f < stop
  · have hlt' : (fileSize c f).toNat < stop.toNat := hlt
    rw [if_pos hlt]
    omega
  · have hge : ¬(fileSize c f).toNat < stop.toNat := hlt
    rw [if_neg hlt]
    omega

lemma passedTo_le_ceilBlocks (hle : lo ≤ hi) (hm : hi ≤ m) :
    passedTo (lo / 4096) lo hi ≤ ceilBlocks m := by
  unfold passedTo ceilBlocks
  split
  · omega
  · omega

/-- Reads after the write give what was written. -/
lemma Passed.reads_written {offset : Word}
    (hp : Passed F len f (offset.toNat / 4096)
      (passedTo (offset.toNat / 4096) offset.toNat (offset.toNat + buf.length)) offset.toNat
      (offset.toNat + buf.length) (fun p => buf.getD (p - offset.toNat) 0) w c c')
    (hf : f ∈ F) (hreg : ¬IsDir c f) (hsize : w.toNat ≤ maxFileSize)
    (hroom : need c' f 0 (ceilBlocks w.toNat) ≤ freeCount c') {n o : Word} (ho : o.toNat < 2 ^ 31)
    (hs : s.content = c') :
    Sat (fileRead f n o) s (fun r _ => ∃ bs, r = .ok bs ∧
      bs.length = min n.toNat ((fileSize c' f).toNat - o.toNat) ∧
      ∀ k (hk : k < bs.length) i (hi : i < buf.length), o.toNat + k = offset.toNat + i →
        bs[k] = buf[i]) NoMem := by
  have hreg' : ¬IsDir c' f := fun hdir => hreg ((hp.kept.isDir hf).mp hdir)
  have hsize' : (fileSize c' f).toNat ≤ maxFileSize := by
    rw [hp.size]
    exact hsize
  have hstop : o.toNat < readStop c' f n o → readStop c' f n o ≤ w.toNat := by
    intro hlt
    unfold readStop at hlt ⊢
    rw [hp.size] at hlt ⊢
    omega
  refine (hp.tree.fileRead_found hf hreg' hsize' ho ?_ hs).post ?_
  · unfold passedTo
    split
    · rename_i hlt
      exact le_trans (need_le (Nat.zero_le _) (ceilBlocks_mono (hstop hlt))) hroom
    · rw [need_self]
      exact Nat.zero_le _
  · rintro r t ⟨bs, rfl, hbs⟩
    refine ⟨bs, rfl, ?_, ?_⟩
    · rw [hbs.1]
      unfold readStop
      omega
    · intro k hk i hi heq
      have hwritten := hp.hasByte_written (Nat.le_add_right offset.toNat i) (Nat.add_lt_add_left hi _)
      rw [Nat.add_sub_cancel_left, List.getD_eq_getElem?_getD, List.getElem?_eq_getElem hi] at hwritten
      exact hbs.byte hk heq hwritten

/-- What has been read before the write stands in the file after it, where it has not been written. -/
lemma Passed.standsIn {n₁ m₁ : ℕ} (hp : Passed F len f n₁ m₁ lo hi data w c c') (hf : f ∈ F)
    (hmax : hi ≤ maxFileSize) (hg : g ∈ F) (hgf : g ≠ f) (h : StandsIn c g count offset bs) :
    StandsIn c' g count offset bs := by
  refine ⟨fun hdir => h.regular ((hp.kept.isDir hg).mp hdir), ?_, ?_, fun k hk => ?_⟩
  · rw [hp.sizes g hg hgf]
    exact h.size
  · have hlen := h.length
    unfold readStop at hlen ⊢
    rw [hp.sizes g hg hgf]
    exact hlen
  · exact hp.hasByte hf hmax hg h.regular (fun hin => hgf hin.1) (h.byte k hk)

/-- `file_write` does what a reader expects of it. -/
theorem fileWrite_written (h : Wf c F) (hf : f ∈ F) (hreg : ¬IsDir c f)
    (hsize : (fileSize c f).toNat ≤ maxFileSize) (hbound : offset.toNat + buf.length ≤ maxFileSize)
    (hroom : need c f 0 (ceilBlocks (max (fileSize c f).toNat (offset.toNat + buf.length))) ≤
      freeCount c) (hs : s.content = c) :
    Sat (fileWrite f buf offset) s (fun r t => Written F f buf offset c t.content r) NoMem := by
  have hsmall := small_of_le_maxFileSize hbound
  have hsmall' := small_of_le_maxFileSize hsize
  have hstop : (offset + BitVec.ofNat 32 buf.length).toNat = offset.toNat + buf.length := by
    rw [BitVec.toNat_add, BitVec.toNat_ofNat]
    omega
  have hblocks : passedTo (offset.toNat / 4096) offset.toNat (offset.toNat + buf.length) ≤
      ceilBlocks (max (fileSize c f).toNat (offset.toNat + buf.length)) :=
    passedTo_le_ceilBlocks (by omega) (by omega)
  have hmax : ceilBlocks (max (fileSize c f).toNat (offset.toNat + buf.length)) ≤ maxLen :=
    ceilBlocks_le_maxLen (by omega)
  have hneed : need c f (offset.toNat / 4096)
      (passedTo (offset.toNat / 4096) offset.toNat (offset.toNat + buf.length)) ≤ freeCount c :=
    le_trans (need_le (Nat.zero_le _) hblocks) hroom
  have hwrite := h.toTree.fileWrite_sat hf (fun hdir => absurd hdir hreg) buf offset
    (offset + BitVec.ofNat 32 buf.length) rfl hstop (by omega) (by omega) hs
  rw [hstop] at hwrite
  refine hwrite.mono ?_ ?_
  · rintro r t (⟨rfl, hp⟩ | ⟨r', j, hi, rfl, hj, hlt, hr, -⟩)
    · have hw : (sizeAfter c f (offset + BitVec.ofNat 32 buf.length)).toNat =
          max (fileSize c f).toNat (offset.toNat + buf.length) := by
        rw [toNat_sizeAfter, hstop]
      have hafter := hp.room_after hf hblocks hmax hroom
      constructor
      · rfl
      · rw [hp.size, hw]
      · intro u n o hu ho
        exact hp.reads_written hf hreg (by omega) (by rw [hw]; exact hafter) ho hu
      · intro g n o bs hread u v n' o' bs' hu ho' hrun k hk k' hk' hpos hout
        have hg := hread.1
        have hold := hread.standsIn
        have hbyte := hp.hasByte hf hbound hg hold.regular hout (hold.byte k hk)
        have hreg' : ¬IsDir t.content g := fun hdir => hold.regular ((hp.kept.isDir hg).mp hdir)
        have hsize' : (fileSize t.content g).toNat < 2 ^ 31 := by
          by_cases hgf : g = f
          · rw [hgf, hp.size, hw]
            omega
          · rw [hp.sizes g hg hgf]
            have := small_of_le_maxFileSize hold.size
            omega
        rcases (hp.tree.fileRead_sat hg n' o' (fun hdir => absurd hdir hreg') ho' hsize' hu).of_ok hrun with
          ⟨bs₁, heq, hbs, -⟩ | ⟨r', j, heq, -⟩
        · cases heq
          exact hbs.byte hk' hpos.symm hbyte
        · cases heq
      · exact hp.sizes
      · intro g n o bs hgf hread u hu
        exact (hp.standsIn hf hbound hread.1 hgf hread.standsIn).fileRead_sat hp.tree hread.1 hread.2.1 hu
      · exact hp.kept
    · exact absurd hr (not_refused hj hlt (hblocks.trans hmax) hneed)
  · rintro e t (hmem | ⟨-, j, hj, hlt, hc⟩)
    · exact hmem
    · exact absurd hc (not_chokes hj hlt hneed)

/-- The small disk, after its regular file has lost its blocks, the first of which was not empty. -/
def holedDisk : ℕ → Byte :=
  withoutBlock (withoutBlock (Function.update smallDisk 16384 0x11) (fDirect 12288 0) 4)
    (fDirect 12288 1) 5

lemma wf_holedDisk : Wf holedDisk smallFiles := by
  have hf : 12288 ∈ smallFiles := .inr rfl
  have hreg : ¬IsDir smallDisk 12288 := by
    unfold IsDir
    decide +kernel
  have hblock : DataBlock smallDisk smallFiles (dirLen smallDisk) 4 :=
    ⟨12288, hf, 0, by decide, fun hdir => absurd hdir hreg, by decide +kernel, by decide +kernel⟩
  have hr : Rewritten smallFiles (dirLen smallDisk) 4 smallDisk (Function.update smallDisk 16384 0x11) := by
    apply wf_smallDisk.toTree.rewritten hblock
    intro i hi
    rw [Function.update_of_ne]
    omega
  have hno := hr.kept.noEntries hf (noEntries_of_reg hreg)
  have hfirst : afterFree (Function.update smallDisk 16384 0x11) 12288 0 =
      withoutBlock (Function.update smallDisk 16384 0x11) (fDirect 12288 0) 4 := by
    have hnum : blockOf (Function.update smallDisk 16384 0x11) 12288 0 = 4 := by decide +kernel
    unfold afterFree
    rw [hnum, if_neg (by decide)]
    rfl
  have hsecond : afterFree (withoutBlock (Function.update smallDisk 16384 0x11) (fDirect 12288 0) 4)
      12288 1 = holedDisk := by
    have hnum : blockOf (withoutBlock (Function.update smallDisk 16384 0x11) (fDirect 12288 0) 4)
        12288 1 = 5 := by decide +kernel
    unfold afterFree
    rw [hnum, if_neg (by decide)]
    rfl
  have hcut := ((hr.tree.cut_refl 12288 0).succ hf hno le_rfl (by decide)).succ hf hno
    (Nat.zero_le 1) (by decide)
  rw [hfirst, hsecond] at hcut
  apply wf_smallDisk.of_tree hcut.tree (hr.kept.trans hcut.kept)
  intro d hd _
  exact (hcut.sizes d hd).trans (hr.sizes d hd)

/-- A byte of the first hole is read, then one is written behind it. -/
def readFs : Fs := after (fileRead 12288 1 0) (onDisk holedDisk 20)

lemma hasRead_readFs : HasRead smallFiles readFs.content 12288 1 0 [0x11] := by
  refine ⟨.inr rfl, by decide, onDisk holedDisk 20, readFs, ?_, ?_, ?_, eq_ok_of_resultOf (by decide +kernel), rfl⟩
  · rw [content_onDisk]
    exact wf_holedDisk
  · unfold IsDir
    decide +kernel
  · decide +kernel

/-- The byte that has been read is kept by the write behind it. -/
theorem fileWrite_written_holed : HasRead smallFiles readFs.content 12288 1 0 [0x11] ∧
    Sat (fileWrite 12288 [7] 4096) readFs
      (fun r t => Written smallFiles 12288 [7] 4096 readFs.content t.content r) NoMem := by
  have hread := hasRead_readFs
  exact ⟨hread, fileWrite_written hread.wf hread.1 hread.standsIn.regular hread.standsIn.size (by decide)
    (by decide +kernel) rfl⟩

end SistemasOperativos.Fs
