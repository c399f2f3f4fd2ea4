import SistemasOperativos.Fs.Ranges
import SistemasOperativos.Fs.Truncation
import SistemasOperativos.Library.SignedWords

/-!
# Reading and writing

The loops of `file_read` and `file_write` for offsets that are not negative.
-/

namespace SistemasOperativos.Fs

open Library Kern

/-- Why a loop that begins at block `n₀` gets an error for block `j`. -/
def Refused (c : ℕ → Byte) (f n₀ j : ℕ) (r : ℤ) : Prop :=
  (maxLen ≤ j ∧ r = -eInval) ∨
  (r = -eNoDisk ∧ j < maxLen ∧ freeCount c = need c f n₀ j ∧ ndirect ≤ j ∧ indirectOf c f = 0 ∧
    ¬(n₀ < j ∧ ndirect < j))

/-- Why it stops the server at block `j`: the free blocks do not reach to it. -/
def Chokes (c : ℕ → Byte) (f n₀ j : ℕ) : Prop :=
  j < maxLen ∧ blockOf c f j = 0 ∧ freeCount c = holes c f n₀ j + extra c f j

variable {c c' : ℕ → Byte} {F : Set ℕ} {len : ℕ → ℕ} {s t : Fs} {a b d f g i j m n n₀ p lo hi : ℕ}
  {data : ℕ → Byte} {pos stop w : Word} {bs buf : List Byte}

/-! ### Blocks -/

namespace Passed

lemma freeCount_eq (hp : Passed F len f n₀ m lo hi data w c c') :
    freeCount c' + need c f n₀ m = freeCount c := by
  have hroom := hp.room
  rw [freeCount_eq_length, hp.list, List.length_drop, ← freeCount_eq_length]
  omega

/-- The bytes of a block that has been passed were there before. -/
lemma region (hp : Passed F len f n₀ m lo hi data w c c') (hf : f ∈ F) (hdata : IsDir c f → len f ≤ n₀)
    (hle : n₀ ≤ j) (hlt : j < m) : DataBlock c F len (blockOf c' f j) ∨
      (IsFree c (blockOf c' f j) ∧ blockOf c' f j ≠ indirectOf c' f) := by
  obtain ⟨hmax, hpos⟩ := hp.present j hle hlt
  have hblock := hp.blocks f hf j hmax
  rw [if_pos ⟨rfl, hle, hlt⟩] at hblock
  unfold sourceBlock at hblock
  by_cases hzero : blockOf c f j = 0
  · right
    rw [if_pos hzero] at hblock
    refine ⟨?_, fun heq => hp.tree.indirectOf_ne_blockOf hf hf hmax hpos heq.symm⟩
    rw [← mem_freeList]
    unfold standIn at hblock
    cases hget : (freeList c)[holes c f n₀ j + extra c f j]? with
    | none =>
      rw [hget] at hblock
      exact absurd hblock hpos
    | some b =>
      rw [hget] at hblock
      rw [hblock]
      exact List.mem_of_getElem? hget
  · left
    rw [if_neg hzero] at hblock
    rw [hblock]
    exact ⟨f, hf, j, hmax, fun hdir => (hdata hdir).trans hle, hzero, rfl⟩

lemma get_sat (hp : Passed F len f n₀ m lo hi data w c s.content) (ht : Tree c F len) (hf : f ∈ F)
    (hdata : IsDir c f → len f ≤ n₀) (h : n₀ ≤ m)
    (hrange : ∀ p, lo ≤ p → p < hi → n₀ ≤ p / 4096 ∧ p / 4096 < m) :
    Sat (fileGetBlock f m) s
      (fun r t => (r = .ok (4096 * blockOf t.content f m) ∧
        Passed F len f n₀ (m + 1) lo hi data w c t.content) ∨
        (∃ r', r = .error r' ∧ Refused c f n₀ m r' ∧ t.content = s.content))
      (fun e t => NoMem e t ∨ (e = .badBlock 4294967287 ∧ Chokes c f n₀ m)) := by
  have hfree := hp.freeCount_eq
  have hextra := hp.need_add_extra hf
  refine (hp.tree.getBlock_sat hf m rfl).mono ?_ ?_
  · intro r t hgets
    generalize hct : t.content = c' at hgets
    cases hgets with
    | inval hn => exact .inr ⟨_, rfl, .inl ⟨hn, rfl⟩, rfl⟩
    | full hn hone hfull =>
      obtain ⟨hge, hnone⟩ := extra_eq_one.mp hone
      refine .inr ⟨_, rfl, .inr ⟨rfl, hn, by omega, hge, ?_, ?_⟩, rfl⟩
      · rcases hp.indirect f hf with heq | ⟨-, hzero, -⟩
        · rw [← heq]
          exact hnone
        · exact hzero
      · exact fun hand => hp.added hand.1 hand.2 hnone
    | got hn _ hfilled => exact .inl ⟨rfl, hp.next ht hf hdata h hn hrange hfilled⟩
  · rintro e t (hmem | ⟨rfl, hn, hzero, hcount⟩)
    · exact .inl hmem
    · refine .inr ⟨rfl, hn, ?_, by omega⟩
      rw [← hzero, hp.blocks f hf m hn, if_neg (fun hand => Nat.lt_irrefl m hand.2.2)]

end Passed

/-! ### Chunks -/

lemma toNat_minWord (x y : Word) : (minWord x y).toNat = min x.toNat y.toNat := by
  unfold minWord
  by_cases h : x ≤ y
  · rw [if_pos h]
    have h : x.toNat ≤ y.toNat := h
    omega
  · rw [if_neg h]
    have h : ¬x.toNat ≤ y.toNat := h
    omega

lemma toNat_srem (hpos : pos.toNat < 2 ^ 31) : (pos.srem 4096).toNat = pos.toNat % 4096 :=
  toNat_srem_of_small hpos (by decide)

lemma toNat_sdiv (hpos : pos.toNat < 2 ^ 31) : (pos.sdiv 4096).toNat = pos.toNat / 4096 :=
  toNat_sdiv_of_small hpos (by decide)

/-- The number of bytes up to the end of a block or of the range. -/
lemma toNat_chunk (hlt : pos.toNat < stop.toNat) (hpos : pos.toNat < 2 ^ 31) :
    (chunk pos stop).toNat = min (4096 - pos.toNat % 4096) (stop.toNat - pos.toNat) := by
  have hrem : (pos.srem 4096).toNat = pos.toNat % 4096 := toNat_srem (by omega)
  have hleft : (4096 - pos.srem 4096 : Word).toNat = 4096 - pos.toNat % 4096 := by
    rw [BitVec.toNat_sub, hrem]
    change (2 ^ 32 - pos.toNat % 4096 + 4096) % 2 ^ 32 = _
    omega
  unfold chunk
  rw [toNat_minWord, hleft, BitVec.toNat_sub_of_le (by exact Nat.le_of_lt hlt)]

lemma posAddr_eq (hpos : pos.toNat < 2 ^ 31) (blk : ℕ) :
    posAddr blk pos = blk + pos.toNat % 4096 := by
  have hrem := toNat_srem hpos
  unfold posAddr
  rw [toInt_of_small (by omega), hrem]
  omega

lemma loadBytes_ready (n : ℕ) (h : Ready s b) (ha : n = 0 ∨ a / 4096 = b) (hfits : a % 4096 + n ≤ 4096) :
    Sat (loadBytes a n) s (fun bs t => bs.length = n ∧
      (∀ k (hk : k < bs.length), bs[k] = s.content (a + k)) ∧ t.content = s.content) NoMem := by
  induction n generalizing a s with
  | zero =>
    unfold loadBytes
    refine sat_pure.mpr ⟨rfl, ?_, rfl⟩
    intro k hk
    cases hk
  | succ n ih =>
    have ha : a / 4096 = b := ha.resolve_left (Nat.succ_ne_zero n)
    unfold loadBytes
    rw [sat_bind]
    refine (loadByte_ready (by rw [ha]; exact h)).post ?_
    rintro x t ⟨rfl, ht, hready⟩
    rw [ha] at hready
    rw [sat_bind]
    refine (ih (a := a + 1) hready (by omega) (by omega)).post ?_
    rintro bs u ⟨hlen, hbs, hu⟩
    refine sat_pure.mpr ⟨by rw [List.length_cons, hlen], ?_, hu.trans ht.content⟩
    intro k hk
    cases k with
    | zero => rfl
    | succ k =>
      rw [List.length_cons] at hk
      have hadd : a + (k + 1) = a + 1 + k := by omega
      rw [List.getElem_cons_succ, hbs k (by omega), ht.content, hadd]

/-! ### The loop of `file_read` -/

/-- The blocks that have been passed when a loop from `p` has come to `q`. -/
def passedTo (m p q : ℕ) : ℕ := if p < q then ceilBlocks q else m

/-- Where a turn of a loop ends. -/
lemma turn (hlt : pos.toNat < stop.toNat) (hpos : pos.toNat < 2 ^ 31) :
    (pos + chunk pos stop).toNat =
      pos.toNat + min (4096 - pos.toNat % 4096) (stop.toNat - pos.toNat) := by
  rw [BitVec.toNat_add, toNat_chunk hlt hpos]
  omega

/-- No turn leaves the blocks that a file can have. -/
lemma next_lt (hpos : pos.toNat < 2 ^ 31) (hblock : pos.toNat / 4096 = m) (hm : m < maxLen) :
    (pos + chunk pos stop).toNat < 2 ^ 31 := by
  have hle : (chunk pos stop).toNat ≤ 4096 := by
    have hrem := toNat_srem hpos
    unfold chunk
    rw [toNat_minWord, BitVec.toNat_sub, hrem]
    change min ((2 ^ 32 - pos.toNat % 4096 + 4096) % 2 ^ 32) _ ≤ 4096
    omega
  unfold maxLen ndirect nindirect at hm
  rw [BitVec.toNat_add]
  omega

/-- A turn passes the block of its position. -/
lemma passedTo_turn (hlt : pos.toNat < stop.toNat) (hpos : pos.toNat < 2 ^ 31)
    (hblock : pos.toNat / 4096 = m) :
    passedTo (m + 1) (pos + chunk pos stop).toNat stop.toNat = passedTo m pos.toNat stop.toNat := by
  have hturn := turn hlt hpos
  unfold passedTo ceilBlocks
  rw [if_pos hlt]
  split
  · rfl
  · omega

lemma lt_passedTo (hlt : p < n) (hblock : p / 4096 = m) : m < passedTo m p n := by
  unfold passedTo ceilBlocks
  rw [if_pos hlt]
  omega

/-- What a loop of `file_read` from `pos` returns, after it has begun at block `n₀`. -/
def ReadBack (c : ℕ → Byte) (f n₀ : ℕ) (pos stop : Word) (bs : List Byte) : Prop :=
  bs.length = stop.toNat - pos.toNat ∧ ∀ k (hk : k < bs.length),
    bs[k] = c (4096 * sourceBlock c f n₀ ((pos.toNat + k) / 4096) + (pos.toNat + k) % 4096)

lemma ReadBack.append (hlt : pos.toNat < stop.toNat) (hpos : pos.toNat < 2 ^ 31)
    (hlen : bs.length = (chunk pos stop).toNat)
    (hbs : ∀ k (hk : k < bs.length),
      bs[k] = c (4096 * sourceBlock c f n₀ (pos.toNat / 4096) + pos.toNat % 4096 + k))
    (hrest : ReadBack c f n₀ (pos + chunk pos stop) stop buf) :
    ReadBack c f n₀ pos stop (bs ++ buf) := by
  obtain ⟨hlen', hbuf⟩ := hrest
  rw [toNat_chunk hlt hpos] at hlen
  rw [turn hlt hpos] at hlen' hbuf
  constructor
  · rw [List.length_append]
    omega
  · intro k hk
    by_cases hfirst : k < bs.length
    · have hdiv : (pos.toNat + k) / 4096 = pos.toNat / 4096 := by omega
      have hmod : (pos.toNat + k) % 4096 = pos.toNat % 4096 + k := by omega
      rw [List.getElem_append_left hfirst, hbs k hfirst, hdiv, hmod, Nat.add_assoc]
    · rw [List.length_append] at hk
      have hadd : pos.toNat + min (4096 - pos.toNat % 4096) (stop.toNat - pos.toNat) +
          (k - bs.length) = pos.toNat + k := by omega
      rw [List.getElem_append_right (Nat.not_lt.mp hfirst), hbuf _ (by omega), hadd]

lemma Tree.readLoop_sat (ht : Tree c F len) (hf : f ∈ F) (hdata : IsDir c f → len f ≤ n₀)
    (stop : Word) (fuel : ℕ) (pos : Word) (hpos : pos.toNat < 2 ^ 31) (hfuel : stop.toNat - pos.toNat ≤ fuel)
    (hle : pos.toNat ≤ stop.toNat) (hm : pos.toNat < stop.toNat → pos.toNat / 4096 = m) (h : n₀ ≤ m)
    (hp : Passed F len f n₀ m lo lo data w c s.content) :
    Sat (readLoop f stop fuel pos) s
      (fun r t => (∃ bs, r = .ok bs ∧ ReadBack c f n₀ pos stop bs ∧
        Passed F len f n₀ (passedTo m pos.toNat stop.toNat) lo lo data w c t.content) ∨
        (∃ r' j, r = .error r' ∧ m ≤ j ∧ j < passedTo m pos.toNat stop.toNat ∧ Refused c f n₀ j r' ∧
          Passed F len f n₀ j lo lo data w c t.content))
      (fun e t => NoMem e t ∨ (e = .badBlock 4294967287 ∧
        ∃ j, m ≤ j ∧ j < passedTo m pos.toNat stop.toNat ∧ Chokes c f n₀ j)) := by
  have hnone : ∀ p, lo ≤ p → p < lo → n₀ ≤ p / 4096 ∧ p / 4096 < m :=
    fun p hlo hhi => absurd hlo (Nat.not_le.mpr hhi)
  induction fuel generalizing pos m s with
  | zero =>
    unfold readLoop passedTo
    refine sat_pure.mpr (.inl ⟨[], rfl, ⟨?_, ?_⟩, ?_⟩)
    · rw [List.length_nil]
      omega
    · intro k hk
      cases hk
    · rw [if_neg (by omega)]
      exact hp
  | succ fuel ih =>
    unfold readLoop
    rw [sat_ite]
    constructor
    · intro hlt
      have hlt : pos.toNat < stop.toNat := hlt
      have hturn := turn hlt hpos
      have hblock := hm hlt
      rw [sat_bind, toNat_sdiv (by omega), hblock]
      refine (hp.get_sat ht hf hdata h hnone).mono ?_ ?_
      · rintro r t (⟨rfl, hp'⟩ | ⟨r', rfl, hr, hct⟩)
        · dsimp only
          rw [sat_bind, posAddr_eq (by omega)]
          have hpassed := hp'.present m h (Nat.lt_succ_self m)
          have huse := (hp'.tree.blockOf_inUse hf hpassed.1 hpassed.2).2
          have hchunk := toNat_chunk hlt hpos
          have hdiv : (4096 * blockOf t.content f m + pos.toNat % 4096) / 4096 =
              blockOf t.content f m := by omega
          refine (loadBytes_ready _ (.inr ⟨hp'.tree.super, huse⟩) (.inr hdiv) (by omega)).mono ?_
            (fun _ _ h => .inl h)
          rintro bs u ⟨hlen, hbs, hu⟩
          have hsource : blockOf t.content f m = sourceBlock c f n₀ m := by
            rw [hp'.blocks f hf m hpassed.1, if_pos ⟨rfl, h, Nat.lt_succ_self m⟩]
          have hbs' : ∀ k (hk : k < bs.length), bs[k] =
              c (4096 * sourceBlock c f n₀ (pos.toNat / 4096) + pos.toNat % 4096 + k) := by
            intro k hk
            have hdiv' : (4096 * blockOf t.content f m + pos.toNat % 4096 + k) / 4096 =
                blockOf t.content f m := by omega
            rw [hbs k hk, hblock, ← hsource]
            apply hp'.same
            · rw [hdiv']
              exact hp'.region hf hdata h (Nat.lt_succ_self m)
            · exact fun p hlo hhi => absurd hlo (Nat.not_le.mpr hhi)
          rw [sat_bind]
          rw [← hu] at hp'
          refine (ih (pos + chunk pos stop) (next_lt hpos hblock hpassed.1) (by omega) (by omega)
            (by omega) (by omega) hp' ?_).mono ?_ ?_
          · exact fun p hlo hhi => absurd hlo (Nat.not_le.mpr hhi)
          · rintro r v (⟨buf, rfl, hread, hp''⟩ | ⟨r', j, rfl, hj, hj', hr, hp''⟩)
            · refine sat_pure.mpr (.inl ⟨_, rfl, hread.append hlt hpos hlen hbs', ?_⟩)
              rw [← passedTo_turn hlt hpos hblock]
              exact hp''
            · rw [passedTo_turn hlt hpos hblock] at hj'
              exact sat_pure.mpr (.inr ⟨r', j, rfl, by omega, hj', hr, hp''⟩)
          · rintro e v (hmem | ⟨rfl, j, hj, hj', hchokes⟩)
            · exact .inl hmem
            · rw [passedTo_turn hlt hpos hblock] at hj'
              exact .inr ⟨rfl, j, by omega, hj', hchokes⟩
        · refine sat_pure.mpr (.inr ⟨r', m, rfl, le_rfl, lt_passedTo hlt hblock, hr,
            by rw [hct]; exact hp⟩)
      · rintro e t (hmem | ⟨rfl, hchokes⟩)
        · exact .inl hmem
        · exact .inr ⟨rfl, m, le_rfl, lt_passedTo hlt hblock, hchokes⟩
    · intro hge
      have hge : ¬pos.toNat < stop.toNat := hge
      unfold passedTo
      refine sat_pure.mpr (.inl ⟨[], rfl, ⟨?_, ?_⟩, ?_⟩)
      · rw [List.length_nil]
        omega
      · intro k hk
        cases hk
      · rw [if_neg hge]
        exact hp

/-! ### The loop of `file_write` -/

lemma Tree.writeLoop_sat (ht : Tree c F len) (hf : f ∈ F) (hdata : IsDir c f → len f ≤ n₀)
    (stop : Word) (hlo : n₀ ≤ lo / 4096) (fuel : ℕ) (pos : Word) (buf : List Byte) (hpos : pos.toNat < 2 ^ 31)
    (hfuel : stop.toNat - pos.toNat ≤ fuel) (hle : pos.toNat ≤ stop.toNat) (hfirst : lo ≤ pos.toNat)
    (hm : pos.toNat < stop.toNat → pos.toNat / 4096 = m) (h : n₀ ≤ m)
    (hlen : buf.length = stop.toNat - pos.toNat)
    (hbuf : ∀ k (hk : k < buf.length), buf[k] = data (pos.toNat + k))
    (hrange : ∀ p, lo ≤ p → p < pos.toNat → n₀ ≤ p / 4096 ∧ p / 4096 < m)
    (hp : Passed F len f n₀ m lo pos.toNat data w c s.content) :
    Sat (writeLoop f stop fuel pos buf) s
      (fun r t => (r = .ok () ∧
        Passed F len f n₀ (passedTo m pos.toNat stop.toNat) lo stop.toNat data w c t.content) ∨
        (∃ r' j hi, r = .error r' ∧ m ≤ j ∧ j < passedTo m pos.toNat stop.toNat ∧ Refused c f n₀ j r' ∧
          hi ≤ stop.toNat ∧ Passed F len f n₀ j lo hi data w c t.content))
      (fun e t => NoMem e t ∨ (e = .badBlock 4294967287 ∧
        ∃ j, m ≤ j ∧ j < passedTo m pos.toNat stop.toNat ∧ Chokes c f n₀ j)) := by
  induction fuel generalizing pos m s buf with
  | zero =>
    have heq : pos.toNat = stop.toNat := by omega
    unfold writeLoop passedTo
    refine sat_pure.mpr (.inl ⟨rfl, ?_⟩)
    rw [if_neg (by omega), ← heq]
    exact hp
  | succ fuel ih =>
    unfold writeLoop
    rw [sat_ite]
    constructor
    · intro hlt
      have hlt : pos.toNat < stop.toNat := hlt
      have hturn := turn hlt hpos
      have hchunk := toNat_chunk hlt hpos
      have hblock := hm hlt
      rw [sat_bind, toNat_sdiv (by omega), hblock]
      refine (hp.get_sat ht hf hdata h hrange).mono ?_ ?_
      · rintro r t (⟨rfl, hp'⟩ | ⟨r', rfl, hr, hct⟩)
        · dsimp only
          rw [sat_bind, posAddr_eq (by omega)]
          have hpassed := hp'.present m h (Nat.lt_succ_self m)
          obtain ⟨hbm, huse⟩ := hp'.tree.blockOf_inUse hf hpassed.1 hpassed.2
          have hdiv : (4096 * blockOf t.content f m + pos.toNat % 4096) / 4096 =
              blockOf t.content f m := by omega
          have hposOf : posOf t.content f pos.toNat =
              4096 * blockOf t.content f m + pos.toNat % 4096 := by
            unfold posOf
            rw [hblock]
          have htake : (buf.take (chunk pos stop).toNat).length = (chunk pos stop).toNat := by
            rw [List.length_take]
            omega
          refine (storeBytes_sat _ (by rw [htake]; omega) hp'.tree.super (by rw [hdiv]; exact hbm)
            (by rw [hdiv]; exact huse)).mono ?_ (fun _ _ h => .inl h)
          rintro _ u hu
          have hwritten := hp'.write hf hdata hlo hfirst (by omega)
            (buf.take (chunk pos stop).toNat) (by rw [htake]; omega) (by
              intro k hk
              rw [List.getElem_take]
              exact hbuf k _)
          rw [htake, hposOf, ← hu] at hwritten
          have hnext : pos.toNat + (chunk pos stop).toNat = (pos + chunk pos stop).toNat := by
            rw [hturn, hchunk]
          rw [hnext] at hwritten
          refine (ih (pos + chunk pos stop) (buf.drop (chunk pos stop).toNat)
            (next_lt hpos hblock hpassed.1) (by omega) (by omega) (by omega) (by omega) (by omega)
            ?_ ?_ ?_ hwritten).mono ?_ ?_
          · rw [List.length_drop]
            omega
          · intro k hk
            rw [List.length_drop] at hk
            have hadd : pos.toNat + ((chunk pos stop).toNat + k) =
                (pos + chunk pos stop).toNat + k := by omega
            rw [List.getElem_drop, hbuf _ (by omega), hadd]
          · intro p hlo' hhi
            exact ⟨hlo.trans (Nat.div_le_div_right hlo'), by omega⟩
          · rintro r v (⟨rfl, hp''⟩ | ⟨r', j, hi, rfl, hj, hj', hr, hhi, hp''⟩)
            · rw [← passedTo_turn hlt hpos hblock]
              exact .inl ⟨rfl, hp''⟩
            · rw [passedTo_turn hlt hpos hblock] at hj'
              exact .inr ⟨r', j, hi, rfl, by omega, hj', hr, hhi, hp''⟩
          · rintro e v (hmem | ⟨rfl, j, hj, hj', hchokes⟩)
            · exact .inl hmem
            · rw [passedTo_turn hlt hpos hblock] at hj'
              exact .inr ⟨rfl, j, by omega, hj', hchokes⟩
        · refine sat_pure.mpr (.inr ⟨r', m, pos.toNat, rfl, le_rfl, lt_passedTo hlt hblock,
            hr, hle, by rw [hct]; exact hp⟩)
      · rintro e t (hmem | ⟨rfl, hchokes⟩)
        · exact .inl hmem
        · exact .inr ⟨rfl, m, le_rfl, lt_passedTo hlt hblock, hchokes⟩
    · intro hge
      have hge : ¬pos.toNat < stop.toNat := hge
      have heq : pos.toNat = stop.toNat := by omega
      unfold passedTo
      refine sat_pure.mpr (.inl ⟨rfl, ?_⟩)
      rw [if_neg hge, ← heq]
      exact hp

/-! ### `file_read` and `file_write` -/

/-- Where `file_read` stops. -/
def readStop (c : ℕ → Byte) (f : ℕ) (count offset : Word) : ℕ :=
  max offset.toNat (min (offset.toNat + count.toNat) (fileSize c f).toNat)

/-- The bytes that `file_read` returns: those that stand at the positions from the offset on. -/
def ReadsAt (c : ℕ → Byte) (f : ℕ) (count offset : Word) (bs : List Byte) : Prop :=
  bs.length = readStop c f count offset - offset.toNat ∧ ∀ k (hk : k < bs.length),
    bs[k] = c (4096 * sourceBlock c f (offset.toNat / 4096) ((offset.toNat + k) / 4096) +
      (offset.toNat + k) % 4096)

lemma Tree.fileRead_sat (h : Tree c F len) (hf : f ∈ F)
    (count offset : Word) (hdata : IsDir c f → len f ≤ offset.toNat / 4096)
    (hoffset : offset.toNat < 2 ^ 31) (hsize : (fileSize c f).toNat < 2 ^ 31) (hs : s.content = c) :
    Sat (fileRead f count offset) s
      (fun r t => (∃ bs, r = .ok bs ∧ ReadsAt c f count offset bs ∧
        Passed F len f (offset.toNat / 4096)
          (passedTo (offset.toNat / 4096) offset.toNat (readStop c f count offset)) 0 0 (fun _ => 0)
          (fileSize c f) c t.content) ∨
        (∃ r' j, r = .error r' ∧ offset.toNat / 4096 ≤ j ∧
          j < passedTo (offset.toNat / 4096) offset.toNat (readStop c f count offset) ∧
          Refused c f (offset.toNat / 4096) j r' ∧
          Passed F len f (offset.toNat / 4096) j 0 0 (fun _ => 0) (fileSize c f) c t.content))
      (fun e t => NoMem e t ∨ (e = .badBlock 4294967287 ∧ ∃ j, offset.toNat / 4096 ≤ j ∧
        j < passedTo (offset.toNat / 4096) offset.toNat (readStop c f count offset) ∧
        Chokes c f (offset.toNat / 4096) j)) := by
  have hrefl := h.passed_refl f (offset.toNat / 4096) 0 (fun _ => 0)
  unfold fileRead
  rw [sat_bind]
  refine (loadWord_sat (by rw [hs]; exact h.super)
    (by rw [hs]; exact (h.fileAt hf).field (k := 128) (by decide))).mono ?_ (fun _ _ h => .inl h)
  rintro w t ⟨rfl, ht⟩
  have hct : t.content = c := ht.content.trans hs
  have hw : wordAt s.content (fSize f) = fileSize c f := by
    rw [hs]
    rfl
  rw [hw, sat_ite, sle_of_small hsize hoffset]
  unfold ReadsAt
  constructor
  · intro hle
    have hstop : readStop c f count offset = offset.toNat := by
      unfold readStop
      omega
    rw [hstop]
    refine sat_pure.mpr (.inl ⟨[], rfl, ⟨?_, ?_⟩, ?_⟩)
    · rw [Nat.sub_self]
      rfl
    · intro k hk
      cases hk
    · unfold passedTo
      rw [if_neg (Nat.lt_irrefl _), hct]
      exact hrefl
  · intro hlt
    have hleft : (fileSize c f - offset).toNat = (fileSize c f).toNat - offset.toNat :=
      BitVec.toNat_sub_of_le (Nat.le_of_lt (Nat.not_le.mp hlt))
    have hcount : (minWord count (fileSize c f - offset)).toNat =
        min count.toNat ((fileSize c f).toNat - offset.toNat) := by
      rw [toNat_minWord, hleft]
    have hstop : (offset + minWord count (fileSize c f - offset)).toNat = readStop c f count offset := by
      unfold readStop
      rw [BitVec.toNat_add, hcount]
      omega
    have hbound : readStop c f count offset < 2 ^ 31 := by
      unfold readStop
      omega
    have hge : offset.toNat ≤ readStop c f count offset := Nat.le_max_left _ _
    have hstart : Passed F len f (offset.toNat / 4096) (offset.toNat / 4096) 0 0 (fun _ => 0)
        (fileSize c f) c t.content := by
      rw [hct]
      exact hrefl
    have hfuel : (offset + minWord count (fileSize c f - offset)).toNat - offset.toNat ≤
        (minWord count (fileSize c f - offset)).toNat := by
      rw [hstop, hcount]
      unfold readStop
      omega
    have hloop := h.readLoop_sat hf hdata (offset + minWord count (fileSize c f - offset))
      (minWord count (fileSize c f - offset)).toNat offset hoffset hfuel (by omega) (fun _ => rfl) le_rfl
      hstart
    unfold ReadBack at hloop
    rw [hstop] at hloop
    exact hloop

/-- A `file_set_size` that does not shrink the file. -/
lemma Tree.fileSetSize_grow (h : Tree c F len) (hf : f ∈ F) (hge : ¬w.slt (fileSize c f) = true)
    (hs : s.content = c) :
    Sat (fileSetSize f w) s (fun _ t => t.content = putWord c (fSize f) w) NoMem := by
  have hfile := h.fileAt hf
  have hal := hfile.aligned
  unfold fileSetSize
  rw [sat_bind]
  refine (loadWord_sat (by rw [hs]; exact h.super)
    (by rw [hs]; exact hfile.field (k := 128) (by decide))).post ?_
  rintro x t ⟨rfl, ht⟩
  have hct : t.content = c := ht.content.trans hs
  have hw : wordAt s.content (fSize f) = fileSize c f := by
    rw [hs]
    rfl
  rw [hw, if_neg hge, sat_bind]
  refine (storeWord_sat (by rw [hct]; exact h.super)
    (by rw [hct]; exact hfile.field (k := 128) (by decide)) (by unfold fSize; omega) w).post ?_
  intro _ u hu
  have hblock : f / 4096 < maxBlocks := Nat.lt_of_lt_of_le hfile.inUse.1 h.super.size
  refine (flushBlock_sat hblock).post ?_
  rintro - v rfl
  rw [content_flush, hu.content, hct]

/-- The size of a file after a `file_write` that ends at `stop`. -/
def sizeAfter (c : ℕ → Byte) (f : ℕ) (stop : Word) : Word :=
  if fileSize c f < stop then stop else fileSize c f

/-- The content after `file_set_size`. -/
def sized (c : ℕ → Byte) (f : ℕ) (w : Word) : ℕ → Byte :=
  putWord (if w.slt (fileSize c f) then truncated c f w else c) (fSize f) w

/-- The content when the loop of `file_write` begins. -/
def begun (c : ℕ → Byte) (f : ℕ) (stop : Word) : ℕ → Byte :=
  if fileSize c f < stop then sized c f stop else c

section Begun

variable (h : Tree c F len) (hf : f ∈ F) (hge : fileSize c f < stop → ¬stop.slt (fileSize c f) = true)
include h hf hge

/-- A write that does not shrink its file writes the new size at most. -/
lemma Tree.begun_cases : (fileSize c f < stop ∧ Resized F len f stop c (begun c f stop)) ∨
    (¬fileSize c f < stop ∧ begun c f stop = c) := by
  by_cases hlt : fileSize c f < stop
  · refine .inl ⟨hlt, ?_⟩
    unfold begun sized
    rw [if_pos hlt, if_neg (hge hlt)]
    exact h.resized hf stop
  · exact .inr ⟨hlt, if_neg hlt⟩

lemma Tree.tree_grown : Tree (begun c f stop) F len ∧ Kept F len c (begun c f stop) ∧
    fileSize (begun c f stop) f = sizeAfter c f stop := by
  unfold sizeAfter
  rcases h.begun_cases hf hge with ⟨hlt, hr⟩ | ⟨hlt, heq⟩
  · rw [if_pos hlt]
    exact ⟨hr.tree, hr.kept, hr.size⟩
  · rw [if_neg hlt, heq]
    exact ⟨h, Kept.refl F len c, rfl⟩

lemma Tree.passed_grown
    (hp : Passed F len f n₀ m lo hi data (sizeAfter c f stop) (begun c f stop) c') :
    Passed F len f n₀ m lo hi data (sizeAfter c f stop) c c' := by
  unfold sizeAfter at hp ⊢
  rcases h.begun_cases hf hge with ⟨hlt, hr⟩ | ⟨hlt, heq⟩
  · rw [if_pos hlt] at hp ⊢
    exact hr.passed h hf hp
  · rw [if_neg hlt, heq] at hp
    rw [if_neg hlt]
    exact hp

lemma Tree.refused_grown {r : ℤ} (hr : Refused (begun c f stop) f n₀ j r) : Refused c f n₀ j r := by
  rcases h.begun_cases hf hge with ⟨hlt, hres⟩ | ⟨hlt, heq⟩
  · rcases hr with hr | ⟨hr, hj, hcount, hge, hzero, hno⟩
    · exact .inl hr
    · rw [hres.freeCount_eq, hres.need_eq hf (Nat.le_of_lt hj)] at hcount
      rw [hres.indirect f hf] at hzero
      exact .inr ⟨hr, hj, hcount, hge, hzero, hno⟩
  · rw [heq] at hr
    exact hr

lemma Tree.chokes_grown (hc : Chokes (begun c f stop) f n₀ j) : Chokes c f n₀ j := by
  rcases h.begun_cases hf hge with ⟨hlt, hres⟩ | ⟨hlt, heq⟩
  · obtain ⟨hj, hzero, hcount⟩ := hc
    rw [hres.freeCount_eq, hres.holes_eq hf (Nat.le_of_lt hj), hres.extra_eq hf] at hcount
    rw [hres.toInert.blockOf_same hf hj] at hzero
    exact ⟨hj, hzero, hcount⟩
  · rw [heq] at hc
    exact hc

end Begun

/-- The loop of `file_write` with the end of the function. -/
lemma Tree.writeTail_sat (h : Tree c F len) (hf : f ∈ F) (hdata : IsDir c f → len f ≤ n₀)
    (buf : List Byte) (offset stop : Word) (hn : offset.toNat / 4096 = n₀)
    (hstop : stop.toNat = offset.toNat + buf.length) (hoffset : offset.toNat < 2 ^ 31)
    (hs : s.content = c) : Sat (do
      match ← writeLoop f stop buf.length offset buf with
      | .error r => return .error r
      | .ok _ => return .ok buf.length : FsM (Except ℤ ℕ)) s
      (fun r t => (r = .ok buf.length ∧
        Passed F len f n₀ (passedTo n₀ offset.toNat stop.toNat) offset.toNat stop.toNat
          (fun p => buf.getD (p - offset.toNat) 0) (fileSize c f) c t.content) ∨
        (∃ r' j hi, r = .error r' ∧ n₀ ≤ j ∧ j < passedTo n₀ offset.toNat stop.toNat ∧
          Refused c f n₀ j r' ∧ hi ≤ stop.toNat ∧ Passed F len f n₀ j offset.toNat hi
            (fun p => buf.getD (p - offset.toNat) 0) (fileSize c f) c t.content))
      (fun e t => NoMem e t ∨ (e = .badBlock 4294967287 ∧
        ∃ j, n₀ ≤ j ∧ j < passedTo n₀ offset.toNat stop.toNat ∧ Chokes c f n₀ j)) := by
  have hstart : Passed F len f n₀ n₀ offset.toNat offset.toNat
      (fun p => buf.getD (p - offset.toNat) 0) (fileSize c f) c s.content := by
    rw [hs]
    exact h.passed_refl f n₀ offset.toNat _
  rw [sat_bind]
  refine (h.writeLoop_sat hf hdata stop (by omega) buf.length offset buf hoffset (by omega)
    (by omega) le_rfl (fun _ => hn) le_rfl (by omega) ?_ ?_ hstart).mono ?_ (fun _ _ he => he)
  · intro k hk
    have hsub : offset.toNat + k - offset.toNat = k := by omega
    rw [hsub, List.getD_eq_getElem?_getD, List.getElem?_eq_getElem hk]
    rfl
  · exact fun p hlo hhi => absurd hlo (Nat.not_le.mpr hhi)
  · rintro r t (⟨rfl, hp⟩ | ⟨r', j, hi, rfl, hj, hj', hr, hhi, hp⟩)
    · exact sat_pure.mpr (.inl ⟨rfl, hp⟩)
    · exact sat_pure.mpr (.inr ⟨r', j, hi, rfl, hj, hj', hr, hhi, hp⟩)

lemma Tree.fileWrite_sat (h : Tree c F len) (hf : f ∈ F) (hdata : IsDir c f → len f ≤ n₀)
    (buf : List Byte) (offset stop : Word) (hn : offset.toNat / 4096 = n₀)
    (hstop : stop.toNat = offset.toNat + buf.length) (hbound : stop.toNat < 2 ^ 31)
    (hsize : (fileSize c f).toNat < 2 ^ 31) (hs : s.content = c) :
    Sat (fileWrite f buf offset) s
      (fun r t => (r = .ok buf.length ∧
        Passed F len f n₀ (passedTo n₀ offset.toNat stop.toNat) offset.toNat stop.toNat
          (fun p => buf.getD (p - offset.toNat) 0) (sizeAfter c f stop) c t.content) ∨
        (∃ r' j hi, r = .error r' ∧ n₀ ≤ j ∧ j < passedTo n₀ offset.toNat stop.toNat ∧ Refused c f n₀ j r' ∧
          hi ≤ stop.toNat ∧ Passed F len f n₀ j offset.toNat hi
            (fun p => buf.getD (p - offset.toNat) 0) (sizeAfter c f stop) c t.content))
      (fun e t => NoMem e t ∨ (e = .badBlock 4294967287 ∧
        ∃ j, n₀ ≤ j ∧ j < passedTo n₀ offset.toNat stop.toNat ∧ Chokes c f n₀ j)) := by
  have hsum : offset + BitVec.ofNat 32 buf.length = stop := by
    apply BitVec.eq_of_toNat_eq
    rw [BitVec.toNat_add, BitVec.toNat_ofNat, hstop]
    omega
  have hge : fileSize c f < stop → ¬stop.slt (fileSize c f) = true := by
    intro hlt
    rw [slt_of_small hbound hsize]
    have hlt : (fileSize c f).toNat < stop.toNat := hlt
    omega
  obtain ⟨htree, hkept, hsizeAfter⟩ := h.tree_grown hf hge
  have hloop : ∀ u : Fs, u.content = begun c f stop → Sat (do
      match ← writeLoop f stop buf.length offset buf with
      | .error r => return .error r
      | .ok _ => return .ok buf.length : FsM (Except ℤ ℕ)) u
      (fun r t => (r = .ok buf.length ∧
        Passed F len f n₀ (passedTo n₀ offset.toNat stop.toNat) offset.toNat stop.toNat
          (fun p => buf.getD (p - offset.toNat) 0) (sizeAfter c f stop) c t.content) ∨
        (∃ r' j hi, r = .error r' ∧ n₀ ≤ j ∧ j < passedTo n₀ offset.toNat stop.toNat ∧ Refused c f n₀ j r' ∧
          hi ≤ stop.toNat ∧ Passed F len f n₀ j offset.toNat hi
            (fun p => buf.getD (p - offset.toNat) 0) (sizeAfter c f stop) c t.content))
      (fun e t => NoMem e t ∨ (e = .badBlock 4294967287 ∧
        ∃ j, n₀ ≤ j ∧ j < passedTo n₀ offset.toNat stop.toNat ∧ Chokes c f n₀ j)) := by
    intro u hu
    have hdata' : IsDir (begun c f stop) f → len f ≤ n₀ := fun hdir =>
      hdata ((hkept.isDir hf).mp hdir)
    have htail := htree.writeTail_sat hf hdata' buf offset stop hn hstop (by omega) hu
    rw [hsizeAfter] at htail
    refine htail.mono ?_ ?_
    · rintro r t (⟨rfl, hp⟩ | ⟨r', j, hi, rfl, hj, hj', hr, hhi, hp⟩)
      · exact .inl ⟨rfl, h.passed_grown hf hge hp⟩
      · exact .inr ⟨r', j, hi, rfl, hj, hj', h.refused_grown hf hge hr, hhi, h.passed_grown hf hge hp⟩
    · rintro e t (hmem | ⟨rfl, j, hj, hj', hc⟩)
      · exact .inl hmem
      · exact .inr ⟨rfl, j, hj, hj', h.chokes_grown hf hge hc⟩
  unfold fileWrite
  dsimp only
  rw [hsum, sat_bind]
  refine (loadWord_sat (by rw [hs]; exact h.super)
    (by rw [hs]; exact (h.fileAt hf).field (k := 128) (by decide))).mono ?_ (fun _ _ h => .inl h)
  rintro x t ⟨rfl, ht⟩
  have hct : t.content = c := ht.content.trans hs
  have hw : wordAt s.content (fSize f) = fileSize c f := by
    rw [hs]
    rfl
  rw [hw, sat_ite]
  constructor
  · intro hlt
    rw [sat_bind]
    refine (h.fileSetSize_grow hf (hge hlt) hct).mono ?_ (fun _ _ h => .inl h)
    intro _ u hu
    apply hloop u
    unfold begun sized
    rw [if_pos hlt, if_neg (hge hlt)]
    exact hu
  · intro hlt
    apply hloop t
    unfold begun
    rw [if_neg hlt]
    exact hct

end SistemasOperativos.Fs
