import SistemasOperativos.Fs.Overruns
import SistemasOperativos.Fs.Subtrees
import SistemasOperativos.Fs.Memory

/-!
# Requests for data

When `serve_read` and `serve_write` stay in the buffer of the request page, return at most its size and
advance the offset by what they return.
-/

namespace SistemasOperativos.Fs

open Library Kern

/-- The bytes of a reply that are put over the offset in the page are the bytes of the offset. -/
def Restores (s : Server) (f q m : ℕ) (offset : Word) : Prop :=
  ∀ k, fdOffset ≤ k → k < fdOffset + 4 → k < m → replied s.fs.content f offset k = s.page q k

namespace DataCall

/-- The number of bytes that are moved, from the size of the file. -/
def count (call : DataCall) (size n offset : Word) : Word :=
  match call with
  | read => minWord n (size - offset)
  | write => n

/-- The content when the loop begins. -/
def start (call : DataCall) (c : ℕ → Byte) (f : ℕ) (stop : Word) : ℕ → Byte :=
  match call with
  | read => c
  | write => begun c f stop

/-- `m` bytes are moved within the buffer, or the call ends before it leaves it. When the sum has wrapped
nothing is moved, and the result is `m`. -/
def Stays (call : DataCall) (s : Server) (q p f : ℕ) (m offset : Word) : Prop :=
  if offset < offset + m then
    call.Stops s (call.start s.fs.content f (offset + m)) f (min m.toNat (call.bound + 1)) offset ∨
      (m.toNat ≤ call.bound ∧ (call = read → p = q → Restores s f q m.toNat offset))
  else m.toNat ≤ call.bound ∨ 2 ^ 31 ≤ m.toNat

/-- A read from behind the end of the file moves nothing. -/
def Fits (call : DataCall) (s : Server) (q p f : ℕ) (n offset : Word) : Prop :=
  (call = read ∧ (fileSize s.fs.content f).sle offset = true) ∨
    call.Stays s q p f (call.count (fileSize s.fs.content f) n offset) offset

end DataCall

/-- The request in the page `q` fits into its buffer. -/
def Fitting (call : DataCall) (s : Server) (q : ℕ) : Prop :=
  Found s q → ∀ p, s.fdPage (slotOf s q) = some p →
    call.Fits s q p (s.opentab (slotOf s q)).file (wordAt (s.page q) reqN) (wordAt (s.page p) fdOffset)

/-- What a request to move data is to leave, when it returns `r`. -/
structure Within (call : DataCall) (q : ℕ) (s : Server) (r : ℤ) (t : Server) : Prop where
  result : r ≤ min (wordAt (s.page q) reqN).toNat call.bound
  offset : 0 ≤ r → ∀ p, s.fdPage (slotOf s q) = some p →
    wordAt (t.page p) fdOffset = wordAt (s.page p) fdOffset + BitVec.ofInt 32 r
  rest : Moved (fun p => call.Writes q p ∨ s.fdPage (slotOf s q) = some p) s t

/-- The same for what a transfer returns, which is added to the offset in the page `p`. -/
def Returns (call : DataCall) (q p : ℕ) (s t : Server) : Except ℤ Word → Prop
  | .error e => Within call q s e t
  | .ok m => if m.toInt < 0 then Within call q s m.toInt t else Within call q s m.toInt (advanced t p m)

variable {s t : Server} {x y : Fs} {c c' : ℕ → Byte} {F : Set ℕ} {len : ℕ → ℕ} {call : DataCall}
  {b f q p : ℕ} {n m offset stop : Word} {bs : List Byte} {r : ℤ}

/-! ### Results -/

lemma within_of_neg (hm : Moved (call.Writes q) s t) (hr : r < 0) : Within call q s r t := by
  refine ⟨by omega, fun hpos => absurd hpos (by omega), hm.mono (fun _ hw => .inl hw)⟩

lemma toInt_of_large (h : 2 ^ 31 ≤ m.toNat) : m.toInt < 0 := by
  have hlt := m.isLt
  rw [BitVec.toInt_eq_toNat_cond, if_neg (by omega)]
  omega

lemma returns_ok (hm : Moved (call.Writes q) s t) (hp : s.fdPage (slotOf s q) = some p) :
    Returns call q p s t (.ok m) ↔ 2 ^ 31 ≤ m.toNat ∨
      (m.toNat ≤ min (wordAt (s.page q) reqN).toNat call.bound ∧
        wordAt (t.page p) fdOffset = wordAt (s.page p) fdOffset) := by
  unfold Returns
  dsimp only
  by_cases hlarge : 2 ^ 31 ≤ m.toNat
  · have hneg := toInt_of_large hlarge
    rw [if_pos hneg]
    exact iff_of_true (within_of_neg hm hneg) (.inl hlarge)
  · have hint : m.toInt = m.toNat := toInt_of_small (Nat.not_le.mp hlarge)
    have hword : BitVec.ofInt 32 m.toInt = m := BitVec.ofInt_toInt
    have hadvanced : wordAt ((advanced t p m).page p) fdOffset = wordAt (t.page p) fdOffset + m := by
      unfold advanced
      dsimp only
      rw [Function.update_self, wordAt_putWord]
    rw [if_neg (by omega), or_iff_right hlarge]
    constructor
    · intro hw
      have hle := hw.result
      have hoffset := hw.offset (by omega) p hp
      rw [hadvanced, hword] at hoffset
      exact ⟨by omega, (BitVec.add_left_inj m).mp hoffset⟩
    · rintro ⟨hle, hsame⟩
      refine ⟨by omega, ?_, moved_advanced hm hp⟩
      intro _ p' hp'
      obtain rfl : p' = p := Option.some.inj (hp'.symm.trans hp)
      rw [hadvanced, hword, hsame]

/-- A reply over the offset leaves it, if and only if it puts there the bytes that are there. -/
lemma restores_iff (hlen : bs.length = m.toNat)
    (hbs : ∀ k (hk : k < bs.length), bs[k] = replied s.fs.content f offset k) :
    wordAt (putBytes (s.page q) 0 bs) fdOffset = wordAt (s.page q) fdOffset ↔
      Restores s f q m.toNat offset := by
  have hput : ∀ k (hk : k < bs.length), putBytes (s.page q) 0 bs k = replied s.fs.content f offset k := by
    intro k hk
    have hbyte := putBytes_of_lt (c := s.page q) (a := 0) hk
    rw [Nat.zero_add] at hbyte
    rw [hbyte, hbs k hk]
  rw [wordAt_eq_iff]
  constructor
  · intro hsame k hlo hhi hk
    rw [← hput k (by omega), hsame k hlo hhi]
  · intro hrestores k hlo hhi
    by_cases hk : k < bs.length
    · rw [hput k hk, hrestores k hlo hhi (by omega)]
    · exact putBytes_of_ne (by omega)

/-! ### The beginning of a transfer -/

/-- The file system when the loop of a call that moves data up to `stop` begins. -/
structure Begins (call : DataCall) (s : Fs) (f : ℕ) (stop : Word) (x : Fs) : Prop where
  content : x.content = call.start s.content f stop
  /-- it does not depend on what has been done before that the block before the file is in the cache -/
  barred : 2 ^ 32 < stop.toNat + 4096 → (Barred x x.content f ↔ Barred s x.content f)

lemma barred_congr (h : blockOf c f 0 ≠ 0 → IsFree c (blockOf c f 0 - 1) →
    (x.cache.pages (blockOf c f 0 - 1)).isSome = (y.cache.pages (blockOf c f 0 - 1)).isSome) :
    Barred x c f ↔ Barred y c f := by
  unfold Barred
  refine and_congr_right fun hpos => and_congr_right fun hfree => ?_
  rw [← Option.isNone_iff_eq_none, ← Option.isNone_iff_eq_none, ← Option.not_isSome, ← Option.not_isSome,
    h hpos hfree]

section Begin

variable (h : Tree x.content F len) (hf : f ∈ F)
include h hf

/-- The size of the file is read. -/
lemma Tree.loadSize_sat (h' : Tree c' F len) :
    Sat (loadWord (fSize f)) x (fun w t => w = fileSize x.content f ∧ t.content = x.content ∧
      (Barred t c' f ↔ Barred x c' f)) NoMem := by
  have hfield := (h.fileAt hf).field (k := 128) (by decide)
  by_cases hfree : IsFree c' (blockOf c' f 0 - 1)
  · have hapart : Apart (nbitmap c') (blockOf c' f 0 - 1) (fSize f / 4096) := by
      have hdiv := (h'.fileAt hf).field_div (k := 128) (by decide)
      have heq : fSize f / 4096 = f / 4096 := hdiv
      rw [heq]
      exact h'.apart_file hf hfree
    refine ((loadWord_sat h.super hfield).and (loadWord_keepsPage hapart x rfl)).mono ?_ (fun _ _ he => he.1)
    rintro w t ⟨⟨rfl, ht⟩, hpage⟩
    exact ⟨rfl, ht.content, barred_congr (fun _ _ => hpage)⟩
  · refine (loadWord_sat h.super hfield).post ?_
    rintro w t ⟨rfl, ht⟩
    exact ⟨rfl, ht.content, barred_congr (fun _ hyes => absurd hyes hfree)⟩

/-- `file_set_size` in a `file_write`. -/
lemma Tree.begun_sat (hno : NoEntries x.content len f) (stop : Word) :
    Sat (if fileSize x.content f < stop then fileSetSize f stop else pure ()) x
      (fun _ t => t.content = begun x.content f stop ∧ (2 ^ 32 < stop.toNat + 4096 →
        (Barred t (begun x.content f stop) f ↔ Barred x (begun x.content f stop) f))) NoMem := by
  have hcontent : Sat (if fileSize x.content f < stop then fileSetSize f stop else pure ()) x
      (fun _ t => t.content = begun x.content f stop) NoMem := by
    unfold begun
    rw [sat_ite]
    constructor
    · intro hlt
      rw [if_pos hlt]
      exact h.fileSetSize_sat hf hno stop rfl
    · intro hge
      rw [if_neg hge]
      exact sat_pure.mpr rfl
  by_cases hbefore : 2 ^ 32 < stop.toNat + 4096 ∧ blockOf (begun x.content f stop) f 0 ≠ 0 ∧
      IsFree (begun x.content f stop) (blockOf (begun x.content f stop) f 0 - 1)
  · obtain ⟨hstop, hpos, hfree⟩ := hbefore
    refine (hcontent.and (h.begun_page hf hno hstop hpos hfree)).mono ?_ (fun _ _ he => he.1)
    rintro - t ⟨ht, hpage⟩
    exact ⟨ht, fun _ => barred_congr (fun _ _ => hpage)⟩
  · refine hcontent.post fun _ t ht => ⟨ht, fun hstop => barred_congr fun hpos hfree => ?_⟩
    exact absurd ⟨hstop, hpos, hfree⟩ hbefore

end Begin

/-- What a transfer does before its loop, by the size of the file. -/
lemma Tree.transfer_sat (h : Tree s.fs.content F len) (hf : f ∈ F) (hno : NoEntries s.fs.content len f) (q : ℕ)
    {Q : Except ℤ Word → Server → Prop} {E : ServeExit → Server → Prop} (hmem : ∀ t, E (.fs .noMem) t)
    (hend : call = .read ∧ (fileSize s.fs.content f).sle offset = true → ∀ x, Q (.ok 0) { s with fs := x })
    (hloop : ¬(call = .read ∧ (fileSize s.fs.content f).sle offset = true) →
      ∀ m, call.count (fileSize s.fs.content f) n offset = m → ∀ x, Begins call s.fs f (offset + m) x →
        Sat (finish call q f m offset) { s with fs := x } Q E) :
    Sat (call.transfer q f n offset) s Q E := by
  cases call with
  | read =>
    change Sat (fileReadTo q f n offset) s Q E
    unfold fileReadTo
    rw [sat_bind, sat_onFs]
    refine (h.loadSize_sat hf h).mono ?_ (fun e x he => he.1 ▸ hmem _)
    rintro w x ⟨rfl, hx, hbarred⟩
    rw [sat_ite]
    refine ⟨fun hle => sat_pure.mpr (hend ⟨rfl, hle⟩ x), fun hlt => ?_⟩
    refine hloop (fun hand => hlt hand.2) _ rfl x ⟨hx, fun _ => ?_⟩
    rw [hx]
    exact hbarred
  | write =>
    have hread : ¬(DataCall.write = .read ∧ (fileSize s.fs.content f).sle offset = true) :=
      fun hand => absurd hand.1 (by decide)
    obtain ⟨htree, -, -⟩ := h.tree_begun hf hno (offset + n)
    change Sat (fileWriteFrom q f n offset) s Q E
    unfold fileWriteFrom
    rw [sat_bind, sat_onFs]
    refine (h.loadSize_sat hf htree).mono ?_ (fun e x he => he.1 ▸ hmem _)
    rintro w x ⟨rfl, hx, hbarred⟩
    have hbegun : Sat (if fileSize s.fs.content f < offset + n then fileSetSize f (offset + n) else pure ()) x
        (fun _ y => Sat (finish .write q f n offset) { s with fs := y } Q E)
        (fun e y => E (.fs e) { s with fs := y }) := by
      rw [← hx] at h hno
      rw [← hx] at hbarred ⊢
      refine (h.begun_sat hf hno (offset + n)).mono ?_ (fun e y he => he.1 ▸ hmem _)
      rintro - y ⟨hy, hsame⟩
      refine hloop hread n rfl y ⟨hy.trans (by rw [hx]; rfl), fun hstop => ?_⟩
      rw [hy]
      exact (hsame hstop).trans hbarred
    rw [sat_ite] at hbegun ⊢
    constructor
    · intro hlt
      rw [sat_bind, sat_onFs]
      exact hbegun.1 hlt
    · intro hge
      have hdone := sat_pure.mp (hbegun.2 hge)
      exact hdone

/-! ### Transfers -/

namespace Begins

lemma tree (hb : Begins call s.fs f stop x) (h : Tree s.fs.content F len) (hf : f ∈ F)
    (hno : NoEntries s.fs.content len f) : Tree x.content F len ∧ NoEntries x.content len f := by
  rw [hb.content]
  cases call with
  | read => exact ⟨h, hno⟩
  | write =>
    obtain ⟨htree, hkept, -⟩ := h.tree_begun hf hno stop
    exact ⟨htree, hkept.noEntries hf hno⟩

/-- Whether the call ends before is seen from the beginning. -/
lemma stops_iff (hb : Begins call s.fs f stop x) (hlt : offset < stop) {k : ℕ} :
    call.Stops { s with fs := x } x.content f k offset ↔
      call.Stops s (call.start s.fs.content f stop) f k offset := by
  have hlt : offset.toNat < stop.toNat := hlt
  have hmisses : Misses x x.content f k offset ↔ Misses s.fs x.content f k offset := by
    by_cases hoffset : offset.toNat < 2 ^ 31
    · rw [misses_of_small hoffset, misses_of_small hoffset]
    · rw [misses_of_large hoffset, misses_of_large hoffset]
      by_cases hmax : maxLen ≤ firstBlock offset
      · exact iff_of_true (.inl (.inl hmax)) (.inl (.inl hmax))
      · have hnear := offset_of_firstBlock (Nat.not_lt.mp hoffset) hmax
        exact or_congr_right (hb.barred (by omega))
  rw [← hb.content]
  exact or_congr_right hmisses

end Begins

section Stays

variable (hrun : offset < offset + m)
include hrun

lemma stays_over (hbig : call.bound < m.toNat) : call.Stays s q p f m offset ↔
    call.Stops s (call.start s.fs.content f (offset + m)) f (call.bound + 1) offset := by
  unfold DataCall.Stays
  rw [if_pos hrun, Nat.min_eq_right hbig]
  exact or_iff_left (fun hand => absurd hand.1 (Nat.not_le.mpr hbig))

lemma stays_reply (hle : m.toNat ≤ 4096) : DataCall.read.Stays s p p f m offset ↔
    DataCall.read.Stops s (DataCall.read.start s.fs.content f (offset + m)) f m.toNat offset ∨
      Restores s f p m.toNat offset := by
  have hmin : min m.toNat (DataCall.read.bound + 1) = m.toNat := Nat.min_eq_left (Nat.le_succ_of_le hle)
  unfold DataCall.Stays
  rw [if_pos hrun, hmin]
  exact or_congr_right ⟨fun hand => hand.2 rfl rfl, fun hyes => ⟨hle, fun _ _ => hyes⟩⟩

lemma stays_inside (hle : m.toNat ≤ call.bound) (halias : call = .read → p ≠ q) :
    call.Stays s q p f m offset := by
  unfold DataCall.Stays
  rw [if_pos hrun]
  exact .inr ⟨hle, fun hcall hpq => absurd hpq (halias hcall)⟩

end Stays

section Transfer

variable (hp : s.fdPage (slotOf s q) = some p)
include hp

/-- The sum has wrapped. -/
lemma idle_returns (hrun : ¬offset < offset + m) (hmn : m.toNat ≤ (wordAt (s.page q) reqN).toNat) (x : Fs) :
    Sat (finish call q f m offset) { s with fs := x }
      (fun r t => call.Stays s q p f m offset ↔ Returns call q p s t r) (fun _ _ => False) := by
  unfold DataCall.Stays
  rw [if_neg hrun]
  refine (finish_idle hrun call q f).post ?_
  rintro r t ⟨rfl, rfl⟩
  rw [returns_ok (moved_fs _ s x) hp, or_comm]
  refine or_congr_right ⟨fun hle => ⟨Nat.le_min.mpr ⟨hmn, hle⟩, rfl⟩, fun hand => ?_⟩
  exact hand.1.trans (Nat.min_le_right _ _)

/-- The bytes fit, and are not put over the offset. -/
lemma inside_returns (hrun : offset < offset + m) (hmn : m.toNat ≤ (wordAt (s.page q) reqN).toNat)
    (hle : m.toNat ≤ call.bound) (halias : call = .read → p ≠ q) (x : Fs) :
    Sat (finish call q f m offset) { s with fs := x }
      (fun r t => call.Stays s q p f m offset ↔ Returns call q p s t r)
      (fun e _ => ExitsIff (call.Stays s q p f m offset) e) := by
  have hstays : call.Stays s q p f m offset := stays_inside hrun hle halias
  refine (finish_small hle q f offset).mono ?_ (fun _ _ he => exitsIff_inside hstays he)
  rintro r t ⟨ht, hr⟩
  have hm : Moved (call.Writes q) s t := (moved_fs _ s x).trans ht
  refine iff_of_true hstays ?_
  rcases hr with rfl | ⟨e, rfl, he⟩
  · exact (returns_ok hm hp).mpr (.inr ⟨Nat.le_min.mpr ⟨hmn, hle⟩, by rw [page_of_moved halias hm]⟩)
  · exact within_of_neg hm he

variable (h : Tree s.fs.content F len) (hf : f ∈ F) (hno : NoEntries s.fs.content len f)

omit hp in
include h hf hno in
/-- There is more to move than the buffer holds. -/
lemma Tree.over_returns (hrun : offset < offset + m) (hbig : call.bound < m.toNat)
    (hb : Begins call s.fs f (offset + m) x) :
    Sat (finish call q f m offset) { s with fs := x }
      (fun r t => call.Stays s q p f m offset ↔ Returns call q p s t r)
      (fun e _ => ExitsIff (call.Stays s q p f m offset) e) := by
  obtain ⟨htree, hnone⟩ := hb.tree h hf hno
  rw [stays_over hrun hbig, ← hb.stops_iff hrun]
  refine (htree.finish_over (s := { s with fs := x }) hf hnone hrun hbig q).post ?_
  rintro r t ⟨hstops, ht, e, rfl, he⟩
  exact iff_of_true hstops (within_of_neg ((moved_fs _ s x).trans ht) he)

include h hf hno

/-- The request page holds the offset. -/
lemma Tree.reply_returns (hpq : p = q) (hrun : offset < offset + m)
    (hmn : m.toNat ≤ (wordAt (s.page q) reqN).toNat) (hle : m.toNat ≤ 4096)
    (hb : Begins .read s.fs f (offset + m) x) :
    Sat (finish .read q f m offset) { s with fs := x }
      (fun r t => DataCall.read.Stays s q p f m offset ↔ Returns .read q p s t r)
      (fun e _ => ExitsIff (DataCall.read.Stays s q p f m offset) e) := by
  subst hpq
  obtain ⟨htree, hnone⟩ := hb.tree h hf hno
  have hx : x.content = s.fs.content := hb.content
  rw [stays_reply hrun hle, ← hb.stops_iff hrun]
  refine (htree.finish_reads (s := { s with fs := x }) hf hnone hrun hle p).mono ?_ ?_
  · rintro r t (⟨hstops, ht, e, rfl, he⟩ | ⟨hnot, rfl, bs, hlen, hbs, ht⟩)
    · exact iff_of_true (.inl hstops) (within_of_neg ((moved_fs _ s x).trans ht) he)
    · have hpage : t.page p = putBytes (s.page p) 0 bs := by
        rw [ht]
        exact Function.update_self p _ _
      have hm : Moved (DataCall.read.Writes p) s t := by
        rw [ht]
        exact (moved_fs _ s x).trans ((withReply_moved _ t.fs p 0 bs).mono (fun _ heq => ⟨rfl, heq⟩))
      dsimp only at hbs
      rw [hx] at hbs
      rw [or_iff_right hnot, returns_ok hm hp, or_iff_right (by omega), hpage, restores_iff hlen hbs]
      exact (and_iff_right (Nat.le_min.mpr ⟨hmn, hle⟩)).symm
  · rintro e t (rfl | ⟨hstops, he⟩)
    · exact exitsIff_noMem _
    · exact exitsIff_inside (.inl hstops) he

/-- The loop of a request leaves what is asked for, if and only if the request stays in its buffer. -/
lemma Tree.finish_returns (hmn : m.toNat ≤ (wordAt (s.page q) reqN).toNat)
    (hb : Begins call s.fs f (offset + m) x) :
    Sat (finish call q f m offset) { s with fs := x }
      (fun r t => call.Stays s q p f m offset ↔ Returns call q p s t r)
      (fun e _ => ExitsIff (call.Stays s q p f m offset) e) := by
  by_cases hrun : offset < offset + m
  · by_cases hbig : call.bound < m.toNat
    · exact h.over_returns hf hno hrun hbig hb
    · have hle : m.toNat ≤ call.bound := Nat.not_lt.mp hbig
      by_cases halias : call = .read ∧ p = q
      · obtain ⟨rfl, hpq⟩ := halias
        exact h.reply_returns hp hf hno hpq hrun hmn hle hb
      · exact inside_returns hp hrun hmn hle (fun hcall hpq => halias ⟨hcall, hpq⟩) x
  · exact (idle_returns hp hrun hmn x).mono (fun _ _ hr => hr) (fun _ _ hfalse => hfalse.elim)

end Transfer

lemma DataCall.count_le (call : DataCall) (size n offset : Word) :
    (call.count size n offset).toNat ≤ n.toNat := by
  cases call with
  | read =>
    change (minWord n (size - offset)).toNat ≤ n.toNat
    rw [toNat_minWord]
    exact Nat.min_le_left _ _
  | write => exact le_rfl

/-- The whole transfer. -/
lemma Tree.transfer_returns (h : Tree s.fs.content F len) (hf : f ∈ F) (hno : NoEntries s.fs.content len f)
    (hp : s.fdPage (slotOf s q) = some p) (hn : wordAt (s.page q) reqN = n) :
    Sat (call.transfer q f n offset) s (fun r t => call.Fits s q p f n offset ↔ Returns call q p s t r)
      (fun e _ => ExitsIff (call.Fits s q p f n offset) e) := by
  refine h.transfer_sat hf hno q (fun _ => exitsIff_noMem _) ?_ ?_
  · intro hend x
    refine iff_of_true (.inl hend) ((returns_ok (moved_fs _ s x) hp).mpr (.inr ⟨Nat.zero_le _, rfl⟩))
  · rintro hend m rfl x hb
    have hfits : call.Fits s q p f n offset ↔
        call.Stays s q p f (call.count (fileSize s.fs.content f) n offset) offset := or_iff_right hend
    rw [hfits]
    exact h.finish_returns hp hf hno (by rw [hn]; exact call.count_le _ n offset) hb

/-! ### The requests -/

lemma Tree.serve_sat (h : Tree s.fs.content F len) (call : DataCall) (hq : s.fsreq = some q)
    (hopen : Found s q → (s.opentab (slotOf s q)).file ∈ F ∧
      NoEntries s.fs.content len (s.opentab (slotOf s q)).file) :
    Sat call.run s (fun r t => Fitting call s q ↔ Within call q s r t)
      (fun e _ => ExitsIff (Fitting call s q) e) := by
  rw [call.run_eq]
  refine serveData_sat hq rfl ?_ ?_
  · intro hfound
    exact iff_of_true (fun hyes => absurd hyes hfound) (within_of_neg (.refl _ s) (by decide))
  · intro p hfound hp
    have hfitting : Fitting call s q ↔ call.Fits s q p (s.opentab (slotOf s q)).file (wordAt (s.page q) reqN)
        (wordAt (s.page p) fdOffset) := by
      refine ⟨fun hall => hall hfound p hp, fun hfits _ p' hp' => ?_⟩
      obtain rfl : p' = p := Option.some.inj (hp'.symm.trans hp)
      exact hfits
    rw [hfitting]
    obtain ⟨hf, hno⟩ := hopen hfound
    refine (h.transfer_returns hf hno hp rfl).post ?_
    rintro (e | m) t hr
    · exact hr
    · unfold Returns at hr
      dsimp only at hr ⊢
      by_cases hneg : m.toInt < 0
      · rw [if_pos hneg] at hr ⊢
        exact hr
      · rw [if_neg hneg] at hr ⊢
        exact hr

/-- A request to read or to write stays in its buffer, returns at most its size and advances the offset
by what it returns, if and only if it fits. -/
theorem serve_within (call : DataCall) (h : Wf s.fs.content F) (hq : s.fsreq = some q)
    (hopen : Found s q → (s.opentab (slotOf s q)).file ∈ F)
    (hpath : Found s q → IsDir s.fs.content (s.opentab (slotOf s q)).file →
      Reachable s.fs.content (s.opentab (slotOf s q)).file) :
    Sat call.run s (fun r t => Fitting call s q ↔ Within call q s r t)
      (fun e _ => e ≠ .fs .noMem → (Fitting call s q ↔ e ≠ .overrun)) := by
  by_cases hfound : Found s q
  · obtain ⟨F', len, htree, hf, hno⟩ := h.tree_without (hopen hfound) (hpath hfound)
    exact htree.serve_sat call hq (fun _ => ⟨hf, hno⟩)
  · exact h.toTree.serve_sat call hq (fun hyes => absurd hyes hfound)

/-! ### With enough memory -/

/-- The request does not run out of memory. -/
abbrev Fed {α : Type} (m : ServM α) : Prop :=
  Keeps (fun s => Ample s.fs) (fun e _ => e ≠ .fs .noMem) m

section Fed

variable {α : Type}

lemma onFs_fed {m : FsM α} (h : NeedsNone m) : Fed (onFs m) := by
  intro s hs
  rw [sat_onFs]
  refine (h s.fs hs).mono (fun _ _ ht => ht) (fun e t he heq => he ?_)
  injection heq

lemma get_fed : Fed (get : ServM Server) := fun _ hs => sat_get.mpr hs

lemma throw_fed {e : ServeExit} (h : e ≠ .fs .noMem) : Fed (throw e : ServM α) :=
  fun _ _ => sat_throw.mpr h

lemma ite_fed {c : Prop} [Decidable c] {f g : ServM α} (hf : Fed f) (hg : Fed g) :
    Fed (if c then f else g) := by
  split
  · exact hf
  · exact hg

lemma loadPage_fed (p a : ℕ) : Fed (loadPage p a) := get_fed.bind fun _ => .pure _

lemma storePage_fed (p a : ℕ) (w : Word) : Fed (storePage p a w) := fun _ hs => sat_modify.mpr hs

lemma storeReply_fed (q k : ℕ) (x : Byte) : Fed (storeReply q k x) := by
  intro s hs
  unfold storeReply
  simp only [sat_bind, sat_ite, sat_throw, sat_get, sat_modify]
  exact ⟨fun _ => by decide, fun _ => ⟨fun _ => by decide, fun _ => hs⟩⟩

lemma copyOut_fed (q n a k : ℕ) : Fed (copyOut q n a k) := by
  induction n generalizing a k with
  | zero =>
    unfold copyOut
    exact .pure _
  | succ n ih =>
    unfold copyOut
    exact (onFs_fed (loadByte_needsNone a)).bind fun _ => (storeReply_fed q k _).bind fun _ => ih _ _

lemma moveLoop_fed (q f : ℕ) (stop : Word) (fuel : ℕ) (pos : Word) (k : ℕ) :
    Fed (moveLoop (copyOut q) f stop fuel pos k) := by
  induction fuel generalizing pos k with
  | zero =>
    unfold moveLoop
    exact .pure _
  | succ fuel ih =>
    unfold moveLoop
    apply ite_fed
    · apply (onFs_fed (fileGetBlock_needsNone _ _)).bind
      rintro (r | blk)
      · exact .pure _
      · exact (copyOut_fed _ _ _ _).bind fun _ => ih _ _
    · exact .pure _

lemma fileReadTo_fed (q f : ℕ) (count offset : Word) : Fed (fileReadTo q f count offset) := by
  unfold fileReadTo
  apply (onFs_fed (loadWord_needsNone _)).bind
  intro size
  apply ite_fed (.pure _)
  apply (moveLoop_fed _ _ _ _ _ _).bind
  rintro (r | -)
  · exact .pure _
  · exact .pure _

lemma serveRead_fed : Fed serveRead := by
  unfold serveRead serveData reqPage openfileLookup fdOf
  apply Keeps.bind
  · apply get_fed.bind
    intro s
    cases s.fsreq with
    | some q => exact .pure _
    | none => exact throw_fed (by decide)
  · intro q
    refine (loadPage_fed _ _).bind fun fileid => Keeps.bind ?_ ?_
    · exact get_fed.bind fun s => ite_fed (.pure _) (.pure _)
    · rintro (r | i)
      · exact .pure _
      · apply Keeps.bind
        · apply get_fed.bind
          intro s
          cases s.fdPage i with
          | some p => exact .pure _
          | none => exact throw_fed (by decide)
        · intro p
          refine get_fed.bind fun s => (loadPage_fed _ _).bind fun n => (loadPage_fed _ _).bind fun offset =>
            (fileReadTo_fed _ _ _ _).bind ?_
          rintro (r | m)
          · exact .pure _
          · exact ite_fed (.pure _) ((loadPage_fed _ _).bind fun _ => (storePage_fed _ _ _).bind fun _ => .pure _)

end Fed

/-! ### The small disk -/

/-- The small disk with its regular file open in slot 0, whose Fd page is `p`, and a request for `n`
bytes. -/
def openServer (p : ℕ) (n : Word) : Server where
  fs := cached smallDisk
  opentab := fun _ => { fileid := 1024, file := 12288, mode := 0 }
  fdPage := fun i => if i = 0 then some p else none
  fsreq := some 0
  writable := true
  page := fun i => if i = 0 then putWord (putWord (fun _ => 0) reqFileid 1024) reqN n else fun _ => 0
  mapped := fun _ => 2
  fresh := 2

section Open

variable (p : ℕ) (n : Word)

lemma content_open : (openServer p n).fs.content = smallDisk := content_cached smallDisk

lemma reqN_open : wordAt ((openServer p n).page 0) reqN = n := wordAt_putWord

lemma fileid_open : wordAt ((openServer p n).page 0) reqFileid = 1024 :=
  (wordAt_putWord_of_ne (by decide)).trans wordAt_putWord

lemma slotOf_open : slotOf (openServer p n) 0 = 0 := by
  unfold slotOf
  rw [fileid_open]
  rfl

lemma found_open : Found (openServer p n) 0 := by
  have href : pageref (openServer p n) 0 = 2 := rfl
  unfold Found
  rw [slotOf_open, fileid_open, href]
  rintro (hle | hne)
  · exact absurd hle (by decide)
  · exact hne rfl

lemma fitting_open : Fitting .read (openServer p n) 0 ↔
    DataCall.read.Fits (openServer p n) 0 p 12288 n (wordAt ((openServer p n).page p) fdOffset) := by
  unfold Fitting
  rw [slotOf_open, reqN_open]
  refine ⟨fun hall => hall (found_open p n) p rfl, fun hfits _ p' hp' => ?_⟩
  obtain rfl : p = p' := Option.some.inj hp'
  exact hfits

lemma wf_open : Wf (openServer p n).fs.content smallFiles := by
  rw [content_open]
  exact wf_smallDisk

lemma regular_open : ¬IsDir (openServer p n).fs.content 12288 := by
  rw [content_open]
  unfold IsDir
  decide +kernel

end Open

lemma fileSize_small : fileSize smallDisk 12288 = 5000 := by decide +kernel

/-- What begins in the file of the small disk does not end early within two blocks. -/
lemma not_stops_open {k : ℕ} (hk : n.toNat + k ≤ 8192) (p : ℕ) (w : Word) :
    ¬DataCall.read.Stops (openServer p w) smallDisk 12288 k n := by
  rintro (⟨-, hw⟩ | hmisses)
  · cases hw
  · rw [misses_of_small (by omega)] at hmisses
    have hceil : ceilBlocks (n.toNat + k) ≤ 2 := by
      unfold ceilBlocks
      omega
    have hneed : need smallDisk 12288 0 2 = 0 := by decide +kernel
    rcases hmisses with hmax | hfull
    · unfold maxLen ndirect nindirect at hmax
      omega
    · have hle := need_le (c := smallDisk) (f := 12288) (Nat.zero_le (n.toNat / 4096)) hceil
      omega

/-- Requests for 3 bytes, also when the page of the request holds the offset; and one for 8 bytes whose reply
is put over the offset. -/
theorem serve_within_small : ∃ t u v,
    serveRead (openServer 1 3) = .ok 3 t ∧ Within .read 0 (openServer 1 3) 3 t ∧
    serveRead (openServer 0 3) = .ok 3 u ∧ Within .read 0 (openServer 0 3) 3 u ∧
    serveRead (openServer 0 8) = .ok 8 v ∧ ¬Within .read 0 (openServer 0 8) 8 v := by
  have hrun : ∀ {p n r}, resultOf serveRead (openServer p n) = some r →
      serveRead (openServer p n) = .ok r (after serveRead (openServer p n)) := eq_ok_of_resultOf
  have hiff : ∀ {p n r t}, serveRead (openServer p n) = .ok r t →
      (Fitting .read (openServer p n) 0 ↔ Within .read 0 (openServer p n) r t) := fun {p n r t} hok =>
    (serve_within .read (wf_open p n) rfl (fun _ => .inr rfl)
      (fun _ hdir => absurd hdir (regular_open p n))).of_ok hok
  have hplain := hrun (p := 1) (n := 3) (r := 3) (by decide +kernel)
  have hshort := hrun (p := 0) (n := 3) (r := 3) (by decide +kernel)
  have hlong := hrun (p := 0) (n := 8) (r := 8) (by decide +kernel)
  have hcount : DataCall.read.count (fileSize smallDisk 12288) 3 3 = 3 := by
    rw [fileSize_small]
    decide
  refine ⟨_, _, _, hplain, (hiff hplain).mp ?_, hshort, (hiff hshort).mp ?_, hlong, fun hw => ?_⟩
  · have hzero : DataCall.read.count (fileSize smallDisk 12288) 3 0 = 3 := by
      rw [fileSize_small]
      decide
    have hoffset : wordAt ((openServer 1 3).page 1) fdOffset = 0 := by decide
    rw [fitting_open, hoffset]
    right
    rw [content_open, hzero]
    exact stays_inside (by decide) (by decide) (fun _ => Nat.one_ne_zero)
  · rw [fitting_open, show wordAt ((openServer 0 3).page 0) fdOffset = 3 from reqN_open 0 3]
    right
    rw [content_open, hcount]
    refine (stays_reply (by decide) (by decide)).mpr (.inr ?_)
    intro k hlo _ hk
    exact absurd hlo (Nat.not_le.mpr (Nat.lt_succ_of_lt hk))
  · have hfits := (hiff hlong).mpr hw
    rw [fitting_open, show wordAt ((openServer 0 8).page 0) fdOffset = 8 from reqN_open 0 8] at hfits
    unfold DataCall.Fits at hfits
    rw [content_open, fileSize_small] at hfits
    rcases hfits with ⟨-, hend⟩ | hstays
    · exact absurd hend (by decide)
    · have height : DataCall.read.count 5000 8 8 = 8 := by decide
      rw [height, stays_reply (by decide) (by decide)] at hstays
      rcases hstays with hstops | hrestores
      · rw [content_open] at hstops
        exact not_stops_open (by decide) 0 8 hstops
      · have hbyte := hrestores 4 (by decide) (by decide) (by decide)
        revert hbyte
        decide +kernel

/-- A request for the whole file, of 5000 bytes, leaves the buffer or returns more than a page. -/
theorem serveRead_exceeds : Wf (openServer 1 5000).fs.content smallFiles ∧
    (openServer 1 5000).fsreq = some 0 ∧
    ((openServer 1 5000).opentab (slotOf (openServer 1 5000) 0)).file ∈ smallFiles ∧
    Sat serveRead (openServer 1 5000) (fun r t => ¬Within .read 0 (openServer 1 5000) r t)
      (fun e _ => e = .overrun) := by
  have hnot : ¬Fitting .read (openServer 1 5000) 0 := by
    have hoffset : wordAt ((openServer 1 5000).page 1) fdOffset = 0 := by decide
    have hcount : DataCall.read.count 5000 5000 0 = 5000 := by decide
    rw [fitting_open, hoffset]
    unfold DataCall.Fits
    rw [content_open, fileSize_small, hcount]
    rintro (⟨-, hend⟩ | hstays)
    · exact absurd hend (by decide)
    · rw [stays_over (by decide) (by decide), content_open] at hstays
      exact not_stops_open (by decide) 1 5000 hstays
  have hserve := (wf_open 1 5000).toTree.serve_sat .read rfl
    (fun _ => ⟨.inr rfl, noEntries_of_reg (regular_open 1 5000)⟩)
  have hfed := serveRead_fed (openServer 1 5000) (ample_cached smallDisk)
  refine ⟨wf_open 1 5000, rfl, .inr rfl, ?_⟩
  refine (hserve.and hfed).mono ?_ ?_
  · rintro r t ⟨hiff, -⟩ hw
    exact hnot (hiff.mpr hw)
  · rintro e t ⟨hiff, hne⟩
    exact not_not.mp (fun hout => hnot ((hiff hne).mpr hout))

end SistemasOperativos.Fs
