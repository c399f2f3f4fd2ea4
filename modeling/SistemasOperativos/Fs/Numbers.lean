import SistemasOperativos.Fs.DirRuns

/-!
# Sizes and sums under requests

Clients ask for sizes and offsets that a file can have. Then every file has such a size, no sum or
round-up overflows, and a write that returns its count has stored its bytes.
-/

namespace SistemasOperativos.Fs

open Library Kern

/-- The sizes that a file can have. -/
def sizeRange : Set Word := {w | 0 ≤ w.toInt ∧ w.toInt ≤ maxFileSize}

/-- The arithmetic of `file_truncate_blocks` and `file_flush` on a size is exact, and their loops have as
many turns as a file has blocks at most. -/
structure SizeOk (w : Word) : Prop where
  range : w ∈ sizeRange
  rounds : (w + 4095).toInt = w.toInt + 4095
  turns : (blocksFor w).toInt = (w.toInt + 4095) / 4096 ∧ (blocksFor w).toInt ≤ ndirect + nindirect

/-- The sums of a `file_read` of `n` bytes at `o` are exact. -/
def ReadExact (size n o : Word) : Prop :=
  ¬size.sle o = true → (size - o).toInt = size.toInt - o.toInt ∧
    (o + minWord n (size - o)).toNat = o.toNat + (minWord n (size - o)).toNat

/-- The file `f` holds `bs` at `o`. -/
def HoldsData (c : ℕ → Byte) (f o : ℕ) (bs : List Byte) : Prop :=
  o + bs.length ≤ (fileSize c f).toNat ∧
    ∀ k (hk : k < bs.length), blockOf c f ((o + k) / 4096) ≠ 0 ∧ c (posOf c f (o + k)) = bs[k]

/-- The numbers of a request that is answered with `r`. -/
structure Exact (s : Server) (q : ℕ) (req : Word) (r : ℤ) (t : Server) : Prop where
  file : Found s q → SizeOk (fileSize s.fs.content (s.opentab (slotOf s q)).file)
  created : req = 1 → modeIn s q &&& oCreat ≠ 0 → ∀ u v f, u.content = s.fs.content →
    fileCreate (pathIn s q) u = .ok (.ok f) v → SizeOk (fileSize v.content f)
  resized : req = 2 → Found s q → SizeOk (wordAt (s.page q) reqSize)
  read : req = 3 → Found s q → ∀ p, s.fdPage (slotOf s q) = some p →
    ReadExact (fileSize s.fs.content (s.opentab (slotOf s q)).file) (wordAt (s.page q) reqN)
      (wordAt (s.page p) fdOffset)
  written : req = 4 → Found s q → ∀ p, s.fdPage (slotOf s q) = some p →
    (wordAt (s.page p) fdOffset + wordAt (s.page q) reqN).toNat =
      (wordAt (s.page p) fdOffset).toNat + (wordAt (s.page q) reqN).toNat ∧
    SizeOk (wordAt (s.page p) fdOffset + wordAt (s.page q) reqN) ∧
    (r = (wordAt (s.page q) reqN).toInt → HoldsData t.fs.content (s.opentab (slotOf s q)).file
      (wordAt (s.page p) fdOffset).toNat (dataOf s q 0 (wordAt (s.page q) reqN).toNat))

/-- The numbers of a step. -/
def NumStep (w : World) (e : WorldEvent) (w' : World) : Prop :=
  ∀ req, e = .serve req → ∀ q r, w.server.fsreq = some q → w'.reply = some r →
    Exact w.server q req r.1 w'.server

/-- The numbers that a client sends with a file id. -/
def NumSound (s : Server) (q : ℕ) (req : Word) : Prop :=
  Found s q → (req = 2 → wordAt (s.page q) reqSize ∈ sizeRange) ∧
    ∀ p, s.fdPage (slotOf s q) = some p →
      (req = 3 ∨ req = 4 → 0 ≤ (wordAt (s.page p) fdOffset).toInt) ∧
      (req = 4 → (wordAt (s.page p) fdOffset).toNat + (wordAt (s.page q) reqN).toNat ≤ maxFileSize)

/-- The condition on a step: the directories are left in order, and sizes and offsets are those of a
file. A new file finds such a size in its entry, and its directory is not of the greatest size. -/
def NumGuard (w : World) : WorldEvent → Prop
  | .serve req => DirGuard w (.serve req) ∧ ∀ q, w.server.fsreq = some q →
      if req = 1 then modeIn w.server q &&& oCreat ≠ 0 →
        SizeSound sizeRange w.server.fs.content (pathIn w.server q)
      else NumSound w.server q req
  | _ => True

/-- Nothing is open, the disk is well-formed, and the files have sizes in range. -/
def NumStart (w : World) : Prop :=
  WorldStart w ∧ ∃ F, Wf w.server.fs.content F ∧ ∀ f ∈ F, fileSize w.server.fs.content f ∈ sizeRange

variable {w w' : World} {F F' : Set ℕ} {s t : Server} {c : ℕ → Byte} {e : WorldEvent} {f q : ℕ}
  {size n o req x : Word} {buf : List Byte}

/-! ### Words -/

lemma le_of_sizeRange (h : x ∈ sizeRange) : x.toNat ≤ maxFileSize := by
  obtain ⟨hpos, hle⟩ := h
  rw [toInt_of_small (small_of_toInt hpos)] at hle
  exact Int.ofNat_le.mp hle

lemma sizeRange_of_le (h : x.toNat ≤ maxFileSize) : x ∈ sizeRange := by
  have hsmall := small_of_le_maxFileSize h
  change 0 ≤ x.toInt ∧ x.toInt ≤ maxFileSize
  rw [toInt_of_small (by omega)]
  omega

lemma sizeOk_of_range (h : x ∈ sizeRange) : SizeOk x := by
  have hle := le_of_sizeRange h
  have hsmall := small_of_le_maxFileSize hle
  have hx : x.toInt = x.toNat := toInt_of_small (by omega)
  have hsum : (x + 4095).toNat = x.toNat + 4095 := by
    rw [BitVec.toNat_add]
    apply Nat.mod_eq_of_lt
    change x.toNat + 4095 < 2 ^ 32
    omega
  have hdiv : (blocksFor x).toNat = (x.toNat + 4095) / 4096 := toNat_blocksFor hsmall
  have hblocks : (blocksFor x).toInt = (blocksFor x).toNat := toInt_of_small (by omega)
  constructor
  · exact h
  · rw [toInt_of_small (by omega), hsum, hx]
    omega
  · rw [hblocks, hdiv, hx]
    unfold maxFileSize maxLen ndirect nindirect at hle
    unfold ndirect nindirect
    omega

lemma readExact_of_range (hsize : size ∈ sizeRange) (ho : 0 ≤ o.toInt) (n : Word) : ReadExact size n o := by
  intro hlt
  have hle := le_of_sizeRange hsize
  have hsmall := small_of_le_maxFileSize hle
  have ho' := small_of_toInt ho
  rw [sle_of_small (by omega) ho', Nat.not_le] at hlt
  have hsub : (size - o).toNat = size.toNat - o.toNat := by
    rw [BitVec.toNat_sub]
    omega
  have hmin := toNat_minWord n (size - o)
  constructor
  · rw [toInt_of_small (by omega), toInt_of_small (by omega), toInt_of_small ho', hsub]
    omega
  · rw [BitVec.toNat_add]
    apply Nat.mod_eq_of_lt
    omega

/-! ### Steps -/

lemma NumSound.grow (h : NumSound s q req) : GrowSound sizeRange s q req := by
  intro hfound
  obtain ⟨hresize, hoffset⟩ := h hfound
  refine ⟨hresize, fun hreq p hp _ => sizeRange_of_le ?_⟩
  have hle := (hoffset p hp).2 hreq
  rw [BitVec.toNat_add]
  exact Nat.le_trans (Nat.mod_le _ _) hle

lemma zero_mem_sizeRange : 0 ∈ sizeRange := sizeRange_of_le (Nat.zero_le _)

lemma NumGuard.grow (h : NumGuard w e) : DirGuard w e ∧ GrowGuard sizeRange w e := by
  cases e with
  | serve req =>
    refine ⟨h.1, fun q hq => ?_⟩
    have hnum := h.2 q hq
    by_cases hreq : req = 1
    · rw [if_pos hreq] at hnum ⊢
      exact ⟨hnum, fun _ => zero_mem_sizeRange⟩
    · rw [if_neg hreq] at hnum ⊢
      exact hnum.grow
  | _ => exact ⟨trivial, trivial⟩

/-- What a `file_write` that succeeds leaves in the file. -/
lemma Wf.fileWrite_stores {u : Fs} (h : Wf u.content F) (hf : f ∈ F) (hreg : ¬IsDir u.content f)
    (hsize : fileSize u.content f ∈ sizeRange) (hle : o.toNat + buf.length ≤ maxFileSize) :
    Sat (fileWrite f buf o) u (fun r v => match r with
      | .ok _ => HoldsData v.content f o.toNat buf
      | .error r => r < 0) Anyhow := by
  have hsmall := small_of_le_maxFileSize hle
  have hsmall' := small_of_le_maxFileSize (le_of_sizeRange hsize)
  have hstop : (BitVec.ofNat 32 (o.toNat + buf.length)).toNat = o.toNat + buf.length := by
    rw [BitVec.toNat_ofNat]
    omega
  refine (h.toTree.fileWrite_sat hf (fun hdir => absurd hdir hreg) buf o
    (BitVec.ofNat 32 (o.toNat + buf.length)) rfl hstop (by omega) (by omega) rfl).mono ?_ (fun _ _ _ => trivial)
  rw [hstop]
  rintro r v (⟨rfl, hp⟩ | ⟨r', j, hi, rfl, -, -, hr, -⟩)
  · constructor
    · rw [hp.size, toNat_sizeAfter, hstop]
      omega
    · intro k hk
      have hpassed := hp.present ((o.toNat + k) / 4096) (by omega) (by
        unfold passedTo ceilBlocks
        rw [if_pos (by omega)]
        omega)
      refine ⟨hpassed.2, ?_⟩
      rw [hp.written _ (by omega) (by omega), Nat.add_sub_cancel_left, List.getD_eq_getElem?_getD,
        List.getElem?_eq_getElem hk]
      rfl
  · dsimp only
    rcases hr with ⟨-, rfl⟩ | ⟨rfl, -⟩
    · decide
    · decide

/-- A write request that is answered with its count. -/
lemma Wf.serveWrite_stores (h : Wf s.fs.content F) (hq : s.fsreq = some q)
    (hfile : Found s q → (s.opentab (slotOf s q)).file ∈ F)
    (hsound : FileSound s q 4) (hnum : NumSound s q 4)
    (hsizes : ∀ f ∈ F, fileSize s.fs.content f ∈ sizeRange) :
    Sat serveWrite s (fun r t => Found s q → ∀ p, s.fdPage (slotOf s q) = some p →
      r = (wordAt (s.page q) reqN).toInt → HoldsData t.fs.content (s.opentab (slotOf s q)).file
        (wordAt (s.page p) fdOffset).toNat (dataOf s q 0 (wordAt (s.page q) reqN).toNat))
      (fun _ _ => True) := by
  refine serveData_sat hq rfl (fun hno hfound => absurd hfound hno) (fun p hfound hp => ?_)
  have hle := ((hnum hfound).2 p hp).2 rfl
  have hlength := length_dataOf s q 0 (wordAt (s.page q) reqN).toNat
  have hmem := hfile hfound
  have hreg := (hsound hfound).1 (.inr rfl)
  have hcount : 0 ≤ (wordAt (s.page q) reqN).toInt := by
    have hsmall := small_of_le_maxFileSize hle
    rw [toInt_of_small (by omega)]
    exact Int.natCast_nonneg _
  apply fileWriteFrom_follows
  refine (h.fileWrite_stores hmem hreg (hsizes _ hmem) (by rw [hlength]; exact hle)).mono ?_
    (fun _ _ _ => trivial)
  rintro (r | m) x hx
  · intro _ p' hp' hr
    exact absurd (hr ▸ hcount) (Int.not_le.mpr hx)
  · have hstored : ∀ p', s.fdPage (slotOf s q) = some p' → HoldsData x.content (s.opentab (slotOf s q)).file
        (wordAt (s.page p') fdOffset).toNat (dataOf s q 0 (wordAt (s.page q) reqN).toNat) := by
      intro p' hp'
      obtain rfl := Option.some.inj (hp.symm.trans hp')
      exact hx
    change if (wordAt (s.page q) reqN).toInt < 0 then _ else _
    rw [if_neg (Int.not_lt.mpr hcount)]
    exact fun _ p' hp' _ => hstored p' hp'

lemma serveRequest_write {Q : ℤ → Server → Prop} {E : ServeExit → Server → Prop} (h : Sat serveWrite s Q E) :
    Sat (serveRequest 4) s (fun r t => Q r.1 t) E := by
  have hrun : serveRequest 4 = (do return (← serveWrite, none) : ServM (ℤ × Option ℕ)) := rfl
  rw [hrun, sat_bind]
  exact h.post (fun _ _ hr => sat_pure.mpr hr)

/-- The numbers of a request that meets the condition. -/
lemma DirIn.exact (hw : DirIn w F) (hsizes : ∀ f ∈ F, fileSize w.server.fs.content f ∈ sizeRange)
    (hg : NumGuard w (.serve req)) (hq : w.server.fsreq = some q) {r : ℤ × Option ℕ}
    (hrun : serveRequest req w.server = .ok r t) : Exact w.server q req r.1 t := by
  have hdir := hg.1 q hq
  have hnum := hg.2 q hq
  have hother : req ≠ 1 → NumSound w.server q req := by
    intro hreq
    rw [if_neg hreq] at hnum
    exact hnum
  constructor
  · exact fun hfound => sizeOk_of_range (hsizes _ (hw.found hfound))
  · intro hreq hcreat u v f hu hcreate
    rw [if_pos hreq] at hdir hnum
    have hwf : Wf u.content F := by
      rw [hu]
      exact hw.wf
    have hname := hdir.1 hcreat
    have hsize := hnum hcreat
    rw [← hu] at hname hsize
    obtain ⟨F', hl, hmem, -⟩ := (hwf.fileCreate_listed hname hsize).of_ok hcreate
    apply sizeOk_of_range
    rcases hl.grown f (hmem f rfl).1 with ⟨hold, heq⟩ | hnew
    · rw [heq, hu]
      exact hsizes f hold
    · exact hnew
  · rintro rfl hfound
    exact sizeOk_of_range ((hother (by decide) hfound).1 rfl)
  · rintro rfl hfound p hp
    refine readExact_of_range (hsizes _ (hw.found hfound)) ?_ _
    exact ((hother (by decide) hfound).2 p hp).1 (.inl rfl)
  · rintro rfl hfound p hp
    have hsound := hother (by decide)
    have hle := ((hsound hfound).2 p hp).2 rfl
    have hsmall := small_of_le_maxFileSize hle
    have hsum : (wordAt (w.server.page p) fdOffset + wordAt (w.server.page q) reqN).toNat =
        (wordAt (w.server.page p) fdOffset).toNat + (wordAt (w.server.page q) reqN).toNat := by
      rw [BitVec.toNat_add]
      omega
    refine ⟨hsum, sizeOk_of_range (sizeRange_of_le (by rw [hsum]; exact hle)), ?_⟩
    have hfile : FileSound w.server q 4 := by
      rw [if_neg (by decide)] at hdir
      exact hdir
    have hsat := serveRequest_write (hw.wf.serveWrite_stores hq hw.found hfile hsound hsizes)
    exact hsat.of_ok hrun hfound p hp

end SistemasOperativos.Fs
