import SistemasOperativos.Fs.Copies

/-!
# Loops that leave the buffer

The loops of `file_read` and `file_write`, for a request that has more to move than fits into its buffer,
and for one whose reply is put over the Fd page of the file.
-/

namespace SistemasOperativos.Fs

open Library Kern

/-- A block of the `len` bytes from `offset` on cannot be had: the file cannot have it, or there are not
enough free blocks. -/
def EndsEarly (c : ℕ → Byte) (f len offset : ℕ) : Prop :=
  maxLen < ceilBlocks (offset + len) ∨
  freeCount c < need c f (offset / 4096) (ceilBlocks (offset + len))

/-- A loop from `offset` on ends before it has moved `len` bytes. -/
def Misses (s : Fs) (c : ℕ → Byte) (f len : ℕ) (offset : Word) : Prop :=
  if offset.toNat < 2 ^ 31 then EndsEarly c f len offset.toNat
  else NoBlock c f (firstBlock offset) ∨ Barred s c f

/-- The same for a request: the reply to a read can be read-only. -/
def DataCall.Stops (call : DataCall) (s : Server) (c : ℕ → Byte) (f len : ℕ) (offset : Word) : Prop :=
  (call = read ∧ s.writable = false) ∨ Misses s.fs c f len offset

/-- The byte that a read puts at `k` in its reply. -/
def replied (c : ℕ → Byte) (f : ℕ) (offset : Word) (k : ℕ) : Byte :=
  if offset.toNat < 2 ^ 31 then
    c (4096 * sourceBlock c f (offset.toNat / 4096) ((offset.toNat + k) / 4096) + (offset.toNat + k) % 4096)
  else firstFilled c f (posAddr (4096 * sourceBlock c f 0 0) offset + k)

variable {s t : Server} {x : Fs} {c c' c'' : ℕ → Byte} {F : Set ℕ} {len : ℕ → ℕ} {call : DataCall}
  {f q j k n : ℕ} {m offset stop pos : Word}

lemma misses_of_small (h : offset.toNat < 2 ^ 31) : Misses x c f n offset ↔ EndsEarly c f n offset.toNat := by
  unfold Misses
  rw [if_pos h]

lemma misses_of_large (h : ¬offset.toNat < 2 ^ 31) :
    Misses x c f n offset ↔ NoBlock c f (firstBlock offset) ∨ Barred x c f := by
  unfold Misses
  rw [if_neg h]

lemma offset_of_firstBlock (h : 2 ^ 31 ≤ offset.toNat) (hmax : ¬maxLen ≤ firstBlock offset) :
    2 ^ 32 < offset.toNat + 4096 := by
  have hlt := offset.isLt
  have hdiv : firstBlock offset = (2 ^ 32 - (2 ^ 32 - offset.toNat) / 4096) % 2 ^ 32 :=
    toNat_sdiv_of_large h (by decide)
  have hzero := (firstBlock_of_large h).resolve_right hmax
  omega

/-! ### Blocks that are missing -/

lemma need_one (c : ℕ → Byte) (f j : ℕ) : need c f j (j + 1) = wanted c f j := by
  unfold wanted
  by_cases hzero : blockOf c f j = 0
  · rw [if_pos hzero, need_succ le_rfl hzero, holes_self]
    omega
  · rw [if_neg hzero, need_succ_of_ne le_rfl hzero, need_self]

lemma Filled.wanted_next (hq : Filled F len f j c c') (hf : f ∈ F) (hj : j + 1 < maxLen) :
    need c f j (j + 2) = wanted c f j + wanted c' f (j + 1) := by
  have hblock : blockOf c' f (j + 1) = blockOf c f (j + 1) :=
    hq.others f hf (j + 1) hj (fun hand => Nat.succ_ne_self j hand.2)
  have hone := need_one c f j
  by_cases hzero : blockOf c f (j + 1) = 0
  · have hextra : holes c f j (j + 1) + extra c f (j + 1) = wanted c f j + extra c' f (j + 1) := by
      rw [← hone]
      unfold need
      by_cases hadded : extra c f j = 1
      · obtain ⟨hge, hnone⟩ := extra_eq_one.mp hadded
        have hpos : indirectOf c' f ≠ 0 :=
          (has_of_blockOf hq.block).resolve_left (Nat.not_lt.mpr hge)
        have hthere : extra c' f (j + 1) = 0 := extra_eq_zero.mpr (.inr hpos)
        have hmissing : extra c f (j + 1) = 1 := extra_eq_one.mpr ⟨by omega, hnone⟩
        rw [hthere, hmissing, if_pos ⟨by omega, by omega, hnone⟩]
      · have hsame : indirectOf c' f = indirectOf c f := by
          rcases hq.indirect f hf with heq | ⟨-, hone', -⟩
          · exact heq
          · exact absurd hone' hadded
        have hnot : ¬(j < j + 1 ∧ ndirect < j + 1 ∧ indirectOf c f = 0) := by
          rintro ⟨-, hlt, hnone⟩
          exact hadded (extra_eq_one.mpr ⟨by omega, hnone⟩)
        have hextra : extra c' f (j + 1) = extra c f (j + 1) := by
          unfold extra
          rw [hsame]
        rw [if_neg hnot, hextra]
        omega
    have hwanted : wanted c' f (j + 1) = extra c' f (j + 1) + 1 := by
      unfold wanted
      rw [hblock, if_pos hzero]
    rw [need_succ (Nat.le_add_right j 1) hzero, hwanted]
    omega
  · have hwanted : wanted c' f (j + 1) = 0 := by
      unfold wanted
      rw [hblock, if_neg hzero]
    rw [need_succ_of_ne (Nat.le_add_right j 1) hzero, hone, hwanted]
    rfl

lemma Filled.freeCount_eq (hq : Filled F len f j c c') : freeCount c' = freeCount c - wanted c f j := by
  rw [freeCount_eq_length, hq.list, List.length_drop]
  rfl

lemma Inert.wanted_eq (hi : Inert F len c c') (hf : f ∈ F) (hj : j < maxLen) :
    wanted c' f j = wanted c f j := by
  unfold wanted extra
  rw [hi.blockOf_same hf hj, hi.indirect f hf]

lemma DataCall.bound_le (call : DataCall) : 4088 ≤ call.bound ∧ call.bound ≤ 4096 := by
  cases call
  · decide
  · decide

/-- The blocks that a loop needs to leave the buffer: one, or two. -/
lemma ceilBlocks_bound (call : DataCall) (o : ℕ) :
    ceilBlocks (o + (call.bound + 1)) = if call.bound < 4096 - o % 4096 then o / 4096 + 1 else o / 4096 + 2 := by
  obtain ⟨hlo, hhi⟩ := call.bound_le
  unfold ceilBlocks
  split
  · omega
  · omega

/-! ### Loops from an offset in the file -/

/-- A turn of the loop at an offset that is not negative. -/
lemma Tree.turn_sat (ht : Tree s.fs.content F len) (hf : f ∈ F) (hno : NoEntries s.fs.content len f)
    (hw : call = .read → s.writable = true) (hk : k ≤ call.bound) (hpos : pos.toNat < 2 ^ 31)
    (hlt : pos.toNat < stop.toNat) (hj : pos.toNat / 4096 = j) (fuel : ℕ) (q : ℕ)
    {Q : Except ℤ Unit → Server → Prop} {E : ServeExit → Server → Prop}
    (herror : NoBlock s.fs.content f j → ∀ r t, r < 0 → Moved (call.Writes q) s t →
      t.fs.content = s.fs.content → Q (.error r) t)
    (hjam : NoBlock s.fs.content f j → ∀ e t, e ≠ .overrun → E e t)
    (hmem : ∀ t, E (.fs .noMem) t)
    (hover : ¬NoBlock s.fs.content f j → call.bound < k + (chunk pos stop).toNat → ∀ t, E .overrun t)
    (hnext : ∀ t c', k + (chunk pos stop).toNat ≤ call.bound → ¬NoBlock s.fs.content f j →
      Moved (call.Writes q) s t → Filled F len f j s.fs.content c' →
      Rewritten F len (blockOf c' f j) c' t.fs.content →
      Sat (moveLoop (call.move q) f stop fuel (pos + chunk pos stop) (k + (chunk pos stop).toNat)) t Q E) :
    Sat (moveLoop (call.move q) f stop (fuel + 1) pos k) s Q E := by
  have hchunk := toNat_chunk hlt hpos
  unfold moveLoop
  rw [if_pos (show pos < stop from hlt), sat_bind, toNat_sdiv hpos, hj, sat_onFs]
  refine (ht.getBlock_sat hf j rfl).mono ?_ ?_
  · intro r x hgets
    generalize hcx : x.content = cx at hgets
    cases hgets with
    | inval hmax =>
      exact sat_pure.mpr (herror (.inl hmax) _ _ (by decide) (moved_fs _ s x) hcx)
    | full hn hextra hfull =>
      have hwanted : freeCount s.fs.content < wanted s.fs.content f j := by
        have hzero : blockOf s.fs.content f j = 0 := by
          by_contra hne
          obtain ⟨hge, hnone⟩ := extra_eq_one.mp hextra
          rcases has_of_blockOf hne with hlt' | hpos'
          · exact absurd hge (Nat.not_le.mpr hlt')
          · exact hpos' hnone
        unfold wanted
        rw [if_pos hzero]
        omega
      exact sat_pure.mpr (herror (.inr hwanted) _ _ (by decide) (moved_fs _ s x) hcx)
    | got hn hroom hfilled =>
      have hgot : ¬NoBlock s.fs.content f j := by
        rintro (hmax | hfull)
        · exact absurd hn (Nat.not_lt.mpr hmax)
        · exact absurd hroom (Nat.not_le.mpr hfull)
      have huse := (hfilled.tree.blockOf_inUse hf hn hfilled.block).2
      dsimp only
      rw [sat_bind, posAddr_eq hpos]
      have hdiv : (4096 * blockOf cx f j + pos.toNat % 4096) / 4096 = blockOf cx f j := by omega
      have hready : Ready x (blockOf cx f j) := by
        right
        rw [hcx]
        exact ⟨hfilled.tree.super, huse⟩
      have hmove := move_sat (s := { s with fs := x }) (n := (chunk pos stop).toNat) hk hw q hready hdiv
        (by omega)
      refine hmove.mono ?_ ?_
      · rintro - t ⟨hle, htm, hleaves⟩
        refine hnext t cx hle hgot ((moved_fs _ s x).trans htm) hfilled ?_
        rw [hcx] at hleaves
        cases call with
        | read =>
          have hleaves : t.fs.content = cx := hleaves
          rw [hleaves]
          refine ⟨?_, fun _ _ => rfl, fun _ _ => rfl⟩
          exact hfilled.tree.inert (P := fun _ => False) ⟨rfl, fun _ _ => rfl⟩ (fun _ _ => rfl)
            ⟨fun _ _ _ _ _ hno => hno, fun _ _ _ _ _ hno => hno⟩ (fun _ _ _ _ hno => hno)
        | write =>
          have hnone := hfilled.kept.noEntries hf hno
          have hdata : DataBlock cx F len (blockOf cx f j) :=
            ⟨f, hf, j, hn, fun hdir => (hnone hdir).trans_le (Nat.zero_le j), hfilled.block, rfl⟩
          exact hfilled.tree.rewritten hdata hleaves
      · rintro e t (rfl | ⟨rfl, hbig⟩)
        · exact hmem _
        · exact hover hgot hbig _
  · rintro e x (⟨rfl, -⟩ | ⟨rfl, hn, hzero, hcount⟩)
    · exact hmem _
    · apply hjam
      · right
        unfold wanted
        rw [if_pos hzero]
        omega
      · exact ServeExit.noConfusion

/-- A loop that has more to move than fits into the buffer leaves it in its first two turns, unless it
ends before. -/
lemma Tree.moveLoop_over (ht : Tree s.fs.content F len) (hf : f ∈ F) (hno : NoEntries s.fs.content len f)
    (hw : call = .read → s.writable = true) (hoffset : offset.toNat < 2 ^ 31)
    (hbig : call.bound < stop.toNat - offset.toNat) (fuel : ℕ) (q : ℕ) :
    Sat (moveLoop (call.move q) f stop (fuel + 2) offset 0) s
      (fun r t => EndsEarly s.fs.content f (call.bound + 1) offset.toNat ∧ Moved (call.Writes q) s t ∧
        ∃ e, r = .error e ∧ e < 0)
      (fun e _ => e = .fs .noMem ∨
        (e = .overrun ∧ ¬EndsEarly s.fs.content f (call.bound + 1) offset.toNat) ∨
        (e ≠ .overrun ∧ EndsEarly s.fs.content f (call.bound + 1) offset.toNat)) := by
  obtain ⟨hlo, hhi⟩ := call.bound_le
  have hceil := ceilBlocks_bound call offset.toNat
  have hlt : offset.toNat < stop.toNat := by omega
  have hchunk := toNat_chunk hlt hoffset
  have hnext := toNat_add_chunk hlt
  have hfirst : ¬NoBlock s.fs.content f (offset.toNat / 4096) →
      need s.fs.content f (offset.toNat / 4096) (offset.toNat / 4096 + 1) ≤ freeCount s.fs.content := by
    intro hgot
    rw [need_one]
    exact Nat.not_lt.mp (fun hfull => hgot (.inr hfull))
  have hearly : NoBlock s.fs.content f (offset.toNat / 4096) →
      EndsEarly s.fs.content f (call.bound + 1) offset.toNat := by
    have hle : offset.toNat / 4096 + 1 ≤ ceilBlocks (offset.toNat + (call.bound + 1)) := by
      rw [hceil]
      split
      · exact le_rfl
      · exact Nat.le_succ _
    rintro (hmax | hfull)
    · exact .inl (by omega)
    · refine .inr (Nat.lt_of_lt_of_le hfull ?_)
      rw [← need_one]
      exact need_le le_rfl hle
  refine ht.turn_sat hf hno hw (Nat.zero_le _) hoffset hlt rfl (fuel + 1) q ?_ ?_ ?_ ?_ ?_
  · exact fun hnone r t hr hm _ => ⟨hearly hnone, hm, r, rfl, hr⟩
  · exact fun hnone e t he => .inr (.inr ⟨he, hearly hnone⟩)
  · exact fun t => .inl rfl
  · -- the first turn leaves the buffer
    intro hgot hover t
    refine .inr (.inl ⟨rfl, ?_⟩)
    rw [if_pos (by omega)] at hceil
    unfold EndsEarly
    rw [hceil]
    rintro (hmax | hfull)
    · exact hgot (.inl (by omega))
    · exact absurd (hfirst hgot) (Nat.not_le.mpr hfull)
  · intro t c' hle hgot hm hfilled hrewritten
    rw [if_neg (by omega)] at hceil
    have hpos : (offset + chunk offset stop).toNat / 4096 = offset.toNat / 4096 + 1 := by omega
    have hno' : NoEntries t.fs.content len f :=
      hrewritten.kept.noEntries hf (hfilled.kept.noEntries hf hno)
    have hwt : call = .read → t.writable = true := by
      intro hcall
      rw [hm.rest]
      exact hw hcall
    by_cases hmax : maxLen ≤ offset.toNat / 4096 + 1
    · have hends : EndsEarly s.fs.content f (call.bound + 1) offset.toNat := by
        unfold EndsEarly
        rw [hceil]
        exact .inl (by omega)
      have hnone : NoBlock t.fs.content f (offset.toNat / 4096 + 1) := .inl hmax
      refine hrewritten.tree.turn_sat hf hno' hwt hle (by
        unfold maxLen ndirect nindirect at hmax
        have hlt' : offset.toNat / 4096 < maxLen := Nat.not_le.mp (fun hge => hgot (.inl hge))
        unfold maxLen ndirect nindirect at hlt'
        omega) (by omega) hpos fuel q ?_ ?_ ?_ ?_ ?_
      · exact fun _ r u hr hu _ => ⟨hends, hm.trans hu, r, rfl, hr⟩
      · exact fun _ e u he => .inr (.inr ⟨he, hends⟩)
      · exact fun u => .inl rfl
      · exact fun hyes => absurd hnone hyes
      · exact fun _ _ _ hyes => absurd hnone hyes
    · have hmax : offset.toNat / 4096 + 1 < maxLen := Nat.not_le.mp hmax
      have hneed : need s.fs.content f (offset.toNat / 4096) (offset.toNat / 4096 + 2) =
          wanted s.fs.content f (offset.toNat / 4096) +
            wanted t.fs.content f (offset.toNat / 4096 + 1) := by
        rw [hfilled.wanted_next hf hmax, hrewritten.wanted_eq hf hmax]
      have hfree : freeCount t.fs.content =
          freeCount s.fs.content - wanted s.fs.content f (offset.toNat / 4096) := by
        rw [freeCount_of_sameSuper hrewritten.super, hfilled.freeCount_eq]
      have hroom := hfilled.wanted_le
      have hends : NoBlock t.fs.content f (offset.toNat / 4096 + 1) ↔
          EndsEarly s.fs.content f (call.bound + 1) offset.toNat := by
        unfold NoBlock EndsEarly
        rw [hceil]
        omega
      refine hrewritten.tree.turn_sat hf hno' hwt hle (by
        unfold maxLen ndirect nindirect at hmax
        omega) (by omega) hpos fuel q ?_ ?_ ?_ ?_ ?_
      · exact fun hnone r u hr hu _ => ⟨hends.mp hnone, hm.trans hu, r, rfl, hr⟩
      · exact fun hnone e u he => .inr (.inr ⟨he, hends.mp hnone⟩)
      · exact fun u => .inl rfl
      · exact fun hyes _ u => .inr (.inl ⟨rfl, fun hnone => hyes (hends.mpr hnone)⟩)
      · -- the second turn cannot stay in the buffer
        intro u c'' hle' _ _ _ _
        have hchunk' : (chunk (offset + chunk offset stop) stop).toNat =
            min (4096 - (offset + chunk offset stop).toNat % 4096)
              (stop.toNat - (offset + chunk offset stop).toNat) := by
          apply toNat_chunk (by omega)
          unfold maxLen ndirect nindirect at hmax
          omega
        omega

/-! ### Reads into a reply -/

/-- What the loop of a read of `n` bytes from `offset` on returns, and when it returns them. -/
def Delivers (x : Fs) (f n : ℕ) (offset : Word) : Except ℤ (List Byte) → Prop
  | .error e => e < 0 ∧ Misses x x.content f n offset
  | .ok bs => ¬Misses x x.content f n offset ∧ bs.length = n ∧
      ∀ k (hk : k < bs.length), bs[k] = replied x.content f offset k

lemma not_endsEarly : ¬EndsEarly c f n j ↔
    ceilBlocks (j + n) ≤ maxLen ∧ need c f (j / 4096) (ceilBlocks (j + n)) ≤ freeCount c := by
  unfold EndsEarly
  rw [not_or, Nat.not_lt, Nat.not_lt]

section Reads

variable (h : Tree x.content F len) (hf : f ∈ F) (hno : NoEntries x.content len f)
  (hlt : offset.toNat < stop.toNat)
include h hf hno hlt

/-- From an offset in the file. -/
lemma Tree.reads_small (hoffset : offset.toNat < 2 ^ 31) {fuel : ℕ} (hfuel : stop.toNat - offset.toNat ≤ fuel) :
    Sat (readLoop f stop fuel offset) x (fun r _ => Delivers x f (stop.toNat - offset.toNat) offset r)
      (fun e t => NoMem e t ∨ Misses x x.content f (stop.toNat - offset.toNat) offset) := by
  have hend : offset.toNat + (stop.toNat - offset.toNat) = stop.toNat := Nat.add_sub_of_le (Nat.le_of_lt hlt)
  have hto : passedTo (offset.toNat / 4096) offset.toNat stop.toNat = ceilBlocks stop.toNat := if_pos hlt
  have hmisses : ¬EndsEarly x.content f (stop.toNat - offset.toNat) offset.toNat →
      ceilBlocks stop.toNat ≤ maxLen ∧
        need x.content f (offset.toNat / 4096) (ceilBlocks stop.toNat) ≤ freeCount x.content := by
    rw [not_endsEarly, hend]
    exact id
  have hloop := h.readLoop_sat hf (fun hdir => (hno hdir).trans_le (Nat.zero_le _)) stop fuel offset hoffset hfuel
    (Nat.le_of_lt hlt) (fun _ => rfl) le_rfl (h.passed_refl f (offset.toNat / 4096) 0 (fun _ => 0))
  rw [hto] at hloop
  unfold Delivers
  rw [misses_of_small hoffset]
  refine hloop.mono ?_ ?_
  · rintro r t (⟨bs, rfl, ⟨hlen, hbs⟩, hp⟩ | ⟨e, j, rfl, hle, hj, hr, -⟩)
    · refine ⟨?_, hlen, ?_⟩
      · rw [not_endsEarly, hend]
        refine ⟨?_, hp.room⟩
        have hlast := (hp.present (ceilBlocks stop.toNat - 1) (by unfold ceilBlocks; omega)
          (by unfold ceilBlocks; omega)).1
        omega
      · intro k hk
        rw [hbs k hk]
        unfold replied
        rw [if_pos hoffset]
    · refine ⟨?_, ?_⟩
      · rcases hr with ⟨-, rfl⟩ | ⟨rfl, -⟩
        · decide
        · decide
      · by_contra hroom
        obtain ⟨hmax, hcount⟩ := hmisses hroom
        exact not_refused hle hj hmax hcount hr
  · rintro e t (hmem | ⟨-, j, hle, hj, hchokes⟩)
    · exact .inl hmem
    · right
      by_contra hroom
      exact not_chokes hle hj (hmisses hroom).2 hchokes

/-- From any offset. -/
lemma Tree.reads_sat {fuel : ℕ} (hfuel : stop.toNat - offset.toNat ≤ fuel) :
    Sat (readLoop f stop fuel offset) x (fun r _ => Delivers x f (stop.toNat - offset.toNat) offset r)
      (fun e t => NoMem e t ∨ Misses x x.content f (stop.toNat - offset.toNat) offset) := by
  by_cases hoffset : offset.toNat < 2 ^ 31
  · exact h.reads_small hf hno hlt hoffset hfuel
  · obtain ⟨n, hn⟩ := Nat.exists_eq_add_of_le (show 1 ≤ fuel by omega)
    rw [Nat.add_comm] at hn
    subst hn
    unfold Delivers
    rw [misses_of_large hoffset]
    by_cases hmax : maxLen ≤ firstBlock offset
    · -- no block of a file
      unfold readLoop
      rw [if_pos (show offset < stop from hlt), sat_bind]
      refine (fileGetBlock_inval f hmax).mono ?_ (fun _ _ he => .inl he)
      rintro r t ⟨rfl, -⟩
      exact sat_pure.mpr ⟨by decide, .inl (.inl hmax)⟩
    · have hfirst : firstBlock offset = 0 := (firstBlock_of_large (Nat.not_lt.mp hoffset)).resolve_right hmax
      have hnear := offset_of_firstBlock (Nat.not_lt.mp hoffset) hmax
      rw [hfirst]
      refine (h.readNear_sat hnear hf hlt n).mono ?_ (fun _ _ he => he)
      rintro r t ⟨hroom, hbarred, bs, rfl, hlen, hbs⟩
      refine ⟨not_or.mpr ⟨hroom, hbarred⟩, hlen, ?_⟩
      intro k hk
      rw [hbs k hk]
      unfold replied
      rw [if_neg hoffset]

end Reads

/-! ### The loop of a request, and what is returned after it -/

/-- The server stops, and has left the buffer if and only if `P` fails. -/
def ExitsIff (P : Prop) (e : ServeExit) : Prop := e ≠ .fs .noMem → (P ↔ e ≠ .overrun)

variable {P : Prop} {e : ServeExit}

lemma exitsIff_noMem (P : Prop) : ExitsIff P (.fs .noMem) := fun hne => absurd rfl hne

lemma exitsIff_inside (hP : P) (he : e ≠ .overrun) : ExitsIff P e := fun _ => iff_of_true hP he

lemma exitsIff_overrun (hP : ¬P) : ExitsIff P .overrun := fun _ => iff_of_false hP (not_not.mpr rfl)

def finish (call : DataCall) (q f : ℕ) (m offset : Word) : ServM (Except ℤ Word) := do
  match ← moveLoop (call.move q) f (offset + m) m.toNat offset 0 with
  | .error r => return .error r
  | .ok _ => return .ok m

/-- Every turn moves something. -/
lemma chunk_pos (hlt : pos.toNat < stop.toNat) : 0 < (chunk pos stop).toNat := by
  have hpos := pos.isLt
  have hleft : (stop - pos).toNat = stop.toNat - pos.toNat := BitVec.toNat_sub_of_le (Nat.le_of_lt hlt)
  have hrem : (pos.srem 4096).toNat < 4096 ∨ 2 ^ 32 < (pos.srem 4096).toNat + 4096 := by
    by_cases hsmall : pos.toNat < 2 ^ 31
    · rw [toNat_srem hsmall]
      omega
    · rw [toNat_srem_of_large (Nat.not_lt.mp hsmall) (by decide)]
      change (2 ^ 32 - (2 ^ 32 - pos.toNat) % 4096) % 2 ^ 32 < 4096 ∨
        2 ^ 32 < (2 ^ 32 - (2 ^ 32 - pos.toNat) % 4096) % 2 ^ 32 + 4096
      omega
  have hroom : (4096 - pos.srem 4096 : Word).toNat = (2 ^ 32 - (pos.srem 4096).toNat + 4096) % 2 ^ 32 :=
    BitVec.toNat_sub _ _
  have hbound := (pos.srem 4096).isLt
  unfold chunk
  rw [toNat_minWord, hleft, hroom]
  omega

lemma moveLoop_idle (h : ¬pos.toNat < stop.toNat) (move : ℕ → ℕ → ℕ → ServM Unit) (fuel : ℕ) :
    Sat (moveLoop move f stop fuel pos k) s (fun r t => r = .ok () ∧ t = s) (fun _ _ => False) := by
  cases fuel with
  | zero =>
    unfold moveLoop
    exact sat_pure.mpr ⟨rfl, rfl⟩
  | succ fuel =>
    unfold moveLoop
    rw [if_neg (show ¬pos < stop from h)]
    exact sat_pure.mpr ⟨rfl, rfl⟩

/-- The sum has wrapped, so that nothing is moved. -/
lemma finish_idle (h : ¬offset < offset + m) (call : DataCall) (q f : ℕ) :
    Sat (finish call q f m offset) s (fun r t => r = .ok m ∧ t = s) (fun _ _ => False) := by
  unfold finish
  rw [sat_bind]
  refine (moveLoop_idle h (call.move q) m.toNat).post ?_
  rintro r t ⟨rfl, rfl⟩
  exact sat_pure.mpr ⟨rfl, rfl⟩

/-- What fits is moved within the buffer, on any disk. -/
lemma finish_small (h : m.toNat ≤ call.bound) (q f : ℕ) (offset : Word) :
    Sat (finish call q f m offset) s
      (fun r t => Moved (call.Writes q) s t ∧ (r = .ok m ∨ ∃ e, r = .error e ∧ e < 0))
      (fun e _ => e ≠ .overrun) := by
  have hleft : 0 + ((offset + m).toNat - offset.toNat) ≤ call.bound := by
    rw [BitVec.toNat_add]
    omega
  unfold finish
  rw [sat_bind]
  refine (moveLoop_moved m.toNat hleft q f s).post ?_
  rintro r t ⟨hm, hr⟩
  cases r with
  | error r => exact sat_pure.mpr ⟨hm, .inr ⟨r, rfl, hr r rfl⟩⟩
  | ok => exact sat_pure.mpr ⟨hm, .inl rfl⟩

section Loops

variable (hlt : pos.toNat < stop.toNat)
include hlt

/-- No file can have the block. -/
lemma moveLoop_inval (hmax : maxLen ≤ firstBlock pos) (move : ℕ → ℕ → ℕ → ServM Unit) (P : ℕ → Prop)
    {fuel : ℕ} (hfuel : fuel ≠ 0) : Sat (moveLoop move f stop fuel pos k) s
      (fun r t => Moved P s t ∧ ∃ e, r = .error e ∧ e < 0) (fun e _ => e ≠ .overrun) := by
  obtain ⟨n, rfl⟩ := Nat.exists_eq_succ_of_ne_zero hfuel
  unfold moveLoop
  rw [if_pos (show pos < stop from hlt), sat_bind, sat_onFs]
  refine (fileGetBlock_inval f hmax).mono ?_ (fun _ _ _ => ServeExit.noConfusion)
  rintro r t ⟨rfl, -⟩
  exact sat_pure.mpr ⟨moved_fs P s t, _, rfl, by decide⟩

/-- The reply cannot be written. -/
lemma moveLoop_readonly (hk : k < 4096) (hw : ¬s.writable = true) (q : ℕ) (P : ℕ → Prop) {fuel : ℕ}
    (hfuel : fuel ≠ 0) : Sat (moveLoop (copyOut q) f stop fuel pos k) s
      (fun r t => Moved P s t ∧ ∃ e, r = .error e ∧ e < 0) (fun e _ => e ≠ .overrun) := by
  obtain ⟨n, rfl⟩ := Nat.exists_eq_succ_of_ne_zero hfuel
  unfold moveLoop
  rw [if_pos (show pos < stop from hlt), sat_bind, sat_onFs]
  refine (fileGetBlock_error f _ s.fs).mono (fun r x hr => ?_) (fun _ _ _ => ServeExit.noConfusion)
  cases r with
  | error r => exact sat_pure.mpr ⟨moved_fs P s x, r, rfl, hr r rfl⟩
  | ok blk =>
    dsimp only
    rw [sat_bind]
    have hstops := copyOut_readonly (s := { s with fs := x }) (n := (chunk pos stop).toNat) hk hw (chunk_pos hlt) q
      (posAddr blk pos)
    exact hstops.post (fun _ _ hfalse => hfalse.elim)

/-- A write that begins before the first block of its file, and has more to move than there is in the
request. -/
lemma Tree.writeNear_sat (h : Tree s.fs.content F len) (hf : f ∈ F) (hpos : 2 ^ 32 < pos.toNat + 4096)
    (hbig : reqBufSize < stop.toNat - pos.toNat) (fuel q : ℕ) :
    Sat (moveLoop (copyIn q) f stop (fuel + 1) pos 0) s (fun _ _ => False)
      (fun e _ => ExitsIff (NoBlock s.fs.content f 0 ∨ Barred s.fs s.fs.content f) e) := by
  have hstop := stop.isLt
  have hsub : (stop - pos).toNat = stop.toNat - pos.toNat := BitVec.toNat_sub_of_le (Nat.le_of_lt hlt)
  unfold moveLoop
  rw [if_pos (show pos < stop from hlt), sat_bind, sat_onFs, toNat_sdiv_near hpos, chunk_near hpos hlt]
  refine (h.getFirst_sat hf).mono ?_ ?_
  · rintro r t ⟨rfl, hroom, -, habove, hready, hfree⟩
    have haddr := posAddr_near hpos (sourceBlock s.fs.content f 0 0) (by omega)
    generalize sourceBlock s.fs.content f 0 0 = b at habove hready hfree haddr ⊢
    dsimp only
    rw [sat_bind, haddr, hsub]
    have hdiv : (4096 * (b - 1) + (pos.toNat + 4096 - 2 ^ 32)) / 4096 = b - 1 := by omega
    by_cases hbarred : Barred s.fs s.fs.content f
    · obtain ⟨n, hn⟩ := Nat.exists_eq_add_of_lt hlt
      obtain ⟨hisFree, hnone⟩ := hfree hbarred
      have hlen : stop.toNat - pos.toNat = n + 1 := by omega
      rw [hlen]
      rw [← hdiv] at hisFree hnone
      refine (copyIn_free (s := { s with fs := t }) (by decide) q n hisFree hnone).mono ?_ ?_
      · exact fun _ _ hfalse => hfalse.elim
      · exact fun e _ he => exitsIff_inside (.inr hbarred) he
    · refine (copyIn_sat (s := { s with fs := t }) (Nat.zero_le _) q (hready hbarred) (.inr hdiv)
        (by omega)).mono ?_ ?_
      · rintro - u ⟨hle, -⟩
        omega
      · rintro e u (rfl | ⟨rfl, -⟩)
        · exact exitsIff_noMem _
        · exact exitsIff_overrun (not_or.mpr ⟨hroom, hbarred⟩)
  · rintro e t (⟨rfl, -⟩ | hnone)
    · exact exitsIff_noMem _
    · exact exitsIff_inside (.inl hnone) ServeExit.noConfusion

end Loops

lemma finish_error (call : DataCall) {E : ServeExit → Server → Prop}
    (h : Sat (moveLoop (call.move q) f (offset + m) m.toNat offset 0) s
      (fun r t => P ∧ Moved (call.Writes q) s t ∧ ∃ e, r = .error e ∧ e < 0) E) :
    Sat (finish call q f m offset) s
      (fun r t => P ∧ Moved (call.Writes q) s t ∧ ∃ e, r = .error e ∧ e < 0) E := by
  unfold finish
  rw [sat_bind]
  refine h.post ?_
  rintro r t ⟨hP, hm, e, rfl, he⟩
  exact sat_pure.mpr ⟨hP, hm, e, rfl, he⟩

lemma toNat_add_of_lt (hlt : offset < offset + m) : (offset + m).toNat = offset.toNat + m.toNat := by
  have hlt : offset.toNat < (offset + m).toNat := hlt
  rw [BitVec.toNat_add] at hlt ⊢
  omega

section Finish

variable (h : Tree s.fs.content F len) (hf : f ∈ F) (hno : NoEntries s.fs.content len f)
  (hlt : offset < offset + m)
include h hf hno hlt

/-- A request that has more to move than fits into its buffer. -/
lemma Tree.finish_over (hbig : call.bound < m.toNat) (q : ℕ) :
    Sat (finish call q f m offset) s
      (fun r t => call.Stops s s.fs.content f (call.bound + 1) offset ∧ Moved (call.Writes q) s t ∧
        ∃ e, r = .error e ∧ e < 0)
      (fun e _ => ExitsIff (call.Stops s s.fs.content f (call.bound + 1) offset) e) := by
  obtain ⟨hlo, hhi⟩ := call.bound_le
  have hstop := toNat_add_of_lt hlt
  have hend := (offset + m).isLt
  have hlt : offset.toNat < (offset + m).toNat := hlt
  obtain ⟨fuel, hfuel⟩ := Nat.exists_eq_add_of_le (show 2 ≤ m.toNat by omega)
  rw [Nat.add_comm] at hfuel
  apply finish_error call
  rw [hfuel]
  by_cases hwrite : call = .read → s.writable = true
  · have hstops : call.Stops s s.fs.content f (call.bound + 1) offset ↔
        Misses s.fs s.fs.content f (call.bound + 1) offset := by
      refine or_iff_right ?_
      rintro ⟨hread, hno⟩
      rw [hwrite hread] at hno
      cases hno
    rw [hstops]
    by_cases hoffset : offset.toNat < 2 ^ 31
    · rw [misses_of_small hoffset]
      refine (h.moveLoop_over hf hno hwrite hoffset (by omega) fuel q).mono (fun _ _ hr => hr) ?_
      rintro e t (rfl | ⟨rfl, hnot⟩ | ⟨he, hearly⟩)
      · exact exitsIff_noMem _
      · exact exitsIff_overrun hnot
      · exact exitsIff_inside hearly he
    · rw [misses_of_large hoffset]
      by_cases hmax : maxLen ≤ firstBlock offset
      · refine (moveLoop_inval hlt hmax _ (call.Writes q) (Nat.succ_ne_zero _)).mono ?_ ?_
        · exact fun _ _ hr => ⟨.inl (.inl hmax), hr⟩
        · exact fun _ _ he => exitsIff_inside (.inl (.inl hmax)) he
      · have hfirst := (firstBlock_of_large (Nat.not_lt.mp hoffset)).resolve_right hmax
        have hnear := offset_of_firstBlock (Nat.not_lt.mp hoffset) hmax
        rw [hfirst]
        cases call with
        | read =>
          have hbig : 4096 < m.toNat := hbig
          omega
        | write =>
          have hbig : reqBufSize < m.toNat := hbig
          exact (h.writeNear_sat hlt hf hnear (by omega) (fuel + 1) q).post (fun _ _ hfalse => hfalse.elim)
  · have hread : call = .read := not_not.mp (fun hne => hwrite (fun heq => absurd heq hne))
    subst hread
    have hw : ¬s.writable = true := fun heq => hwrite (fun _ => heq)
    have hstops : DataCall.read.Stops s s.fs.content f (DataCall.read.bound + 1) offset :=
      .inl ⟨rfl, Bool.eq_false_iff.mpr hw⟩
    refine (moveLoop_readonly hlt (by decide) hw q (DataCall.read.Writes q) (Nat.succ_ne_zero _)).mono ?_ ?_
    · exact fun _ _ hr => ⟨hstops, hr⟩
    · exact fun _ _ he => exitsIff_inside hstops he

/-- What a read whose bytes fit into the reply returns. -/
lemma Tree.finish_reads (hle : m.toNat ≤ 4096) (q : ℕ) :
    Sat (finish .read q f m offset) s
      (fun r t => (DataCall.read.Stops s s.fs.content f m.toNat offset ∧ Moved (DataCall.read.Writes q) s t ∧
          ∃ e, r = .error e ∧ e < 0) ∨
        (¬DataCall.read.Stops s s.fs.content f m.toNat offset ∧ r = .ok m ∧ ∃ bs, bs.length = m.toNat ∧
          (∀ k (hk : k < bs.length), bs[k] = replied s.fs.content f offset k) ∧ t = withReply s t.fs q 0 bs))
      (fun e _ => e = .fs .noMem ∨
        (DataCall.read.Stops s s.fs.content f m.toNat offset ∧ e ≠ .overrun)) := by
  have hstop := toNat_add_of_lt hlt
  have hlt : offset.toNat < (offset + m).toNat := hlt
  by_cases hw : s.writable = true
  · have hstops : DataCall.read.Stops s s.fs.content f m.toNat offset ↔
        Misses s.fs s.fs.content f m.toNat offset := by
      refine or_iff_right ?_
      rintro ⟨-, hno⟩
      rw [hw] at hno
      cases hno
    rw [hstops]
    have hreads := h.reads_sat hf hno hlt (show (offset + m).toNat - offset.toNat ≤ m.toNat by omega)
    have hlen : (offset + m).toNat - offset.toNat = m.toNat := by omega
    rw [hlen] at hreads
    unfold finish
    rw [sat_bind]
    refine (moveLoop_reads hw q f m.toNat (by omega) hreads).mono ?_ ?_
    · rintro r t (⟨e, rfl, ⟨he, hmisses⟩, hm⟩ | ⟨bs, rfl, ⟨hnot, hlen, hbs⟩, ht⟩)
      · exact sat_pure.mpr (.inl ⟨hmisses, hm.mono (fun _ hp => ⟨rfl, hp⟩), e, rfl, he⟩)
      · exact sat_pure.mpr (.inr ⟨hnot, rfl, bs, hlen, hbs, ht⟩)
    · rintro e t ⟨e, rfl, ⟨rfl, -⟩ | hmisses⟩
      · exact .inl rfl
      · exact .inr ⟨hmisses, ServeExit.noConfusion⟩
  · have hstops : DataCall.read.Stops s s.fs.content f m.toNat offset := .inl ⟨rfl, Bool.eq_false_iff.mpr hw⟩
    have hloop := moveLoop_readonly (f := f) (k := 0) hlt (by decide) hw q (DataCall.read.Writes q)
      (show m.toNat ≠ 0 by omega)
    refine (finish_error .read (hloop.post fun _ _ hr => ⟨hstops, hr⟩)).mono ?_ ?_
    · exact fun _ _ hr => .inl hr
    · exact fun _ _ he => .inr ⟨hstops, he⟩

end Finish

end SistemasOperativos.Fs
