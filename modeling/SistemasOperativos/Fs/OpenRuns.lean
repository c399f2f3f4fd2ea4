import SistemasOperativos.Fs.OpenTable
import SistemasOperativos.Fs.Memory
import SistemasOperativos.Fs.Wellformed

/-!
# Runs of the table of open files

Every step of the server and its clients keeps the invariant of the table, as long as no client uses
an Fd page for a request.
-/

namespace SistemasOperativos.Fs

open Library Kern

variable {w w' : World} {t : Server} {h : Handle} {i p : ℕ} {fileid : Word}

/-! ### Steps -/

lemma release_eq (s : Server) : ∃ f,
    s.release = { s with fsreq := none, mapped := f } ∧ ∀ p, s.fsreq ≠ some p → f p = s.mapped p := by
  unfold Server.release
  cases hq : s.fsreq with
  | none =>
    refine ⟨s.mapped, ?_, fun _ _ => rfl⟩
    obtain ⟨fs, opentab, fdPage, fsreq, writable, page, mapped, fresh⟩ := s
    obtain rfl : fsreq = none := hq
    rfl
  | some q =>
    refine ⟨_, rfl, fun p hp => Function.update_of_ne ?_ _ _⟩
    rintro rfl
    exact hp rfl

namespace TableIn

lemma counted (hw : TableIn w) : Counted w.server := by
  intro i p hp
  rw [hw.pageref_eq hp]
  omega

/-- A handle is not of a page that no client has. -/
lemma ne_of_holders (hh : h ∈ w.handles) (hp : holders w.handles p = 0) : h.2 ≠ p := by
  rintro rfl
  have hpos : 0 < holders w.handles h.2 := holders_pos.mpr ⟨h.1, hh⟩
  omega

lemma release (hw : TableIn w) : TableIn { w with server := w.server.release, reply := none } := by
  obtain ⟨f, heq, hf⟩ := release_eq w.server
  rw [heq]
  refine ⟨hw.slots, hw.inj, ?_, hw.handles, hw.ids, ?_, ?_⟩
  · intro i p hp
    dsimp only
    rw [hf p]
    · exact hw.mapped i p hp
    · intro hq
      exact (hw.request p hq).2 i hp
  · intro q hq
    cases hq
  · intro r p hr
    cases hr

/-- One handle more. -/
lemma take (hw : TableIn w) (hi : w.server.fdPage i = some p) (hid : (w.server.opentab i).fileid = fileid)
    (hlt : w.server.mapped p + 1 < 65536) (hreply : ∀ r p', w.reply = some (r, some p') → p ≠ p') :
    TableIn { w with server := w.server.map p, handles := (fileid, p) :: w.handles } := by
  unfold Server.map
  refine ⟨hw.slots, hw.inj, ?_, ?_, hw.ids, hw.request, ?_⟩
  · intro j p' hj
    obtain ⟨hmapped, hle⟩ := hw.mapped j p' hj
    dsimp only
    rw [holders_cons]
    by_cases hp : p = p'
    · subst hp
      rw [Function.update_self, if_pos rfl]
      exact ⟨by omega, hlt⟩
    · rw [Function.update_of_ne (Ne.symm hp), if_neg hp]
      exact ⟨hmapped, hle⟩
  · intro h hh
    rcases List.mem_cons.mp hh with rfl | hh
    · exact ⟨i, hi, hid⟩
    · exact hw.handles h hh
  · intro r p' hr
    obtain ⟨j, hj, hword, hzero⟩ := hw.reply r p' hr
    refine ⟨j, hj, hword, ?_⟩
    dsimp only
    rw [holders_cons, if_neg (hreply r p' hr), hzero]

lemma drop (hw : TableIn w) (hh : h ∈ w.handles) :
    TableIn { w with server := w.server.unmap h.2, handles := w.handles.erase h } := by
  unfold Server.unmap
  refine ⟨hw.slots, hw.inj, ?_, ?_, hw.ids, hw.request, ?_⟩
  · intro j p hj
    obtain ⟨hmapped, hle⟩ := hw.mapped j p hj
    have hcount := holders_erase hh p
    dsimp only
    by_cases hp : h.2 = p
    · rw [if_pos hp] at hcount
      rw [hp, Function.update_self]
      omega
    · rw [if_neg hp] at hcount
      rw [Function.update_of_ne (Ne.symm hp)]
      omega
  · exact fun h' hh' => hw.handles h' (List.mem_of_mem_erase hh')
  · intro r p hr
    obtain ⟨j, hj, hword, hzero⟩ := hw.reply r p hr
    have hcount := holders_erase hh p
    refine ⟨j, hj, hword, ?_⟩
    dsimp only
    omega

/-- A request that leaves the table alone and sends no page. -/
lemma same (hw : TableIn w) (hsame : SameTable w.server t) (r : ℤ) :
    TableIn { w with server := t, reply := some (r, none) } := by
  refine ⟨?_, ?_, ?_, ?_, ?_, ?_, ?_⟩
  · dsimp only
    rw [hsame.fdPage, hsame.fresh]
    exact hw.slots
  · dsimp only
    rw [hsame.fdPage]
    exact hw.inj
  · dsimp only
    rw [hsame.fdPage, hsame.mapped]
    exact hw.mapped
  · intro h hh
    obtain ⟨i, hi, hid⟩ := hw.handles h hh
    refine ⟨i, ?_, (hsame.fileids i).trans hid⟩
    rw [hsame.fdPage]
    exact hi
  · intro i hi
    dsimp only
    rw [hsame.fileids i]
    exact hw.ids i hi
  · dsimp only
    rw [hsame.fsreq, hsame.fresh, hsame.fdPage]
    exact hw.request
  · intro r p hr
    cases hr

/-- An open that takes a slot, and sends its page or not. -/
lemma taken (hw : TableIn w) (htaken : Taken w.server t i p) {r : ℤ × Option ℕ}
    (hr : ∀ p', r.2 = some p' → p' = p ∧ wordAt (t.page p) fdFileId = (t.opentab i).fileid) :
    TableIn { w with server := t, reply := some r } := by
  have hfree : FreeSlot w i := hw.pageref_le.mp htaken.free
  have hfresh : ∀ h ∈ w.handles, h.2 ≠ w.server.fresh := by
    intro h hh heq
    obtain ⟨j, hj, -⟩ := hw.handles h hh
    have hlt := (hw.slots j _ hj).2
    omega
  have hnone : holders w.handles w.server.fresh = 0 := by
    by_contra hne
    obtain ⟨id, hmem⟩ := holders_pos.mp (Nat.pos_of_ne_zero hne)
    exact hfresh _ hmem rfl
  -- the page of the slot is held by no client and is not the page of another slot
  have hzero : holders w.handles p = 0 := by
    rcases htaken.old with ⟨hp, -, -⟩ | ⟨-, rfl, -, -⟩
    · exact hfree p hp
    · exact hnone
  have hother : ∀ j ≠ i, ∀ p', t.fdPage j = some p' → w.server.fdPage j = some p' ∧ p' ≠ p := by
    intro j hj p' hp'
    rw [htaken.pages j hj] at hp'
    refine ⟨hp', ?_⟩
    rintro rfl
    rcases htaken.old with ⟨hp, -, -⟩ | ⟨-, rfl, -, -⟩
    · exact hj (hw.inj j i p' hp' hp)
    · exact absurd (hw.slots j _ hp').2 (Nat.lt_irrefl _)
  have hle : w.server.fresh ≤ t.fresh := by
    rcases htaken.old with ⟨-, -, heq⟩ | ⟨-, -, -, heq⟩
    · exact heq.ge
    · omega
  refine ⟨?_, ?_, ?_, ?_, ?_, ?_, ?_⟩
  · intro j p' hp'
    dsimp only at hp' ⊢
    by_cases hj : j = i
    · subst hj
      obtain rfl := Option.some.inj (hp'.symm.trans htaken.page)
      refine ⟨htaken.slot, ?_⟩
      rcases htaken.old with ⟨hp, -, -⟩ | ⟨-, rfl, -, heq⟩
      · exact Nat.lt_of_lt_of_le (hw.slots j _ hp).2 hle
      · omega
    · obtain ⟨hslot, hlt⟩ := hw.slots j p' (hother j hj p' hp').1
      exact ⟨hslot, Nat.lt_of_lt_of_le hlt hle⟩
  · intro j k p' hj hk
    dsimp only at hj hk
    by_cases hji : j = i
    · by_cases hki : k = i
      · rw [hji, hki]
      · rw [hji, htaken.page] at hj
        exact absurd (Option.some.inj hj).symm (hother k hki p' hk).2
    · by_cases hki : k = i
      · rw [hki, htaken.page] at hk
        exact absurd (Option.some.inj hk).symm (hother j hji p' hj).2
      · exact hw.inj j k p' (hother j hji p' hj).1 (hother k hki p' hk).1
  · intro j p' hp'
    dsimp only at hp' ⊢
    by_cases hj : j = i
    · subst hj
      obtain rfl := Option.some.inj (hp'.symm.trans htaken.page)
      rcases htaken.old with ⟨hp, hmapped, -⟩ | ⟨-, rfl, hmapped, -⟩
      · rw [hmapped]
        exact hw.mapped j _ hp
      · rw [hmapped, Function.update_self, hzero]
        exact ⟨rfl, by decide⟩
    · obtain ⟨hp, hne⟩ := hother j hj p' hp'
      rcases htaken.old with ⟨-, hmapped, -⟩ | ⟨-, -, hmapped, -⟩
      · rw [hmapped]
        exact hw.mapped j p' hp
      · rw [hmapped, Function.update_of_ne hne]
        exact hw.mapped j p' hp
  · intro h hh
    obtain ⟨j, hj, hid⟩ := hw.handles h hh
    have hji : j ≠ i := by
      rintro rfl
      exact ne_of_holders hh (hfree _ hj) rfl
    refine ⟨j, (htaken.pages j hji).trans hj, (htaken.fileids j hji).trans hid⟩
  · intro j hj
    dsimp only
    by_cases hji : j = i
    · subst hji
      have hmod := hw.ids j hj
      rw [htaken.fileid, BitVec.toNat_add]
      have hopen : (BitVec.ofNat 32 maxopen).toNat = 1024 := rfl
      have hmax : maxopen = 1024 := rfl
      rw [hopen]
      rw [hmax] at hmod ⊢
      omega
    · rw [htaken.fileids j hji]
      exact hw.ids j hj
  · intro q hq
    dsimp only at hq ⊢
    rw [htaken.fsreq] at hq
    obtain ⟨hlt, hno⟩ := hw.request q hq
    refine ⟨Nat.lt_of_lt_of_le hlt hle, fun j hj => ?_⟩
    by_cases hji : j = i
    · subst hji
      obtain rfl := Option.some.inj (hj.symm.trans htaken.page)
      rcases htaken.old with ⟨hp, -, -⟩ | ⟨-, heq, -, -⟩
      · exact hno j hp
      · omega
    · exact hno j (hother j hji q hj).1
  · intro r' p' hr'
    obtain ⟨rfl, hword⟩ := hr p' (congrArg Prod.snd (Option.some.inj hr'))
    exact ⟨i, htaken.page, hword, hzero⟩

/-- A request is served. -/
lemma serve (hw : TableIn w) {req : Word} {r : ℤ × Option ℕ}
    (hrun : serveRequest req w.server = .ok r t) : TableIn { w with server := t, reply := some r } := by
  by_cases hreq : req = 1
  · subst hreq
    have hopens : Opens w.server r t := (serveOpen_sat hw.counted).of_ok hrun
    cases hopens with
    | refused hsame r => exact hw.same hsame r
    | failed htaken r => exact hw.taken htaken (fun _ h => nomatch h)
    | opened htaken hid =>
      refine hw.taken htaken (fun p' hp' => ?_)
      exact ⟨(Option.some.inj hp').symm, hid⟩
  · obtain ⟨hsame, hnone⟩ := (serveRequest_tabled hreq w.server).of_ok hrun
    obtain ⟨r, o⟩ := r
    obtain rfl : o = none := hnone
    exact hw.same hsame r

lemma receive (hw : TableIn w) (hreply : w.reply = none) (data : ℕ → Byte) (writable : Bool) :
    TableIn { w with server := w.server.receive data writable } := by
  unfold Server.receive
  refine ⟨?_, hw.inj, ?_, hw.handles, hw.ids, ?_, ?_⟩
  · intro i p hp
    obtain ⟨hslot, hlt⟩ := hw.slots i p hp
    exact ⟨hslot, Nat.lt_succ_of_lt hlt⟩
  · intro i p hp
    have hne : p ≠ w.server.fresh := Nat.ne_of_lt (hw.slots i p hp).2
    dsimp only
    rw [Function.update_of_ne hne]
    exact hw.mapped i p hp
  · intro q hq
    obtain rfl := Option.some.inj hq
    refine ⟨Nat.lt_succ_self _, fun i hi => ?_⟩
    exact absurd (hw.slots i _ hi).2 (Nat.lt_irrefl _)
  · intro r p hr
    rw [hreply] at hr
    cases hr

/-- A client stores into its Fd page. -/
lemma write (hw : TableIn w) (hh : h ∈ w.handles) (a : ℕ) (x : Byte) :
    TableIn { w with
      server := { w.server with
        page := Function.update w.server.page h.2 (Function.update (w.server.page h.2) a x) } } := by
  refine ⟨hw.slots, hw.inj, hw.mapped, hw.handles, hw.ids, hw.request, ?_⟩
  intro r p hr
  obtain ⟨i, hi, hword, hzero⟩ := hw.reply r p hr
  refine ⟨i, hi, ?_, hzero⟩
  dsimp only
  rw [Function.update_of_ne (Ne.symm (ne_of_holders hh hzero))]
  exact hword

lemma start (hw : WorldStart w) : TableIn w := by
  obtain ⟨hids, hpages, hreq, hhandles, hreply⟩ := hw
  refine ⟨?_, ?_, ?_, ?_, ?_, ?_, ?_⟩
  · intro i p hp
    rw [hpages i] at hp
    cases hp
  · intro i j p hp
    rw [hpages i] at hp
    cases hp
  · intro i p hp
    rw [hpages i] at hp
    cases hp
  · intro h hh
    rw [hhandles] at hh
    cases hh
  · intro i hi
    have hmax : maxopen = 1024 := rfl
    rw [hids i hi, BitVec.toNat_ofNat]
    rw [hmax] at hi ⊢
    omega
  · intro q hq
    rw [hreq] at hq
    cases hq
  · intro r p hr
    rw [hreply] at hr
    cases hr

lemma step {e : WorldEvent} (hw : TableIn w) (hg : WorldGuard w e) (hstep : WorldStep w e w') :
    TableIn w' := by
  cases hstep with
  | request data writable hidle hreply => exact hw.receive hreply data writable
  | requestFd => exact hg.elim
  | serve hreply hpage hrun => exact hw.serve hrun
  | @taken r p hreply =>
    obtain ⟨i, hi, hword, hzero⟩ := hw.reply r p hreply
    have hone : w.server.mapped p = 1 := by
      have hmapped := (hw.mapped i p hi).1
      omega
    have hnoReply : TableIn { w with reply := none } :=
      ⟨hw.slots, hw.inj, hw.mapped, hw.handles, hw.ids, hw.request, fun _ _ h => nomatch h⟩
    refine (hnoReply.take hi hword.symm ?_ (fun _ _ h => nomatch h)).release
    dsimp only
    omega
  | refused hreply => exact hw.release
  | @share h hh =>
    obtain ⟨i, hi, hid⟩ := hw.handles h hh
    refine hw.take hi hid hg ?_
    intro r p' hr
    obtain ⟨-, -, -, hzero⟩ := hw.reply r p' hr
    exact ne_of_holders hh hzero
  | drop hh => exact hw.drop hh
  | write a x hh => exact hw.write hh a x

lemma ok (hw : TableIn w) : TableOk w where
  lookup fileid := hw.looksUp_iff
  taken i fileid t hrun := by
    have hout := (allocSlot_sat hw.counted maxopen 0 (Nat.zero_add _)).of_ok hrun
    cases hout with
    | taken htaken => exact ⟨htaken.slot, hw.pageref_le.mp htaken.free⟩

lemma neverFull (hw : TableIn w) (hg : WorldGuard w (.serve 1)) : NeverFull w := by
  rintro ⟨i, hi, hfree⟩ hframes
  obtain ⟨r, t, hrun, hout⟩ := (allocSlot_sat hw.counted maxopen 0 (Nat.zero_add _)).exists_ok
  cases hout with
  | full hbusy =>
    have hle := hw.pageref_le.mpr hfree
    exact absurd (hbusy i (Nat.zero_le i) (by omega)) (Nat.not_lt.mpr hle)
  | noMem hzero => exact absurd hzero hframes
  | @taken j p t htaken =>
    refine ⟨j, _, t, hrun, ?_⟩
    have hlt := hg rfl j htaken.slot (hw.pageref_le.mp htaken.free)
    have hmax : (BitVec.ofNat 32 maxopen).toNat = 1024 := rfl
    have hmax' : maxopen = 1024 := rfl
    rw [htaken.fileid, BitVec.toInt_eq_toNat_of_lt]
    · exact Int.natCast_nonneg _
    · rw [BitVec.toNat_add, hmax]
      omega

end TableIn

/-- In every run whose steps meet the condition the table does what it is to do, and an open that meets
it is not refused while a slot is free. -/
theorem table_of_run {h : List (Move World WorldEvent)} (hr : Run WorldStart WorldStep h w)
    (hg : ∀ m ∈ h, WorldGuard m.pre m.label) :
    TableOk w ∧ (WorldGuard w (.serve 1) → NeverFull w) := by
  have hw : TableIn w := hr.induct hg (fun _ w => TableIn w) (fun _ hs => .start hs)
    (fun _ _ _ _ hw hi hstep => hw.step hi hstep)
  exact ⟨hw.ok, hw.neverFull⟩

/-! ### An open file -/

/-- A server that has just started. -/
def startWorld : World where
  server :=
    { fs := cached smallDisk
      opentab := fun i => { fileid := BitVec.ofNat 32 i, file := 0, mode := 0 }
      fdPage := fun _ => none
      fsreq := none
      writable := true
      page := fun _ _ => 0
      mapped := fun _ => 0
      fresh := 0 }
  handles := []
  reply := none

lemma startWorld_start : WorldStart startWorld := ⟨fun _ _ => rfl, fun _ => rfl, rfl, rfl, rfl⟩

/-- A client opens the root directory and takes the page. -/
lemma opened_run : ∃ h w x, Run WorldStart WorldStep h w ∧ (∀ m ∈ h, WorldGuard m.pre m.label) ∧
    w.handles = [x] ∧ w.server.fsreq = none ∧ w.reply = none := by
  obtain ⟨t, hrun⟩ : ∃ t, serveRequest 1 (startWorld.server.receive (fun _ => 0) true) = .ok (0, some 1) t :=
    ⟨_, eq_ok_of_resultOf (by decide +kernel)⟩
  have hstart : Run WorldStart WorldStep [] startWorld := .start startWorld_start
  have hrequest := hstart.next (.request (fun _ => 0) true rfl rfl)
  have hserve := hrequest.next (.serve rfl (Option.some_ne_none 0) hrun)
  have htaken := hserve.next (.taken rfl)
  refine ⟨_, _, _, htaken, ?_, rfl, ?_, rfl⟩
  · intro m hm
    simp only [List.nil_append, List.cons_append, List.mem_cons, List.not_mem_nil, or_false] at hm
    rcases hm with rfl | rfl | rfl
    · trivial
    · intro _ i hi _
      have hmax : maxopen = 1024 := rfl
      have hid : BitVec.toNat (BitVec.ofNat 32 i) + maxopen < 2 ^ 31 := by
        rw [BitVec.toNat_ofNat]
        omega
      exact hid
    · trivial
  · obtain ⟨f, heq, -⟩ := release_eq (t.map 1)
    exact congrArg Server.fsreq heq

/-- The table after an open. -/
theorem table_of_opened_run : ∃ w, w.handles.length = 1 ∧ TableOk w ∧
    (WorldGuard w (.serve 1) → NeverFull w) := by
  obtain ⟨h, w, x, hr, hg, hhandles, -, -⟩ := opened_run
  exact ⟨w, by rw [hhandles, List.length_singleton], table_of_run hr hg⟩

/-- The Fd page of an open file as the request page: the file is found after the client has closed it. -/
theorem lookup_after_close : ¬∀ h w, Run WorldStart WorldStep h w → TableOk w ∧ NeverFull w := by
  intro hall
  obtain ⟨h, w, x, hr, hg, hhandles, hidle, hreply⟩ := opened_run
  have hw : TableIn w := hr.induct hg (fun _ w => TableIn w) (fun _ hs => .start hs)
    (fun _ _ _ _ hw hi hstep => hw.step hi hstep)
  have hx : x ∈ w.handles := by
    rw [hhandles]
    exact List.mem_singleton_self x
  have hrequest := hr.next (.requestFd true hidle hreply hx)
  have hdrop := hrequest.next (.drop hx)
  have hfound : LooksUp (Server.unmap { w.server.map x.2 with fsreq := some x.2, writable := true } x.2) x.1 := by
    obtain ⟨i, hi, hid⟩ := hw.handles x hx
    have hslot : x.1.toNat % maxopen = i := by
      rw [← hid]
      exact hw.ids i (hw.slots i _ hi).1
    have hmapped : w.server.mapped x.2 = 2 := by
      have hcount := (hw.mapped i _ hi).1
      rw [hhandles, holders_cons, if_pos rfl] at hcount
      exact hcount
    rw [looksUp_eq, hslot]
    have hpage : (Server.unmap { w.server.map x.2 with fsreq := some x.2, writable := true } x.2).fdPage i =
        some x.2 := hi
    have htwo : (Server.unmap { w.server.map x.2 with fsreq := some x.2, writable := true } x.2).mapped x.2 = 2 := by
      unfold Server.unmap Server.map
      dsimp only
      rw [Function.update_self, Function.update_self, hmapped]
    rintro (hle | hne)
    · unfold pageref at hle
      rw [hpage] at hle
      dsimp only at hle
      rw [htwo] at hle
      exact absurd hle (by decide)
    · exact hne hid
  obtain ⟨p, hp⟩ := ((hall _ _ hdrop).1.lookup x.1).mp hfound
  rw [hhandles, List.erase_cons_head] at hp
  cases hp

end SistemasOperativos.Fs
