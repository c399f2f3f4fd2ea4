import SistemasOperativos.Fs.Listings
import SistemasOperativos.Fs.Bounds
import SistemasOperativos.Fs.OpenTable

/-!
# Requests that leave the directories alone

Every request but an open leaves the table and the directories as they are, unless it writes to a
directory, gives it a size or moves bytes in front of a file.
-/

namespace SistemasOperativos.Fs

open Library Kern

/-- The table and the mappings are the same, and the directories. The new sizes are in `K`. -/
structure Calm (K : Set Word) (F : Set ℕ) (s t : Server) : Prop where
  opentab : t.opentab = s.opentab
  fdPage : t.fdPage = s.fdPage
  mapped : t.mapped = s.mapped
  fresh : t.fresh = s.fresh
  quiet : Quiet K F s.fs.content t.fs.content

/-- The condition on a request with a file id: no directory gets a size or data, and no bytes are moved in
front of a file. -/
def FileSound (s : Server) (q : ℕ) (req : Word) : Prop :=
  Found s q → (req = 2 ∨ req = 4 → ¬IsDir s.fs.content (s.opentab (slotOf s q)).file) ∧
    (req = 4 → ∀ p, s.fdPage (slotOf s q) = some p →
      ¬Underruns (wordAt (s.page p) fdOffset) (wordAt (s.page p) fdOffset + wordAt (s.page q) reqN))

/-- The sizes that a request with a file id brings are in `K`. -/
def GrowSound (K : Set Word) (s : Server) (q : ℕ) (req : Word) : Prop :=
  Found s q → (req = 2 → wordAt (s.page q) reqSize ∈ K) ∧
    (req = 4 → ∀ p, s.fdPage (slotOf s q) = some p →
      fileSize s.fs.content (s.opentab (slotOf s q)).file < wordAt (s.page p) fdOffset + wordAt (s.page q) reqN →
        wordAt (s.page p) fdOffset + wordAt (s.page q) reqN ∈ K)

variable {K : Set Word} {F F' : Set ℕ} {s t u : Server} {f i j k n p q : ℕ} {count offset pos stop req w : Word}
  {path : CString}

lemma Calm.refl (h : Wf s.fs.content F) : Calm K F s s := ⟨rfl, rfl, rfl, rfl, .refl h⟩

/-! ### Steps -/

/-- A request that is calm. -/
abbrev KeepsCalm {α : Type} (K : Set Word) (F : Set ℕ) (m : ServM α) : Prop :=
  ∀ s, Keeps (fun t => Calm K F s t) (fun _ _ => True) m

section KeepsCalm

variable {α β : Type}

lemma pure_keepsCalm (x : α) : KeepsCalm K F (pure x : ServM α) := fun _ => .pure x

lemma bind_keepsCalm {m : ServM α} {g : α → ServM β} (hm : KeepsCalm K F m) (hg : ∀ x, KeepsCalm K F (g x)) :
    KeepsCalm K F (m >>= g) := fun s => (hm s).bind (fun x => hg x s)

lemma ite_keepsCalm {c : Prop} [Decidable c] {m m' : ServM α} (h : KeepsCalm K F m)
    (h' : KeepsCalm K F m') : KeepsCalm K F (if c then m else m') := by
  split
  · exact h
  · exact h'

lemma throw_keepsCalm (e : ServeExit) : KeepsCalm K F (throw e : ServM α) :=
  fun _ _ _ => sat_throw.mpr trivial

lemma onFs_keepsCalm {m : FsM α} (h : KeepsQuiet K F m) : KeepsCalm K F (onFs m) := by
  intro s t ht
  rw [sat_onFs]
  refine (h t.fs.content t.fs (.refl ht.quiet.wf)).mono ?_ (fun _ _ _ => trivial)
  exact fun _ x hx => ⟨ht.opentab, ht.fdPage, ht.mapped, ht.fresh, ht.quiet.trans hx⟩

/-- What changes pages only. -/
lemma modifyPage_keepsCalm (g : Server → ℕ → ℕ → Byte) :
    KeepsCalm K F (modify fun s => { s with page := g s } : ServM Unit) := fun _ _ ht =>
  sat_modify.mpr ⟨ht.opentab, ht.fdPage, ht.mapped, ht.fresh, ht.quiet⟩

lemma storePage_keepsCalm (p a : ℕ) (w : Word) : KeepsCalm K F (storePage p a w) :=
  modifyPage_keepsCalm _

lemma storeReply_keepsCalm (q k : ℕ) (x : Byte) : KeepsCalm K F (storeReply q k x) := by
  intro s t ht
  unfold storeReply
  simp only [sat_bind, sat_ite, sat_throw, sat_get, sat_modify]
  exact ⟨fun _ => trivial, fun _ => ⟨fun _ => trivial,
    fun _ => ⟨ht.opentab, ht.fdPage, ht.mapped, ht.fresh, ht.quiet⟩⟩⟩

lemma copyOut_keepsCalm (q n a k : ℕ) : KeepsCalm K F (copyOut q n a k) := by
  induction n generalizing a k with
  | zero => exact pure_keepsCalm _
  | succ n ih =>
    unfold copyOut
    apply bind_keepsCalm (onFs_keepsCalm ((loadByte_looks a).keepsQuiet K F))
    intro x
    exact bind_keepsCalm (storeReply_keepsCalm _ _ _) (fun _ => ih _ _)

lemma moveLoop_keepsCalm {move : ℕ → ℕ → ℕ → ServM Unit} (hmove : ∀ n a k, KeepsCalm K F (move n a k))
    (hf : f ∈ F) (stop : Word) (fuel : ℕ) (pos : Word) (k : ℕ) :
    KeepsCalm K F (moveLoop move f stop fuel pos k) := by
  induction fuel generalizing pos k with
  | zero => exact pure_keepsCalm _
  | succ fuel ih =>
    unfold moveLoop
    apply ite_keepsCalm
    · apply bind_keepsCalm (onFs_keepsCalm (getBlock_keepsQuiet hf _))
      rintro (r | blk)
      · exact pure_keepsCalm _
      · exact bind_keepsCalm (hmove _ _ _) (fun _ => ih _ _)
    · exact pure_keepsCalm _

lemma fileReadTo_keepsCalm (hf : f ∈ F) (q : ℕ) (count offset : Word) :
    KeepsCalm K F (fileReadTo q f count offset) := by
  unfold fileReadTo
  apply bind_keepsCalm (onFs_keepsCalm ((loadWord_looks _).keepsQuiet K F))
  intro size
  apply ite_keepsCalm (pure_keepsCalm _)
  apply bind_keepsCalm (moveLoop_keepsCalm (copyOut_keepsCalm q) hf _ _ _ _)
  rintro (r | -)
  · exact pure_keepsCalm _
  · exact pure_keepsCalm _

lemma copyName_keepsCalm (q n a k : ℕ) : KeepsCalm K F (copyName q n a k) := by
  induction n generalizing a k with
  | zero => exact throw_keepsCalm _
  | succ n ih =>
    unfold copyName
    apply bind_keepsCalm (onFs_keepsCalm ((loadByte_looks a).keepsQuiet K F))
    intro x
    apply bind_keepsCalm (storeReply_keepsCalm _ _ _)
    intro _
    exact ite_keepsCalm (ih _ _) (pure_keepsCalm _)

end KeepsCalm

/-! ### Writes -/

/-- The `n` bytes from `k` on in the data of a request. -/
def dataOf (s : Server) (q k n : ℕ) : List Byte := (List.range n).map (fun i => s.page q (reqBuf + k + i))

lemma length_dataOf (s : Server) (q k n : ℕ) : (dataOf s q k n).length = n := by
  unfold dataOf
  rw [List.length_map, List.length_range]

lemma getElem_dataOf (s : Server) (q k n : ℕ) {i : ℕ} (hi : i < (dataOf s q k n).length) :
    (dataOf s q k n)[i] = s.page q (reqBuf + k + i) := by
  simp [dataOf]

lemma dataOf_succ (s : Server) (q k n : ℕ) :
    dataOf s q k (n + 1) = s.page q (reqBuf + k) :: dataOf s q (k + 1) n := by
  apply List.ext_getElem
  · rw [List.length_cons, length_dataOf, length_dataOf]
  · intro i hi hi'
    rw [getElem_dataOf]
    cases i with
    | zero => rfl
    | succ i =>
      rw [List.getElem_cons_succ, getElem_dataOf]
      congr 1
      omega

lemma take_dataOf (s : Server) (q k : ℕ) {m n : ℕ} (h : m ≤ n) :
    (dataOf s q k n).take m = dataOf s q k m := by
  apply List.ext_getElem
  · rw [List.length_take, length_dataOf, length_dataOf, Nat.min_eq_left h]
  · intro i hi hi'
    rw [List.getElem_take, getElem_dataOf, getElem_dataOf]

lemma drop_dataOf (s : Server) (q k m n : ℕ) :
    (dataOf s q k n).drop m = dataOf s q (k + m) (n - m) := by
  apply List.ext_getElem
  · rw [List.length_drop, length_dataOf, length_dataOf]
  · intro i hi hi'
    rw [List.getElem_drop, getElem_dataOf, getElem_dataOf]
    congr 1
    omega

/-- A copy from a request stores the bytes of the request. -/
lemma copyIn_follows {Q : Unit → Server → Prop}
    (h : Sat (storeBytes a (dataOf s q k n)) s.fs (fun r x => Q r { s with fs := x }) Anyhow) :
    Sat (copyIn q n a k) s Q (fun _ _ => True) := by
  induction n generalizing a k s with
  | zero =>
    have h := sat_pure.mp h
    exact sat_pure.mpr h
  | succ n ih =>
    rw [dataOf_succ] at h
    unfold storeBytes at h
    rw [sat_bind] at h
    unfold copyIn loadData
    simp only [sat_bind, sat_ite, sat_throw, sat_get, sat_pure, sat_onFs]
    refine ⟨fun _ => trivial, fun _ => h.mono (fun _ x hx => ?_) (fun _ _ _ => trivial)⟩
    exact ih (s := { s with fs := x }) hx

/-- The loop of a request is that of `file_write` with the bytes of the request. -/
lemma moveIn_follows (fuel : ℕ) {Q : Except ℤ Unit → Server → Prop} (hn : stop.toNat - pos.toNat ≤ n)
    (h : Sat (writeLoop f stop fuel pos (dataOf s q k n)) s.fs (fun r x => Q r { s with fs := x }) Anyhow) :
    Sat (moveLoop (copyIn q) f stop fuel pos k) s Q (fun _ _ => True) := by
  induction fuel generalizing pos k n s with
  | zero =>
    have h := sat_pure.mp h
    exact sat_pure.mpr h
  | succ fuel ih =>
    unfold moveLoop
    unfold writeLoop at h
    rw [sat_ite] at h ⊢
    constructor
    · intro hlt
      have h := h.1 hlt
      have hlt : pos.toNat < stop.toNat := hlt
      have hchunk := toNat_chunk_le hlt
      have hnext := toNat_add_chunk hlt
      rw [sat_bind] at h ⊢
      rw [sat_onFs]
      refine h.mono ?_ (fun _ _ _ => trivial)
      rintro (r | blk) x hx
      · have hx := sat_pure.mp hx
        exact sat_pure.mpr hx
      · dsimp only at hx ⊢
        rw [sat_bind, take_dataOf s q k (by omega), drop_dataOf] at hx
        rw [sat_bind]
        apply copyIn_follows
        refine hx.mono ?_ (fun _ _ _ => trivial)
        intro _ y hy
        exact ih (s := { s with fs := y }) (by omega) hy
    · intro hge
      have h := sat_pure.mp (h.2 hge)
      exact sat_pure.mpr h

/-- The end of `file_write` of a request. -/
lemma writeTail_follows {Q : Except ℤ Word → Server → Prop}
    (h : Sat (do
      match ← writeLoop f (offset + count) count.toNat offset (dataOf s q 0 count.toNat) with
      | .error r => return .error r
      | .ok _ => return .ok count.toNat : FsM (Except ℤ ℕ)) s.fs
      (fun r x => Q (r.map (fun _ => count)) { s with fs := x }) Anyhow) : Sat (do
      match ← moveLoop (copyIn q) f (offset + count) count.toNat offset 0 with
      | .error r => return .error r
      | .ok _ => return .ok count : ServM (Except ℤ Word)) s Q (fun _ _ => True) := by
  rw [sat_bind] at h ⊢
  apply moveIn_follows (n := count.toNat)
  · rw [BitVec.toNat_add]
    omega
  · refine h.mono ?_ (fun _ _ _ => trivial)
    rintro (r | u) y hy
    · have hy := sat_pure.mp hy
      exact sat_pure.mpr hy
    · have hy := sat_pure.mp hy
      exact sat_pure.mpr hy

/-- `file_write` of a request is `file_write` of its bytes. -/
lemma fileWriteFrom_follows {Q : Except ℤ Word → Server → Prop}
    (h : Sat (fileWrite f (dataOf s q 0 count.toNat) offset) s.fs
      (fun r x => Q (r.map (fun _ => count)) { s with fs := x }) Anyhow) :
    Sat (fileWriteFrom q f count offset) s Q (fun _ _ => True) := by
  unfold fileWrite at h
  dsimp only at h
  rw [length_dataOf, BitVec.ofNat_toNat, BitVec.setWidth_eq, sat_bind] at h
  unfold fileWriteFrom
  rw [sat_bind, sat_onFs]
  refine h.mono ?_ (fun _ _ _ => trivial)
  intro size x hx
  rw [sat_ite] at hx ⊢
  refine ⟨fun hlt => ?_, fun hge => writeTail_follows (s := { s with fs := x }) (hx.2 hge)⟩
  have hx := hx.1 hlt
  rw [sat_bind] at hx ⊢
  rw [sat_onFs]
  exact hx.mono (fun _ y hy => writeTail_follows (s := { s with fs := y }) hy) (fun _ _ _ => trivial)

/-- `file_write` of a request, to a regular file and not in front of it. -/
lemma Wf.fileWriteFrom_calm (h : Wf s.fs.content F) (hf : f ∈ F) (hreg : ¬IsDir s.fs.content f)
    (hoffset : ¬Underruns offset (offset + count))
    (hK : fileSize s.fs.content f < offset + count → offset + count ∈ K) (q : ℕ) :
    Sat (fileWriteFrom q f count offset) s (fun _ t => Calm K F s t) (fun _ _ => True) := by
  have hlength := length_dataOf s q 0 count.toNat
  have hstop : writeStop (dataOf s q 0 count.toNat) offset = offset + count := by
    unfold writeStop
    rw [hlength, BitVec.ofNat_toNat, BitVec.setWidth_eq]
  apply fileWriteFrom_follows
  refine (h.fileWrite_quiet hf hreg (by rw [hlength]; exact count.isLt) (by rw [hstop]; exact hoffset)
    (by rw [hstop]; exact hK)).mono ?_ (fun _ _ _ => trivial)
  exact fun _ x hx => ⟨rfl, rfl, rfl, rfl, hx⟩

/-! ### Requests -/

/-- A request that looks up its file first. -/
lemma lookup_sat {g : ℕ → ℕ → ServM ℤ} {Q : ℤ → Server → Prop} {E : ServeExit → Server → Prop}
    (hq : s.fsreq = some q) (hno : ¬Found s q → Q (-eInval) s)
    (hyes : Found s q → Sat (g q (slotOf s q)) s Q E) : Sat (do
    let q ← reqPage
    match ← openfileLookup (← loadPage q reqFileid) with
    | .error r => return r
    | .ok i => g q i : ServM ℤ) s Q E := by
  unfold reqPage loadPage openfileLookup
  simp only [sat_bind, sat_get, sat_pure, hq]
  by_cases hfound : Found s q
  · rw [if_neg (show ¬(pageref s ((wordAt (s.page q) reqFileid).toNat % maxopen) ≤ 1 ∨
      (s.opentab ((wordAt (s.page q) reqFileid).toNat % maxopen)).fileid ≠ wordAt (s.page q) reqFileid) from hfound),
      sat_pure]
    exact hyes hfound
  · rw [if_pos (show pageref s ((wordAt (s.page q) reqFileid).toNat % maxopen) ≤ 1 ∨
      (s.opentab ((wordAt (s.page q) reqFileid).toNat % maxopen)).fileid ≠ wordAt (s.page q) reqFileid from
        not_not.mp hfound), sat_pure]
    exact sat_pure.mpr (hno hfound)

lemma Calm.advanced (hc : Calm K F s t) (p : ℕ) (m : Word) : Calm K F s (advanced t p m) :=
  ⟨hc.opentab, hc.fdPage, hc.mapped, hc.fresh, hc.quiet⟩

/-- A request to move data. -/
lemma serveData_calm (h : Wf s.fs.content F) (hq : s.fsreq = some q)
    {transfer : ℕ → ℕ → Word → Word → ServM (Except ℤ Word)}
    (htransfer : ∀ p, Found s q → s.fdPage (slotOf s q) = some p →
      Sat (transfer q (s.opentab (slotOf s q)).file (wordAt (s.page q) reqN) (wordAt (s.page p) fdOffset)) s
        (fun _ t => Calm K F s t) (fun _ _ => True)) :
    Sat (serveData transfer) s (fun _ t => Calm K F s t) (fun _ _ => True) := by
  refine serveData_sat hq rfl (fun _ => .refl h) (fun p hfound hp => ?_)
  refine (htransfer p hfound hp).post ?_
  rintro (r | m) t ht
  · exact ht
  · dsimp only
    split
    · exact ht
    · exact ht.advanced p m

/-- Every request but an open. -/
lemma Wf.serveRequest_calm (h : Wf s.fs.content F) (hq : s.fsreq = some q)
    (hfile : Found s q → (s.opentab (slotOf s q)).file ∈ F) (hsound : FileSound s q req)
    (hgrow : GrowSound K s q req) (hreq : req ≠ 1) :
    Sat (serveRequest req) s (fun r t => Calm K F s t ∧ r.2 = none) (fun _ _ => True) := by
  have hwrap : ∀ {m : ServM ℤ}, Sat m s (fun _ t => Calm K F s t) (fun _ _ => True) →
      Sat (do return (← m, none) : ServM (ℤ × Option ℕ)) s (fun r t => Calm K F s t ∧ r.2 = none)
        (fun _ _ => True) := by
    intro m hm
    rw [sat_bind]
    refine hm.post ?_
    exact fun r t ht => sat_pure.mpr ⟨ht, rfl⟩
  unfold serveRequest
  rw [if_neg hreq]
  simp only [sat_ite]
  refine ⟨fun htwo => hwrap ?_, fun _ => ⟨fun _ => hwrap ?_, fun _ => ⟨fun hfour => hwrap ?_, fun _ =>
    ⟨fun _ => hwrap ?_, fun _ => ⟨fun _ => hwrap ?_, fun _ => ⟨fun _ => hwrap ?_, fun _ => ?_⟩⟩⟩⟩⟩⟩
  · refine lookup_sat hq (fun _ => .refl h) (fun hfound => ?_)
    unfold loadPage
    simp only [sat_bind, sat_get, sat_pure, sat_onFs]
    refine (h.fileSetSize_quiet (hfile hfound) ((hsound hfound).1 (.inl htwo)) ((hgrow hfound).1 htwo)).mono ?_
      (fun _ _ _ => trivial)
    exact fun _ x hx => ⟨rfl, rfl, rfl, rfl, hx⟩
  · apply serveData_calm h hq
    intro p hfound _
    exact fileReadTo_keepsCalm (hfile hfound) q _ _ s s (.refl h)
  · apply serveData_calm h hq
    intro p hfound hp
    obtain ⟨hreg, hoffset⟩ := hsound hfound
    exact h.fileWriteFrom_calm (hfile hfound) (hreg (.inr hfour)) (hoffset hfour p hp)
      ((hgrow hfound).2 hfour p hp) q
  · refine lookup_sat hq (fun _ => .refl h) (fun hfound => ?_)
    have hstat : KeepsCalm K F (do
        copyName q 4096 (s.opentab (slotOf s q)).file 0
        storePage q retSize (← onFs (loadWord (fSize (s.opentab (slotOf s q)).file)))
        storePage q retIsdir
          (if (← onFs (loadWord (fType (s.opentab (slotOf s q)).file))) = ftypeDir then 1 else 0)
        return 0 : ServM ℤ) := by
      apply bind_keepsCalm (copyName_keepsCalm _ _ _ _)
      intro _
      apply bind_keepsCalm (onFs_keepsCalm ((loadWord_looks _).keepsQuiet K F))
      intro size
      apply bind_keepsCalm (storePage_keepsCalm _ _ _)
      intro _
      apply bind_keepsCalm (onFs_keepsCalm ((loadWord_looks _).keepsQuiet K F))
      intro type
      exact bind_keepsCalm (storePage_keepsCalm _ _ _) (fun _ => pure_keepsCalm _)
    rw [sat_bind, sat_get]
    exact hstat s s (.refl h)
  · refine lookup_sat hq (fun _ => .refl h) (fun hfound => ?_)
    simp only [sat_bind, sat_get, sat_onFs]
    refine (h.fileFlush_looks (hfile hfound)).mono ?_ (fun _ _ _ => trivial)
    intro _ x hx
    refine sat_pure.mpr ⟨rfl, rfl, rfl, rfl, ?_⟩
    change Quiet K F s.fs.content x.content
    rw [hx]
    exact .refl h
  · unfold serveSync
    rw [sat_bind, sat_onFs]
    refine (fsSync_looks s.fs.content s.fs rfl).mono ?_ (fun _ _ _ => trivial)
    intro _ x hx
    refine sat_pure.mpr ⟨rfl, rfl, rfl, rfl, ?_⟩
    change Quiet K F s.fs.content x.content
    rw [hx]
    exact .refl h
  · exact sat_pure.mpr ⟨.refl h, rfl⟩

end SistemasOperativos.Fs
