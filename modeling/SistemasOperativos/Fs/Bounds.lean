import SistemasOperativos.Fs.Serve
import SistemasOperativos.Fs.Transfer

/-!
# The buffers of reads and writes

`serve_read` and `serve_write`: what they change, and the copies and the loops that stay in the buffer of
the request page.
-/

namespace SistemasOperativos.Fs

open Library Kern

/-- The requests that move data. -/
inductive DataCall
  | read
  | write
  deriving DecidableEq

namespace DataCall

def run : DataCall → ServM ℤ
  | read => serveRead
  | write => serveWrite

/-- The size of the buffer. -/
def bound : DataCall → ℕ
  | read => 4096
  | write => reqBufSize

def transfer : DataCall → ℕ → ℕ → Word → Word → ServM (Except ℤ Word)
  | read => fileReadTo
  | write => fileWriteFrom

def move : DataCall → ℕ → ℕ → ℕ → ℕ → ServM Unit
  | read => copyOut
  | write => copyIn

end DataCall

/-- Only pages that satisfy `P` have changed, and the file system. -/
structure Moved (P : ℕ → Prop) (s t : Server) : Prop where
  rest : t = { s with fs := t.fs, page := t.page }
  page : ∀ p, ¬P p → t.page p = s.page p

/-- The pages that a call writes. -/
def DataCall.Writes (call : DataCall) (q p : ℕ) : Prop := call = .read ∧ p = q

variable {P : ℕ → Prop} {s t u : Server} {call : DataCall} {bound f q p i j k m n a b : ℕ}
  {offset stop pos w : Word}

/-! ### Frames -/

lemma Moved.refl (P : ℕ → Prop) (s : Server) : Moved P s s := ⟨rfl, fun _ _ => rfl⟩

lemma Moved.trans (h : Moved P s t) (h' : Moved P t u) : Moved P s u := by
  constructor
  · rw [h'.rest, h.rest]
  · exact fun p hp => (h'.page p hp).trans (h.page p hp)

lemma moved_fs (P : ℕ → Prop) (s : Server) (x : Fs) : Moved P s { s with fs := x } :=
  ⟨rfl, fun _ _ => rfl⟩

lemma sat_onFs {α : Type} {m : FsM α} {Q : α → Server → Prop} {E : ServeExit → Server → Prop} :
    Sat (onFs m) s Q E ↔
      Sat m s.fs (fun x t => Q x { s with fs := t }) (fun e t => E (.fs e) { s with fs := t }) := by
  unfold Sat onFs
  cases m s.fs <;> rfl

/-- Whatever the file system does. -/
lemma onFs_moved {α : Type} (m : FsM α) (P : ℕ → Prop) (s : Server) :
    Sat (onFs m) s (fun x t => Moved P s t ∧ m s.fs = .ok x t.fs)
      (fun e _ => e ≠ .overrun) := by
  rw [sat_onFs]
  refine (sat_self m s.fs).mono ?_ ?_
  · exact fun x t hx => ⟨moved_fs P s t, hx⟩
  · exact fun _ _ _ => ServeExit.noConfusion

/-! ### Copies -/

lemma storeReply_moved (q k : ℕ) (x : Byte) (s : Server) :
    Sat (storeReply q k x) s (fun _ t => Moved (fun p => p = q) s t ∧ t.fs = s.fs)
      (fun e _ => e = .overrun → 4096 ≤ k) := by
  unfold storeReply
  simp only [sat_bind, sat_ite, sat_throw, sat_get, sat_modify]
  refine ⟨fun hle _ => hle, fun _ => ⟨fun _ hover => ?_, fun _ => ⟨⟨rfl, ?_⟩, trivial⟩⟩⟩
  · exact ServeExit.noConfusion hover
  · exact fun p hp => Function.update_of_ne hp _ _

lemma copyOut_moved (h : k + n ≤ 4096) (q a : ℕ) (s : Server) :
    Sat (copyOut q n a k) s (fun _ t => Moved (fun p => p = q) s t) (fun e _ => e ≠ .overrun) := by
  induction n generalizing a k s with
  | zero =>
    unfold copyOut
    exact sat_pure.mpr (.refl _ s)
  | succ n ih =>
    unfold copyOut
    rw [sat_bind]
    refine (onFs_moved (loadByte a) (fun p => p = q) s).post ?_
    rintro x t ⟨ht, -⟩
    rw [sat_bind]
    refine (storeReply_moved q k x t).mono ?_ ?_
    · rintro - u ⟨hu, -⟩
      refine (ih (k := k + 1) (by omega) (a + 1) u).post ?_
      exact fun _ v hv => (ht.trans hu).trans hv
    · intro e _ he hover
      have hle := he hover
      omega

lemma copyIn_moved (h : k + n ≤ reqBufSize) (q a : ℕ) (s : Server) :
    Sat (copyIn q n a k) s (fun _ t => Moved (fun _ => False) s t) (fun e _ => e ≠ .overrun) := by
  induction n generalizing a k s with
  | zero =>
    unfold copyIn
    exact sat_pure.mpr (.refl _ s)
  | succ n ih =>
    unfold copyIn loadData
    simp only [sat_bind, sat_ite, sat_throw, sat_get, sat_pure]
    refine ⟨fun hle => by omega, fun _ => ?_⟩
    refine (onFs_moved (storeByte a (s.page q (reqBuf + k))) (fun _ => False) s).post ?_
    rintro - t ⟨ht, -⟩
    refine (ih (k := k + 1) (by omega) (a + 1) t).post ?_
    exact fun _ u hu => ht.trans hu

lemma Moved.mono {P' : ℕ → Prop} (h : Moved P s t) (hP : ∀ p, P p → P' p) : Moved P' s t :=
  ⟨h.rest, fun p hp => h.page p (fun hin => hp (hP p hin))⟩

/-- A copy that fits into the buffer. -/
lemma move_moved (h : k + n ≤ call.bound) (q a : ℕ) (s : Server) :
    Sat (call.move q n a k) s (fun _ t => Moved (call.Writes q) s t) (fun e _ => e ≠ .overrun) := by
  cases call with
  | read => exact (copyOut_moved h q a s).post (fun _ t ht => ht.mono (fun _ hp => ⟨rfl, hp⟩))
  | write => exact (copyIn_moved h q a s).post (fun _ t ht => ht.mono (fun _ hp => hp.elim))

/-! ### The loop -/

lemma fileBlockWalk_error (f n : ℕ) (alloc : Bool) (s : Fs) :
    Sat (fileBlockWalk f n alloc) s (fun r _ => ∀ e, r = .error e → e < 0) (fun _ _ => True) := by
  have hslot : ∀ t : Fs, Sat (indirectSlot f n) t (fun r _ => ∀ e, r = .error e → e < 0)
      (fun _ _ => True) := by
    intro t
    unfold indirectSlot
    simp only [sat_bind, sat_pure]
    refine (sat_self (loadWord (fIndirect f)) t).mono (fun w u _ => ?_) (fun _ _ _ => trivial)
    refine (sat_self (diskaddr w.toNat) u).mono (fun a v _ e he => ?_) (fun _ _ _ => trivial)
    cases he
  unfold fileBlockWalk
  simp only [sat_bind, sat_ite, sat_pure]
  refine ⟨fun _ e he => ?_, fun _ => ⟨fun _ e he => ?_, fun _ => ?_⟩⟩
  · obtain rfl := Except.error.inj he
    decide
  · cases he
  refine (sat_self (loadWord (fIndirect f)) s).mono (fun w t _ => ?_) (fun _ _ _ => trivial)
  refine ⟨fun _ => ⟨fun _ e he => ?_, fun _ => ?_⟩, fun _ => hslot t⟩
  · obtain rfl := Except.error.inj he
    decide
  · unfold allocIndirect
    simp only [sat_bind]
    refine (sat_self allocBlock t).mono (fun r u _ => ?_) (fun _ _ _ => trivial)
    cases r with
    | error r =>
      refine sat_pure.mpr (sat_pure.mpr fun e he => ?_)
      obtain rfl := Except.error.inj he
      decide
    | ok b =>
      simp only [sat_bind, sat_pure]
      refine (sat_self (storeWord (fIndirect f) (BitVec.ofNat 32 b)) u).mono (fun _ v _ => ?_)
        (fun _ _ _ => trivial)
      refine (sat_self (diskaddr b) v).mono (fun a x _ => ?_) (fun _ _ _ => trivial)
      refine (sat_self (pageAllocAt b) x).mono (fun _ y _ => ?_) (fun _ _ _ => trivial)
      refine (sat_self (clearBlock b) y).mono (fun _ z _ => ?_) (fun _ _ _ => trivial)
      refine (sat_self (flushBlock a) z).mono (fun _ x _ => ?_) (fun _ _ _ => trivial)
      exact hslot x

/-- An error of `file_get_block` is negative. -/
lemma fileGetBlock_error (f n : ℕ) (s : Fs) :
    Sat (fileGetBlock f n) s (fun r _ => ∀ e, r = .error e → e < 0) (fun _ _ => True) := by
  unfold fileGetBlock
  rw [sat_bind]
  refine (fileBlockWalk_error f n true s).post (fun r t hr => ?_)
  cases r with
  | error r =>
    refine sat_pure.mpr fun e he => ?_
    obtain rfl := Except.error.inj he
    exact hr r rfl
  | ok a =>
    simp only [sat_bind, sat_pure]
    refine (sat_self (fillSlot a) t).mono (fun _ u _ => ?_) (fun _ _ _ => trivial)
    refine (sat_self (loadWord a) u).mono (fun w v _ => ?_) (fun _ _ _ => trivial)
    refine (sat_self (diskaddr w.toNat) v).mono (fun b x _ => ?_) (fun _ _ _ => trivial)
    refine (sat_self (flushBlock a) x).mono (fun _ y _ e he => ?_) (fun _ _ _ => trivial)
    cases he

lemma toNat_chunk_le (h : pos.toNat < stop.toNat) : (chunk pos stop).toNat ≤ stop.toNat - pos.toNat := by
  have hleft : (stop - pos).toNat = stop.toNat - pos.toNat :=
    BitVec.toNat_sub_of_le (Nat.le_of_lt h)
  unfold chunk
  rw [toNat_minWord, hleft]
  exact Nat.min_le_right _ _

lemma toNat_add_chunk (h : pos.toNat < stop.toNat) :
    (pos + chunk pos stop).toNat = pos.toNat + (chunk pos stop).toNat := by
  have hle := toNat_chunk_le h
  have hlt := stop.isLt
  rw [BitVec.toNat_add]
  omega

/-- A loop with no more to move than fits into the buffer, on any disk. -/
lemma moveLoop_moved (fuel : ℕ) (h : k + (stop.toNat - pos.toNat) ≤ call.bound) (q f : ℕ) (s : Server) :
    Sat (moveLoop (call.move q) f stop fuel pos k) s
      (fun r t => Moved (call.Writes q) s t ∧ ∀ e, r = .error e → e < 0) (fun e _ => e ≠ .overrun) := by
  induction fuel generalizing pos k s with
  | zero =>
    unfold moveLoop
    refine sat_pure.mpr ⟨.refl _ s, fun e he => ?_⟩
    cases he
  | succ fuel ih =>
    unfold moveLoop
    rw [sat_ite]
    constructor
    · intro hlt
      have hlt : pos.toNat < stop.toNat := hlt
      have hle := toNat_chunk_le hlt
      have hnext := toNat_add_chunk hlt
      rw [sat_bind, sat_onFs]
      refine (fileGetBlock_error f _ s.fs).mono (fun r x hr => ?_) (fun _ _ _ => ServeExit.noConfusion)
      cases r with
      | error r =>
        refine sat_pure.mpr ⟨moved_fs _ s x, fun e he => ?_⟩
        obtain rfl := Except.error.inj he
        exact hr r rfl
      | ok blk =>
        dsimp only
        rw [sat_bind]
        refine (move_moved (n := (chunk pos stop).toNat) (by omega) q _ _).post (fun _ t ht => ?_)
        refine (ih (k := k + (chunk pos stop).toNat) (by omega) t).post ?_
        rintro r u ⟨hu, hr⟩
        exact ⟨((moved_fs _ s x).trans ht).trans hu, hr⟩
    · intro _
      refine sat_pure.mpr ⟨.refl _ s, fun e he => ?_⟩
      cases he

/-! ### The requests -/

/-- The slot that the file id of a request stands for. -/
def slotOf (s : Server) (q : ℕ) : ℕ := (wordAt (s.page q) reqFileid).toNat % maxopen

/-- `openfile_lookup` finds the open file of the request. -/
def Found (s : Server) (q : ℕ) : Prop :=
  ¬(pageref s (slotOf s q) ≤ 1 ∨ (s.opentab (slotOf s q)).fileid ≠ wordAt (s.page q) reqFileid)

/-- The offset in an Fd page is advanced. -/
def advanced (t : Server) (p : ℕ) (m : Word) : Server :=
  { t with
    page := Function.update t.page p
      (putWord (t.page p) fdOffset (wordAt (t.page p) fdOffset + m)) }

lemma serveData_sat {n : Word} (hq : s.fsreq = some q)
    {transfer : ℕ → ℕ → Word → Word → ServM (Except ℤ Word)} {Q : ℤ → Server → Prop}
    {E : ServeExit → Server → Prop} (hn : wordAt (s.page q) reqN = n)
    (hno : ¬Found s q → Q (-eInval) s)
    (hyes : ∀ p, Found s q → s.fdPage (slotOf s q) = some p →
      Sat (transfer q (s.opentab (slotOf s q)).file n (wordAt (s.page p) fdOffset)) s
        (fun r t => match r with
          | .error r => Q r t
          | .ok m => if m.toInt < 0 then Q m.toInt t else Q m.toInt (advanced t p m)) E) :
    Sat (serveData transfer) s Q E := by
  unfold serveData reqPage loadPage openfileLookup
  simp only [sat_bind, sat_get, sat_pure, hq]
  by_cases hfound : Found s q
  · have hslot : ¬(pageref s ((wordAt (s.page q) reqFileid).toNat % maxopen) ≤ 1 ∨
      (s.opentab ((wordAt (s.page q) reqFileid).toNat % maxopen)).fileid ≠ wordAt (s.page q) reqFileid) :=
      hfound
    obtain ⟨p, hp⟩ : ∃ p, s.fdPage ((wordAt (s.page q) reqFileid).toNat % maxopen) = some p := by
      rw [not_or] at hslot
      unfold pageref at hslot
      cases hpage : s.fdPage ((wordAt (s.page q) reqFileid).toNat % maxopen) with
      | some p => exact ⟨p, rfl⟩
      | none =>
        rw [hpage] at hslot
        exact absurd (Nat.zero_le 1) hslot.1
    rw [if_neg hslot, sat_pure]
    unfold fdOf
    simp only [sat_bind, sat_get, sat_pure, hp, hn]
    refine (hyes p hfound hp).post ?_
    rintro (r | m) t hr
    · exact sat_pure.mpr hr
    · dsimp only at hr ⊢
      rw [sat_ite]
      constructor
      · intro hneg
        rw [if_pos hneg] at hr
        exact sat_pure.mpr hr
      · intro hpos
        rw [if_neg hpos] at hr
        unfold storePage
        simp only [sat_bind, sat_get, sat_pure, sat_modify]
        exact hr
  · have hslot : pageref s ((wordAt (s.page q) reqFileid).toNat % maxopen) ≤ 1 ∨
      (s.opentab ((wordAt (s.page q) reqFileid).toNat % maxopen)).fileid ≠ wordAt (s.page q) reqFileid :=
      not_not.mp hfound
    rw [if_pos hslot, sat_pure]
    exact sat_pure.mpr (hno hfound)

lemma DataCall.run_eq (call : DataCall) : call.run = serveData call.transfer := by
  cases call with
  | read => rfl
  | write => rfl

/-- The Fd page, after a copy to the reply. -/
lemma page_of_moved (hp : call = .read → p ≠ q) (hm : Moved (call.Writes q) s t) : t.page p = s.page p :=
  hm.page p (fun hw => hp hw.1 hw.2)

lemma moved_advanced (hm : Moved (call.Writes q) s t) {m : Word} (hp : s.fdPage i = some p) :
    Moved (fun p => call.Writes q p ∨ s.fdPage i = some p) s (advanced t p m) := by
  constructor
  · unfold advanced
    rw [hm.rest]
  · intro p' hp'
    rw [not_or] at hp'
    have hne : p' ≠ p := by
      rintro rfl
      exact hp'.2 hp
    exact (Function.update_of_ne hne _ _).trans (hm.page p' hp'.1)

end SistemasOperativos.Fs
