import SistemasOperativos.Fs.Serve
import SistemasOperativos.Library.Runs
import Mathlib.Data.List.Count

/-!
# The table of open files

Clients map Fd pages, hand them on and drop them, and the server infers from the number of mappings
whether a slot of its table is in use.
-/

namespace SistemasOperativos.Fs

open Library Kern

/-- A mapping of an Fd page in a client, with the file id that the page was returned with. -/
abbrev Handle := Word × ℕ

/-- The server and the clients' mappings of Fd pages. -/
structure World where
  server : Server
  handles : List Handle
  /-- the result of a request that has not been sent yet -/
  reply : Option (ℤ × Option ℕ)

/-- The number of mappings of a page in clients. -/
def holders (handles : List Handle) (p : ℕ) : ℕ := handles.countP (fun h => h.2 = p)

inductive WorldEvent
  /-- a request with a page of the client's own -/
  | request (data : ℕ → Byte) (writable : Bool)
  /-- a request with an Fd page -/
  | requestFd (h : Handle) (writable : Bool)
  | serve (req : Word)
  /-- the reply, which the client takes with the page or not -/
  | reply (taken : Bool)
  /-- one mapping more, by `fork`, `dup`, `spawn` or IPC -/
  | share (h : Handle)
  | drop (h : Handle)
  | write (h : Handle) (a : ℕ) (x : Byte)

/-- `sys_page_unmap` of `fsreq`. -/
def Server.release (s : Server) : Server :=
  match s.fsreq with
  | some q => { s with fsreq := none, mapped := Function.update s.mapped q (s.mapped q - 1) }
  | none => s

/-- One mapping of the page `p` more. -/
def Server.map (s : Server) (p : ℕ) : Server :=
  { s with mapped := Function.update s.mapped p (s.mapped p + 1) }

def Server.unmap (s : Server) (p : ℕ) : Server :=
  { s with mapped := Function.update s.mapped p (s.mapped p - 1) }

/-- The server with a request page of the client's own, which is mapped by both. -/
def Server.receive (s : Server) (data : ℕ → Byte) (writable : Bool) : Server :=
  { s with
    fsreq := some s.fresh
    writable := writable
    page := Function.update s.page s.fresh data
    mapped := Function.update s.mapped s.fresh 2
    fresh := s.fresh + 1 }

/-- A step of the server or of a client. A request that stops the server is no step. -/
inductive WorldStep (w : World) : WorldEvent → World → Prop
  | request (data : ℕ → Byte) (writable : Bool) (hidle : w.server.fsreq = none) (hreply : w.reply = none) :
      WorldStep w (.request data writable) { w with server := w.server.receive data writable }
  | requestFd {h : Handle} (writable : Bool) (hidle : w.server.fsreq = none) (hreply : w.reply = none)
      (hh : h ∈ w.handles) :
      WorldStep w (.requestFd h writable)
        { w with server := { w.server.map h.2 with fsreq := some h.2, writable := writable } }
  | serve {req : Word} {r : ℤ × Option ℕ} {t : Server} (hreply : w.reply = none)
      (hpage : w.server.fsreq ≠ none) (hrun : serveRequest req w.server = .ok r t) :
      WorldStep w (.serve req) { w with server := t, reply := some r }
  | taken {r : ℤ} {p : ℕ} (hreply : w.reply = some (r, some p)) :
      WorldStep w (.reply true)
        { server := (w.server.map p).release
          handles := (wordAt (w.server.page p) fdFileId, p) :: w.handles
          reply := none }
  | refused {r : ℤ × Option ℕ} (hreply : w.reply = some r) :
      WorldStep w (.reply false) { w with server := w.server.release, reply := none }
  | share {h : Handle} (hh : h ∈ w.handles) :
      WorldStep w (.share h) { w with server := w.server.map h.2, handles := h :: w.handles }
  | drop {h : Handle} (hh : h ∈ w.handles) :
      WorldStep w (.drop h) { w with server := w.server.unmap h.2, handles := w.handles.erase h }
  | write {h : Handle} (a : ℕ) (x : Byte) (hh : h ∈ w.handles) :
      WorldStep w (.write h a x)
        { w with
          server := { w.server with
            page := Function.update w.server.page h.2 (Function.update (w.server.page h.2) a x) } }

/-- `serve_init`: nothing is open. -/
def WorldStart (w : World) : Prop :=
  (∀ i < maxopen, (w.server.opentab i).fileid = BitVec.ofNat 32 i) ∧ (∀ i, w.server.fdPage i = none) ∧
    w.server.fsreq = none ∧ w.handles = [] ∧ w.reply = none

/-- No client has the Fd page of a slot. -/
def FreeSlot (w : World) (i : ℕ) : Prop := ∀ p, w.server.fdPage i = some p → holders w.handles p = 0

/-- The condition on a step: a request page is no Fd page, an open finds free slots that have been used
less than `2 ^ 21` times, and a page is mapped less than `2 ^ 16` times. -/
def WorldGuard (w : World) : WorldEvent → Prop
  | .requestFd _ _ => False
  | .serve req => req = 1 →
      ∀ i < maxopen, FreeSlot w i → (w.server.opentab i).fileid.toNat + maxopen < 2 ^ 31
  | .share h => w.server.mapped h.2 + 1 < 65536
  | _ => True

/-- `openfile_lookup` finds an open file. -/
def LooksUp (s : Server) (fileid : Word) : Prop :=
  ∃ i t, openfileLookup fileid s = .ok (.ok i) t

/-- A file id stands for an open file while a client has its page, and the slot that an open takes is
held by no client. -/
structure TableOk (w : World) : Prop where
  lookup : ∀ fileid, LooksUp w.server fileid ↔ ∃ p, (fileid, p) ∈ w.handles
  taken : ∀ i fileid t, openfileAlloc w.server = .ok (.ok (i, fileid)) t → i < maxopen ∧ FreeSlot w i

/-- The table refuses no open while there is a free slot and memory. -/
def NeverFull (w : World) : Prop :=
  (∃ i < maxopen, FreeSlot w i) → w.server.fs.frames ≠ 0 →
    ∃ i fileid t, openfileAlloc w.server = .ok (.ok (i, fileid)) t ∧ 0 ≤ fileid

/-- The invariant of the table. -/
structure TableIn (w : World) : Prop where
  slots : ∀ i p, w.server.fdPage i = some p → i < maxopen ∧ p < w.server.fresh
  inj : ∀ i j p, w.server.fdPage i = some p → w.server.fdPage j = some p → i = j
  mapped : ∀ i p, w.server.fdPage i = some p →
    w.server.mapped p = 1 + holders w.handles p ∧ w.server.mapped p < 65536
  handles : ∀ h ∈ w.handles, ∃ i, w.server.fdPage i = some h.2 ∧ (w.server.opentab i).fileid = h.1
  ids : ∀ i < maxopen, (w.server.opentab i).fileid.toNat % maxopen = i
  request : ∀ q, w.server.fsreq = some q → q < w.server.fresh ∧ ∀ i, w.server.fdPage i ≠ some q
  reply : ∀ r p, w.reply = some (r, some p) → ∃ i, w.server.fdPage i = some p ∧
    wordAt (w.server.page p) fdFileId = (w.server.opentab i).fileid ∧ holders w.handles p = 0

variable {w w' : World} {s t : Server} {h : Handle} {i j k n p q : ℕ} {fileid : Word}

/-! ### Counting -/

lemma holders_cons (h : Handle) (l : List Handle) (p : ℕ) :
    holders (h :: l) p = holders l p + if h.2 = p then 1 else 0 := by
  unfold holders
  rw [List.countP_cons]
  simp only [decide_eq_true_eq]

lemma holders_erase (hh : h ∈ w.handles) (p : ℕ) :
    holders (w.handles.erase h) p + (if h.2 = p then 1 else 0) = holders w.handles p := by
  have hperm := List.perm_cons_erase hh
  have hcount : holders (h :: w.handles.erase h) p = holders w.handles p :=
    (hperm.countP_eq _).symm
  rw [← hcount, holders_cons]

lemma holders_pos : 0 < holders w.handles p ↔ ∃ id, (id, p) ∈ w.handles := by
  unfold holders
  rw [List.countP_pos_iff]
  constructor
  · rintro ⟨⟨id, q⟩, hmem, hq⟩
    obtain rfl := of_decide_eq_true hq
    exact ⟨id, hmem⟩
  · rintro ⟨id, hmem⟩
    exact ⟨(id, p), hmem, decide_eq_true rfl⟩

/-! ### Lookups -/

lemma looksUp_eq : LooksUp s fileid ↔ ¬(pageref s (fileid.toNat % maxopen) ≤ 1 ∨
    (s.opentab (fileid.toNat % maxopen)).fileid ≠ fileid) := by
  have hsat : Sat (openfileLookup fileid) s
      (fun r _ => ((pageref s (fileid.toNat % maxopen) ≤ 1 ∨
          (s.opentab (fileid.toNat % maxopen)).fileid ≠ fileid) ∧ r = .error (-eInval)) ∨
        (¬(pageref s (fileid.toNat % maxopen) ≤ 1 ∨
          (s.opentab (fileid.toNat % maxopen)).fileid ≠ fileid) ∧ ∃ i, r = .ok i))
      (fun _ _ => False) := by
    unfold openfileLookup
    simp only [sat_bind, sat_get, sat_ite, sat_pure]
    exact ⟨fun hno => .inl ⟨hno, trivial⟩, fun hyes => .inr ⟨hyes, _, rfl⟩⟩
  constructor
  · rintro ⟨i, t, hrun⟩ hno
    rcases hsat.of_ok hrun with ⟨-, herror⟩ | ⟨hyes, -⟩
    · cases herror
    · exact hyes hno
  · intro hyes
    obtain ⟨r, t, hrun, ⟨hno, -⟩ | ⟨-, i, rfl⟩⟩ := hsat.exists_ok
    · exact absurd hno hyes
    · exact ⟨i, t, hrun⟩

namespace TableIn

lemma pageref_eq (hw : TableIn w) (hp : w.server.fdPage i = some p) :
    pageref w.server i = 1 + holders w.handles p := by
  obtain ⟨hmapped, hlt⟩ := hw.mapped i p hp
  unfold pageref
  rw [hp]
  dsimp only
  rw [Nat.mod_eq_of_lt hlt, hmapped]

lemma pageref_le (hw : TableIn w) : pageref w.server i ≤ 1 ↔ FreeSlot w i := by
  cases hp : w.server.fdPage i with
  | none =>
    constructor
    · intro _ p hp'
      rw [hp] at hp'
      cases hp'
    · intro _
      unfold pageref
      rw [hp]
      exact Nat.zero_le 1
  | some p =>
    rw [hw.pageref_eq hp]
    constructor
    · intro hle p' hp'
      obtain rfl : p' = p := Option.some.inj (hp'.symm.trans hp)
      omega
    · intro hfree
      have hzero := hfree p hp
      omega

lemma looksUp_iff (hw : TableIn w) : LooksUp w.server fileid ↔ ∃ p, (fileid, p) ∈ w.handles := by
  have hlt : fileid.toNat % maxopen < maxopen := Nat.mod_lt _ (by decide)
  rw [looksUp_eq, not_or, not_not, hw.pageref_le]
  constructor
  · rintro ⟨hheld, hid⟩
    unfold FreeSlot at hheld
    push Not at hheld
    obtain ⟨p, hp, hpos⟩ := hheld
    obtain ⟨id, hmem⟩ := holders_pos.mp (Nat.pos_of_ne_zero hpos)
    obtain ⟨j, hj, hfile⟩ := hw.handles _ hmem
    obtain rfl := hw.inj _ _ _ hp hj
    have hsame : id = fileid := hfile.symm.trans hid
    rw [hsame] at hmem
    exact ⟨p, hmem⟩
  · rintro ⟨p, hmem⟩
    obtain ⟨i, hi, hfile⟩ := hw.handles _ hmem
    have hfile : (w.server.opentab i).fileid = fileid := hfile
    have hslot : fileid.toNat % maxopen = i := by
      rw [← hfile]
      exact hw.ids i (hw.slots i p hi).1
    rw [hslot]
    refine ⟨fun hfree => ?_, hfile⟩
    have hpos := holders_pos.mpr ⟨fileid, hmem⟩
    rw [hfree p hi] at hpos
    exact Nat.lt_irrefl 0 hpos

end TableIn

/-! ### Requests that leave the table alone -/

/-- The table and the mappings are the same. -/
structure SameTable (s t : Server) : Prop where
  fileids : ∀ i, (t.opentab i).fileid = (s.opentab i).fileid
  fdPage : t.fdPage = s.fdPage
  fsreq : t.fsreq = s.fsreq
  mapped : t.mapped = s.mapped
  fresh : t.fresh = s.fresh

/-- The request leaves the table alone. -/
abbrev Tabled {α : Type} (m : ServM α) : Prop := ∀ s₀, Keeps (SameTable s₀) (fun _ _ => True) m

section Tabled

variable {α β : Type}

lemma SameTable.refl (s : Server) : SameTable s s := ⟨fun _ => rfl, rfl, rfl, rfl, rfl⟩

lemma pure_tabled (x : α) : Tabled (pure x : ServM α) := fun _ => .pure x

lemma bind_tabled {f : ServM α} {g : α → ServM β} (hf : Tabled f) (hg : ∀ x, Tabled (g x)) :
    Tabled (f >>= g) := fun s₀ => (hf s₀).bind (fun x => hg x s₀)

lemma get_tabled : Tabled (get : ServM Server) := fun _ _ hs => sat_get.mpr hs

lemma throw_tabled (e : ServeExit) : Tabled (throw e : ServM α) := fun _ _ _ => sat_throw.mpr trivial

lemma ite_tabled {c : Prop} [Decidable c] {f g : ServM α} (hf : Tabled f) (hg : Tabled g) :
    Tabled (if c then f else g) := by
  split
  · exact hf
  · exact hg

lemma onFs_tabled (m : FsM α) : Tabled (onFs m) := by
  intro s₀ s hs
  unfold Sat onFs
  cases m s.fs with
  | ok x t => exact ⟨hs.fileids, hs.fdPage, hs.fsreq, hs.mapped, hs.fresh⟩
  | error e t => trivial

lemma loadPage_tabled (p a : ℕ) : Tabled (loadPage p a) :=
  bind_tabled get_tabled (fun _ => pure_tabled _)

lemma storePage_tabled (p a : ℕ) (w : Word) : Tabled (storePage p a w) :=
  fun _ _ hs => sat_modify.mpr ⟨hs.fileids, hs.fdPage, hs.fsreq, hs.mapped, hs.fresh⟩

lemma reqPage_tabled : Tabled reqPage := by
  apply bind_tabled get_tabled
  intro s
  cases s.fsreq with
  | some q => exact pure_tabled q
  | none => exact throw_tabled _

lemma fdOf_tabled (i : ℕ) : Tabled (fdOf i) := by
  apply bind_tabled get_tabled
  intro s
  cases s.fdPage i with
  | some p => exact pure_tabled p
  | none => exact throw_tabled _

lemma openfileLookup_tabled (fileid : Word) : Tabled (openfileLookup fileid) :=
  bind_tabled get_tabled (fun _ => ite_tabled (pure_tabled _) (pure_tabled _))

lemma storeReply_tabled (q k : ℕ) (x : Byte) : Tabled (storeReply q k x) := by
  intro s₀ s hs
  unfold storeReply
  simp only [sat_bind, sat_ite, sat_throw, sat_get, sat_modify]
  exact ⟨fun _ => trivial, fun _ => ⟨fun _ => trivial,
    fun _ => ⟨hs.fileids, hs.fdPage, hs.fsreq, hs.mapped, hs.fresh⟩⟩⟩

lemma copyOut_tabled (q n a k : ℕ) : Tabled (copyOut q n a k) := by
  induction n generalizing a k with
  | zero => exact pure_tabled _
  | succ n ih =>
    unfold copyOut
    exact bind_tabled (onFs_tabled _) (fun _ => bind_tabled (storeReply_tabled _ _ _) (fun _ => ih _ _))

lemma loadData_tabled (q k : ℕ) : Tabled (loadData q k) := by
  intro s₀ s hs
  unfold loadData
  simp only [sat_bind, sat_ite, sat_throw, sat_get, sat_pure]
  exact ⟨fun _ => trivial, fun _ => hs⟩

lemma copyIn_tabled (q n a k : ℕ) : Tabled (copyIn q n a k) := by
  induction n generalizing a k with
  | zero => exact pure_tabled _
  | succ n ih =>
    unfold copyIn
    exact bind_tabled (loadData_tabled _ _) (fun _ => bind_tabled (onFs_tabled _) (fun _ => ih _ _))

lemma moveLoop_tabled {move : ℕ → ℕ → ℕ → ServM Unit} (hmove : ∀ n a k, Tabled (move n a k)) (f : ℕ)
    (stop : Word) (fuel : ℕ) (pos : Word) (k : ℕ) : Tabled (moveLoop move f stop fuel pos k) := by
  induction fuel generalizing pos k with
  | zero => exact pure_tabled _
  | succ fuel ih =>
    unfold moveLoop
    apply ite_tabled
    · apply bind_tabled (onFs_tabled _)
      rintro (r | blk)
      · exact pure_tabled _
      · exact bind_tabled (hmove _ _ _) (fun _ => ih _ _)
    · exact pure_tabled _

lemma fileReadTo_tabled (q f : ℕ) (count offset : Word) : Tabled (fileReadTo q f count offset) := by
  unfold fileReadTo
  apply bind_tabled (onFs_tabled _)
  intro size
  apply ite_tabled (pure_tabled _)
  apply bind_tabled (moveLoop_tabled (copyOut_tabled q) _ _ _ _ _)
  rintro (r | -)
  · exact pure_tabled _
  · exact pure_tabled _

lemma writeTail_tabled (q f : ℕ) (stop : Word) (fuel : ℕ) (count offset : Word) : Tabled (do
    match ← moveLoop (copyIn q) f stop fuel offset 0 with
    | .error r => return .error r
    | .ok _ => return .ok count : ServM (Except ℤ Word)) := by
  apply bind_tabled (moveLoop_tabled (copyIn_tabled q) _ _ _ _ _)
  rintro (r | -)
  · exact pure_tabled _
  · exact pure_tabled _

lemma fileWriteFrom_tabled (q f : ℕ) (count offset : Word) : Tabled (fileWriteFrom q f count offset) := by
  unfold fileWriteFrom
  apply bind_tabled (onFs_tabled _)
  intro size
  apply ite_tabled
  · exact bind_tabled (onFs_tabled _) (fun _ => writeTail_tabled _ _ _ _ _ _)
  · exact writeTail_tabled _ _ _ _ _ _

/-- A request that looks up its file first. -/
lemma lookup_tabled {g : ℕ → ℕ → ServM ℤ} (hg : ∀ q i, Tabled (g q i)) : Tabled (do
    let q ← reqPage
    match ← openfileLookup (← loadPage q reqFileid) with
    | .error r => return r
    | .ok i => g q i : ServM ℤ) := by
  apply bind_tabled reqPage_tabled
  intro q
  apply bind_tabled (loadPage_tabled _ _)
  intro fileid
  apply bind_tabled (openfileLookup_tabled _)
  rintro (r | i)
  · exact pure_tabled _
  · exact hg q i

lemma serveData_tabled {transfer : ℕ → ℕ → Word → Word → ServM (Except ℤ Word)}
    (htransfer : ∀ q f n offset, Tabled (transfer q f n offset)) : Tabled (serveData transfer) := by
  apply lookup_tabled
  intro q i
  apply bind_tabled (fdOf_tabled _)
  intro p
  apply bind_tabled get_tabled
  intro s
  apply bind_tabled (loadPage_tabled _ _)
  intro n
  apply bind_tabled (loadPage_tabled _ _)
  intro offset
  apply bind_tabled (htransfer _ _ _ _)
  rintro (r | m)
  · exact pure_tabled _
  · apply ite_tabled (pure_tabled _)
    apply bind_tabled (loadPage_tabled _ _)
    intro old
    exact bind_tabled (storePage_tabled _ _ _) (fun _ => pure_tabled _)

lemma serveSetSize_tabled : Tabled serveSetSize := by
  apply lookup_tabled
  intro q i
  apply bind_tabled get_tabled
  intro s
  apply bind_tabled (loadPage_tabled _ _)
  intro size
  exact bind_tabled (onFs_tabled _) (fun _ => pure_tabled _)

lemma copyName_tabled (q n a k : ℕ) : Tabled (copyName q n a k) := by
  induction n generalizing a k with
  | zero => exact throw_tabled _
  | succ n ih =>
    unfold copyName
    apply bind_tabled (onFs_tabled _)
    intro x
    apply bind_tabled (storeReply_tabled _ _ _)
    intro _
    exact ite_tabled (ih _ _) (pure_tabled _)

lemma serveStat_tabled : Tabled serveStat := by
  apply lookup_tabled
  intro q i
  apply bind_tabled get_tabled
  intro s
  apply bind_tabled (copyName_tabled _ _ _ _)
  intro _
  apply bind_tabled (onFs_tabled _)
  intro size
  apply bind_tabled (storePage_tabled _ _ _)
  intro _
  apply bind_tabled (onFs_tabled _)
  intro type
  exact bind_tabled (storePage_tabled _ _ _) (fun _ => pure_tabled _)

lemma serveFlush_tabled : Tabled serveFlush := by
  apply lookup_tabled
  intro q i
  apply bind_tabled get_tabled
  intro s
  exact bind_tabled (onFs_tabled _) (fun _ => pure_tabled _)

lemma serveSync_tabled : Tabled serveSync := bind_tabled (onFs_tabled _) (fun _ => pure_tabled _)

end Tabled

/-- Every request but an open leaves the table alone and sends no page. -/
lemma serveRequest_tabled {req : Word} (hreq : req ≠ 1) (s : Server) :
    Sat (serveRequest req) s (fun r t => SameTable s t ∧ r.2 = none) (fun _ _ => True) := by
  have hwrap : ∀ {m : ServM ℤ}, Tabled m →
      Sat (do return (← m, none) : ServM (ℤ × Option ℕ)) s (fun r t => SameTable s t ∧ r.2 = none)
        (fun _ _ => True) := by
    intro m hm
    rw [sat_bind]
    refine (hm s s (.refl s)).post ?_
    exact fun r t ht => sat_pure.mpr ⟨ht, rfl⟩
  unfold serveRequest
  rw [if_neg hreq]
  simp only [sat_ite]
  refine ⟨fun _ => hwrap serveSetSize_tabled, fun _ => ⟨fun _ => hwrap (serveData_tabled fileReadTo_tabled),
    fun _ => ⟨fun _ => hwrap (serveData_tabled fileWriteFrom_tabled), fun _ => ⟨fun _ => hwrap serveStat_tabled,
      fun _ => ⟨fun _ => hwrap serveFlush_tabled, fun _ => ⟨fun _ => hwrap serveSync_tabled, fun _ => ?_⟩⟩⟩⟩⟩⟩
  exact sat_pure.mpr ⟨.refl s, rfl⟩

/-! ### Opening -/

/-- The slot `i`, which was free, has been taken, with the page `p`. -/
structure Taken (s t : Server) (i p : ℕ) : Prop where
  slot : i < maxopen
  free : pageref s i ≤ 1
  page : t.fdPage i = some p
  pages : ∀ j ≠ i, t.fdPage j = s.fdPage j
  old : (s.fdPage i = some p ∧ t.mapped = s.mapped ∧ t.fresh = s.fresh) ∨
    (s.fdPage i = none ∧ p = s.fresh ∧ t.mapped = Function.update s.mapped p 1 ∧ t.fresh = s.fresh + 1)
  fileid : (t.opentab i).fileid = (s.opentab i).fileid + BitVec.ofNat 32 maxopen
  fileids : ∀ j ≠ i, (t.opentab j).fileid = (s.opentab j).fileid
  fsreq : t.fsreq = s.fsreq

/-- A page that is mapped by the server is counted. -/
def Counted (s : Server) : Prop := ∀ i p, s.fdPage i = some p → pageref s i ≠ 0

/-- The outcomes of `openfile_alloc` from slot `k` on. -/
inductive AllocatesSlot (s : Server) (k n : ℕ) : Except ℤ (ℕ × ℤ) → Server → Prop
  | full (hbusy : ∀ i, k ≤ i → i < k + n → 1 < pageref s i) : AllocatesSlot s k n (.error (-eMaxOpen)) s
  | noMem (hframes : s.fs.frames = 0) : AllocatesSlot s k n (.error (-eNoMem)) s
  | taken {i p : ℕ} {t : Server} (htaken : Taken s t i p) :
      AllocatesSlot s k n (.ok (i, (t.opentab i).fileid.toInt)) t

lemma takeSlot_sat (hp : s.fdPage i = some p) :
    Sat (takeSlot i) s
      (fun r t => r = .ok (i, ((s.opentab i).fileid + BitVec.ofNat 32 maxopen).toInt) ∧
        t = { s with
          opentab := Function.update s.opentab i
            { s.opentab i with fileid := (s.opentab i).fileid + BitVec.ofNat 32 maxopen }
          page := Function.update s.page p (fun _ => 0) })
      (fun _ _ => False) := by
  unfold takeSlot fdOf
  simp only [sat_bind, sat_get, sat_modify, sat_pure, hp]
  exact ⟨trivial, trivial⟩

lemma allocSlot_sat (hs : Counted s) (n k : ℕ) (hk : k + n = maxopen) :
    Sat (allocSlot n k) s (fun r t => AllocatesSlot s k n r t) (fun _ _ => False) := by
  induction n generalizing k with
  | zero =>
    unfold allocSlot
    refine sat_pure.mpr (.full ?_)
    intro i hle hlt
    omega
  | succ n ih =>
    have hslot : k < maxopen := by omega
    unfold allocSlot
    rw [sat_bind, sat_get]
    split
    · rename_i hzero
      have hnone : s.fdPage k = none := by
        cases hpage : s.fdPage k with
        | none => rfl
        | some p => exact absurd hzero (hs k p hpage)
      unfold fdAlloc
      simp only [sat_bind, sat_get, sat_ite, sat_pure, sat_set, hnone]
      refine ⟨fun hframes => ⟨fun h => absurd h Bool.false_ne_true, fun _ => .noMem hframes⟩, fun _ => ?_⟩
      refine ⟨fun _ => ?_, fun h => absurd trivial h⟩
      refine (takeSlot_sat (p := s.fresh) (Function.update_self k (some s.fresh) s.fdPage)).post ?_
      rintro r t ⟨rfl, ht⟩
      have htaken : Taken s t k s.fresh := by
        subst ht
        exact {
          slot := hslot
          free := by rw [hzero]; exact Nat.zero_le 1
          page := Function.update_self k (some s.fresh) s.fdPage
          pages := fun j hj => Function.update_of_ne hj _ _
          old := .inr ⟨hnone, rfl, rfl, rfl⟩
          fileid := by
            dsimp only
            rw [Function.update_self]
          fileids := fun j hj => congrArg OpenFile.fileid (Function.update_of_ne hj _ s.opentab)
          fsreq := rfl }
      rw [← htaken.fileid]
      exact .taken htaken
    · rename_i hone
      obtain ⟨p, hp⟩ : ∃ p, s.fdPage k = some p := by
        cases hpage : s.fdPage k with
        | some p => exact ⟨p, rfl⟩
        | none =>
          unfold pageref at hone
          rw [hpage] at hone
          cases hone
      refine (takeSlot_sat hp).post ?_
      rintro r t ⟨rfl, ht⟩
      have htaken : Taken s t k p := by
        subst ht
        exact {
          slot := hslot
          free := by rw [hone]
          page := hp
          pages := fun _ _ => rfl
          old := .inl ⟨hp, rfl, rfl⟩
          fileid := by
            dsimp only
            rw [Function.update_self]
          fileids := fun j hj => congrArg OpenFile.fileid (Function.update_of_ne hj _ s.opentab)
          fsreq := rfl }
      rw [← htaken.fileid]
      exact .taken htaken
    · rename_i hzero hone
      have hzero : pageref s k ≠ 0 := hzero
      have hone : pageref s k ≠ 1 := hone
      refine (ih (k + 1) (by omega)).post ?_
      intro r t ht
      cases ht with
      | full hbusy =>
        refine .full ?_
        intro i hle hlt
        rcases Nat.eq_or_lt_of_le hle with rfl | hlt'
        · omega
        · exact hbusy i hlt' (by omega)
      | noMem hframes => exact .noMem hframes
      | taken htaken => exact .taken htaken

/-- The outcomes of an open. -/
inductive Opens (s : Server) : ℤ × Option ℕ → Server → Prop
  | refused {t : Server} (hsame : SameTable s t) (r : ℤ) : Opens s (r, none) t
  | failed {i p : ℕ} {t : Server} (htaken : Taken s t i p) (r : ℤ) : Opens s (r, none) t
  | opened {i p : ℕ} {t : Server} (htaken : Taken s t i p)
      (hid : wordAt (t.page p) fdFileId = (t.opentab i).fileid) : Opens s (0, some p) t

lemma Taken.same {u : Server} (htaken : Taken s t i p) (hsame : SameTable t u) : Taken s u i p where
  slot := htaken.slot
  free := htaken.free
  page := by
    rw [hsame.fdPage]
    exact htaken.page
  pages j hj := by
    rw [hsame.fdPage]
    exact htaken.pages j hj
  old := by
    rw [hsame.mapped, hsame.fresh]
    exact htaken.old
  fileid := (hsame.fileids i).trans htaken.fileid
  fileids j hj := (hsame.fileids j).trans (htaken.fileids j hj)
  fsreq := hsame.fsreq.trans htaken.fsreq

/-- The end of `serve_open`, which fills the Fd page. -/
lemma fillFd_sat (htaken : Taken s t i p) (f : ℕ) (omode : Word) :
    Sat (do
      let p ← fdOf i
      modify fun s => { s with
        opentab := Function.update s.opentab i { s.opentab i with file := f } }
      storePage p fdFileId ((← get).opentab i).fileid
      storePage p fdOmode (omode &&& oAccmode)
      storePage p fdDevId devId
      modify fun s => { s with
        opentab := Function.update s.opentab i { s.opentab i with mode := omode } }
      return (0, some p) : ServM (ℤ × Option ℕ)) t (fun r u => Opens s r u) (fun _ _ => True) := by
  unfold fdOf storePage
  simp only [sat_bind, sat_get, sat_modify, sat_pure, htaken.page]
  refine .opened (i := i) (htaken.same ⟨fun j => ?_, rfl, rfl, rfl, rfl⟩) ?_
  · dsimp only
    by_cases hj : j = i
    · rw [hj, Function.update_self, Function.update_self]
    · rw [Function.update_of_ne hj, Function.update_of_ne hj]
  · simp only [Function.update_self]
    rw [wordAt_putWord_of_ne (by decide), wordAt_putWord_of_ne (by decide), wordAt_putWord]

lemma serveOpen_sat (hs : Counted s) :
    Sat serveOpen s (fun r t => Opens s r t) (fun _ _ => True) := by
  unfold serveOpen
  rw [sat_bind]
  unfold reqPage
  simp only [sat_bind, sat_get]
  cases s.fsreq with
  | none => exact sat_throw.mpr trivial
  | some q =>
    unfold loadPage openfileAlloc
    simp only [sat_bind, sat_get, sat_pure]
    refine (allocSlot_sat hs maxopen 0 (Nat.zero_add _)).mono ?_ (fun _ _ h => h.elim)
    intro r t ht
    cases ht with
    | full => exact sat_pure.mpr (.refused (.refl s) _)
    | noMem => exact sat_pure.mpr (.refused (.refl s) _)
    | taken htaken =>
      dsimp only
      rw [sat_ite]
      refine ⟨fun _ => sat_pure.mpr (.failed htaken _), fun _ => ?_⟩
      rw [sat_bind]
      refine (onFs_tabled _ t t (.refl t)).post ?_
      rintro (r | f) u hsame
      · exact sat_pure.mpr (.failed (htaken.same hsame) _)
      · exact fillFd_sat (htaken.same hsame) f _

end SistemasOperativos.Fs
