import SistemasOperativos.Kern.Mmu
import SistemasOperativos.Library.Ring
import SistemasOperativos.Library.Runs

/-!
# Pipes

`lib/pipe.c`: one environment in `devpipe_write` and one in `devpipe_read` on the same
`struct Pipe`. Every copy of a byte, every update of a position and every test is a step, and
the steps of the two come in any order.
-/

namespace SistemasOperativos.Lib.Devpipe

open Library
open Kern (Word Byte)

def pipebufsiz : ℕ := 32

/-- The positions are `off_t`, signed words. -/
structure Pipe where
  pRpos : Word
  pWpos : Word
  pBuf : ℕ → Byte

/-- The index `pos % PIPEBUFSIZ`: the remainder of signed words has the sign of `pos`. -/
def pipeIndex (pos : Word) : ℤ := pos.toInt.tmod 32

/-- The index lies in `p_buf`. -/
def InBuf (i : ℤ) : Prop := 0 ≤ i ∧ i < pipebufsiz

/-- The test of `devpipe_read`. -/
def Pipe.empty (p : Pipe) : Bool := p.pRpos = p.pWpos

/-- The test of `devpipe_write`: `sizeof` makes it a comparison of unsigned words. -/
def Pipe.full (p : Pipe) : Bool := p.pRpos + BitVec.ofNat 32 pipebufsiz ≤ p.pWpos

/-- Where the writer stands: it has stored `i` bytes of `buf`. -/
inductive Writer
  | out
  | test (buf : List Byte) (i : ℕ)
  | wait (buf : List Byte) (i : ℕ)
  | store (buf : List Byte) (i : ℕ)
  | advance (buf : List Byte) (i : ℕ)
  | lost

/-- Where the reader stands: it is to read `n` bytes and has the bytes `buf`. -/
inductive Reader
  | out
  | test (n : ℕ) (buf : List Byte)
  | wait (n : ℕ)
  | take (n : ℕ) (buf : List Byte)
  | advance (n : ℕ) (buf : List Byte)
  | lost

structure PipeState where
  pipe : Pipe
  writer : Writer
  reader : Reader

/-- `pipe` allocates a page of zeros. -/
def PipeState.start : PipeState := ⟨⟨0, 0, fun _ => 0⟩, .out, .out⟩

inductive PipeEvent
  | write (buf : List Byte)
  | full
  | room
  | store (i : ℤ) (b : Byte)
  | wposInc
  | wrote (n : ℕ)
  | read (n : ℕ)
  | empty
  | data
  | take (i : ℤ) (b : Byte)
  | rposInc
  | got (buf : List Byte)
  | yield

/-- A step of the writer. `_pipeisclosed` may answer anything. What follows an access outside
`p_buf` is not modelled: the environment is lost. -/
inductive WriterStep (s : PipeState) : PipeEvent → PipeState → Prop
  | write (buf : List Byte) (h : s.writer = .out) :
      WriterStep s (.write buf) { s with writer := .test buf 0 }
  | wrote {buf : List Byte} {i : ℕ} (h : s.writer = .test buf i) (hi : ¬ i < buf.length) :
      WriterStep s (.wrote i) { s with writer := .out }
  | full {buf : List Byte} {i : ℕ} (h : s.writer = .test buf i) (hi : i < buf.length)
      (hfull : s.pipe.full = true) : WriterStep s .full { s with writer := .wait buf i }
  | closed {buf : List Byte} {i : ℕ} (h : s.writer = .wait buf i) :
      WriterStep s (.wrote 0) { s with writer := .out }
  | yield {buf : List Byte} {i : ℕ} (h : s.writer = .wait buf i) :
      WriterStep s .yield { s with writer := .test buf i }
  | room {buf : List Byte} {i : ℕ} (h : s.writer = .test buf i) (hi : i < buf.length)
      (hfull : s.pipe.full = false) : WriterStep s .room { s with writer := .store buf i }
  | store {buf : List Byte} {i : ℕ} {b : Byte} (h : s.writer = .store buf i)
      (hb : buf[i]? = some b) (hin : InBuf (pipeIndex s.pipe.pWpos)) :
      WriterStep s (.store (pipeIndex s.pipe.pWpos) b)
        { s with
          pipe := { s.pipe with
            pBuf := Function.update s.pipe.pBuf (pipeIndex s.pipe.pWpos).toNat b }
          writer := .advance buf i }
  | storeOutside {buf : List Byte} {i : ℕ} {b : Byte} (h : s.writer = .store buf i)
      (hb : buf[i]? = some b) (hin : ¬ InBuf (pipeIndex s.pipe.pWpos)) :
      WriterStep s (.store (pipeIndex s.pipe.pWpos) b) { s with writer := .lost }
  | advance {buf : List Byte} {i : ℕ} (h : s.writer = .advance buf i) :
      WriterStep s .wposInc
        { s with
          pipe := { s.pipe with pWpos := s.pipe.pWpos + 1 }
          writer := .test buf (i + 1) }

/-- A step of the reader. -/
inductive ReaderStep (s : PipeState) : PipeEvent → PipeState → Prop
  | read (n : ℕ) (h : s.reader = .out) :
      ReaderStep s (.read n) { s with reader := .test n [] }
  | got {n : ℕ} {buf : List Byte} (h : s.reader = .test n buf) (hi : ¬ buf.length < n) :
      ReaderStep s (.got buf) { s with reader := .out }
  | some {n : ℕ} {buf : List Byte} (h : s.reader = .test n buf) (hi : buf.length < n)
      (hempty : s.pipe.empty = true) (hbuf : 0 < buf.length) :
      ReaderStep s (.got buf) { s with reader := .out }
  | empty {n : ℕ} (h : s.reader = .test n []) (hi : 0 < n) (hempty : s.pipe.empty = true) :
      ReaderStep s .empty { s with reader := .wait n }
  | closed {n : ℕ} (h : s.reader = .wait n) :
      ReaderStep s (.got []) { s with reader := .out }
  | yield {n : ℕ} (h : s.reader = .wait n) :
      ReaderStep s .yield { s with reader := .test n [] }
  | data {n : ℕ} {buf : List Byte} (h : s.reader = .test n buf) (hi : buf.length < n)
      (hempty : s.pipe.empty = false) : ReaderStep s .data { s with reader := .take n buf }
  | take {n : ℕ} {buf : List Byte} (h : s.reader = .take n buf)
      (hin : InBuf (pipeIndex s.pipe.pRpos)) :
      ReaderStep s (.take (pipeIndex s.pipe.pRpos) (s.pipe.pBuf (pipeIndex s.pipe.pRpos).toNat))
        { s with
          reader := .advance n (buf ++ [s.pipe.pBuf (pipeIndex s.pipe.pRpos).toNat]) }
  | takeOutside {n : ℕ} {buf : List Byte} {b : Byte} (h : s.reader = .take n buf)
      (hin : ¬ InBuf (pipeIndex s.pipe.pRpos)) :
      ReaderStep s (.take (pipeIndex s.pipe.pRpos) b) { s with reader := .lost }
  | advance {n : ℕ} {buf : List Byte} (h : s.reader = .advance n buf) :
      ReaderStep s .rposInc
        { s with
          pipe := { s.pipe with pRpos := s.pipe.pRpos + 1 }
          reader := .test n buf }

inductive PipeStep (s : PipeState) (ev : PipeEvent) (t : PipeState) : Prop
  | writer (h : WriterStep s ev t)
  | reader (h : ReaderStep s ev t)

abbrev PipeMove := Move PipeState PipeEvent

abbrev PipeRuns : List PipeMove → PipeState → Prop := Run (fun s => s = .start) PipeStep

/-! ### What a run has transferred -/

def PipeEvent.stored : PipeEvent → List Byte
  | .store _ b => [b]
  | _ => []

def PipeEvent.returned : PipeEvent → List Byte
  | .got buf => buf
  | _ => []

def PipeEvent.index : PipeEvent → Option ℤ
  | .store i _ => some i
  | .take i _ => some i
  | _ => none

def PipeEvent.wposIncs : PipeEvent → ℕ
  | .wposInc => 1
  | _ => 0

def PipeEvent.rposIncs : PipeEvent → ℕ
  | .rposInc => 1
  | _ => 0

/-- The bytes the writes have stored. -/
def stored (h : List PipeMove) : List Byte := h.flatMap fun m => m.label.stored

/-- The bytes the reads have returned. -/
def returned (h : List PipeMove) : List Byte := h.flatMap fun m => m.label.returned

/-- The number of updates of `p_wpos`. -/
def written (h : List PipeMove) : ℕ := (h.map fun m => m.label.wposIncs).sum

/-- The number of updates of `p_rpos`. -/
def taken (h : List PipeMove) : ℕ := (h.map fun m => m.label.rposIncs).sum

/-- What a run transfers. -/
structure PipeOk (h : List PipeMove) : Prop where
  order : returned h <+: stored h
  inBuf : ∀ m ∈ h, ∀ i, m.label.index = some i → InBuf i
  unread : taken h ≤ written h ∧ written h ≤ taken h + pipebufsiz
  full : ∀ h₁ m h₂, h = h₁ ++ m :: h₂ → m.label = .full → written h₁ = taken h₁ + pipebufsiz
  empty : ∀ h₁ m h₂, h = h₁ ++ m :: h₂ → m.label = .empty → written h₁ = taken h₁

/-- A byte is stored at a position that is not negative, or divisible by the size of the
buffer. -/
def PipeGuard (s : PipeState) (ev : PipeEvent) : Prop :=
  ∀ i b, ev = .store i b → 0 ≤ s.pipe.pWpos.toInt ∨ (pipebufsiz : ℤ) ∣ s.pipe.pWpos.toInt

/-! ### The ring -/

/-- The bytes that `p_buf` holds and `p_wpos` does not count yet. -/
def Writer.ahead : Writer → ℕ
  | .advance _ _ => 1
  | _ => 0

/-- The writer has found room and not used it up. -/
def Writer.Roomy : Writer → Prop
  | .store _ _ => True
  | .advance _ _ => True
  | _ => False

/-- The bytes the reader has and has not returned. -/
def Reader.bytes : Reader → List Byte
  | .test _ buf => buf
  | .take _ buf => buf
  | .advance _ buf => buf
  | _ => []

/-- The bytes that it has and `p_rpos` does not count yet. -/
def Reader.ahead : Reader → ℕ
  | .advance _ _ => 1
  | _ => 0

/-- The reader has found data and not used it up. -/
def Reader.Fed : Reader → Prop
  | .take _ _ => True
  | .advance _ _ => True
  | _ => False

/-- The last position that can be reached with all indices in `p_buf`. -/
def lastPos : ℕ := 2 ^ 31 + 1

/-- The pipe after `W` updates of `p_wpos` and `R` of `p_rpos`, when the bytes `log` have been
stored and the bytes `out` returned. -/
structure PipeIn (W R : ℕ) (log out : List Byte) (s : PipeState) : Prop where
  wpos : s.pipe.pWpos = BitVec.ofNat 32 W
  rpos : s.pipe.pRpos = BitVec.ofNat 32 R
  le : R ≤ W
  full : W ≤ R + pipebufsiz
  last : W + s.writer.ahead ≤ lastPos
  length : log.length = W + s.writer.ahead
  ring : Window pipebufsiz s.pipe.pBuf log R
  roomy : s.writer.Roomy → W < R + pipebufsiz
  fed : s.reader.Fed → R < W
  out : out ++ s.reader.bytes = log.take (R + s.reader.ahead)

variable {W R : ℕ} {log out : List Byte} {s t : PipeState} {ev : PipeEvent} {h : List PipeMove}

lemma ofNat_toInt {n : ℕ} (hn : n < 2 ^ 31) : (BitVec.ofNat 32 n).toInt = n := by
  rw [BitVec.toInt_eq_toNat_of_lt]
  · rw [BitVec.toNat_ofNat, Nat.mod_eq_of_lt (by omega)]
  · rw [BitVec.toNat_ofNat, Nat.mod_eq_of_lt (by omega)]
    omega

/-- Up to position `2 ^ 31` the index is the remainder. -/
lemma pipeIndex_ofNat {n : ℕ} (hn : n ≤ 2 ^ 31) :
    pipeIndex (BitVec.ofNat 32 n) = (n % pipebufsiz : ℕ) := by
  unfold pipeIndex pipebufsiz
  by_cases hlast : n = 2 ^ 31
  · subst hlast
    decide
  · rw [ofNat_toInt (by omega)]
    exact (Int.ofNat_tmod n 32).symm

/-- The next position is one at which no byte may be stored. -/
lemma lt_lastPos {n : ℕ} (hn : n ≤ lastPos) (hg : 0 ≤ (BitVec.ofNat 32 n).toInt ∨
    (pipebufsiz : ℤ) ∣ (BitVec.ofNat 32 n).toInt) : n ≤ 2 ^ 31 := by
  unfold lastPos at hn
  by_contra hlt
  obtain rfl : n = 2 ^ 31 + 1 := by omega
  revert hg
  decide

namespace PipeIn

lemma room_of_test (h : PipeIn W R log out s) (hfull : s.pipe.full = false) :
    W < R + pipebufsiz := by
  have hlast := h.last
  have hle := h.le
  unfold lastPos at hlast
  unfold Pipe.full at hfull
  rw [decide_eq_false_iff_not, h.wpos, h.rpos, BitVec.le_def, BitVec.toNat_add] at hfull
  simp only [BitVec.toNat_ofNat] at hfull
  unfold pipebufsiz at hfull ⊢
  omega

lemma full_of_test (h : PipeIn W R log out s) (hfull : s.pipe.full = true) :
    W = R + pipebufsiz := by
  have hlast := h.last
  have hle := h.le
  have hmax := h.full
  unfold lastPos at hlast
  unfold Pipe.full at hfull
  rw [decide_eq_true_iff, h.wpos, h.rpos, BitVec.le_def, BitVec.toNat_add] at hfull
  simp only [BitVec.toNat_ofNat] at hfull
  unfold pipebufsiz at hfull hmax ⊢
  omega

lemma data_of_test (h : PipeIn W R log out s) (hempty : s.pipe.empty = false) : R < W := by
  have hle := h.le
  unfold Pipe.empty at hempty
  rw [decide_eq_false_iff_not, h.wpos, h.rpos] at hempty
  have hne : R ≠ W := fun heq => hempty (by rw [heq])
  omega

lemma empty_of_test (h : PipeIn W R log out s) (hempty : s.pipe.empty = true) : W = R := by
  have hle := h.le
  have hlast := h.last
  unfold lastPos at hlast
  unfold Pipe.empty at hempty
  rw [decide_eq_true_iff, h.wpos, h.rpos] at hempty
  have heq := congrArg BitVec.toNat hempty
  simp only [BitVec.toNat_ofNat] at heq
  omega

/-- The reader takes only what has been counted. -/
lemma ahead_le (h : PipeIn W R log out s) : R + s.reader.ahead ≤ W := by
  have hle := h.le
  have hfed := h.fed
  cases hr : s.reader with
  | advance n buf =>
    rw [hr] at hfed
    exact hfed trivial
  | _ => exact hle

/-- A step of the writer. -/
lemma writer (h : PipeIn W R log out s) (hg : PipeGuard s ev) (hst : WriterStep s ev t) :
    PipeIn (W + ev.wposIncs) (R + ev.rposIncs) (log ++ ev.stored) (out ++ ev.returned) t ∧
      ∀ i, ev.index = some i → InBuf i := by
  have hlast := h.last
  have hlength := h.length
  have hquiet : ∀ w : Writer, w.ahead = s.writer.ahead → (w.Roomy → W < R + pipebufsiz) →
      PipeIn W R (log ++ []) (out ++ []) { s with writer := w } := by
    intro w hw hroomy
    rw [List.append_nil, List.append_nil]
    exact ⟨h.wpos, h.rpos, h.le, h.full, hw ▸ hlast, hw ▸ hlength, h.ring, hroomy, h.fed, h.out⟩
  have hidx : W ≤ 2 ^ 31 → InBuf (pipeIndex s.pipe.pWpos) ∧
      (pipeIndex s.pipe.pWpos).toNat = W % pipebufsiz := by
    intro hle
    rw [h.wpos, pipeIndex_ofNat hle]
    refine ⟨⟨Int.natCast_nonneg _, ?_⟩, rfl⟩
    exact Int.ofNat_lt.mpr (Nat.mod_lt _ (by decide))
  cases hst with
  | write buf hw => exact ⟨hquiet _ (by rw [hw]; rfl) (fun hr => hr.elim), by simp [PipeEvent.index]⟩
  | wrote hw hi => exact ⟨hquiet _ (by rw [hw]; rfl) (fun hr => hr.elim), by simp [PipeEvent.index]⟩
  | full hw hi hfull =>
    exact ⟨hquiet _ (by rw [hw]; rfl) (fun hr => hr.elim), by simp [PipeEvent.index]⟩
  | closed hw => exact ⟨hquiet _ (by rw [hw]; rfl) (fun hr => hr.elim), by simp [PipeEvent.index]⟩
  | yield hw => exact ⟨hquiet _ (by rw [hw]; rfl) (fun hr => hr.elim), by simp [PipeEvent.index]⟩
  | room hw hi hfull =>
    exact ⟨hquiet _ (by rw [hw]; rfl) (fun _ => h.room_of_test hfull), by simp [PipeEvent.index]⟩
  | @store buf i b hw hb hin =>
    have hlt : W ≤ 2 ^ 31 := by
      apply lt_lastPos (by omega)
      rw [← h.wpos]
      exact hg _ b rfl
    have hroom : W < R + pipebufsiz := by
      apply h.roomy
      rw [hw]
      trivial
    rw [hw] at hlength
    have hlen : log.length = W := hlength
    refine ⟨⟨h.wpos, h.rpos, h.le, h.full, ?_, ?_, ?_, fun _ => hroom, h.fed, ?_⟩, ?_⟩
    · show W + 1 ≤ lastPos
      unfold lastPos
      omega
    · rw [List.length_append, hlen]
      rfl
    · rw [(hidx hlt).2, ← hlen]
      apply h.ring.push (by omega)
    · show out ++ [] ++ s.reader.bytes = List.take (R + s.reader.ahead) (log ++ [b])
      have hahead := h.ahead_le
      rw [List.append_nil, List.take_append_of_le_length (by omega)]
      exact h.out
    · intro j hj
      obtain rfl := Option.some.inj hj
      exact hin
  | @storeOutside buf i b hw hb hin =>
    have hlt : W ≤ 2 ^ 31 := by
      apply lt_lastPos (by omega)
      rw [← h.wpos]
      exact hg _ b rfl
    exact absurd (hidx hlt).1 hin
  | @advance buf i hw =>
    have hroom : W < R + pipebufsiz := by
      apply h.roomy
      rw [hw]
      trivial
    have hlog : log ++ PipeEvent.wposInc.stored = log := List.append_nil log
    rw [hw] at hlast hlength
    refine ⟨⟨?_, h.rpos, ?_, hroom, hlast, ?_, ?_, fun hr => hr.elim, ?_, ?_⟩, ?_⟩
    · show s.pipe.pWpos + 1 = BitVec.ofNat 32 (W + 1)
      rw [h.wpos, BitVec.ofNat_add]
      rfl
    · exact Nat.le_succ_of_le h.le
    · exact (congrArg List.length (List.append_nil log)).trans hlength
    · rw [hlog]
      exact h.ring
    · exact fun hf => Nat.lt_succ_of_lt (h.fed hf)
    · rw [hlog]
      show out ++ [] ++ s.reader.bytes = log.take (R + s.reader.ahead)
      rw [List.append_nil]
      exact h.out
    · intro j hj
      cases hj

/-- A step of the reader. -/
lemma reader (h : PipeIn W R log out s) (hst : ReaderStep s ev t) :
    PipeIn (W + ev.wposIncs) (R + ev.rposIncs) (log ++ ev.stored) (out ++ ev.returned) t ∧
      ∀ i, ev.index = some i → InBuf i := by
  have hquiet : ∀ (r : Reader) (bytes : List Byte),
      bytes ++ r.bytes = s.reader.bytes → s.reader.ahead = 0 → r.ahead = 0 →
      (r.Fed → R < W) →
      PipeIn W R (log ++ []) (out ++ bytes) { s with reader := r } := by
    intro r bytes hr h0 h0' hfed
    rw [List.append_nil]
    refine ⟨h.wpos, h.rpos, h.le, h.full, h.last, h.length, h.ring, h.roomy, hfed, ?_⟩
    show out ++ bytes ++ r.bytes = log.take (R + r.ahead)
    rw [List.append_assoc, hr, h.out, h0, h0']
  have hidx : R < W → InBuf (pipeIndex s.pipe.pRpos) ∧
      (pipeIndex s.pipe.pRpos).toNat = R % pipebufsiz := by
    intro hlt
    have hle : R ≤ 2 ^ 31 := by
      have hlast := h.last
      unfold lastPos at hlast
      omega
    rw [h.rpos, pipeIndex_ofNat hle]
    refine ⟨⟨Int.natCast_nonneg _, ?_⟩, rfl⟩
    exact Int.ofNat_lt.mpr (Nat.mod_lt _ (by decide))
  cases hst with
  | read n hr =>
    refine ⟨hquiet (.test n []) [] ?_ ?_ rfl (fun hf => hf.elim), by simp [PipeEvent.index]⟩ <;>
    · rw [hr]
      rfl
  | @got n buf hr hi =>
    refine ⟨hquiet .out buf ?_ ?_ rfl (fun hf => hf.elim), by simp [PipeEvent.index]⟩ <;>
    · rw [hr]
      simp [Reader.bytes, Reader.ahead]
  | @some n buf hr hi hempty hbuf =>
    refine ⟨hquiet .out buf ?_ ?_ rfl (fun hf => hf.elim), by simp [PipeEvent.index]⟩ <;>
    · rw [hr]
      simp [Reader.bytes, Reader.ahead]
  | @empty n hr hi hempty =>
    refine ⟨hquiet (.wait n) [] ?_ ?_ rfl (fun hf => hf.elim), by simp [PipeEvent.index]⟩ <;>
    · rw [hr]
      rfl
  | closed hr =>
    refine ⟨hquiet .out [] ?_ ?_ rfl (fun hf => hf.elim), by simp [PipeEvent.index]⟩ <;>
    · rw [hr]
      rfl
  | @yield n hr =>
    refine ⟨hquiet (.test n []) [] ?_ ?_ rfl (fun hf => hf.elim), by simp [PipeEvent.index]⟩ <;>
    · rw [hr]
      rfl
  | @data n buf hr hi hempty =>
    refine ⟨hquiet (.take n buf) [] ?_ ?_ rfl (fun _ => h.data_of_test hempty),
      by simp [PipeEvent.index]⟩ <;>
    · rw [hr]
      rfl
  | @take n buf hr hin =>
    have hlt : R < W := by
      apply h.fed
      rw [hr]
      trivial
    -- the byte of position `R` is in the ring
    have hlen : R < log.length := by
      have hlength := h.length
      omega
    have hbyte : s.pipe.pBuf (pipeIndex s.pipe.pRpos).toNat = log[R] := by
      rw [(hidx hlt).2]
      exact h.ring R (Nat.le_refl R) _ (List.getElem?_eq_getElem hlen)
    have hout := h.out
    rw [hr] at hout
    generalize s.pipe.pBuf (pipeIndex s.pipe.pRpos).toNat = b at hbyte
    have hlog : log ++ (PipeEvent.take (pipeIndex s.pipe.pRpos) b).stored = log :=
      List.append_nil log
    rw [hlog]
    refine ⟨⟨h.wpos, h.rpos, h.le, h.full, h.last, h.length, h.ring, h.roomy, fun _ => hlt, ?_⟩,
      ?_⟩
    · show out ++ [] ++ (buf ++ [b]) = log.take (R + 1)
      rw [List.append_nil, ← List.append_assoc, List.take_add_one, List.getElem?_eq_getElem hlen,
        hbyte]
      exact congrArg (· ++ [log[R]]) hout
    · intro j hj
      obtain rfl := Option.some.inj hj
      exact hin
  | @takeOutside n buf b hr hin =>
    have hlt : R < W := by
      apply h.fed
      rw [hr]
      trivial
    exact absurd (hidx hlt).1 hin
  | @advance n buf hr =>
    have hlt : R < W := by
      apply h.fed
      rw [hr]
      trivial
    have hlog : log ++ PipeEvent.rposInc.stored = log := List.append_nil log
    have hout := h.out
    rw [hr] at hout
    refine ⟨⟨h.wpos, ?_, hlt, ?_, h.last, ?_, ?_, ?_, fun hf => hf.elim, ?_⟩, ?_⟩
    · show s.pipe.pRpos + 1 = BitVec.ofNat 32 (R + 1)
      rw [h.rpos, BitVec.ofNat_add]
      rfl
    · have hfull := h.full
      show W ≤ R + 1 + pipebufsiz
      omega
    · rw [hlog]
      exact h.length
    · rw [hlog]
      exact h.ring.advance
    · intro hroomy
      have hroom := h.roomy hroomy
      show W < R + 1 + pipebufsiz
      omega
    · rw [hlog]
      show out ++ [] ++ buf = log.take (R + 1)
      rw [List.append_nil]
      exact hout
    · intro j hj
      cases hj

end PipeIn

/-! ### Runs -/

/-- The state of the pipe after a run whose stores meet the condition. -/
lemma pipeIn_of_run (hr : PipeRuns h s) (hg : ∀ m ∈ h, PipeGuard m.pre m.label) :
    PipeIn (written h) (taken h) (stored h) (returned h) s := by
  apply hr.induct hg (fun h s => PipeIn (written h) (taken h) (stored h) (returned h) s)
  · rintro s rfl
    refine ⟨rfl, rfl, Nat.le_refl 0, Nat.zero_le _, Nat.zero_le _, rfl, window_empty, ?_, ?_, rfl⟩
    · exact fun hr => hr.elim
    · exact fun hf => hf.elim
  · intro h s ev t hs hg hst
    have hwritten : written (h ++ [⟨s, ev, t⟩]) = written h + ev.wposIncs := by simp [written]
    have htaken : taken (h ++ [⟨s, ev, t⟩]) = taken h + ev.rposIncs := by simp [taken]
    have hstored : stored (h ++ [⟨s, ev, t⟩]) = stored h ++ ev.stored := by simp [stored]
    have hreturned : returned (h ++ [⟨s, ev, t⟩]) = returned h ++ ev.returned := by
      simp [returned]
    rw [hwritten, htaken, hstored, hreturned]
    cases hst with
    | writer hst => exact (hs.writer hg hst).1
    | reader hst => exact (hs.reader hst).1

/-- As long as no byte is stored at a position where the index is negative, the pipe transfers
what is written, in order. -/
theorem pipe_of_run (hr : PipeRuns h s) (hg : ∀ m ∈ h, PipeGuard m.pre m.label) : PipeOk h := by
  have hin := pipeIn_of_run hr hg
  have hat : ∀ h₁ m h₂, h = h₁ ++ m :: h₂ →
      PipeIn (written h₁) (taken h₁) (stored h₁) (returned h₁) m.pre ∧
      PipeStep m.pre m.label m.post := by
    rintro h₁ m h₂ rfl
    obtain ⟨hpre, hst⟩ := hr.split
    exact ⟨pipeIn_of_run hpre (fun x hx => hg x (List.mem_append_left _ hx)), hst⟩
  refine ⟨?_, ?_, ⟨hin.le, hin.full⟩, ?_, ?_⟩
  · have hprefix : returned h <+: (stored h).take (taken h + s.reader.ahead) := by
      rw [← hin.out]
      exact List.prefix_append _ _
    exact hprefix.trans (List.take_prefix _ _)
  · intro m hm i hi
    obtain ⟨h₁, h₂, heq⟩ := List.append_of_mem hm
    obtain ⟨hpre, hst⟩ := hat h₁ m h₂ heq
    cases hst with
    | writer hst => exact (hpre.writer (hg m hm) hst).2 i hi
    | reader hst => exact (hpre.reader hst).2 i hi
  · intro h₁ m h₂ heq hlabel
    obtain ⟨hpre, hst⟩ := hat h₁ m h₂ heq
    rw [hlabel] at hst
    generalize m.post = t at hst
    cases hst with
    | writer hst =>
      cases hst with
      | full _ _ hfull => exact hpre.full_of_test hfull
    | reader hst => cases hst
  · intro h₁ m h₂ heq hlabel
    obtain ⟨hpre, hst⟩ := hat h₁ m h₂ heq
    rw [hlabel] at hst
    generalize m.post = t at hst
    cases hst with
    | writer hst => cases hst
    | reader hst =>
      cases hst with
      | empty _ _ hempty => exact hpre.empty_of_test hempty

/-! ### One byte at a time -/

/-- A run that stores `log`, every byte at a position that meets the condition. -/
def Reached (log : List Byte) (s : PipeState) : Prop :=
  ∃ h, PipeRuns h s ∧ (∀ m ∈ h, PipeGuard m.pre m.label) ∧ stored h = log

lemma Reached.next (hs : Reached log s) (hst : PipeStep s ev t) (hg : PipeGuard s ev) :
    Reached (log ++ ev.stored) t := by
  obtain ⟨h, hr, hguard, rfl⟩ := hs
  refine ⟨_, .next hr hst, ?_, by simp [stored]⟩
  intro m hm
  rcases List.mem_append.mp hm with hm | hm
  · exact hguard m hm
  · obtain rfl := List.mem_singleton.mp hm
    exact hg

/-- A step that stores nothing. -/
lemma Reached.quiet (hs : Reached log s) (hst : PipeStep s ev t)
    (hev : ∀ i b, ev ≠ .store i b) : Reached (log ++ ev.stored) t :=
  hs.next hst (fun i b h => absurd h (hev i b))

/-- The writer has found room in an empty pipe. -/
lemma Reached.storing {n : ℕ} (hn : n ≤ lastPos) {buf : ℕ → Byte}
    (hs : Reached log ⟨⟨BitVec.ofNat 32 n, BitVec.ofNat 32 n, buf⟩, .out, .out⟩) :
    Reached log ⟨⟨BitVec.ofNat 32 n, BitVec.ofNat 32 n, buf⟩, .store [0] 0, .out⟩ := by
  have hfull : Pipe.full ⟨BitVec.ofNat 32 n, BitVec.ofNat 32 n, buf⟩ = false := by
    unfold Pipe.full pipebufsiz
    unfold lastPos at hn
    rw [decide_eq_false_iff_not, BitVec.le_def, BitVec.toNat_add]
    simp only [BitVec.toNat_ofNat]
    omega
  have hwrite := hs.quiet (.writer (.write [0] rfl)) (by simp)
  have hroom := hwrite.quiet (.writer (.room rfl (by decide) hfull)) (by simp)
  simpa [PipeEvent.stored] using hroom

/-- One byte is written and read, from position `n` on. -/
lemma Reached.round {n : ℕ} (hn : n ≤ 2 ^ 31) {buf : ℕ → Byte}
    (hs : Reached log ⟨⟨BitVec.ofNat 32 n, BitVec.ofNat 32 n, buf⟩, .out, .out⟩) :
    ∃ buf', Reached (log ++ [0])
      ⟨⟨BitVec.ofNat 32 (n + 1), BitVec.ofNat 32 (n + 1), buf'⟩, .out, .out⟩ := by
  have hstoring := hs.storing (by unfold lastPos; omega)
  have hsucc : BitVec.ofNat 32 (n + 1) = BitVec.ofNat 32 n + 1 := BitVec.ofNat_add ..
  have hin : InBuf (pipeIndex (BitVec.ofNat 32 n)) := by
    rw [pipeIndex_ofNat hn]
    exact ⟨Int.natCast_nonneg _, Int.ofNat_lt.mpr (Nat.mod_lt _ (by decide))⟩
  have hguard : 0 ≤ (BitVec.ofNat 32 n).toInt ∨ (pipebufsiz : ℤ) ∣ (BitVec.ofNat 32 n).toInt := by
    by_cases hlast : n = 2 ^ 31
    · subst hlast
      exact Or.inr (by decide)
    · rw [ofNat_toInt (by omega)]
      exact Or.inl (Int.natCast_nonneg n)
  have hdata : ∀ b : ℕ → Byte, Pipe.empty ⟨BitVec.ofNat 32 n, BitVec.ofNat 32 n + 1, b⟩ = false := by
    intro b
    unfold Pipe.empty
    rw [decide_eq_false_iff_not, ← hsucc]
    intro heq
    have heq' := congrArg BitVec.toNat heq
    simp only [BitVec.toNat_ofNat] at heq'
    omega
  have hstore := hstoring.next (.writer (.store (b := 0) rfl rfl hin)) (fun _ _ _ => hguard)
  have hinc := hstore.quiet (.writer (.advance rfl)) (by simp)
  have hwrote := hinc.quiet (.writer (.wrote rfl (by decide))) (by simp)
  have hread := hwrote.quiet (.reader (.read 1 rfl)) (by simp)
  have hfound := hread.quiet (.reader (.data rfl (by decide) (hdata _))) (by simp)
  have htake := hfound.quiet (.reader (.take rfl hin)) (by simp)
  have hadvance := htake.quiet (.reader (.advance rfl)) (by simp)
  have hgot := hadvance.quiet (.reader (.got rfl (by simp))) (by simp)
  rw [hsucc]
  simp only [PipeEvent.stored, List.append_nil] at hgot
  exact ⟨_, hgot⟩

lemma reached (n : ℕ) (hn : n ≤ lastPos) : ∃ buf, Reached (List.replicate n 0)
    ⟨⟨BitVec.ofNat 32 n, BitVec.ofNat 32 n, buf⟩, .out, .out⟩ := by
  induction n with
  | zero => exact ⟨_, [], .start rfl, by simp, rfl⟩
  | succ n ih =>
    obtain ⟨buf, hs⟩ := ih (by omega)
    rw [List.replicate_succ']
    unfold lastPos at hn
    exact hs.round (by omega)

theorem pipe_of_run_bytes : ∃ h s, PipeRuns h s ∧ stored h = List.replicate 40 0 ∧ PipeOk h := by
  obtain ⟨buf, h, hr, hg, hlog⟩ := reached 40 (by decide)
  exact ⟨h, _, hr, hlog, pipe_of_run hr hg⟩

/-- After `2 ^ 31 + 1` bytes the next one is stored at index `-31`. -/
theorem pipe_fails : ∃ h s, PipeRuns h s ∧ ¬ PipeOk h := by
  obtain ⟨buf, hs⟩ := reached lastPos (Nat.le_refl _)
  obtain ⟨h, hr, -, -⟩ := hs.storing (Nat.le_refl _)
  have hidx : pipeIndex (BitVec.ofNat 32 lastPos) = -31 := by decide
  have hout : ¬ InBuf (pipeIndex (BitVec.ofNat 32 lastPos)) := by
    rw [hidx]
    exact fun hin => absurd hin.1 (by decide)
  have hstore := hr.next (.writer (.storeOutside (b := 0) rfl rfl hout))
  refine ⟨_, _, hstore, fun hok => hout ?_⟩
  exact hok.inBuf _ (List.mem_append_right _ (List.mem_singleton.mpr rfl)) _ rfl

end SistemasOperativos.Lib.Devpipe
