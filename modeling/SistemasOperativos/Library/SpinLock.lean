import Mathlib.Logic.Function.Basic
import Mathlib.Logic.Relation
import SistemasOperativos.Library.Runs

/-!
# A spin lock that knows its owner

Any number of parties take and give back a lock, one access to its two fields at a time. At most one of
them is inside, the owner is the one who is, and the data that only the party inside works on are those
of a run in which every stay inside is one step.
-/

namespace SistemasOperativos.Library

/-- Where a party is in the code that takes the lock. -/
inductive LockPc
  /-- before `locked` is read, to see whether the party holds the lock already -/
  | check
  /-- before `owner` is read for this -/
  | owner
  | spin
  /-- the lock is taken, the owner is not written yet -/
  | record

/-- Where a party is in the code that gives the lock back. -/
inductive UnlockPc
  | check
  | owner
  | clear
  | release

inductive Phase
  | out
  | locking (pc : LockPc)
  | inside
  | unlocking (pc : UnlockPc)
  /-- stopped by a check of the owner -/
  | refused

structure SpinLock (ι σ : Type) where
  locked : Bool
  owner : Option ι
  phase : ι → Phase
  data : σ

/-- The party has the lock. -/
def Phase.Holds : Phase → Prop
  | .locking .record => True
  | .inside => True
  | .unlocking _ => True
  | _ => False

/-- The party is written down as the owner. -/
def Phase.Owns : Phase → Prop
  | .inside => True
  | .unlocking .release => False
  | .unlocking _ => True
  | _ => False

section SpinLock

variable {ι σ : Type} [DecidableEq ι]

/-- The party `i` goes on to the phase `p`. -/
def SpinLock.goto (s : SpinLock ι σ) (i : ι) (p : Phase) : SpinLock ι σ :=
  { s with phase := Function.update s.phase i p }

/-- A step of the party `i`, where `work i` is what it does to the data inside. -/
inductive SpinStep (work : ι → σ → σ → Prop) (s : SpinLock ι σ) (i : ι) : SpinLock ι σ → Prop
  | ask (h : s.phase i = .out) : SpinStep work s i (s.goto i (.locking .check))
  | free (h : s.phase i = .locking .check) (hl : s.locked = false) :
      SpinStep work s i (s.goto i (.locking .spin))
  | busy (h : s.phase i = .locking .check) (hl : s.locked = true) :
      SpinStep work s i (s.goto i (.locking .owner))
  | other (h : s.phase i = .locking .owner) (ho : s.owner ≠ some i) :
      SpinStep work s i (s.goto i (.locking .spin))
  | twice (h : s.phase i = .locking .owner) (ho : s.owner = some i) :
      SpinStep work s i (s.goto i .refused)
  | wait (h : s.phase i = .locking .spin) (hl : s.locked = true) : SpinStep work s i s
  | take (h : s.phase i = .locking .spin) (hl : s.locked = false) :
      SpinStep work s i ({ s with locked := true }.goto i (.locking .record))
  | record (h : s.phase i = .locking .record) :
      SpinStep work s i ({ s with owner := some i }.goto i .inside)
  | work {d : σ} (h : s.phase i = .inside) (hw : work i s.data d) : SpinStep work s i { s with data := d }
  | leave (h : s.phase i = .inside) : SpinStep work s i (s.goto i (.unlocking .check))
  | held (h : s.phase i = .unlocking .check) (hl : s.locked = true) :
      SpinStep work s i (s.goto i (.unlocking .owner))
  | unheld (h : s.phase i = .unlocking .check) (hl : s.locked = false) :
      SpinStep work s i (s.goto i .refused)
  | mine (h : s.phase i = .unlocking .owner) (ho : s.owner = some i) :
      SpinStep work s i (s.goto i (.unlocking .clear))
  | theirs (h : s.phase i = .unlocking .owner) (ho : s.owner ≠ some i) :
      SpinStep work s i (s.goto i .refused)
  | clear (h : s.phase i = .unlocking .clear) :
      SpinStep work s i ({ s with owner := none }.goto i (.unlocking .release))
  | release (h : s.phase i = .unlocking .release) :
      SpinStep work s i ({ s with locked := false }.goto i .out)

/-- The fields of the lock say who is where. -/
structure SpinOk (s : SpinLock ι σ) : Prop where
  exclusive : ∀ i j, (s.phase i).Holds → (s.phase j).Holds → i = j
  locked : s.locked = true ↔ ∃ i, (s.phase i).Holds
  owner : ∀ i, s.owner = some i ↔ (s.phase i).Owns
  accepted : ∀ i, s.phase i ≠ .refused

/-- A stay inside, as one step. -/
def Stay (work : ι → σ → σ → Prop) (d : σ) (i : ι) (d' : σ) : Prop := Relation.ReflTransGen (work i) d d'

/-- The data are those after a run of whole stays and, when a party has the lock, a part of its stay. -/
def Serial (init : σ → Prop) (work : ι → σ → σ → Prop) (s : SpinLock ι σ) : Prop :=
  ∃ h d, Run init (Stay work) h d ∧ ((¬∃ i, (s.phase i).Holds) → s.data = d) ∧
    ∀ i, (s.phase i).Holds → Stay work d i s.data

variable {work : ι → σ → σ → Prop} {init : σ → Prop} {s t : SpinLock ι σ} {i j : ι} {p : Phase}

lemma Phase.Owns.holds (h : p.Owns) : p.Holds := by
  cases p with
  | inside => trivial
  | unlocking pc => trivial
  | out => exact h.elim
  | locking pc => exact h.elim
  | refused => exact h.elim

lemma phase_goto_self (s : SpinLock ι σ) (i : ι) (p : Phase) : (s.goto i p).phase i = p :=
  Function.update_self ..

lemma phase_goto_of_ne (h : j ≠ i) (p : Phase) : (s.goto i p).phase j = s.phase j :=
  Function.update_of_ne h ..

lemma holds_goto (h : p.Holds ↔ (s.phase i).Holds) (j : ι) :
    ((s.goto i p).phase j).Holds ↔ (s.phase j).Holds := by
  by_cases hj : j = i
  · rw [hj, phase_goto_self]
    exact h
  · rw [phase_goto_of_ne hj]

namespace SpinOk

/-- A step that moves a party to a phase in which it has as much as before. -/
lemma goto (hs : SpinOk s) (hholds : p.Holds ↔ (s.phase i).Holds) (howns : p.Owns ↔ (s.phase i).Owns)
    (hp : p ≠ .refused) : SpinOk (s.goto i p) := by
  constructor
  · intro j k hj hk
    exact hs.exclusive j k ((holds_goto hholds j).mp hj) ((holds_goto hholds k).mp hk)
  · rw [show (s.goto i p).locked = s.locked from rfl, hs.locked]
    exact exists_congr fun j => (holds_goto hholds j).symm
  · intro j
    rw [show (s.goto i p).owner = s.owner from rfl, hs.owner j]
    by_cases hj : j = i
    · rw [hj, phase_goto_self]
      exact howns.symm
    · rw [phase_goto_of_ne hj]
  · intro j
    by_cases hj : j = i
    · rw [hj, phase_goto_self]
      exact hp
    · rw [phase_goto_of_ne hj]
      exact hs.accepted j

omit [DecidableEq ι] in
lemma locked_of_holds (hs : SpinOk s) (h : (s.phase i).Holds) : s.locked = true := hs.locked.mpr ⟨i, h⟩

omit [DecidableEq ι] in
lemma not_holds (hs : SpinOk s) (hl : s.locked = false) (j : ι) : ¬(s.phase j).Holds := by
  intro hj
  rw [hs.locked_of_holds hj] at hl
  cases hl

omit [DecidableEq ι] in
/-- No other party has the lock. -/
lemma not_holds_of_ne (hs : SpinOk s) (h : (s.phase i).Holds) (hj : j ≠ i) : ¬(s.phase j).Holds :=
  fun hh => hj (hs.exclusive j i hh h)

/-- A step that writes the fields, when no other party has the lock. -/
lemma update (hs : SpinOk s) {locked : Bool} {owner : Option ι} (hother : ∀ j ≠ i, ¬(s.phase j).Holds)
    (hlocked : locked = true ↔ p.Holds) (howner : ∀ j, owner = some j ↔ j = i ∧ p.Owns)
    (hp : p ≠ .refused) : SpinOk ({ s with locked := locked, owner := owner }.goto i p) := by
  have hself := phase_goto_self { s with locked := locked, owner := owner } i p
  have hrest : ∀ j ≠ i, ({ s with locked := locked, owner := owner }.goto i p).phase j = s.phase j :=
    fun j hj => phase_goto_of_ne hj p
  have honly : ∀ j, (({ s with locked := locked, owner := owner }.goto i p).phase j).Holds → j = i ∧ p.Holds := by
    intro j hj
    by_cases hji : j = i
    · rw [hji, hself] at hj
      exact ⟨hji, hj⟩
    · rw [hrest j hji] at hj
      exact absurd hj (hother j hji)
  constructor
  · intro j k hj hk
    rw [(honly j hj).1, (honly k hk).1]
  · change locked = true ↔ _
    rw [hlocked]
    refine ⟨fun h => ⟨i, by rw [hself]; exact h⟩, ?_⟩
    rintro ⟨j, hj⟩
    exact (honly j hj).2
  · intro j
    change owner = some j ↔ _
    rw [howner j]
    constructor
    · rintro ⟨rfl, howns⟩
      rw [hself]
      exact howns
    · intro howns
      obtain ⟨rfl, -⟩ := honly j howns.holds
      rw [hself] at howns
      exact ⟨rfl, howns⟩
  · intro j
    by_cases hj : j = i
    · rw [hj, hself]
      exact hp
    · rw [hrest j hj]
      exact hs.accepted j

lemma step (hs : SpinOk s) (hst : SpinStep work s i t) : SpinOk t := by
  have hothers : (s.phase i).Holds → ∀ j ≠ i, ¬(s.phase j).Holds :=
    fun hself j hj => hs.not_holds_of_ne hself hj
  cases hst with
  | ask h => exact hs.goto (by rw [h]; rfl) (by rw [h]; rfl) (by simp)
  | free h hl => exact hs.goto (by rw [h]; rfl) (by rw [h]; rfl) (by simp)
  | busy h hl => exact hs.goto (by rw [h]; rfl) (by rw [h]; rfl) (by simp)
  | other h ho => exact hs.goto (by rw [h]; rfl) (by rw [h]; rfl) (by simp)
  | twice h ho =>
    have howns := (hs.owner i).mp ho
    rw [h] at howns
    exact howns.elim
  | wait h hl => exact hs
  | take h hl =>
    have hnone := hs.not_holds hl
    refine hs.update (fun j _ => hnone j) (iff_of_true rfl trivial) (fun j => ?_) (by simp)
    refine iff_of_false (fun ho => ?_) (fun hand => hand.2)
    exact hnone j ((hs.owner j).mp ho).holds
  | record h =>
    have hself : (s.phase i).Holds := by
      rw [h]
      trivial
    refine hs.update (hothers hself) (iff_of_true (hs.locked_of_holds hself) trivial) (fun j => ?_) (by simp)
    rw [Option.some.injEq]
    exact ⟨fun heq => ⟨heq.symm, trivial⟩, fun hand => hand.1.symm⟩
  | work h hw => exact ⟨hs.exclusive, hs.locked, hs.owner, hs.accepted⟩
  | leave h => exact hs.goto (by rw [h]; rfl) (by rw [h]; rfl) (by simp)
  | held h hl => exact hs.goto (by rw [h]; rfl) (by rw [h]; rfl) (by simp)
  | unheld h hl =>
    have hself : (s.phase i).Holds := by
      rw [h]
      trivial
    rw [hs.locked_of_holds hself] at hl
    cases hl
  | mine h ho => exact hs.goto (by rw [h]; rfl) (by rw [h]; rfl) (by simp)
  | theirs h ho =>
    refine absurd ((hs.owner i).mpr ?_) ho
    rw [h]
    trivial
  | clear h =>
    have hself : (s.phase i).Holds := by
      rw [h]
      trivial
    refine hs.update (hothers hself) (iff_of_true (hs.locked_of_holds hself) trivial) (fun j => ?_) (by simp)
    exact iff_of_false (by simp) (fun hand => hand.2)
  | release h =>
    have hself : (s.phase i).Holds := by
      rw [h]
      trivial
    refine hs.update (hothers hself) (iff_of_false (by simp) id) (fun j => ?_) (by simp)
    refine iff_of_false (fun ho => ?_) (fun hand => hand.2)
    have howns := (hs.owner j).mp ho
    by_cases hj : j = i
    · rw [hj, h] at howns
      exact howns
    · exact hothers hself j hj howns.holds

end SpinOk

/-! ### Whole stays -/

omit [DecidableEq ι] in
lemma Serial.start (hinit : init s.data) (hnone : ∀ i, ¬(s.phase i).Holds) : Serial init work s :=
  ⟨[], s.data, .start hinit, fun _ => rfl, fun i hi => absurd hi (hnone i)⟩

namespace Serial

omit [DecidableEq ι] in
/-- A step that leaves the data alone, and who has the lock. -/
lemma same (h : Serial init work s) (hdata : t.data = s.data)
    (hholds : ∀ j, (t.phase j).Holds ↔ (s.phase j).Holds) : Serial init work t := by
  obtain ⟨l, d, hr, hnone, hsome⟩ := h
  refine ⟨l, d, hr, fun hno => ?_, fun i hi => ?_⟩
  · rw [hdata]
    exact hnone (fun ⟨j, hj⟩ => hno ⟨j, (hholds j).mpr hj⟩)
  · rw [hdata]
    exact hsome i ((hholds i).mp hi)

lemma step (h : Serial init work s) (hs : SpinOk s) (hst : SpinStep work s i t) : Serial init work t := by
  have hgoto : ∀ {p : Phase}, (p.Holds ↔ (s.phase i).Holds) → Serial init work (s.goto i p) :=
    fun hp => h.same rfl (holds_goto hp)
  cases hst with
  | ask h => exact hgoto (by rw [h]; rfl)
  | free h hl => exact hgoto (by rw [h]; rfl)
  | busy h hl => exact hgoto (by rw [h]; rfl)
  | other h ho => exact hgoto (by rw [h]; rfl)
  | twice h ho => exact hgoto (by rw [h]; rfl)
  | wait hp hl => exact h
  | take hp hl =>
    obtain ⟨l, d, hr, hnone, -⟩ := h
    have hdata := hnone (fun ⟨j, hj⟩ => hs.not_holds hl j hj)
    refine ⟨l, d, hr, fun hno => ?_, fun j _ => ?_⟩
    · refine absurd ⟨i, ?_⟩ hno
      rw [phase_goto_self]
      trivial
    · rw [show (({ s with locked := true } : SpinLock ι σ).goto i (.locking .record)).data = d from hdata]
      exact .refl
  | record hp =>
    exact h.same rfl (holds_goto (s := { s with owner := some i }) (by change _ ↔ (s.phase i).Holds; rw [hp]; rfl))
  | work hp hw =>
    obtain ⟨l, d, hr, -, hsome⟩ := h
    have hself : (s.phase i).Holds := by
      rw [hp]
      trivial
    refine ⟨l, d, hr, fun hno => absurd ⟨i, hself⟩ hno, fun j hj => ?_⟩
    obtain rfl := hs.exclusive j i hj hself
    exact (hsome j hself).tail hw
  | leave h => exact hgoto (by rw [h]; rfl)
  | held h hl => exact hgoto (by rw [h]; rfl)
  | unheld hp hl =>
    have hself : (s.phase i).Holds := by
      rw [hp]
      trivial
    rw [hs.locked_of_holds hself] at hl
    cases hl
  | mine h ho => exact hgoto (by rw [h]; rfl)
  | theirs hp ho =>
    refine absurd ((hs.owner i).mpr ?_) ho
    rw [hp]
    trivial
  | clear hp =>
    exact h.same rfl (holds_goto (s := { s with owner := none }) (by change _ ↔ (s.phase i).Holds; rw [hp]; rfl))
  | release hp =>
    obtain ⟨l, d, hr, -, hsome⟩ := h
    have hself : (s.phase i).Holds := by
      rw [hp]
      trivial
    refine ⟨_, s.data, hr.next (hsome i hself), fun _ => rfl, fun j hj => ?_⟩
    by_cases hji : j = i
    · rw [hji, phase_goto_self] at hj
      exact hj.elim
    · rw [phase_goto_of_ne hji] at hj
      exact absurd hj (hs.not_holds_of_ne hself hji)

end Serial

end SpinLock

end SistemasOperativos.Library
