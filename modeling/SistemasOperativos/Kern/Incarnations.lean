import SistemasOperativos.Kern.KernelRuns

/-!
# Incarnations

A slot of `envs` is used by one environment after another. Runs of `env_alloc` and `env_free`,
with anything between them that leaves the slots alone: which ids are issued, and which
incarnation of a slot `envid2env` finds by an id.
-/

namespace SistemasOperativos.Kern

open Library

/-! ### The ids of a slot -/

/-- The id that slot `e` is given for the `n`th time. -/
def issuedId (e : EnvIdx) : ℕ → Word
  | 0 => 0
  | n + 1 => nextEnvId (issuedId e n) e

/-- The number of ids of one slot. -/
def generations : ℕ := 2 ^ 19 - 1

lemma and_not_index (w : Word) : (w &&& ~~~(0x3ff : Word)).toNat = w.toNat - w.toNat % 1024 := by
  have hmod : (w &&& 0x3ff).toNat = w.toNat % 1024 := by
    rw [BitVec.toNat_and]
    exact Nat.and_two_pow_sub_one_eq_mod w.toNat 10
  have hsplit : (w &&& ~~~(0x3ff : Word)) + (w &&& 0x3ff) = w := by
    rw [BitVec.add_eq_or_of_and_eq_zero]
    · ext i hi
      simp only [BitVec.getElem_or, BitVec.getElem_and, BitVec.getElem_not]
      cases w[i] <;> simp
    · ext i hi
      simp only [BitVec.getElem_and, BitVec.getElem_not]
      cases w[i] <;> simp
  have hle : w &&& 0x3ff ≤ w := by
    rw [BitVec.le_def, hmod]
    exact Nat.mod_le _ _
  rw [BitVec.eq_sub_iff_add_eq.mpr hsplit, BitVec.toNat_sub_of_le hle, hmod]

/-- The slot is added to a generation. -/
lemma or_index (g : Word) (e : EnvIdx) (hg : g.toNat % 1024 = 0) :
    (g ||| BitVec.ofNat 32 e).toNat = g.toNat + e := by
  have he := e.isLt
  rw [BitVec.toNat_or, BitVec.toNat_ofNat, Nat.mod_eq_of_lt (by omega)]
  have hdiv : g.toNat = 2 ^ 10 * (g.toNat / 1024) := by omega
  rw [hdiv, ← Nat.two_pow_add_eq_or_of_lt he]

/-- One generation after another. -/
lemma nextEnvId_toNat {w : Word} {e : EnvIdx} {k : ℕ} (hk : k ≤ generations)
    (hw : w.toNat / 1024 * 1024 = 0x1000 * k) :
    (nextEnvId w e).toNat = 0x1000 * (k % generations + 1) + e := by
  unfold generations at hk ⊢
  have hadd : (w + 0x1000).toNat = w.toNat + 0x1000 := by
    rw [BitVec.toNat_add]
    show (w.toNat + 4096) % 2 ^ 32 = _
    omega
  have hgen : ((w + 0x1000) &&& ~~~(0x3ff : Word)).toNat = 0x1000 * (k + 1) := by
    rw [and_not_index, hadd]
    omega
  unfold nextEnvId
  dsimp only
  by_cases hlast : k = 2 ^ 19 - 1
  · have hle : ((w + 0x1000) &&& ~~~(0x3ff : Word)).sle 0 = true := by
      rw [BitVec.sle_eq_decide, BitVec.toInt_eq_toNat_cond, hgen, hlast]
      decide
    rw [if_pos hle, or_index _ _ (by decide), hlast]
    show 0x1000 + e.val = _
    omega
  · have hle : ((w + 0x1000) &&& ~~~(0x3ff : Word)).sle 0 = false := by
      rw [BitVec.sle_eq_decide, BitVec.toInt_eq_toNat_cond, hgen, if_pos (by omega)]
      simp
    rw [if_neg (by rw [hle]; decide), or_index _ _ (by rw [hgen]; omega), hgen,
      Nat.mod_eq_of_lt (by omega)]

lemma issuedId_toNat (e : EnvIdx) (n : ℕ) :
    (issuedId e (n + 1)).toNat = 0x1000 * (n % generations + 1) + e := by
  have he := e.isLt
  induction n with
  | zero => exact nextEnvId_toNat (k := 0) (by decide) (by simp [issuedId])
  | succ n ih =>
    have hlt : n % generations < generations := Nat.mod_lt _ (by decide)
    have hw : (issuedId e (n + 1)).toNat / 1024 * 1024 = 0x1000 * (n % generations + 1) := by
      rw [ih]
      omega
    rw [issuedId, nextEnvId_toNat (by omega) hw, Nat.mod_add_mod]

/-- An issued id is positive and carries its slot. -/
lemma issuedId_pos (e : EnvIdx) (n : ℕ) :
    0 < (issuedId e (n + 1)).toInt ∧ envx (issuedId e (n + 1)) = e := by
  have hlt : n % generations < generations := Nat.mod_lt _ (by decide)
  have hgen : generations = 2 ^ 19 - 1 := rfl
  have he := e.isLt
  have hid := issuedId_toNat e n
  constructor
  · rw [BitVec.toInt_eq_toNat_of_lt (by omega), hid]
    omega
  · apply Fin.ext
    show (issuedId e (n + 1)).toNat % 1024 = e
    omega

/-- The ids of a slot repeat only after `generations` allocations. -/
lemma issuedId_inj {e : EnvIdx} {n m : ℕ} (h : issuedId e (n + 1) = issuedId e (n + 1 + m))
    (hm : m < generations) : m = 0 := by
  have hid := congrArg BitVec.toNat h
  rw [show n + 1 + m = (n + m) + 1 by omega, issuedId_toNat, issuedId_toNat] at hid
  have hmod : n % generations = (n + m) % generations := by omega
  unfold generations at hmod hm
  omega

/-! ### Runs of `env_alloc` and `env_free` -/

inductive EnvEvent
  | alloc (creator : Option EnvIdx) (e : EnvIdx)
  | noAlloc (creator : Option EnvIdx)
  | free (cpu : Cpu) (e : EnvIdx)
  | other

def EnvEvent.allocates (e : EnvIdx) : EnvEvent → Bool
  | .alloc _ j => j = e
  | _ => false

def EnvEvent.frees (e : EnvIdx) : EnvEvent → Bool
  | .free _ j => j = e
  | _ => false

/-- What is not done by `env_alloc` or `env_free`. -/
structure SameSlots (s t : Kernel) : Prop where
  envFreeList : t.envFreeList = s.envFreeList
  envLink : ∀ e, (t.envs e).envLink = (s.envs e).envLink
  envPgdir : ∀ e, (t.envs e).envPgdir = (s.envs e).envPgdir
  free : ∀ e, (t.envs e).envStatus = .free ↔ (s.envs e).envStatus = .free
  envId : ∀ e, (t.envs e).envId = (s.envs e).envId
  envParentId : ∀ e, (t.envs e).envParentId = (s.envs e).envParentId

/-- The `parent_id` that `env_create` and `sys_exofork` pass to `env_alloc`. -/
def Kernel.creatorId (s : Kernel) : Option EnvIdx → Word
  | none => 0
  | some c => (s.envs c).envId

inductive EnvStep (s : Kernel) : EnvEvent → Kernel → Prop
  | alloc {creator : Option EnvIdx} {e : EnvIdx} {t : Kernel}
      (hc : ∀ c, creator = some c → (s.envs c).envStatus ≠ .free)
      (h : envAlloc (s.creatorId creator) s = .ok (.ok e) t) : EnvStep s (.alloc creator e) t
  | noAlloc {creator : Option EnvIdx} {code : Word} {t : Kernel}
      (h : envAlloc (s.creatorId creator) s = .ok (.error code) t) :
      EnvStep s (.noAlloc creator) t
  | free {cpu : Cpu} {e : EnvIdx} {t : Kernel} (h : envFree cpu e s = .ok () t) :
      EnvStep s (.free cpu e) t
  | other {t : Kernel} (h : SameSlots s t) : EnvStep s .other t

/-- Runs from the state in which `env_init` leaves the slots. -/
abbrev EnvRuns (B : Boot) : List (Move Kernel EnvEvent) → Kernel → Prop :=
  Run (fun s => s = Kernel.boot B) EnvStep

/-- The number of times slot `e` has been allocated. -/
def allocs (e : EnvIdx) (h : List (Move Kernel EnvEvent)) : ℕ :=
  h.countP fun m => m.label.allocates e

/-- An incarnation of slot `e` is alive until a step frees it. -/
def AliveAfter (h : List (Move Kernel EnvEvent)) (e : EnvIdx) : Prop :=
  ∀ m ∈ h, m.label.frees e = false

/-- `m`, a step of `h` that comes before the steps `h₂`, begins an incarnation of slot `e` made
by `creator`. -/
structure Begins (h h₁ : List (Move Kernel EnvEvent)) (m : Move Kernel EnvEvent)
    (h₂ : List (Move Kernel EnvEvent)) (creator : Option EnvIdx) (e : EnvIdx) : Prop where
  split : h = h₁ ++ m :: h₂
  label : m.label = .alloc creator e

/-- What holds of the ids in a run `h` to `s`. -/
structure IdsOk (h : List (Move Kernel EnvEvent)) (s : Kernel) : Prop where
  positive : ∀ h₁ m h₂ p e, Begins h h₁ m h₂ p e →
    0 < (m.post.envs e).envId.toInt ∧ envx (m.post.envs e).envId = e
  distinct : ∀ e j, (s.envs e).envStatus ≠ .free → (s.envs j).envStatus ≠ .free →
    (s.envs e).envId = (s.envs j).envId → e = j
  /-- an id is not issued again by the next `2 ^ 19 - 2` allocations of its slot -/
  fresh : ∀ h₁ m h₂ m' h₃ p p' e, Begins h h₁ m (h₂ ++ m' :: h₃) p e →
    m'.label = .alloc p' e → allocs e h₂ < 2 ^ 19 - 2 →
    (m'.post.envs e).envId ≠ (m.post.envs e).envId
  /-- an id finds the incarnation it was issued for, while it is alive -/
  found : ∀ h₁ m h₂ p e, Begins h h₁ m h₂ p e → allocs e h₂ ≤ 2 ^ 19 - 2 → ∀ cpu j,
    envid2env cpu (m.post.envs e).envId false s = .ok (some j) s ↔ j = e ∧ AliveAfter h₂ e
  /-- an id that has not been issued finds nothing -/
  issued : ∀ cpu id j, id ≠ 0 → envid2env cpu id false s = .ok (some j) s →
    ∃ h₁ m h₂ p, Begins h h₁ m h₂ p j ∧ id = (m.post.envs j).envId
  /-- with `checkperm` it finds the caller and what this incarnation of the caller has made -/
  permitted : ∀ cpu c id j, (s.cpus cpu).cpuEnv = some c → (s.envs c).envStatus ≠ .free →
    id ≠ 0 → envid2env cpu id true s = .ok (some j) s → j = c ∨
      ∃ h₁ m h₂ p, Begins h h₁ m h₂ p j ∧ id = (m.post.envs j).envId ∧ AliveAfter h₂ j ∧
        (allocs c h₂ ≤ 2 ^ 19 - 2 → p = some c ∧ AliveAfter h₂ c)

variable {B : Boot} {s t : Kernel} {cpu : Cpu} {c e j : EnvIdx} {ev : EnvEvent}
  {p : Option EnvIdx} {h h₁ h₂ : List (Move Kernel EnvEvent)} {m : Move Kernel EnvEvent}

/-- What a step does to slot `e`. -/
inductive SlotStep (s : Kernel) (ev : EnvEvent) (t : Kernel) (e : EnvIdx) : Prop
  | born {p : Option EnvIdx} (hev : ev = .alloc p e)
      (hp : ∀ c, p = some c → (s.envs c).envStatus ≠ .free)
      (hfree : (s.envs e).envStatus = .free) (hlive : (t.envs e).envStatus ≠ .free)
      (hid : (t.envs e).envId = nextEnvId (s.envs e).envId e)
      (hparent : (t.envs e).envParentId = s.creatorId p)
  | died {cpu : Cpu} (hev : ev = .free cpu e) (hfree : (t.envs e).envStatus = .free)
      (hid : (t.envs e).envId = (s.envs e).envId)
  | kept (ha : ev.allocates e = false) (hf : ev.frees e = false)
      (hst : (t.envs e).envStatus = .free ↔ (s.envs e).envStatus = .free)
      (hid : (t.envs e).envId = (s.envs e).envId)
      (hparent : (t.envs e).envParentId = (s.envs e).envParentId)

lemma EnvStep.slots (hs : SlotsIn s) (h : EnvStep s ev t) :
    SlotsIn t ∧ ∀ e, SlotStep s ev t e := by
  cases h with
  | @alloc p e _ hc h =>
    obtain ⟨hfl, pm, d, rfl⟩ := (envAlloc_rule s _).of_ok h
    obtain ⟨hfree, hslots⟩ := hs.allocated hfl (s.creatorId p) d pm
    refine ⟨hslots, fun j => ?_⟩
    by_cases hj : j = e
    · subst hj
      have hself : (s.allocated j (s.creatorId p) d pm).envs j =
          freshEnv (s.envs j) j (s.creatorId p) d := Function.update_self ..
      apply SlotStep.born rfl hc hfree
      · rw [hself]
        exact fun hcon => by cases hcon
      · rw [hself]
        rfl
      · rw [hself]
        rfl
    · have hother : (s.allocated e (s.creatorId p) d pm).envs j = s.envs j :=
        Function.update_of_ne hj ..
      apply SlotStep.kept
      · simp [EnvEvent.allocates, Ne.symm hj]
      · rfl
      all_goals rw [hother]
  | noAlloc h =>
    obtain ⟨-, pm, rfl⟩ := (envAlloc_rule s _).of_ok h
    exact ⟨⟨hs.list, hs.pgdir⟩, fun j => .kept rfl rfl Iff.rfl rfl rfl⟩
  | @free cpu e _ h =>
    obtain ⟨hpg, pm, rfl⟩ := (envFree_rule s cpu e).of_ok h
    have hlive : (s.envs e).envStatus ≠ .free := fun hf => hpg ((hs.pgdir e).mpr hf)
    refine ⟨hs.freed hlive cpu pm, fun j => ?_⟩
    by_cases hj : j = e
    · subst hj
      have hself : (s.freed cpu j pm).envs j = freedEnv (s.envs j) s.envFreeList :=
        Function.update_self ..
      apply SlotStep.died rfl
      · rw [hself]
        rfl
      · rw [hself]
        rfl
    · have hother : (s.freed cpu e pm).envs j = s.envs j := Function.update_of_ne hj ..
      apply SlotStep.kept
      · rfl
      · simp [EnvEvent.frees, Ne.symm hj]
      all_goals rw [hother]
  | other h =>
    refine ⟨⟨?_, ?_⟩, fun j => .kept rfl rfl (h.free j) (h.envId j) (h.envParentId j)⟩
    · obtain ⟨l, hlk, hnd, hmem⟩ := hs.list
      refine ⟨l, ?_, hnd, fun j => (hmem j).trans (h.free j).symm⟩
      rw [h.envFreeList]
      exact hlk.congr (fun j _ => h.envLink j)
    · intro j
      rw [h.envPgdir, h.free]
      exact hs.pgdir j

lemma allocs_append (e : EnvIdx) (h h' : List (Move Kernel EnvEvent)) :
    allocs e (h ++ h') = allocs e h + allocs e h' := List.countP_append

lemma allocs_cons (e : EnvIdx) (m : Move Kernel EnvEvent) (h : List (Move Kernel EnvEvent)) :
    allocs e (m :: h) = allocs e h + if m.label.allocates e then 1 else 0 := List.countP_cons

/-- The slots and their ids in every state of a run. -/
lemma slots_of_run (hr : EnvRuns B h s) :
    SlotsIn s ∧ ∀ e, (s.envs e).envId = issuedId e (allocs e h) := by
  apply hr.induct (G := fun _ _ => True) (fun _ _ => trivial)
    (fun h s => SlotsIn s ∧ ∀ e, (s.envs e).envId = issuedId e (allocs e h))
  · rintro s rfl
    exact ⟨(EnvsIn.boot B).slots, fun e => rfl⟩
  · intro h s ev t ⟨hslots, hid⟩ _ hst
    obtain ⟨hslots', hstep⟩ := hst.slots hslots
    refine ⟨hslots', fun e => ?_⟩
    rw [allocs_append, allocs_cons]
    cases hstep e with
    | born hev _ _ _ hid' =>
      have ha : ev.allocates e = true := by simp [hev, EnvEvent.allocates]
      rw [hid', hid e, if_pos ha]
      rfl
    | died hev _ hid' =>
      rw [hid', hid e, hev]
      rfl
    | kept ha _ _ hid' =>
      rw [hid', hid e, ha]
      rfl

/-- Every step of a run is one of its slots. -/
lemma slotStep_of_mem (hr : EnvRuns B h s) (hm : m ∈ h) (e : EnvIdx) :
    SlotStep m.pre m.label m.post e := by
  obtain ⟨⟨h', -, hr'⟩, hst⟩ := hr.mem hm
  exact (hst.slots (slots_of_run hr').1).2 e

lemma allocates_iff : ev.allocates e = true ↔ ∃ p, ev = .alloc p e := by
  cases ev with
  | alloc p j =>
    constructor
    · intro ha
      obtain rfl := of_decide_eq_true ha
      exact ⟨p, rfl⟩
    · rintro ⟨q, hq⟩
      cases hq
      exact decide_eq_true rfl
  | _ => simp [EnvEvent.allocates]

/-- A live environment is an incarnation that has not been freed. -/
lemma begins_of_live (hr : EnvRuns B h s) (hlive : (s.envs e).envStatus ≠ .free) :
    ∃ h₁ m h₂ p, Begins h h₁ m h₂ p e ∧ AliveAfter h₂ e := by
  have hopen := hr.open_iff (P := fun s => (s.envs e).envStatus ≠ .free)
    (O := fun m => m.label.allocates e = true) (C := fun m => m.label.frees e = true)
    ?_ ?_ ?_ ?_
  · obtain ⟨h₁, m, h₂, heq, ha, hsince⟩ := hopen.mp hlive
    obtain ⟨p, hp⟩ := allocates_iff.mp ha
    exact ⟨h₁, m, h₂, p, ⟨heq, hp⟩, fun x hx => Bool.eq_false_iff.mpr (hsince x hx)⟩
  · rintro s rfl hcon
    exact hcon rfl
  · intro m hm ha
    cases slotStep_of_mem hr hm e with
    | born _ _ _ hlive' => exact hlive'
    | died hev => simp [hev, EnvEvent.allocates] at ha
    | kept ha' => simp [ha'] at ha
  · intro m hm hf
    cases slotStep_of_mem hr hm e with
    | born hev => simp [hev, EnvEvent.frees] at hf
    | died _ hfree => exact fun hcon => hcon hfree
    | kept _ hf' => simp [hf'] at hf
  · intro m hm ha hf
    cases slotStep_of_mem hr hm e with
    | born hev => simp [hev, EnvEvent.allocates] at ha
    | died hev => simp [hev, EnvEvent.frees] at hf
    | kept _ _ hst => exact not_congr hst

section Begins

variable (hr : EnvRuns B h s) (hb : Begins h h₁ m h₂ p e)
include hr hb

/-- The first step of an incarnation. -/
lemma Begins.born : (∀ c, p = some c → (m.pre.envs c).envStatus ≠ .free) ∧
    (m.post.envs e).envStatus ≠ .free ∧
    (m.post.envs e).envId = issuedId e (allocs e h₁ + 1) ∧
    (m.post.envs e).envParentId = m.pre.creatorId p := by
  obtain ⟨rfl, hlabel⟩ := hb
  have hids := (slots_of_run hr.split.1).2 e
  cases slotStep_of_mem hr (m := m) (by simp) e with
  | born hev hp hfree hlive hid hparent =>
    cases hlabel.symm.trans hev
    refine ⟨hp, hlive, ?_, hparent⟩
    rw [hid, hids]
    rfl
  | died hev => cases hlabel.symm.trans hev
  | kept ha => simp [hlabel, EnvEvent.allocates] at ha

/-- While it is alive it keeps its id and its parent. -/
lemma Begins.alive (ha : AliveAfter h₂ e) : (s.envs e).envStatus ≠ .free ∧
    (s.envs e).envId = (m.post.envs e).envId ∧
    (s.envs e).envParentId = (m.post.envs e).envParentId := by
  obtain ⟨-, hlive, -, -⟩ := hb.born hr
  obtain ⟨rfl, hlabel⟩ := hb
  apply Run.since (fun s => (s.envs e).envStatus ≠ .free ∧
    (s.envs e).envId = (m.post.envs e).envId ∧
    (s.envs e).envParentId = (m.post.envs e).envParentId) hr ⟨hlive, rfl, rfl⟩
  rintro x hx ⟨hpre, hid, hparent⟩
  cases slotStep_of_mem hr (m := x) (by simp [hx]) e with
  | born _ _ hfree => exact absurd hfree hpre
  | died hev =>
    have hf := ha x hx
    simp [hev, EnvEvent.frees] at hf
  | kept _ _ hst hid' hparent' =>
    exact ⟨fun hf => hpre (hst.mp hf), hid'.trans hid, hparent'.trans hparent⟩

omit hb in
/-- A slot that is live and has not been allocated since has not been freed. -/
lemma aliveAfter_of_allocs (heq : h = h₁ ++ m :: h₂) (hlive : (s.envs e).envStatus ≠ .free)
    (h0 : allocs e h₂ = 0) : AliveAfter h₂ e := by
  subst heq
  intro x hx
  by_contra hfrees
  rw [Bool.not_eq_false] at hfrees
  obtain ⟨l₁, l₂, rfl⟩ := List.append_of_mem hx
  apply hlive
  rw [← List.cons_append, ← List.append_assoc] at hr
  apply Run.since (fun s => (s.envs e).envStatus = .free) hr
  · cases slotStep_of_mem hr (m := x) (by simp) e with
    | born hev => simp [hev, EnvEvent.frees] at hfrees
    | died _ hfree => exact hfree
    | kept _ hf => simp [hf] at hfrees
  · intro y hy hfree
    have ha : y.label.allocates e = false := by
      rw [allocs_append, allocs_cons] at h0
      have h0' : allocs e l₂ = 0 := by omega
      exact Bool.eq_false_iff.mpr (List.countP_eq_zero.mp h0' y hy)
    cases slotStep_of_mem hr (m := y) (by simp [hy]) e with
    | born hev => simp [hev, EnvEvent.allocates] at ha
    | died _ hfree' => exact hfree'
    | kept _ _ hst => exact hst.mpr hfree

end Begins

/-- The `n`th id of a slot and the one it is given after `allocs e h₂` more. -/
lemma Begins.ids (hr : EnvRuns B h s) (hb : Begins h h₁ m h₂ p e) :
    (m.post.envs e).envId = issuedId e (allocs e h₁ + 1) ∧
    (s.envs e).envId = issuedId e (allocs e h₁ + 1 + allocs e h₂) := by
  obtain ⟨-, -, hid, -⟩ := hb.born hr
  refine ⟨hid, ?_⟩
  have ha : m.label.allocates e = true := allocates_iff.mpr ⟨p, hb.label⟩
  rw [(slots_of_run hr).2 e, hb.split, allocs_append, allocs_cons, if_pos ha]
  congr 1
  omega

/-- The id of a live environment is positive and carries its slot. -/
lemma live_id (hr : EnvRuns B h s) (hlive : (s.envs e).envStatus ≠ .free) :
    0 < (s.envs e).envId.toInt ∧ envx (s.envs e).envId = e := by
  obtain ⟨h₁, m, h₂, p, hb, -⟩ := begins_of_live hr hlive
  have hid := (hb.ids hr).2
  rw [Nat.add_right_comm] at hid
  rw [hid]
  exact issuedId_pos e _

/-- What `envid2env` finds by an id. -/
lemma envid2env_found {id : Word} (h0 : id ≠ 0) :
    envid2env cpu id false s = .ok (some j) s ↔
      j = envx id ∧ (s.envs j).envStatus ≠ .free ∧ (s.envs j).envId = id := by
  have hval : envid2env cpu id false s = .ok (if (s.envs (envx id)).envStatus = .free ∨
      (s.envs (envx id)).envId ≠ id then none else some (envx id)) s := by
    apply sat_eq_ok
    unfold envid2env
    simp only [if_neg h0, sat_bind, sat_get]
    by_cases hbad : (s.envs (envx id)).envStatus = .free ∨ (s.envs (envx id)).envId ≠ id
    · simp only [if_pos hbad, sat_pure, and_self]
    · simp only [if_neg hbad, Bool.false_eq_true, if_false, sat_pure, and_self]
  rw [hval]
  constructor
  · intro h
    split at h
    · cases h
    · rename_i hn
      cases h
      rw [not_or, not_not] at hn
      exact ⟨rfl, hn.1, hn.2⟩
  · rintro ⟨rfl, hlive, hid⟩
    rw [if_neg (by simp [hlive, hid])]

lemma envid2env_permitted {id : Word} (hc : (s.cpus cpu).cpuEnv = some c) (h0 : id ≠ 0)
    (h : envid2env cpu id true s = .ok (some j) s) :
    envid2env cpu id false s = .ok (some j) s ∧
      (j = c ∨ (s.envs j).envParentId = (s.envs c).envId) := by
  have hj : envOf s c id true = some j := by
    have hsat : Sat (envid2env cpu id true) s (fun r _ => envOf s c id true = r)
        (fun _ _ => True) := (sat_envid2env hc).mpr rfl
    exact hsat.of_ok h
  refine ⟨(envid2env_found h0).mpr ?_, envOf_perm hj⟩
  obtain rfl := envOf_envx h0 hj
  refine ⟨rfl, ?_⟩
  unfold envOf at hj
  rw [if_neg h0] at hj
  split at hj
  · cases hj
  · rename_i hn
    rw [not_or, not_not] at hn
    exact hn

/-- Which ids are issued in a run, and what they find. -/
theorem ids_of_run (hr : EnvRuns B h s) : IdsOk h s := by
  have hpos : ∀ h₁ m h₂ p e, Begins h h₁ m h₂ p e →
      0 < (m.post.envs e).envId.toInt ∧ envx (m.post.envs e).envId = e := by
    intro h₁ m h₂ p e hb
    rw [(hb.ids hr).1]
    exact issuedId_pos e _
  have hne : ∀ h₁ m h₂ p e, Begins h h₁ m h₂ p e → (m.post.envs e).envId ≠ 0 := by
    intro h₁ m h₂ p e hb h0
    have hlt := (hpos h₁ m h₂ p e hb).1
    rw [h0] at hlt
    exact absurd hlt (by decide)
  refine ⟨hpos, ?_, ?_, ?_, ?_, ?_⟩
  · intro e j he hj hid
    rw [← (live_id hr he).2, hid, (live_id hr hj).2]
  · intro h₁ m h₂ m' h₃ p p' e hb hlabel hbound heq
    have hb' : Begins h (h₁ ++ m :: h₂) m' h₃ p' e := by
      refine ⟨?_, hlabel⟩
      rw [hb.split, List.append_assoc, List.cons_append]
    have ha : m.label.allocates e = true := allocates_iff.mpr ⟨p, hb.label⟩
    rw [(hb.ids hr).1, (hb'.ids hr).1, allocs_append, allocs_cons, if_pos ha] at heq
    have hinj : allocs e h₂ + 1 = 0 := by
      apply issuedId_inj (e := e) (n := allocs e h₁)
      · rw [← heq]
        congr 1
        omega
      · unfold generations
        omega
    omega
  · intro h₁ m h₂ p e hb hbound cpu j
    rw [envid2env_found (hne _ _ _ _ _ hb), (hpos _ _ _ _ _ hb).2]
    constructor
    · rintro ⟨rfl, hlive, hid⟩
      refine ⟨rfl, aliveAfter_of_allocs hr hb.split hlive ?_⟩
      rw [(hb.ids hr).1, (hb.ids hr).2] at hid
      apply issuedId_inj hid.symm
      unfold generations
      omega
    · rintro ⟨rfl, halive⟩
      obtain ⟨hlive, hid, -⟩ := hb.alive hr halive
      exact ⟨rfl, hlive, hid⟩
  · intro cpu id j h0 hfound
    obtain ⟨-, hlive, hid⟩ := (envid2env_found h0).mp hfound
    obtain ⟨h₁, m, h₂, p, hb, halive⟩ := begins_of_live hr hlive
    exact ⟨h₁, m, h₂, p, hb, hid.symm.trans (hb.alive hr halive).2.1⟩
  · intro cpu c id j hcur hlive h0 hfound
    obtain ⟨hany, hperm⟩ := envid2env_permitted hcur h0 hfound
    by_cases hjc : j = c
    · exact Or.inl hjc
    right
    have hparent := hperm.resolve_left hjc
    obtain ⟨-, hjlive, hid⟩ := (envid2env_found h0).mp hany
    obtain ⟨h₁, m, h₂, p, hb, halive⟩ := begins_of_live hr hjlive
    obtain ⟨-, hid', hparent'⟩ := hb.alive hr halive
    obtain ⟨hplive, -, -, hmade⟩ := hb.born hr
    refine ⟨h₁, m, h₂, p, hb, hid.symm.trans hid', halive, fun hbound => ?_⟩
    have hcid : (s.envs c).envId = m.pre.creatorId p := by
      rw [← hmade, ← hparent', hparent]
    obtain ⟨hcpos, hcx⟩ := live_id hr hlive
    cases p with
    | none =>
      rw [hcid] at hcpos
      exact absurd hcpos (by show ¬ 0 < (0 : Word).toInt; decide)
    | some d =>
      -- the creator was alive, so its id carries its slot too
      have hsplit := hb.split
      have hr' : EnvRuns B h₁ m.pre := by
        rw [hsplit] at hr
        exact hr.split.1
      have hcid' : (s.envs c).envId = (m.pre.envs d).envId := hcid
      obtain rfl : d = c := by
        rw [← hcx, hcid', (live_id hr' (hplive d rfl)).2]
      refine ⟨rfl, aliveAfter_of_allocs hr hsplit hlive ?_⟩
      obtain ⟨h₁', m', h₂', p', hb', -⟩ := begins_of_live hr' (hplive d rfl)
      have hids := (hb'.ids hr').2
      have hfirst : m.label.allocates d = false := by
        rw [hb.label]
        exact decide_eq_false hjc
      rw [hids, (slots_of_run hr).2 d, hsplit, allocs_append, allocs_cons, hfirst, hb'.split,
        allocs_append, allocs_cons, allocates_iff.mpr ⟨p', hb'.label⟩] at hcid'
      apply issuedId_inj (e := d) (n := allocs d h₁' + allocs d h₂')
      · have hleft : allocs d h₁' + allocs d h₂' + 1 = allocs d h₁' + 1 + allocs d h₂' := by omega
        rw [hleft, ← hcid']
        congr 1
        simp only [if_true, Bool.false_eq_true, if_false]
        omega
      · unfold generations
        omega

/-- The small machine with one environment in slot 0. -/
def slotFirst : Kernel := after (envAlloc 0) (Kernel.boot smallBoot)

/-- Its child in slot 1. -/
def slotChild : Kernel := after (envAlloc (slotFirst.creatorId (some 0))) slotFirst

def slotFreed : Kernel := after (envFree 0 1) slotChild

/-- Another child in the same slot. -/
def slotReused : Kernel := after (envAlloc (slotFreed.creatorId (some 0))) slotFreed

theorem ids_of_run_reused : ∃ h, EnvRuns smallBoot h slotReused ∧ IdsOk h slotReused ∧
    (slotReused.envs 1).envId = 0x2001 := by
  have hlive : ∀ (s : Kernel), (s.envs 0).envStatus ≠ .free →
      ∀ c, some 0 = some c → (s.envs c).envStatus ≠ .free := by
    intro s hs c hc
    obtain rfl := Option.some.inj hc
    exact hs
  have hfirst : EnvRuns smallBoot _ slotFirst := .next (.start rfl) (i := .alloc none 0)
    (.alloc (fun c hc => by cases hc) (eq_ok_of_resultOf (by decide +kernel)))
  have hchild : EnvRuns smallBoot _ slotChild := .next hfirst (i := .alloc (some 0) 1)
    (.alloc (hlive slotFirst (by decide +kernel)) (eq_ok_of_resultOf (by decide +kernel)))
  have hfreed : EnvRuns smallBoot _ slotFreed := .next hchild (i := .free 0 1)
    (.free (eq_ok_of_resultOf (by decide +kernel)))
  have hreused : EnvRuns smallBoot _ slotReused := .next hfreed (i := .alloc (some 0) 1)
    (.alloc (hlive slotFreed (by decide +kernel)) (eq_ok_of_resultOf (by decide +kernel)))
  exact ⟨_, hreused, ids_of_run hreused, by decide +kernel⟩

end SistemasOperativos.Kern
