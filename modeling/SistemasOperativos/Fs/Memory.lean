import SistemasOperativos.Fs.Files

/-!
# Servers with enough memory

A server that has the whole cache mapped and one page to spare is never refused a page.
-/

namespace SistemasOperativos.Fs

open Library Kern

/-- Every block is mapped, and there is a page for an indirect block. -/
def Ample (s : Fs) : Prop := (∀ b, (s.cache.pages b).isSome) ∧ s.frames ≠ 0

/-- An exit that is not for want of memory. -/
def NotMem (e : FsExit) (_ : Fs) : Prop := e ≠ .noMem

/-- Nothing in `f` runs out of memory. -/
abbrev NeedsNone {α : Type} (f : FsM α) : Prop := Keeps Ample NotMem f

variable {α : Type} {s : Fs} {a b f n : ℕ} {w : Word}

lemma touchWith_needsNone (fuel b : ℕ) : NeedsNone (touchWith fuel b) := by
  intro s hs
  cases hpage : s.cache.pages b with
  | none =>
    have hmap := hs.1 b
    rw [hpage] at hmap
    cases hmap
  | some p =>
    have hnone : ¬(s.cache.pages b).isNone = true := by
      rw [hpage]
      exact Bool.false_ne_true
    cases fuel with
    | zero =>
      unfold touchWith
      simp only [sat_bind, sat_get, sat_ite, sat_pure]
      exact ⟨fun h => absurd h hnone, fun _ => hs⟩
    | succ fuel =>
      unfold touchWith
      simp only [sat_bind, sat_get, sat_ite, sat_pure]
      exact ⟨fun h => absurd h hnone, fun _ => hs⟩

lemma touch_needsNone (b : ℕ) : NeedsNone (touch b) := touchWith_needsNone 3 b

lemma get_needsNone : NeedsNone (get : FsM Fs) := fun _ hs => sat_get.mpr hs

lemma throw_needsNone {e : FsExit} (h : e ≠ .noMem) : NeedsNone (throw e : FsM α) :=
  fun _ _ => sat_throw.mpr h

lemma ite_needsNone {c : Prop} [Decidable c] {f g : FsM α} (hf : NeedsNone f) (hg : NeedsNone g) :
    NeedsNone (if c then f else g) := by
  split
  · exact hf
  · exact hg

lemma change_needsNone (b : ℕ) (g : (ℕ → Byte) → ℕ → Byte) :
    NeedsNone (modify fun s => { s with cache := s.cache.change b g } : FsM PUnit) := by
  intro s hs
  refine sat_modify.mpr ⟨fun b' => ?_, hs.2⟩
  exact WriteBack.isSome_change.mpr (hs.1 b')

lemma loadByte_needsNone (a : ℕ) : NeedsNone (loadByte a) :=
  (touch_needsNone _).bind fun _ => get_needsNone.bind fun _ => .pure _

lemma loadWord_needsNone (a : ℕ) : NeedsNone (loadWord a) :=
  (touch_needsNone _).bind fun _ => get_needsNone.bind fun _ => .pure _

lemma storeWord_needsNone (a : ℕ) (w : Word) : NeedsNone (storeWord a w) :=
  (touch_needsNone _).bind fun _ => change_needsNone _ _

lemma clearBlock_needsNone (b : ℕ) : NeedsNone (clearBlock b) :=
  (touch_needsNone _).bind fun _ => change_needsNone _ _

lemma flushBlock_needsNone (a : ℕ) : NeedsNone (flushBlock a) := by
  intro s hs
  unfold flushBlock
  simp only [sat_bind, sat_ite, sat_throw, sat_modify]
  refine ⟨fun _ h => ?_, fun _ => ⟨fun b => WriteBack.isSome_flush.mpr (hs.1 b), hs.2⟩⟩
  cases h

lemma diskaddr_needsNone (b : ℕ) : NeedsNone (diskaddr b) := by
  intro s hs
  unfold diskaddr
  simp only [sat_bind, sat_get, sat_ite, sat_throw, sat_pure]
  refine ⟨fun _ h => ?_, fun _ => hs⟩
  cases h

lemma pageAllocAt_needsNone (b : ℕ) : NeedsNone (pageAllocAt b) := by
  intro s hs
  unfold pageAllocAt
  simp only [sat_bind, sat_get, sat_ite, sat_throw, sat_set]
  refine ⟨fun h => absurd h hs.2, fun _ => ⟨fun b' => ?_, ?_⟩⟩
  · exact WriteBack.isSome_map.mpr (.inr (hs.1 b'))
  · rw [if_pos (hs.1 b)]
    exact hs.2

/-! ### Blocks -/

lemma blockIsFree_needsNone (b : ℕ) : NeedsNone (blockIsFree b) := by
  unfold blockIsFree
  exact get_needsNone.bind fun _ => ite_needsNone (.pure _) ((loadWord_needsNone _).bind fun _ => .pure _)

lemma allocFrom_needsNone (n nb : ℕ) : NeedsNone (allocFrom n nb) := by
  induction n generalizing nb with
  | zero =>
    unfold allocFrom
    exact .pure _
  | succ n ih =>
    unfold allocFrom
    apply (blockIsFree_needsNone nb).bind
    intro _
    apply ite_needsNone
    · exact (loadWord_needsNone _).bind fun _ => (storeWord_needsNone _ _).bind fun _ =>
        (flushBlock_needsNone _).bind fun _ => .pure _
    · exact ih (nb + 1)

lemma allocBlock_needsNone : NeedsNone allocBlock :=
  get_needsNone.bind fun _ => allocFrom_needsNone _ _

lemma allocIndirect_needsNone (f : ℕ) : NeedsNone (allocIndirect f) := by
  unfold allocIndirect
  apply allocBlock_needsNone.bind
  rintro (r | blockno)
  · exact .pure _
  · exact (storeWord_needsNone _ _).bind fun _ => (diskaddr_needsNone _).bind fun _ =>
      (pageAllocAt_needsNone _).bind fun _ => (clearBlock_needsNone _).bind fun _ =>
      (flushBlock_needsNone _).bind fun _ => .pure _

lemma indirectSlot_needsNone (f n : ℕ) : NeedsNone (indirectSlot f n) :=
  (loadWord_needsNone _).bind fun _ => (diskaddr_needsNone _).bind fun _ => .pure _

lemma fileBlockWalk_needsNone (f n : ℕ) (alloc : Bool) : NeedsNone (fileBlockWalk f n alloc) := by
  unfold fileBlockWalk
  apply ite_needsNone (.pure _)
  apply ite_needsNone (.pure _)
  apply (loadWord_needsNone _).bind
  intro _
  apply ite_needsNone
  · apply ite_needsNone (.pure _)
    apply (allocIndirect_needsNone f).bind
    rintro (r | _)
    · exact .pure _
    · exact indirectSlot_needsNone f n
  · exact indirectSlot_needsNone f n

lemma fillSlot_needsNone (a : ℕ) : NeedsNone (fillSlot a) := by
  unfold fillSlot
  apply (loadWord_needsNone _).bind
  intro _
  apply ite_needsNone
  · exact allocBlock_needsNone.bind fun _ => storeWord_needsNone _ _
  · exact .pure _

lemma fileGetBlock_needsNone (f n : ℕ) : NeedsNone (fileGetBlock f n) := by
  unfold fileGetBlock
  apply (fileBlockWalk_needsNone f n true).bind
  rintro (r | blkno)
  · exact .pure _
  · exact (fillSlot_needsNone _).bind fun _ => (loadWord_needsNone _).bind fun _ =>
      (diskaddr_needsNone _).bind fun _ => (flushBlock_needsNone _).bind fun _ => .pure _

/-! ### `file_open` -/

lemma strcmpEq_needsNone (a : ℕ) (name : CString) : NeedsNone (strcmpEq a name) := by
  induction name generalizing a with
  | nil =>
    unfold strcmpEq
    exact (loadByte_needsNone _).bind fun _ => .pure _
  | cons x xs ih =>
    unfold strcmpEq
    apply (loadByte_needsNone _).bind
    intro _
    exact ite_needsNone (ih _) (.pure _)

lemma searchBlock_needsNone {p : ℕ → FsM Bool} (hp : ∀ f, NeedsNone (p f)) (n f : ℕ) :
    NeedsNone (searchBlock p n f) := by
  induction n generalizing f with
  | zero =>
    unfold searchBlock
    exact .pure _
  | succ n ih =>
    unfold searchBlock
    apply (hp f).bind
    intro _
    exact ite_needsNone (.pure _) (ih _)

lemma searchDir_needsNone {p : ℕ → FsM Bool} (hp : ∀ f, NeedsNone (p f)) (dir n i : ℕ) :
    NeedsNone (searchDir p dir n i) := by
  induction n generalizing i with
  | zero =>
    unfold searchDir
    exact .pure _
  | succ n ih =>
    unfold searchDir
    apply (fileGetBlock_needsNone _ _).bind
    rintro (r | blk)
    · exact .pure _
    · apply (searchBlock_needsNone hp _ _).bind
      rintro (_ | f)
      · exact ih _
      · exact .pure _

lemma dirBlocks_needsNone (dir : ℕ) : NeedsNone (dirBlocks dir) := by
  unfold dirBlocks
  apply (loadWord_needsNone _).bind
  intro _
  apply ite_needsNone
  · exact (throw_needsNone (by decide)).bind fun _ => .pure _
  · exact .pure _

lemma dirLookup_needsNone (dir : ℕ) (name : CString) : NeedsNone (dirLookup dir name) := by
  unfold dirLookup
  apply (dirBlocks_needsNone dir).bind
  intro n
  apply (searchDir_needsNone (fun _ => strcmpEq_needsNone _ _) dir n 0).bind
  rintro (r | _ | f)
  · exact .pure _
  · exact .pure _
  · exact .pure _

lemma walkFrom_needsNone (dir f : ℕ) (path : CString) : NeedsNone (walkFrom dir f path) := by
  induction hlen : path.length using Nat.strong_induction_on generalizing path dir f with
  | _ n ih =>
    unfold walkFrom
    by_cases hnil : path = []
    · rw [dif_pos hnil]
      exact .pure _
    · rw [dif_neg hnil]
      apply ite_needsNone (.pure _)
      apply (loadWord_needsNone _).bind
      intro _
      apply ite_needsNone (.pure _)
      apply (dirLookup_needsNone _ _).bind
      rintro (r | g)
      · exact .pure _
      · exact ih _ (hlen ▸ length_nextElem hnil) _ _ _ rfl

lemma fileOpen_needsNone (path : CString) : NeedsNone (fileOpen path) := by
  unfold fileOpen walkPath
  apply (walkFrom_needsNone _ _ _).bind
  rintro (⟨r, p⟩ | ⟨d, f⟩)
  · exact .pure _
  · exact .pure _

/-- Every disk can be in the cache of a server with enough memory. -/
def cached (c : ℕ → Byte) : Fs where
  cache := { disk := fun b o => c (4096 * b + o)
             pages := fun b => some ⟨fun o => c (4096 * b + o), false⟩
             log := [] }
  frames := 1

lemma content_cached (c : ℕ → Byte) : (cached c).content = c := by
  funext a
  change c (4096 * (a / 4096) + a % 4096) = c a
  rw [Nat.div_add_mod]

lemma ample_cached (c : ℕ → Byte) : Ample (cached c) := ⟨fun _ => rfl, Nat.one_ne_zero⟩

end SistemasOperativos.Fs
