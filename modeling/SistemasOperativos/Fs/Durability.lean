import SistemasOperativos.Fs.Coherence
import SistemasOperativos.Fs.DirRuns

/-!
# What a flush leaves on the disk

`fs_sync` and `file_flush` write all that is dirty in the blocks they are about, whatever those blocks hold. A
server that starts again with the disk alone finds these blocks as they were.
-/

namespace SistemasOperativos.Fs

open Library Kern
open WriteBack (Settles Stable replay Replays)

/-- The server as it finds the disk when it is started again. -/
def reopened (s : Fs) : Fs := { s with cache := s.cache.reopen }

/-- A block that a flush of `f` is to save: that of the structure, the indirect block, or one of the contents.
The sum in `file_flush` is exact for the contents of a file of `2 ^ 31 - 4096` bytes at most; of a larger one
(or of a negative size) it flushes too few blocks. -/
def FlushedBlock (c : ℕ → Byte) (f b : ℕ) : Prop :=
  b = f / 4096 ∨ (b = indirectOf c f ∧ b ≠ 0) ∨
    ((fileSize c f).toNat ≤ 2 ^ 31 - 4096 ∧
      ∃ n < maxLen, 4096 * n < (fileSize c f).toNat ∧ b = blockOf c f n ∧ b ≠ 0)

/-- After a crash the block `b` is as it was seen in `s`. -/
def Saved (s t : Fs) (b : ℕ) : Prop := ∀ o < 4096, (reopened t).content (4096 * b + o) = s.content (4096 * b + o)

/-- What a run leaves of the disk image `disk`. -/
structure Durable (disk : ℕ → ℕ → Byte) (h : List (Move World WorldEvent)) (w : World) : Prop where
  /-- a clean page holds what the disk holds -/
  coherent : w.server.fs.cache.Coherent
  /-- whenever the server stops, the disk has the writes of `flush_block` up to then, and no others -/
  disk : w.server.fs.cache.disk = replay disk w.server.fs.cache.log
  synced : ∀ m ∈ h, m.label = .serve 8 → ∀ b, b ≠ 0 → b < nblocksOf m.pre.server.fs.content →
    Saved m.pre.server.fs m.post.server.fs b
  flushed : ∀ m ∈ h, m.label = .serve 6 → ∀ q, m.pre.server.fsreq = some q → Found m.pre.server q → ∀ b,
    FlushedBlock m.pre.server.fs.content (m.pre.server.opentab (slotOf m.pre.server q)).file b →
    Saved m.pre.server.fs m.post.server.fs b

/-- The server has just come up on the image `disk`. -/
def CacheStart (disk : ℕ → ℕ → Byte) (w : World) : Prop :=
  w.server.fs.cache.Coherent ∧ w.server.fs.cache.disk = disk ∧ w.server.fs.cache.log = []

variable {α β : Type} {s t u : Fs} {a b f i n : ℕ} {w w' : World} {disk : ℕ → ℕ → Byte}

lemma content_settled (h : Settles s.cache t.cache) : t.content = s.content := by
  funext a
  exact congrFun (congrFun h.block (a / 4096)) (a % 4096)

/-- What is clean and coherent is saved. -/
lemma saved_of_clean (hc : t.cache.Coherent) (hb : ¬t.cache.IsDirty b) (h : t.content = s.content) :
    Saved s t b := by
  intro o ho
  rw [← h]
  unfold Fs.content reopened
  dsimp only
  rw [show (4096 * b + o) / 4096 = b by omega, hc.block_reopen hb]

/-! ### Calls that load and flush -/

lemma bcRead_settles (h : (s.cache.pages b).isNone) :
    Sat (bcRead b) s (fun _ t => Settles s.cache t.cache) Anyhow := by
  unfold bcRead
  simp only [sat_bind, sat_get, sat_ite, sat_throw, sat_set]
  exact ⟨fun _ => trivial, fun _ => ⟨fun _ => trivial, fun _ => ⟨fun _ => trivial, fun _ =>
    WriteBack.settles_load (Option.isNone_iff_eq_none.mp h)⟩⟩⟩

lemma touchWith_settles (fuel b : ℕ) (s : Fs) :
    Sat (touchWith fuel b) s (fun _ t => Settles s.cache t.cache) Anyhow := by
  induction fuel generalizing b s with
  | zero =>
    unfold touchWith
    simp only [sat_bind, sat_get, sat_ite, sat_throw, sat_pure]
    exact ⟨fun _ => trivial, fun _ => .refl _⟩
  | succ fuel ih =>
    unfold touchWith
    simp only [sat_bind, sat_get, sat_ite, sat_throw, sat_pure]
    refine ⟨fun hnone => ?_, fun _ => .refl _⟩
    refine (bcRead_settles hnone).post (fun _ t ht => ?_)
    exact (ih (2 + b / 32768) t).post (fun _ u hu => ⟨fun _ => trivial, fun _ => ht.trans hu⟩)

lemma loadWord_settles (a : ℕ) (s : Fs) :
    Sat (loadWord a) s (fun w t => Settles s.cache t.cache ∧ w = wordAt s.content a) Anyhow := by
  unfold loadWord touch
  simp only [sat_bind, sat_get, sat_pure]
  refine (touchWith_settles 3 _ s).post (fun _ t ht => ⟨ht, ?_⟩)
  rw [content_settled ht]

lemma diskaddr_settles (b : ℕ) (s : Fs) : Sat (diskaddr b) s (fun a t => t = s ∧ a = 4096 * b) Anyhow := by
  unfold diskaddr
  simp only [sat_bind, sat_get, sat_ite, sat_throw, sat_pure]
  exact ⟨fun _ => trivial, fun _ => ⟨trivial, trivial⟩⟩

lemma flushBlock_settles (a : ℕ) (s : Fs) :
    Sat (flushBlock a) s (fun _ t => Settles s.cache t.cache ∧ ¬t.cache.IsDirty (a / 4096)) Anyhow := by
  unfold flushBlock
  simp only [sat_bind, sat_ite, sat_throw, sat_modify]
  exact ⟨fun _ => trivial, fun _ => ⟨WriteBack.settles_flush, WriteBack.not_isDirty_flush⟩⟩

/-- `flush_block(diskaddr(b))`. -/
lemma flushAt_settles (b : ℕ) (s : Fs) :
    Sat (do flushBlock (← diskaddr b)) s (fun _ t => Settles s.cache t.cache ∧ ¬t.cache.IsDirty b) Anyhow := by
  rw [sat_bind]
  refine (diskaddr_settles b s).post ?_
  rintro a t ⟨rfl, rfl⟩
  refine (flushBlock_settles (4096 * b) t).post (fun _ u hu => ?_)
  rw [Nat.mul_div_cancel_left b (by decide)] at hu
  exact hu

lemma fsSync_settles (s : Fs) :
    Sat fsSync s (fun _ t => Settles s.cache t.cache ∧
      ∀ b, b ≠ 0 → b < nblocksOf s.content → ¬t.cache.IsDirty b) Anyhow := by
  unfold fsSync
  rw [sat_bind, sat_get]
  have hloop := sat_forM_range' (E := Anyhow) (f := fun i => do flushBlock (← diskaddr i))
    (fun i t => Settles s.cache t.cache ∧ ∀ b, b ≠ 0 → b < i → ¬t.cache.IsDirty b) 1 (nblocksOf s.content - 1)
    (s := s) (fun i t _ _ ht => ?_) ⟨.refl _, fun b hb hlt => absurd hlt (by omega)⟩
  · refine hloop.post (fun _ t ht => ⟨ht.1, fun b hb hlt => ht.2 b hb (by omega)⟩)
  · refine (flushAt_settles i t).post (fun _ u hu => ⟨ht.1.trans hu.1, fun b hb hlt => ?_⟩)
    by_cases hbi : b = i
    · rw [hbi]
      exact hu.2
    · exact hu.1.clean b (ht.2 b hb (by omega))

/-- The slot of block `i`, when nothing is allocated. -/
lemma fileBlockWalk_settles (f i : ℕ) (s : Fs) :
    Sat (fileBlockWalk f i false) s (fun r t => Settles s.cache t.cache ∧
      (i < maxLen → blockOf s.content f i ≠ 0 → r = .ok (slotAddr s.content f (blockSlot i)))) Anyhow := by
  unfold fileBlockWalk
  simp only [sat_ite, sat_pure, sat_bind]
  refine ⟨fun hle => ⟨.refl _, fun hlt => absurd hle (Nat.not_le.mpr hlt)⟩, fun _ =>
    ⟨fun hdirect => ⟨.refl _, fun _ _ => ?_⟩, fun hdirect => ?_⟩⟩
  · unfold blockSlot
    rw [if_pos hdirect]
    rfl
  have hslot : blockSlot i = .entry (i - ndirect) := by
    unfold blockSlot
    rw [if_neg hdirect]
  refine (loadWord_settles (fIndirect f) s).post ?_
  rintro w t ⟨ht, rfl⟩
  refine ⟨fun hzero => ⟨fun _ => ⟨ht, fun _ hblock => absurd ?_ hblock⟩, fun hno => absurd rfl hno⟩, fun _ => ?_⟩
  · unfold blockOf
    rw [if_neg]
    rintro (hd | hi)
    · exact hdirect hd
    · apply hi
      unfold indirectOf
      rw [hzero]
      rfl
  · unfold indirectSlot
    simp only [sat_bind, sat_pure]
    refine (loadWord_settles (fIndirect f) t).post ?_
    rintro w u ⟨hu, rfl⟩
    refine (diskaddr_settles _ u).post ?_
    rintro a v ⟨rfl, rfl⟩
    refine ⟨ht.trans hu, fun _ _ => ?_⟩
    rw [hslot, content_settled ht]
    rfl

lemma flushFileBlock_settles (f i : ℕ) (s : Fs) :
    Sat (flushFileBlock f i) s (fun _ t => Settles s.cache t.cache ∧
      (i < maxLen → blockOf s.content f i ≠ 0 → ¬t.cache.IsDirty (blockOf s.content f i))) Anyhow := by
  unfold flushFileBlock
  rw [sat_bind]
  refine (fileBlockWalk_settles f i s).post ?_
  rintro (r | a) t ⟨ht, hwalk⟩
  · refine sat_pure.mpr ⟨ht, fun hi hb => ?_⟩
    cases hwalk hi hb
  · dsimp only
    rw [sat_bind]
    refine (loadWord_settles a t).post ?_
    rintro w u ⟨hu, rfl⟩
    have hblock : i < maxLen → blockOf s.content f i ≠ 0 →
        (wordAt t.content a).toNat = blockOf s.content f i := by
      intro hi hb
      obtain rfl := Except.ok.inj (hwalk hi hb)
      rw [content_settled ht]
      unfold blockOf at hb ⊢
      split at hb
      · rename_i hhas
        rw [if_pos hhas]
        rfl
      · exact absurd rfl hb
    simp only [sat_ite, sat_pure]
    refine ⟨fun _ => ?_, fun hzero => ⟨ht.trans hu, fun hi hb => absurd ?_ hb⟩⟩
    · refine (flushAt_settles _ u).post (fun _ v hv => ⟨(ht.trans hu).trans hv.1, fun hi hb => ?_⟩)
      rw [← hblock hi hb]
      exact hv.2
    · rw [← hblock hi hb, not_not.mp hzero]
      rfl

/-- `file_flush` has a turn for every block of the contents. -/
lemma lt_blocksFor {x : Word} (hx : x.toNat ≤ 2 ^ 31 - 4096) (hn : 4096 * n < x.toNat) :
    n < (blocksFor x).toInt.toNat := by
  have hdiv : (blocksFor x).toNat = (x.toNat + 4095) / 4096 := toNat_blocksFor (by omega)
  rw [toInt_of_small (by omega), Int.toNat_natCast, hdiv]
  omega

lemma fileFlush_settles (f : ℕ) (s : Fs) :
    Sat (fileFlush f) s (fun _ t => Settles s.cache t.cache ∧
      ∀ b, FlushedBlock s.content f b → ¬t.cache.IsDirty b) Anyhow := by
  unfold fileFlush
  rw [sat_bind]
  refine (loadWord_settles (fSize f) s).post ?_
  rintro size t ⟨ht, rfl⟩
  rw [sat_bind]
  have hloop := sat_forM_range (E := Anyhow) (f := flushFileBlock f)
    (fun k u => Settles s.cache u.cache ∧ ∀ i < k, i < maxLen → blockOf s.content f i ≠ 0 →
      ¬u.cache.IsDirty (blockOf s.content f i)) (blocksFor (fileSize s.content f)).toInt.toNat
    (s := t) (fun i u _ hu => ?_) ⟨ht, fun i hi => absurd hi (Nat.not_lt_zero i)⟩
  · refine hloop.post ?_
    rintro - u ⟨hu, hclean⟩
    rw [sat_bind]
    refine (flushBlock_settles f u).post ?_
    rintro - v ⟨hv, hstruct⟩
    rw [sat_bind]
    refine (loadWord_settles (fIndirect f) v).post ?_
    rintro w x ⟨hx, rfl⟩
    have hcontent : v.content = s.content := content_settled (hu.trans hv)
    have hdone : ∀ {y : Fs}, Settles x.cache y.cache →
        (indirectOf s.content f ≠ 0 → ¬y.cache.IsDirty (indirectOf s.content f)) →
        ∀ b, FlushedBlock s.content f b → ¬y.cache.IsDirty b := by
      rintro y hy hind b (rfl | ⟨rfl, hne⟩ | ⟨hsize, n, hn, hlt, rfl, hne⟩)
      · exact hy.clean _ (hx.clean _ hstruct)
      · exact hind hne
      · exact hy.clean _ (hx.clean _ (hv.clean _ (hclean n (lt_blocksFor hsize hlt) hn hne)))
    have hsettled := (hu.trans hv).trans hx
    simp only [sat_ite, sat_pure]
    refine ⟨fun _ => ?_, fun hzero => ⟨hsettled, hdone (.refl _) (fun hne => absurd ?_ hne)⟩⟩
    · refine (flushAt_settles _ x).post (fun _ y hy => ⟨hsettled.trans hy.1, hdone hy.1 (fun _ => ?_)⟩)
      rw [hcontent] at hy
      exact hy.2
    · rw [hcontent] at hzero
      unfold indirectOf
      rw [not_not.mp hzero]
      rfl
  · refine (flushFileBlock_settles f i u).post ?_
    rintro - v ⟨hv, hblock⟩
    rw [content_settled hu.1] at hblock
    refine ⟨hu.1.trans hv, fun j hj hmax hne => ?_⟩
    by_cases hji : j = i
    · subst hji
      exact hblock hmax hne
    · exact hv.clean _ (hu.2 j (by omega) hmax hne)

/-! ### Runs -/

lemma release_fs (s : Server) : s.release.fs = s.fs := by
  unfold Server.release
  cases s.fsreq <;> rfl

/-- What every use of the cache keeps, every step of the server and its clients keeps. -/
lemma stable_step {P : WriteBack Byte → Prop} (hP : Stable P) {e : WorldEvent} (h : P w.server.fs.cache)
    (hst : WorldStep w e w') : P w'.server.fs.cache := by
  cases hst with
  | request | requestFd | share | drop | write => exact h
  | serve hreply hpage hrun => exact (serveRequest_always hP _ _ h).of_ok hrun
  | taken =>
    change P (Server.release _).fs.cache
    rw [release_fs]
    exact h
  | refused =>
    change P (Server.release _).fs.cache
    rw [release_fs]
    exact h

lemma serveRequest_sync (s : Server) :
    Sat (serveRequest 8) s (fun _ t => Settles s.fs.cache t.fs.cache ∧
      ∀ b, b ≠ 0 → b < nblocksOf s.fs.content → ¬t.fs.cache.IsDirty b) (fun _ _ => True) := by
  unfold serveRequest serveSync
  rw [if_neg (by decide), if_neg (by decide), if_neg (by decide), if_neg (by decide), if_neg (by decide),
    if_neg (by decide), if_pos rfl]
  simp only [sat_bind, sat_pure, sat_onFs]
  exact (fsSync_settles s.fs).mono (fun _ t ht => ht) (fun _ _ _ => trivial)

lemma serveRequest_flush {s : Server} {q : ℕ} (hq : s.fsreq = some q) (hfound : Found s q) :
    Sat (serveRequest 6) s (fun _ t => Settles s.fs.cache t.fs.cache ∧
      ∀ b, FlushedBlock s.fs.content (s.opentab (slotOf s q)).file b → ¬t.fs.cache.IsDirty b) (fun _ _ => True) := by
  unfold serveRequest serveFlush
  rw [if_neg (by decide), if_neg (by decide), if_neg (by decide), if_neg (by decide), if_neg (by decide),
    if_pos rfl, sat_bind]
  refine lookup_sat hq (fun hno => absurd hfound hno) (fun _ => ?_)
  simp only [sat_bind, sat_get, sat_pure, sat_onFs]
  exact (fileFlush_settles _ s.fs).mono (fun _ t ht => ht) (fun _ _ _ => trivial)

/-- The server after the file has been created, with a request to sync. -/
def syncServer : Server := (after (serveRequest 1) bServer).release.receive (fun _ => 0) true

end SistemasOperativos.Fs
