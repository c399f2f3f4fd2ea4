import SistemasOperativos.Fs.Insertion
import SistemasOperativos.Fs.Quiet
import SistemasOperativos.Fs.Creation
import SistemasOperativos.Library.Runs

/-!
# Runs of calls on files

Sequences of calls on regular files, from a well-formed disk on, as long as the server does not stop.
Every block number stays valid, in use and in one slot only.
-/

namespace SistemasOperativos.Fs

open Library Kern

/-- A call and what it returns. -/
inductive FileEvent
  | create (path : CString) (r : Except ℤ ℕ)
  | find (path : CString) (r : Except ℤ ℕ)
  | read (f : ℕ) (count offset : Word) (r : Except ℤ (List Byte))
  | write (f : ℕ) (buf : List Byte) (offset : Word) (r : Except ℤ ℕ)
  | resize (f : ℕ) (size : Word)
  | flush (f : ℕ)

/-- A path leads from the root to `f`. -/
def Reachable (c : ℕ → Byte) (f : ℕ) : Prop := ∃ path d, Reaches c 0 rootAddr (elements path) d f

/-- A regular file that a path leads to. -/
def Regular (c : ℕ → Byte) (f : ℕ) : Prop := Reachable c f ∧ ¬IsDir c f

/-- A call that returns. -/
inductive FileStep (s : Fs) : FileEvent → Fs → Prop
  | create {path : CString} {r : Except ℤ ℕ} {t : Fs} (hrun : fileCreate path s = .ok r t) :
      FileStep s (.create path r) t
  | find {path : CString} {r : Except ℤ ℕ} {t : Fs} (hrun : fileOpen path s = .ok r t) :
      FileStep s (.find path r) t
  | read {f : ℕ} {count offset : Word} {r : Except ℤ (List Byte)} {t : Fs} (hf : Regular s.content f)
      (hrun : fileRead f count offset s = .ok r t) : FileStep s (.read f count offset r) t
  | write {f : ℕ} {buf : List Byte} {offset : Word} {r : Except ℤ ℕ} {t : Fs} (hf : Regular s.content f)
      (hbuf : buf.length < 2 ^ 32) (hrun : fileWrite f buf offset s = .ok r t) :
      FileStep s (.write f buf offset r) t
  | resize {f : ℕ} {size : Word} {t : Fs} (hf : Regular s.content f)
      (hrun : fileSetSize f size s = .ok () t) : FileStep s (.resize f size) t
  | flush {f : ℕ} {t : Fs} (hf : Regular s.content f) (hrun : fileFlush f s = .ok () t) :
      FileStep s (.flush f) t

/-- The disk is well-formed to begin with. -/
def FileStart (s : Fs) : Prop := ∃ F, Wf s.content F

/-- A `file_create` finds nothing in the entries that it brings, and a directory that gets a new size
also gets a block. -/
def CreateSound (c : ℕ → Byte) (path : CString) : Prop :=
  ∀ r d name, walkAt c 0 rootAddr (components (skipSlash path)) = .error (r, some (d, name)) →
    Harmless c d ∧ (freeEntry c d = none → dirLen c d < maxLen → extra c d (dirLen c d) ≤ freeCount c)

/-- The condition on a call. -/
def BlocksGuard (s : Fs) : FileEvent → Prop
  | .create path _ => CreateSound s.content path
  | .write _ buf offset _ => ¬Underruns offset (writeStop buf offset)
  | _ => True

/-- Every block number of a file is that of a block behind the bitmap, in use and in one slot only. -/
def BlocksOk (c : ℕ → Byte) : Prop :=
  ∀ f, Reachable c f → ∀ p : Slot, p.Valid c f → ptr c f p ≠ 0 →
    ptr c f p < nblocksOf c ∧ 2 + nbitmap c ≤ ptr c f p ∧ bitOf c (ptr c f p) = false ∧
      ∀ g, Reachable c g → ∀ q : Slot, q.Valid c g → ptr c g q = ptr c f p → g = f ∧ q = p

variable {c c' : ℕ → Byte} {F : Set ℕ} {s t : Fs} {d e f g : ℕ} {path : CString}

/-! ### Runs -/

lemma Wf.dirLen_lengthened (h : Wf c F) (hd : d ∈ F) (hlen : dirLen c d = maxLen) (hdir : IsDir c d) :
    dirLen (lengthened c d) d = maxLen + 1 ∧ (fileSize (lengthened c d) d).toNat % 4096 = 0 := by
  have hr : Resized F (dirLen c) d (fileSize c d + 4096) c (lengthened c d) :=
    h.toTree.resized hd (fileSize c d + 4096)
  have hwhole := h.whole d hd hdir
  have hnat : (fileSize c d + 4096).toNat = (fileSize c d).toNat + 4096 := by
    unfold dirLen maxLen ndirect nindirect at hlen
    rw [BitVec.toNat_add]
    apply Nat.mod_eq_of_lt
    change (fileSize c d).toNat + 4096 < 2 ^ 32
    omega
  unfold dirLen at hlen ⊢
  rw [hr.size, hnat]
  omega

/-- The entries of a directory of the greatest size stay when it gets one block more by its size. -/
lemma Wf.entryOf_lengthened (h : Wf c F) (hd : d ∈ F) (hlen : dirLen c d = maxLen) (hdir : IsDir c d)
    (hg : g ∈ F) : EntryOf (lengthened c d) (dirLen (lengthened c d) g) g e ↔
      EntryOf (lengthened c d) (dirLen c g) g e := by
  have hr : Resized F (dirLen c) d (fileSize c d + 4096) c (lengthened c d) :=
    h.toTree.resized hd (fileSize c d + 4096)
  by_cases hgd : g = d
  · subst hgd
    rw [(h.dirLen_lengthened hd hlen hdir).1, hlen]
    constructor
    · rintro ⟨n, -, hmax, hj⟩
      exact ⟨n, hmax, hmax, hj⟩
    · rintro ⟨n, -, hmax, hj⟩
      exact ⟨n, by omega, hmax, hj⟩
  · unfold dirLen
    rw [hr.sizes g hg hgd]

/-- A directory of the greatest size gets one block more by its size only. -/
lemma Wf.wf_lengthened (h : Wf c F) (hd : d ∈ F) (hlen : dirLen c d = maxLen) (hdir : IsDir c d) :
    Wf (lengthened c d) F := by
  have hr : Resized F (dirLen c) d (fileSize c d + 4096) c (lengthened c d) :=
    h.toTree.resized hd (fileSize c d + 4096)
  obtain ⟨hnew, hwhole⟩ := h.dirLen_lengthened hd hlen hdir
  have hother : ∀ g ∈ F, g ≠ d → dirLen (lengthened c d) g = dirLen c g := by
    intro g hg hne
    unfold dirLen
    rw [hr.sizes g hg hne]
  have ht := hr.tree
  constructor
  · constructor
    · exact ht.super
    · exact ht.root
    · exact ht.rootDir
    · intro f hf
      rcases ht.home f hf with hroot | ⟨g, hg, hdir', he⟩
      · exact .inl hroot
      · exact .inr ⟨g, hg, hdir', (h.entryOf_lengthened hd hlen hdir hg).mpr he⟩
    · exact fun g hg hdir' e he => ht.named g hg hdir' e ((h.entryOf_lengthened hd hlen hdir hg).mp he)
    · exact ht.terminated
    · exact ht.slots
    · exact ht.inj
    · intro g hg hdir' hlt
      apply ht.indirect g hg hdir'
      by_cases hgd : g = d
      · subst hgd
        rw [hlen]
        decide
      · rw [← hother g hg hgd]
        exact hlt
    · intro g hg hdir' n hn hmax
      apply ht.present g hg hdir' n ?_ hmax
      by_cases hgd : g = d
      · subst hgd
        rw [hlen]
        exact hmax
      · rw [← hother g hg hgd]
        exact hn
  · intro g hg hdir'
    by_cases hgd : g = d
    · subst hgd
      exact hwhole
    · rw [hr.sizes g hg hgd]
      exact h.whole g hg ((hr.kept.isDir hg).mp hdir')
  · intro g hg hdir'
    by_cases hgd : g = d
    · subst hgd
      exact hnew.le
    · rw [hother g hg hgd]
      exact h.bound g hg ((hr.kept.isDir hg).mp hdir')

/-- `file_create` leaves a well-formed disk, with the new files. -/
lemma Wf.creates_wf (h : Wf c F) (hsound : CreateSound c path) {r : Except ℤ ℕ}
    (hc : Creates F c path r c') : ∃ F', F ⊆ F' ∧ Wf c' F' := by
  cases hc with
  | present => exact ⟨F, le_rfl, h⟩
  | unreached => exact ⟨F, le_rfl, h⟩
  | refused hwalk halloc =>
    obtain ⟨hd, hdir, -, -⟩ := h.walkAt_parent 0 h.root
      (ne_nil_of_mem_components (noSlash_skipSlash path)) hwalk
    cases halloc with
    | large => exact ⟨F, le_rfl, h⟩
    | grown hfree hlen hgets =>
      cases hgets with
      | inval hmax => exact ⟨F, le_rfl, h.wf_lengthened hd (Nat.le_antisymm hlen hmax) hdir⟩
      | full hmax hextra hfull =>
        rename_i d _
        have hroom := (hsound _ _ _ hwalk).2 hfree hmax
        have hr := h.toTree.resized hd (fileSize c d + 4096)
        have hextra' := hr.extra_eq hd (m := dirLen c d)
        have hfull' := hr.freeCount_eq
        unfold lengthened at hextra hfull
        omega
  | created hwalk halloc =>
    obtain ⟨hd, hdir, -, hname⟩ := h.walkAt_parent 0 h.root
      (ne_nil_of_mem_components (noSlash_skipSlash path)) hwalk
    have hchosen := h.chosen hd hdir halloc
    exact ⟨_, Set.subset_union_left, hchosen.wf_named h hname hd hdir (hsound _ _ _ hwalk).1⟩

lemma Wf.reachable_mem (h : Wf c F) (hf : Reachable c f) : f ∈ F := by
  obtain ⟨path, d, hreach⟩ := hf
  exact h.reaches_mem h.root (fun _ hx => ne_nil_of_mem_elements hx) hreach

lemma Wf.step {e : FileEvent} (h : Wf s.content F) (hg : BlocksGuard s e) (hstep : FileStep s e t) :
    ∃ F', F ⊆ F' ∧ Wf t.content F' := by
  cases hstep with
  | create hrun => exact h.creates_wf hg ((h.fileCreate_sat _ rfl).of_ok hrun)
  | @find path r t hrun =>
    have hsat : Sat (fileOpen path) s (fun _ t => t.content = s.content) Anyhow := by
      unfold fileOpen
      rw [sat_bind]
      refine (h.walkPath_sat path rfl).mono ?_ (fun _ _ _ => trivial)
      rintro (⟨r, p⟩ | ⟨d, f⟩) u ⟨-, hu⟩
      · exact sat_pure.mpr hu
      · exact sat_pure.mpr hu
    refine ⟨F, le_rfl, ?_⟩
    rw [hsat.of_ok hrun]
    exact h
  | read hf hrun =>
    have hq := (fileRead_keepsQuiet (K := Set.univ) (h.reachable_mem hf.1) _ _ s.content s (.refl h)).of_ok hrun
    exact ⟨F, le_rfl, hq.wf⟩
  | write hf hbuf hrun =>
    have hq := h.fileWrite_quiet (h.reachable_mem hf.1) hf.2 hbuf hg (fun _ => Set.mem_univ _)
    exact ⟨F, le_rfl, (hq.of_ok hrun).wf⟩
  | @resize f size t hf hrun =>
    have hq := h.fileSetSize_quiet (h.reachable_mem hf.1) hf.2 (Set.mem_univ size)
    exact ⟨F, le_rfl, (hq.of_ok hrun).wf⟩
  | flush hf hrun =>
    refine ⟨F, le_rfl, ?_⟩
    rw [(h.fileFlush_looks (h.reachable_mem hf.1)).of_ok hrun]
    exact h

lemma Wf.blocksOk (h : Wf c F) : BlocksOk c := by
  intro f hf p hp hpos
  have hmem := h.reachable_mem hf
  obtain ⟨hle, huse⟩ := h.slots f hmem p hp hpos
  refine ⟨huse.1, hle, huse.2, fun g hg q hq heq => ?_⟩
  obtain ⟨hfg, hpq⟩ := h.inj f hmem g (h.reachable_mem hg) p q hp hq hpos heq.symm
  exact ⟨hfg.symm, hpq.symm⟩

/-- In every run whose calls meet the condition, the block numbers are in order. -/
theorem blocksOk_of_run {h : List (Move Fs FileEvent)} (hr : Run FileStart FileStep h s)
    (hg : ∀ m ∈ h, BlocksGuard m.pre m.label) : BlocksOk s.content := by
  obtain ⟨F, hw⟩ : ∃ F, Wf s.content F := by
    refine hr.induct hg (fun _ s => ∃ F, Wf s.content F) (fun _ hs => hs) ?_
    rintro - s e t ⟨F, hw⟩ hguard hstep
    obtain ⟨F', -, hw'⟩ := hw.step hguard hstep
    exact ⟨F', hw'⟩
  exact hw.blocksOk

lemma bPath_walk : walkAt smallDisk 0 rootAddr (components (skipSlash bPath)) =
    .error (-eNotFound, some (rootAddr, bPath)) := by decide +kernel

lemma bPath_sound : CreateSound smallDisk bPath := by
  rintro r d name hwalk
  have herr := Except.error.inj (bPath_walk.symm.trans hwalk)
  obtain ⟨rfl, rfl⟩ := Prod.mk.inj (Option.some.inj (Prod.mk.inj herr).2)
  have hfree : freeEntry smallDisk rootAddr = some 12544 := by decide +kernel
  have hnew : newEntry smallDisk rootAddr = 12544 := by
    unfold newEntry
    rw [hfree]
    rfl
  have hstray : strayEntries smallDisk rootAddr = [] := by
    unfold strayEntries
    rw [hfree]
    rfl
  refine ⟨⟨?_, ?_⟩, fun hnone => ?_⟩
  · rw [hnew]
    refine ⟨by decide +kernel, by decide +kernel, fun _ => by decide +kernel⟩
  · rw [hstray]
    exact fun e he => absurd he List.not_mem_nil
  · rw [hfree] at hnone
    cases hnone

/-- After the creation of a file on the small disk. -/
theorem blocksOk_of_create :
    BlocksOk (after (fileCreate bPath) (onDisk smallDisk 20)).content := by
  have hrun : fileCreate bPath (onDisk smallDisk 20) =
      .ok (.ok 12544) (after (fileCreate bPath) (onDisk smallDisk 20)) :=
    eq_ok_of_resultOf (by decide +kernel)
  have hstart : FileStart (onDisk smallDisk 20) :=
    ⟨smallFiles, by rw [content_onDisk]; exact wf_smallDisk⟩
  refine blocksOk_of_run ((Run.start hstart).next (.create hrun)) ?_
  intro m hm
  obtain rfl := List.mem_singleton.mp hm
  change CreateSound (onDisk smallDisk 20).content bPath
  rw [content_onDisk]
  exact bPath_sound

/-- The new file on the disk with stale bytes has the super block as its block. -/
theorem blocksOk_fails : ¬∀ h s, Run FileStart FileStep h s → BlocksOk s.content := by
  intro hall
  have hrun : fileCreate bPath (onDisk staleDisk 20) =
      .ok (.ok 12288) (after (fileCreate bPath) (onDisk staleDisk 20)) :=
    eq_ok_of_resultOf (by decide +kernel)
  have hstart : FileStart (onDisk staleDisk 20) :=
    ⟨{rootAddr}, by rw [content_onDisk]; exact wf_staleDisk⟩
  have hok := hall _ _ ((Run.start hstart).next (.create hrun))
  generalize hc : (after (fileCreate bPath) (onDisk staleDisk 20)).content = c at hok
  have hnamed : Named c rootAddr bPath 12288 := by
    rw [← hc]
    unfold Named
    decide +kernel
  have hdir : IsDir c rootAddr := by
    rw [← hc]
    unfold IsDir
    decide +kernel
  have hptr : ptr c 12288 (.direct 0) = 1 := by
    rw [← hc]
    decide +kernel
  have hreach : Reachable c 12288 := by
    have helements : elements bPath = [bPath] := by decide
    refine ⟨bPath, rootAddr, ?_⟩
    rw [helements]
    exact .down (by decide) hdir hnamed (.here _ _)
  have hvalid : Slot.Valid c 12288 (.direct 0) := by
    change 0 < ndirect
    decide
  have hle := (hok 12288 hreach (.direct 0) hvalid (by rw [hptr]; exact Nat.one_ne_zero)).2.1
  rw [hptr] at hle
  omega

end SistemasOperativos.Fs
