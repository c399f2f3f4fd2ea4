import SistemasOperativos.Fs.Lookup
import SistemasOperativos.Fs.Growth

/-!
# Creating a file

What `dir_alloc_file`, `file_flush` and `file_create` make of a well-formed disk. Only the name of the
new entry is written.
-/

namespace SistemasOperativos.Fs

open Library Kern

/-- The first entry of a directory that has no name. -/
def freeEntry (c : ℕ → Byte) (d : ℕ) : Option ℕ := (entries c d).find? (fun e => decide (c e = 0))

/-- The content after a directory has got one block more, by its size. -/
def lengthened (c : ℕ → Byte) (d : ℕ) : ℕ → Byte := putWord c (fSize d) (fileSize c d + 4096)

/-- The content after the entry `e` has got its name. -/
def withName (c : ℕ → Byte) (e : ℕ) (name : CString) : ℕ → Byte :=
  putBytes c e (name.map (·.val) ++ [0])

/-- The outcomes of `dir_alloc_file`. -/
inductive Allocates (F : Set ℕ) (c : ℕ → Byte) (d : ℕ) : Except ℤ ℕ → (ℕ → Byte) → Prop
  | found {e : ℕ} (he : freeEntry c d = some e) : Allocates F c d (.ok e) c
  | large (he : freeEntry c d = none) (hlen : maxLen < dirLen c d) :
      Allocates F c d (.error (-eInval)) c
  /-- the directory has a new size, whatever comes of its next block -/
  | grown {r : Except ℤ ℕ} {c' : ℕ → Byte} (he : freeEntry c d = none) (hlen : dirLen c d ≤ maxLen)
      (hgets : Gets F (dirLen c) d (dirLen c d) (lengthened c d) r c') : Allocates F c d r c'

/-- The outcomes of `file_create`. -/
inductive Creates (F : Set ℕ) (c : ℕ → Byte) (path : CString) : Except ℤ ℕ → (ℕ → Byte) → Prop
  | present {d f : ℕ} (hwalk : walkAt c 0 rootAddr (components (skipSlash path)) = .ok (d, f)) :
      Creates F c path (.error (-eFileExists)) c
  | unreached {r : ℤ} (hwalk : walkAt c 0 rootAddr (components (skipSlash path)) = .error (r, none)) :
      Creates F c path (.error r) c
  | refused {r₀ r : ℤ} {d : ℕ} {name : CString} {c' : ℕ → Byte}
      (hwalk : walkAt c 0 rootAddr (components (skipSlash path)) = .error (r₀, some (d, name)))
      (halloc : Allocates F c d (.error r) c') : Creates F c path (.error r) c'
  | created {r₀ : ℤ} {d e : ℕ} {name : CString} {c' : ℕ → Byte}
      (hwalk : walkAt c 0 rootAddr (components (skipSlash path)) = .error (r₀, some (d, name)))
      (halloc : Allocates F c d (.ok e) c') : Creates F c path (.ok e) (withName c' e name)

variable {c c' : ℕ → Byte} {F : Set ℕ} {len : ℕ → ℕ} {s t : Fs} {d e f g i n : ℕ} {name path : CString}

/-! ### `file_flush` -/

/-- A flush of a block of a file that can be found changes nothing. -/
lemma flushFileBlock_sat (hs : SuperOk s.content) (hb : BlocksAt s.content f n) :
    Sat (flushFileBlock f n) s (fun _ t => t.content = s.content) NoMem := by
  unfold flushFileBlock
  rw [sat_bind]
  by_cases hn : n < ndirect + nindirect
  · by_cases hhas : n < ndirect ∨ indirectOf s.content f ≠ 0
    · refine (fileBlockWalk_found false hs hb hn hhas).post ?_
      rintro r t ⟨rfl, ht⟩
      dsimp only
      have hslot := hb.slotAt hn hhas
      rw [sat_bind]
      refine (loadWord_sat (by rw [ht.content]; exact hs) (by rw [ht.content]; exact hslot.inUse)).post ?_
      rintro w u ⟨rfl, hu⟩
      have hcu : u.content = s.content := hu.content.trans ht.content
      rw [ht.content, sat_ite]
      constructor
      · intro hne
        have hpos : ptr s.content f (blockSlot n) ≠ 0 := fun hzero => hne (toNat_eq_zero.mp hzero)
        have huse := hb.block (valid_blockSlot hn hhas) hpos
        rw [sat_bind]
        refine (diskaddr_sat hpos (by rw [hcu]; exact huse.1)).post ?_
        rintro a v ⟨rfl, rfl⟩
        have hblock : 4096 * (wordAt s.content (slotAddr s.content f (blockSlot n))).toNat / 4096 <
            maxBlocks := by
          rw [Nat.mul_div_cancel_left _ (by decide)]
          exact Nat.lt_of_lt_of_le huse.1 hs.size
        refine (flushBlock_sat hblock).post ?_
        rintro - x rfl
        rw [content_flush]
        exact hcu
      · exact fun _ => sat_pure.mpr hcu
    · have hge : ndirect ≤ n := Nat.not_lt.mp (fun hlt => hhas (.inl hlt))
      have hzero : indirectOf s.content f = 0 := not_not.mp (fun hne => hhas (.inr hne))
      refine (fileBlockWalk_absent hs hb.file hge hn hzero).post ?_
      rintro r t ⟨rfl, ht⟩
      exact sat_pure.mpr ht.content
  · refine (fileBlockWalk_inval false (Nat.not_lt.mp hn)).post ?_
    rintro r t ⟨rfl, rfl⟩
    exact sat_pure.mpr rfl

lemma fileFlush_sat (hs : SuperOk s.content) (hb : ∀ n, BlocksAt s.content f n) :
    Sat (fileFlush f) s (fun _ t => t.content = s.content) NoMem := by
  have hfile := (hb 0).file
  unfold fileFlush
  rw [sat_bind]
  refine (loadWord_sat hs (hfile.field (k := 128) (by decide))).post ?_
  rintro w t ⟨rfl, ht⟩
  rw [sat_bind]
  refine Sat.post (Q := fun _ u => u.content = s.content) ?_ ?_
  · apply sat_forM_range (fun _ (u : Fs) => u.content = s.content)
    · intro i u _ hu
      have hflush := flushFileBlock_sat (s := u) (f := f) (n := i) (by rw [hu]; exact hs)
        (by rw [hu]; exact hb i)
      rw [hu] at hflush
      exact hflush
    · exact ht.content
  intro _ u hu
  have hblock : f / 4096 < maxBlocks := Nat.lt_of_lt_of_le hfile.inUse.1 hs.size
  rw [sat_bind]
  refine (flushBlock_sat hblock).post ?_
  rintro - v rfl
  have hcv : Fs.content { u with cache := u.cache.flush (f / 4096) } = s.content := by
    rw [content_flush]
    exact hu
  rw [sat_bind]
  refine (loadWord_sat (by rw [hcv]; exact hs) (by rw [hcv]; exact hfile.field (k := 176) (by decide))).post ?_
  rintro w v ⟨rfl, hv⟩
  have hcv' : v.content = s.content := hv.content.trans hcv
  rw [hcv, sat_ite]
  constructor
  · intro hne
    have hpos : indirectOf s.content f ≠ 0 := fun hzero => hne (indirectOf_eq_zero.mp hzero)
    obtain ⟨huse, -⟩ := (hb 0).indirect hpos
    rw [sat_bind]
    refine (diskaddr_sat hpos (by rw [hcv']; exact huse.1)).post ?_
    rintro a x ⟨rfl, rfl⟩
    have hblock : 4096 * (wordAt s.content (fIndirect f)).toNat / 4096 < maxBlocks := by
      rw [Nat.mul_div_cancel_left _ (by decide)]
      exact Nat.lt_of_lt_of_le huse.1 hs.size
    refine (flushBlock_sat hblock).post ?_
    rintro - y rfl
    rw [content_flush]
    exact hcv'
  · exact fun _ => sat_pure.mpr hcv'

/-! ### `dir_alloc_file` -/

/-- The directory of the last element of a path, where only that is missing. -/
lemma Wf.walkAt_parent (h : Wf c F) (dir : ℕ) (hf : f ∈ F) {names : List CString} {r : ℤ}
    (hnames : ∀ name ∈ names, name ≠ []) (hwalk : walkAt c dir f names = .error (r, some (d, name))) :
    d ∈ F ∧ IsDir c d ∧ name ∈ names ∧ name.length < maxnamelen := by
  induction names generalizing dir f with
  | nil => cases hwalk
  | cons x rest ih =>
    unfold walkAt at hwalk
    by_cases hlong : maxnamelen ≤ x.length
    · rw [if_pos hlong] at hwalk
      cases hwalk
    rw [if_neg hlong] at hwalk
    by_cases hreg : fileType c f ≠ ftypeDir
    · rw [if_pos hreg] at hwalk
      cases hwalk
    rw [if_neg hreg] at hwalk
    have hdir : IsDir c f := not_not.mp hreg
    cases hlook : lookupAt c f x with
    | ok g =>
      rw [hlook] at hwalk
      have hg := h.lookupAt_mem hf hdir (hnames x List.mem_cons_self) hlook
      obtain ⟨hd, hisDir, hmem, hshort⟩ :=
        ih f hg (fun y hy => hnames y (List.mem_cons_of_mem _ hy)) hwalk
      exact ⟨hd, hisDir, List.mem_cons_of_mem _ hmem, hshort⟩
    | error r' =>
      rw [hlook] at hwalk
      have hsnd := congrArg Prod.snd (Except.error.inj hwalk)
      dsimp only at hsnd
      by_cases hlast : r' = -eNotFound ∧ rest = []
      · rw [if_pos hlast] at hsnd
        obtain ⟨rfl, rfl⟩ := Prod.mk.inj (Option.some.inj hsnd)
        exact ⟨hf, hdir, List.mem_cons_self, Nat.not_le.mp hlong⟩
      · rw [if_neg hlast] at hsnd
        cases hsnd

lemma Wf.tests_isFreeEntry (h : Wf c F) (hd : d ∈ F) (hdir : IsDir c d) (he : Entry c d e) :
    Tests c isFreeEntry (fun e => decide (c e = 0)) e := by
  intro s hs
  unfold isFreeEntry
  rw [sat_bind]
  refine (loadByte_sat (by rw [hs]; exact h.super)
    (by rw [hs]; exact (h.fileAt_entry hd hdir he).inUse)).post ?_
  rintro x t ⟨rfl, ht⟩
  rw [sat_pure, hs]
  exact ⟨rfl, ht.content.trans hs⟩

/-- What `dir_alloc_file` does after it has looked for a free entry. -/
lemma Wf.allocTail_sat (h : Wf c F) (hd : d ∈ F) {u : Fs} (hu : u.content = c) :
    Sat (match (match freeEntry c d with
      | some e => Except.ok (some e)
      | none => if dirLen c d ≤ maxLen then .ok none else .error (-eInval)) with
      | .error r => pure (.error r)
      | .ok (some f) => pure (.ok f)
      | .ok none => do
        let size ← loadWord (fSize d)
        storeWord (fSize d) (size + 4096)
        fileGetBlock d (dirLen c d) : FsM (Except ℤ ℕ)) u
      (fun r t => Allocates F c d r t.content)
      (fun x t => NoMem x t ∨ (x = .badBlock 4294967287 ∧ freeEntry c d = none ∧
        Jams (lengthened c d) d (dirLen c d))) := by
  cases hfree : freeEntry c d with
  | some e =>
    rw [sat_pure, hu]
    exact .found hfree
  | none =>
    dsimp only
    by_cases hlen : dirLen c d ≤ maxLen
    · rw [if_pos hlen, sat_bind]
      have hfile := h.fileAt hd
      refine (loadWord_sat (by rw [hu]; exact h.super)
        (by rw [hu]; exact hfile.field (k := 128) (by decide))).mono ?_ (fun _ _ hmem => .inl hmem)
      rintro w v ⟨rfl, hv⟩
      have hcv : v.content = c := hv.content.trans hu
      have hal := hfile.aligned
      rw [sat_bind, hu]
      refine (storeWord_sat (by rw [hcv]; exact h.super)
        (by rw [hcv]; exact hfile.field (k := 128) (by decide)) (by unfold fSize; omega) _).mono ?_
        (fun _ _ hmem => .inl hmem)
      intro _ x hx
      have hcx : x.content = lengthened c d := by
        rw [hx.content, hcv]
        rfl
      refine ((h.toTree.resized hd _).tree.getBlock_sat hd (dirLen c d) hcx).mono ?_ ?_
      · exact fun r y hgets => .grown hfree hlen hgets
      · rintro e y (hmem | ⟨rfl, hjams⟩)
        · exact .inl hmem
        · exact .inr ⟨rfl, rfl, hjams⟩
    · rw [if_neg hlen, sat_pure, hu]
      exact .large hfree (Nat.not_le.mp hlen)

lemma Wf.dirAllocFile_sat (h : Wf c F) (hd : d ∈ F) (hdir : IsDir c d) (hs : s.content = c) :
    Sat (dirAllocFile d) s (fun r t => Allocates F c d r t.content)
      (fun x t => NoMem x t ∨ (x = .badBlock 4294967287 ∧ freeEntry c d = none ∧
        Jams (lengthened c d) d (dirLen c d))) := by
  unfold dirAllocFile
  rw [sat_bind]
  refine ((h.dirOk hd hdir).dirBlocks_sat hs).mono ?_ (fun _ _ hmem => .inl hmem)
  rintro n t ⟨rfl, ht⟩
  rw [sat_bind]
  refine ((h.dirOk hd hdir).search_sat (fun _ he => h.tests_isFreeEntry hd hdir he) ht).mono ?_
    (fun _ _ hmem => .inl hmem)
  rintro r u ⟨rfl, hu⟩
  rw [searchAt_zero]
  exact h.allocTail_sat hd hu

end SistemasOperativos.Fs
