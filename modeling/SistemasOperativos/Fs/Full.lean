import SistemasOperativos.Fs.Sizing
import SistemasOperativos.Fs.ReadBack
import SistemasOperativos.Fs.Resolve
import SistemasOperativos.Fs.Create

/-!
# A full disk

What the calls that allocate blocks do when there are not enough. `alloc_block` returns `-E_NO_DISK`
into an unsigned slot, so that only a missing indirect block is noticed.
-/

namespace SistemasOperativos.Fs

open Library Kern

/-- The calls that allocate blocks. -/
inductive GrowingCall
  | getBlock (f n : ℕ)
  | write (f : ℕ) (buf : List Byte) (offset : Word)
  | create (path : CString)

namespace GrowingCall

def run : GrowingCall → FsM (Except ℤ Unit)
  | getBlock f n => do return (← fileGetBlock f n).map (fun _ => ())
  | write f buf offset => do return (← fileWrite f buf offset).map (fun _ => ())
  | create path => do return (← fileCreate path).map (fun _ => ())

/-- The call is made for a file of `F`, with a count that is a 32-bit number. -/
def Valid (F : Set ℕ) : GrowingCall → Prop
  | getBlock f _ => f ∈ F
  | write f buf _ => f ∈ F ∧ buf.length < 2 ^ 32
  | create _ => True

end GrowingCall

/-- Where a `file_write` stops. -/
def writeStop (buf : List Byte) (offset : Word) : Word := offset + BitVec.ofNat 32 buf.length

/-- The first block that a `file_write` asks for. -/
def firstBlock (offset : Word) : ℕ := (offset.sdiv 4096).toNat

/-- The blocks that it asks for end before this one. -/
def lastBlock (buf : List Byte) (offset : Word) : ℕ :=
  if offset.toNat < 2 ^ 31 then ceilBlocks (writeStop buf offset).toNat else firstBlock offset + 1

/-- During the call the disk runs out of blocks: more are missing than are free. -/
def RunsOut (c : ℕ → Byte) : GrowingCall → Prop
  | .getBlock f n => n < maxLen ∧ freeCount c < wanted c f n
  | .write f buf offset => offset < writeStop buf offset ∧
      freeCount (begun c f (writeStop buf offset)) < need (begun c f (writeStop buf offset)) f
        (firstBlock offset) (min (lastBlock buf offset) maxLen)
  | .create path => ∃ d name,
      walkAt c 0 rootAddr (components (skipSlash path)) = .error (-eNotFound, some (d, name)) ∧
      (∀ e, Entry c d e → c e ≠ 0) ∧ dirLen c d < maxLen ∧ freeCount c < wanted c d (dirLen c d)

/-- The first block that is missing is an indirect block, of a regular file in a `file_write`. -/
def OnlyIndirect (c : ℕ → Byte) : GrowingCall → Prop
  | .getBlock f n => extra c f n = 1 ∧ freeCount c = 0
  | .write f buf offset => ¬IsDir c f ∧ max (firstBlock offset) ndirect < min (lastBlock buf offset) maxLen ∧
      indirectOf (begun c f (writeStop buf offset)) f = 0 ∧
      freeCount (begun c f (writeStop buf offset)) =
        holes (begun c f (writeStop buf offset)) f (firstBlock offset) (max (firstBlock offset) ndirect)
  | .create _ => False

/-- With the disk `c`, a lookup of the path can return `r`. -/
def Finds (c : ℕ → Byte) (path : CString) (r : Except (ℤ × Option (ℕ × CString)) (ℕ × ℕ)) : Prop :=
  ∃ u v, Fs.content u = c ∧ walkPath path u = .ok r v

/-- The answer to a call that there are not enough blocks for. -/
structure NoDisk (c : ℕ → Byte) (F : Set ℕ) (r : Except ℤ Unit) (c' : ℕ → Byte) : Prop where
  result : r = .error (-eNoDisk)
  slots : ∀ g ∈ F, ∀ p : Slot, p.Valid c' g → ptr c' g p ≠ 0 → InUse c' (ptr c' g p)
  dirs : ∀ d ∈ F, IsDir c d → fileSize c' d = fileSize c d
  lookups : ∀ path r, Finds c path r → ∀ u : Fs, u.content = c' →
    Sat (walkPath path) u (fun r' _ => r' = r) NoMem

variable {c c' : ℕ → Byte} {F : Set ℕ} {len : ℕ → ℕ} {s t : Fs} {b d e f g i j m n n₀ w₁ : ℕ}
  {offset stop : Word} {buf : List Byte} {path name : CString}

/-! ### Lookups -/

lemma Wf.finds_iff (h : Wf c F) {r : Except (ℤ × Option (ℕ × CString)) (ℕ × ℕ)}
    (hfinds : Finds c path r) : r = walkAt c 0 rootAddr (components (skipSlash path)) := by
  obtain ⟨u, v, hu, hrun⟩ := hfinds
  exact ((h.walkPath_sat path hu).of_ok hrun).1

/-- Lookups go on as before when the directories are kept. -/
lemma Wf.noDisk (h : Wf c F) (ht : Tree c' F (dirLen c)) (hk : Kept F (dirLen c) c c')
    (hsizes : ∀ d ∈ F, IsDir c d → fileSize c' d = fileSize c d) :
    NoDisk c F (.error (-eNoDisk)) c' where
  result := rfl
  slots g hg p hp hpos := (ht.slots g hg p hp hpos).2
  dirs := hsizes
  lookups path r hr u hu := by
    have h' := h.of_tree ht hk hsizes
    refine (h'.walkPath_sat path hu).post ?_
    rintro r' t ⟨rfl, -⟩
    rw [h.finds_iff hr]
    exact h.walkAt_kept hk hsizes 0 h.root (ne_nil_of_mem_components (noSlash_skipSlash path))

/-! ### `file_get_block` -/

/-- The outcome of a call during which the disk runs out of blocks. -/
def Answers (c : ℕ → Byte) (F : Set ℕ) (call : GrowingCall) (r : Except ℤ Unit) (c' : ℕ → Byte) : Prop :=
  NoDisk c F r c' ↔ OnlyIndirect c call

lemma Wf.getBlock_full (h : Wf c F) (hf : f ∈ F) (hout : RunsOut c (.getBlock f n)) (hs : s.content = c) :
    Sat (GrowingCall.run (.getBlock f n)) s (fun r t => Answers c F (.getBlock f n) r t.content)
      (fun e t => NoMem e t ∨ ¬OnlyIndirect c (.getBlock f n)) := by
  obtain ⟨hn, hroom⟩ := hout
  unfold GrowingCall.run
  rw [sat_bind]
  refine (h.toTree.getBlock_sat hf n hs).mono ?_ ?_
  · intro r t hgets
    rw [sat_pure]
    generalize t.content = c' at hgets
    cases hgets with
    | inval hmax => exact absurd hn (Nat.not_lt.mpr hmax)
    | full _ hextra hfull =>
      exact ⟨fun _ => ⟨hextra, hfull⟩, fun _ => h.noDisk h.toTree (Kept.refl F _ c) (fun _ _ _ => rfl)⟩
    | got _ hroom' _ => exact absurd hroom (Nat.not_lt.mpr hroom')
  · rintro e t (hmem | ⟨-, -, -, hcount⟩)
    · exact .inl hmem
    · right
      rintro ⟨hextra, hfull⟩
      omega

/-! ### `file_write` -/

/-- A loop that begins at block `n₀` is refused the indirect block of its first block behind the
direct ones. -/
lemma refused_iff {r : ℤ} (h : n₀ ≤ j) (hj : j < maxLen) (hr : Refused c f n₀ j r) :
    r = -eNoDisk ∧ j = max n₀ ndirect ∧ indirectOf c f = 0 ∧ freeCount c = holes c f n₀ j := by
  rcases hr with ⟨hmax, -⟩ | ⟨rfl, -, hcount, hge, hzero, hfirst⟩
  · exact absurd hj (Nat.not_lt.mpr hmax)
  · refine ⟨rfl, by omega, hzero, ?_⟩
    unfold need at hcount
    rw [if_neg (fun hand => hfirst ⟨hand.1, hand.2.1⟩), Nat.add_zero] at hcount
    exact hcount

lemma holes_mono (h : m ≤ n) : holes c f n₀ m ≤ holes c f n₀ n := by
  apply Finset.card_le_card
  apply Finset.filter_subset_filter
  exact Finset.Ico_subset_Ico le_rfl h

/-- A loop that stops the server has not been refused an indirect block. -/
lemma Chokes.not_refused (hc : Chokes c f n₀ j) (h : n₀ ≤ j) (hzero : indirectOf c f = 0)
    (hcount : freeCount c = holes c f n₀ (max n₀ ndirect)) : False := by
  obtain ⟨-, hblock, hfree⟩ := hc
  have hnext := holes_succ (c := c) (f := f) h
  rw [if_pos hblock] at hnext
  by_cases hlt : j < max n₀ ndirect
  · have hmono : holes c f n₀ (j + 1) ≤ holes c f n₀ (max n₀ ndirect) := holes_mono hlt
    have hextra : extra c f j = 0 := extra_eq_zero.mpr (.inl (by omega))
    omega
  · have hmono : holes c f n₀ (max n₀ ndirect) ≤ holes c f n₀ j := holes_mono (Nat.not_lt.mp hlt)
    have hextra : extra c f j = 1 := extra_eq_one.mpr ⟨by omega, hzero⟩
    omega

lemma firstBlock_of_small (h : offset.toNat < 2 ^ 31) : firstBlock offset = offset.toNat / 4096 :=
  toNat_sdiv h

/-- A negative offset is in block 0 or in none that a file can have. -/
lemma firstBlock_of_large (h : 2 ^ 31 ≤ offset.toNat) : firstBlock offset = 0 ∨ maxLen ≤ firstBlock offset := by
  have hlt := offset.isLt
  have hdiv : firstBlock offset = (2 ^ 32 - (2 ^ 32 - offset.toNat) / 4096) % 2 ^ 32 :=
    toNat_sdiv_of_large h (by decide)
  unfold maxLen ndirect nindirect
  omega

lemma toNat_writeStop (hbuf : buf.length < 2 ^ 32) (hlt : offset < writeStop buf offset) :
    (writeStop buf offset).toNat = offset.toNat + buf.length := by
  have hlt : offset.toNat < (writeStop buf offset).toNat := hlt
  unfold writeStop at hlt ⊢
  rw [BitVec.toNat_add, BitVec.toNat_ofNat] at hlt ⊢
  omega

/-- A `file_write` at an offset that is not negative. -/
lemma Wf.write_full_small (h : Wf c F) (hf : f ∈ F) (hreg : ¬IsDir c f) (hbuf : buf.length < 2 ^ 32)
    (hoffset : offset.toNat < 2 ^ 31) (hout : RunsOut c (.write f buf offset)) (hs : s.content = c) :
    Sat (GrowingCall.run (.write f buf offset)) s
      (fun r t => Answers c F (.write f buf offset) r t.content)
      (fun e t => NoMem e t ∨ ¬OnlyIndirect c (.write f buf offset)) := by
  obtain ⟨hlt, hroom⟩ := hout
  obtain ⟨htree, hkept, hsizes⟩ := h.toTree.tree_begun hf (noEntries_of_reg hreg) (writeStop buf offset)
  have hfirst := firstBlock_of_small hoffset
  have hstop := toNat_writeStop hbuf hlt
  have hlast : passedTo (firstBlock offset) offset.toNat (writeStop buf offset).toNat =
      lastBlock buf offset := by
    have hlt' : offset.toNat < (writeStop buf offset).toNat := hlt
    unfold passedTo lastBlock
    rw [if_pos hlt', if_pos hoffset]
  have hdata : IsDir (begun c f (writeStop buf offset)) f → dirLen c f ≤ firstBlock offset :=
    fun hdir => absurd ((hkept.isDir hf).mp hdir) hreg
  unfold GrowingCall.run
  rw [sat_bind]
  refine h.toTree.fileWrite_begun hf (noEntries_of_reg hreg) hs rfl (fun _ _ he => .inl he) ?_
  intro u hu
  refine (htree.writeTail_sat hf hdata buf offset (writeStop buf offset) hfirst.symm hstop hoffset hu).mono
    ?_ ?_
  · rintro r t (⟨rfl, hp⟩ | ⟨r', j, hi, rfl, hj, hj', hr, -, hp⟩)
    · have hneed := hp.room
      rw [hlast] at hneed
      have hmono := need_le (c := begun c f (writeStop buf offset)) (f := f)
        (le_refl (firstBlock offset)) (Nat.min_le_left (lastBlock buf offset) maxLen)
      omega
    · rw [sat_pure]
      rw [hlast] at hj'
      by_cases hmax : maxLen ≤ j
      · have hneed := hp.room
        have hmono := need_le (c := begun c f (writeStop buf offset)) (f := f)
          (le_refl (firstBlock offset)) ((Nat.min_le_right (lastBlock buf offset) maxLen).trans hmax)
        omega
      · obtain ⟨rfl, rfl, hzero, hcount⟩ := refused_iff hj (Nat.not_le.mp hmax) hr
        constructor
        · exact fun _ => ⟨hreg, by omega, hzero, hcount⟩
        · intro _
          apply h.noDisk hp.tree (hkept.trans hp.kept)
          intro d hd hdir
          have hne : d ≠ f := by
            rintro rfl
            exact hreg hdir
          exact (hp.sizes d hd hne).trans (hsizes d hd hne)
  · rintro e t (hmem | ⟨-, j, hj, -, hchokes⟩)
    · exact .inl hmem
    · right
      rintro ⟨-, -, hzero, hcount⟩
      exact hchokes.not_refused hj hzero hcount

/-- At a negative offset the only block that can be missing is block 0, which has a direct slot. -/
lemma Wf.write_full_large (h : Wf c F) (hf : f ∈ F) (hreg : ¬IsDir c f) (hbuf : buf.length < 2 ^ 32)
    (hoffset : 2 ^ 31 ≤ offset.toNat) (hout : RunsOut c (.write f buf offset)) (hs : s.content = c) :
    Sat (GrowingCall.run (.write f buf offset)) s
      (fun r t => Answers c F (.write f buf offset) r t.content)
      (fun e t => NoMem e t ∨ ¬OnlyIndirect c (.write f buf offset)) := by
  obtain ⟨hlt, hroom⟩ := hout
  obtain ⟨htree, -, -⟩ := h.toTree.tree_begun hf (noEntries_of_reg hreg) (writeStop buf offset)
  have hstop := toNat_writeStop hbuf hlt
  have hlast : lastBlock buf offset = firstBlock offset + 1 := if_neg (by omega)
  rw [hlast] at hroom
  have hzero : firstBlock offset = 0 := by
    rcases firstBlock_of_large hoffset with hzero | hmax
    · exact hzero
    · have hmin : min (firstBlock offset + 1) maxLen = maxLen := by omega
      rw [hmin] at hroom
      unfold need holes at hroom
      rw [Finset.Ico_eq_empty (by omega), if_neg (by omega)] at hroom
      exact absurd hroom (Nat.not_lt_zero _)
  rw [hzero] at hroom
  have hone : min (0 + 1) maxLen = 0 + 1 := by decide
  rw [hone] at hroom
  have hsum : offset + BitVec.ofNat 32 buf.length = writeStop buf offset := rfl
  have hnot : ¬OnlyIndirect c (.write f buf offset) := by
    rintro ⟨-, hblock, -⟩
    rw [hlast, hzero] at hblock
    exact absurd hblock (by decide)
  unfold GrowingCall.run
  rw [sat_bind]
  refine h.toTree.fileWrite_begun hf (noEntries_of_reg hreg) hs hsum (fun _ _ he => .inl he) ?_
  intro u hu
  cases buf with
  | nil =>
    have hlt : offset.toNat < (writeStop [] offset).toNat := hlt
    rw [hstop] at hlt
    exact absurd hlt (by simp)
  | cons x xs =>
    rw [List.length_cons]
    unfold writeLoop
    rw [if_pos hlt, sat_bind, sat_bind]
    have hget := htree.getBlock_sat hf (firstBlock offset) hu
    rw [hzero] at hget
    change Sat (fileGetBlock f (firstBlock offset)) u _ _
    rw [hzero]
    refine hget.mono ?_ (fun _ _ _ => .inr hnot)
    intro r t hgets
    generalize t.content = c' at hgets
    cases hgets with
    | inval hmax => exact absurd hmax (by decide)
    | full _ hextra => exact absurd (extra_eq_one.mp hextra).1 (by decide)
    | got _ hroom' _ =>
      unfold wanted at hroom'
      by_cases hblock : blockOf (begun c f (writeStop (x :: xs) offset)) f 0 = 0
      · rw [if_pos hblock] at hroom'
        rw [need_succ le_rfl hblock, holes_self] at hroom
        omega
      · rw [need_succ_of_ne le_rfl hblock, need_self] at hroom
        exact absurd hroom (Nat.not_lt_zero _)

/-! ### `file_create` -/

/-- A directory that has no free entry has got its new size before its next block is asked for. -/
lemma Wf.create_full (h : Wf c F) (hout : RunsOut c (.create path)) (hs : s.content = c) :
    Sat (GrowingCall.run (.create path)) s (fun r t => Answers c F (.create path) r t.content)
      (fun _ _ => ¬OnlyIndirect c (.create path)) := by
  obtain ⟨d, name, hwalk, hnamed, hlen, hroom⟩ := hout
  obtain ⟨hd, hdir, -, -⟩ := h.walkAt_parent 0 h.root (ne_nil_of_mem_components (noSlash_skipSlash path)) hwalk
  have hresized : Resized F (dirLen c) d (fileSize c d + 4096) c (lengthened c d) :=
    h.toTree.resized hd (fileSize c d + 4096)
  have hsizeWord : fileSize (lengthened c d) d = fileSize c d + 4096 := hresized.size
  have hwanted : wanted (lengthened c d) d (dirLen c d) = wanted c d (dirLen c d) := by
    unfold wanted
    rw [hresized.toInert.blockOf_same hd hlen]
    rw [hresized.extra_eq hd]
  unfold GrowingCall.run fileCreate
  rw [sat_bind, sat_bind]
  refine (h.walkPath_sat path hs).mono ?_ (fun _ _ _ => id)
  rintro r t ⟨rfl, ht⟩
  rw [hwalk]
  dsimp only
  rw [sat_bind]
  refine (h.dirAllocFile_sat hd hdir ht).mono ?_ (fun _ _ _ => id)
  intro r u halloc
  generalize hcu : u.content = c' at halloc
  cases halloc with
  | found hfree =>
    have hmem := List.find?_some hfree
    have hentry := mem_entries.mp (List.mem_of_find?_eq_some hfree)
    exact absurd (of_decide_eq_true hmem) (hnamed _ hentry)
  | large _ hlarge => exact absurd hlarge (Nat.not_lt.mpr hlen.le)
  | grown _ _ hgets =>
    cases hgets with
    | inval hmax => exact absurd hlen (Nat.not_lt.mpr hmax)
    | got _ hroom' _ =>
      rw [hwanted, hresized.freeCount_eq] at hroom'
      exact absurd hroom (Nat.not_lt.mpr hroom')
    | full =>
      rw [sat_pure, sat_pure, hcu]
      refine ⟨fun hno => ?_, fun hfalse => hfalse.elim⟩
      have hsize := hno.dirs d hd hdir
      rw [hsizeWord] at hsize
      have hne : fileSize c d + 4096 ≠ fileSize c d := by
        intro heq
        have hnat := congrArg BitVec.toNat heq
        rw [BitVec.toNat_add] at hnat
        have hlt := (fileSize c d).isLt
        change ((fileSize c d).toNat + 4096) % 2 ^ 32 = (fileSize c d).toNat at hnat
        omega
      exact absurd hsize hne

/-! ### The calls -/

/-- The call does not write through a directory. -/
def GrowingCall.Plain (c : ℕ → Byte) : GrowingCall → Prop
  | .write f _ _ => ¬IsDir c f
  | _ => True

lemma Wf.growing_full {call : GrowingCall} (h : Wf c F) (hcall : call.Valid F) (hplain : call.Plain c)
    (hout : RunsOut c call) (hs : s.content = c) :
    Sat call.run s (fun r t => Answers c F call r t.content)
      (fun e t => NoMem e t ∨ ¬OnlyIndirect c call) := by
  cases call with
  | getBlock f n => exact h.getBlock_full hcall hout hs
  | write f buf offset =>
    by_cases hoffset : offset.toNat < 2 ^ 31
    · exact h.write_full_small hcall.1 hplain hcall.2 hoffset hout hs
    · exact h.write_full_large hcall.1 hplain hcall.2 (Nat.not_lt.mp hoffset) hout hs
  | create path => exact (h.create_full hout hs).mono (fun _ _ hr => hr) (fun _ _ he => .inr he)

/-- A call during which the disk runs out of blocks is answered with `-E_NO_DISK`, and leaves the
disk in order, if and only if an indirect block is what is missing first. -/
theorem growing_noDisk {call : GrowingCall} (h : Wf c F) (hcall : call.Valid F) (hout : RunsOut c call)
    (hs : s.content = c) :
    Sat call.run s
      (fun r t => (OnlyIndirect c call → NoDisk c F r t.content) ∧
        (call.Plain c → NoDisk c F r t.content → OnlyIndirect c call))
      (fun e t => NoMem e t ∨ ¬OnlyIndirect c call) := by
  by_cases hplain : call.Plain c
  · refine (h.growing_full hcall hplain hout hs).mono ?_ (fun _ _ he => he)
    exact fun r t hanswers => ⟨hanswers.mpr, fun _ => hanswers.mp⟩
  · -- a write through a directory is not promised anything
    have hno : ¬OnlyIndirect c call := by
      cases call with
      | write f buf offset => exact fun honly => hplain honly.1
      | getBlock f n => exact absurd trivial hplain
      | create path => exact absurd trivial hplain
    refine (sat_self _ _).mono ?_ ?_
    · exact fun _ _ _ => ⟨fun honly => absurd honly hno, fun hyes => absurd hyes hplain⟩
    · exact fun _ _ _ => .inr hno

/-- The small disk without free blocks. -/
def fullDisk : ℕ → Byte := putWord smallDisk bitmapAddr 0

lemma wf_fullDisk : Wf fullDisk smallFiles := by
  have hc : Change smallDisk fullDisk (fun _ => False) := by
    constructor
    · constructor
      · decide +kernel
      · decide +kernel
      · decide +kernel
    · decide +kernel
    · intro i _ hi _
      have hbm : nbitmap smallDisk = 1 := by decide +kernel
      rw [hbm] at hi
      apply putWord_of_ne
      unfold bitmapAddr
      omega
  have hbits : ∀ b < 8, bitOf fullDisk b = false := by decide +kernel
  have hnb : nblocksOf smallDisk = 8 := by decide +kernel
  have hnb' : nblocksOf fullDisk = 8 := by decide +kernel
  have hinert := wf_smallDisk.toTree.tree_untouched hc ⟨fun _ _ _ _ _ hno => hno, fun _ _ _ _ _ hno => hno⟩
    (fun _ _ _ _ hno => hno) (by
      rintro b ⟨hb, -⟩
      rw [hnb] at hb
      exact ⟨by rw [hnb']; exact hb, hbits b hb⟩)
  apply wf_smallDisk.of_tree hinert.1 hinert.2
  intro d hd _
  rcases hd with rfl | rfl
  · decide +kernel
  · decide +kernel

/-- On the full disk the indirect block of a file is missed. -/
theorem growing_noDisk_full : Sat (GrowingCall.run (.getBlock 12288 10)) (onDisk fullDisk 20)
    (fun r t => (OnlyIndirect fullDisk (.getBlock 12288 10) → NoDisk fullDisk smallFiles r t.content) ∧
      (True → NoDisk fullDisk smallFiles r t.content → OnlyIndirect fullDisk (.getBlock 12288 10)))
    (fun e t => NoMem e t ∨ ¬OnlyIndirect fullDisk (.getBlock 12288 10)) :=
  growing_noDisk wf_fullDisk (.inr rfl) ⟨by decide, by decide +kernel⟩ (content_onDisk fullDisk 20)

/-- A direct block cannot be had on the full disk: the server stops. -/
theorem growing_panics : Wf fullDisk smallFiles ∧ (GrowingCall.getBlock 12288 2).Valid smallFiles ∧
    RunsOut fullDisk (.getBlock 12288 2) ∧
    ∃ t, GrowingCall.run (.getBlock 12288 2) (onDisk fullDisk 20) = .error (.badBlock 4294967287) t :=
  ⟨wf_fullDisk, .inr rfl, ⟨by decide, by decide +kernel⟩, _, eq_error_of_exitOf (by decide +kernel)⟩

end SistemasOperativos.Fs
