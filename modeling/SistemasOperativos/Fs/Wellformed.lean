import SistemasOperativos.Fs.Blocks

/-!
# Well-formed disks

A set of files that contains the root and every file with a name in one of its directories, whose
block numbers are valid and all different.
-/

namespace SistemasOperativos.Fs

open Library Kern

def IsDir (c : ℕ → Byte) (f : ℕ) : Prop := fileType c f = ftypeDir

/-- The number of blocks that the size of a directory stands for. -/
def dirLen (c : ℕ → Byte) (d : ℕ) : ℕ := (fileSize c d).toNat / 4096

/-- The number of blocks that a file can have. -/
def maxLen : ℕ := ndirect + nindirect

/-- The entry `j` of the block `n` of a directory. -/
def entryAt (c : ℕ → Byte) (d n j : ℕ) : ℕ := 4096 * ptr c d (blockSlot n) + sizeofFile * j

/-- `e` is an entry of the first `len` blocks of the directory `d`. -/
def EntryOf (c : ℕ → Byte) (len d e : ℕ) : Prop :=
  ∃ n < len, n < maxLen ∧ ∃ j < blkfiles, e = entryAt c d n j

/-- `e` is an entry of the directory `d`. -/
def Entry (c : ℕ → Byte) (d e : ℕ) : Prop := EntryOf c (dirLen c d) d e

/-- The files of a disk, when the directory `d` has `len d` blocks. -/
structure Tree (c : ℕ → Byte) (F : Set ℕ) (len : ℕ → ℕ) : Prop where
  super : SuperOk c
  root : rootAddr ∈ F
  rootDir : IsDir c rootAddr
  /-- every other file is an entry of a directory -/
  home : ∀ f ∈ F, f = rootAddr ∨ ∃ d ∈ F, IsDir c d ∧ EntryOf c (len d) d f
  /-- every entry with a name is a file -/
  named : ∀ d ∈ F, IsDir c d → ∀ e, EntryOf c (len d) d e → c e ≠ 0 → e ∈ F
  terminated : ∀ f ∈ F, ∃ i < maxnamelen, c (f + i) = 0
  slots : ∀ f ∈ F, ∀ p : Slot, p.Valid c f → ptr c f p ≠ 0 →
    2 + nbitmap c ≤ ptr c f p ∧ InUse c (ptr c f p)
  inj : ∀ f ∈ F, ∀ g ∈ F, ∀ p q : Slot, p.Valid c f → q.Valid c g → ptr c f p ≠ 0 →
    ptr c f p = ptr c g q → f = g ∧ p = q
  indirect : ∀ d ∈ F, IsDir c d → ndirect < len d → indirectOf c d ≠ 0
  present : ∀ d ∈ F, IsDir c d → ∀ n < len d, n < maxLen → ptr c d (blockSlot n) ≠ 0

/-- The size of a directory is a number of blocks, which are all there. One block more can be
missing, after an attempt to create a file in a directory of the greatest size. -/
structure Wf (c : ℕ → Byte) (F : Set ℕ) : Prop extends Tree c F (dirLen c) where
  whole : ∀ d ∈ F, IsDir c d → (fileSize c d).toNat % 4096 = 0
  bound : ∀ d ∈ F, IsDir c d → dirLen c d ≤ maxLen + 1

variable {c : ℕ → Byte} {F : Set ℕ} {len : ℕ → ℕ} {d e f n j : ℕ}

lemma blockSlot_ne_indirect (n : ℕ) : blockSlot n ≠ .indirect := by
  unfold blockSlot
  split <;> simp

lemma Tree.valid (h : Tree c F len) (hd : d ∈ F) (hdir : IsDir c d) (hn : n < len d)
    (hmax : n < maxLen) : (blockSlot n).Valid c d := by
  apply valid_blockSlot hmax
  by_cases hlt : n < ndirect
  · exact .inl hlt
  · exact .inr (h.indirect d hd hdir (by omega))

/-- The block of a directory that an entry is in. -/
lemma Tree.dirBlock (h : Tree c F len) (hd : d ∈ F) (hdir : IsDir c d) (hn : n < len d)
    (hmax : n < maxLen) : 2 + nbitmap c ≤ ptr c d (blockSlot n) ∧ InUse c (ptr c d (blockSlot n)) :=
  h.slots d hd _ (h.valid hd hdir hn hmax) (h.present d hd hdir n hn hmax)

lemma entryAt_div (hj : j < blkfiles) : entryAt c d n j / 4096 = ptr c d (blockSlot n) := by
  unfold blkfiles at hj
  unfold entryAt sizeofFile
  omega

lemma Tree.fileAt_entry (h : Tree c F len) (hd : d ∈ F) (hdir : IsDir c d)
    (he : EntryOf c (len d) d e) : FileAt c e := by
  obtain ⟨n, hn, hmax, j, hj, rfl⟩ := he
  obtain ⟨hle, huse⟩ := h.dirBlock hd hdir hn hmax
  have hdiv := entryAt_div (c := c) (d := d) (n := n) hj
  constructor
  · rw [hdiv]
    exact huse
  · unfold blkfiles at hj
    unfold entryAt sizeofFile
    omega
  · unfold entryAt sizeofFile
    omega
  · rw [hdiv]
    exact .inr hle

lemma Tree.fileAt (h : Tree c F len) (hf : f ∈ F) : FileAt c f := by
  rcases h.home f hf with rfl | ⟨d, hd, hdir, he⟩
  · constructor
    · exact h.super.inUse (by unfold rootAddr; omega)
    · decide
    · decide
    · exact .inl rfl
  · exact h.fileAt_entry hd hdir he

lemma Slot.valid_indirect (c : ℕ → Byte) (f : ℕ) : Slot.Valid c f .indirect := trivial

lemma ptr_indirect (c : ℕ → Byte) (f : ℕ) : ptr c f .indirect = indirectOf c f := rfl

/-- The indirect block of a file is not a block of a directory. -/
lemma Tree.indirect_ne (h : Tree c F len) (hf : f ∈ F) (hpos : indirectOf c f ≠ 0) {g : ℕ}
    (hg : g = rootAddr ∨ ∃ d ∈ F, IsDir c d ∧ EntryOf c (len d) d g) :
    indirectOf c f ≠ g / 4096 := by
  intro heq
  rcases hg with rfl | ⟨d, hd, hdir, n, hn, hmax, j, hj, rfl⟩
  · have hle := (h.slots f hf .indirect (Slot.valid_indirect c f) hpos).1
    rw [ptr_indirect, heq] at hle
    unfold rootAddr at hle
    omega
  · rw [entryAt_div hj] at heq
    have h := h.inj f hf d hd .indirect (blockSlot n) (Slot.valid_indirect c f)
      (h.valid hd hdir hn hmax) hpos heq
    exact blockSlot_ne_indirect n h.2.symm

lemma Tree.blocksAt (h : Tree c F len) (hf : f ∈ F) (n : ℕ) : BlocksAt c f n := by
  constructor
  · exact h.fileAt hf
  · intro hpos
    have hslot := h.slots f hf .indirect (Slot.valid_indirect c f) hpos
    exact ⟨hslot.2, hslot.1⟩
  · by_cases hpos : indirectOf c f = 0
    · rw [hpos]
      rcases (h.fileAt hf).place with rfl | hle
      · decide
      · omega
    · exact h.indirect_ne hf hpos (h.home f hf)
  · exact fun hvalid hpos => (h.slots f hf _ hvalid hpos).2

/-! ### A small disk -/

/-- The server with an empty cache over a disk, and `n` pages to be had. -/
def onDisk (c : ℕ → Byte) (n : ℕ) : Fs where
  cache := { disk := fun b o => c (4096 * b + o), pages := fun _ => none, log := [] }
  frames := n

lemma content_onDisk (c : ℕ → Byte) (n : ℕ) : (onDisk c n).content = c := by
  funext a
  change c (4096 * (a / 4096) + a % 4096) = c a
  rw [Nat.div_add_mod]

/-- A disk of eight blocks: the root has the block 3, whose only named entry is a regular file `a`
with the blocks 4 and 5. -/
def smallDisk : ℕ → Byte :=
  [(4100, 8), (bitmapAddr, 0xc0), (fSize rootAddr, 4096), (fType rootAddr, ftypeDir),
    (fDirect rootAddr 0, 3), (12288, 0x61), (fSize 12288, 5000), (fDirect 12288 0, 4),
    (fDirect 12288 1, 5)].foldl (fun c w => putWord c w.1 w.2) (fun _ => 0)

def smallFiles : Set ℕ := {rootAddr, 12288}

/-- The block numbers on the disk: the block of the root and those of the regular file. -/
lemma smallDisk_slot {f : ℕ} {p : Slot} (hf : f ∈ smallFiles) (hp : p.Valid smallDisk f)
    (hpos : ptr smallDisk f p ≠ 0) :
    (f = rootAddr ∧ p = .direct 0 ∧ ptr smallDisk f p = 3) ∨
    (f = 12288 ∧ p = .direct 0 ∧ ptr smallDisk f p = 4) ∨
    (f = 12288 ∧ p = .direct 1 ∧ ptr smallDisk f p = 5) := by
  have hroot : ∀ i < ndirect, ptr smallDisk rootAddr (.direct i) = if i = 0 then 3 else 0 := by
    decide +kernel
  have hfile : ∀ i < ndirect,
      ptr smallDisk 12288 (.direct i) = if i = 0 then 4 else if i = 1 then 5 else 0 := by
    decide +kernel
  have hnone : indirectOf smallDisk f = 0 := by
    rcases hf with rfl | rfl
    · decide +kernel
    · decide +kernel
  cases p with
  | indirect => exact absurd hnone hpos
  | entry i => exact absurd hnone hp.2
  | direct i =>
    rcases hf with rfl | rfl
    · rw [hroot i hp] at hpos ⊢
      by_cases h0 : i = 0
      · simp [h0]
      · simp [h0] at hpos
    · rw [hfile i hp] at hpos ⊢
      by_cases h0 : i = 0
      · simp [h0]
      · by_cases h1 : i = 1
        · simp [h1]
        · simp [h0, h1] at hpos

lemma smallDisk_isDir {d : ℕ} (hd : d ∈ smallFiles) (hdir : IsDir smallDisk d) :
    d = rootAddr ∧ dirLen smallDisk d = 1 := by
  rcases hd with rfl | rfl
  · exact ⟨rfl, by decide +kernel⟩
  · have hreg : fileType smallDisk 12288 ≠ ftypeDir := by decide +kernel
    exact absurd hdir hreg

lemma smallDisk_entry {d e : ℕ} (hd : d ∈ smallFiles) (hdir : IsDir smallDisk d)
    (he : EntryOf smallDisk (dirLen smallDisk d) d e) : ∃ j < blkfiles, e = 12288 + 256 * j := by
  obtain ⟨rfl, hlen⟩ := smallDisk_isDir hd hdir
  obtain ⟨n, hn, -, j, hj, rfl⟩ := he
  rw [hlen] at hn
  obtain rfl : n = 0 := by omega
  have hblock : ptr smallDisk rootAddr (blockSlot 0) = 3 := by decide +kernel
  refine ⟨j, hj, ?_⟩
  unfold entryAt sizeofFile
  rw [hblock]

lemma wf_smallDisk : Wf smallDisk smallFiles := by
  have hroot : rootAddr ∈ smallFiles := .inl rfl
  have hdir : IsDir smallDisk rootAddr := by
    unfold IsDir
    decide +kernel
  constructor
  · constructor
    · constructor
      · decide +kernel
      · decide +kernel
      · decide +kernel
    · exact hroot
    · exact hdir
    · rintro f (rfl | rfl)
      · exact .inl rfl
      · refine .inr ⟨rootAddr, hroot, hdir, 0, by decide +kernel, by decide, 0, by decide, ?_⟩
        decide +kernel
    · intro d hd hdir e he hname
      obtain ⟨j, hj, rfl⟩ := smallDisk_entry hd hdir he
      have hempty : ∀ j < blkfiles, j ≠ 0 → smallDisk (12288 + 256 * j) = 0 := by decide +kernel
      by_cases h0 : j = 0
      · subst h0
        exact .inr rfl
      · exact absurd (hempty j hj h0) hname
    · rintro f (rfl | rfl)
      · exact ⟨0, by decide, by decide +kernel⟩
      · exact ⟨1, by decide, by decide +kernel⟩
    · intro f hf p hp hpos
      rcases smallDisk_slot hf hp hpos with ⟨-, -, h⟩ | ⟨-, -, h⟩ | ⟨-, -, h⟩
      · rw [h]
        exact ⟨by decide +kernel, by decide +kernel, by decide +kernel⟩
      · rw [h]
        exact ⟨by decide +kernel, by decide +kernel, by decide +kernel⟩
      · rw [h]
        exact ⟨by decide +kernel, by decide +kernel, by decide +kernel⟩
    · intro f hf g hg p q hp hq hpos heq
      have hpos' : ptr smallDisk g q ≠ 0 := heq ▸ hpos
      rcases smallDisk_slot hf hp hpos with ⟨rfl, rfl, h⟩ | ⟨rfl, rfl, h⟩ | ⟨rfl, rfl, h⟩ <;>
        rcases smallDisk_slot hg hq hpos' with ⟨rfl, rfl, h'⟩ | ⟨rfl, rfl, h'⟩ | ⟨rfl, rfl, h'⟩ <;>
        first | exact ⟨rfl, rfl⟩ | omega
    · intro d hd hdir hlt
      rw [(smallDisk_isDir hd hdir).2] at hlt
      exact absurd hlt (by decide)
    · intro d hd hdir n hn _
      obtain ⟨rfl, hlen⟩ := smallDisk_isDir hd hdir
      rw [hlen] at hn
      obtain rfl : n = 0 := by omega
      decide +kernel
  · intro d hd hdir
    obtain ⟨rfl, -⟩ := smallDisk_isDir hd hdir
    decide +kernel
  · intro d hd hdir
    rw [(smallDisk_isDir hd hdir).2]
    decide

end SistemasOperativos.Fs
