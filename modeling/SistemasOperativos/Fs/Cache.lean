import Mathlib.Data.Finset.Card
import SistemasOperativos.Library.Bytes
import SistemasOperativos.Library.Exits
import SistemasOperativos.Library.WriteBack
import SistemasOperativos.Kern.Mmu

/-!
# The block cache

`fs/bc.c`, and the accesses to the blocks that are mapped at `DISKMAP`. Addresses are offsets from
`DISKMAP`, so that block `b` is at `4096 * b`.
-/

namespace SistemasOperativos.Fs

open Library Kern

/-- How the file server can stop. -/
inductive FsExit
  /-- "bad block number" in `diskaddr` -/
  | badBlock (b : ℕ)
  /-- "page fault in FS" -/
  | outside
  /-- "reading non-existent block" -/
  | nonexistent
  /-- "reading free block" -/
  | readFree
  /-- a failed `sys_page_alloc` -/
  | noMem
  /-- "flush_block of bad va" -/
  | badFlush
  /-- "attempt to free zero block" -/
  | freeZero
  /-- a failed assertion -/
  | assertion
  deriving DecidableEq

set_option linter.dupNamespace false in
/-- The block cache over the disk, and the number of page allocations that the kernel still
grants. -/
structure Fs where
  cache : WriteBack Byte
  frames : ℕ

abbrev FsM := EStateM FsExit Fs

/-- `DISKSIZE / BLKSIZE`. -/
def maxBlocks : ℕ := 786432
/-- The address of `super->s_root`. -/
def rootAddr : ℕ := 4104
/-- The address of `bitmap`. -/
def bitmapAddr : ℕ := 8192

set_option linter.dupNamespace false in
/-- What the server sees at the addresses of the cache. -/
def Fs.content (s : Fs) : ℕ → Byte := fun a => s.cache.block (a / 4096) (a % 4096)

/-- `super->s_nblocks`. The super block stays mapped after `bc_init`. -/
def nblocksOf (c : ℕ → Byte) : ℕ := (wordAt c 4100).toNat

/-- The bit of block `b` in the bitmap. -/
def bitOf (c : ℕ → Byte) (b : ℕ) : Bool := (wordAt c (bitmapAddr + 4 * (b / 32))).getLsbD (b % 32)

def diskaddr (b : ℕ) : FsM ℕ := do
  if b = 0 ∨ nblocksOf (← get).content ≤ b then throw (.badBlock b)
  return 4096 * b

/-- `bc_pgfault` up to its last check. -/
def bcRead (b : ℕ) : FsM Unit := do
  let s ← get
  if maxBlocks ≤ b then throw .outside
  if nblocksOf s.content ≤ b then throw .nonexistent
  if s.frames = 0 then throw .noMem
  set { s with cache := s.cache.load b, frames := s.frames - 1 }

/-- An access to block `b`. `bc_pgfault` looks the block up in the bitmap, whose blocks can fault in
turn; `fuel` bounds the nesting. -/
def touchWith : ℕ → ℕ → FsM Unit
  | 0, b => do
    if ((← get).cache.pages b).isNone then throw .outside
  | fuel + 1, b => do
    if ((← get).cache.pages b).isNone then
      bcRead b
      touchWith fuel (2 + b / 32768)
      if bitOf (← get).content b then throw .readFree

/-- The bitmap block of a bitmap block is block 2. -/
def touch (b : ℕ) : FsM Unit := touchWith 3 b

def loadByte (a : ℕ) : FsM Byte := do
  touch (a / 4096)
  return (← get).content a

def loadWord (a : ℕ) : FsM Word := do
  touch (a / 4096)
  return wordAt (← get).content a

def storeByte (a : ℕ) (x : Byte) : FsM Unit := do
  touch (a / 4096)
  modify fun s => { s with
    cache := s.cache.change (a / 4096) (fun data => Function.update data (a % 4096) x) }

def storeWord (a : ℕ) (w : Word) : FsM Unit := do
  touch (a / 4096)
  modify fun s => { s with cache := s.cache.change (a / 4096) (fun data => putWord data (a % 4096) w) }

/-- The stores of a `memmove` to `a`. -/
def storeBytes (a : ℕ) : List Byte → FsM Unit
  | [] => return
  | x :: bs => do
    storeByte a x
    storeBytes (a + 1) bs

/-- `sys_page_alloc` at the address of block `b`. A page that was there is freed. -/
def pageAllocAt (b : ℕ) : FsM Unit := do
  let s ← get
  if s.frames = 0 then throw .noMem
  set { s with
    cache := s.cache.map b (fun _ => 0)
    frames := if (s.cache.pages b).isSome then s.frames else s.frames - 1 }

/-- `memset(blockaddr, 0, PGSIZE)`. -/
def clearBlock (b : ℕ) : FsM Unit := do
  touch b
  modify fun s => { s with cache := s.cache.change b (fun _ _ => 0) }

def flushBlock (a : ℕ) : FsM Unit := do
  if maxBlocks ≤ a / 4096 then throw .badFlush
  modify fun s => { s with cache := s.cache.flush (a / 4096) }

variable {s t u : Fs} {a b : ℕ} {c : ℕ → Byte}

/-! ### What the super block and the bitmap promise -/

/-- The number of bitmap blocks. -/
def nbitmap (c : ℕ → Byte) : ℕ := (nblocksOf c + 32767) / 32768

/-- The super block and the bitmap pass the checks of `fs_init`, for the whole bitmap. -/
structure SuperOk (c : ℕ → Byte) : Prop where
  size : nblocksOf c ≤ maxBlocks
  exist : 2 + nbitmap c ≤ nblocksOf c
  reserved : ∀ b < 2 + nbitmap c, bitOf c b = false

/-- Block `b` exists and is in use. -/
def InUse (c : ℕ → Byte) (b : ℕ) : Prop := b < nblocksOf c ∧ bitOf c b = false

lemma SuperOk.bitmapBlock (h : SuperOk c) (hb : b < nblocksOf c) : InUse c (2 + b / 32768) := by
  have hlt : 2 + b / 32768 < 2 + nbitmap c := by
    unfold nbitmap
    omega
  exact ⟨Nat.lt_of_lt_of_le hlt h.exist, h.reserved _ hlt⟩

/-- The bytes of `s_nblocks` and of the bitmap. -/
def SuperByte (c : ℕ → Byte) (i : ℕ) : Prop :=
  (4100 ≤ i ∧ i < 4104) ∨ (8192 ≤ i ∧ i < 4096 * (2 + nbitmap c))

section Congr

variable {c c' : ℕ → Byte} (h : ∀ i, SuperByte c i → c' i = c i)

include h

lemma nblocksOf_congr : nblocksOf c' = nblocksOf c := by
  unfold nblocksOf
  rw [wordAt_congr]
  intro i hi hi'
  exact h i (.inl (by omega))

lemma bitOf_congr {b : ℕ} (hb : b < nblocksOf c) : bitOf c' b = bitOf c b := by
  have hlt : b / 32768 < nbitmap c := by
    unfold nbitmap
    omega
  unfold bitOf bitmapAddr
  rw [wordAt_congr]
  intro i hi hi'
  exact h i (.inr (by omega))

lemma InUse.congr {b : ℕ} (hb : InUse c b) : InUse c' b := by
  unfold InUse
  rw [nblocksOf_congr h, bitOf_congr h hb.1]
  exact hb

/-- The super block and the bitmap are as good as before when they have not changed. -/
lemma SuperOk.congr (hs : SuperOk c) : SuperOk c' := by
  have hnb := nblocksOf_congr h
  have hbm : nbitmap c' = nbitmap c := by
    unfold nbitmap
    rw [hnb]
  constructor
  · rw [hnb]
    exact hs.size
  · rw [hnb, hbm]
    exact hs.exist
  · intro b hb
    rw [hbm] at hb
    rw [bitOf_congr h (Nat.lt_of_lt_of_le hb hs.exist)]
    exact hs.reserved b hb

end Congr

/-! ### Accesses -/

/-- Blocks have been read into the cache. -/
structure Loaded (s t : Fs) : Prop where
  content : t.content = s.content
  disk : t.cache.disk = s.cache.disk
  log : t.cache.log = s.cache.log
  dirty : ∀ b data, t.cache.pages b = some ⟨data, true⟩ ↔ s.cache.pages b = some ⟨data, true⟩
  mapped : ∀ b, (s.cache.pages b).isSome → (t.cache.pages b).isSome
  coherent : s.cache.Coherent → t.cache.Coherent

lemma Loaded.refl (s : Fs) : Loaded s s :=
  ⟨rfl, rfl, rfl, fun _ _ => Iff.rfl, fun _ h => h, fun h => h⟩

lemma Loaded.trans (h : Loaded s t) (h' : Loaded t u) : Loaded s u where
  content := h'.content.trans h.content
  disk := h'.disk.trans h.disk
  log := h'.log.trans h.log
  dirty b data := (h'.dirty b data).trans (h.dirty b data)
  mapped b hb := h'.mapped b (h.mapped b hb)
  coherent hs := h'.coherent (h.coherent hs)

/-- The exit that a well-formed disk leaves: the kernel has no page left. -/
def NoMem (e : FsExit) (t : Fs) : Prop := e = .noMem ∧ t.frames = 0

lemma bcRead_sat (hs : SuperOk s.content) (hb : b < nblocksOf s.content)
    (hnone : s.cache.pages b = none) :
    Sat (bcRead b) s (fun _ t => Loaded s t ∧ (t.cache.pages b).isSome) NoMem := by
  have hmax : ¬maxBlocks ≤ b := by
    have h := hs.size
    omega
  unfold bcRead
  simp only [sat_bind, sat_get, sat_ite, sat_throw, sat_set]
  refine ⟨fun h => absurd h hmax, fun _ => ⟨fun h => absurd h (Nat.not_le.mpr hb), fun _ =>
    ⟨fun hzero => ⟨rfl, hzero⟩, fun _ => ?_⟩⟩⟩
  constructor
  · constructor
    · funext a
      change (s.cache.load b).block (a / 4096) (a % 4096) = _
      rw [WriteBack.block_load hnone]
      rfl
    · rfl
    · rfl
    · intro b' data
      change (Function.update s.cache.pages b _) b' = _ ↔ _
      by_cases hbb : b' = b
      · subst hbb
        simp [hnone]
      · rw [Function.update_of_ne hbb]
    · exact fun b' hb' => WriteBack.isSome_map.mpr (.inr hb')
    · exact fun h => h.load b
  · exact WriteBack.isSome_map.mpr (.inl rfl)

lemma touchWith_mapped {E : FsExit → Fs → Prop} (fuel : ℕ) (h : (s.cache.pages b).isSome) :
    Sat (touchWith fuel b) s (fun _ t => t = s) E := by
  have hnone : ¬(s.cache.pages b).isNone = true := by
    rw [Option.isNone_iff_eq_none]
    intro hb
    rw [hb] at h
    cases h
  cases fuel with
  | zero =>
    unfold touchWith
    simp only [sat_bind, sat_get, sat_ite, sat_pure]
    exact ⟨fun h => absurd h hnone, fun _ => trivial⟩
  | succ fuel =>
    unfold touchWith
    simp only [sat_bind, sat_get, sat_ite, sat_pure]
    exact ⟨fun h => absurd h hnone, fun _ => trivial⟩

/-- One level of the nesting. -/
lemma touchWith_succ (hs : SuperOk s.content) (hb : InUse s.content b) (fuel : ℕ)
    (hinner : ∀ u, Loaded s u → (u.cache.pages b).isSome →
      Sat (touchWith fuel (2 + b / 32768)) u (fun _ t => Loaded u t) NoMem) :
    Sat (touchWith (fuel + 1) b) s (fun _ t => Loaded s t ∧ (t.cache.pages b).isSome) NoMem := by
  unfold touchWith
  simp only [sat_bind, sat_get, sat_ite, sat_pure]
  constructor
  · intro hnone
    rw [Option.isNone_iff_eq_none] at hnone
    refine (bcRead_sat hs hb.1 hnone).mono ?_ (fun _ _ h => h)
    rintro - u ⟨hu, hmap⟩
    refine (hinner u hu hmap).mono ?_ (fun _ _ h => h)
    intro _ t ht
    have hst := hu.trans ht
    refine ⟨fun hbit => ?_, fun _ => ⟨hst, ht.mapped b hmap⟩⟩
    rw [hst.content, hb.2] at hbit
    cases hbit
  · intro hsome
    refine ⟨Loaded.refl s, ?_⟩
    cases hp : s.cache.pages b with
    | none => exact absurd (by rw [hp]; rfl) hsome
    | some p => rfl

lemma touch_sat (hs : SuperOk s.content) (hb : InUse s.content b) :
    Sat (touch b) s (fun _ t => Loaded s t ∧ (t.cache.pages b).isSome) NoMem := by
  have hlt : b < maxBlocks := Nat.lt_of_lt_of_le hb.1 hs.size
  unfold maxBlocks at hlt
  have hzero : (2 + b / 32768) / 32768 = 0 := by omega
  apply touchWith_succ hs hb
  intro u hu _
  have hsu : SuperOk u.content := by
    rw [hu.content]
    exact hs
  have hbu := hs.bitmapBlock hb.1
  rw [← hu.content] at hbu
  refine (touchWith_succ hsu hbu 1 ?_).post (fun _ _ h => h.1)
  intro v hv _
  have hsv : SuperOk v.content := by
    rw [hv.content]
    exact hsu
  have hbv := hsu.bitmapBlock hbu.1
  rw [← hv.content] at hbv
  rw [hzero] at hbv ⊢
  refine (touchWith_succ hsv hbv 0 ?_).post (fun _ _ h => h.1)
  -- the bitmap block of block 2 is block 2 itself
  intro w _ hmap
  exact (touchWith_mapped 0 hmap).post (fun _ t ht => ht ▸ Loaded.refl w)

/-- An access to the block `b` succeeds, if there is memory for it. -/
def Ready (s : Fs) (b : ℕ) : Prop :=
  (s.cache.pages b).isSome ∨ (SuperOk s.content ∧ InUse s.content b)

lemma touch_ready (h : Ready s b) :
    Sat (touch b) s (fun _ t => Loaded s t ∧ (t.cache.pages b).isSome) NoMem := by
  rcases h with hmap | ⟨hs, huse⟩
  · refine (touchWith_mapped 3 hmap).post ?_
    rintro - t rfl
    exact ⟨.refl t, hmap⟩
  · exact touch_sat hs huse

/-! ### The pages of the bitmap -/

/-- The bitmap blocks that are not in the cache. -/
def uncached (s : Fs) : Finset ℕ :=
  (Finset.range (nbitmap s.content)).filter (fun k => (s.cache.pages (2 + k)).isNone)

/-- Every page that has been allocated holds a bitmap block that was not in the cache. -/
def Paid (s t : Fs) : Prop := t.frames + (uncached s).card = s.frames + (uncached t).card

/-- There are too few pages for the bitmap. -/
def Short (s : Fs) (e : FsExit) (t : Fs) : Prop := NoMem e t ∧ s.frames < (uncached s).card

lemma Paid.refl (s : Fs) : Paid s s := rfl

lemma Paid.trans (h : Paid s t) (h' : Paid t u) : Paid s u := by
  unfold Paid at h h' ⊢
  omega

/-- The pages were too few from the beginning. -/
lemma Paid.short (h : Paid s t) {e : FsExit} (h' : Short t e u) : Short s e u := by
  obtain ⟨hmem, hlt⟩ := h'
  unfold Paid at h
  exact ⟨hmem, by omega⟩

lemma content_load (hnone : s.cache.pages b = none) (n : ℕ) :
    Fs.content ⟨s.cache.load b, n⟩ = s.content := by
  funext a
  change (s.cache.load b).block (a / 4096) (a % 4096) = _
  rw [WriteBack.block_load hnone]
  rfl

lemma mem_uncached {k : ℕ} :
    k ∈ uncached s ↔ k < nbitmap s.content ∧ s.cache.pages (2 + k) = none := by
  unfold uncached
  rw [Finset.mem_filter, Finset.mem_range, Option.isNone_iff_eq_none]

lemma uncached_load {k : ℕ} (hnone : s.cache.pages (2 + k) = none) (n : ℕ) :
    uncached ⟨s.cache.load (2 + k), n⟩ = (uncached s).erase k := by
  ext j
  rw [Finset.mem_erase, mem_uncached, mem_uncached, content_load hnone]
  change _ ∧ Function.update s.cache.pages (2 + k) _ (2 + j) = none ↔ _
  by_cases hjk : j = k
  · subst hjk
    simp
  · have hne : 2 + j ≠ 2 + k := by omega
    rw [Function.update_of_ne hne]
    tauto

lemma bcRead_paid {k : ℕ} (hk : k < nbitmap s.content) (hnone : s.cache.pages (2 + k) = none) :
    Sat (bcRead (2 + k)) s (fun _ t => Paid s t ∧ t.content = s.content)
      (fun e t => e = .noMem → Short s e t) := by
  have hmem : k ∈ uncached s := mem_uncached.mpr ⟨hk, hnone⟩
  have hpos := Finset.card_pos.mpr ⟨k, hmem⟩
  unfold bcRead
  simp only [sat_bind, sat_get, sat_ite, sat_throw, sat_set]
  refine ⟨fun _ h => absurd h (by decide), fun _ => ⟨fun _ h => absurd h (by decide), fun _ =>
    ⟨fun hzero _ => ⟨⟨rfl, hzero⟩, by rw [hzero]; exact hpos⟩, fun hframes => ?_⟩⟩⟩
  refine ⟨?_, content_load hnone _⟩
  unfold Paid
  rw [uncached_load hnone, Finset.card_erase_of_mem hmem]
  dsimp only
  omega

/-- An access to a bitmap block takes pages for bitmap blocks only. -/
lemma touchWith_paid (fuel : ℕ) {k : ℕ} (hk : k < nbitmap s.content)
    (hsmall : nbitmap s.content ≤ 24) :
    Sat (touchWith fuel (2 + k)) s (fun _ t => Paid s t) (fun e t => e = .noMem → Short s e t) := by
  induction fuel generalizing s k with
  | zero =>
    unfold touchWith
    simp only [sat_bind, sat_get, sat_ite, sat_throw, sat_pure]
    exact ⟨fun _ h => absurd h (by decide), fun _ => Paid.refl s⟩
  | succ fuel ih =>
    unfold touchWith
    simp only [sat_bind, sat_get, sat_ite, sat_throw, sat_pure]
    refine ⟨fun hnone => ?_, fun _ => Paid.refl s⟩
    rw [Option.isNone_iff_eq_none] at hnone
    refine (bcRead_paid hk hnone).post ?_
    rintro - t ⟨hpaid, hcont⟩
    have hzero : (2 + k) / 32768 = 0 := by omega
    rw [hzero]
    refine (ih (s := t) (k := 0) (by rw [hcont]; omega) (by rw [hcont]; exact hsmall)).mono ?_ ?_
    · intro _ u hu
      exact ⟨fun _ h => absurd h (by decide), fun _ => hpaid.trans hu⟩
    · intro e u hu he
      exact hpaid.short (hu he)

lemma SuperOk.nbitmap_le (hs : SuperOk c) : nbitmap c ≤ 24 := by
  have h := hs.size
  unfold maxBlocks at h
  unfold nbitmap
  omega

/-- An access to the bitmap word of a block. -/
lemma touch_bitmap (hs : SuperOk s.content) (hb : b < nblocksOf s.content) :
    Sat (touch (2 + b / 32768)) s
      (fun _ t => Loaded s t ∧ Paid s t ∧ (t.cache.pages (2 + b / 32768)).isSome) (Short s) := by
  have hk : b / 32768 < nbitmap s.content := by
    unfold nbitmap
    omega
  refine ((touch_sat hs (hs.bitmapBlock hb)).and (touchWith_paid 3 hk hs.nbitmap_le)).mono ?_ ?_
  · rintro - t ⟨⟨hload, hmap⟩, hpaid⟩
    exact ⟨hload, hpaid, hmap⟩
  · rintro e t ⟨hmem, hshort⟩
    exact hshort hmem.1

/-! ### Accesses to mapped blocks -/

section Mapped

variable {E : FsExit → Fs → Prop}

lemma loadWord_mapped (h : (s.cache.pages (a / 4096)).isSome) :
    Sat (loadWord a) s (fun w t => w = wordAt s.content a ∧ t = s) E := by
  unfold loadWord touch
  simp only [sat_bind, sat_get, sat_pure]
  refine (touchWith_mapped 3 h).post ?_
  rintro - t rfl
  exact ⟨rfl, rfl⟩

lemma storeWord_mapped (h : (s.cache.pages (a / 4096)).isSome) (w : Word) :
    Sat (storeWord a w) s (fun _ t => t = { s with
      cache := s.cache.change (a / 4096) (fun data => putWord data (a % 4096) w) }) E := by
  unfold storeWord touch
  simp only [sat_bind, sat_modify]
  refine (touchWith_mapped 3 h).post ?_
  rintro - t rfl
  rfl

end Mapped

lemma loadByte_ready (h : Ready s (a / 4096)) :
    Sat (loadByte a) s (fun x t => x = s.content a ∧ Loaded s t ∧ Ready t (a / 4096)) NoMem := by
  unfold loadByte
  simp only [sat_bind, sat_get, sat_pure]
  refine (touch_ready h).post ?_
  rintro - t ⟨ht, hmap⟩
  exact ⟨congrFun ht.content a, ht, .inl hmap⟩

lemma loadByte_sat (hs : SuperOk s.content) (ha : InUse s.content (a / 4096)) :
    Sat (loadByte a) s (fun x t => x = s.content a ∧ Loaded s t) NoMem :=
  (loadByte_ready (.inr ⟨hs, ha⟩)).post (fun _ _ hx => ⟨hx.1, hx.2.1⟩)

lemma loadWord_sat (hs : SuperOk s.content) (ha : InUse s.content (a / 4096)) :
    Sat (loadWord a) s (fun w t => w = wordAt s.content a ∧ Loaded s t) NoMem := by
  unfold loadWord
  simp only [sat_bind, sat_get, sat_pure]
  refine (touch_sat hs ha).post ?_
  rintro - t ⟨ht, -⟩
  exact ⟨by rw [ht.content], ht⟩

/-! ### Stores -/

/-- Block `b` has been changed so that the content is `c`. -/
structure Stored (s : Fs) (b : ℕ) (c : ℕ → Byte) (t : Fs) : Prop where
  content : t.content = c
  disk : t.cache.disk = s.cache.disk
  log : t.cache.log = s.cache.log
  dirty : ∀ b' ≠ b, ∀ data,
    t.cache.pages b' = some ⟨data, true⟩ ↔ s.cache.pages b' = some ⟨data, true⟩
  mapped : ∀ b, (s.cache.pages b).isSome → (t.cache.pages b).isSome
  coherent : s.cache.Coherent → t.cache.Coherent

lemma change_stored (h : Loaded s t) (hb : (t.cache.pages b).isSome) {g : (ℕ → Byte) → ℕ → Byte}
    (hc : ∀ a, c a = if a / 4096 = b then g (fun o => s.content (4096 * b + o)) (a % 4096)
      else s.content a)
    (hg : ∀ data data' : ℕ → Byte, (∀ o < 4096, data o = data' o) → ∀ o < 4096, g data o = g data' o) :
    Stored s b c { t with cache := t.cache.change b g } where
  content := by
    funext a
    change (t.cache.change b g).block (a / 4096) (a % 4096) = c a
    rw [WriteBack.block_change hb, hc]
    by_cases hab : a / 4096 = b
    · rw [if_pos hab, if_pos hab]
      apply hg
      · intro o ho
        have hdiv : (4096 * b + o) / 4096 = b := by omega
        have hmod : (4096 * b + o) % 4096 = o := by omega
        rw [← h.content]
        unfold Fs.content
        rw [hdiv, hmod]
      · omega
    · rw [if_neg hab, if_neg hab, ← h.content]
      rfl
  disk := h.disk
  log := h.log
  dirty b' hb' data := by
    change (Function.update t.cache.pages b _) b' = _ ↔ _
    rw [Function.update_of_ne hb']
    exact h.dirty b' data
  mapped b' hb' := WriteBack.isSome_change.mpr (h.mapped b' hb')
  coherent hs := (h.coherent hs).change b g

lemma storeByte_ready (h : Ready s (a / 4096)) (x : Byte) :
    Sat (storeByte a x) s
      (fun _ t => Stored s (a / 4096) (Function.update s.content a x) t ∧ Ready t (a / 4096)) NoMem := by
  unfold storeByte
  simp only [sat_bind, sat_modify]
  refine (touch_ready h).post ?_
  rintro - t ⟨ht, hmap⟩
  have hmap' : ((t.cache.change (a / 4096) (fun data => Function.update data (a % 4096) x)).pages
      (a / 4096)).isSome := WriteBack.isSome_change.mpr hmap
  refine ⟨?_, .inl hmap'⟩
  apply change_stored ht hmap
  · intro i
    rw [Function.update_apply, Function.update_apply]
    by_cases hi : i / 4096 = a / 4096
    · rw [if_pos hi]
      have hsplit : 4096 * (a / 4096) + i % 4096 = i := by omega
      rw [hsplit]
      by_cases hia : i = a
      · rw [if_pos hia, if_pos (by rw [hia])]
      · rw [if_neg hia, if_neg (by omega)]
    · rw [if_neg hi, if_neg (fun h => hi (by rw [h]))]
  · intro data data' hd o ho
    rw [Function.update_apply, Function.update_apply, hd o ho]

lemma storeByte_sat (hs : SuperOk s.content) (ha : InUse s.content (a / 4096)) (x : Byte) :
    Sat (storeByte a x) s (fun _ t => Stored s (a / 4096) (Function.update s.content a x) t) NoMem :=
  (storeByte_ready (.inr ⟨hs, ha⟩) x).post (fun _ _ ht => ht.1)

/-- A word of a mapped block is changed. -/
lemma change_putWord (h : Loaded s t) (hmap : (t.cache.pages (a / 4096)).isSome) (hal : a % 4 = 0)
    (w : Word) : Stored s (a / 4096) (putWord s.content a w)
      { t with cache := t.cache.change (a / 4096) (fun data => putWord data (a % 4096) w) } := by
  apply change_stored h hmap
  · intro i
    unfold putWord
    by_cases hi : i / 4096 = a / 4096
    · rw [if_pos hi]
      have hsplit : 4096 * (a / 4096) + i % 4096 = i := by omega
      dsimp only
      rw [hsplit]
      by_cases hia : a ≤ i ∧ i < a + 4
      · have hsub : i % 4096 - a % 4096 = i - a := by omega
        rw [if_pos hia, if_pos (by omega), hsub]
      · rw [if_neg hia, if_neg (by omega)]
    · rw [if_neg hi, if_neg]
      omega
  · intro data data' hd o ho
    unfold putWord
    rw [hd o ho]

lemma storeWord_sat (hs : SuperOk s.content) (ha : InUse s.content (a / 4096)) (hal : a % 4 = 0)
    (w : Word) :
    Sat (storeWord a w) s
      (fun _ t => Stored s (a / 4096) (putWord s.content a w) t) NoMem := by
  unfold storeWord
  simp only [sat_bind, sat_modify]
  refine (touch_sat hs ha).post ?_
  rintro - t ⟨ht, hmap⟩
  exact change_putWord ht hmap hal w

/-- Stores behind the bitmap, inside of one block. -/
lemma storeBytes_sat (bs : List Byte) (hlt : a % 4096 + bs.length ≤ 4096) (hs : SuperOk s.content)
    (ha : 2 + nbitmap s.content ≤ a / 4096) (huse : InUse s.content (a / 4096)) :
    Sat (storeBytes a bs) s (fun _ t => t.content = putBytes s.content a bs) NoMem := by
  induction bs generalizing a s with
  | nil =>
    unfold storeBytes
    exact sat_pure.mpr rfl
  | cons x bs ih =>
    unfold storeBytes
    rw [sat_bind]
    refine (storeByte_sat hs huse x).post ?_
    intro _ t ht
    have hrest : ∀ i, SuperByte s.content i → t.content i = s.content i := by
      intro i hi
      have hne : i ≠ a := by
        unfold SuperByte at hi
        omega
      rw [ht.content, Function.update_of_ne hne]
    have hbm : nbitmap t.content = nbitmap s.content := by
      unfold nbitmap
      rw [nblocksOf_congr hrest]
    rw [List.length_cons] at hlt
    cases bs with
    | nil =>
      unfold storeBytes
      exact sat_pure.mpr ht.content
    | cons y bs =>
      rw [List.length_cons] at hlt
      have hblock : (a + 1) / 4096 = a / 4096 := by omega
      have h := ih (a := a + 1) (s := t) (by rw [List.length_cons]; omega) (hs.congr hrest)
        (by rw [hbm, hblock]; exact ha) (by rw [hblock]; exact huse.congr hrest)
      refine h.post ?_
      intro _ u hu
      rw [hu, ht.content]
      rfl

/-! ### Fresh pages and flushes -/

lemma flushBlock_sat (h : a / 4096 < maxBlocks) :
    Sat (flushBlock a) s (fun _ t => t = { s with cache := s.cache.flush (a / 4096) }) NoMem := by
  unfold flushBlock
  simp only [sat_bind, sat_ite, sat_throw, sat_modify]
  exact ⟨fun hge => absurd h (Nat.not_lt.mpr hge), fun _ => trivial⟩

/-- The content with block `b` cleared. -/
def cleared (c : ℕ → Byte) (b : ℕ) : ℕ → Byte := fun a => if a / 4096 = b then 0 else c a

/-- A new page for block `b`, cleared. -/
lemma pageAllocAt_clearBlock_sat (s : Fs) (b : ℕ) :
    Sat (do pageAllocAt b; clearBlock b) s (fun _ t => ∃ n, t = ⟨(s.cache.map b (fun _ => 0)).change b
      (fun _ _ => 0), n⟩) NoMem := by
  unfold pageAllocAt clearBlock touch
  simp only [sat_bind, sat_get, sat_ite, sat_throw, sat_set, sat_modify]
  refine ⟨fun hzero => ⟨rfl, hzero⟩, fun _ => ?_⟩
  have hmap : ((s.cache.map b (fun _ => 0)).pages b).isSome :=
    WriteBack.isSome_map.mpr (.inl rfl)
  refine (touchWith_mapped 3 hmap).post ?_
  rintro - t rfl
  exact ⟨_, rfl⟩

lemma content_cleared (s : Fs) (b n : ℕ) :
    Fs.content ⟨(s.cache.map b (fun _ => 0)).change b (fun _ _ => 0), n⟩ = cleared s.content b := by
  funext a
  change ((s.cache.map b (fun _ => 0)).change b (fun _ _ => 0)).block (a / 4096) (a % 4096) = _
  rw [WriteBack.block_change (WriteBack.isSome_map.mpr (.inl rfl)), WriteBack.block_map]
  unfold cleared
  by_cases h : a / 4096 = b
  · rw [if_pos h, if_pos h]
  · rw [if_neg h, if_neg h, if_neg h]
    rfl

lemma content_flush (s : Fs) (b n : ℕ) : Fs.content ⟨s.cache.flush b, n⟩ = s.content := by
  funext a
  exact congrFun (congrFun WriteBack.block_flush (a / 4096)) (a % 4096)

end SistemasOperativos.Fs
