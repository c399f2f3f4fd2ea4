import SistemasOperativos.Fs.Changes
import Mathlib.Data.List.Find

/-!
# Looking up a path

What `dir_lookup` and `walk_path` find on a well-formed disk, as functions of its content. They
change nothing.
-/

namespace SistemasOperativos.Fs

open Library Kern

/-- The string at `a` is `name`. -/
def nameIs (c : ℕ → Byte) (a : ℕ) : CString → Bool
  | [] => c a = 0
  | x :: xs => c a = x.val && nameIs c (a + 1) xs

/-- The entries of `n` blocks of a directory from block `i` on. -/
def entriesFrom (c : ℕ → Byte) (d i : ℕ) : ℕ → List ℕ
  | 0 => []
  | n + 1 => (List.range blkfiles).map (entryAt c d i) ++ entriesFrom c d (i + 1) n

def entries (c : ℕ → Byte) (d : ℕ) : List ℕ := entriesFrom c d 0 (min (dirLen c d) maxLen)

/-- What `dir_lookup` returns. -/
def lookupAt (c : ℕ → Byte) (d : ℕ) (name : CString) : Except ℤ ℕ :=
  match (entries c d).find? (fun e => nameIs c e name) with
  | some e => .ok e
  | none => .error (if dirLen c d ≤ maxLen then -eNotFound else -eInval)

/-- The elements of a path without slashes in front. -/
def components (path : CString) : List CString :=
  if _h : path = [] then []
  else path.takeWhile (· ≠ slash) :: components (nextElem path)
termination_by path.length
decreasing_by exact length_nextElem _h

/-- What `walk_path` returns from the file `f` in the directory `dir` on. -/
def walkAt (c : ℕ → Byte) (dir f : ℕ) :
    List CString → Except (ℤ × Option (ℕ × CString)) (ℕ × ℕ)
  | [] => .ok (dir, f)
  | name :: rest =>
    if maxnamelen ≤ name.length then .error (-eBadPath, none)
    else if fileType c f ≠ ftypeDir then .error (-eNotFound, none)
    else
      match lookupAt c f name with
      | .error r => .error (r, if r = -eNotFound ∧ rest = [] then some (f, name) else none)
      | .ok g => walkAt c f g rest

/-- A directory that can be searched: its blocks are there, and its entries are in them. -/
structure DirOk (c : ℕ → Byte) (d : ℕ) : Prop where
  super : SuperOk c
  file : FileAt c d
  whole : (fileSize c d).toNat % 4096 = 0
  bound : dirLen c d ≤ maxLen + 1
  blocks : ∀ n < dirLen c d, n < maxLen → BlocksAt c d n
  has : ∀ n < dirLen c d, n < maxLen → n < ndirect ∨ indirectOf c d ≠ 0
  present : ∀ n < dirLen c d, n < maxLen → ptr c d (blockSlot n) ≠ 0
  entry : ∀ e, Entry c d e → FileAt c e

/-- The directories that are met from `f` on along the names can be searched. -/
def Walkable (c : ℕ → Byte) (f : ℕ) : List CString → Prop
  | [] => True
  | name :: rest => FileAt c f ∧ (name.length < maxnamelen → IsDir c f →
      DirOk c f ∧ ∀ g, lookupAt c f name = .ok g → Walkable c g rest)

variable {c : ℕ → Byte} {F : Set ℕ} {s t : Fs} {a b d e f i j n : ℕ} {name path : CString}

/-! ### Blocks of a directory -/

/-- `file_get_block` of a block that is there changes nothing. -/
lemma fileGetBlock_present (hs : SuperOk s.content) (hb : BlocksAt s.content f n) (hn : n < maxLen)
    (hok : n < ndirect ∨ indirectOf s.content f ≠ 0) (hpos : ptr s.content f (blockSlot n) ≠ 0) :
    Sat (fileGetBlock f n) s (fun r t => r = .ok (4096 * ptr s.content f (blockSlot n)) ∧
      t.content = s.content) NoMem := by
  have hsame : ∀ c₁, GetsIndirect s.content f n c₁ → c₁ = s.content := by
    rintro c₁ (_ | ⟨hge, hzero, -⟩)
    · rfl
    · rcases hok with hlt | hne
      · exact absurd hlt (Nat.not_lt.mpr hge)
      · exact absurd hzero hne
  refine (fileGetBlock_sat hs hb).mono ?_ ?_
  swap
  · rintro e t (hmem | ⟨-, -, ⟨c₁, hgets, hzero, -⟩, -⟩)
    · exact hmem
    · rw [hsame c₁ hgets] at hzero
      exact absurd hzero hpos
  rintro r t hgot
  generalize hc : t.content = c at hgot
  cases hgot with
  | inval h => exact absurd hn (Nat.not_lt.mpr h)
  | full h hge hzero hall =>
    rcases hok with hlt | hne
    · exact absurd hlt (Nat.not_lt.mpr hge)
    · exact absurd hzero hne
  | got h h₁ h₂ =>
    obtain rfl := hsame _ h₁
    cases h₂ with
    | present => exact ⟨rfl, rfl⟩
    | allocated hzero => exact absurd hzero hpos

lemma Wf.dirOk (h : Wf c F) (hd : d ∈ F) (hdir : IsDir c d) : DirOk c d where
  super := h.super
  file := h.fileAt hd
  whole := h.whole d hd hdir
  bound := h.bound d hd hdir
  blocks n _ _ := h.blocksAt hd n
  has n hn _ := by
    by_cases hlt : n < ndirect
    · exact .inl hlt
    · exact .inr (h.indirect d hd hdir (by omega))
  present := h.present d hd hdir
  entry _ he := h.fileAt_entry hd hdir he

lemma dirOk_of_blocks (hs : SuperOk c) (hb : ∀ n, BlocksAt c d n) (hwhole : (fileSize c d).toNat % 4096 = 0)
    (hbound : dirLen c d ≤ maxLen + 1) (hblocks : ∀ n < dirLen c d, n < maxLen →
      (n < ndirect ∨ indirectOf c d ≠ 0) ∧ ptr c d (blockSlot n) ≠ 0 ∧
        2 + nbitmap c ≤ ptr c d (blockSlot n)) : DirOk c d where
  super := hs
  file := (hb 0).file
  whole := hwhole
  bound := hbound
  blocks n _ _ := hb n
  has n hn hmax := (hblocks n hn hmax).1
  present n hn hmax := (hblocks n hn hmax).2.1
  entry := by
    rintro e ⟨n, hn, hmax, j, hj, rfl⟩
    obtain ⟨hhas, hpos, hle⟩ := hblocks n hn hmax
    have huse := (hb n).block (valid_blockSlot hmax hhas) hpos
    have hdiv := entryAt_div (c := c) (d := d) (n := n) hj
    constructor
    · rw [hdiv]
      exact huse
    · unfold blkfiles at hj
      unfold entryAt sizeofFile
      omega
    · unfold entryAt sizeofFile
      omega
    · rw [hdiv]
      exact .inr hle

lemma DirOk.getDirBlock (h : DirOk s.content d) (hn : n < dirLen s.content d) (hmax : n < maxLen) :
    Sat (fileGetBlock d n) s (fun r t => r = .ok (4096 * ptr s.content d (blockSlot n)) ∧
      t.content = s.content) NoMem :=
  fileGetBlock_present h.super (h.blocks n hn hmax) hmax (h.has n hn hmax) (h.present n hn hmax)

/-! ### Searching -/

lemma strcmpEq_sat (hs : SuperOk s.content) (a : ℕ) (name : CString)
    (huse : InUse s.content (a / 4096)) (hfits : a % 4096 + name.length < 4096) :
    Sat (strcmpEq a name) s (fun r t => r = nameIs s.content a name ∧ t.content = s.content)
      NoMem := by
  induction name generalizing a s with
  | nil =>
    unfold strcmpEq nameIs
    rw [sat_bind]
    refine (loadByte_sat hs huse).post ?_
    rintro x t ⟨rfl, ht⟩
    exact sat_pure.mpr ⟨rfl, ht.content⟩
  | cons x xs ih =>
    rw [List.length_cons] at hfits
    unfold strcmpEq nameIs
    rw [sat_bind]
    refine (loadByte_sat hs huse).post ?_
    rintro y t ⟨rfl, ht⟩
    rw [sat_ite]
    constructor
    · intro heq
      have hblock : (a + 1) / 4096 = a / 4096 := by omega
      have h := ih (s := t) (by rw [ht.content]; exact hs) (a + 1)
        (by rw [ht.content, hblock]; exact huse) (by omega)
      refine h.post ?_
      rw [ht.content]
      rintro r u ⟨rfl, hu⟩
      simp [heq, hu]
    · intro hne
      exact sat_pure.mpr ⟨by simp [hne], ht.content⟩

/-- A test of the entries of a directory that changes nothing. -/
def Tests (c : ℕ → Byte) (p : ℕ → FsM Bool) (q : ℕ → Bool) (e : ℕ) : Prop :=
  ∀ s : Fs, s.content = c → Sat (p e) s (fun r t => r = q e ∧ t.content = c) NoMem

lemma searchBlock_sat {p : ℕ → FsM Bool} {q : ℕ → Bool} (n f : ℕ) (hs : s.content = c)
    (h : ∀ j < n, Tests c p q (f + sizeofFile * j)) :
    Sat (searchBlock p n f) s
      (fun r t => r = ((List.range n).map (fun j => f + sizeofFile * j)).find? q ∧ t.content = c)
      NoMem := by
  induction n generalizing f s with
  | zero =>
    unfold searchBlock
    exact sat_pure.mpr ⟨rfl, hs⟩
  | succ n ih =>
    unfold searchBlock
    rw [sat_bind]
    have hzero := h 0 (Nat.succ_pos n)
    rw [Nat.mul_zero, Nat.add_zero] at hzero
    refine (hzero s hs).post ?_
    rintro r t ⟨rfl, ht⟩
    have hlist : (List.range (n + 1)).map (fun j => f + sizeofFile * j) =
        f :: (List.range n).map (fun j => f + sizeofFile + sizeofFile * j) := by
      rw [List.range_succ_eq_map, List.map_cons, List.map_map, Nat.mul_zero, Nat.add_zero]
      congr 1
      apply List.map_congr_left
      intro j _
      change f + sizeofFile * (j + 1) = _
      rw [Nat.mul_succ]
      omega
    rw [hlist, List.find?_cons, sat_ite]
    constructor
    · intro htrue
      rw [htrue]
      exact sat_pure.mpr ⟨rfl, ht⟩
    · intro hfalse
      have hfalse : q f = false := Bool.eq_false_iff.mpr hfalse
      rw [hfalse]
      apply ih (f + sizeofFile) ht
      intro j hj
      have hadd : f + sizeofFile + sizeofFile * j = f + sizeofFile * (j + 1) := by
        rw [Nat.mul_succ]
        omega
      rw [hadd]
      exact h (j + 1) (by omega)

/-- What the search for an entry that passes the test `q` returns. -/
def searchAt (c : ℕ → Byte) (d : ℕ) (q : ℕ → Bool) (i n : ℕ) : Except ℤ (Option ℕ) :=
  match (entriesFrom c d i (min n (maxLen - i))).find? q with
  | some e => .ok (some e)
  | none => if i + n ≤ maxLen then .ok none else .error (-eInval)

lemma fileGetBlock_inval (f : ℕ) (hn : maxLen ≤ n) :
    Sat (fileGetBlock f n) s (fun r t => r = .error (-eInval) ∧ t = s) NoMem := by
  unfold fileGetBlock
  rw [sat_bind]
  refine (fileBlockWalk_inval true hn).mono ?_ (fun _ _ h => h)
  rintro r t ⟨rfl, rfl⟩
  exact sat_pure.mpr ⟨rfl, rfl⟩

lemma searchAt_succ {q : ℕ → Bool} (hi : i < maxLen) : searchAt c d q i (n + 1) =
    match ((List.range blkfiles).map (entryAt c d i)).find? q with
    | some e => .ok (some e)
    | none => searchAt c d q (i + 1) n := by
  have hmin : min (n + 1) (maxLen - i) = min n (maxLen - (i + 1)) + 1 := by omega
  have hle : i + (n + 1) ≤ maxLen ↔ i + 1 + n ≤ maxLen := by omega
  have hcons : entriesFrom c d i (min n (maxLen - (i + 1)) + 1) =
    (List.range blkfiles).map (entryAt c d i) ++
      entriesFrom c d (i + 1) (min n (maxLen - (i + 1))) := rfl
  unfold searchAt
  rw [hmin, hcons, List.find?_append]
  cases ((List.range blkfiles).map (entryAt c d i)).find? q with
  | some e => rfl
  | none =>
    simp only [Option.none_or, hle]

lemma DirOk.searchDir_sat {p : ℕ → FsM Bool} {q : ℕ → Bool} (h : DirOk c d)
    (htest : ∀ e, Entry c d e → Tests c p q e) (n i : ℕ)
    (hi : i ≤ maxLen) (hlen : i + n = dirLen c d) (hs : s.content = c) :
    Sat (searchDir p d n i) s (fun r t => r = searchAt c d q i n ∧ t.content = c) NoMem := by
  have hmax := h.bound
  induction n generalizing i s with
  | zero =>
    unfold searchDir searchAt
    refine sat_pure.mpr ⟨?_, hs⟩
    rw [Nat.zero_min, Nat.add_zero, if_pos hi]
    rfl
  | succ n ih =>
    unfold searchDir
    rw [sat_bind]
    by_cases hi : i < maxLen
    · have hok : DirOk s.content d := by
        rw [hs]
        exact h
      have hget := hok.getDirBlock (n := i) (by rw [hs]; omega) hi
      rw [hs] at hget
      refine hget.post ?_
      rintro r t ⟨rfl, ht⟩
      dsimp only
      rw [sat_bind]
      have hblock := searchBlock_sat (s := t) (p := p) (q := q) blkfiles
        (4096 * ptr c d (blockSlot i)) ht
        (fun j hj => htest _ ⟨i, by omega, hi, j, hj, rfl⟩)
      refine hblock.mono ?_ (fun _ _ h => h)
      rintro r u ⟨rfl, hu⟩
      rw [searchAt_succ hi]
      change Sat (match ((List.range blkfiles).map (entryAt c d i)).find? q with
        | some f => pure (Except.ok (some f))
        | none => searchDir p d n (i + 1)) u _ _
      cases ((List.range blkfiles).map (entryAt c d i)).find? q with
      | some e => exact sat_pure.mpr ⟨rfl, hu⟩
      | none => exact ih (i + 1) hi (by omega) hu
    · refine (fileGetBlock_inval d (Nat.not_lt.mp hi)).post ?_
      rintro r t ⟨rfl, rfl⟩
      refine sat_pure.mpr ⟨?_, hs⟩
      have hzero : maxLen - i = 0 := by omega
      unfold searchAt
      rw [hzero, Nat.min_zero, if_neg (by omega)]
      rfl

lemma entriesFrom_succ (m : ℕ) : entriesFrom c d i (m + 1) =
    entriesFrom c d i m ++ (List.range blkfiles).map (entryAt c d (i + m)) := by
  induction m generalizing i with
  | zero =>
    unfold entriesFrom
    rw [List.nil_append, Nat.add_zero]
    exact List.append_nil _
  | succ m ih =>
    have hadd : i + 1 + m = i + (m + 1) := by omega
    have hcons : ∀ k, entriesFrom c d i (k + 1) =
        (List.range blkfiles).map (entryAt c d i) ++ entriesFrom c d (i + 1) k := fun _ => rfl
    rw [hcons (m + 1), ih, hcons m, hadd, List.append_assoc]

lemma mem_entriesFrom {m : ℕ} :
    e ∈ entriesFrom c d i m ↔ ∃ n, i ≤ n ∧ n < i + m ∧ ∃ j < blkfiles, e = entryAt c d n j := by
  induction m generalizing i with
  | zero =>
    unfold entriesFrom
    constructor
    · intro h
      cases h
    · rintro ⟨n, hle, hlt, -⟩
      omega
  | succ m ih =>
    unfold entriesFrom
    rw [List.mem_append, List.mem_map, ih]
    constructor
    · rintro (⟨j, hj, rfl⟩ | ⟨n, hle, hlt, hj⟩)
      · exact ⟨i, le_rfl, by omega, j, List.mem_range.mp hj, rfl⟩
      · exact ⟨n, by omega, by omega, hj⟩
    · rintro ⟨n, hle, hlt, j, hj, rfl⟩
      by_cases hn : n = i
      · subst hn
        exact .inl ⟨j, List.mem_range.mpr hj, rfl⟩
      · exact .inr ⟨n, by omega, by omega, j, hj, rfl⟩

lemma mem_entries : e ∈ entries c d ↔ Entry c d e := by
  unfold entries
  rw [mem_entriesFrom]
  constructor
  · rintro ⟨n, -, hlt, hj⟩
    exact ⟨n, by omega, by omega, hj⟩
  · rintro ⟨n, hn, hmax, hj⟩
    exact ⟨n, Nat.zero_le n, by omega, hj⟩

lemma searchAt_zero {q : ℕ → Bool} : searchAt c d q 0 (dirLen c d) =
    match (entries c d).find? q with
    | some e => .ok (some e)
    | none => if dirLen c d ≤ maxLen then .ok none else .error (-eInval) := by
  unfold searchAt entries
  rw [Nat.sub_zero, Nat.zero_add]

/-! ### `dir_lookup` and `walk_path` -/

lemma DirOk.dirBlocks_sat (h : DirOk c d) (hs : s.content = c) :
    Sat (dirBlocks d) s (fun n t => n = dirLen c d ∧ t.content = c) NoMem := by
  have hlen := h.bound
  have hwhole := h.whole
  unfold dirLen maxLen ndirect nindirect at hlen
  have hint : (fileSize c d).toInt = (fileSize c d).toNat := by
    rw [BitVec.toInt_eq_toNat_cond, if_pos]
    omega
  unfold dirBlocks
  simp only [sat_bind, sat_ite, sat_throw, sat_pure]
  refine (loadWord_sat (by rw [hs]; exact h.super) (by rw [hs]; exact h.file.field (by decide))).post ?_
  rintro w t ⟨rfl, ht⟩
  rw [hs]
  change (((fileSize c d).toInt.tmod 4096 ≠ 0) → _) ∧ (¬((fileSize c d).toInt.tmod 4096 ≠ 0) →
    (BitVec.ofInt 32 ((fileSize c d).toInt.tdiv 4096)).toNat = dirLen c d ∧ t.content = c)
  rw [hint, Int.tmod_eq_emod_of_nonneg (Int.natCast_nonneg _),
    Int.tdiv_eq_ediv_of_nonneg (Int.natCast_nonneg _)]
  constructor
  · intro hne
    omega
  · intro _
    refine ⟨?_, ht.content.trans hs⟩
    unfold dirLen
    rw [BitVec.toNat_ofInt]
    omega

/-- The search through a whole directory. -/
lemma DirOk.search_sat {p : ℕ → FsM Bool} {q : ℕ → Bool} (h : DirOk c d)
    (htest : ∀ e, Entry c d e → Tests c p q e) (hs : s.content = c) :
    Sat (searchDir p d (dirLen c d) 0) s
      (fun r t => r = searchAt c d q 0 (dirLen c d) ∧ t.content = c) NoMem :=
  h.searchDir_sat htest _ 0 (Nat.zero_le _) (Nat.zero_add _) hs

lemma DirOk.dirLookup_sat (h : DirOk c d) (hname : name.length < maxnamelen) (hs : s.content = c) :
    Sat (dirLookup d name) s (fun r t => r = lookupAt c d name ∧ t.content = c) NoMem := by
  have htest : ∀ e, Entry c d e →
      Tests c (fun f => strcmpEq f name) (fun e => nameIs c e name) e := by
    intro e he t ht
    have hfile := h.entry e he
    have hfits := hfile.fits
    unfold maxnamelen at hname
    have hcmp := strcmpEq_sat (s := t) (by rw [ht]; exact h.super) e name
      (by rw [ht]; exact hfile.inUse) (by omega)
    rw [ht] at hcmp
    exact hcmp
  unfold dirLookup
  rw [sat_bind]
  refine (h.dirBlocks_sat hs).mono ?_ (fun _ _ h => h)
  rintro n t ⟨rfl, ht⟩
  rw [sat_bind]
  refine (h.search_sat htest ht).post ?_
  rintro r u ⟨rfl, hu⟩
  unfold lookupAt
  rw [searchAt_zero]
  cases (entries c d).find? (fun e => nameIs c e name) with
  | some e => exact sat_pure.mpr ⟨rfl, hu⟩
  | none =>
    dsimp only
    by_cases hlen : dirLen c d ≤ maxLen
    · rw [if_pos hlen, if_pos hlen]
      exact sat_pure.mpr ⟨rfl, hu⟩
    · rw [if_neg hlen, if_neg hlen]
      exact sat_pure.mpr ⟨rfl, hu⟩

/-- What is looked up with a name is a file. -/
lemma Wf.lookupAt_mem (h : Wf c F) (hd : d ∈ F) (hdir : IsDir c d) (hname : name ≠ [])
    (he : lookupAt c d name = .ok e) : e ∈ F := by
  unfold lookupAt at he
  cases hfind : (entries c d).find? (fun e => nameIs c e name) with
  | none =>
    rw [hfind] at he
    cases he
  | some e' =>
    rw [hfind] at he
    obtain rfl := Except.ok.inj he
    have hentry := mem_entries.mp (List.mem_of_find?_eq_some hfind)
    have hnameIs := List.find?_some hfind
    apply h.named d hd hdir e' hentry
    cases name with
    | nil => exact absurd rfl hname
    | cons x xs =>
      unfold nameIs at hnameIs
      rw [Bool.and_eq_true, decide_eq_true_eq] at hnameIs
      rw [hnameIs.1]
      exact x.2

/-- A path after its leading slashes. -/
def NoSlash (path : CString) : Prop := ∀ x ∈ path.head?, x ≠ slash

lemma noSlash_skipSlash (path : CString) : NoSlash (skipSlash path) := by
  intro x hx
  have h := List.head?_dropWhile_not (· = slash) path
  unfold skipSlash at hx
  rw [hx] at h
  simpa using h

lemma noSlash_nextElem (path : CString) : NoSlash (nextElem path) := noSlash_skipSlash _

lemma takeWhile_ne_nil (hpath : path ≠ []) (h : NoSlash path) :
    path.takeWhile (· ≠ slash) ≠ [] := by
  cases path with
  | nil => exact absurd rfl hpath
  | cons x xs =>
    have hx : x ≠ slash := h x rfl
    rw [List.takeWhile_cons_of_pos (by simp [hx])]
    exact List.cons_ne_nil _ _

lemma components_eq_nil : components path = [] ↔ path = [] := by
  unfold components
  by_cases h : path = []
  · simp [h]
  · simp [h]

/-- What `walk_path` returns where it can go. -/
lemma walkFrom_sat (h : SuperOk c) (dir : ℕ) (hw : Walkable c f (components path))
    (hs : s.content = c) : Sat (walkFrom dir f path) s
      (fun r t => r = walkAt c dir f (components path) ∧ t.content = c) NoMem := by
  induction hlen : path.length using Nat.strong_induction_on generalizing path dir f s with
  | _ n ih =>
    unfold components at hw
    unfold walkFrom components
    by_cases hnil : path = []
    · rw [dif_pos hnil, dif_pos hnil]
      exact sat_pure.mpr ⟨rfl, hs⟩
    · rw [dif_neg hnil] at hw
      obtain ⟨hfile, hnext⟩ := hw
      rw [dif_neg hnil, dif_neg hnil]
      unfold walkAt
      dsimp only
      simp only [sat_bind, sat_ite, sat_pure]
      constructor
      · intro hlong
        rw [if_pos hlong]
        exact ⟨rfl, hs⟩
      · intro hshort
        rw [if_neg hshort]
        refine (loadWord_sat (by rw [hs]; exact h)
          (by rw [hs]; exact hfile.field (by decide))).mono ?_ (fun _ _ h => h)
        rintro w t ⟨rfl, ht⟩
        rw [hs]
        change (fileType c f ≠ ftypeDir → _) ∧ (¬fileType c f ≠ ftypeDir → _)
        constructor
        · intro hne
          rw [if_pos hne]
          exact ⟨rfl, ht.content.trans hs⟩
        · intro hdir
          rw [if_neg hdir]
          obtain ⟨hok, hwalk⟩ := hnext (Nat.not_le.mp hshort) (not_not.mp hdir)
          refine (hok.dirLookup_sat (Nat.not_le.mp hshort) (ht.content.trans hs)).post ?_
          rintro r u ⟨rfl, hu⟩
          cases hlook : lookupAt c f (path.takeWhile (· ≠ slash)) with
          | error r =>
            refine sat_pure.mpr ⟨?_, hu⟩
            simp only [components_eq_nil]
          | ok g => exact ih _ (hlen ▸ length_nextElem hnil) f (hwalk g hlook) hu rfl

lemma Wf.walkable (h : Wf c F) (hf : f ∈ F) {names : List CString}
    (hnames : ∀ name ∈ names, name ≠ []) : Walkable c f names := by
  induction names generalizing f with
  | nil => trivial
  | cons name rest ih =>
    refine ⟨h.fileAt hf, fun _ hdir => ⟨h.dirOk hf hdir, fun g hg => ?_⟩⟩
    apply ih
    · exact h.lookupAt_mem hf hdir (hnames name List.mem_cons_self) hg
    · exact fun name hmem => hnames name (List.mem_cons_of_mem _ hmem)

lemma ne_nil_of_mem_components (h : NoSlash path) : ∀ name ∈ components path, name ≠ [] := by
  induction hlen : path.length using Nat.strong_induction_on generalizing path with
  | _ n ih =>
    unfold components
    by_cases hnil : path = []
    · rw [dif_pos hnil]
      exact fun name hmem => absurd hmem List.not_mem_nil
    · rw [dif_neg hnil]
      intro name hmem
      rcases List.mem_cons.mp hmem with rfl | hmem
      · exact takeWhile_ne_nil hnil h
      · exact ih _ (hlen ▸ length_nextElem hnil) (noSlash_nextElem path) rfl name hmem

lemma Wf.walkPath_sat (h : Wf c F) (path : CString) (hs : s.content = c) :
    Sat (walkPath path) s (fun r t => r = walkAt c 0 rootAddr (components (skipSlash path)) ∧
      t.content = c) NoMem :=
  Fs.walkFrom_sat h.super 0 (h.walkable h.root (ne_nil_of_mem_components (noSlash_skipSlash path))) hs

/-! ### After a change that keeps the directories -/

variable {c' : ℕ → Byte} {len : ℕ → ℕ}

lemma nameIs_congr (h : ∀ i ≤ name.length, c' (a + i) = c (a + i)) :
    nameIs c' a name = nameIs c a name := by
  induction name generalizing a with
  | nil =>
    have hzero := h 0 (Nat.zero_le _)
    rw [Nat.add_zero] at hzero
    unfold nameIs
    rw [hzero]
  | cons x xs ih =>
    have hzero := h 0 (Nat.zero_le _)
    rw [Nat.add_zero] at hzero
    have hrest : ∀ i ≤ xs.length, c' (a + 1 + i) = c (a + 1 + i) := by
      intro i hi
      have hnext := h (i + 1) (by rw [List.length_cons]; omega)
      rw [Nat.add_assoc, Nat.add_comm 1 i]
      exact hnext
    unfold nameIs
    rw [hzero, ih hrest]

lemma Kept.nameIs (hk : Kept F len c c') (he : Place c F len e) (hname : name.length < maxnamelen) :
    nameIs c' e name = nameIs c e name :=
  nameIs_congr fun i hi => hk.names e he i (Nat.lt_of_le_of_lt hi hname)

lemma entriesFrom_congr {m : ℕ} (h : ∀ n, i ≤ n → n < i + m →
    ptr c' d (blockSlot n) = ptr c d (blockSlot n)) : entriesFrom c' d i m = entriesFrom c d i m := by
  induction m generalizing i with
  | zero => rfl
  | succ m ih =>
    have hentry : entryAt c' d i = entryAt c d i := by
      funext j
      unfold entryAt
      rw [h i le_rfl (by omega)]
    unfold entriesFrom
    rw [hentry, ih (fun n hlo hhi => h n (by omega) (by omega))]

lemma Kept.entries (hk : Kept F (dirLen c) c c') (hd : d ∈ F) (hdir : IsDir c d)
    (hsize : fileSize c' d = fileSize c d) : entries c' d = entries c d := by
  have hlen : dirLen c' d = dirLen c d := by
    unfold dirLen
    rw [hsize]
  unfold Fs.entries
  rw [hlen]
  exact entriesFrom_congr fun n _ hn => hk.blocks d hd hdir n (by omega) (by omega)

lemma Kept.lookupAt (hk : Kept F (dirLen c) c c') (hd : d ∈ F) (hdir : IsDir c d)
    (hsize : fileSize c' d = fileSize c d) (hname : name.length < maxnamelen) :
    lookupAt c' d name = lookupAt c d name := by
  have hfind : (Fs.entries c d).find? (fun e => Fs.nameIs c' e name) =
      (Fs.entries c d).find? (fun e => Fs.nameIs c e name) := by
    apply List.find?_congr
    intro e he
    exact hk.nameIs (.inr ⟨d, hd, hdir, mem_entries.mp he⟩) hname
  have hlen : dirLen c' d = dirLen c d := by
    unfold dirLen
    rw [hsize]
  unfold Fs.lookupAt
  rw [hk.entries hd hdir hsize, hfind, hlen]

/-- Every path leads where it has led. -/
lemma Wf.walkAt_kept (h : Wf c F) (hk : Kept F (dirLen c) c c')
    (hsizes : ∀ d ∈ F, IsDir c d → fileSize c' d = fileSize c d) (dir : ℕ) (hf : f ∈ F)
    {names : List CString} (hnames : ∀ name ∈ names, name ≠ []) :
    walkAt c' dir f names = walkAt c dir f names := by
  induction names generalizing dir f with
  | nil => rfl
  | cons name rest ih =>
    unfold walkAt
    rw [hk.types f hf]
    by_cases hlong : maxnamelen ≤ name.length
    · rw [if_pos hlong, if_pos hlong]
    rw [if_neg hlong, if_neg hlong]
    by_cases hreg : fileType c f ≠ ftypeDir
    · rw [if_pos hreg, if_pos hreg]
    rw [if_neg hreg, if_neg hreg]
    have hdir : IsDir c f := not_not.mp hreg
    rw [hk.lookupAt hf hdir (hsizes f hf hdir) (Nat.not_le.mp hlong)]
    cases hlook : Fs.lookupAt c f name with
    | error r => rfl
    | ok g =>
      apply ih
      · exact h.lookupAt_mem hf hdir (hnames name List.mem_cons_self) hlook
      · exact fun name hmem => hnames name (List.mem_cons_of_mem _ hmem)

end SistemasOperativos.Fs
