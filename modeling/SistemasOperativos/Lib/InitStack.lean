import SistemasOperativos.Library.Bytes
import SistemasOperativos.Kern.Mmu

/-!
# The first stack of a spawned program

`init_stack` of `lib/spawn.c` writes the arguments of a program into a page at `UTEMP` and gives
the page to the child, whose start-up code in `lib/entry.S` and `lib/libmain.c` reads them again.
The places in the page are found by subtraction in 32 bits before anything is checked.
-/

namespace SistemasOperativos.Lib

open Library Kern

def utemp : Word := ptsize
def eNoMem : ℤ := 4

/-- `UTEMP2USTACK`: the address in the stack of the child. -/
def utemp2ustack (addr : Word) : Word := addr + (ustacktop - 0x1000) - utemp

/-- A null-terminated vector of strings. -/
structure Argv where
  strings : List (List Byte)
  noNul : ∀ s ∈ strings, 0 ∉ s

/-- The memory of the caller, whether it has a page at `UTEMP`, the memory of the child and
`*init_esp`. -/
structure StackState where
  own : ℕ → Byte
  scratch : Bool
  child : ℕ → Byte
  esp : Word

/-- The results of `sys_page_alloc`, `sys_page_map` and `sys_page_unmap`. -/
structure StackCalls where
  alloc : ℤ
  map : ℤ
  unmap : ℤ

/-! ### Stores -/

/-- The `n` bytes from `a` on are in the page at `UTEMP`. -/
def InTemp (a n : ℕ) : Prop := utemp.toNat ≤ a ∧ a + n ≤ utemp.toNat + 4096

instance (a n : ℕ) : Decidable (InTemp a n) := by
  unfold InTemp
  infer_instance

/-- A store; `none` for one outside the page at `UTEMP`. -/
def storeWord (c : ℕ → Byte) (a w : Word) : Option (ℕ → Byte) :=
  if InTemp a.toNat 4 then some (putWord c a.toNat w) else none

/-- `strcpy`. -/
def storeString (c : ℕ → Byte) (a : Word) (s : List Byte) : Option (ℕ → Byte) :=
  if InTemp a.toNat (s.length + 1) then some (putBytes c a.toNat (s ++ [0])) else none

/-- The loop over the arguments: `slot` is the address of `argv_store[i]`. -/
def storeArgs (c : ℕ → Byte) (slot stringStore : Word) :
    List (List Byte) → Option ((ℕ → Byte) × Word × Word)
  | [] => some (c, slot, stringStore)
  | s :: rest => do
    let c ← storeWord c slot (utemp2ustack stringStore)
    let c ← storeString c stringStore s
    storeArgs c (slot + 4) (stringStore + BitVec.ofNat 32 (s.length + 1)) rest

/-! ### `init_stack` -/

def stringSize (ss : List (List Byte)) : Word :=
  ss.foldl (fun size s => size + BitVec.ofNat 32 (s.length + 1)) 0

def stringStore (ss : List (List Byte)) : Word := utemp + 0x1000 - stringSize ss

/-- `ROUNDDOWN(string_store, 4) - 4 * (argc + 1)`. -/
def argvStore (ss : List (List Byte)) : Word :=
  stringStore ss - stringStore ss % 4 - 4 * (BitVec.ofNat 32 ss.length + 1)

/-- What `sys_page_alloc` makes of the page at `UTEMP`. -/
def zeroTemp (c : ℕ → Byte) : ℕ → Byte := fun a => if InTemp a 1 then 0 else c a

/-- The page at `UTEMP` becomes the page below `USTACKTOP` of the child. -/
def mapStack (own child : ℕ → Byte) : ℕ → Byte := fun a =>
  if (ustacktop - 0x1000).toNat ≤ a ∧ a < ustacktop.toNat then
    own (a - (ustacktop - 0x1000).toNat + utemp.toNat)
  else child a

/-- `init_stack`: the result and the state afterwards; `none` for a store outside the page and for
a failed assertion. -/
def initStack (ss : List (List Byte)) (k : StackCalls) (t : StackState) :
    Option (ℤ × StackState) :=
  if argvStore ss - 8 < utemp then some (-eNoMem, t)
  else if k.alloc < 0 then some (k.alloc, t)
  else do
    let (c, slot, strings) ← storeArgs (zeroTemp t.own) (argvStore ss) (stringStore ss) ss
    let c ← storeWord c slot 0
    if strings ≠ utemp + 0x1000 then none
    else
      let c ← storeWord c (argvStore ss - 4) (utemp2ustack (argvStore ss))
      let c ← storeWord c (argvStore ss - 8) (BitVec.ofNat 32 ss.length)
      let esp := utemp2ustack (argvStore ss - 8)
      -- `sys_page_unmap` is called on every path from here
      let scratch := decide (k.unmap < 0)
      if k.map < 0 then some (k.map, ⟨c, scratch, t.child, esp⟩)
      else if k.unmap < 0 then some (k.unmap, ⟨c, scratch, mapStack c t.child, esp⟩)
      else some (0, ⟨c, scratch, mapStack c t.child, esp⟩)

/-! ### What the child finds -/

/-- The string at `a`, inside the page below `USTACKTOP`. -/
structure StringAt (c : ℕ → Byte) (a : ℕ) (s : List Byte) : Prop where
  bytes : ∀ i (h : i < s.length), c (a + i) = s[i]
  nul : c (a + s.length) = 0
  noNul : 0 ∉ s
  low : ustacktop.toNat - 4096 ≤ a
  high : a + s.length < ustacktop.toNat

/-- `libmain` gets `argc` and `argv` from the stack and finds the strings there. -/
structure ArgsPassed (c : ℕ → Byte) (esp : ℕ) (ss : List (List Byte)) : Prop where
  low : ustacktop.toNat - 4096 ≤ esp
  argc : (wordAt c esp).toNat = ss.length
  above : esp + 8 ≤ (wordAt c (esp + 4)).toNat
  high : (wordAt c (esp + 4)).toNat + 4 * ss.length + 4 ≤ ustacktop.toNat
  strings : ∀ i (h : i < ss.length),
    StringAt c (wordAt c ((wordAt c (esp + 4)).toNat + 4 * i)).toNat ss[i]
  null : wordAt c ((wordAt c (esp + 4)).toNat + 4 * ss.length) = 0

/-- The bytes of the strings with their terminators. -/
def argBytes (ss : List (List Byte)) : ℕ := (ss.map fun s => s.length + 1).sum

/-- The room for the strings, the pointers with the null pointer, and the two arguments of
`libmain`. -/
def argRoom (ss : List (List Byte)) : ℕ := (argBytes ss + 3) / 4 * 4 + 4 * (ss.length + 1) + 8

/-- `init_stack` passes on the arguments, refuses what does not fit into a page, and writes to the
page at `UTEMP` only. -/
def InitStackOk (argv : Argv) (k : StackCalls) (t : StackState) : Prop :=
  ∃ r t', initStack argv.strings k t = some (r, t') ∧
    (r = 0 → ArgsPassed t'.child t'.esp.toNat argv.strings) ∧
    (4096 < argRoom argv.strings → r = -eNoMem ∧ t' = t)

/-- The vector fits, or the place for it comes to lie below `UTEMP` in 32 bits. -/
def Detected (argv : Argv) : Prop :=
  argRoom argv.strings ≤ 4096 ∨
    (4096 < argRoom argv.strings % 2 ^ 32 ∧
      argRoom argv.strings % 2 ^ 32 ≤ utemp.toNat + 4096)

variable {c : ℕ → Byte} {ss : List (List Byte)} {a w : Word}

lemma utemp_toNat : utemp.toNat = 4194304 := rfl
lemma ustacktop_toNat : ustacktop.toNat = 4005552128 := rfl

lemma argBytes_cons (s : List Byte) (ss : List (List Byte)) :
    argBytes (s :: ss) = s.length + 1 + argBytes ss := rfl

lemma stringSize_toNat (ss : List (List Byte)) : (stringSize ss).toNat = argBytes ss % 2 ^ 32 := by
  have hfold : ∀ (ss : List (List Byte)) (w : Word),
      (ss.foldl (fun size s => size + BitVec.ofNat 32 (s.length + 1)) w).toNat =
        (w.toNat + argBytes ss) % 2 ^ 32 := by
    intro ss
    induction ss with
    | nil =>
      intro w
      have hlt := w.isLt
      exact (Nat.mod_eq_of_lt hlt).symm
    | cons s ss ih =>
      intro w
      rw [List.foldl_cons, ih, BitVec.toNat_add, BitVec.toNat_ofNat, argBytes_cons]
      omega
  have h := hfold ss 0#32
  rwa [BitVec.toNat_zero, Nat.zero_add] at h

lemma stringStore_toNat (ss : List (List Byte)) :
    ((stringStore ss).toNat + argBytes ss) % 2 ^ 32 = utemp.toNat + 4096 := by
  unfold stringStore
  rw [BitVec.toNat_sub, stringSize_toNat, utemp_toNat]
  have htop : (utemp + 0x1000).toNat = 4198400 := rfl
  rw [htop]
  omega

lemma toNat_sub_mod (x y : Word) : ((x - y).toNat + y.toNat) % 2 ^ 32 = x.toNat := by
  have hx := x.isLt
  have hy := y.isLt
  rw [BitVec.toNat_sub]
  omega

/-- The lowest address used, in 32 bits. -/
lemma argvStore_toNat (ss : List (List Byte)) :
    ((argvStore ss - 8).toNat + argRoom ss) % 2 ^ 32 = utemp.toNat + 4096 := by
  have hstore := stringStore_toNat ss
  have hmod : (stringStore ss % 4).toNat = (stringStore ss).toNat % 4 := by
    rw [BitVec.toNat_umod]
    rfl
  have hslots : (4 * (BitVec.ofNat 32 ss.length + 1)).toNat = 4 * (ss.length + 1) % 2 ^ 32 := by
    rw [BitVec.toNat_mul, BitVec.toNat_add, BitVec.toNat_ofNat]
    change 4 * ((ss.length % 2 ^ 32 + 1) % 2 ^ 32) % 2 ^ 32 = _
    omega
  have hdown : (stringStore ss - stringStore ss % 4).toNat = (stringStore ss).toNat / 4 * 4 := by
    have hlt := (stringStore ss).isLt
    rw [BitVec.toNat_sub, hmod]
    omega
  -- the place of the strings is rounded down by as much as their size is rounded up
  have hround : (stringStore ss).toNat / 4 * 4 + (argBytes ss + 3) / 4 * 4 =
      (stringStore ss).toNat + argBytes ss := by
    rw [utemp_toNat] at hstore
    omega
  have harray := toNat_sub_mod (stringStore ss - stringStore ss % 4)
    (4 * (BitVec.ofNat 32 ss.length + 1))
  have hlast := toNat_sub_mod (argvStore ss) 8
  have h8 : (8 : Word).toNat = 8 := rfl
  rw [hdown, hslots] at harray
  rw [h8] at hlast
  unfold argvStore at hlast ⊢
  unfold argRoom
  rw [utemp_toNat] at hstore ⊢
  omega

lemma inTemp_iff (a n : ℕ) : InTemp a n ↔ 4194304 ≤ a ∧ a + n ≤ 4198400 := Iff.rfl

/-- What the loop leaves: the slots point to the strings, and nothing else is changed. -/
lemma storeArgs_spec (ss : List (List Byte)) : ∀ (c : ℕ → Byte) (slot store : Word),
    utemp.toNat ≤ slot.toNat → slot.toNat + 4 * ss.length ≤ store.toNat →
    store.toNat + argBytes ss ≤ utemp.toNat + 4096 →
    ∃ c' slot' store', storeArgs c slot store ss = some (c', slot', store') ∧
      slot'.toNat = slot.toNat + 4 * ss.length ∧ store'.toNat = store.toNat + argBytes ss ∧
      (∀ a, a < slot.toNat ∨ slot.toNat + 4 * ss.length ≤ a ∧ a < store.toNat ∨
        store.toNat + argBytes ss ≤ a → c' a = c a) ∧
      ∀ i (h : i < ss.length), ∃ p : Word, wordAt c' (slot.toNat + 4 * i) = utemp2ustack p ∧
        store.toNat ≤ p.toNat ∧ p.toNat + ss[i].length < store.toNat + argBytes ss ∧
        (∀ j (hj : j < ss[i].length), c' (p.toNat + j) = ss[i][j]) ∧
        c' (p.toNat + ss[i].length) = 0 := by
  induction ss with
  | nil =>
    intro c slot store _ _ _
    exact ⟨c, slot, store, rfl, rfl, rfl, fun _ _ => rfl, fun i h => absurd h (Nat.not_lt_zero i)⟩
  | cons s ss ih =>
    intro c slot store hlow hslots hfits
    rw [List.length_cons] at hslots
    rw [argBytes_cons] at hfits
    rw [utemp_toNat] at hlow hfits
    have hword : InTemp slot.toNat 4 := by
      rw [inTemp_iff]
      omega
    have hstring : InTemp store.toNat (s.length + 1) := by
      rw [inTemp_iff]
      omega
    have hslot : (slot + 4).toNat = slot.toNat + 4 := by
      have h4 : (4 : Word).toNat = 4 := rfl
      rw [BitVec.toNat_add, h4]
      omega
    have hstore : (store + BitVec.ofNat 32 (s.length + 1)).toNat = store.toNat + (s.length + 1) := by
      rw [BitVec.toNat_add, BitVec.toNat_ofNat]
      omega
    obtain ⟨c', slot', store', hrun, hslot', hstore', hframe, hargs⟩ :=
      ih (putBytes (putWord c slot.toNat (utemp2ustack store)) store.toNat (s ++ [0])) (slot + 4)
        (store + BitVec.ofNat 32 (s.length + 1)) (by rw [hslot, utemp_toNat]; omega)
        (by rw [hslot, hstore]; omega) (by rw [hstore, utemp_toNat]; omega)
    rw [hslot] at hslot' hframe hargs
    rw [hstore] at hstore' hframe hargs
    refine ⟨c', slot', store', ?_, ?_, ?_, ?_, ?_⟩
    · unfold storeArgs storeWord storeString
      rw [if_pos hword]
      simp only [Option.bind_eq_bind, Option.bind_some]
      rw [if_pos hstring]
      exact hrun
    · rw [hslot', List.length_cons]
      omega
    · rw [hstore', argBytes_cons]
      omega
    · intro a ha
      rw [List.length_cons, argBytes_cons] at ha
      rw [hframe a (by omega), putBytes_of_ne (by simp; omega), putWord_of_ne (by omega)]
    · intro i hi
      cases i with
      | zero =>
        have hkept : wordAt c' slot.toNat = utemp2ustack store := by
          rw [wordAt_congr (c := putWord c slot.toNat (utemp2ustack store)), wordAt_putWord]
          intro a ha ha'
          rw [hframe a (by omega), putBytes_of_ne (by omega)]
        have hbytes : ∀ j (hj : j < (s ++ [0]).length), c' (store.toNat + j) = (s ++ [0])[j] := by
          intro j hj
          rw [List.length_append, List.length_singleton] at hj
          rw [hframe _ (by omega), putBytes_of_lt]
        refine ⟨store, hkept, Nat.le_refl _, ?_, ?_, ?_⟩
        · rw [List.getElem_cons_zero, argBytes_cons]
          omega
        · intro j hj
          rw [List.getElem_cons_zero] at hj
          rw [hbytes j (by simp; omega), List.getElem_append_left hj]
          rfl
        · rw [List.getElem_cons_zero, hbytes _ (by simp), List.getElem_append_right (Nat.le_refl _)]
          simp
      | succ i =>
        rw [List.length_cons] at hi
        obtain ⟨p, hp, hge, hlt, hbytes, hnul⟩ := hargs i (by omega)
        have hadd : slot.toNat + 4 * (i + 1) = slot.toNat + 4 + 4 * i := by omega
        refine ⟨p, ?_, by omega, ?_, ?_, ?_⟩
        · rw [hadd, hp]
        · rw [List.getElem_cons_succ, argBytes_cons]
          omega
        · exact hbytes
        · exact hnul

/-! ### The page in the child -/

/-- How far the stack page of the child is above `UTEMP`. -/
abbrev stackShift : ℕ := 4001353728

lemma utemp2ustack_toNat {p : Word} (hlow : 4194304 ≤ p.toNat) (hhigh : p.toNat ≤ 4198400) :
    (utemp2ustack p).toNat = p.toNat + stackShift := by
  have hbase : (ustacktop - 0x1000).toNat = 4005548032 := rfl
  have htemp : utemp.toNat = 4194304 := rfl
  unfold utemp2ustack
  rw [BitVec.toNat_sub, BitVec.toNat_add, hbase, htemp]
  unfold stackShift
  omega

lemma mapStack_shift {own child : ℕ → Byte} {a : ℕ} (h : InTemp a 1) :
    mapStack own child (a + stackShift) = own a := by
  rw [inTemp_iff] at h
  have hbase : (ustacktop - 0x1000).toNat = 4005548032 := rfl
  have htop : ustacktop.toNat = 4005552128 := rfl
  unfold mapStack
  rw [hbase, htop, utemp_toNat]
  unfold stackShift
  rw [if_pos (by omega)]
  congr 1
  omega

lemma wordAt_mapStack {own child : ℕ → Byte} {a : ℕ} (h : InTemp a 4) :
    wordAt (mapStack own child) (a + stackShift) = wordAt own a := by
  rw [inTemp_iff] at h
  have hbyte : ∀ k < 4, mapStack own child (a + stackShift + k) = own (a + k) := by
    intro k hk
    rw [Nat.add_right_comm]
    apply mapStack_shift
    rw [inTemp_iff]
    omega
  unfold wordAt
  rw [hbyte 1 (by decide), hbyte 2 (by decide), hbyte 3 (by decide)]
  exact congrArg _ (hbyte 0 (by decide))

/-- What fits is passed on. -/
lemma initStack_fits (hfit : argRoom ss ≤ 4096) (hnoNul : ∀ s ∈ ss, 0 ∉ s) (k : StackCalls)
    (t : StackState) : ∃ r t', initStack ss k t = some (r, t') ∧
      (r = 0 → ArgsPassed t'.child t'.esp.toNat ss) ∧
      (r = 0 ∨ k.alloc < 0 ∨ k.map < 0 ∨ k.unmap < 0) := by
  have hlast := argvStore_toNat ss
  have hfirst := stringStore_toNat ss
  have hroom : argRoom ss = (argBytes ss + 3) / 4 * 4 + 4 * (ss.length + 1) + 8 := rfl
  have hlt := (argvStore ss - 8).isLt
  have hlt' := (stringStore ss).isLt
  rw [utemp_toNat] at hlast hfirst
  have hx : (argvStore ss - 8).toNat = 4198400 - argRoom ss := by omega
  have hstore : (stringStore ss).toNat = 4198400 - argBytes ss := by omega
  have hslot : (argvStore ss).toNat = (argvStore ss - 8).toNat + 8 := by
    have h := toNat_sub_mod (argvStore ss) 8
    have h8 : (8 : Word).toNat = 8 := rfl
    rw [h8] at h
    omega
  have hslot' : (argvStore ss - 4).toNat = (argvStore ss - 8).toNat + 4 := by
    have h := toNat_sub_mod (argvStore ss) 4
    have h4 : (4 : Word).toNat = 4 := rfl
    rw [h4] at h
    have hlt := (argvStore ss - 4).isLt
    omega
  have hchecked : ¬ argvStore ss - 8 < utemp := by
    rw [BitVec.lt_def, utemp_toNat]
    omega
  obtain ⟨c, slot, strings, hrun, hslots, hstrings, hframe, hargs⟩ :=
    storeArgs_spec ss (zeroTemp t.own) (argvStore ss) (stringStore ss)
      (by rw [utemp_toNat]; omega) (by omega) (by rw [utemp_toNat]; omega)
  have hend : strings = utemp + 0x1000 := by
    apply BitVec.eq_of_toNat_eq
    have htop : (utemp + 0x1000).toNat = 4198400 := rfl
    rw [htop]
    omega
  unfold initStack
  rw [if_neg hchecked]
  split
  · rename_i halloc
    exact ⟨_, _, rfl, fun h => by omega, .inr (.inl halloc)⟩
  rw [hrun]
  have hnull : InTemp slot.toNat 4 := by
    rw [inTemp_iff]
    omega
  have hargv : InTemp (argvStore ss - 4).toNat 4 := by
    rw [inTemp_iff]
    omega
  have hargc : InTemp (argvStore ss - 8).toNat 4 := by
    rw [inTemp_iff]
    omega
  simp only [Option.bind_eq_bind, Option.bind_some, storeWord, if_pos hnull, if_pos hargv,
    if_pos hargc, hend, ne_eq, not_true_eq_false, if_false]
  split
  · rename_i hmap
    exact ⟨_, _, rfl, fun h => by omega, .inr (.inr (.inl hmap))⟩
  split
  · rename_i hunmap
    exact ⟨_, _, rfl, fun h => by omega, .inr (.inr (.inr hunmap))⟩
  refine ⟨_, _, rfl, fun _ => ?_, .inl rfl⟩
  dsimp only
  generalize hpage : putWord (putWord (putWord c slot.toNat 0) (argvStore ss - 4).toNat
    (utemp2ustack (argvStore ss))) (argvStore ss - 8).toNat (BitVec.ofNat 32 ss.length) = page
  -- what the three last stores leave
  have hkept : ∀ a, (argvStore ss).toNat ≤ a → a < slot.toNat ∨ slot.toNat + 4 ≤ a →
      page a = c a := by
    intro a ha ha'
    rw [← hpage, putWord_of_ne (by omega), putWord_of_ne (by omega), putWord_of_ne (by omega)]
  have hwordArgc : wordAt page (argvStore ss - 8).toNat = BitVec.ofNat 32 ss.length := by
    rw [← hpage, wordAt_putWord]
  have hwordArgv : wordAt page (argvStore ss - 4).toNat = utemp2ustack (argvStore ss) := by
    rw [← hpage, wordAt_putWord_of_ne (by omega), wordAt_putWord]
  have hwordNull : wordAt page slot.toNat = 0 := by
    rw [← hpage, wordAt_putWord_of_ne (by omega), wordAt_putWord_of_ne (by omega), wordAt_putWord]
  have hesp : (utemp2ustack (argvStore ss - 8)).toNat = (argvStore ss - 8).toNat + stackShift :=
    utemp2ustack_toNat (by omega) (by omega)
  have hptr : (wordAt (mapStack page t.child)
      ((argvStore ss - 8).toNat + stackShift + 4)).toNat = (argvStore ss).toNat + stackShift := by
    have hadd : (argvStore ss - 8).toNat + stackShift + 4 =
        (argvStore ss - 4).toNat + stackShift := by omega
    rw [hadd, wordAt_mapStack hargv, hwordArgv]
    exact utemp2ustack_toNat (by omega) (by omega)
  rw [hesp]
  constructor
  · rw [ustacktop_toNat]
    unfold stackShift
    omega
  · rw [wordAt_mapStack hargc, hwordArgc, BitVec.toNat_ofNat]
    omega
  · rw [hptr]
    omega
  · rw [hptr, ustacktop_toNat]
    unfold stackShift
    omega
  · intro i hi
    obtain ⟨p, hp, hge, hlt, hbytes, hnul⟩ := hargs i hi
    have hin : InTemp ((argvStore ss).toNat + 4 * i) 4 := by
      rw [inTemp_iff]
      omega
    have hword : wordAt page ((argvStore ss).toNat + 4 * i) = utemp2ustack p := by
      rw [← hp]
      apply wordAt_congr
      intro a ha ha'
      exact hkept a (by omega) (by omega)
    rw [hptr, Nat.add_right_comm, wordAt_mapStack hin, hword, utemp2ustack_toNat (by omega) (by omega)]
    constructor
    · intro j hj
      rw [Nat.add_right_comm, mapStack_shift (by rw [inTemp_iff]; omega), hkept _ (by omega) (by omega)]
      exact hbytes j hj
    · rw [Nat.add_right_comm, mapStack_shift (by rw [inTemp_iff]; omega), hkept _ (by omega) (by omega)]
      exact hnul
    · exact hnoNul _ (List.getElem_mem hi)
    · rw [ustacktop_toNat]
      unfold stackShift
      omega
    · rw [ustacktop_toNat]
      unfold stackShift
      omega
  · have hslot'' : (argvStore ss).toNat + 4 * ss.length = slot.toNat := by omega
    rw [hptr, Nat.add_right_comm, hslot'', wordAt_mapStack hnull, hwordNull]

/-! ### When it succeeds -/

/-- The loop stays in the page only with little to store. -/
lemma storeArgs_bound : ∀ {ss : List (List Byte)} {c : ℕ → Byte} {slot store : Word}
    {x : (ℕ → Byte) × Word × Word}, storeArgs c slot store ss = some x →
    ss = [] ∨ 4194304 ≤ slot.toNat ∧ slot.toNat + 4 * ss.length ≤ 4198400 ∧
      4194304 ≤ store.toNat ∧ store.toNat + argBytes ss ≤ 4198400 := by
  intro ss
  induction ss with
  | nil =>
    intro c slot store x _
    exact .inl rfl
  | cons s ss ih =>
    intro c slot store x h
    obtain ⟨c', hword, h⟩ := Option.bind_eq_some_iff.mp h
    obtain ⟨c'', hstring, h⟩ := Option.bind_eq_some_iff.mp h
    have hslot : InTemp slot.toNat 4 := by
      by_contra hnot
      unfold storeWord at hword
      rw [if_neg hnot] at hword
      cases hword
    have hstore : InTemp store.toNat (s.length + 1) := by
      by_contra hnot
      unfold storeString at hstring
      rw [if_neg hnot] at hstring
      cases hstring
    rw [inTemp_iff] at hslot hstore
    rw [List.length_cons, argBytes_cons]
    right
    rcases ih h with rfl | ⟨-, hslots, -, hstrings⟩
    · have hnil : argBytes [] = 0 := rfl
      rw [hnil, List.length_nil]
      omega
    · have h4 : (4 : Word).toNat = 4 := rfl
      rw [BitVec.toNat_add, h4] at hslots
      rw [BitVec.toNat_add, BitVec.toNat_ofNat] at hstrings
      omega

/-- The check finds what does not fit, as long as the place for it does not wrap. -/
lemma refused_iff (ss : List (List Byte)) : argvStore ss - 8 < utemp ↔
    4096 < argRoom ss % 2 ^ 32 ∧ argRoom ss % 2 ^ 32 ≤ utemp.toNat + 4096 := by
  have hlast := argvStore_toNat ss
  have hlt := (argvStore ss - 8).isLt
  rw [BitVec.lt_def]
  rw [utemp_toNat] at hlast ⊢
  omega

/-- The vector fits, every call succeeds and nothing is left at `UTEMP`. -/
structure Succeeds (ss : List (List Byte)) (k : StackCalls) (t' : StackState) : Prop where
  fits : argRoom ss ≤ 4096
  alloc : 0 ≤ k.alloc
  map : 0 ≤ k.map
  unmap : 0 ≤ k.unmap
  scratch : t'.scratch = false

/-- A result is an error or a success. -/
lemma initStack_result {r : ℤ} {t t' : StackState} {k : StackCalls}
    (h : initStack ss k t = some (r, t')) : r < 0 ∨ r = 0 ∧ Succeeds ss k t' := by
  unfold initStack at h
  split at h
  · cases h
    exact .inl (by decide)
  rename_i hchecked
  split at h
  · rename_i halloc
    cases h
    exact .inl halloc
  rename_i halloc
  obtain ⟨⟨c, slot, strings⟩, hrun, h⟩ := Option.bind_eq_some_iff.mp h
  obtain ⟨c, -, h⟩ := Option.bind_eq_some_iff.mp h
  split at h
  · cases h
  obtain ⟨c, -, h⟩ := Option.bind_eq_some_iff.mp h
  obtain ⟨c, -, h⟩ := Option.bind_eq_some_iff.mp h
  dsimp only at h
  split at h
  · rename_i hmap
    cases h
    exact .inl hmap
  rename_i hmap
  split at h
  · rename_i hunmap
    cases h
    exact .inl hunmap
  rename_i hunmap
  cases h
  refine .inr ⟨rfl, ?_, by omega, by omega, by omega, decide_eq_false hunmap⟩
  -- the strings and the pointers are each in the page, so that nothing has wrapped
  have hroom : argRoom ss = (argBytes ss + 3) / 4 * 4 + 4 * (ss.length + 1) + 8 := rfl
  rw [refused_iff, utemp_toNat] at hchecked
  rcases storeArgs_bound hrun with rfl | ⟨hslot, hslots, hstring, hstrings⟩
  · decide
  · omega

/-- `init_stack` succeeds when the vector fits and no call fails. -/
lemma initStack_succeeds (hfit : argRoom ss ≤ 4096) (hnoNul : ∀ s ∈ ss, 0 ∉ s) {k : StackCalls}
    (halloc : 0 ≤ k.alloc) (hmap : 0 ≤ k.map) (hunmap : 0 ≤ k.unmap) (t : StackState) :
    ∃ t', initStack ss k t = some (0, t') := by
  obtain ⟨r, t', hrun, -, hr⟩ := initStack_fits hfit hnoNul k t
  rcases hr with rfl | hr | hr | hr
  · exact ⟨t', hrun⟩
  all_goals omega

/-! ### Results -/

/-- What does not fit and is not found goes wrong when every call succeeds. -/
lemma not_initStackOk {argv : Argv} (hbig : 4096 < argRoom argv.strings)
    (hpass : ¬ argvStore argv.strings - 8 < utemp) (t : StackState) :
    ¬ InitStackOk argv ⟨0, 0, 0⟩ t := by
  rintro ⟨r, t', hrun, -, hrefused⟩
  obtain ⟨hr, -⟩ := hrefused hbig
  unfold initStack at hrun
  rw [if_neg hpass, if_neg (by decide)] at hrun
  obtain ⟨⟨c, slot, strings⟩, -, hrun⟩ := Option.bind_eq_some_iff.mp hrun
  obtain ⟨c, -, hrun⟩ := Option.bind_eq_some_iff.mp hrun
  split at hrun
  · cases hrun
  · obtain ⟨c, -, hrun⟩ := Option.bind_eq_some_iff.mp hrun
    obtain ⟨c, -, hrun⟩ := Option.bind_eq_some_iff.mp hrun
    rw [if_neg (by decide), if_neg (by decide)] at hrun
    cases hrun
    revert hr
    decide

/-- `init_stack` keeps its contract, whatever the system calls return, for the vectors that it can
tell to fit or not, and for no others. -/
theorem initStackOk_iff (argv : Argv) : (∀ k t, InitStackOk argv k t) ↔ Detected argv := by
  constructor
  · intro h
    by_cases hfit : argRoom argv.strings ≤ 4096
    · exact .inl hfit
    have hbig : 4096 < argRoom argv.strings := by omega
    refine .inr ((refused_iff _).mp ?_)
    by_contra hpass
    exact not_initStackOk hbig hpass ⟨fun _ => 0, false, fun _ => 0, 0⟩ (h _ _)
  · rintro (hfit | hwrap) k t
    · obtain ⟨r, t', hrun, hpassed, -⟩ := initStack_fits hfit argv.noNul k t
      exact ⟨r, t', hrun, hpassed, fun hbig => by omega⟩
    · by_cases hfit : argRoom argv.strings ≤ 4096
      · obtain ⟨r, t', hrun, hpassed, -⟩ := initStack_fits hfit argv.noNul k t
        exact ⟨r, t', hrun, hpassed, fun hbig => by omega⟩
      · have hcheck := (refused_iff _).mpr hwrap
        refine ⟨-eNoMem, t, ?_, ?_, fun _ => ⟨rfl, rfl⟩⟩
        · unfold initStack
          rw [if_pos hcheck]
        · intro h
          exact absurd h (by decide)

/-- One argument of 4 MiB and 4 KiB. -/
def longArgv : Argv where
  strings := [List.replicate 4198400 1]
  noNul s hs := by
    rw [List.mem_singleton.mp hs]
    intro h
    revert h
    rw [List.mem_replicate]
    decide

lemma argRoom_singleton (s : List Byte) : argRoom [s] = (s.length + 4) / 4 * 4 + 16 := by
  have hbytes : argBytes [s] = s.length + 1 := by
    unfold argBytes
    simp
  unfold argRoom
  rw [hbytes, List.length_singleton]

/-- Its place wraps to the top of the address space. -/
theorem initStackOk_fails : ¬ (∀ (argv : Argv) (k : StackCalls) (t : StackState),
    InitStackOk argv k t) := by
  intro h
  have hroom : argRoom longArgv.strings = 4198420 := by
    change argRoom [_] = _
    rw [argRoom_singleton, List.length_replicate]
  have hbig : 4096 < argRoom longArgv.strings := by omega
  have hpass : ¬ argvStore longArgv.strings - 8 < utemp := by
    rw [refused_iff, hroom, utemp_toNat]
    omega
  exact not_initStackOk hbig hpass ⟨fun _ => 0, false, fun _ => 0, 0⟩ (h _ _ _)

end SistemasOperativos.Lib
