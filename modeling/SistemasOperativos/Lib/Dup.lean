import SistemasOperativos.Kern.Mmu

/-!
# Descriptors that share their pages

`dup` of `lib/fd.c`. A descriptor is a page at `INDEX2FD(i)`, with a page for its device at
`INDEX2DATA(i)`, and a copy maps the same frames at the places of another number. Nothing checks
that number.
-/

namespace SistemasOperativos.Lib.Descriptors

open Kern

def maxfd : Word := 32
def fdtable : Word := 0xd0000000
def filedata : Word := fdtable + maxfd * 0x1000
def eInval : Word := 3
def eNoMem : Word := 4

/-- `INDEX2FD` of an `int`. -/
def index2fd (i : Word) : Word := fdtable + i * 0x1000

/-- `INDEX2DATA`. -/
def index2data (i : Word) : Word := filedata + i * 0x1000

def fd2num (fd : Word) : Word := (fd - fdtable) / 0x1000
def fd2data (fd : Word) : Word := index2data (fd2num fd)

/-- A page that the process may use, with the frame that is mapped there. -/
structure UserPage where
  frame : ℕ
  perm : Word
  user : perm &&& (pteU ||| pteP) = pteU ||| pteP

/-- The pages of a process by their addresses. -/
abbrev Pages := Word → Option UserPage

/-! ### System calls -/

/-- `sys_page_map` within the process; `memory`: there is a frame for a page table. Without one the
result is `-E_NO_MEM`, where the kernel's `page_free` of the shared frame panics. A page with `PTE_P` but
not `PTE_U`, which the kernel accepts too, is none of `Pages`. -/
def sysPageMap (memory : Bool) (m : Pages) (src dst perm : Word) : Word × Pages :=
  if src ≥ utop ∨ dst ≥ utop then (-eInval, m)
  else
    match m src with
    | none => (-eInval, m)
    | some p =>
      if h : perm &&& (pteU ||| pteP) = pteU ||| pteP then
        if has p.perm pteW = false ∧ has perm pteW = true then (-eInval, m)
        else if memory = false then (-eNoMem, m)
        else (0, Function.update m dst (some ⟨p.frame, perm, h⟩))
      else (-eInval, m)

def sysPageUnmap (m : Pages) (va : Word) : Pages :=
  if va ≥ utop then m else Function.update m va none

/-! ### `lib/fd.c` -/

/-- `devpipe.dev_id`. -/
def devpipe : Word := 112

/-- The test of `fd_lookup` on signed numbers. -/
def inRange (fdnum : Word) : Bool := !(fdnum.slt 0 || !fdnum.slt maxfd)

def fdLookup (m : Pages) (fdnum : Word) : Option Word :=
  if inRange fdnum && (m (index2fd fdnum)).isSome then some (index2fd fdnum) else none

/-- `fd_close`, as far as it changes pages: a pipe unmaps its data page, the other devices change
none. `devId` gives the `fd_dev_id` in a frame. -/
def fdClose (devId : ℕ → Word) (m : Pages) (fd : Word) : Pages :=
  match fdLookup m (fd2num fd) with
  | none => m
  | some _ =>
    let pipe := (m fd).any fun p => devId p.frame = devpipe
    sysPageUnmap (if pipe then sysPageUnmap (sysPageUnmap m fd) (fd2data fd) else m) fd

def close (devId : ℕ → Word) (m : Pages) (fdnum : Word) : Pages :=
  match fdLookup m fdnum with
  | none => m
  | some fd => fdClose devId m fd

/-- The label `err` of `dup`. -/
def dupErr (newfd nva r : Word) (m : Pages) : Except Word Word × Pages :=
  (.error r, sysPageUnmap (sysPageUnmap m newfd) nva)

/-- The second mapping of `dup`, of the descriptor itself. -/
def dupFd (memory : Bool) (m : Pages) (oldfd newfd nva newfdnum : Word) :
    Except Word Word × Pages :=
  let perm := match m oldfd with | some p => p.perm &&& pteSyscall | none => 0
  let s := sysPageMap memory m oldfd newfd perm
  if s.1.slt 0 then dupErr newfd nva s.1 s.2 else (.ok newfdnum, s.2)

/-- What `dup` returns, `newfdnum` as `.ok` and an error as `.error`, and the pages afterwards.
`memory` says for its two mappings whether there is memory for a page table. -/
def dup (devId : ℕ → Word) (memory : Bool × Bool) (m : Pages) (oldfdnum newfdnum : Word) :
    Except Word Word × Pages :=
  match fdLookup m oldfdnum with
  | none => (.error (-eInval), m)
  | some oldfd =>
    let m := close devId m newfdnum
    let newfd := index2fd newfdnum
    let ova := fd2data oldfd
    let nva := fd2data newfd
    match m ova with
    | some p =>
      let s := sysPageMap memory.1 m ova nva (p.perm &&& pteSyscall)
      if s.1.slt 0 then dupErr newfd nva s.1 s.2 else dupFd memory.2 s.2 oldfd newfd nva newfdnum
    | none => dupFd memory.2 m oldfd newfd nva newfdnum

/-! ### The contract -/

/-- Both addresses have the same frame, or nothing. -/
def SameFrame (m : Pages) (va : Word) (m' : Pages) (va' : Word) : Prop :=
  (m va).map UserPage.frame = (m' va').map UserPage.frame

/-- Nothing but the two pages of `fdnum` has changed. -/
def OnlyAt (fdnum : Word) (m m' : Pages) : Prop :=
  ∀ va, va ≠ index2fd fdnum → va ≠ fd2data (index2fd fdnum) → m' va = m va

/-- The descriptor is as before. -/
def Kept (fdnum : Word) (m m' : Pages) : Prop :=
  m' (index2fd fdnum) = m (index2fd fdnum) ∧
    m' (fd2data (index2fd fdnum)) = m (fd2data (index2fd fdnum))

/-- After success both descriptors share the pages of the old one, and after a failure that is
open as before; nothing but the pages of the new one has changed. -/
def DupOk (devId : ℕ → Word) (memory : Bool × Bool) (m : Pages) (oldfdnum newfdnum : Word) : Prop :=
  match dup devId memory m oldfdnum newfdnum with
  | (.ok n, m') => n = newfdnum ∧ inRange oldfdnum = true ∧ inRange newfdnum = true ∧
      SameFrame m (index2fd oldfdnum) m' (index2fd oldfdnum) ∧
      SameFrame m (index2fd oldfdnum) m' (index2fd newfdnum) ∧
      SameFrame m (fd2data (index2fd oldfdnum)) m' (fd2data (index2fd oldfdnum)) ∧
      SameFrame m (fd2data (index2fd oldfdnum)) m' (fd2data (index2fd newfdnum)) ∧
      OnlyAt newfdnum m m'
  | (.error _, m') => Kept oldfdnum m m' ∧ OnlyAt newfdnum m m'

/-- The old descriptor is not open; or the new number is another descriptor, without a data page
of its own afterwards if the old one has none; or its pages are where nothing can be mapped. -/
def DupSafe (devId : ℕ → Word) (m : Pages) (oldfdnum newfdnum : Word) : Prop :=
  fdLookup m oldfdnum = none ∨
  (inRange newfdnum = true ∧ newfdnum ≠ oldfdnum ∧
    ((m (index2data oldfdnum)).isSome ∨ (m (index2data newfdnum)).isNone ∨
      (m (index2fd newfdnum)).any (fun p => devId p.frame = devpipe))) ∨
  (inRange newfdnum = false ∧ (index2fd newfdnum ≥ utop ∨
    (m (index2data oldfdnum)).isSome ∧ index2data newfdnum ≥ utop))

variable {devId : ℕ → Word} {m : Pages} {i j oldfdnum newfdnum va src dst : Word}

/-! ### Addresses -/

lemma fd2data_index2fd (i : Word) : fd2data (index2fd i) = index2data i := by
  have hsub : fdtable + i * 0x1000 - fdtable = i * 0x1000 := by
    rw [BitVec.add_comm, BitVec.add_sub_cancel]
  have hnum : fd2num (index2fd i) * 0x1000 = i * 0x1000 := by
    unfold fd2num index2fd
    rw [hsub]
    apply BitVec.eq_of_toNat_eq
    have h4096 : (0x1000 : Word).toNat = 4096 := rfl
    rw [BitVec.toNat_mul, BitVec.toNat_udiv, BitVec.toNat_mul, h4096]
    omega
  unfold fd2data index2data
  rw [hnum]

/-- The data pages are 32 pages behind the descriptors, also beyond the table. -/
lemma index2data_eq (i : Word) : (index2data i).toNat = ((index2fd i).toNat + 131072) % 2 ^ 32 := by
  have hbase : filedata = fdtable + 0x20000 := by decide
  have hsum : index2data i = index2fd i + 0x20000 := by
    unfold index2data index2fd
    rw [hbase, BitVec.add_assoc, BitVec.add_comm 0x20000, ← BitVec.add_assoc]
  rw [hsum, BitVec.toNat_add]
  rfl

lemma inRange_iff : inRange i = true ↔ i.toNat < 32 := by
  have h0 : (0 : Word).toInt = 0 := rfl
  have h32 : (32 : Word).toInt = 32 := rfl
  have hlt := i.isLt
  unfold inRange maxfd
  rw [BitVec.slt_eq_decide, BitVec.slt_eq_decide, h0, h32, BitVec.toInt_eq_toNat_cond]
  simp only [Bool.not_eq_true', Bool.or_eq_false_iff, decide_eq_false_iff_not, Bool.not_eq_false',
    decide_eq_true_eq]
  split <;> omega

lemma index2fd_toNat (h : inRange i = true) : (index2fd i).toNat = 3489660928 + i.toNat * 4096 := by
  rw [inRange_iff] at h
  have hbase : fdtable.toNat = 3489660928 := rfl
  have h4096 : (0x1000 : Word).toNat = 4096 := rfl
  unfold index2fd
  rw [BitVec.toNat_add, BitVec.toNat_mul, hbase, h4096]
  omega

lemma index2data_toNat (h : inRange i = true) :
    (index2data i).toNat = 3489792000 + i.toNat * 4096 := by
  rw [inRange_iff] at h
  have hbase : filedata.toNat = 3489792000 := rfl
  have h4096 : (0x1000 : Word).toNat = 4096 := rfl
  unfold index2data
  rw [BitVec.toNat_add, BitVec.toNat_mul, hbase, h4096]
  omega

lemma index2fd_lt_utop (h : inRange i = true) : index2fd i < utop := by
  have htop : utop.toNat = 4005560320 := rfl
  rw [BitVec.lt_def, index2fd_toNat h, htop]
  rw [inRange_iff] at h
  omega

lemma index2data_lt_utop (h : inRange i = true) : index2data i < utop := by
  have htop : utop.toNat = 4005560320 := rfl
  rw [BitVec.lt_def, index2data_toNat h, htop]
  rw [inRange_iff] at h
  omega

lemma index2fd_ne (hi : inRange i = true) (hj : inRange j = true) (h : i ≠ j) :
    index2fd i ≠ index2fd j := by
  intro heq
  have hnat := congrArg BitVec.toNat heq
  rw [index2fd_toNat hi, index2fd_toNat hj] at hnat
  exact h (BitVec.eq_of_toNat_eq (by omega))

lemma index2data_ne (hi : inRange i = true) (hj : inRange j = true) (h : i ≠ j) :
    index2data i ≠ index2data j := by
  intro heq
  have hnat := congrArg BitVec.toNat heq
  rw [index2data_toNat hi, index2data_toNat hj] at hnat
  exact h (BitVec.eq_of_toNat_eq (by omega))

lemma index2fd_ne_index2data (hi : inRange i = true) (hj : inRange j = true) :
    index2fd i ≠ index2data j := by
  intro heq
  have hnat := congrArg BitVec.toNat heq
  rw [index2fd_toNat hi, index2data_toNat hj] at hnat
  rw [inRange_iff] at hi
  omega

/-! ### System calls -/

/-- A second mapping of a page. -/
def UserPage.copy (p : UserPage) : UserPage where
  frame := p.frame
  perm := p.perm &&& pteSyscall
  user := by
    have hsys : pteSyscall &&& (pteU ||| pteP) = pteU ||| pteP := by decide
    rw [BitVec.and_assoc, hsys, p.user]

lemma sysPageMap_none (memory : Bool) (h : m src = none) (dst perm : Word) :
    sysPageMap memory m src dst perm = (-eInval, m) := by
  unfold sysPageMap
  rw [h]
  split <;> rfl

lemma sysPageMap_high (memory : Bool) (m : Pages) (src : Word) (hdst : dst ≥ utop) (perm : Word) :
    sysPageMap memory m src dst perm = (-eInval, m) := by
  unfold sysPageMap
  rw [if_pos (.inr hdst)]

/-- Mapping a page again. -/
lemma sysPageMap_some (memory : Bool) {p : UserPage} (hsrc : src < utop) (hdst : dst < utop)
    (h : m src = some p) : sysPageMap memory m src dst (p.perm &&& pteSyscall) =
      if memory = false then (-eNoMem, m) else (0, Function.update m dst (some p.copy)) := by
  have hlow : ¬ (src ≥ utop ∨ dst ≥ utop) := by
    rw [not_or, BitVec.not_le, BitVec.not_le]
    exact ⟨hsrc, hdst⟩
  have hwrite : ¬ (has p.perm pteW = false ∧ has (p.perm &&& pteSyscall) pteW = true) := by
    rw [has_pteW, has_pteW, BitVec.getLsbD_and]
    rintro ⟨hro, hw⟩
    rw [hro] at hw
    cases hw
  have huser : p.perm &&& pteSyscall &&& (pteU ||| pteP) = pteU ||| pteP := p.copy.user
  unfold sysPageMap
  rw [if_neg hlow, h]
  dsimp only
  rw [dif_pos huser, if_neg hwrite]
  rfl

lemma sysPageMap_of_ne (memory : Bool) (m : Pages) (src perm : Word) (h : va ≠ dst) :
    (sysPageMap memory m src dst perm).2 va = m va := by
  unfold sysPageMap
  split
  · rfl
  · split
    · rfl
    · split
      · split
        · rfl
        · split
          · rfl
          · exact Function.update_of_ne h _ _
      · rfl

lemma sysPageUnmap_of_ne (m : Pages) (h : va ≠ dst) : sysPageUnmap m dst va = m va := by
  unfold sysPageUnmap
  split
  · rfl
  · exact Function.update_of_ne h _ _

lemma sysPageUnmap_self (m : Pages) (h : va < utop) : sysPageUnmap m va va = none := by
  unfold sysPageUnmap
  rw [if_neg (BitVec.not_le.mpr h)]
  exact Function.update_self _ _ _

lemma sysPageUnmap_high (m : Pages) (h : va ≥ utop) : sysPageUnmap m va = m := if_pos h

/-- A page that is not mapped stays so. -/
lemma sysPageUnmap_none {m : Pages} (h : m va = none) (dst : Word) :
    sysPageUnmap m dst va = none := by
  by_cases heq : va = dst
  · subst heq
    unfold sysPageUnmap
    split
    · exact h
    · exact Function.update_self _ _ _
  · rw [sysPageUnmap_of_ne m heq, h]

/-! ### Closing -/

lemma fd2num_index2fd (h : inRange i = true) : fd2num (index2fd i) = i := by
  have hfd := index2fd_toNat h
  rw [inRange_iff] at h
  apply BitVec.eq_of_toNat_eq
  have hbase : fdtable.toNat = 3489660928 := rfl
  have h4096 : (0x1000 : Word).toNat = 4096 := rfl
  unfold fd2num
  rw [BitVec.toNat_udiv, BitVec.toNat_sub, hfd, hbase, h4096]
  omega

lemma fdLookup_some (h : fdLookup m i = some va) :
    inRange i = true ∧ va = index2fd i ∧ ∃ p, m (index2fd i) = some p := by
  unfold fdLookup at h
  split at h
  · rename_i hc
    rw [Bool.and_eq_true] at hc
    exact ⟨hc.1, (Option.some.inj h).symm, Option.isSome_iff_exists.mp hc.2⟩
  · cases h

lemma fdLookup_none (hr : inRange i = true) (h : fdLookup m i = none) : m (index2fd i) = none := by
  unfold fdLookup at h
  split at h
  · cases h
  · rename_i hc
    rw [hr, Bool.true_and] at hc
    simpa using hc

lemma close_of_ne (hfd : va ≠ index2fd i) (hdata : va ≠ index2data i) :
    close devId m i va = m va := by
  unfold close
  cases hlook : fdLookup m i with
  | none => rfl
  | some fd =>
    obtain ⟨-, rfl, -⟩ := fdLookup_some hlook
    dsimp only
    unfold fdClose
    cases fdLookup m (fd2num (index2fd i)) with
    | none => rfl
    | some _ =>
      dsimp only
      rw [sysPageUnmap_of_ne _ hfd]
      split
      · rw [fd2data_index2fd, sysPageUnmap_of_ne _ hdata, sysPageUnmap_of_ne _ hfd]
      · rfl

lemma close_of_range (h : inRange i = false) : close devId m i = m := by
  unfold close fdLookup
  rw [h]
  rfl

lemma close_fd (devId : ℕ → Word) (m : Pages) (h : inRange i = true) :
    close devId m i (index2fd i) = none := by
  unfold close
  cases hlook : fdLookup m i with
  | none => exact fdLookup_none h hlook
  | some fd =>
    obtain ⟨-, rfl, -⟩ := fdLookup_some hlook
    dsimp only
    unfold fdClose
    rw [fd2num_index2fd h, hlook]
    exact sysPageUnmap_self _ (index2fd_lt_utop h)

/-- The data page goes with the descriptor of a pipe. -/
lemma close_data (devId : ℕ → Word) (m : Pages) (h : inRange i = true) :
    close devId m i (index2data i) = none ↔
    m (index2data i) = none ∨ (m (index2fd i)).any (fun p => devId p.frame = devpipe) = true := by
  have hne : index2data i ≠ index2fd i := (index2fd_ne_index2data h h).symm
  unfold close
  cases hlook : fdLookup m i with
  | none =>
    rw [fdLookup_none h hlook]
    simp
  | some fd =>
    obtain ⟨-, rfl, -⟩ := fdLookup_some hlook
    dsimp only
    unfold fdClose
    rw [fd2num_index2fd h, hlook]
    dsimp only
    rw [sysPageUnmap_of_ne _ hne]
    split
    · rename_i hpipe
      rw [fd2data_index2fd, sysPageUnmap_self _ (index2data_lt_utop h)]
      exact iff_of_true rfl (.inr hpipe)
    · rename_i hpipe
      simp [hpipe]

/-! ### The two mappings -/

lemma dupErr_of_ne (r : Word) (hfd : va ≠ src) (hdata : va ≠ dst) :
    (dupErr src dst r m).2 va = m va := by
  unfold dupErr
  dsimp only
  rw [sysPageUnmap_of_ne _ hdata, sysPageUnmap_of_ne _ hfd]

lemma dupFd_of_ne (memory : Bool) (m : Pages) (oldfd newfd nva n : Word) (hfd : va ≠ newfd)
    (hdata : va ≠ nva) : (dupFd memory m oldfd newfd nva n).2 va = m va := by
  unfold dupFd
  dsimp only
  generalize (match m oldfd with | some p => p.perm &&& pteSyscall | none => 0) = perm
  split
  · rw [dupErr_of_ne _ hfd hdata, sysPageMap_of_ne _ _ _ _ hfd]
  · exact sysPageMap_of_ne _ _ _ _ hfd

/-- Nothing but the pages of the new number changes, whatever it is. -/
lemma dup_onlyAt (devId : ℕ → Word) (memory : Bool × Bool) (m : Pages) (oldfdnum newfdnum : Word) :
    OnlyAt newfdnum m (dup devId memory m oldfdnum newfdnum).2 := by
  intro va hfd hdata
  have hclose : close devId m newfdnum va = m va :=
    close_of_ne hfd (fd2data_index2fd newfdnum ▸ hdata)
  unfold dup
  cases fdLookup m oldfdnum with
  | none => rfl
  | some oldfd =>
    dsimp only
    cases close devId m newfdnum (fd2data oldfd) with
    | none =>
      rw [dupFd_of_ne _ _ _ _ _ _ hfd hdata, hclose]
    | some p =>
      dsimp only
      split
      · rw [dupErr_of_ne _ hfd hdata, sysPageMap_of_ne _ _ _ _ hdata, hclose]
      · rw [dupFd_of_ne _ _ _ _ _ _ hfd hdata, sysPageMap_of_ne _ _ _ _ hdata, hclose]

lemma dupFd_none (memory : Bool) {oldfd : Word} (h : m oldfd = none) (newfd nva n : Word) :
    dupFd memory m oldfd newfd nva n = dupErr newfd nva (-eInval) m := by
  unfold dupFd
  dsimp only
  have hneg : (-eInval).slt 0 = true := by decide
  rw [sysPageMap_none memory h]
  exact if_pos hneg

lemma dupFd_high (memory : Bool) (m : Pages) (oldfd : Word) {newfd : Word} (h : newfd ≥ utop)
    (nva n : Word) : dupFd memory m oldfd newfd nva n = dupErr newfd nva (-eInval) m := by
  unfold dupFd
  dsimp only
  have hneg : (-eInval).slt 0 = true := by decide
  rw [sysPageMap_high memory m oldfd h]
  exact if_pos hneg

lemma dupFd_some (memory : Bool) {oldfd newfd : Word} {q : UserPage} (hold : oldfd < utop)
    (hnew : newfd < utop) (h : m oldfd = some q) (nva n : Word) :
    dupFd memory m oldfd newfd nva n = if memory = false then dupErr newfd nva (-eNoMem) m
      else (.ok n, Function.update m newfd (some q.copy)) := by
  unfold dupFd
  dsimp only
  rw [h]
  dsimp only
  rw [sysPageMap_some memory hold hnew h]
  cases memory with
  | false => rfl
  | true => rfl

lemma fdLookup_of_some {q : UserPage} (hr : inRange i = true) (h : m (index2fd i) = some q) :
    fdLookup m i = some (index2fd i) := by
  unfold fdLookup
  rw [hr, h]
  rfl

variable {memory : Bool × Bool} {p q : UserPage}

lemma dup_data_none (memory : Bool × Bool)
    (hlook : fdLookup m oldfdnum = some (index2fd oldfdnum))
    (h : close devId m newfdnum (index2data oldfdnum) = none) :
    dup devId memory m oldfdnum newfdnum =
      dupFd memory.2 (close devId m newfdnum) (index2fd oldfdnum) (index2fd newfdnum)
        (index2data newfdnum) newfdnum := by
  unfold dup
  rw [hlook]
  dsimp only
  rw [fd2data_index2fd, fd2data_index2fd, h]

lemma dup_data_high (memory : Bool × Bool)
    (hlook : fdLookup m oldfdnum = some (index2fd oldfdnum))
    (h : close devId m newfdnum (index2data oldfdnum) = some p) (hdst : index2data newfdnum ≥ utop) :
    dup devId memory m oldfdnum newfdnum =
      dupErr (index2fd newfdnum) (index2data newfdnum) (-eInval) (close devId m newfdnum) := by
  have hneg : (-eInval).slt 0 = true := by decide
  unfold dup
  rw [hlook]
  dsimp only
  rw [fd2data_index2fd, fd2data_index2fd, h]
  dsimp only
  rw [sysPageMap_high _ _ _ hdst]
  exact if_pos hneg

lemma dup_data_some (memory : Bool × Bool)
    (hlook : fdLookup m oldfdnum = some (index2fd oldfdnum))
    (h : close devId m newfdnum (index2data oldfdnum) = some p) (hsrc : index2data oldfdnum < utop)
    (hdst : index2data newfdnum < utop) : dup devId memory m oldfdnum newfdnum =
      if memory.1 = false then
        dupErr (index2fd newfdnum) (index2data newfdnum) (-eNoMem) (close devId m newfdnum)
      else dupFd memory.2 (Function.update (close devId m newfdnum) (index2data newfdnum) (some p.copy))
        (index2fd oldfdnum) (index2fd newfdnum) (index2data newfdnum) newfdnum := by
  unfold dup
  rw [hlook]
  dsimp only
  rw [fd2data_index2fd, fd2data_index2fd, h]
  dsimp only
  have hneg : (-eNoMem).slt 0 = true := by decide
  have hpos : ¬ (0 : Word).slt 0 = true := by decide
  rw [sysPageMap_some _ hsrc hdst h]
  by_cases hmem : memory.1 = false
  · rw [if_pos hmem, if_pos hmem]
    exact if_pos hneg
  · rw [if_neg hmem, if_neg hmem]
    exact if_neg hpos

/-! ### Results -/

/-- A descriptor that is copied to itself is lost. -/
lemma not_dupOk_self (hr : inRange i = true)
    (h : m (index2fd i) = some q) : ¬ DupOk devId memory m i i := by
  have hlook := fdLookup_of_some hr h
  have hnone := close_fd devId m hr
  have hlost : ∀ r m', (m' : Pages) (index2fd i) = none → ∃ r' m'',
      dupErr (index2fd i) (index2data i) r m' = (.error r', m'') ∧ m'' (index2fd i) = none :=
    fun r m' hm' => ⟨r, _, rfl, sysPageUnmap_none (sysPageUnmap_none hm' _) _⟩
  have hend : ∃ r' m'', dup devId memory m i i = (.error r', m'') ∧ m'' (index2fd i) = none := by
    cases hdata : close devId m i (index2data i) with
    | none =>
      rw [dup_data_none _ hlook hdata, dupFd_none _ hnone]
      exact hlost _ _ hnone
    | some p =>
      have hlow := index2data_lt_utop hr
      rw [dup_data_some _ hlook hdata hlow hlow]
      split
      · exact hlost _ _ hnone
      · have hne := index2fd_ne_index2data hr hr
        have hnone' : Function.update (close devId m i) (index2data i) (some p.copy) (index2fd i) =
            none := by rw [Function.update_of_ne hne, hnone]
        rw [dupFd_none _ hnone']
        exact hlost _ _ hnone'
  obtain ⟨r, m', hdup, hm'⟩ := hend
  unfold DupOk
  rw [hdup]
  rintro ⟨⟨hkept, -⟩, -⟩
  rw [hm', h] at hkept
  cases hkept

/-- The outcomes of a copy to another number: the error path leaves the pages of the old one alone
if they are not those of the new one. -/
lemma kept_dupErr {r : Word} {m' : Pages} (hfd : m' (index2fd oldfdnum) = m (index2fd oldfdnum))
    (hdata : m' (index2data oldfdnum) = m (index2data oldfdnum))
    (h1 : index2fd oldfdnum ≠ index2fd newfdnum ∨ index2fd newfdnum ≥ utop)
    (h2 : index2fd oldfdnum ≠ index2data newfdnum ∨ index2data newfdnum ≥ utop)
    (h3 : index2data oldfdnum ≠ index2fd newfdnum ∨ index2fd newfdnum ≥ utop)
    (h4 : index2data oldfdnum ≠ index2data newfdnum ∨ index2data newfdnum ≥ utop) :
    Kept oldfdnum m (dupErr (index2fd newfdnum) (index2data newfdnum) r m').2 := by
  have hunmap : ∀ (m : Pages) va dst, va ≠ dst ∨ dst ≥ utop → sysPageUnmap m dst va = m va := by
    rintro m va dst (hne | hhigh)
    · exact sysPageUnmap_of_ne m hne
    · rw [sysPageUnmap_high m hhigh]
  unfold Kept dupErr
  dsimp only
  rw [fd2data_index2fd, hunmap _ _ _ h2, hunmap _ _ _ h1, hunmap _ _ _ h4, hunmap _ _ _ h3]
  exact ⟨hfd, hdata⟩

/-- A copy to another descriptor. -/
lemma dupOk_inRange_iff (hold : inRange oldfdnum = true) (hnew : inRange newfdnum = true)
    (hne : newfdnum ≠ oldfdnum) (hq : m (index2fd oldfdnum) = some q) :
    (∀ memory, DupOk devId memory m oldfdnum newfdnum) ↔
      (m (index2data oldfdnum)).isSome ∨ (m (index2data newfdnum)).isNone ∨
        (m (index2fd newfdnum)).any (fun p => devId p.frame = devpipe) := by
  have hlook := fdLookup_of_some hold hq
  have hfds := index2fd_ne hold hnew hne.symm
  have hdatas := index2data_ne hold hnew hne.symm
  have hfd := index2fd_ne_index2data hold hnew
  have hdata := (index2fd_ne_index2data hnew hold).symm
  have hown := index2fd_ne_index2data hnew hnew
  -- closing the other descriptor leaves both pages
  have hq' : close devId m newfdnum (index2fd oldfdnum) = some q := by
    rw [close_of_ne hfds hfd, hq]
  have hdata' : close devId m newfdnum (index2data oldfdnum) = m (index2data oldfdnum) :=
    close_of_ne hdata hdatas
  have hlow := index2fd_lt_utop hold
  have hlow' := index2fd_lt_utop hnew
  have hkept : ∀ (r : Word) (m' : Pages), m' (index2fd oldfdnum) = m (index2fd oldfdnum) →
      m' (index2data oldfdnum) = m (index2data oldfdnum) →
      Kept oldfdnum m (dupErr (index2fd newfdnum) (index2data newfdnum) r m').2 := by
    intro r m' h1 h2
    exact kept_dupErr h1 h2 (.inl hfds) (.inl hfd) (.inl hdata) (.inl hdatas)
  cases hp : m (index2data oldfdnum) with
  | some p =>
    refine iff_of_true ?_ (.inl rfl)
    intro memory
    have honly := dup_onlyAt devId memory m oldfdnum newfdnum
    have hpages := dup_data_some memory hlook (hdata'.trans hp)
      (index2data_lt_utop hold) (index2data_lt_utop hnew)
    have hq'' : Function.update (close devId m newfdnum) (index2data newfdnum) (some p.copy)
        (index2fd oldfdnum) = some q := by rw [Function.update_of_ne hfd, hq']
    have hdata'' : Function.update (close devId m newfdnum) (index2data newfdnum) (some p.copy)
        (index2data oldfdnum) = some p := by rw [Function.update_of_ne hdatas, hdata', hp]
    rw [dupFd_some memory.2 hlow hlow' hq''] at hpages
    unfold DupOk
    rw [hpages] at honly ⊢
    by_cases h1 : memory.1 = false
    · rw [if_pos h1] at honly ⊢
      exact ⟨hkept (-eNoMem) _ (hq'.trans hq.symm) hdata', honly⟩
    · rw [if_neg h1] at honly ⊢
      by_cases h2 : memory.2 = false
      · rw [if_pos h2] at honly ⊢
        exact ⟨hkept (-eNoMem) _ (hq''.trans hq.symm) (hdata''.trans hp.symm), honly⟩
      · rw [if_neg h2] at honly ⊢
        refine ⟨rfl, hold, hnew, ?_, ?_, ?_, ?_, honly⟩
        · unfold SameFrame
          rw [Function.update_of_ne hfds, hq'', hq]
        · unfold SameFrame
          rw [Function.update_self, hq]
          rfl
        · unfold SameFrame
          rw [fd2data_index2fd, Function.update_of_ne hdata, hdata'', hp]
        · unfold SameFrame
          rw [fd2data_index2fd, fd2data_index2fd, Function.update_of_ne hown.symm,
            Function.update_self, hp]
          rfl
  | none =>
    have hnone : (close devId m newfdnum) (index2data oldfdnum) = none := hdata'.trans hp
    have hpages : ∀ memory, dup devId memory m oldfdnum newfdnum = _ := fun memory =>
      (dup_data_none memory hlook hnone).trans (dupFd_some memory.2 hlow hlow' hq' _ _)
    have hiff := close_data devId m hnew
    rw [Option.isSome_none, Option.isNone_iff_eq_none, ← hiff]
    constructor
    · intro h
      have hok := h (true, true)
      unfold DupOk at hok
      rw [hpages] at hok
      obtain ⟨-, -, -, -, -, -, hsame, -⟩ := hok
      unfold SameFrame at hsame
      rw [fd2data_index2fd, fd2data_index2fd, Function.update_of_ne hown.symm, hp, Option.map_none] at hsame
      exact .inr (Option.map_eq_none_iff.mp hsame.symm)
    · rintro (h | hclosed) memory
      · cases h
      have honly := dup_onlyAt devId memory m oldfdnum newfdnum
      unfold DupOk
      rw [hpages] at honly ⊢
      by_cases h2 : memory.2 = false
      · rw [if_pos h2] at honly ⊢
        exact ⟨hkept (-eNoMem) _ (hq'.trans hq.symm) hdata', honly⟩
      · rw [if_neg h2] at honly ⊢
        refine ⟨rfl, hold, hnew, ?_, ?_, ?_, ?_, honly⟩
        · unfold SameFrame
          rw [Function.update_of_ne hfds, hq', hq]
        · unfold SameFrame
          rw [Function.update_self, hq]
          rfl
        · unfold SameFrame
          rw [fd2data_index2fd, Function.update_of_ne hdata, hdata']
        · unfold SameFrame
          rw [fd2data_index2fd, fd2data_index2fd, Function.update_of_ne hown.symm, hp, hclosed]

/-- A number that is no descriptor is mapped all the same, if that is possible. -/
lemma dupOk_outOfRange_iff (hold : inRange oldfdnum = true) (hnew : inRange newfdnum = false)
    (hq : m (index2fd oldfdnum) = some q) :
    (∀ memory, DupOk devId memory m oldfdnum newfdnum) ↔
      index2fd newfdnum ≥ utop ∨ (m (index2data oldfdnum)).isSome ∧ index2data newfdnum ≥ utop := by
  have hlook := fdLookup_of_some hold hq
  have hclose : close devId m newfdnum = m := close_of_range hnew
  have hlow := index2fd_lt_utop hold
  have hlow' := index2data_lt_utop hold
  have htop : utop.toNat = 4005560320 := rfl
  have hfdNat := index2fd_toNat hold
  have hdataNat := index2data_toNat hold
  have hshift := index2data_eq newfdnum
  have hsmall := inRange_iff.mp hold
  -- a result of `newfdnum` is wrong
  have hbad : ∀ {memory m'}, dup devId memory m oldfdnum newfdnum = (.ok newfdnum, m') →
      ¬ DupOk devId memory m oldfdnum newfdnum := by
    intro memory m' hdup hok
    unfold DupOk at hok
    rw [hdup] at hok
    rw [hok.2.2.1] at hnew
    cases hnew
  -- where one of the pages is too high, neither is a page of the old descriptor
  have hfd : index2fd newfdnum ≥ utop → index2fd oldfdnum ≠ index2data newfdnum ∧
      index2data oldfdnum ≠ index2data newfdnum := by
    intro hhigh
    rw [ge_iff_le, BitVec.le_def, htop] at hhigh
    constructor
    · intro heq
      have hnat := congrArg BitVec.toNat heq
      omega
    · intro heq
      have hnat := congrArg BitVec.toNat heq
      omega
  have hdata : index2data newfdnum ≥ utop → index2fd oldfdnum ≠ index2fd newfdnum ∧
      index2data oldfdnum ≠ index2fd newfdnum := by
    intro hhigh
    rw [ge_iff_le, BitVec.le_def, htop] at hhigh
    constructor
    · intro heq
      have hnat := congrArg BitVec.toNat heq
      omega
    · intro heq
      have hnat := congrArg BitVec.toNat heq
      omega
  have hkept : index2fd newfdnum ≥ utop → ∀ (r : Word) (m' : Pages),
      m' (index2fd oldfdnum) = m (index2fd oldfdnum) →
      m' (index2data oldfdnum) = m (index2data oldfdnum) →
      Kept oldfdnum m (dupErr (index2fd newfdnum) (index2data newfdnum) r m').2 := by
    intro hhigh r m' h1 h2
    exact kept_dupErr h1 h2 (.inr hhigh) (.inl (hfd hhigh).1) (.inr hhigh) (.inl (hfd hhigh).2)
  cases hp : m (index2data oldfdnum) with
  | none =>
    have hnone : close devId m newfdnum (index2data oldfdnum) = none := by rw [hclose, hp]
    constructor
    · intro h
      by_contra hnot
      have hnew' : index2fd newfdnum < utop := BitVec.not_le.mp fun hle => hnot (.inl hle)
      have hpages := dup_data_none (true, true) hlook hnone
      rw [hclose, dupFd_some true hlow hnew' hq] at hpages
      exact hbad hpages (h (true, true))
    · rintro (hhigh | ⟨h, -⟩) memory
      · have honly := dup_onlyAt devId memory m oldfdnum newfdnum
        have hpages := dup_data_none memory hlook hnone
        rw [hclose, dupFd_high _ _ _ hhigh] at hpages
        unfold DupOk
        rw [hpages] at honly ⊢
        exact ⟨hkept hhigh (-eInval) m rfl rfl, honly⟩
      · cases h
  | some p =>
    have hsome : close devId m newfdnum (index2data oldfdnum) = some p := by rw [hclose, hp]
    constructor
    · intro h
      by_contra hnot
      have hnew' : index2fd newfdnum < utop := BitVec.not_le.mp fun hle => hnot (.inl hle)
      have hdnew : index2data newfdnum < utop := BitVec.not_le.mp fun hle => hnot (.inr ⟨rfl, hle⟩)
      have hpages := dup_data_some (true, true) hlook hsome hlow' hdnew
      have hmapped : ∃ q', Function.update m (index2data newfdnum) (some p.copy)
          (index2fd oldfdnum) = some q' := by
        by_cases heq : index2fd oldfdnum = index2data newfdnum
        · rw [heq]
          exact ⟨_, Function.update_self _ _ _⟩
        · rw [Function.update_of_ne heq]
          exact ⟨q, hq⟩
      obtain ⟨q', hq'⟩ := hmapped
      rw [hclose, if_neg (by decide), dupFd_some true hlow hnew' hq'] at hpages
      exact hbad hpages (h (true, true))
    · intro hhigh memory
      have honly := dup_onlyAt devId memory m oldfdnum newfdnum
      unfold DupOk
      by_cases hdhigh : index2data newfdnum ≥ utop
      · have hpages := dup_data_high memory hlook hsome hdhigh
        rw [hclose] at hpages
        rw [hpages] at honly ⊢
        refine ⟨?_, honly⟩
        exact kept_dupErr (r := -eInval) rfl rfl (.inl (hdata hdhigh).1) (.inr hdhigh) (.inl (hdata hdhigh).2)
          (.inr hdhigh)
      · have hfdhigh : index2fd newfdnum ≥ utop := by
          rcases hhigh with h | h
          · exact h
          · exact absurd h.2 hdhigh
        have hpages := dup_data_some memory hlook hsome hlow' (BitVec.not_le.mp hdhigh)
        rw [hclose, dupFd_high _ _ _ hfdhigh] at hpages
        rw [hpages] at honly ⊢
        obtain ⟨h1, h2⟩ := hfd hfdhigh
        split at honly
        · rename_i hmem
          rw [if_pos hmem]
          exact ⟨hkept hfdhigh (-eNoMem) m rfl rfl, honly⟩
        · rename_i hmem
          rw [if_neg hmem]
          refine ⟨hkept hfdhigh (-eInval) _ ?_ ?_, honly⟩
          · exact Function.update_of_ne h1 _ _
          · exact Function.update_of_ne h2 _ _

/-- Whatever memory there is, `dup` keeps its contract in the safe cases and in no others. -/
theorem dupOk_iff (devId : ℕ → Word) (m : Pages) (oldfdnum newfdnum : Word) :
    (∀ memory, DupOk devId memory m oldfdnum newfdnum) ↔ DupSafe devId m oldfdnum newfdnum := by
  cases hlook : fdLookup m oldfdnum with
  | none =>
    refine iff_of_true ?_ (.inl hlook)
    intro memory
    unfold DupOk dup
    rw [hlook]
    exact ⟨⟨rfl, rfl⟩, fun _ _ _ => rfl⟩
  | some fd =>
    obtain ⟨hold, -, q, hq⟩ := fdLookup_some hlook
    unfold DupSafe
    rw [hlook]
    cases hnew : inRange newfdnum with
    | true =>
      by_cases hne : newfdnum = oldfdnum
      · subst hne
        simp only [not_dupOk_self hold hq]
        simp
      · rw [dupOk_inRange_iff hold hnew hne hq]
        simp [hne]
    | false =>
      rw [dupOk_outOfRange_iff hold hnew hq]
      simp

/-- A page with every permission. -/
def fullPage (frame : ℕ) : UserPage := ⟨frame, pteSyscall, by decide⟩

/-- Descriptor 0 of the console is open, and nothing else. -/
def onlyConsole : Pages := fun va => if va = index2fd 0 then some (fullPage 7) else none

/-- `dup(0, 0)` closes descriptor 0. -/
theorem dupOk_fails : ¬ (∀ (devId : ℕ → Word) (memory : Bool × Bool) (m : Pages)
    (oldfdnum newfdnum : Word), DupOk devId memory m oldfdnum newfdnum) := by
  intro h
  have hopen : onlyConsole (index2fd 0) = some (fullPage 7) := if_pos rfl
  exact not_dupOk_self (by decide) hopen (h (fun _ => 99) (true, true) onlyConsole 0 0)

end SistemasOperativos.Lib.Descriptors
