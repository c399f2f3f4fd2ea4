import SistemasOperativos.Library.Runs
import SistemasOperativos.Kern.KernelRuns

/-!
# Page tables as finite maps

What callers of `pgdir_walk`, `page_insert`, `page_lookup` and `page_remove` rely on: a page
directory is a map from user pages to physical pages with permissions. `page_lookup` does not
test `PTE_P`, so that the operations agree with the map only where an entry is present or its
whole page table is missing.
-/

namespace SistemasOperativos.Kern

open Library

/-- The map of every page directory: the page and the permissions of each entry. -/
abbrev PageMap (ι : Type) := ι → PageNo → Option (ℕ × Word)

/-- The page and the low 12 bits of an entry that is present. -/
def mapping (w : Word) : Option (ℕ × Word) :=
  if has w pteP then some (pgnum w, w &&& 0xfff) else none

section Maps

variable {ι : Type}

def PageMap.set [DecidableEq ι] (M : PageMap ι) (i : ι) (n : PageNo) (v : Option (ℕ × Word)) :
    PageMap ι :=
  Function.update M i (Function.update (M i) n v)

/-- The map that the page tables in memory represent. -/
def mapsOf (dirs : ι → Option ℕ) (mem : ℕ → ℕ → Word) : PageMap ι :=
  fun i n => mapping (spaces dirs mem i n)

inductive PageCall (ι : Type)
  /-- `page_alloc(ALLOC_ZERO)`, from which the callers have their pages -/
  | alloc
  | walk (i : ι) (n : PageNo) (create : Bool)
  | insert (i : ι) (pp : ℕ) (n : PageNo) (perm : Word)
  | lookup (i : ι) (n : PageNo)
  | remove (i : ι) (n : PageNo)

inductive PageResult
  | page (pp : Option ℕ)
  | pte (p : Option PtePtr)
  | code (r : Word)
  | found (r : Option (ℕ × PtePtr))
  | none

/-- The address of a user page. -/
def pageAddr (n : PageNo) : Word := pgaddr n.1 n.2 0

def PageCall.run (dirs : ι → Option ℕ) : PageCall ι → PmapM PageResult
  | .alloc => PageResult.page <$> pageAlloc true
  | .walk i n create => PageResult.pte <$> pgdirWalk (dirs i) (pageAddr n) create
  | .insert i pp n perm => PageResult.code <$> pageInsert (dirs i) pp (pageAddr n) perm
  | .lookup i n => PageResult.found <$> pageLookup (dirs i) (pageAddr n)
  | .remove i n => (fun _ => PageResult.none) <$> pageRemove (dirs i) (pageAddr n)

/-- A page that has been handed out and is not part of the page tables. -/
structure Usable (B : Boot) (dirs : ι → Option ℕ) (s : Pmap) (pp : ℕ) : Prop where
  managed : pp ∈ B.freeList
  taken : ∀ l, Linked s.ppLink s.pageFreeList l → pp ∉ l
  leaf : ∀ r : PageRef ι, r.Interior → pointers dirs s.mem r ≠ some pp

/-- The arguments the operations are made for. -/
def Admissible (B : Boot) (dirs : ι → Option ℕ) (s : Pmap) : PageCall ι → Prop
  | .alloc => True
  | .walk i _ _ => dirs i ≠ none
  | .insert i pp _ perm => dirs i ≠ none ∧ Usable B dirs s pp ∧ perm.toNat < 4096
  | .lookup i _ => dirs i ≠ none
  | .remove i _ => dirs i ≠ none

/-- What a finite map does, from state `s` to state `t`. -/
def Answers [DecidableEq ι] (dirs : ι → Option ℕ) (s t : Pmap) : PageCall ι → PageResult → Prop
  | .alloc, _ => mapsOf dirs t.mem = mapsOf dirs s.mem
  | .walk i n _, .pte p => mapsOf dirs t.mem = mapsOf dirs s.mem ∧ ∀ q, p = some q →
      q.idx = n.2 ∧ tableAt target dirs t.mem i n.1 = some q.table
  | .insert i pp n perm, .code r =>
      (r = 0 ∧ mapsOf dirs t.mem = (mapsOf dirs s.mem).set i n (some (pp, perm ||| pteP))) ∨
      (r = -eNoMem ∧ mapsOf dirs t.mem = mapsOf dirs s.mem)
  | .lookup i n, .found r => t = s ∧ (r = none ↔ mapsOf dirs s.mem i n = none) ∧
      ∀ pp q, r = some (pp, q) → (mapsOf dirs s.mem i n).map Prod.fst = some pp ∧
        q.idx = n.2 ∧ tableAt target dirs s.mem i n.1 = some q.table
  | .remove i n, _ => mapsOf dirs t.mem = (mapsOf dirs s.mem).set i n none ∧
      (mapsOf dirs s.mem i n = none → t = s)
  | _, _ => False

/-- The call returns, and answers as a finite map does. -/
def Behaves [DecidableEq ι] (dirs : ι → Option ℕ) (s : Pmap) (call : PageCall ι) : Prop :=
  ∃ r t, call.run dirs s = .ok r t ∧ Answers dirs s t call r

/-- An admissible call that returns. -/
def PageStep (B : Boot) (dirs : ι → Option ℕ) (s : Pmap) (call : PageCall ι) (t : Pmap) : Prop :=
  Admissible B dirs s call ∧ ∃ r, call.run dirs s = .ok r t

/-- The entry is present or there is no page table for it. -/
def Settled (dirs : ι → Option ℕ) (s : Pmap) (i : ι) (n : PageNo) : Prop :=
  mapsOf dirs s.mem i n ≠ none ∨ tableAt target dirs s.mem i n.1 = none

/-- The page tables and the books of the allocator are in order. -/
def InOrder [Fintype ι] (B : Boot) (dirs : ι → Option ℕ) (s : Pmap) : Prop :=
  ∃ hand, PmapIn B dirs 0 hand s

/-- The calls that keep to the map: an entry is looked up or removed where it is present or has
no page table, and the 16 bits of `pp_ref` suffice. -/
def PageGuard (dirs : ι → Option ℕ) (s : Pmap) : PageCall ι → Prop
  | .insert i pp n _ => s.ppRef pp ≠ 65535 ∨ (mapsOf dirs s.mem i n).map Prod.fst = some pp
  | .lookup i n => Settled dirs s i n
  | .remove i n => Settled dirs s i n
  | _ => True

lemma mapping_zero : mapping 0 = none := by decide

lemma mapping_eq_none {w : Word} (h : mapping w = none) : target w = none := by
  unfold mapping at h
  unfold target
  split at h
  · cases h
  · rename_i hP
    rw [if_neg hP]

lemma mapping_fst (w : Word) : (mapping w).map Prod.fst = target w := by
  unfold mapping target
  split
  · rfl
  · rfl

/-- The entry that `page_insert` writes. -/
lemma mapping_entry {pp : ℕ} {perm : Word} (hpp : pp < 2 ^ 20) (hperm : perm.toNat < 4096) :
    mapping (page2pa pp ||| perm ||| pteP) = some (pp, perm ||| pteP) := by
  have hmask : ∀ k, (0xfff : Word).getLsbD k = decide (k < 12) := by
    intro k
    rw [show (0xfff : Word) = BitVec.ofNat 32 (2 ^ 12 - 1) from rfl, BitVec.getLsbD_ofNat,
      Nat.testBit_two_pow_sub_one]
    by_cases hk : k < 12
    · simp [hk, show k < 32 by omega]
    · simp [hk]
  have hflags : (perm ||| pteP).toNat < 2 ^ 12 := by
    rw [BitVec.toNat_or]
    exact Nat.or_lt_two_pow hperm (by decide)
  have hlow : (page2pa pp ||| perm ||| pteP) &&& 0xfff = perm ||| pteP := by
    rw [BitVec.or_assoc]
    apply BitVec.eq_of_getLsbD_eq
    intro k _
    rw [BitVec.getLsbD_and, BitVec.getLsbD_or, hmask]
    by_cases hk : k < 12
    · rw [getLsbD_page2pa pp hk]
      simp [hk]
    · have hhigh : (perm ||| pteP).getLsbD k = false :=
        Nat.testBit_lt_two_pow (hflags.trans_le (Nat.pow_le_pow_right (by decide) (by omega)))
      rw [hhigh]
      simp [hk]
  unfold mapping
  rw [if_pos (has_entry_P pp perm), pgnum_entry hpp hperm, hlow]

lemma mapsOf_setPage [DecidableEq ι] {dirs : ι → Option ℕ} {mem mem' : ℕ → ℕ → Word} {i : ι}
    {n : PageNo} {w : Word} (h : spaces dirs mem' = setPage (spaces dirs mem) i n w) :
    mapsOf dirs mem' = (mapsOf dirs mem).set i n (mapping w) := by
  funext j k
  unfold mapsOf PageMap.set
  rw [h]
  by_cases hj : j = i
  · subst hj
    by_cases hk : k = n
    · subst hk
      simp [setPage_apply]
    · simp [setPage_apply, hk]
  · simp [setPage_apply, hj]

lemma mapsOf_congr {dirs : ι → Option ℕ} {mem mem' : ℕ → ℕ → Word}
    (h : spaces dirs mem' = spaces dirs mem) : mapsOf dirs mem' = mapsOf dirs mem := by
  unfold mapsOf
  rw [h]

/-- Removing what is not there. -/
lemma PageMap.set_none [DecidableEq ι] {M : PageMap ι} {i : ι} {n : PageNo} (h : M i n = none) :
    M.set i n none = M := by
  unfold PageMap.set
  rw [← h, Function.update_eq_self, Function.update_eq_self]

end Maps

variable {ι : Type} [Fintype ι] [DecidableEq ι] {B : Boot} {dirs : ι → Option ℕ} {s t : Pmap}
  {i : ι} {n : PageNo} {d : ℕ} {hand : Finset ℕ} {call : PageCall ι}
  {h : List (Move Pmap (PageCall ι))}

lemma pageNo_pageAddr (n : PageNo) (hva : pageAddr n < utop) : pageNo (pageAddr n) hva = n :=
  pageNo_pgaddr hva

lemma pageAddr_lt (n : PageNo) : pageAddr n < utop := pgaddr_lt_utop n.1.isLt n.2.isLt

lemma pdx_pageAddr (n : PageNo) : pdx (pageAddr n) = n.1 :=
  congrArg (fun m : PageNo => m.1.val) (pageNo_pageAddr n (pageAddr_lt n))

lemma ptx_pageAddr (n : PageNo) : ptx (pageAddr n) = n.2 :=
  congrArg (fun m : PageNo => m.2.val) (pageNo_pageAddr n (pageAddr_lt n))

/-! ### One call -/

omit [DecidableEq ι] in
/-- `page_lookup` answers with a page wherever there is a page table. -/
lemma pageLookup_found (hs : PmapIn B dirs 0 hand s) (hd : dirs i = some d) (n : PageNo) :
    Sat (pageLookup (some d) (pageAddr n)) s
      (fun r t => t = s ∧ r = (tableAt target dirs s.mem i n.1).map
        (fun tb => (pgnum (spaces dirs s.mem i n), ⟨tb, n.2⟩)))
      (fun _ _ => False) := by
  have hva := pageAddr_lt n
  have hn := pageNo_pageAddr n hva
  have hrule : Sat (pageLookup (some d) (pageAddr n)) s _ _ := pageLookup_sat hd
    (fun tb htb => hs.target_lt (r := .pde i (pageNo (pageAddr n) hva).1) htb)
    (hs.pgnum_lt i (pageNo (pageAddr n) hva))
  rw [pdx_pageAddr, ptx_pageAddr] at hrule
  exact hrule

omit [Fintype ι] [DecidableEq ι] in
/-- Where something is mapped there is a page table. -/
lemma table_of_mapped {v : ℕ × Word} (hv : mapsOf dirs s.mem i n = some v) :
    ∃ tb, tableAt target dirs s.mem i n.1 = some tb := by
  cases htb : tableAt target dirs s.mem i n.1 with
  | some tb => exact ⟨tb, rfl⟩
  | none =>
    have h0 : spaces dirs s.mem i n = 0 := entryAt_of_none htb
    unfold mapsOf at hv
    rw [h0, mapping_zero] at hv
    cases hv

lemma lookup_behaves (hs : PmapIn B dirs 0 hand s) (hd : dirs i = some d)
    (hset : Settled dirs s i n) :
    Sat (pageLookup (some d) (pageAddr n)) s
      (fun r t => Answers dirs s t (.lookup i n) (.found r)) (fun _ _ => False) := by
  refine (pageLookup_found hs hd n).mono ?_ (fun _ _ h => h)
  rintro r t ⟨rfl, rfl⟩
  refine ⟨rfl, ?_, ?_⟩
  · rw [Option.map_eq_none_iff]
    constructor
    · intro hnone
      by_contra hne
      obtain ⟨v, hv⟩ := Option.ne_none_iff_exists'.mp hne
      obtain ⟨tb, htb⟩ := table_of_mapped hv
      rw [hnone] at htb
      cases htb
    · exact fun hnone => hset.resolve_left (fun hne => hne hnone)
  · intro pp q hq
    obtain ⟨tb, htb, heq⟩ := Option.map_eq_some_iff.mp hq
    obtain ⟨rfl, rfl⟩ := Prod.mk.inj heq
    refine ⟨?_, rfl, htb⟩
    have hne : mapsOf dirs t.mem i n ≠ none := by
      refine hset.resolve_right (fun hnone => ?_)
      rw [hnone] at htb
      cases htb
    unfold mapsOf mapping at hne ⊢
    split
    · rfl
    · rename_i hP
      exact absurd (if_neg hP) hne

omit [DecidableEq ι] in
/-- Without a page table `page_remove` does nothing. -/
lemma pageRemove_noTable (hs : PmapIn B dirs 0 hand s) (hd : dirs i = some d)
    (htb : tableAt target dirs s.mem i n.1 = none) :
    Sat (pageRemove (some d) (pageAddr n)) s (fun _ t => t = s) (fun _ _ => False) := by
  unfold pageRemove
  rw [sat_bind]
  refine (pageLookup_found hs hd n).mono ?_ (fun _ _ h => h)
  rintro r t ⟨rfl, rfl⟩
  rw [htb]
  exact sat_pure.mpr rfl

lemma remove_behaves (hs : PmapIn B dirs 0 hand s) (hd : dirs i = some d)
    (hset : Settled dirs s i n) :
    Sat (pageRemove (some d) (pageAddr n)) s
      (fun _ t => PmapIn B dirs 0 hand t ∧ Answers dirs s t (.remove i n) .none)
      (fun _ _ => False) := by
  by_cases hmap : mapsOf dirs s.mem i n = none
  · have htb := hset.resolve_left (fun hne => hne hmap)
    refine (pageRemove_noTable hs hd htb).mono ?_ (fun _ _ h => h)
    rintro - t rfl
    exact ⟨hs, (PageMap.set_none hmap).symm, fun _ => rfl⟩
  · obtain ⟨v, hv⟩ := Option.ne_none_iff_exists'.mp hmap
    have hf : target (spaces dirs s.mem i (pageNo (pageAddr n) (pageAddr_lt n))) = some v.1 := by
      rw [pageNo_pageAddr, ← mapping_fst]
      exact congrArg (Option.map Prod.fst) hv
    refine (pageRemove_present hs hd (pageAddr_lt n) hf).mono ?_ (fun _ _ h => h)
    rintro - t ⟨ht, hS, -⟩
    rw [pageNo_pageAddr] at hS
    refine ⟨ht, ?_, fun hnone => absurd hnone hmap⟩
    rw [mapsOf_setPage hS, mapping_zero]

lemma insert_behaves {pp : ℕ} {perm : Word} (hs : PmapIn B dirs 0 hand s) (hd : dirs i = some d)
    (hpp : Usable B dirs s pp) (hperm : perm.toNat < 4096)
    (hg : s.ppRef pp ≠ 65535 ∨ (mapsOf dirs s.mem i n).map Prod.fst = some pp) :
    Sat (pageInsert (some d) pp (pageAddr n) perm) s
      (fun r t => InOrder B dirs t ∧
        Answers dirs s t (.insert i pp n perm) (.code r)) (fun _ _ => False) := by
  have hheld : pp ∈ hand ∨ ∃ r, pointers dirs s.mem r = some pp := by
    obtain ⟨l, hlink, -, hl, -⟩ := hs.alloc.list
    by_contra hno
    have hhand : pp ∉ hand := fun hc => hno (Or.inl hc)
    have hptr : refs (pointers dirs s.mem) pp = 0 :=
      refs_eq_zero_iff.mpr (fun r hr => hno (Or.inr ⟨r, hr⟩))
    exact hpp.taken l hlink ((hl pp).mpr ⟨hpp.managed, by rw [Pi.add_apply, hptr]; rfl, hhand⟩)
  have hov : refs (pointers dirs s.mem) pp + 1 < 65536 ∨
      target (spaces dirs s.mem i (pageNo (pageAddr n) (pageAddr_lt n))) = some pp := by
    rcases hg with hne | hmap
    · left
      have hcount := hs.alloc.count pp hpp.managed
      have hb := hs.bound pp
      rw [Pi.add_apply, Pi.zero_apply, Nat.add_zero] at hcount
      by_contra hge
      apply hne
      rw [hcount, show refs (pointers dirs s.mem) pp = 65535 by omega]
      rfl
    · right
      rw [pageNo_pageAddr, ← mapping_fst]
      exact hmap
  have hlt : pp < 2 ^ 20 := Nat.lt_trans (B.freeList_lt hpp.managed) B.npages_lt
  refine (pageInsert_sat hs hd (pageAddr_lt n) hpp.managed hheld hpp.leaf rfl hov hperm).mono ?_
    (fun _ _ h => h)
  rintro r t (⟨rfl, -, -, rfl⟩ | ⟨rfl, ht, hS⟩)
  · exact ⟨⟨hand, hs⟩, Or.inr ⟨rfl, rfl⟩⟩
  · rw [pageNo_pageAddr] at hS
    refine ⟨⟨_, ht⟩, Or.inl ⟨rfl, ?_⟩⟩
    rw [mapsOf_setPage hS, mapping_entry hlt hperm]

lemma walk_behaves (hs : PmapIn B dirs 0 hand s) (hd : dirs i = some d) (create : Bool) :
    Sat (pgdirWalk (some d) (pageAddr n) create) s
      (fun r t => InOrder B dirs t ∧ Answers dirs s t (.walk i n create) (.pte r))
      (fun _ _ => False) := by
  cases create with
  | false =>
    have hlt : ∀ tb, tableAt target dirs s.mem i (pdx (pageAddr n)) = some tb → tb < s.npages := by
      rw [pdx_pageAddr]
      exact fun tb htb => hs.target_lt (r := .pde i n.1) htb
    refine (pgdirWalk_lookup hd hlt).mono ?_ (fun _ _ h => h)
    rintro r t ⟨rfl, rfl⟩
    refine ⟨⟨hand, hs⟩, rfl, fun q hq => ?_⟩
    obtain ⟨tb, htb, rfl⟩ := Option.map_eq_some_iff.mp hq
    rw [pdx_pageAddr] at htb
    exact ⟨ptx_pageAddr n, htb⟩
  | true =>
    refine (pgdirWalk_create hs hd (pageAddr_lt n)).mono ?_ (fun _ _ h => h)
    rintro (_ | q) t ht
    · obtain ⟨-, -, rfl⟩ := ht
      exact ⟨⟨hand, hs⟩, rfl, fun q hq => by cases hq⟩
    · obtain ⟨hok, hS, -, tb, htb, rfl⟩ := ht
      refine ⟨⟨hand, hok⟩, mapsOf_congr hS, fun q hq => ?_⟩
      obtain rfl := Option.some.inj hq
      rw [pdx_pageAddr] at htb
      exact ⟨ptx_pageAddr n, htb⟩

/-- A call that meets the condition returns, answers as a map does and keeps the tables in
order. -/
lemma call_behaves (hs : InOrder B dirs s) (ha : Admissible B dirs s call)
    (hg : PageGuard dirs s call) :
    Sat (call.run dirs) s (fun r t => InOrder B dirs t ∧ Answers dirs s t call r)
      (fun _ _ => False) := by
  obtain ⟨hand, hs⟩ := hs
  cases call with
  | alloc =>
    show Sat (PageResult.page <$> pageAlloc true) s _ _
    rw [sat_map]
    refine (pageAlloc_hand hs).mono ?_ (fun _ _ h => h)
    rintro (_ | q) t ht
    · obtain ⟨-, rfl⟩ := ht
      exact ⟨⟨hand, hs⟩, rfl⟩
    · obtain ⟨-, -, -, -, -, hok, -, hS⟩ := ht
      exact ⟨⟨_, hok⟩, mapsOf_congr hS⟩
  | walk i n create =>
    obtain ⟨d, hd⟩ := Option.ne_none_iff_exists'.mp ha
    show Sat (PageResult.pte <$> pgdirWalk (dirs i) (pageAddr n) create) s _ _
    rw [sat_map, hd]
    exact walk_behaves hs hd create
  | insert i pp n perm =>
    obtain ⟨hdir, hpp, hperm⟩ := ha
    obtain ⟨d, hd⟩ := Option.ne_none_iff_exists'.mp hdir
    show Sat (PageResult.code <$> pageInsert (dirs i) pp (pageAddr n) perm) s _ _
    rw [sat_map, hd]
    exact insert_behaves hs hd hpp hperm hg
  | lookup i n =>
    obtain ⟨d, hd⟩ := Option.ne_none_iff_exists'.mp ha
    show Sat (PageResult.found <$> pageLookup (dirs i) (pageAddr n)) s _ _
    rw [sat_map, hd]
    refine (lookup_behaves hs hd hg).mono ?_ (fun _ _ h => h)
    intro r t ht
    obtain rfl : t = s := ht.1
    exact ⟨⟨hand, hs⟩, ht⟩
  | remove i n =>
    obtain ⟨d, hd⟩ := Option.ne_none_iff_exists'.mp ha
    show Sat ((fun _ => PageResult.none) <$> pageRemove (dirs i) (pageAddr n)) s _ _
    rw [sat_map, hd]
    refine (remove_behaves hs hd hg).mono ?_ (fun _ _ h => h)
    exact fun _ t ht => ⟨⟨hand, ht.1⟩, ht.2⟩

/-! ### Where the entry is absent -/

omit [Fintype ι] [DecidableEq ι] in
lemma none_of_not_settled (hset : ¬ Settled dirs s i n) : mapsOf dirs s.mem i n = none := by
  by_contra hne
  exact hset (Or.inl hne)

omit [Fintype ι] [DecidableEq ι] in
lemma table_of_not_settled (hset : ¬ Settled dirs s i n) :
    ∃ tb, tableAt target dirs s.mem i n.1 = some tb := by
  by_contra hno
  exact hset (Or.inr (Option.eq_none_iff_forall_ne_some.mpr (fun tb htb => hno ⟨tb, htb⟩)))

lemma pageDecref_ref (s : Pmap) (p : ℕ) :
    Sat (pageDecref p) s (fun _ t => t.ppRef p = s.ppRef p - 1 ∧ t.mem = s.mem)
      (fun _ _ => True) := by
  unfold pageDecref pageFree
  simp only [sat_bind, sat_modify, sat_get, sat_ite, sat_throw, sat_pure, Function.update_self,
    implies_true, and_self]

omit [DecidableEq ι] in
/-- `page_remove` takes a reference from page 0 where there is a table but no entry. -/
lemma pageRemove_frameZero (hs : PmapIn B dirs 0 hand s) (hd : dirs i = some d)
    (hset : ¬ Settled dirs s i n) :
    Sat (pageRemove (some d) (pageAddr n)) s (fun _ t => t.ppRef 0 = s.ppRef 0 - 1)
      (fun _ _ => True) := by
  have hnone := none_of_not_settled hset
  obtain ⟨tb, htb⟩ := table_of_not_settled hset
  have hent : spaces dirs s.mem i n = 0 := by
    rcases hs.tables.pte i n.1 n.2 with h0 | hP
    · exact h0
    · have hsome : target (spaces dirs s.mem i n) = _ := target_of_present hP
      rw [mapping_eq_none hnone] at hsome
      cases hsome
  have hw : s.mem tb n.2 = 0 := (entryAt_of_table htb).symm.trans hent
  unfold pageRemove
  rw [sat_bind]
  refine (pageLookup_found hs hd n).mono ?_ (fun _ _ h => h.elim)
  rintro r t ⟨rfl, rfl⟩
  rw [htb, hent, show pgnum 0 = 0 by decide, Option.map_some]
  simp only [sat_bind]
  refine (pageDecref_ref t 0).mono ?_ (fun _ _ h => h)
  rintro - u ⟨href, hmem⟩
  have hw' : u.mem tb n.2 = 0 := hmem ▸ hw
  simp only [readPte, sat_bind, sat_get, sat_pure, hw', ne_eq, not_true_eq_false, if_false]
  exact href

/-- Where `page_lookup` and `page_remove` answer as a map does, the entry is present or has no
page table. -/
lemma settled_of_behaves (hs : InOrder B dirs s) (ha : Admissible B dirs s call)
    (hins : ∀ i pp n perm, call ≠ .insert i pp n perm) (hb : Behaves dirs s call) :
    PageGuard dirs s call := by
  obtain ⟨hand, hs⟩ := hs
  obtain ⟨r, t, hrun, hans⟩ := hb
  cases call with
  | alloc => trivial
  | walk => trivial
  | insert i pp n perm => exact absurd rfl (hins i pp n perm)
  | lookup i n =>
    obtain ⟨d, hd⟩ := Option.ne_none_iff_exists'.mp ha
    by_contra hset
    have hfound : Sat ((PageCall.lookup i n).run dirs) s
        (fun r _ => ∃ tb, r = .found (some (pgnum (spaces dirs s.mem i n), ⟨tb, n.2⟩)))
        (fun _ _ => False) := by
      show Sat (PageResult.found <$> pageLookup (dirs i) (pageAddr n)) s _ _
      rw [sat_map, hd]
      refine (pageLookup_found hs hd n).mono ?_ (fun _ _ h => h)
      rintro r t ⟨rfl, rfl⟩
      obtain ⟨tb, htb⟩ := table_of_not_settled hset
      exact ⟨tb, by rw [htb, Option.map_some]⟩
    obtain ⟨tb, rfl⟩ := hfound.of_ok hrun
    have hnone := hans.2.1.mpr (none_of_not_settled hset)
    cases hnone
  | remove i n =>
    obtain ⟨d, hd⟩ := Option.ne_none_iff_exists'.mp ha
    by_contra hset
    have hdropped : Sat ((PageCall.remove i n).run dirs) s
        (fun _ t => t.ppRef 0 = s.ppRef 0 - 1) (fun _ _ => True) := by
      show Sat ((fun _ => PageResult.none) <$> pageRemove (dirs i) (pageAddr n)) s _ _
      rw [sat_map, hd]
      exact pageRemove_frameZero hs hd hset
    have href := hdropped.of_ok hrun
    rw [hans.2 (none_of_not_settled hset)] at href
    bv_omega

/-- In every run whose calls meet the condition, every call that meets it answers as a finite
map does, and a lookup, a walk or a removal that does not meet it does not. -/
theorem pageMap_of_run (hr : Run (PmapOk B dirs) (PageStep B dirs) h s)
    (hg : ∀ m ∈ h, PageGuard dirs m.pre m.label) (ha : Admissible B dirs s call) :
    (PageGuard dirs s call → Behaves dirs s call) ∧
      ((∀ i pp n perm, call ≠ .insert i pp n perm) → Behaves dirs s call →
        PageGuard dirs s call) := by
  have hs : InOrder B dirs s := by
    apply hr.induct hg (fun _ s => InOrder B dirs s)
    · exact fun s hs => ⟨∅, hs⟩
    · rintro h s call t hs hg ⟨ha, r, hrun⟩
      exact ((call_behaves hs ha hg).of_ok hrun).1
  refine ⟨fun hguard => ?_, settled_of_behaves hs ha⟩
  obtain ⟨r, t, hrun, -, hans⟩ := (call_behaves hs ha hguard).exists_ok
  exact ⟨r, t, hrun, hans⟩

/-- The stack page of the first environment, and a page without mapping in the same 4 MB. -/
def stackPage : PageNo := (⟨954, by decide⟩, ⟨1021, by decide⟩)

def barePage : PageNo := (⟨954, by decide⟩, ⟨0, by decide⟩)

lemma smallBooted_inOrder : PmapOk smallBoot (dirsOf smallBooted) smallBooted.pm :=
  smallBooted_booted.ok.mem

lemma smallBooted_admissible (s : Pmap) (n : PageNo) :
    Admissible smallBoot (dirsOf smallBooted) s (.lookup 0 n) := by
  show dirsOf smallBooted 0 ≠ none
  decide +kernel

omit [DecidableEq ι] in
/-- A page that is mapped may be mapped again. -/
lemma pageStep_insert {pp : ℕ} {perm r : Word} {t : Pmap} {k : PageNo} (hs : PmapOk B dirs s)
    (hd : dirs i ≠ none) (hptr : pointers dirs s.mem (.pte i n.1 n.2) = some pp) (hperm : perm.toNat < 4096)
    (hrun : pageInsert (dirs i) pp (pageAddr k) perm s = .ok r t) :
    PageStep B dirs s (.insert i pp k perm) t := by
  have hpp : Usable B dirs s pp := by
    refine ⟨hs.tables.managed _ _ hptr, fun l hlink hl => ?_, hs.tables.leaf hptr⟩
    obtain ⟨l', hlink', -, hl', -⟩ := hs.alloc.list
    rw [hlink.unique hlink', hl', Pi.add_apply, Pi.zero_apply, Nat.add_zero, refs_eq_zero_iff] at hl
    exact hl.2.1 _ hptr
  refine ⟨⟨hd, hpp, hperm⟩, .code r, ?_⟩
  show EStateM.map PageResult.code _ _ = _
  unfold EStateM.map
  rw [hrun]

/-- The stack page is mapped a second time. -/
def smallShared : Pmap := after (pageInsert (dirsOf smallBooted 0) 158 (pageAddr barePage) 7) smallBooted.pm

/-- The page is inserted, and the lookup finds it. -/
theorem pageMap_of_run_shared : ∃ h, Run (PmapOk smallBoot (dirsOf smallBooted))
      (PageStep smallBoot (dirsOf smallBooted)) h smallShared ∧
    mapsOf (dirsOf smallBooted) smallShared.mem 0 barePage = some (158, 7) ∧
    Behaves (dirsOf smallBooted) smallShared (.lookup 0 barePage) := by
  have hadm := smallBooted_admissible smallShared barePage
  have hstep : PageStep smallBoot (dirsOf smallBooted) smallBooted.pm (.insert 0 158 barePage 7) smallShared :=
    pageStep_insert (n := stackPage) smallBooted_inOrder hadm (by decide +kernel) (by decide)
      (eq_ok_of_resultOf (a := 0) (by decide +kernel))
  have hr := Run.next (.start smallBooted_inOrder) hstep
  have hmap : mapsOf (dirsOf smallBooted) smallShared.mem 0 barePage = some (158, 7) := by decide +kernel
  refine ⟨_, hr, hmap, (pageMap_of_run hr (fun m hm => ?_) hadm).1 (Or.inl ?_)⟩
  · obtain rfl := List.mem_singleton.mp hm
    left
    decide +kernel
  · rw [hmap]
    exact Option.some_ne_none _

/-- `page_lookup` finds page 0 where nothing is mapped. -/
theorem pageMap_fails : ∃ h s call,
    Run (PmapOk smallBoot (dirsOf smallBooted)) (PageStep smallBoot (dirsOf smallBooted)) h s ∧
    Admissible smallBoot (dirsOf smallBooted) s call ∧ ¬ Behaves (dirsOf smallBooted) s call := by
  have hadm := smallBooted_admissible smallBooted.pm barePage
  refine ⟨[], smallBooted.pm, .lookup 0 barePage, .start smallBooted_inOrder, hadm, ?_⟩
  intro hb
  have hset := settled_of_behaves ⟨∅, smallBooted_inOrder⟩ hadm (fun _ _ _ _ h => by cases h) hb
  have hnone : mapsOf (dirsOf smallBooted) smallBooted.pm.mem 0 barePage = none := by
    decide +kernel
  have htb : tableAt target (dirsOf smallBooted) smallBooted.pm.mem 0 barePage.1 ≠ none := by
    decide +kernel
  exact hset.elim (fun hne => hne hnone) htb

end SistemasOperativos.Kern
