import SistemasOperativos.Kern.Tables

/-!
# Rules of the page operations

`PmapIn B dirs ext hand s`: the tables are well formed and the books of the allocator count
the pointers of the tables and the references `ext` that kernel code holds. Each operation of
`kern/pmap.c` on a user page gets one rule: what it changes in the address spaces, and that it
keeps this invariant.
-/

namespace SistemasOperativos.Kern

open Library

section Lookup

variable {ι : Type} {dirs : ι → Option ℕ} {s : Pmap} {i : ι} {d : ℕ} {va : Word}

lemma target_of_present {w : Word} (h : has w pteP = true) : target w = some (pgnum w) := by
  unfold target
  rw [if_pos h]

lemma pgdirWalk_lookup (hd : dirs i = some d)
    (hlt : ∀ t, tableAt target dirs s.mem i (pdx va) = some t → t < s.npages) :
    Sat (pgdirWalk (some d) va false) s
      (fun r t => t = s ∧ r = (tableAt target dirs s.mem i (pdx va)).map (fun t => ⟨t, ptx va⟩))
      (fun _ _ => False) := by
  rw [tableAt_of_dir hd] at hlt ⊢
  unfold pgdirWalk readPte kaddr
  simp only [sat_bind, sat_get, sat_pure]
  cases hP : has (s.mem d (pdx va)) pteP
  · simp [target, hP]
  · have htgt := target_of_present hP
    have hlt' := Nat.not_le.mpr (hlt _ htgt)
    simp only [Bool.not_true, Bool.false_eq_true, if_false, sat_bind, sat_get, sat_pure,
      pgnum_pteAddr, ge_iff_le, if_neg hlt', htgt, Option.map_some, and_self]

/-- `page_lookup` finds whatever the entry holds as soon as there is a table, also where
nothing is mapped. -/
lemma pageLookup_sat (hd : dirs i = some d)
    (hlt : ∀ t, tableAt target dirs s.mem i (pdx va) = some t → t < s.npages)
    (hpg : pgnum (entry dirs s.mem i (pdx va) (ptx va)) < s.npages) :
    Sat (pageLookup (some d) va) s
      (fun r t => t = s ∧ r = (tableAt target dirs s.mem i (pdx va)).map
        (fun t => (pgnum (entry dirs s.mem i (pdx va) (ptx va)), ⟨t, ptx va⟩)))
      (fun _ _ => False) := by
  unfold pageLookup
  rw [sat_bind]
  refine (pgdirWalk_lookup hd hlt).mono ?_ (fun _ _ h => h)
  rintro r t ⟨rfl, rfl⟩
  cases ht : tableAt target dirs t.mem i (pdx va) with
  | none => simp
  | some tb =>
    have he : entry dirs t.mem i (pdx va) (ptx va) = t.mem tb (ptx va) := entryAt_of_table ht
    rw [he] at hpg ⊢
    have hor : t.mem tb (ptx va) ||| pteP ≠ 0 := by
      intro h
      have hP := has_or (t.mem tb (ptx va)) pteP pteP
      rw [h, show has pteP pteP = true by decide, Bool.or_true] at hP
      exact absurd hP (by decide)
    have hlt' := Nat.not_le.mpr hpg
    simp only [Option.map_some, readPte, sat_bind, sat_get, sat_pure, if_neg hor, pa2page,
      pgnum_pteAddr, ge_iff_le, if_neg hlt', and_self]

end Lookup

/-- The entry `create_page_table` writes. -/
def tableEntry (page : ℕ) : Word := page2pa page ||| pteP ||| pteW ||| pteU

lemma tableEntry_eq (page : ℕ) : tableEntry page = page2pa page ||| (pteW ||| pteU) ||| pteP := by
  unfold tableEntry
  rw [BitVec.or_assoc (page2pa page ||| pteP), BitVec.or_assoc, BitVec.or_comm pteP,
    ← BitVec.or_assoc]

lemma target_tableEntry {page : ℕ} (h : page < 2 ^ 20) : target (tableEntry page) = some page := by
  rw [tableEntry_eq]
  exact target_entry h (by decide)

lemma has_tableEntry (page : ℕ) :
    has (tableEntry page) pteW = true ∧ has (tableEntry page) pteU = true := by
  rw [tableEntry_eq, has_entry_W, has_entry_U]
  decide

section Counting

variable {cnt ext : ℕ → ℕ} {p : ℕ}

lemma update_succ_add : Function.update (cnt + ext) p ((cnt + ext) p + 1) =
    Function.update cnt p (cnt p + 1) + ext := by
  funext f
  by_cases hf : f = p
  · subst hf
    simp only [Function.update_self, Pi.add_apply]
    omega
  · simp only [Function.update_of_ne hf, Pi.add_apply]

lemma update_succ_add' : Function.update (cnt + ext) p ((cnt + ext) p + 1) =
    cnt + Function.update ext p (ext p + 1) := by
  rw [add_comm cnt ext, add_comm cnt (Function.update _ _ _)]
  exact update_succ_add

lemma update_pred_add (h : cnt p ≠ 0) : Function.update (cnt + ext) p ((cnt + ext) p - 1) =
    Function.update cnt p (cnt p - 1) + ext := by
  funext f
  by_cases hf : f = p
  · subst hf
    simp only [Function.update_self, Pi.add_apply]
    omega
  · simp only [Function.update_of_ne hf, Pi.add_apply]

end Counting

variable {ι : Type} [Fintype ι]

structure PmapIn (B : Boot) (dirs : ι → Option ℕ) (ext : ℕ → ℕ) (hand : Finset ℕ) (s : Pmap) :
    Prop where
  npages : s.npages = B.npages
  kernPgdir : s.kernPgdir = B.kernPgdir
  tables : TablesOk B dirs s.mem
  alloc : AllocOk B (refs (pointers dirs s.mem) + ext) hand s
  bound : ∀ f, refs (pointers dirs s.mem) f < 65536
  idle : ∀ f ∈ hand, refs (pointers dirs s.mem) f = 0

/-- Between two kernel entries nothing is held. -/
abbrev PmapOk (B : Boot) (dirs : ι → Option ℕ) (s : Pmap) : Prop := PmapIn B dirs 0 ∅ s

variable {B : Boot} {dirs : ι → Option ℕ} {ext : ℕ → ℕ} {hand : Finset ℕ} {s : Pmap} {i : ι}
  {d p : ℕ} {va : Word}

namespace PmapIn

lemma target_lt (h : PmapIn B dirs ext hand s) {r : PageRef ι} {f : ℕ}
    (hr : pointers dirs s.mem r = some f) : f < s.npages := by
  rw [h.npages]
  exact B.freeList_lt (h.tables.managed r f hr)

lemma npages_pos (h : PmapIn B dirs ext hand s) : 0 < s.npages := by
  rw [h.npages]
  exact B.npages_pos

/-- The frame an entry below `UTOP` points to exists; that of a null entry is frame 0. -/
lemma pgnum_lt (h : PmapIn B dirs ext hand s) (i : ι) (n : PageNo) :
    pgnum (spaces dirs s.mem i n) < s.npages := by
  rcases h.tables.pte i n.1 n.2 with h0 | hP
  · have h0' : spaces dirs s.mem i n = 0 := h0
    rw [h0']
    exact h.npages_pos
  · refine h.target_lt (r := .pte i n.1 n.2) ?_
    rw [pointers_pte]
    exact target_of_present hP

/-- The frame of an entry below `UTOP` is frame 0 or has this reference. -/
lemma zero_or_held (h : PmapIn B dirs ext hand s) (i : ι) (n : PageNo) :
    pgnum (spaces dirs s.mem i n) = 0 ∨
      pointers dirs s.mem (.pte i n.1 n.2) = some (pgnum (spaces dirs s.mem i n)) := by
  rcases h.tables.pte i n.1 n.2 with h0 | hP
  · left
    rw [show spaces dirs s.mem i n = 0 from h0]
    decide
  · right
    rw [pointers_pte]
    exact target_of_present hP

lemma link_eq_none (h : PmapIn B dirs ext hand s)
    (hp : p = 0 ∨ ∃ r, pointers dirs s.mem r = some p) : s.ppLink p = none := by
  rcases hp with rfl | hr
  · obtain ⟨l, -, -, hl, hno⟩ := h.alloc.list
    exact hno 0 (fun hmem => B.freeList_ne_zero ((hl 0).mp hmem).1 rfl)
  · refine h.alloc.link_eq_none (Or.inl ?_)
    have hpos := refs_pos_iff.mpr hr
    rw [Pi.add_apply]
    omega

/-- A page taken from the free list has no pointer. -/
lemma fresh {q : ℕ} (hq : (refs (pointers dirs s.mem) + ext) q = 0) (r : PageRef ι) :
    pointers dirs s.mem r ≠ some q := by
  rw [Pi.add_apply] at hq
  have h0 : refs (pointers dirs s.mem) q = 0 := by omega
  exact refs_eq_zero_iff.mp h0 r

end PmapIn

variable [DecidableEq ι]

/-- A page table was made of a fresh page, or nothing changed. -/
def Grown (ptr ptr' : PageRef ι → Option ℕ) (hand : Finset ℕ) : Prop :=
  ptr' = ptr ∨ ∃ r q, q ∉ hand ∧ ptr r = none ∧ (∀ r', ptr r' ≠ some q) ∧
    ptr' = Function.update ptr r (some q)

lemma createPageTable_sat (h : PmapIn B dirs ext hand s) (hd : dirs i = some d)
    {x : Fin pdxUtop} (ht : tableAt target dirs s.mem i x = none) :
    Sat (createPageTable ⟨d, x⟩) s
      (fun r t => match r with
        | false => s.pageFreeList = none ∧ t = s
        | true => PmapIn B dirs ext hand t ∧ spaces dirs t.mem = spaces dirs s.mem ∧
            Grown (pointers dirs s.mem) (pointers dirs t.mem) hand ∧
            ∃ tb, tb < t.npages ∧ t.mem d x = tableEntry tb)
      (fun _ _ => False) := by
  unfold createPageTable
  rw [sat_bind]
  refine (pageAlloc_sat h.alloc h.npages).mono ?_ (fun _ _ h => h)
  rintro (_ | q) t
  · rintro ⟨hnone, rfl⟩
    exact sat_pure.mpr ⟨hnone, rfl⟩
  · rintro ⟨-, rfl, ⟨hqm, hq0, hqh⟩, hok⟩
    have hfresh := PmapIn.fresh hq0
    have hq20 : q < 2 ^ 20 := Nat.lt_trans (B.freeList_lt hqm) B.npages_lt
    obtain ⟨hT1, hp1, hS1⟩ := h.tables.setFrame hqm (fun r _ => hfresh r) (fun _ => 0)
    have hold : ∀ y : Fin nptentries,
        entry dirs (Function.update s.mem q fun _ => 0) i x y = 0 := by
      intro y
      have he := congrFun (congrFun hS1 i) (x, y)
      have h0 : spaces dirs s.mem i (x, y) = 0 := entryAt_of_none ht
      exact he.trans h0
    obtain ⟨hT2, hp2, hS2⟩ := hT1.setTable hd hold (w := tableEntry q) (Or.inr ⟨q,
      target_tableEntry hq20, (has_tableEntry q).1, (has_tableEntry q).2, hqm,
      fun r => by rw [hp1]; exact hfresh r, fun y => by rw [Function.update_self]⟩)
    rw [hp1, target_tableEntry hq20] at hp2
    have hnone : pointers dirs s.mem (.pde i x) = none := ht
    have hcnt := refs_update_some hnone q
    have hinc := hok.inc hqm (Or.inr (Finset.mem_insert_self q hand)) (by omega)
    rw [Finset.erase_insert hqh, update_succ_add, ← hcnt, ← hp2] at hinc
    have hbound : ∀ f, refs (pointers dirs
        (setWord (Function.update s.mem q fun _ => 0) d x (tableEntry q))) f < 65536 := by
      intro f
      have hb := h.bound f
      rw [Pi.add_apply] at hq0
      rw [hp2, hcnt, Function.update_apply]
      split
      · omega
      · exact hb
    simp only [sat_bind, incRef, writePte, sat_modify, sat_pure]
    refine ⟨⟨h.npages, h.kernPgdir, hT2, ?_, hbound, ?_⟩, hS2.trans hS1, ?_, q, ?_, ?_⟩
    · exact hinc.congr rfl rfl rfl
    · intro f hf
      have hfq : f ≠ q := fun e => hqh (e ▸ hf)
      have hidle := h.idle f hf
      rw [← Function.update_of_ne hfq _ (refs (pointers dirs s.mem)), ← hcnt, ← hp2] at hidle
      exact hidle
    · exact Or.inr ⟨.pde i x, q, hqh, hnone, hfresh, hp2⟩
    · exact h.npages ▸ B.freeList_lt hqm
    · exact (setWord_apply _ _ _ _ _ _).trans (if_pos ⟨rfl, rfl⟩)

omit [DecidableEq ι] in
/-- `page_alloc` hands out an unused page. -/
lemma pageAlloc_hand (h : PmapIn B dirs ext hand s) :
    Sat (pageAlloc true) s
      (fun r t => match r with
        | none => s.pageFreeList = none ∧ t = s
        | some q => s.pageFreeList = some q ∧ t = allocated s q ∧ q ∈ B.freeList ∧ q ∉ hand ∧
            (∀ r, pointers dirs s.mem r ≠ some q) ∧ PmapIn B dirs ext (insert q hand) t ∧
            pointers dirs t.mem = pointers dirs s.mem ∧ spaces dirs t.mem = spaces dirs s.mem)
      (fun _ _ => False) := by
  refine (pageAlloc_sat h.alloc h.npages).mono ?_ (fun _ _ h => h)
  rintro (_ | q) t
  · exact fun ht => ht
  · rintro ⟨hfl, rfl, ⟨hq, hq0, hqh⟩, hok⟩
    have hfresh := PmapIn.fresh hq0
    obtain ⟨hT, hp, hS⟩ := h.tables.setFrame hq (fun r _ => hfresh r) (fun _ => 0)
    refine ⟨hfl, rfl, hq, hqh, hfresh, ⟨h.npages, h.kernPgdir, hT, ?_, ?_, ?_⟩, hp, hS⟩
    · rw [← hp] at hok
      exact hok
    · intro f
      have hb := h.bound f
      rw [← hp] at hb
      exact hb
    · intro f hf
      show refs (pointers dirs (Function.update s.mem q fun _ => 0)) f = 0
      rw [hp]
      rcases Finset.mem_insert.mp hf with rfl | hf
      · rw [Pi.add_apply] at hq0
        omega
      · exact h.idle f hf

omit [Fintype ι] [DecidableEq ι] in
/-- Without a table and without a free page `page_insert` fails. -/
lemma pageInsert_noMem (hd : dirs i = some d) (ht : tableAt target dirs s.mem i (pdx va) = none)
    (hfl : s.pageFreeList = none) (p : ℕ) (perm : Word) :
    Sat (pageInsert (some d) p va perm) s (fun r t => r = -eNoMem ∧ t = s)
      (fun _ _ => False) := by
  have htab : tableAt target dirs s.mem i (pdx va) = target (s.mem d (pdx va)) :=
    tableAt_of_dir hd
  have hP : has (s.mem d (pdx va)) pteP = false := by
    rw [ht] at htab
    unfold target at htab
    split at htab
    · cases htab
    · rename_i hP
      exact Bool.eq_false_iff.mpr hP
  have halloc := (sat_of_ok (Q := fun r t => r = none ∧ t = s) (E := fun _ _ => False)
    (pageAlloc_none hfl)).mpr ⟨rfl, rfl⟩
  unfold pageInsert pgdirWalk readPte createPageTable
  simp only [sat_bind, sat_get, sat_pure, hP, Bool.not_false, if_true, Bool.not_true,
    Bool.false_eq_true, if_false]
  refine halloc.mono ?_ (fun _ _ h => h)
  rintro r t ⟨rfl, rfl⟩
  simp only [sat_pure, Bool.not_false, if_true]
  exact ⟨trivial, trivial⟩

lemma pgdirWalk_create (h : PmapIn B dirs ext hand s) (hd : dirs i = some d) (hva : va < utop) :
    Sat (pgdirWalk (some d) va true) s
      (fun r t => match r with
        | none => tableAt target dirs s.mem i (pdx va) = none ∧ s.pageFreeList = none ∧ t = s
        | some q => PmapIn B dirs ext hand t ∧ spaces dirs t.mem = spaces dirs s.mem ∧
            Grown (pointers dirs s.mem) (pointers dirs t.mem) hand ∧
            ∃ tb, tableAt target dirs t.mem i (pdx va) = some tb ∧ q = ⟨tb, ptx va⟩)
      (fun _ _ => False) := by
  have hx := pdx_lt_pdxUtop hva
  have htab : tableAt target dirs s.mem i (pdx va) = target (s.mem d (pdx va)) :=
    tableAt_of_dir hd
  unfold pgdirWalk readPte kaddr
  simp only [sat_bind, sat_get, sat_pure]
  cases hP : has (s.mem d (pdx va)) pteP
  · have hnone : tableAt target dirs s.mem i (pdx va) = none := by
      rw [htab]
      simp [target, hP]
    simp only [Bool.not_false, if_true, Bool.not_true, Bool.false_eq_true, if_false, sat_bind]
    refine (createPageTable_sat h hd (x := ⟨pdx va, hx⟩) hnone).mono ?_ (fun _ _ h => h)
    rintro (_ | _) t ht
    · obtain ⟨hfl, rfl⟩ := ht
      exact sat_pure.mpr ⟨hnone, hfl, rfl⟩
    · obtain ⟨hok, hS, hG, tb, htb, hmem⟩ := ht
      have hmem' : t.mem d (pdx va) = tableEntry tb := hmem
      have htb20 : tb < 2 ^ 20 := Nat.lt_trans (hok.npages ▸ htb) B.npages_lt
      have htgt := target_tableEntry htb20
      have hpg : pgnum (tableEntry tb) = tb := (target_eq_some htgt).2
      simp only [Bool.not_true, Bool.false_eq_true, if_false, sat_bind, sat_get, sat_pure, hmem',
        pgnum_pteAddr, hpg, ge_iff_le, if_neg (Nat.not_le.mpr htb)]
      refine ⟨hok, hS, hG, tb, ?_, rfl⟩
      rw [tableAt_of_dir hd, hmem', htgt]
  · have htgt := target_of_present hP
    have hlt := Nat.not_le.mpr (h.target_lt (r := .pde i ⟨pdx va, hx⟩) (htab.trans htgt))
    simp only [Bool.not_true, Bool.false_eq_true, if_false, sat_bind, sat_get, sat_pure,
      pgnum_pteAddr, ge_iff_le, if_neg hlt]
    exact ⟨h, trivial, Or.inl rfl, _, htab.trans htgt, rfl⟩

/-! ### Removing and inserting -/

/-- `page_remove` where a page is mapped. -/
lemma pageRemove_present (h : PmapIn B dirs ext hand s) (hd : dirs i = some d) (hva : va < utop)
    {f : ℕ} (hf : target (spaces dirs s.mem i (pageNo va hva)) = some f) :
    Sat (pageRemove (some d) va) s
      (fun _ t => PmapIn B dirs ext hand t ∧
        spaces dirs t.mem = setPage (spaces dirs s.mem) i (pageNo va hva) 0 ∧
        pointers dirs t.mem = Function.update (pointers dirs s.mem)
          (.pte i (pageNo va hva).1 (pageNo va hva).2) none ∧ t.ppRef 0 = s.ppRef 0)
      (fun _ _ => False) := by
  have hptr : pointers dirs s.mem (.pte i (pageNo va hva).1 (pageNo va hva).2) = some f := by
    rw [pointers_pte]
    exact hf
  have hfm := h.tables.managed _ f hptr
  have hrefs : refs (pointers dirs s.mem) f ≠ 0 :=
    Nat.pos_iff_ne_zero.mp (refs_pos_iff.mpr ⟨_, hptr⟩)
  have hfh : f ∉ hand := fun hmem => hrefs (h.idle f hmem)
  obtain ⟨tb, htb⟩ : ∃ tb, tableAt target dirs s.mem i (pdx va) = some tb := by
    cases htb : tableAt target dirs s.mem i (pdx va) with
    | some tb => exact ⟨tb, rfl⟩
    | none =>
      have h0 : spaces dirs s.mem i (pageNo va hva) = 0 := entryAt_of_none htb
      rw [h0, target_zero] at hf
      cases hf
  have hent : entry dirs s.mem i (pdx va) (ptx va) = s.mem tb (ptx va) := entryAt_of_table htb
  have hf' : target (s.mem tb (ptx va)) = some f := hent ▸ hf
  unfold pageRemove
  rw [sat_bind]
  refine (pageLookup_sat hd (fun t ht => h.target_lt (r := .pde i (pageNo va hva).1) ht)
    (h.pgnum_lt i (pageNo va hva))).mono ?_ (fun _ _ h => h)
  rintro r t ⟨rfl, rfl⟩
  rw [htb, hent, (target_eq_some hf').2, Option.map_some]
  simp only [sat_bind]
  refine (pageDecref_sat h.alloc hfm (by rw [Pi.add_apply]; omega) hfh).mono ?_ (fun _ _ h => h)
  rintro - u ⟨halloc, hmem, hn, hk, hrest⟩
  have hne : u.mem tb (ptx va) ≠ 0 := by
    rw [hmem]
    intro h0
    rw [h0, target_zero] at hf'
    cases hf'
  simp only [readPte, sat_bind, sat_get, sat_pure]
  rw [if_pos hne]
  simp only [writePte, sat_modify, hmem]
  obtain ⟨hT, hp, hS⟩ := h.tables.setEntry (x := (pageNo va hva).1) (y := (pageNo va hva).2) htb
    (w := 0) (Or.inl rfl)
  rw [target_zero] at hp
  have hcnt := refs_update_none hptr
  rw [← hp] at hcnt
  have hle : ∀ g, refs (pointers dirs (setWord t.mem tb (ptx va) 0)) g ≤
      refs (pointers dirs t.mem) g := by
    intro g
    show refs (pointers dirs (setWord t.mem tb (pageNo va hva).2 0)) g ≤ _
    rw [hcnt, Function.update_apply]
    split
    · rename_i hg
      rw [hg]
      omega
    · exact le_refl _
  have hzero : u.ppRef 0 = t.ppRef 0 := hrest 0 (B.freeList_ne_zero hfm).symm
  refine ⟨⟨hn.trans h.npages, hk.trans h.kernPgdir, hT, ?_, ?_, ?_⟩, hS, hp, hzero⟩
  · rw [update_pred_add hrefs, ← hcnt] at halloc
    exact halloc.congr rfl rfl rfl
  · exact fun g => Nat.lt_of_le_of_lt (hle g) (h.bound g)
  · exact fun g hg => Nat.le_zero.mp ((h.idle g hg) ▸ hle g)

omit [DecidableEq ι] in
/-- `page_remove` where there is a table but no page drops a reference to frame 0. -/
lemma pageRemove_absent (h : PmapIn B dirs ext hand s) (hd : dirs i = some d) (hva : va < utop)
    (h0 : spaces dirs s.mem i (pageNo va hva) = 0) :
    Sat (pageRemove (some d) va) s
      (fun _ t => (s.ppRef 0 ≠ 1 → PmapIn B dirs ext hand t) ∧ t.mem = s.mem) (fun _ _ => False) := by
  have hent : entry dirs s.mem i (pdx va) (ptx va) = 0 := h0
  unfold pageRemove
  rw [sat_bind]
  refine (pageLookup_sat hd (fun t ht => h.target_lt (r := .pde i (pageNo va hva).1) ht)
    (h.pgnum_lt i (pageNo va hva))).mono ?_ (fun _ _ h => h)
  rintro r t ⟨rfl, rfl⟩
  cases htb : tableAt target dirs t.mem i (pdx va) with
  | none => exact sat_pure.mpr ⟨fun _ => h, rfl⟩
  | some tb =>
    have hw : t.mem tb (ptx va) = 0 := (entryAt_of_table htb).symm.trans hent
    rw [hent, show pgnum 0 = 0 by decide, Option.map_some]
    unfold pageDecref
    simp only [sat_bind, sat_modify, sat_get, Function.update_self]
    rw [sat_ite]
    constructor
    · intro hz
      unfold pageFree
      simp only [sat_bind, sat_get, sat_modify, sat_pure, readPte, hz, hw, h.link_eq_none (.inl rfl),
        Function.update_self, ne_eq, not_true_eq_false, or_self, if_false]
      refine ⟨fun href => absurd ?_ href, trivial⟩
      bv_omega
    · intro hz
      simp only [sat_pure, sat_bind, sat_get, readPte, hw, ne_eq, not_true_eq_false, if_false]
      exact ⟨fun _ => ⟨h.npages, h.kernPgdir, h.tables, h.alloc.setRefZero _, h.bound, h.idle⟩, trivial⟩

omit [Fintype ι] in
lemma Grown.interior {ptr ptr' : PageRef ι → Option ℕ} {hand : Finset ℕ} (hG : Grown ptr ptr' hand)
    (hp : p ∈ hand ∨ ∃ r, ptr r = some p) (hi : ∀ r : PageRef ι, r.Interior → ptr r ≠ some p) :
    ∀ r : PageRef ι, r.Interior → ptr' r ≠ some p := by
  rcases hG with rfl | ⟨r, q, hq, -, hfresh, rfl⟩
  · exact hi
  · have hpq : q ≠ p := by
      rintro rfl
      rcases hp with hp | ⟨r', hr'⟩
      · exact hq hp
      · exact hfresh r' hr'
    intro r' hr' hptr
    rw [Function.update_apply] at hptr
    split at hptr
    · exact hpq (Option.some.inj hptr)
    · exact hi r' hr' hptr

lemma Grown.refs_eq {ptr ptr' : PageRef ι → Option ℕ} {hand : Finset ℕ} (hG : Grown ptr ptr' hand)
    (hp : p ∈ hand ∨ ∃ r, ptr r = some p) : refs ptr' p = refs ptr p := by
  rcases hG with rfl | ⟨r, q, hq, hr, hfresh, rfl⟩
  · rfl
  · have hpq : p ≠ q := by
      rintro rfl
      rcases hp with hp | ⟨r', hr'⟩
      · exact hq hp
      · exact hfresh r' hr'
    rw [refs_update_some hr, Function.update_of_ne hpq]

/-- The second half of `page_insert`: the reference of the page is taken and the slot is free. -/
lemma writeEntry (h : PmapIn B dirs (Function.update ext p (ext p + 1)) hand s) {n : PageNo}
    {tb : ℕ} (htb : tableAt target dirs s.mem i n.1 = some tb)
    (hslot : pointers dirs s.mem (.pte i n.1 n.2) = none) (hp : p ∈ B.freeList)
    (hi : ∀ r : PageRef ι, r.Interior → pointers dirs s.mem r ≠ some p) (hh : p ∉ hand)
    (hb : refs (pointers dirs s.mem) p + 1 < 65536) {perm : Word} (hperm : perm.toNat < 4096) :
    PmapIn B dirs ext hand
        { s with mem := setWord s.mem tb n.2 (page2pa p ||| perm ||| pteP) } ∧
      spaces dirs (setWord s.mem tb n.2 (page2pa p ||| perm ||| pteP)) =
        setPage (spaces dirs s.mem) i n (page2pa p ||| perm ||| pteP) := by
  have htgt := target_entry (Nat.lt_trans (B.freeList_lt hp) B.npages_lt) hperm
  obtain ⟨hT, hptr, hS⟩ := h.tables.setEntry htb (Or.inr ⟨p, htgt, hp, hi⟩)
  rw [htgt] at hptr
  have hcnt := refs_update_some hslot p
  rw [← hptr] at hcnt
  refine ⟨⟨h.npages, h.kernPgdir, hT, ?_, ?_, ?_⟩, hS⟩
  · have hall := h.alloc
    rw [← update_succ_add', update_succ_add, ← hcnt] at hall
    exact hall.congr rfl rfl rfl
  · intro f
    show refs (pointers dirs (setWord _ _ _ _)) f < 65536
    rw [hcnt, Function.update_apply]
    split
    · exact hb
    · exact h.bound f
  · intro f hf
    have hfp : f ≠ p := fun e => hh (e ▸ hf)
    show refs (pointers dirs (setWord _ _ _ _)) f = 0
    rw [hcnt, Function.update_of_ne hfp]
    exact h.idle f hf

omit [DecidableEq ι] in
/-- The reference that `page_insert` takes before the old mapping goes. -/
lemma PmapIn.inc (h : PmapIn B dirs ext hand s) (hp : p ∈ B.freeList)
    (hcnt : refs (pointers dirs s.mem) p ≠ 0 ∨ p ∈ hand) (hext : ext p = 0) :
    PmapIn B dirs (Function.update ext p (ext p + 1)) (hand.erase p)
      { s with ppRef := Function.update s.ppRef p (s.ppRef p + 1) } := by
  refine ⟨h.npages, h.kernPgdir, h.tables, ?_, h.bound, fun f hf => h.idle f (Finset.mem_of_mem_erase hf)⟩
  have hb := h.bound p
  rw [← update_succ_add']
  refine h.alloc.inc hp ?_ ?_
  · rw [Pi.add_apply]
    exact hcnt.imp_left (fun hc => by omega)
  · rw [Pi.add_apply, hext]
    exact hb

/-- `page_insert` up to the write of the entry: the page table is there, the reference is taken, and the slot
is free. -/
lemma pageInsert_upTo (h : PmapIn B dirs ext hand s) (hd : dirs i = some d) (hva : va < utop)
    {ext' : ℕ → ℕ} {hand' : Finset ℕ} {perm : Word} {Q : Word → Pmap → Prop}
    (hnone : tableAt target dirs s.mem i (pdx va) = none → s.pageFreeList = none → Q (-eNoMem) s)
    (hinc : ∀ t, PmapIn B dirs ext hand t → Grown (pointers dirs s.mem) (pointers dirs t.mem) hand →
      PmapIn B dirs ext' hand' { t with ppRef := Function.update t.ppRef p (t.ppRef p + 1) })
    (hwrite : ∀ (t u : Pmap) (tb : ℕ), PmapIn B dirs ext hand t →
      Grown (pointers dirs s.mem) (pointers dirs t.mem) hand → PmapIn B dirs ext' hand' u →
      tableAt target dirs u.mem i (pdx va) = some tb →
      pointers dirs t.mem (.pte i (pageNo va hva).1 (pageNo va hva).2) =
        target (spaces dirs s.mem i (pageNo va hva)) →
      pointers dirs u.mem = Function.update (pointers dirs t.mem)
        (.pte i (pageNo va hva).1 (pageNo va hva).2) none →
      spaces dirs u.mem = setPage (spaces dirs s.mem) i (pageNo va hva) 0 →
      Q 0 { u with mem := setWord u.mem tb (ptx va) (page2pa p ||| perm ||| pteP) }) :
    Sat (pageInsert (some d) p va perm) s Q (fun _ _ => False) := by
  unfold pageInsert
  rw [sat_bind]
  refine (pgdirWalk_create h hd hva).mono ?_ (fun _ _ h => h)
  rintro (_ | pte) t ht
  · obtain ⟨hno, hfl, rfl⟩ := ht
    exact sat_pure.mpr (hnone hno hfl)
  · obtain ⟨hok, hS, hG, tb, htb, rfl⟩ := ht
    have hinc := hinc t hok hG
    have hent : spaces dirs t.mem i (pageNo va hva) = t.mem tb (ptx va) := entryAt_of_table htb
    have hslot : pointers dirs t.mem (.pte i (pageNo va hva).1 (pageNo va hva).2) =
        target (spaces dirs s.mem i (pageNo va hva)) := by
      rw [← hS]
      exact pointers_pte
    simp only [sat_bind, incRef, sat_modify, readPte, sat_get, sat_pure]
    rw [sat_ite]
    constructor
    · intro hP
      have htgt : target (spaces dirs t.mem i (pageNo va hva)) = some (pgnum (t.mem tb (ptx va))) := by
        rw [hent]
        exact target_of_present hP
      rw [sat_bind]
      refine (pageRemove_present hinc hd hva htgt).mono ?_ (fun _ _ h => h)
      rintro - u ⟨hu, hSu, hpu, -⟩
      have htbu : pointers dirs u.mem (.pde i (pageNo va hva).1) = some tb := by
        rw [hpu, Function.update_of_ne (by simp)]
        exact htb
      simp only [writePte, sat_bind, sat_modify, sat_pure]
      exact hwrite t u tb hok hG hu htbu hslot hpu (by rw [hSu, ← hS])
    · intro hP
      -- an entry that is not present is zero
      have h0 : spaces dirs t.mem i (pageNo va hva) = 0 :=
        (hok.tables.pte i _ _).resolve_right (fun hc => hP (hent ▸ hc))
      simp only [writePte, sat_bind, sat_modify, sat_pure]
      refine hwrite t _ tb hok hG hinc htb hslot ?_ ?_
      · show pointers dirs t.mem = _
        rw [Function.eq_update_self_iff, hslot, ← hS, h0, target_zero]
      · show spaces dirs t.mem = _
        rw [← hS, setPage_self h0]

/-- `page_insert` of a page that is mapped already or has just been allocated. It fails only
for lack of a page for the page table, and then nothing has changed. -/
lemma pageInsert_sat (h : PmapIn B dirs ext hand s) (hd : dirs i = some d) (hva : va < utop)
    (hp : p ∈ B.freeList) (hheld : p ∈ hand ∨ ∃ r, pointers dirs s.mem r = some p)
    (hi : ∀ r : PageRef ι, r.Interior → pointers dirs s.mem r ≠ some p) (hext : ext p = 0)
    (hov : refs (pointers dirs s.mem) p + 1 < 65536 ∨
      target (spaces dirs s.mem i (pageNo va hva)) = some p)
    {perm : Word} (hperm : perm.toNat < 4096) :
    Sat (pageInsert (some d) p va perm) s
      (fun r t =>
        (r = -eNoMem ∧ tableAt target dirs s.mem i (pdx va) = none ∧ s.pageFreeList = none ∧
          t = s) ∨
        (r = 0 ∧ PmapIn B dirs ext (hand.erase p) t ∧
          spaces dirs t.mem =
            setPage (spaces dirs s.mem) i (pageNo va hva) (page2pa p ||| perm ||| pteP)))
      (fun _ _ => False) := by
  refine pageInsert_upTo h hd hva (fun hnone hfl => Or.inl ⟨rfl, hnone, hfl, rfl⟩)
    (fun t hok hG => hok.inc hp ?_ hext) (fun t u tb hok hG hu htb hslot hpu hSu => Or.inr ?_)
  · rw [hG.refs_eq hheld]
    exact hheld.symm.imp_left (fun hr => Nat.pos_iff_ne_zero.mp (refs_pos_iff.mpr hr))
  have hiu : ∀ r : PageRef ι, r.Interior → pointers dirs u.mem r ≠ some p := by
    intro r hr
    rw [hpu, Function.update_apply]
    split
    · simp
    · exact hG.interior hheld hi r hr
  have hfree : pointers dirs u.mem (.pte i (pageNo va hva).1 (pageNo va hva).2) = none := by
    rw [hpu, Function.update_self]
  have hb : refs (pointers dirs u.mem) p + 1 < 65536 := by
    have hbt := hok.bound p
    have hrefs := hG.refs_eq hheld
    rw [hpu]
    cases hold : target (spaces dirs s.mem i (pageNo va hva)) with
    | none =>
      rw [hold] at hslot hov
      rw [← hslot, Function.update_eq_self, hrefs]
      exact hov.resolve_right (by simp)
    | some g =>
      rw [hold] at hslot hov
      have hpos := refs_pos_iff.mpr ⟨_, hslot⟩
      rw [refs_update_none hslot, Function.update_apply]
      split
      · rename_i hpg
        subst hpg
        omega
      · rename_i hpg
        rw [hrefs]
        exact hov.resolve_right (fun hc => hpg (Option.some.inj hc).symm)
  obtain ⟨hw, hSw⟩ := writeEntry hu (n := pageNo va hva) htb hfree hp hiu (Finset.notMem_erase p hand) hb hperm
  refine ⟨rfl, hw, hSw.trans ?_⟩
  rw [hSu, setPage_setPage]

/-- What `page_insert` does to the address spaces, also when the page is frame 0, its counter overflows or
`perm` reaches into the frame number. -/
lemma pageInsert_space (h : PmapOk B dirs s) (hd : dirs i = some d) (hva : va < utop)
    (hp : p = 0 ∨ ∃ r, pointers dirs s.mem r = some p) (perm : Word) :
    Sat (pageInsert (some d) p va perm) s
      (fun r t =>
        (r = -eNoMem ∧ tableAt target dirs s.mem i (pdx va) = none ∧ s.pageFreeList = none ∧
          t = s) ∨
        (r = 0 ∧ spaces dirs t.mem =
          setPage (spaces dirs s.mem) i (pageNo va hva) (page2pa p ||| perm ||| pteP)))
      (fun _ _ => False) := by
  have hspace : ∀ {ext' : ℕ → ℕ} {hand' : Finset ℕ} (u : Pmap) (tb : ℕ), PmapIn B dirs ext' hand' u →
      tableAt target dirs u.mem i (pdx va) = some tb →
      spaces dirs u.mem = setPage (spaces dirs s.mem) i (pageNo va hva) 0 →
      spaces dirs (setWord u.mem tb (ptx va) (page2pa p ||| perm ||| pteP)) =
        setPage (spaces dirs s.mem) i (pageNo va hva) (page2pa p ||| perm ||| pteP) := by
    intro ext' hand' u tb hu htb hSu
    have hw := hu.tables.spaces_setEntry (x := (pageNo va hva).1) (y := (pageNo va hva).2) htb
      (page2pa p ||| perm ||| pteP)
    refine hw.trans ?_
    rw [hSu, setPage_setPage]
  have hnone : tableAt target dirs s.mem i (pdx va) = none → s.pageFreeList = none →
      ((-eNoMem : Word) = -eNoMem ∧ tableAt target dirs s.mem i (pdx va) = none ∧ s.pageFreeList = none ∧
          s = s) ∨
        ((-eNoMem : Word) = 0 ∧ spaces dirs s.mem =
          setPage (spaces dirs s.mem) i (pageNo va hva) (page2pa p ||| perm ||| pteP)) :=
    fun ht hfl => Or.inl ⟨rfl, ht, hfl, rfl⟩
  rcases hp with rfl | ⟨r, hr⟩
  · exact pageInsert_upTo h hd hva hnone
      (fun t hok _ => ⟨hok.npages, hok.kernPgdir, hok.tables, hok.alloc.setRefZero _, hok.bound, hok.idle⟩)
      (fun t u tb _ _ hu htb _ _ hSu => Or.inr ⟨rfl, hspace u tb hu htb hSu⟩)
  · refine pageInsert_upTo h hd hva hnone
      (fun t hok hG => hok.inc (h.tables.managed r p hr) (Or.inl ?_) rfl)
      (fun t u tb _ _ hu htb _ _ hSu => Or.inr ⟨rfl, hspace u tb hu htb hSu⟩)
    rw [hG.refs_eq (Or.inr ⟨r, hr⟩)]
    exact Nat.pos_iff_ne_zero.mp (refs_pos_iff.mpr ⟨r, hr⟩)

end SistemasOperativos.Kern
