import SistemasOperativos.Kern.UserMem
import SistemasOperativos.Kern.EnvInv

/-!
# Memory under the environments

`MemOk B s`: the page directories of the environments are well formed and counted. Making and
freeing an environment keep this.
-/

namespace SistemasOperativos.Kern

open Library

/-- The page directories of the environments. -/
def dirsOf (s : Kernel) (e : EnvIdx) : Option ℕ := (s.envs e).envPgdir

/-- The address spaces of the environments below `UTOP`. -/
def spacesOf (s : Kernel) : EnvIdx → PageNo → Word := spaces (dirsOf s) s.pm.mem

/-- The memory of the environments is in order. -/
abbrev MemOk (B : Boot) (s : Kernel) : Prop := PmapOk B (dirsOf s) s.pm

/-- `MemOk` reads the page state and the page directories only. -/
lemma PmapIn.congr {s t : Kernel} {B : Boot} (h : MemOk B s) (hpm : t.pm = s.pm)
    (hd : ∀ e, (t.envs e).envPgdir = (s.envs e).envPgdir) :
    MemOk B t ∧ spacesOf t = spacesOf s := by
  have hdirs : dirsOf t = dirsOf s := funext hd
  unfold MemOk spacesOf
  rw [hdirs, hpm]
  exact ⟨h, rfl⟩

lemma dirsOf_setEnv {s : Kernel} {e : EnvIdx} {v : Env} (hpg : v.envPgdir = (s.envs e).envPgdir) :
    dirsOf (s.setEnv e v) = dirsOf s := by
  funext j
  unfold dirsOf
  rw [Kernel.setEnv_envs]
  split
  · rename_i hj
    rw [hpg, hj]
  · rfl

lemma spacesOf_setEnv {s : Kernel} {e : EnvIdx} {v : Env} (hpg : v.envPgdir = (s.envs e).envPgdir) :
    spacesOf (s.setEnv e v) = spacesOf s := by
  unfold spacesOf
  rw [dirsOf_setEnv hpg]
  rfl

lemma PmapIn.setEnv {s : Kernel} {B : Boot} {e : EnvIdx} {v : Env} (h : MemOk B s)
    (hpg : v.envPgdir = (s.envs e).envPgdir) :
    MemOk B (s.setEnv e v) ∧ spacesOf (s.setEnv e v) = spacesOf s :=
  PmapIn.congr h rfl (congrFun (dirsOf_setEnv hpg))

variable {B : Boot} {s : Kernel} {cpu : Cpu} {e : EnvIdx} {d : ℕ}

/-! ### `env_setup_vm` -/

/-- The page directory `env_setup_vm` builds in frame `p`. -/
def newPgdir (s : Pmap) (p : ℕ) : ℕ → Word :=
  Function.update (s.mem s.kernPgdir) (pdx uvpt) (page2pa p ||| pteP ||| pteU)

/-- A new environment: it fails for lack of memory, or it gets an empty address space. -/
lemma envSetupVm_mem (h : MemOk B s) (he : dirsOf s e = none) :
    Sat (envSetupVm e) s
      (fun r t => (r = -eNoMem ∧ s.pm.pageFreeList = none ∧ t = s) ∨
        (r = 0 ∧ s.pm.pageFreeList ≠ none ∧ MemOk B t ∧ spacesOf t = spacesOf s ∧
          ∃ d pm, t = { s with
            pm := pm
            envs := Function.update s.envs e { s.envs e with envPgdir := some d } }))
      (fun _ _ => False) := by
  unfold envSetupVm
  rw [sat_bind, sat_liftPm]
  refine (pageAlloc_sat h.alloc h.npages).mono ?_ (fun _ _ h => h)
  rintro (_ | p) pm
  · rintro ⟨hfl, rfl⟩
    exact sat_pure.mpr (Or.inl ⟨rfl, hfl, rfl⟩)
  · rintro ⟨hfl, rfl, ⟨hp, hp0, -⟩, hok⟩
    have hlt := B.freeList_lt hp
    have hkp : s.pm.kernPgdir ≠ p := by
      rw [h.kernPgdir]
      exact fun hc => B.kernPgdir_notMem_freeList (hc ▸ hp)
    have hpa : ¬ p ≥ s.pm.npages := by
      rw [h.npages]
      exact Nat.not_le.mpr hlt
    have hfresh := PmapIn.fresh hp0
    -- the words of the new page directory
    have hkern : ∀ x, s.pm.mem s.pm.kernPgdir x = B.mem B.kernPgdir x := by
      intro x
      rw [h.kernPgdir, h.tables.other _ B.kernPgdir_notMem_freeList]
    have hne : ∀ x, x < pdxUtop → x ≠ pdx uvpt := by
      intro x hx
      have : pdxUtop < pdx uvpt := by decide
      omega
    obtain ⟨hT₁, hp₁, hS₁⟩ := h.tables.setFrame hp (fun r _ => hfresh r) (newPgdir s.pm p)
    have hself : Function.update s.pm.mem p (newPgdir s.pm p) p = newPgdir s.pm p :=
      Function.update_self ..
    obtain ⟨hT₂, hp₂, hS₂⟩ := hT₁.newDir he hp (fun r => by rw [hp₁]; exact hfresh r)
      (fun x => by
        rw [hself, newPgdir, Function.update_of_ne (hne x x.isLt), hkern]
        exact B.empty x x.isLt)
      (fun x hx hx' hxu => by
        rw [hself, newPgdir, Function.update_of_ne hxu, hkern])
      (by rw [hself, newPgdir, Function.update_self])
    have hslot : pointers (dirsOf s) s.pm.mem (.dir e) = none := he
    have hcnt := refs_update_some hslot p
    rw [hp₁] at hp₂
    have hinc := hok.inc hp (Or.inr (Finset.mem_insert_self p ∅)) (by omega)
    rw [Finset.erase_insert (Finset.notMem_empty p), update_succ_add, ← hcnt, ← hp₂] at hinc
    have hmem : setWord (Function.update (Function.update s.pm.mem p fun _ => 0) p
        ((Function.update s.pm.mem p fun _ => 0) s.pm.kernPgdir)) p (pdx uvpt)
        (page2pa p ||| pteP ||| pteU) = Function.update s.pm.mem p (newPgdir s.pm p) := by
      unfold setWord newPgdir
      rw [Function.update_idem, Function.update_self, Function.update_idem,
        Function.update_of_ne hkp]
    have hdirs : ∀ pm, dirsOf { s with
        pm := pm
        envs := Function.update s.envs e { s.envs e with envPgdir := some p } } =
        Function.update (dirsOf s) e (some p) := by
      intro pm
      funext j
      unfold dirsOf
      by_cases hj : j = e
      · subst hj
        simp only [Function.update_self]
      · simp only [Function.update_of_ne hj]
    dsimp only
    rw [sat_bind, sat_liftPm]
    unfold incRef
    rw [sat_modify, sat_bind, sat_liftPm]
    unfold page2kva kaddr
    simp only [sat_bind, sat_get, allocated, pgnum_page2pa_lt hlt, if_neg hpa, sat_pure]
    unfold modifyEnv
    rw [sat_modify, sat_liftPm, sat_modify, sat_liftPm]
    unfold writePte
    rw [sat_modify]
    simp only [Kernel.setEnv, hmem]
    refine Or.inr ⟨trivial, by simp [hfl], ?_, ?_, p, _, rfl⟩
    · unfold MemOk
      rw [hdirs]
      refine ⟨h.npages, h.kernPgdir, hT₂, hinc.congr rfl rfl rfl, ?_, fun f hf => by cases hf⟩
      intro f
      show refs (pointers _ (Function.update s.pm.mem p (newPgdir s.pm p))) f < 65536
      have hb := h.bound f
      rw [Pi.add_apply] at hp0
      rw [hp₂, hcnt, Function.update_apply]
      split
      · omega
      · exact hb
    · unfold spacesOf
      rw [hdirs]
      exact hS₂.trans hS₁

/-- `env_alloc` fails without a trace, or makes an environment with an empty address space. -/
lemma envAlloc_mem (h : MemOk B s) (hfree : ∀ e, s.envFreeList = some e → dirsOf s e = none)
    (parentId : Word) :
    Sat (envAlloc parentId) s
      (fun r t => match r with
        | .error code => t = s ∧ ((code = -eNoFreeEnv ∧ s.envFreeList = none) ∨
            (code = -eNoMem ∧ s.pm.pageFreeList = none))
        | .ok e => s.envFreeList = some e ∧ s.pm.pageFreeList ≠ none ∧ MemOk B t ∧
            spacesOf t = spacesOf s)
      (fun _ _ => False) := by
  unfold envAlloc
  rw [sat_bind, sat_get]
  cases hfl : s.envFreeList with
  | none => exact sat_pure.mpr ⟨rfl, Or.inl ⟨rfl, rfl⟩⟩
  | some e =>
    dsimp only
    rw [sat_bind]
    refine (envSetupVm_mem h (hfree e hfl)).mono ?_ (fun _ _ h => h)
    rintro r t (⟨rfl, hpf, rfl⟩ | ⟨rfl, hpf, hok, hsp, d, pm, rfl⟩)
    · rw [if_pos (show (-eNoMem : Word) ≠ 0 by decide), sat_pure]
      exact ⟨rfl, Or.inr ⟨rfl, hpf⟩⟩
    · rw [if_neg (fun hc => hc rfl)]
      unfold modifyEnv
      simp only [sat_bind, sat_modify, sat_pure]
      have key : ∀ t : Kernel, t.pm = pm →
          (∀ j, (t.envs j).envPgdir =
            (Function.update s.envs e { s.envs e with envPgdir := some d } j).envPgdir) →
          MemOk B t ∧ spacesOf t = spacesOf s := by
        intro t hpm hpg
        obtain ⟨h₁, h₂⟩ := PmapIn.congr hok hpm hpg
        exact ⟨h₁, h₂.trans hsp⟩
      refine ⟨trivial, hpf, key _ rfl (fun j => ?_)⟩
      by_cases hj : j = e
      · subst hj
        simp [Kernel.setEnv]
      · simp [Kernel.setEnv, hj]

/-! ### `env_free` -/

/-- The address spaces after the tables of `e` below `x`, and the entries of table `x` below
`y`, have been cleared. -/
def clearUpTo (S : EnvIdx → PageNo → Word) (e : EnvIdx) (x y : ℕ) (j : EnvIdx) (n : PageNo) :
    Word :=
  if j = e ∧ ((n.1 : ℕ) < x ∨ ((n.1 : ℕ) = x ∧ (n.2 : ℕ) < y)) then 0 else S j n

/-- The address spaces without that of `e`. -/
def clearSpace (S : EnvIdx → PageNo → Word) (e : EnvIdx) (j : EnvIdx) (n : PageNo) : Word :=
  if j = e then 0 else S j n

lemma clearUpTo_zero (S : EnvIdx → PageNo → Word) (e : EnvIdx) : clearUpTo S e 0 0 = S := by
  funext j n
  unfold clearUpTo
  rw [if_neg (by omega)]

lemma clearUpTo_end (S : EnvIdx → PageNo → Word) (e : EnvIdx) :
    clearUpTo S e pdxUtop 0 = clearSpace S e := by
  funext j n
  unfold clearUpTo clearSpace
  have := n.1.isLt
  by_cases hj : j = e
  · rw [if_pos ⟨hj, Or.inl this⟩, if_pos hj]
  · rw [if_neg (fun hc => hj hc.1), if_neg hj]

lemma clearUpTo_row (S : EnvIdx → PageNo → Word) (e : EnvIdx) (x : ℕ) :
    clearUpTo S e x nptentries = clearUpTo S e (x + 1) 0 := by
  funext j n
  unfold clearUpTo
  have := n.2.isLt
  by_cases hj : j = e
  · by_cases hx : (n.1 : ℕ) ≤ x
    · rw [if_pos ⟨hj, by omega⟩, if_pos ⟨hj, by omega⟩]
    · rw [if_neg (by omega), if_neg (by omega)]
  · rw [if_neg (fun hc => hj hc.1), if_neg (fun hc => hj hc.1)]

lemma clearUpTo_page (S : EnvIdx → PageNo → Word) (e : EnvIdx) (n : PageNo) :
    setPage (clearUpTo S e n.1 n.2) e n 0 = clearUpTo S e n.1 (n.2 + 1) := by
  funext j k
  rw [setPage_apply]
  unfold clearUpTo
  by_cases hj : j = e
  · by_cases hk : k = n
    · rw [if_pos ⟨hj, hk⟩, if_pos ⟨hj, by rw [hk]; omega⟩]
    · have hne : (k.1 : ℕ) ≠ n.1 ∨ (k.2 : ℕ) ≠ n.2 := by
        by_contra hc
        push Not at hc
        exact hk (Prod.ext (Fin.ext hc.1) (Fin.ext hc.2))
      rw [if_neg (fun hc => hk hc.2)]
      by_cases hlt : (k.1 : ℕ) < n.1 ∨ ((k.1 : ℕ) = n.1 ∧ (k.2 : ℕ) < n.2)
      · rw [if_pos ⟨hj, hlt⟩, if_pos ⟨hj, by omega⟩]
      · rw [if_neg (fun hc => hlt hc.2), if_neg (by omega)]
  · rw [if_neg (fun hc => hj hc.1), if_neg (fun hc => hj hc.1), if_neg (fun hc => hj hc.1)]

lemma pgaddr_lt_utop {x y : ℕ} (hx : x < pdxUtop) (hy : y < nptentries) :
    pgaddr x y 0 < utop := by
  have hu : utop.toNat = 955 * 2 ^ 22 := by decide
  have := pgaddr_toNat (d := x) (t := y) (by unfold pdxUtop at hx; omega) hy
  unfold pdxUtop at hx
  unfold nptentries at hy
  show (pgaddr x y 0).toNat < utop.toNat
  omega

lemma pageNo_pgaddr {x : Fin pdxUtop} {y : Fin nptentries} (h : pgaddr x y 0 < utop) :
    pageNo (pgaddr x y 0) h = (x, y) := by
  have hx : (x : ℕ) < 1024 := Nat.lt_trans x.isLt (by decide)
  unfold pageNo
  simp only [pdx_pgaddr hx y.isLt, ptx_pgaddr hx y.isLt]

/-- The invariant of the loops of `env_free`: the pages before `(x, y)` are gone, and the tables
are those of `ptr`. -/
structure Clearing (B : Boot) (s : Kernel) (S : EnvIdx → PageNo → Word) (e : EnvIdx) (x y : ℕ)
    (ptr : PageRef EnvIdx → Option ℕ) (t : Kernel) : Prop where
  frame : ∃ pm, t = { s with pm := pm }
  mem : MemOk B t
  spaces : spacesOf t = clearUpTo S e x y
  tables : ∀ r : PageRef EnvIdx, r.Interior → pointers (dirsOf t) t.pm.mem r = ptr r
  zero : t.pm.ppRef 0 = s.pm.ppRef 0

lemma Clearing.dirs {S : EnvIdx → PageNo → Word} {x y : ℕ} {ptr : PageRef EnvIdx → Option ℕ}
    {t : Kernel} (h : Clearing B s S e x y ptr t) : dirsOf t = dirsOf s := by
  obtain ⟨pm, rfl⟩ := h.frame
  rfl

/-- One entry of a table: `env_free` drops the page it maps. -/
lemma envFreePage_sat {S : EnvIdx → PageNo → Word} {ptr : PageRef EnvIdx → Option ℕ} {t : Kernel}
    {x : Fin pdxUtop} {y : Fin nptentries} {tb : ℕ} (hd : dirsOf s e = some d)
    (htb : ptr (.pde e x) = some tb) (h : Clearing B s S e x y ptr t) :
    Sat (do if has (← liftPm (readPte ⟨tb, y⟩)) pteP then
        liftPm (pageRemove (some d) (pgaddr x y 0)) : KernM Unit) t
      (fun _ u => Clearing B s S e x (y + 1) ptr u) (fun _ _ => False) := by
  have htab : tableAt target (dirsOf t) t.pm.mem e x = some tb :=
    (h.tables (.pde e x) trivial).trans htb
  have hent : spacesOf t e (x, y) = t.pm.mem tb y := entryAt_of_table htab
  have hva := pgaddr_lt_utop x.isLt y.isLt
  have hpage : setPage (spacesOf t) e (x, y) 0 = clearUpTo S e x (y + 1) := by
    rw [h.spaces]
    exact clearUpTo_page S e (x, y)
  unfold readPte
  rw [sat_bind, sat_liftPm]
  simp only [sat_bind, sat_get, sat_pure]
  rw [sat_ite]
  constructor
  · intro hP
    rw [← hent] at hP
    have hf := target_of_present hP
    rw [← pageNo_pgaddr hva] at hf
    rw [sat_liftPm]
    refine (pageRemove_present h.mem (h.dirs ▸ hd) hva hf).mono ?_ (fun _ _ h => h)
    rintro - pm ⟨hok, hS, hptr, hzero⟩
    obtain ⟨pm₀, h₀⟩ := h.frame
    refine ⟨⟨pm, by rw [h₀]⟩, hok, ?_, ?_, hzero.trans h.zero⟩
    · rw [← hpage, ← pageNo_pgaddr hva]
      exact hS
    · intro r hr
      rw [← h.tables r hr]
      refine (congrFun hptr r).trans (Function.update_of_ne ?_ ..)
      rintro rfl
      exact hr
  · intro hP
    have h0 : spacesOf t e (x, y) = 0 := by
      rcases h.mem.tables.pte e x y with h0 | hP'
      · exact h0
      · exact absurd (hent ▸ hP') hP
    refine sat_pure.mpr ⟨h.frame, h.mem, ?_, h.tables, h.zero⟩
    rw [← hpage]
    funext j n
    rw [setPage_apply]
    split
    · rename_i hc
      rw [hc.1, hc.2, h0]
    · rfl

/-- One table: its pages and then the table itself are dropped. -/
lemma envFreeTable_sat {S : EnvIdx → PageNo → Word} {x : Fin pdxUtop}
    (hd : dirsOf s e = some d) (h : MemOk B s) (hS : spacesOf s = clearUpTo S e x 0) :
    Sat (envFreeTable e x) s
      (fun _ t => (∃ pm, t = { s with pm := pm }) ∧ MemOk B t ∧
        spacesOf t = clearUpTo S e (x + 1) 0 ∧
        t.pm.ppRef 0 = s.pm.ppRef 0 ∧
        ∀ (j : EnvIdx) (z : Fin pdxUtop), tableAt target (dirsOf t) t.pm.mem j z =
          if j = e ∧ z = x then none else tableAt target (dirsOf s) s.pm.mem j z)
      (fun _ _ => False) := by
  unfold envFreeTable
  have hd' : (s.envs e).envPgdir = some d := hd
  rw [sat_bind, sat_get, hd']
  unfold readPte
  dsimp only
  rw [sat_bind, sat_liftPm]
  simp only [sat_bind, sat_get, sat_pure]
  have htab : tableAt target (dirsOf s) s.pm.mem e x = target (s.pm.mem d x) := tableAt_of_dir hd
  rw [sat_ite]
  constructor
  · intro hP
    have htgt := target_of_present hP
    rw [htgt] at htab
    have hmem := h.tables.table_managed htab
    have hlt : ¬ pgnum (s.pm.mem d x) ≥ s.pm.npages := by
      rw [h.npages]
      exact Nat.not_le.mpr (B.freeList_lt hmem)
    unfold kaddr
    rw [sat_bind, sat_liftPm]
    simp only [sat_bind, sat_get, pgnum_pteAddr, if_neg hlt, sat_pure]
    refine (sat_forM_range (fun y t => Clearing B s S e x y (pointers (dirsOf s) s.pm.mem) t)
      nptentries (fun y t hy ht => envFreePage_sat (y := ⟨y, hy⟩) hd htab ht)
      ⟨⟨s.pm, rfl⟩, h, hS, fun _ _ => rfl, rfl⟩).mono ?_ (fun _ _ h => h)
    rintro - t ht
    obtain ⟨pm, rfl⟩ := ht.frame
    have hok : PmapOk B (dirsOf s) pm := ht.mem
    have hsp : spaces (dirsOf s) pm.mem = clearUpTo S e x nptentries := ht.spaces
    have htab' : tableAt target (dirsOf s) pm.mem e x = some (pgnum (s.pm.mem d x)) :=
      (ht.tables (.pde e x) trivial).trans htab
    have hrow : ∀ y : Fin nptentries, entry (dirsOf s) pm.mem e x y = 0 := by
      intro y
      show spaces (dirsOf s) pm.mem e (x, y) = 0
      rw [hsp]
      unfold clearUpTo
      rw [if_pos ⟨rfl, Or.inr ⟨rfl, y.isLt⟩⟩]
    obtain ⟨hT, hptr, hS'⟩ := hok.tables.setTable hd hrow (Or.inl rfl)
    rw [target_zero] at hptr
    have hcnt := refs_update_none (show pointers (dirsOf s) pm.mem (.pde e x) = _ from htab')
    rw [← hptr] at hcnt
    have hpos : refs (pointers (dirsOf s) pm.mem) (pgnum (s.pm.mem d x)) ≠ 0 :=
      Nat.pos_iff_ne_zero.mp (refs_pos_iff.mpr ⟨.pde e x, htab'⟩)
    have halloc : AllocOk B (refs (pointers (dirsOf s) pm.mem) + 0) ∅
        { pm with mem := setWord pm.mem d x 0 } := hok.alloc.congr rfl rfl rfl
    unfold writePte pa2page
    rw [sat_liftPm, sat_modify, sat_liftPm]
    have hlt' : ¬ pgnum (s.pm.mem d x) ≥ pm.npages := by
      rw [hok.npages]
      exact Nat.not_le.mpr (B.freeList_lt hmem)
    simp only [sat_bind, sat_get, pgnum_pteAddr, if_neg hlt', sat_pure]
    refine (pageDecref_sat halloc hmem (by rw [Pi.add_apply]; omega)
      (Finset.notMem_empty _)).mono ?_ (fun _ _ h => h)
    rintro - pm' ⟨halloc', hm, hn, hk, hrest⟩
    have hzero : pm'.ppRef 0 = pm.ppRef 0 := hrest 0 (B.freeList_ne_zero hmem).symm
    have hm' : pm'.mem = setWord pm.mem d x 0 := hm
    rw [update_pred_add hpos, ← hcnt] at halloc'
    refine ⟨⟨pm', rfl⟩, ⟨hn.trans hok.npages, hk.trans hok.kernPgdir, ?_, ?_, ?_, ?_⟩, ?_,
      hzero.trans ht.zero, ?_⟩
    · show TablesOk B (dirsOf s) pm'.mem
      rw [hm']
      exact hT
    · show AllocOk B (refs (pointers (dirsOf s) pm'.mem) + 0) ∅ pm'
      rw [hm']
      exact halloc'
    · intro f
      show refs (pointers (dirsOf s) pm'.mem) f < 65536
      rw [hm', hcnt, Function.update_apply]
      have := hok.bound f
      split
      · have := hok.bound (pgnum (s.pm.mem d x))
        change refs (pointers (dirsOf s) pm.mem) _ < 65536 at this
        omega
      · exact this
    · exact fun f hf => absurd hf (Finset.notMem_empty f)
    · show spaces (dirsOf s) pm'.mem = _
      rw [hm', hS', ← clearUpTo_row]
      exact hsp
    · intro j z
      show pointers (dirsOf s) pm'.mem (.pde j z) = _
      rw [hm', hptr, Function.update_apply]
      by_cases hjz : j = e ∧ z = x
      · rw [if_pos hjz, if_pos (by rw [hjz.1, hjz.2])]
      · rw [if_neg hjz, if_neg]
        · exact ht.tables (.pde j z) trivial
        · intro hc
          injection hc with h₁ h₂
          exact hjz ⟨h₁, h₂⟩
  · intro hP
    have hnone : target (s.pm.mem d x) = none := by
      unfold target
      rw [if_neg hP]
    rw [hnone] at htab
    refine sat_pure.mpr ⟨⟨s.pm, rfl⟩, h, ?_, rfl, ?_⟩
    · rw [← clearUpTo_row, hS]
      funext j n
      unfold clearUpTo
      by_cases hj : j = e ∧ (n.1 : ℕ) = x
      · have h0 : spacesOf s j n = 0 := by
          rw [hj.1]
          exact entryAt_of_none (hj.2 ▸ htab)
        rw [hS] at h0
        unfold clearUpTo at h0
        rw [h0, if_pos ⟨hj.1, Or.inr ⟨hj.2, n.2.isLt⟩⟩]
      · by_cases hlt : j = e ∧ (n.1 : ℕ) < x
        · rw [if_pos ⟨hlt.1, Or.inl hlt.2⟩, if_pos ⟨hlt.1, Or.inl hlt.2⟩]
        · have hno : ∀ y, ¬(j = e ∧ ((n.1 : ℕ) < x ∨ ((n.1 : ℕ) = x ∧ (n.2 : ℕ) < y))) :=
            fun y hc => hc.2.elim (fun h => hlt ⟨hc.1, h⟩) (fun h => hj ⟨hc.1, h.1⟩)
          rw [if_neg (hno 0), if_neg (hno nptentries)]
    · intro j z
      split
      · rename_i hjz
        rw [hjz.1, hjz.2]
        exact htab
      · rfl

/-- The tables of the other environments, and the reference count of frame 0, are as they were. -/
structure OtherTables (e : EnvIdx) (s t : Kernel) : Prop where
  tables : ∀ j ≠ e, ∀ z : Fin pdxUtop, tableAt target (dirsOf t) t.pm.mem j z =
    tableAt target (dirsOf s) s.pm.mem j z
  zero : t.pm.ppRef 0 = s.pm.ppRef 0

/-- `env_free` gives back every page, table and directory of the environment. -/
lemma envFree_mem (cpu : Cpu) (hd : dirsOf s e = some d) (h : MemOk B s) :
    Sat (envFree cpu e) s
      (fun _ t => MemOk B t ∧ spacesOf t = clearSpace (spacesOf s) e ∧
        dirsOf t = Function.update (dirsOf s) e none ∧ OtherTables e s t)
      (fun _ _ => False) := by
  have htail : ∀ s₁ : Kernel, s₁.pm = s.pm → s₁.envs = s.envs → ∀ n, n = pdxUtop → Sat (do
      forM (List.range n) (envFreeTable e)
      let d ← paddr ((← get).envs e).envPgdir
      modifyEnv e fun env => { env with envPgdir := none }
      liftPm (do pageDecref (← pa2page (page2pa d)))
      modify fun s => { s.setEnv e { s.envs e with envStatus := .free, envLink := s.envFreeList } with
        envFreeList := some e }) s₁
      (fun _ t => MemOk B t ∧ spacesOf t = clearSpace (spacesOf s) e ∧
        dirsOf t = Function.update (dirsOf s) e none ∧ OtherTables e s t) (fun _ _ => False) := by
    intro s₁ hpm henvs n hn
    have hdirs : dirsOf s₁ = dirsOf s := by
      unfold dirsOf
      rw [henvs]
    obtain ⟨hok, hsp⟩ := h.congr hpm (fun j => congrFun hdirs j)
    rw [sat_bind]
    refine (sat_forM_range (fun x t => (∃ pm, t = { s₁ with pm := pm }) ∧ MemOk B t ∧
        spacesOf t = clearUpTo (spacesOf s) e x 0 ∧ OtherTables e s t ∧
        ∀ z : Fin pdxUtop, (z : ℕ) < x → tableAt target (dirsOf t) t.pm.mem e z = none) n ?_
      ⟨⟨s₁.pm, rfl⟩, hok, by rw [hsp, clearUpTo_zero], ⟨fun j _ z => by rw [hdirs, hpm], by rw [hpm]⟩,
        fun z hz => absurd hz (Nat.not_lt_zero _)⟩).mono
      ?_ (fun _ _ h => h)
    · rintro x t hx ⟨⟨pm, rfl⟩, hmem, hS, hother, htab⟩
      have hd₁ : dirsOf { s₁ with pm := pm } e = some d := by
        rw [← hd, ← hdirs]
        rfl
      refine (envFreeTable_sat (x := ⟨x, hn ▸ hx⟩) hd₁ hmem hS).mono ?_ (fun _ _ h => h)
      rintro - u ⟨⟨pm', rfl⟩, hmem', hS', hzero, htab'⟩
      refine ⟨⟨pm', rfl⟩, hmem', hS', ⟨?_, hzero.trans hother.zero⟩, ?_⟩
      · intro j hj z
        rw [htab' j z, if_neg (fun hc => hj hc.1)]
        exact hother.tables j hj z
      · intro z hz
        rw [htab' e z]
        split
        · rfl
        · rename_i hzx
          have hne : (z : ℕ) ≠ x := fun hc => hzx ⟨rfl, Fin.ext hc⟩
          exact htab z (by omega)
    · rintro - t ⟨⟨pm, rfl⟩, hmem, hS, hother, htab⟩
      subst hn
      rw [clearUpTo_end] at hS
      have hmem' : PmapOk B (dirsOf s) pm := hdirs ▸ hmem
      have hS' : spaces (dirsOf s) pm.mem = clearSpace (spacesOf s) e := hdirs ▸ hS
      have htab' : ∀ z : Fin pdxUtop, tableAt target (dirsOf s) pm.mem e z = none :=
        fun z => hdirs ▸ htab z z.isLt
      have hpg : (s₁.envs e).envPgdir = some d := by
        rw [henvs]
        exact hd
      obtain ⟨hT, hptr, hsp'⟩ := hmem'.tables.dropDir htab'
      have hfm := hmem'.tables.dir_managed hd
      have hslot : pointers (dirsOf s) pm.mem (.dir e) = some d := hd
      have hpos : refs (pointers (dirsOf s) pm.mem) d ≠ 0 :=
        Nat.pos_iff_ne_zero.mp (refs_pos_iff.mpr ⟨_, hslot⟩)
      have hcnt := refs_update_none hslot
      rw [← hptr] at hcnt
      have hlt := B.freeList_lt hfm
      have hge : ¬ d ≥ pm.npages := by
        rw [hmem'.npages]
        exact Nat.not_le.mpr hlt
      rw [sat_bind, sat_get, sat_bind, hpg]
      unfold paddr modifyEnv pa2page
      simp only [sat_pure, sat_bind, sat_modify, sat_liftPm, sat_get, pgnum_page2pa_lt hlt,
        Kernel.setEnv, if_neg hge]
      refine (pageDecref_sat hmem'.alloc hfm (by rw [Pi.add_apply]; omega)
        (Finset.notMem_empty _)).mono ?_ (fun _ _ h => h)
      rintro - pm' ⟨halloc, hm, hn, hk, hrest⟩
      rw [update_pred_add hpos, ← hcnt, ← hm] at halloc
      rw [← hm] at hT hsp' hcnt
      have key : ∀ t : Kernel, t.pm = pm' →
          dirsOf t = Function.update (dirsOf s) e none →
          MemOk B t ∧ spacesOf t = clearSpace (spacesOf s) e ∧
            dirsOf t = Function.update (dirsOf s) e none ∧ OtherTables e s t := by
        intro t htpm htd
        have hzero : pm'.ppRef 0 = pm.ppRef 0 := hrest 0 (B.freeList_ne_zero hfm).symm
        refine ⟨?_, ?_, htd, ?_, ?_⟩
        · unfold MemOk
          rw [htd, htpm]
          refine ⟨hn.trans hmem'.npages, hk.trans hmem'.kernPgdir, hT, halloc, ?_,
            fun f hf => absurd hf (Finset.notMem_empty f)⟩
          intro f
          rw [hcnt, Function.update_apply]
          split
          · exact Nat.lt_of_le_of_lt (Nat.sub_le _ _) (hm ▸ hmem'.bound d)
          · exact hm ▸ hmem'.bound f
        · show spaces (dirsOf t) t.pm.mem = _
          rw [htd, htpm, hsp', hm, hS']
        · intro j hj z
          have htab := hother.tables j hj z
          unfold tableAt at htab ⊢
          rw [htd, Function.update_of_ne hj, htpm, hm, ← hdirs]
          rw [← hdirs] at htab
          exact htab
        · rw [htpm]
          exact hzero.trans hother.zero
      refine key _ rfl ?_
      funext j
      unfold dirsOf
      by_cases hj : j = e
      · subst hj
        simp only [Function.update_self]
      · simp only [Function.update_of_ne hj, henvs]
  unfold envFree curenv?
  generalize hn : pdxUtop = n
  simp only [sat_bind, sat_get, sat_pure]
  by_cases hcur : (s.cpus cpu).cpuEnv = some e
  · rw [if_pos hcur]
    unfold lcr3
    rw [sat_bind, sat_get, sat_bind, sat_modify]
    have hl := htail (s.setCpu cpu { s.cpus cpu with cr3 := s.pm.kernPgdir }) rfl rfl n hn.symm
    simpa only [sat_bind, sat_get] using hl
  · rw [if_neg hcur]
    have hl := htail s rfl rfl n hn.symm
    simpa only [sat_bind, sat_get] using hl

end SistemasOperativos.Kern
