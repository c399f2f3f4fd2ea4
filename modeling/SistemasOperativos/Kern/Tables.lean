import SistemasOperativos.Library.RefCount
import SistemasOperativos.Kern.PageAlloc

/-!
# The address spaces

`TablesOk B dirs mem`: the page directories `dirs` and their tables below `UTOP` are pages of
the allocator that nothing else points to, their words are null or well formed, and the rest
of memory is what `mem_init` left. Every change the kernel makes to the tables changes one
pointer; `dirs` is a family over an arbitrary index.
-/

namespace SistemasOperativos.Kern

open Library

/-- The pointers of page directories `dirs` below `UTOP`. -/
abbrev PageRef (ι : Type) := Ref ι pdxUtop nptentries

/-- The number of a page below `UTOP`. -/
abbrev PageNo := Fin pdxUtop × Fin nptentries

def pageNo (va : Word) (h : va < utop) : PageNo :=
  (⟨pdx va, pdx_lt_pdxUtop h⟩, ⟨ptx va, ptx_lt va⟩)

section Family

variable {ι : Type}

/-- What the page tables point to. -/
def pointers (dirs : ι → Option ℕ) (mem : ℕ → ℕ → Word) : PageRef ι → Option ℕ :=
  refMap target dirs mem

/-- The page table entry number `(x, y)` of an address space, `0` where there is no table. -/
def entry (dirs : ι → Option ℕ) (mem : ℕ → ℕ → Word) (i : ι) (x y : ℕ) : Word :=
  entryAt target 0 dirs mem i x y

lemma pointers_pte {dirs : ι → Option ℕ} {mem : ℕ → ℕ → Word} {i : ι} {x : Fin pdxUtop}
    {y : Fin nptentries} :
    pointers dirs mem (.pte i x y) = target (entry dirs mem i x y) :=
  refMap_pte target_zero

/-- The address spaces: the entry of every page below `UTOP`. -/
def spaces (dirs : ι → Option ℕ) (mem : ℕ → ℕ → Word) (i : ι) (n : PageNo) : Word :=
  entry dirs mem i n.1 n.2

/-- Change one entry of one address space. -/
def setPage [DecidableEq ι] (S : ι → PageNo → Word) (i : ι) (n : PageNo) (w : Word) :
    ι → PageNo → Word :=
  Function.update S i (Function.update (S i) n w)

lemma setPage_apply [DecidableEq ι] (S : ι → PageNo → Word) (i : ι) (n : PageNo) (w : Word)
    (j : ι) (k : PageNo) : setPage S i n w j k = if j = i ∧ k = n then w else S j k := by
  unfold setPage
  by_cases hj : j = i
  · subst hj
    by_cases hk : k = n
    · subst hk; simp
    · simp [hk]
  · simp [hj]

lemma setPage_setPage [DecidableEq ι] (S : ι → PageNo → Word) (i : ι) (n : PageNo) (v w : Word) :
    setPage (setPage S i n v) i n w = setPage S i n w := by
  unfold setPage
  rw [Function.update_idem, Function.update_self, Function.update_idem]

/-- Writing what is there. -/
lemma setPage_self [DecidableEq ι] {S : ι → PageNo → Word} {i : ι} {n : PageNo} {w : Word}
    (h : S i n = w) : setPage S i n w = S := by
  unfold setPage
  rw [← h, Function.update_eq_self, Function.update_eq_self]

structure TablesOk (B : Boot) (dirs : ι → Option ℕ) (mem : ℕ → ℕ → Word) : Prop where
  excl : Exclusive (pointers dirs mem)
  managed : ∀ r f, pointers dirs mem r = some f → f ∈ B.freeList
  pde : ∀ i d (x : Fin pdxUtop), dirs i = some d →
    mem d x = 0 ∨ (has (mem d x) pteP ∧ has (mem d x) pteW ∧ has (mem d x) pteU)
  pte : ∀ i (x : Fin pdxUtop) (y : Fin nptentries),
    entry dirs mem i x y = 0 ∨ has (entry dirs mem i x y) pteP
  kern : ∀ i d x, dirs i = some d → pdxUtop ≤ x → x < npdentries → x ≠ pdx uvpt →
    mem d x = B.mem B.kernPgdir x
  selfMap : ∀ i d, dirs i = some d → mem d (pdx uvpt) = page2pa d ||| pteP ||| pteU
  other : ∀ f, f ∉ B.freeList → mem f = B.mem f

variable {B : Boot} {dirs : ι → Option ℕ} {mem mem' : ℕ → ℕ → Word} {i : ι} {d t p : ℕ}

namespace TablesOk

lemma dir_managed (h : TablesOk B dirs mem) (hd : dirs i = some d) : d ∈ B.freeList :=
  h.managed (.dir i) d hd

lemma table_managed (h : TablesOk B dirs mem) {x : Fin pdxUtop}
    (ht : tableAt target dirs mem i x = some t) : t ∈ B.freeList :=
  h.managed (.pde i x) t ht

lemma table_ne_dir (h : TablesOk B dirs mem) {x : Fin pdxUtop} {j : ι}
    (ht : tableAt target dirs mem i x = some t) (hd : dirs j = some d) : d ≠ t := by
  rintro rfl
  have := h.excl (.pde i x) (.dir j) d trivial ht hd
  cases this

/-- Only directories, tables and unmanaged frames matter. -/
lemma congr (h : TablesOk B dirs mem)
    (hm : ∀ f, f ∉ B.freeList ∨ (∃ r : PageRef ι, r.Interior ∧ pointers dirs mem r = some f) →
      mem' f = mem f) :
    TablesOk B dirs mem' ∧ pointers dirs mem' = pointers dirs mem ∧
      spaces dirs mem' = spaces dirs mem := by
  have hdir : ∀ i d, dirs i = some d → mem' d = mem d :=
    fun i d hd => hm d (Or.inr ⟨.dir i, trivial, hd⟩)
  have hp : pointers dirs mem' = pointers dirs mem :=
    refMap_congr (fun r f hi hr k => by rw [hm f (Or.inr ⟨r, hi, hr⟩)])
  have he : ∀ i (x : Fin pdxUtop) y, entry dirs mem' i x y = entry dirs mem i x y := by
    intro i x y
    refine entryAt_congr (fun d hd => by rw [hdir i d hd]) (fun t ht => ?_)
    rw [hm t (Or.inr ⟨.pde i x, trivial, ht⟩)]
  refine ⟨⟨?_, ?_, ?_, ?_, ?_, ?_, ?_⟩, hp, funext fun i => funext fun n => he i n.1 n.2⟩
  · rw [hp]
    exact h.excl
  · rw [hp]
    exact h.managed
  · intro i d x hd
    rw [hdir i d hd]
    exact h.pde i d x hd
  · intro i x y
    rw [he]
    exact h.pte i x y
  · intro i d x hd
    rw [hdir i d hd]
    exact h.kern i d x hd
  · intro i d hd
    rw [hdir i d hd]
    exact h.selfMap i d hd
  · intro f hf
    rw [hm f (Or.inl hf)]
    exact h.other f hf

/-- A frame that is neither a directory nor a table may be rewritten. -/
lemma setFrame (h : TablesOk B dirs mem) (hp : p ∈ B.freeList)
    (hi : ∀ r : PageRef ι, r.Interior → pointers dirs mem r ≠ some p) (g : ℕ → Word) :
    TablesOk B dirs (Function.update mem p g) ∧
      pointers dirs (Function.update mem p g) = pointers dirs mem ∧
      spaces dirs (Function.update mem p g) = spaces dirs mem := by
  refine h.congr (fun f hf => ?_)
  have hfp : f ≠ p := by
    rintro rfl
    rcases hf with hf | ⟨r, hr, hrf⟩
    · exact hf hp
    · exact hi r hr hrf
  rw [Function.update_of_ne hfp]

variable [DecidableEq ι]

/-- Writing a page table entry changes one page of one address space, whatever is written. -/
lemma spaces_setEntry (h : TablesOk B dirs mem) {x : Fin pdxUtop} {y : Fin nptentries}
    (ht : tableAt target dirs mem i x = some t) (w : Word) :
    spaces dirs (setWord mem t y w) = setPage (spaces dirs mem) i (x, y) w := by
  have he : ∀ j (z : Fin pdxUtop) (k : ℕ), entry dirs (setWord mem t y w) j z k =
      if j = i ∧ z = x ∧ k = y then w else entry dirs mem j z k :=
    fun j z k => entryAt_setEntry h.excl ht w j z k
  funext j n
  rw [setPage_apply]
  unfold spaces
  rw [he]
  simp only [Prod.ext_iff, Fin.ext_iff]

/-- Writing a page table entry. -/
lemma setEntry (h : TablesOk B dirs mem) {x : Fin pdxUtop} {y : Fin nptentries}
    (ht : tableAt target dirs mem i x = some t) {w : Word}
    (hw : w = 0 ∨ ∃ f, target w = some f ∧ f ∈ B.freeList ∧
      ∀ r : PageRef ι, r.Interior → pointers dirs mem r ≠ some f) :
    TablesOk B dirs (setWord mem t y w) ∧
      pointers dirs (setWord mem t y w) =
        Function.update (pointers dirs mem) (.pte i x y) (target w) ∧
      spaces dirs (setWord mem t y w) = setPage (spaces dirs mem) i (x, y) w := by
  have hp : pointers dirs (setWord mem t y w) =
      Function.update (pointers dirs mem) (.pte i x y) (target w) :=
    refMap_setEntry h.excl ht w
  have he : ∀ j (z : Fin pdxUtop) (k : ℕ), entry dirs (setWord mem t y w) j z k =
      if j = i ∧ z = x ∧ k = y then w else entry dirs mem j z k :=
    fun j z k => entryAt_setEntry h.excl ht w j z k
  have hdir : ∀ j d, dirs j = some d → setWord mem t y w d = mem d :=
    fun j d hd => setWord_of_ne (h.table_ne_dir ht hd)
  refine ⟨⟨?_, ?_, ?_, ?_, ?_, ?_, ?_⟩, hp, h.spaces_setEntry ht w⟩
  · rw [hp]
    rcases hw with rfl | ⟨f, hf, -, hi⟩
    · rw [target_zero]
      exact h.excl.update_none
    · rw [hf]
      exact h.excl.update_leaf (by simp [Ref.Interior]) hi
  · intro r f hr
    rw [hp, Function.update_apply] at hr
    split at hr
    · rcases hw with rfl | ⟨g, hg, hgm, -⟩
      · rw [target_zero] at hr
        cases hr
      · rw [hg] at hr
        exact Option.some.inj hr ▸ hgm
    · exact h.managed r f hr
  · intro j d z hd
    rw [hdir j d hd]
    exact h.pde j d z hd
  · intro j z k
    rw [he]
    split
    · rcases hw with rfl | ⟨f, hf, -, -⟩
      · exact Or.inl rfl
      · exact Or.inr (target_eq_some hf).1
    · exact h.pte j z k
  · intro j d z hd
    rw [hdir j d hd]
    exact h.kern j d z hd
  · intro j d hd
    rw [hdir j d hd]
    exact h.selfMap j d hd
  · intro f hf
    have hft : f ≠ t := fun e => hf (e ▸ h.table_managed ht)
    rw [setWord_of_ne hft]
    exact h.other f hf

/-- Changing an entry of a page directory that led to no page: the new table, if any, is a
page without references that holds zeros. -/
lemma setTable (h : TablesOk B dirs mem) {x : Fin pdxUtop} (hd : dirs i = some d)
    (hold : ∀ y : Fin nptentries, entry dirs mem i x y = 0) {w : Word}
    (hw : w = 0 ∨ ∃ p, target w = some p ∧ has w pteW ∧ has w pteU ∧ p ∈ B.freeList ∧
      (∀ r : PageRef ι, pointers dirs mem r ≠ some p) ∧ ∀ y : Fin nptentries, mem p y = 0) :
    TablesOk B dirs (setWord mem d x w) ∧
      pointers dirs (setWord mem d x w) =
        Function.update (pointers dirs mem) (.pde i x) (target w) ∧
      spaces dirs (setWord mem d x w) = spaces dirs mem := by
  have hnew : ∀ t, target w = some t → t ≠ d ∧ ∀ y : Fin nptentries, mem t y = 0 := by
    intro t ht
    rcases hw with rfl | ⟨p, hp, -, -, -, hfresh, hz⟩
    · rw [target_zero] at ht
      cases ht
    · obtain rfl : p = t := Option.some.inj (hp.symm.trans ht)
      exact ⟨fun e => hfresh (.dir i) (e ▸ hd), hz⟩
  have hp : pointers dirs (setWord mem d x w) =
      Function.update (pointers dirs mem) (.pde i x) (target w) := by
    refine refMap_setTable h.excl hd (fun y => ?_) (fun t ht => ⟨(hnew t ht).1, fun y => ?_⟩)
    · exact pointers_pte.trans (by rw [hold y, target_zero])
    · rw [(hnew t ht).2 y, target_zero]
  have he : ∀ j (z : Fin pdxUtop) (k : Fin nptentries),
      entry dirs (setWord mem d x w) j z k = entry dirs mem j z k :=
    fun j z k => entryAt_setTable h.excl hd hold hnew j z k
  have hword : ∀ j e z, dirs j = some e →
      setWord mem d x w e z = if j = i ∧ z = x then w else mem e z := by
    intro j e z hj
    rw [setWord_apply]
    by_cases hji : j = i
    · subst hji
      obtain rfl : d = e := Option.some.inj (hd.symm.trans hj)
      simp
    · have hed : e ≠ d := by
        rintro rfl
        exact hji (by simpa using h.excl (.dir i) (.dir j) e trivial hd hj)
      simp [hji, hed]
  refine ⟨⟨?_, ?_, ?_, ?_, ?_, ?_, ?_⟩, hp, funext fun j => funext fun n => he j n.1 n.2⟩
  · rw [hp]
    rcases hw with rfl | ⟨p, htp, -, -, -, hfresh, -⟩
    · rw [target_zero]
      exact h.excl.update_none
    · rw [htp]
      exact h.excl.update_fresh hfresh
  · intro r f hr
    rw [hp, Function.update_apply] at hr
    split at hr
    · rcases hw with rfl | ⟨p, htp, -, -, hpm, -, -⟩
      · rw [target_zero] at hr
        cases hr
      · rw [htp] at hr
        exact Option.some.inj hr ▸ hpm
    · exact h.managed r f hr
  · intro j e z hj
    rw [hword j e z hj]
    split
    · rcases hw with rfl | ⟨p, htp, hW, hU, -⟩
      · exact Or.inl rfl
      · exact Or.inr ⟨(target_eq_some htp).1, hW, hU⟩
    · exact h.pde j e z hj
  · intro j z k
    rw [he]
    exact h.pte j z k
  · intro j e z hj hz hz'
    have hzx : z ≠ x := by
      have := x.isLt
      omega
    rw [hword j e z hj, if_neg (fun h => hzx h.2)]
    exact h.kern j e z hj hz hz'
  · intro j e hj
    have hzx : pdx uvpt ≠ x := by
      have := x.isLt
      have : pdxUtop < pdx uvpt := by decide
      omega
    rw [hword j e _ hj, if_neg (fun h => hzx h.2)]
    exact h.selfMap j e hj
  · intro f hf
    have hfd : f ≠ d := fun e => hf (e ▸ h.dir_managed hd)
    rw [setWord_of_ne hfd]
    exact h.other f hf

/-- A fresh page with no entry below `UTOP` becomes a page directory. -/
lemma newDir (h : TablesOk B dirs mem) (hi : dirs i = none) (hp : p ∈ B.freeList)
    (hfresh : ∀ r : PageRef ι, pointers dirs mem r ≠ some p)
    (hz : ∀ x : Fin pdxUtop, mem p x = 0)
    (hk : ∀ x, pdxUtop ≤ x → x < npdentries → x ≠ pdx uvpt → mem p x = B.mem B.kernPgdir x)
    (hs : mem p (pdx uvpt) = page2pa p ||| pteP ||| pteU) :
    TablesOk B (Function.update dirs i (some p)) mem ∧
      pointers (Function.update dirs i (some p)) mem =
        Function.update (pointers dirs mem) (.dir i) (some p) ∧
      spaces (Function.update dirs i (some p)) mem = spaces dirs mem := by
  have hold : ∀ x : Fin pdxUtop, tableAt target dirs mem i x = none := by
    intro x
    simp [tableAt, hi]
  have hnew : ∀ d, some p = some d → ∀ x : Fin pdxUtop, target (mem d x) = none := by
    intro d hd x
    obtain rfl := Option.some.inj hd
    rw [hz x, target_zero]
  have hptr : pointers (Function.update dirs i (some p)) mem =
      Function.update (pointers dirs mem) (.dir i) (some p) :=
    refMap_setDir hold hnew
  have he : ∀ j (z : Fin pdxUtop) (k : ℕ),
      entry (Function.update dirs i (some p)) mem j z k = entry dirs mem j z k :=
    fun j z k => entryAt_setDir hold hnew j z k
  have hcase : ∀ j d, Function.update dirs i (some p) j = some d →
      (j = i ∧ d = p) ∨ dirs j = some d := by
    intro j d hd
    by_cases hji : j = i
    · subst hji
      rw [Function.update_self] at hd
      exact Or.inl ⟨rfl, (Option.some.inj hd).symm⟩
    · rw [Function.update_of_ne hji] at hd
      exact Or.inr hd
  refine ⟨⟨?_, ?_, ?_, ?_, ?_, ?_, h.other⟩, hptr, funext fun j => funext fun n => he j n.1 n.2⟩
  · rw [hptr]
    exact h.excl.update_fresh hfresh
  · intro r f hr
    rw [hptr, Function.update_apply] at hr
    split at hr
    · exact Option.some.inj hr ▸ hp
    · exact h.managed r f hr
  · intro j d x hd
    rcases hcase j d hd with ⟨-, rfl⟩ | hd
    · exact Or.inl (hz x)
    · exact h.pde j d x hd
  · intro j x y
    rw [he]
    exact h.pte j x y
  · intro j d x hd hx hx' hxu
    rcases hcase j d hd with ⟨-, rfl⟩ | hd
    · exact hk x hx hx' hxu
    · exact h.kern j d x hd hx hx' hxu
  · intro j d hd
    rcases hcase j d hd with ⟨-, rfl⟩ | hd
    · exact hs
    · exact h.selfMap j d hd

/-- Dropping a page directory that leads nowhere. -/
lemma dropDir (h : TablesOk B dirs mem)
    (hold : ∀ x : Fin pdxUtop, tableAt target dirs mem i x = none) :
    TablesOk B (Function.update dirs i none) mem ∧
      pointers (Function.update dirs i none) mem =
        Function.update (pointers dirs mem) (.dir i) none ∧
      spaces (Function.update dirs i none) mem = spaces dirs mem := by
  have hnew : ∀ d, (none : Option ℕ) = some d → ∀ x : Fin pdxUtop, target (mem d x) = none := by
    intro d hd
    cases hd
  have hptr : pointers (Function.update dirs i none) mem =
      Function.update (pointers dirs mem) (.dir i) none :=
    refMap_setDir hold hnew
  have he : ∀ j (z : Fin pdxUtop) (k : ℕ),
      entry (Function.update dirs i none) mem j z k = entry dirs mem j z k :=
    fun j z k => entryAt_setDir hold hnew j z k
  have hcase : ∀ j d, Function.update dirs i none j = some d → dirs j = some d := by
    intro j d hd
    by_cases hji : j = i
    · subst hji
      rw [Function.update_self] at hd
      cases hd
    · rwa [Function.update_of_ne hji] at hd
  refine ⟨⟨?_, ?_, ?_, ?_, ?_, ?_, h.other⟩, hptr, funext fun j => funext fun n => he j n.1 n.2⟩
  · rw [hptr]
    exact h.excl.update_none
  · intro r f hr
    rw [hptr, Function.update_apply] at hr
    split at hr
    · cases hr
    · exact h.managed r f hr
  · exact fun j d x hd => h.pde j d x (hcase j d hd)
  · intro j x y
    rw [he]
    exact h.pte j x y
  · exact fun j d x hd => h.kern j d x (hcase j d hd)
  · exact fun j d hd => h.selfMap j d (hcase j d hd)

end TablesOk

end Family

end SistemasOperativos.Kern
