import SistemasOperativos.Kern.UserMem

/-!
# What `user_mem_check` tells apart

The result of `user_mem_check` for any contents of the page tables, and when it is the one that a
check of every address would give.
-/

namespace SistemasOperativos.Kern

open Library

/-- The entry for `va` in the table that the directory `d` names. -/
def pteAt (s : Pmap) (d : ℕ) (va : Word) : Word := s.mem (pgnum (s.mem d (pdx va))) (ptx va)

/-- There is a table for `va`. -/
def TableThere (s : Pmap) (d : ℕ) (va : Word) : Prop := has (s.mem d (pdx va)) pteP = true

/-- The table for `va` and the frame in its entry exist. -/
def InMemory (s : Pmap) (d : ℕ) (va : Word) : Prop :=
  pgnum (s.mem d (pdx va)) < s.npages ∧ pgnum (pteAt s d va) < s.npages

/-- The test that the code makes of a page fails. -/
def Refused (s : Pmap) (d : ℕ) (perm page : Word) : Prop :=
  ulim ≤ page ∨ ¬TableThere s d page ∨ (InMemory s d page ∧ pteAt s d page &&& perm = 0)

/-- The test that the code makes of a page succeeds. -/
def Passes (s : Pmap) (d : ℕ) (perm page : Word) : Prop :=
  page < ulim ∧ TableThere s d page ∧ InMemory s d page ∧ pteAt s d page &&& perm ≠ 0

/-- The user may access the address `a` with the permissions `perm`. -/
def AddrOk (s : Pmap) (d : ℕ) (perm : Word) (a : ℕ) : Prop :=
  a < ulim.toNat ∧ ∃ pde pte, walk s.mem d (BitVec.ofNat 32 a) = some (pde, pte) ∧ pte &&& perm = perm

/-- The answer that the addresses from `va` on, `len` of them, call for: 0, or the lowest address
that fails. -/
def Answer (s : Pmap) (d : ℕ) (va len perm : Word) : Option Word → Prop
  | none => ∀ a, va.toNat ≤ a → a < va.toNat + len.toNat → AddrOk s d perm a
  | some x => va.toNat ≤ x.toNat ∧ x.toNat < va.toNat + len.toNat ∧ ¬AddrOk s d perm x.toNat ∧
    ∀ a, va.toNat ≤ a → a < x.toNat → AddrOk s d perm a

/-- `user_mem_check` gives this answer. -/
def CheckRight (s : Pmap) (d : ℕ) (va len perm : Word) : Prop :=
  ∃ r, userMemCheck (some d) va len perm s = .ok r s ∧ Answer s d va len perm r

/-- Of an empty range the code looks at one page or none. The first page that fails must be one
that the code looks at and that its own test refuses. -/
def CheckFits (s : Pmap) (d : ℕ) (va len perm : Word) : Prop :=
  (len = 0 → rounddown va < roundup va → Passes s d perm (rounddown va)) ∧
  (len ≠ 0 → ∀ page : Word, page.toNat % 4096 = 0 → rounddown va ≤ page →
    page.toNat < va.toNat + len.toNat →
    (∀ page' : Word, page'.toNat % 4096 = 0 → rounddown va ≤ page' → page' < page →
      AddrOk s d perm page'.toNat) →
    (AddrOk s d perm page.toNat → InMemory s d page) ∧
    (¬AddrOk s d perm page.toNat → page < roundup (va + len) ∧ Refused s d perm page))

variable {s : Pmap} {d a : ℕ} {va len perm page auxPage lastPage : Word}

/-! ### One page -/

lemma pageLookup_any (s : Pmap) (d : ℕ) (page : Word) :
    Sat (pageLookup (some d) page) s
      (fun r t => t = s ∧ ((r = none ∧ ¬TableThere s d page) ∨
        (TableThere s d page ∧ InMemory s d page ∧
          ∃ pp, r = some (pp, ⟨pgnum (s.mem d (pdx page)), ptx page⟩))))
      (fun ex _ => ex = .panic ∧ TableThere s d page ∧ ¬InMemory s d page) := by
  unfold pageLookup pgdirWalk readPte kaddr pa2page
  simp only [sat_bind, sat_get, sat_pure]
  by_cases hP : has (s.mem d (pdx page)) pteP = true
  · simp only [hP, Bool.not_true, Bool.false_eq_true, if_false, sat_bind, sat_get, sat_pure,
      pgnum_pteAddr, sat_ite, sat_throw]
    have hor : pteAt s d page ||| pteP ≠ 0 := by
      intro h
      have hbit := has_or (pteAt s d page) pteP pteP
      rw [h, show has pteP pteP = true by decide, Bool.or_true] at hbit
      exact absurd hbit (by decide)
    constructor
    · intro hge
      exact ⟨trivial, hP, fun hin => absurd hin.1 (Nat.not_lt.mpr hge)⟩
    · intro hlt
      refine ⟨fun hzero => absurd hzero hor, fun _ => ⟨fun hge => ?_, fun hlt' => ?_⟩⟩
      · exact ⟨trivial, hP, fun hin => absurd hin.2 (Nat.not_lt.mpr hge)⟩
      · exact ⟨trivial, .inr ⟨hP, ⟨Nat.not_le.mp hlt, Nat.not_le.mp hlt'⟩, _, rfl⟩⟩
  · rw [Bool.not_eq_true] at hP
    simp only [hP, Bool.not_false, if_true, sat_pure]
    refine ⟨trivial, .inl ⟨trivial, ?_⟩⟩
    unfold TableThere
    rw [hP]
    exact Bool.false_ne_true

/-! ### The loop -/

/-- The pages from `auxPage` up to `page` pass. -/
def PassUpTo (s : Pmap) (d : ℕ) (perm auxPage page : Word) : Prop :=
  ∀ page' : Word, page'.toNat % 4096 = 0 → auxPage ≤ page' → page' < page → Passes s d perm page'

/-- `page` is the first page that does not pass. -/
structure StopsAt (s : Pmap) (d : ℕ) (perm auxPage lastPage page : Word) : Prop where
  aligned : page.toNat % 4096 = 0
  le : auxPage ≤ page
  lt : page < lastPage
  before : PassUpTo s d perm auxPage page

lemma StopsAt.head (hal : auxPage.toNat % 4096 = 0) (hlt : auxPage < lastPage) :
    StopsAt s d perm auxPage lastPage auxPage :=
  ⟨hal, BitVec.le_refl _, hlt, fun _ _ hle hlt' => absurd hlt' (BitVec.not_lt.mpr hle)⟩

lemma PassUpTo.head (hal : auxPage.toNat % 4096 = 0)
    (hnext : (auxPage + 0x1000).toNat = auxPage.toNat + 4096) (hpass : Passes s d perm auxPage)
    (h : PassUpTo s d perm (auxPage + 0x1000) page) :
    PassUpTo s d perm auxPage page := by
  intro page' hal' hle hlt
  by_cases heq : page' = auxPage
  · rw [heq]
    exact hpass
  · have hne : page'.toNat ≠ auxPage.toNat := fun e => heq (BitVec.eq_of_toNat_eq e)
    have hle' : auxPage.toNat ≤ page'.toNat := hle
    apply h page' hal' ?_ hlt
    rw [BitVec.le_def, hnext]
    omega

lemma StopsAt.tail (hal : auxPage.toNat % 4096 = 0)
    (hnext : (auxPage + 0x1000).toNat = auxPage.toNat + 4096) (hpass : Passes s d perm auxPage)
    (h : StopsAt s d perm (auxPage + 0x1000) lastPage page) :
    StopsAt s d perm auxPage lastPage page := by
  refine ⟨h.aligned, ?_, h.lt, h.before.head hal hnext hpass⟩
  have hle : (auxPage + 0x1000).toNat ≤ page.toNat := h.le
  rw [BitVec.le_def]
  omega

lemma userMemCheckLoop_any (s : Pmap) (d : ℕ) (va lastPage perm : Word) (fuel : ℕ) (auxPage : Word)
    (hal : auxPage.toNat % 4096 = 0) (hfuel : 2 ^ 20 ≤ fuel + auxPage.toNat / 4096) :
    Sat (userMemCheckLoop (some d) va lastPage perm fuel auxPage) s
      (fun r t => t = s ∧ ((r = none ∧ PassUpTo s d perm auxPage lastPage) ∨
        ∃ page, StopsAt s d perm auxPage lastPage page ∧ Refused s d perm page ∧
          r = some (if page < va then va else page)))
      (fun _ _ => ∃ page, StopsAt s d perm auxPage lastPage page ∧ page < ulim ∧
        TableThere s d page ∧ ¬InMemory s d page) := by
  induction fuel generalizing auxPage with
  | zero =>
    have hlt := auxPage.isLt
    omega
  | succ fuel ih =>
    unfold userMemCheckLoop
    by_cases hlt : auxPage < lastPage
    · have hhead : StopsAt s d perm auxPage lastPage auxPage := .head hal hlt
      simp only [hlt, not_true_eq_false, if_false]
      by_cases hul : auxPage ≥ ulim
      · simp only [if_pos hul, sat_pure]
        exact ⟨trivial, .inr ⟨auxPage, hhead, .inl hul, rfl⟩⟩
      · have hul' : auxPage < ulim := BitVec.not_le.mp hul
        simp only [if_neg hul, sat_bind]
        refine (pageLookup_any s d auxPage).mono ?_ ?_
        · rintro r t ⟨rfl, ⟨rfl, hno⟩ | ⟨htab, hin, pp, rfl⟩⟩
          · exact sat_pure.mpr ⟨rfl, .inr ⟨auxPage, hhead, .inr (.inl hno), rfl⟩⟩
          · dsimp only
            unfold readPte
            simp only [sat_bind, sat_get, sat_pure, sat_ite]
            constructor
            · intro hzero
              exact ⟨trivial, .inr ⟨auxPage, hhead, .inr (.inr ⟨hin, hzero⟩), rfl⟩⟩
            · intro hne
              have hpass : Passes t d perm auxPage := ⟨hul', htab, hin, hne⟩
              have hnext : (auxPage + 0x1000).toNat = auxPage.toNat + 4096 := by
                have hb : auxPage.toNat < ulim.toNat := hul'
                have hl : ulim.toNat = 958 * 2 ^ 22 := by decide
                rw [BitVec.toNat_add, show (0x1000 : Word).toNat = 4096 from rfl]
                omega
              refine (ih (auxPage + 0x1000) (by omega) (by omega)).mono ?_ ?_
              · rintro r u ⟨rfl, ⟨rfl, hall⟩ | ⟨page, hstop, href, rfl⟩⟩
                · exact ⟨rfl, .inl ⟨rfl, hall.head hal hnext hpass⟩⟩
                · exact ⟨rfl, .inr ⟨page, hstop.tail hal hnext hpass, href, rfl⟩⟩
              · rintro - - ⟨page, hstop, hout⟩
                exact ⟨page, hstop.tail hal hnext hpass, hout⟩
        · rintro - - ⟨-, htab, hin⟩
          exact ⟨auxPage, hhead, hul', htab, hin⟩
    · simp only [hlt, not_false_eq_true, if_true, sat_pure]
      refine ⟨trivial, .inl ⟨trivial, ?_⟩⟩
      intro page' _ hle hlt'
      have hle' : auxPage.toNat ≤ page'.toNat := hle
      have hlt'' : page'.toNat < lastPage.toNat := hlt'
      exact absurd (show auxPage.toNat < lastPage.toNat by omega) hlt

lemma userMemCheck_any (s : Pmap) (d : ℕ) (va len perm : Word) :
    Sat (userMemCheck (some d) va len perm) s
      (fun r t => t = s ∧ ((r = none ∧ PassUpTo s d perm (rounddown va) (roundup (va + len))) ∨
        ∃ page, StopsAt s d perm (rounddown va) (roundup (va + len)) page ∧ Refused s d perm page ∧
          r = some (if page < va then va else page)))
      (fun _ _ => ∃ page, StopsAt s d perm (rounddown va) (roundup (va + len)) page ∧ page < ulim ∧
        TableThere s d page ∧ ¬InMemory s d page) := by
  unfold userMemCheck
  have hpages : 2 ^ 20 ≤ npdentries * nptentries := by decide
  generalize npdentries * nptentries = fuel at hpages
  exact userMemCheckLoop_any s d va (roundup (va + len)) perm fuel (rounddown va)
    (rounddown_aligned va) (Nat.le_trans hpages (Nat.le_add_right _ _))

/-! ### Addresses and pages -/

lemma ulim_toNat : ulim.toNat = 958 * 2 ^ 22 := by decide

lemma ofNat_toNat_lt (ha : a < 2 ^ 32) : (BitVec.ofNat 32 a).toNat = a := by
  rw [BitVec.toNat_ofNat, Nat.mod_eq_of_lt ha]

/-- All addresses of a page are alike. -/
lemma addrOk_page (ha : a < 2 ^ 32) : AddrOk s d perm (a - a % 4096) ↔ AddrOk s d perm a := by
  have hpage : a - a % 4096 < 2 ^ 32 := by omega
  have hpdx : pdx (BitVec.ofNat 32 (a - a % 4096)) = pdx (BitVec.ofNat 32 a) := by
    rw [pdx_eq_div, pdx_eq_div, ofNat_toNat_lt ha, ofNat_toNat_lt hpage]
    omega
  have hptx : ptx (BitVec.ofNat 32 (a - a % 4096)) = ptx (BitVec.ofNat 32 a) := by
    rw [ptx_eq_mod, ptx_eq_mod, ofNat_toNat_lt ha, ofNat_toNat_lt hpage]
    omega
  have hulim : a - a % 4096 < ulim.toNat ↔ a < ulim.toNat := by
    rw [ulim_toNat]
    omega
  unfold AddrOk walk
  rw [hpdx, hptx, hulim]

lemma not_addrOk_of_ge (ha : ulim.toNat ≤ a) : ¬AddrOk s d perm a :=
  fun h => absurd h.1 (Nat.not_lt.mpr ha)

/-- What the code refuses the user may not access. -/
lemma Refused.not_addrOk (h : Refused s d perm page) (hU : has perm pteU = true) :
    ¬AddrOk s d perm page.toNat := by
  rintro ⟨hlt, pde, pte, hwalk, hperm⟩
  rw [BitVec.ofNat_toNat, BitVec.setWidth_eq] at hwalk
  obtain ⟨t, ht, rfl, rfl, -⟩ := walk_some hwalk
  obtain ⟨hP, rfl⟩ := target_eq_some ht
  rcases h with hge | hno | ⟨-, hzero⟩
  · exact absurd hlt (Nat.not_lt.mpr hge)
  · exact hno hP
  · change pteAt s d page &&& perm = perm at hperm
    rw [hzero] at hperm
    rw [← hperm] at hU
    exact absurd hU (by decide)

lemma Passes.not_refused (h : Passes s d perm page) : ¬Refused s d perm page := by
  rintro (hge | hno | ⟨-, hzero⟩)
  · exact absurd h.1 (BitVec.not_lt.mpr hge)
  · exact hno h.2.1
  · exact h.2.2.2 hzero

lemma lt_of_lt_roundup (hal : page.toNat % 4096 = 0) (h : page < roundup (va + len)) :
    page.toNat < va.toNat + len.toNat := by
  have hlt : page.toNat < (roundup (va + len)).toNat := h
  have hbound := page.isLt
  rw [roundup_toNat, BitVec.toNat_add] at hlt
  omega

lemma lt_roundup (hlt : page.toNat < va.toNat + len.toNat) (hle : va.toNat + len.toNat ≤ ulim.toNat) :
    page < roundup (va + len) := by
  rw [ulim_toNat] at hle
  show page.toNat < (roundup (va + len)).toNat
  rw [roundup_toNat, BitVec.toNat_add]
  omega

/-- Where an address fails there is a page that fails. -/
lemma exists_bad_page (hlo : va.toNat ≤ a) (hhi : a < va.toNat + len.toNat)
    (hbad : ¬AddrOk s d perm a) : ∃ page : Word, page.toNat % 4096 = 0 ∧ rounddown va ≤ page ∧
      page.toNat < va.toNat + len.toNat ∧ ¬AddrOk s d perm page.toNat := by
  have key : ∀ b, va.toNat ≤ b → b ≤ a → b < 2 ^ 32 → ¬AddrOk s d perm b →
      ∃ page : Word, page.toNat % 4096 = 0 ∧ rounddown va ≤ page ∧
        page.toNat < va.toNat + len.toNat ∧ ¬AddrOk s d perm page.toNat := by
    intro b hlob hba hb hbadb
    have hpage : (BitVec.ofNat 32 (b - b % 4096)).toNat = b - b % 4096 := ofNat_toNat_lt (by omega)
    refine ⟨BitVec.ofNat 32 (b - b % 4096), ?_, ?_, ?_, ?_⟩
    · rw [hpage]
      omega
    · rw [BitVec.le_def, rounddown_toNat, hpage]
      omega
    · rw [hpage]
      omega
    · rw [hpage, addrOk_page hb]
      exact hbadb
  have hva := va.isLt
  have hulim := ulim_toNat
  by_cases ha : a < 2 ^ 32
  · exact key a hlo le_rfl ha hbad
  · by_cases hge : ulim.toNat ≤ va.toNat
    · exact key va.toNat le_rfl hlo hva (not_addrOk_of_ge hge)
    · exact key ulim.toNat (by omega) (by omega) (by omega) (not_addrOk_of_ge le_rfl)

/-- Where a page fails there is a first one. -/
lemma exists_first_bad {lo : Word} (hi : ℕ) (h : ∃ page : Word, page.toNat % 4096 = 0 ∧ lo ≤ page ∧
    page.toNat < hi ∧ ¬AddrOk s d perm page.toNat) : ∃ page : Word, page.toNat % 4096 = 0 ∧
      lo ≤ page ∧ page.toNat < hi ∧ ¬AddrOk s d perm page.toNat ∧
      ∀ page' : Word, page'.toNat % 4096 = 0 → lo ≤ page' → page' < page →
        AddrOk s d perm page'.toNat := by
  obtain ⟨page, hal, hlo, hhi, hbad⟩ := h
  induction hn : page.toNat using Nat.strong_induction_on generalizing page with
  | _ n ih =>
    by_cases hall : ∀ page' : Word, page'.toNat % 4096 = 0 → lo ≤ page' → page' < page →
        AddrOk s d perm page'.toNat
    · exact ⟨page, hal, hlo, hhi, hbad, hall⟩
    · push Not at hall
      obtain ⟨page', hal', hlo', hlt, hbad'⟩ := hall
      have hlt' : page'.toNat < page.toNat := hlt
      exact ih page'.toNat (by omega) page' hal' hlo' (by omega) hbad' rfl

/-- The lowest address of the range on the first page that fails. -/
lemma answer_first (hlen : len ≠ 0) (hlt : page.toNat < va.toNat + len.toNat)
    (hbad : ¬AddrOk s d perm page.toNat) (hal : page.toNat % 4096 = 0) (hle : rounddown va ≤ page)
    (hok : ∀ page' : Word, page'.toNat % 4096 = 0 → rounddown va ≤ page' → page' < page →
      AddrOk s d perm page'.toNat) :
    Answer s d va len perm (some (if page < va then va else page)) := by
  have hle' : (rounddown va).toNat ≤ page.toNat := hle
  have hpos : len.toNat ≠ 0 := fun h => hlen (BitVec.eq_of_toNat_eq h)
  have hx : ∀ x : Word, x.toNat = max va.toNat page.toNat → Answer s d va len perm (some x) := by
    intro x hx
    rw [rounddown_toNat] at hle'
    have hmod : x.toNat - x.toNat % 4096 = page.toNat := by omega
    refine ⟨by omega, by omega, ?_, ?_⟩
    · rw [← addrOk_page x.isLt, hmod]
      exact hbad
    · intro a hlo hhi
      have ha : a < 2 ^ 32 := Nat.lt_trans hhi x.isLt
      have hpage : (BitVec.ofNat 32 (a - a % 4096)).toNat = a - a % 4096 := ofNat_toNat_lt (by omega)
      have h := hok (BitVec.ofNat 32 (a - a % 4096)) (by rw [hpage]; omega)
        (by rw [BitVec.le_def, rounddown_toNat, hpage]; omega)
        (by rw [BitVec.lt_def, hpage]; omega)
      rw [hpage, addrOk_page ha] at h
      exact h
  apply hx
  split
  · rename_i h
    have h : page.toNat < va.toNat := h
    omega
  · rename_i h
    have h : ¬page.toNat < va.toNat := h
    omega

/-- An answer names the first page that fails. -/
lemma Answer.first (hal : page.toNat % 4096 = 0) (hle : rounddown va ≤ page)
    (h : Answer s d va len perm (some (if page < va then va else page))) :
    ¬AddrOk s d perm page.toNat ∧ ∀ page' : Word, page'.toNat % 4096 = 0 → rounddown va ≤ page' →
      page' < page → AddrOk s d perm page'.toNat := by
  have hle' : (rounddown va).toNat ≤ page.toNat := hle
  rw [rounddown_toNat] at hle'
  have hx : (if page < va then va else page).toNat = max va.toNat page.toNat := by
    split
    · rename_i h
      have h : page.toNat < va.toNat := h
      omega
    · rename_i h
      have h : ¬page.toNat < va.toNat := h
      omega
  generalize (if page < va then va else page) = x at h hx
  obtain ⟨-, -, hbad, hok⟩ := h
  constructor
  · have hmod : x.toNat - x.toNat % 4096 = page.toNat := by omega
    rw [← addrOk_page x.isLt, hmod] at hbad
    exact hbad
  · intro page' hal' hlo hlt
    have hlt' : page'.toNat < page.toNat := hlt
    have hlo' : (rounddown va).toNat ≤ page'.toNat := hlo
    rw [rounddown_toNat] at hlo'
    have hmax : max va.toNat page'.toNat < 2 ^ 32 := by
      have h1 := va.isLt
      have h2 := page'.isLt
      omega
    have h := hok (max va.toNat page'.toNat) (by omega) (by omega)
    rw [← addrOk_page hmax] at h
    have hmod : max va.toNat page'.toNat - max va.toNat page'.toNat % 4096 = page'.toNat := by omega
    rw [hmod] at h
    exact h

/-! ### When the answer is right -/

lemma answer_none (h : ∀ page : Word, page.toNat % 4096 = 0 → rounddown va ≤ page →
    page.toNat < va.toNat + len.toNat → AddrOk s d perm page.toNat) :
    Answer s d va len perm none := by
  intro a hlo hhi
  by_contra hbad
  obtain ⟨page, hal, hle, hlt, hbad'⟩ := exists_bad_page hlo hhi hbad
  exact hbad' (h page hal hle hlt)

/-- When every address is right, the pages of the range are. -/
lemma Answer.ok_page (h : Answer s d va len perm none) (hal : page.toNat % 4096 = 0)
    (hle : rounddown va ≤ page) (hlt : page.toNat < va.toNat + len.toNat) (hlen : len ≠ 0) :
    AddrOk s d perm page.toNat := by
  have hle' : (rounddown va).toNat ≤ page.toNat := hle
  have hpos : len.toNat ≠ 0 := fun h => hlen (BitVec.eq_of_toNat_eq h)
  have h1 := va.isLt
  have h2 := page.isLt
  rw [rounddown_toNat] at hle'
  have hok := h (max va.toNat page.toNat) (by omega) (by omega)
  rw [← addrOk_page (by omega)] at hok
  have hmod : max va.toNat page.toNat - max va.toNat page.toNat % 4096 = page.toNat := by omega
  rw [hmod] at hok
  exact hok

/-- A range all of whose pages are right ends below `ULIM`. -/
lemma Answer.le_ulim (h : Answer s d va len perm none) (hlen : len ≠ 0) :
    va.toNat + len.toNat ≤ ulim.toNat := by
  have hpos : len.toNat ≠ 0 := fun h => hlen (BitVec.eq_of_toNat_eq h)
  have hlast := (h (va.toNat + len.toNat - 1) (by omega) (by omega)).1
  omega

/-- Without addresses the only right answer is 0. -/
lemma answer_empty (r : Option Word) : Answer s d va 0 perm r ↔ r = none := by
  have hzero : (0 : Word).toNat = 0 := rfl
  cases r with
  | none =>
    refine ⟨fun _ => rfl, fun _ => ?_⟩
    intro a hlo hhi
    omega
  | some x =>
    refine ⟨?_, fun h => by cases h⟩
    rintro ⟨hlo, hhi, -⟩
    omega

lemma checkRight_empty : CheckRight s d va 0 perm ↔
    (rounddown va < roundup va → Passes s d perm (rounddown va)) := by
  have hadd : va + 0 = va := BitVec.add_zero va
  have hcheck := userMemCheck_any s d va 0 perm
  rw [hadd] at hcheck
  have hal := rounddown_aligned va
  -- at most one page is looked at
  have hone : ∀ page : Word, page.toNat % 4096 = 0 → rounddown va ≤ page → page < roundup va →
      page = rounddown va := by
    intro page hpage hle hlt
    have hle' : (rounddown va).toNat ≤ page.toNat := hle
    have hlt' : page.toNat < (roundup va).toNat := hlt
    have hbound := page.isLt
    rw [rounddown_toNat] at hle'
    rw [roundup_toNat] at hlt'
    apply BitVec.eq_of_toNat_eq
    rw [rounddown_toNat]
    omega
  constructor
  · rintro ⟨r, hrun, hanswer⟩ hlt
    obtain rfl := (answer_empty r).mp hanswer
    obtain ⟨-, ⟨-, hall⟩ | ⟨page, -, -, hr⟩⟩ := hcheck.of_ok hrun
    · exact hall (rounddown va) hal (BitVec.le_refl _) hlt
    · cases hr
  · intro hpass
    have hstop : ∀ page, StopsAt s d perm (rounddown va) (roundup va) page → Passes s d perm page := by
      intro page hstop
      have heq := hone page hstop.aligned hstop.le hstop.lt
      have hlt := hstop.lt
      rw [heq] at hlt ⊢
      exact hpass hlt
    cases hrun : userMemCheck (some d) va 0 perm s with
    | ok r t =>
      obtain ⟨rfl, ⟨rfl, -⟩ | ⟨page, hpage, href, -⟩⟩ := hcheck.of_ok hrun
      · exact ⟨none, hrun, (answer_empty none).mpr rfl⟩
      · exact absurd href (hstop page hpage).not_refused
    | error ex t =>
      obtain ⟨page, hpage, -, -, hout⟩ := hcheck.of_error hrun
      exact absurd (hstop page hpage).2.2.1 hout

lemma CheckRight.fits (h : CheckRight s d va len perm) (hlen : len ≠ 0) : CheckFits s d va len perm := by
  obtain ⟨r, hrun, hanswer⟩ := h
  refine ⟨fun hzero => absurd hzero hlen, fun _ page hal hle hlt hbefore => ?_⟩
  obtain ⟨-, ⟨rfl, hall⟩ | ⟨q, hq, href, rfl⟩⟩ := (userMemCheck_any s d va len perm).of_ok hrun
  · have hok := hanswer.ok_page hal hle hlt hlen
    have hpass := hall page hal hle (lt_roundup hlt (hanswer.le_ulim hlen))
    exact ⟨fun _ => hpass.2.2.1, fun hbad => absurd hok hbad⟩
  · obtain ⟨hbad, hfirst⟩ := hanswer.first hq.aligned hq.le
    rcases Nat.lt_trichotomy page.toNat q.toNat with hpq | hpq | hpq
    · have hok := hfirst page hal hle hpq
      exact ⟨fun _ => (hq.before page hal hle hpq).2.2.1, fun hno => absurd hok hno⟩
    · obtain rfl := BitVec.eq_of_toNat_eq hpq
      exact ⟨fun hok => absurd hok hbad, fun _ => ⟨hq.lt, href⟩⟩
    · exact absurd (hbefore q hq.aligned hq.le hpq) hbad

lemma CheckFits.right (h : CheckFits s d va len perm) (hU : has perm pteU = true)
    (hlen : len ≠ 0) : CheckRight s d va len perm := by
  have hfits := h.2 hlen
  have hcheck := userMemCheck_any s d va len perm
  -- a page that fails is refused, and the pages before the one where the loop stops pass
  have hfirst : ∀ q : Word, PassUpTo s d perm (rounddown va) q →
      (∀ page : Word, page.toNat % 4096 = 0 → rounddown va ≤ page → page < q →
        page.toNat < va.toNat + len.toNat → AddrOk s d perm page.toNat) := by
    intro q hpass page hal hle hlt hrange
    by_contra hbad
    obtain ⟨page', hal', hle', hlt', hbad', hbefore⟩ := exists_first_bad (page.toNat + 1)
      ⟨page, hal, hle, Nat.lt_succ_self _, hbad⟩
    have href := ((hfits page' hal' hle' (by omega) hbefore).2 hbad').2
    have hlt'' : page' < q := by
      have h' : page.toNat < q.toNat := hlt
      exact show page'.toNat < q.toNat by omega
    exact (hpass page' hal' hle' hlt'').not_refused href
  cases hrun : userMemCheck (some d) va len perm s with
  | ok r t =>
    obtain ⟨rfl, ⟨rfl, hall⟩ | ⟨q, hq, href, rfl⟩⟩ := hcheck.of_ok hrun
    · refine ⟨none, hrun, ?_⟩
      apply answer_none
      intro page hal hle hlt
      by_contra hbad
      obtain ⟨page', hal', hle', hlt', hbad', hbefore⟩ :=
        exists_first_bad _ ⟨page, hal, hle, hlt, hbad⟩
      obtain ⟨hlast, href⟩ := (hfits page' hal' hle' hlt' hbefore).2 hbad'
      exact (hall page' hal' hle' hlast).not_refused href
    · refine ⟨_, hrun, ?_⟩
      have hrange := lt_of_lt_roundup hq.aligned hq.lt
      apply answer_first hlen hrange (href.not_addrOk hU) hq.aligned hq.le
      intro page hal hle hlt
      have hlt' : page.toNat < q.toNat := hlt
      exact hfirst q hq.before page hal hle hlt (by omega)
  | error ex t =>
    obtain ⟨q, hq, hlt, htab, hout⟩ := hcheck.of_error hrun
    have hrange := lt_of_lt_roundup hq.aligned hq.lt
    have hbefore : ∀ page : Word, page.toNat % 4096 = 0 → rounddown va ≤ page → page < q →
        AddrOk s d perm page.toNat := by
      intro page hal hle hpq
      have hpq' : page.toNat < q.toNat := hpq
      exact hfirst q hq.before page hal hle hpq (by omega)
    obtain ⟨hin, href⟩ := hfits q hq.aligned hq.le hrange hbefore
    by_cases hok : AddrOk s d perm q.toNat
    · exact absurd (hin hok) hout
    · rcases (href hok).2 with hge | hno | ⟨hin', -⟩
      · exact absurd hlt (BitVec.not_lt.mpr hge)
      · exact absurd htab hno
      · exact absurd hin' hout

/-- `user_mem_check` gives the answer that a check of every address would give, with all the bits
of `perm`, exactly when it looks at the first page that fails and refuses it. -/
theorem checkRight_iff (s : Pmap) (d : ℕ) (va len perm : Word) (hU : has perm pteU = true) :
    CheckRight s d va len perm ↔ CheckFits s d va len perm := by
  by_cases hlen : len = 0
  · subst hlen
    rw [checkRight_empty]
    exact ⟨fun h => ⟨fun _ => h, fun hne => absurd rfl hne⟩, fun h => h.1 rfl⟩
  · exact ⟨fun h => h.fits hlen, fun h => h.right hU hlen⟩

/-- A machine with a page for the user at `0x1000` that may only be read. -/
def readOnly : Pmap where
  npages := 4
  kernPgdir := 0
  mem := fun f x =>
    if f = 1 ∧ x = 0 then page2pa 2 ||| pteP ||| pteW ||| pteU
    else if f = 2 ∧ x = 1 then page2pa 3 ||| pteP ||| pteU
    else 0
  ppRef := fun _ => 0
  ppLink := fun _ => none
  pageFreeList := none

theorem checkRight_iff_readOnly : has pteU pteU = true ∧
    (CheckRight readOnly 1 0x1000 1 pteU ↔ CheckFits readOnly 1 0x1000 1 pteU) :=
  ⟨by decide, checkRight_iff readOnly 1 0x1000 1 pteU (by decide)⟩

/-- The page passes the check for writing. -/
theorem check_readOnly_fails : has (pteU ||| pteW) pteU = true ∧
    ¬CheckRight readOnly 1 0x1000 1 (pteU ||| pteW) := by
  refine ⟨by decide, ?_⟩
  rintro ⟨r, hrun, hanswer⟩
  have hnone : resultOf (userMemCheck (some 1) 0x1000 1 (pteU ||| pteW)) readOnly = some none := by
    decide +kernel
  have hok := eq_ok_of_resultOf hnone
  rw [hok] at hrun
  injection hrun with hr _
  subst hr
  obtain ⟨-, pde, pte, hwalk, hperm⟩ := hanswer 0x1000 (by decide) (by decide)
  have hpte : walk readOnly.mem 1 0x1000 =
      some (page2pa 2 ||| pteP ||| pteW ||| pteU, page2pa 3 ||| pteP ||| pteU) := by decide
  rw [show BitVec.ofNat 32 0x1000 = (0x1000 : Word) from rfl, hpte] at hwalk
  injection hwalk with hpair
  injection hpair with _ heq
  rw [← heq] at hperm
  exact absurd hperm (by decide)

end SistemasOperativos.Kern
