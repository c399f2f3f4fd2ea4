import SistemasOperativos.Kern.PmapRules

/-!
# Accesses to user memory

What a load or a store through a page directory needs and changes, for the kernel and for a
program, and what `user_mem_check` establishes.
-/

namespace SistemasOperativos.Kern

open Library

section Walk

variable {ι : Type} {B : Boot} {dirs : ι → Option ℕ} {mem : ℕ → ℕ → Word} {i : ι} {d : ℕ}
  {va pde pte : Word}

lemma walk_some (h : walk mem d va = some (pde, pte)) :
    ∃ t, target (mem d (pdx va)) = some t ∧ pde = mem d (pdx va) ∧ pte = mem t (ptx va) ∧
      target pte = some (pgnum pte) := by
  unfold walk at h
  simp only [bind, Option.bind_eq_some_iff, pure, Option.some.injEq, Prod.mk.injEq] at h
  obtain ⟨t, ht, f, hf, rfl, rfl⟩ := h
  refine ⟨t, ht, rfl, rfl, ?_⟩
  rw [hf, (target_eq_some hf).2]

/-- Below `UTOP` the walk reaches the entry of the address space, and the directory never
forbids anything. -/
lemma TablesOk.walk_some (h : TablesOk B dirs mem) (hd : dirs i = some d) (hva : va < utop)
    (hw : walk mem d va = some (pde, pte)) :
    pte = spaces dirs mem i (pageNo va hva) ∧ has pte pteP ∧ has pde pteW ∧ has pde pteU ∧
      pointers dirs mem (.pte i (pageNo va hva).1 (pageNo va hva).2) = some (pgnum pte) ∧
      ∃ t, tableAt target dirs mem i (pageNo va hva).1 = some t ∧ pde = mem d (pdx va) ∧
        pte = mem t (ptx va) ∧ target pde = some t := by
  obtain ⟨t, ht, rfl, rfl, hf⟩ := Kern.walk_some hw
  have htab : tableAt target dirs mem i (pdx va) = some t := by rw [tableAt_of_dir hd, ht]
  have hent : spaces dirs mem i (pageNo va hva) = mem t (ptx va) := entryAt_of_table htab
  have hpde := h.pde i d (pageNo va hva).1 hd
  refine ⟨hent.symm, (target_eq_some hf).1, ?_, ?_, ?_, t, htab, rfl, rfl, ht⟩
  · rcases hpde with h0 | h1
    · rw [show mem d (pdx va) = 0 from h0, target_zero] at ht
      cases ht
    · exact h1.2.1
  · rcases hpde with h0 | h1
    · rw [show mem d (pdx va) = 0 from h0, target_zero] at ht
      cases ht
    · exact h1.2.2
  · rw [pointers_pte]
    exact (congrArg target hent).trans hf

lemma TablesOk.walk_none (hd : dirs i = some d) (hva : va < utop)
    (hw : walk mem d va = none) : has (spaces dirs mem i (pageNo va hva)) pteP = false := by
  cases ht : target (mem d (pdx va)) with
  | none =>
    have h0 : spaces dirs mem i (pageNo va hva) = 0 :=
      entryAt_of_none ((tableAt_of_dir hd).trans ht)
    rw [h0]
    decide
  | some t =>
    have hent : spaces dirs mem i (pageNo va hva) = mem t (ptx va) :=
      entryAt_of_table ((tableAt_of_dir hd).trans ht)
    rw [hent, Bool.eq_false_iff]
    intro hP
    simp [walk, ht, target_of_present hP] at hw

/-- No program can write above `UTOP`. -/
lemma TablesOk.userWritable_lt (h : TablesOk B dirs mem) (hd : dirs i = some d)
    (hw : userWritable mem d va = true) : va < utop := by
  unfold userWritable at hw
  cases hwalk : walk mem d va with
  | none => simp [hwalk] at hw
  | some w =>
    obtain ⟨pde, pte⟩ := w
    simp only [hwalk, Bool.and_eq_true] at hw
    obtain ⟨⟨⟨-, hdW⟩, htU⟩, htW⟩ := hw
    obtain ⟨t, ht, rfl, rfl, -⟩ := Kern.walk_some hwalk
    by_contra hge
    have hx : pdxUtop ≤ pdx va := by
      have hge' : utop.toNat ≤ va.toNat := Nat.le_of_not_lt hge
      have hu : utop.toNat = 955 * 2 ^ 22 := by decide
      rw [pdx_eq_div]
      unfold pdxUtop
      omega
    by_cases hux : pdx va = pdx uvpt
    · rw [hux, h.selfMap i d hd, has_or, has_or] at hdW
      have hpa : has (page2pa d) pteW = false := by
        rw [has_pteW]
        exact getLsbD_page2pa d (by decide)
      rw [hpa] at hdW
      exact absurd hdW (by decide)
    · have hkern := h.kern i d (pdx va) hd hx (pdx_lt va) hux
      rw [hkern] at ht
      have htk : t ∈ B.kernTables := by
        rcases B.tables (pdx va) hx (pdx_lt va) hux with h0 | ⟨t', ht', htt⟩
        · rw [h0, target_zero] at ht
          cases ht
        · obtain rfl : t' = t := Option.some.inj (htt.symm.trans ht)
          exact ht'
      have hprot := B.protect t htk (ptx va)
      have htf : t ∉ B.freeList := fun hf => B.notMem_kernTables hf htk
      rw [h.other t htf] at htU htW
      rw [htU, htW] at hprot
      exact absurd hprot (by decide)

end Walk

/-! ### Stores -/

variable {ι : Type} [Fintype ι] {B : Boot} {dirs : ι → Option ℕ} {ext : ℕ → ℕ}
  {hand : Finset ℕ} {s : Pmap} {i : ι} {d : ℕ} {va : Word}

/-- Rewriting a frame that is neither a directory nor a table. -/
lemma PmapIn.setFrame (h : PmapIn B dirs ext hand s) {p : ℕ} (hp : p ∈ B.freeList)
    (hi : ∀ r : PageRef ι, r.Interior → pointers dirs s.mem r ≠ some p) (g : ℕ → Word) :
    PmapIn B dirs ext hand { s with mem := Function.update s.mem p g } ∧
      spaces dirs (Function.update s.mem p g) = spaces dirs s.mem := by
  obtain ⟨hT, hp', hS⟩ := h.tables.setFrame hp hi g
  refine ⟨⟨h.npages, h.kernPgdir, hT, ?_, ?_, ?_⟩, hS⟩
  · have hall := h.alloc
    rw [← hp'] at hall
    exact hall.congr rfl rfl rfl
  · intro f
    show refs (pointers dirs (Function.update s.mem p g)) f < 65536
    rw [hp']
    exact h.bound f
  · intro f hf
    show refs (pointers dirs (Function.update s.mem p g)) f = 0
    rw [hp']
    exact h.idle f hf

omit [Fintype ι] in
/-- The frame of a mapped user page is neither a directory nor a table. -/
lemma TablesOk.leaf (h : TablesOk B dirs s.mem) {n : PageNo} {f : ℕ}
    (hf : pointers dirs s.mem (.pte i n.1 n.2) = some f) (r : PageRef ι) (hr : r.Interior) :
    pointers dirs s.mem r ≠ some f := by
  intro hrf
  have := h.excl r (.pte i n.1 n.2) f hr hrf hf
  subst this
  exact hr

/-- A store to a mapped user page changes no table. -/
lemma PmapIn.setByte (h : PmapIn B dirs ext hand s) (hd : dirs i = some d) (hva : va < utop)
    {pde pte : Word} (hw : walk s.mem d va = some (pde, pte)) (off : ℕ) (b : Byte) :
    PmapIn B dirs ext hand { s with mem := Kern.setByte s.mem (pgnum pte) off b } ∧
      spaces dirs (Kern.setByte s.mem (pgnum pte) off b) = spaces dirs s.mem := by
  obtain ⟨-, -, -, -, hptr, -⟩ := h.tables.walk_some hd hva hw
  exact h.setFrame (h.tables.managed _ _ hptr) (h.tables.leaf hptr) _

/-- A store of the kernel below `UTOP` faults where the page is not mapped or not writable,
and otherwise leaves every table alone. -/
lemma storeByte_sat (h : PmapIn B dirs ext hand s) (hd : dirs i = some d) (hva : va < utop)
    (b : Byte) :
    Sat (storeByte d va b) s
      (fun _ t => (PmapIn B dirs ext hand t ∧ spaces dirs t.mem = spaces dirs s.mem) ∧
        has (spaces dirs s.mem i (pageNo va hva)) pteP ∧ has (spaces dirs s.mem i (pageNo va hva)) pteW)
      (fun e _ => e = .fault ∧ ¬(has (spaces dirs s.mem i (pageNo va hva)) pteP ∧
        has (spaces dirs s.mem i (pageNo va hva)) pteW)) := by
  unfold storeByte
  simp only [sat_bind, sat_get]
  cases hw : walk s.mem d va with
  | none =>
    refine sat_throw.mpr ⟨rfl, fun hc => ?_⟩
    rw [TablesOk.walk_none hd hva hw] at hc
    exact absurd hc.1 (by decide)
  | some w =>
    obtain ⟨pde, pte⟩ := w
    obtain ⟨hpte, hP, hdW, -⟩ := h.tables.walk_some hd hva hw
    simp only [hdW, Bool.true_and]
    cases hW : has pte pteW
    · simp only [Bool.not_false, if_true]
      refine sat_bind.mpr (sat_throw.mpr ⟨rfl, fun hc => ?_⟩)
      rw [← hpte, hW] at hc
      exact absurd hc.2 (by decide)
    · simp only [Bool.not_true, Bool.false_eq_true, if_false, sat_modify]
      refine ⟨h.setByte hd hva hw (pgoff va) b, ?_⟩
      rw [← hpte]
      exact ⟨hP, hW⟩

lemma ofNat_add (p : Word) (k m : ℕ) :
    p + BitVec.ofNat 32 k + BitVec.ofNat 32 m = p + BitVec.ofNat 32 (k + m) := by
  rw [BitVec.add_assoc, BitVec.ofNat_add]

/-- What the stores of the kernel below `UTOP` preserve. -/
def SameSpaces (B : Boot) (dirs : ι → Option ℕ) (ext : ℕ → ℕ) (hand : Finset ℕ)
    (S : ι → PageNo → Word) (s : Pmap) : Prop :=
  PmapIn B dirs ext hand s ∧ spaces dirs s.mem = S

/-- The byte `k` behind `u` is mapped writable. -/
def ByteWritable (S : PageNo → Word) (u : Word) (k : ℕ) : Prop :=
  ∀ h : u + BitVec.ofNat 32 k < utop, has (S (pageNo _ h)) pteP ∧ has (S (pageNo _ h)) pteW

section Stores

variable {S : ι → PageNo → Word} {u : Word} {n k : ℕ}

lemma probes_storeByte (hd : dirs i = some d) (hlt : u + BitVec.ofNat 32 k < utop) (b : Byte) :
    Probes (SameSpaces B dirs ext hand S) .fault (ByteWritable (S i) u) {k}
      (storeByte d (u + BitVec.ofNat 32 k) b) := by
  rintro s ⟨h, rfl⟩
  refine (storeByte_sat h hd hlt b).mono ?_ ?_
  · rintro - t ⟨ht, hw⟩
    refine ⟨ht, fun j hj _ => ?_⟩
    obtain rfl := Set.mem_singleton_iff.mp hj
    exact hw
  · rintro e - ⟨he, hw⟩
    exact ⟨he, k, Set.mem_singleton k, fun hok => hw (hok hlt)⟩

lemma probes_store32 (hd : dirs i = some d) (hu : u.toNat + n ≤ utop.toNat) (hk : k + 4 ≤ n)
    (w : Word) :
    Probes (SameSpaces B dirs ext hand S) .fault (ByteWritable (S i) u) {j | k ≤ j ∧ j < k + 4}
      (store32 d (u + BitVec.ofNat 32 k) w) := by
  have hlt : ∀ m, m < 4 → u + BitVec.ofNat 32 (k + m) < utop := by
    intro m hm
    have := utop.isLt
    rw [BitVec.lt_def, BitVec.toNat_add, BitVec.toNat_ofNat]
    omega
  have hbyte : ∀ m, m < 4 → ∀ b, Probes (SameSpaces B dirs ext hand S) .fault (ByteWritable (S i) u) {k + m}
      (storeByte d (u + BitVec.ofNat 32 k + BitVec.ofNat 32 m) b) :=
    fun m hm b => ofNat_add u k m ▸ probes_storeByte hd (hlt m hm) b
  unfold store32
  have h0 := hbyte 0 (by decide) (w.truncate 8)
  rw [show u + BitVec.ofNat 32 k + BitVec.ofNat 32 0 = u + BitVec.ofNat 32 k from BitVec.add_zero _] at h0
  refine Probes.congr (h0.bind fun _ => (hbyte 1 (by decide) _).bind fun _ => (hbyte 2 (by decide) _).bind
    fun _ => hbyte 3 (by decide) _) (fun j => ?_)
  simp only [Set.mem_union, Set.mem_singleton_iff, Set.mem_ofPred_eq]
  omega

/-- `page_fault_handler` writes 52 bytes. -/
lemma probes_storeUTrapframe (hd : dirs i = some d) (hu : u.toNat + 52 ≤ utop.toNat)
    (faultVa : Word) (tf : Trapframe) :
    Probes (SameSpaces B dirs ext hand S) .fault (ByteWritable (S i) u) {k | k < 52}
      (storeUTrapframe d u faultVa tf) := by
  have h32 : ∀ k w, k + 4 ≤ 52 → Probes (SameSpaces B dirs ext hand S) .fault (ByteWritable (S i) u)
      {j | k ≤ j ∧ j < k + 4} (store32 d (u + BitVec.ofNat 32 k) w) :=
    fun k w hk => probes_store32 hd hu hk w
  unfold storeUTrapframe
  have h0 := h32 0 faultVa (by decide)
  rw [show u + BitVec.ofNat 32 0 = u from BitVec.add_zero u] at h0
  apply Probes.congr
  · apply Probes.bind h0
    intro _
    apply Probes.bind (h32 4 _ (by decide))
    intro _
    apply Probes.bind (h32 8 _ (by decide))
    intro _
    apply Probes.bind (h32 12 _ (by decide))
    intro _
    apply Probes.bind (h32 16 _ (by decide))
    intro _
    apply Probes.bind (h32 20 _ (by decide))
    intro _
    apply Probes.bind (h32 24 _ (by decide))
    intro _
    apply Probes.bind (h32 28 _ (by decide))
    intro _
    apply Probes.bind (h32 32 _ (by decide))
    intro _
    apply Probes.bind (h32 36 _ (by decide))
    intro _
    apply Probes.bind (h32 44 _ (by decide))
    intro _
    apply Probes.bind (h32 40 _ (by decide))
    intro _
    exact h32 48 _ (by decide)
  · intro j
    simp only [Set.mem_union, Set.mem_ofPred_eq]
    omega

end Stores

/-! ### Loads -/

lemma loadByte_sat (cr3 : ℕ) (va : Word) :
    Sat (loadByte cr3 va) s
      (fun b t => t = s ∧ ∃ pde pte, walk s.mem cr3 va = some (pde, pte) ∧
        b = getByte s.mem (pgnum pte) (pgoff va))
      (fun e _ => e = .fault ∧ walk s.mem cr3 va = none) := by
  unfold loadByte
  simp only [sat_bind, sat_get]
  cases hw : walk s.mem cr3 va with
  | none => exact sat_throw.mpr ⟨rfl, rfl⟩
  | some w =>
    simp only [sat_bind, sat_get, sat_pure]
    exact ⟨trivial, w.1, w.2, rfl, rfl⟩

/-- The byte `k` behind `p` is mapped. -/
def ByteMapped (mem : ℕ → ℕ → Word) (cr3 : ℕ) (p : Word) (k : ℕ) : Prop :=
  walk mem cr3 (p + BitVec.ofNat 32 k) ≠ none

section Loads

variable {cr3 : ℕ} {p : Word} {k : ℕ}

lemma probes_loadByte (k : ℕ) :
    Probes (fun t => t = s) .fault (ByteMapped s.mem cr3 p) {k} (loadByte cr3 (p + BitVec.ofNat 32 k)) := by
  rintro t rfl
  refine (loadByte_sat cr3 _).mono ?_ ?_
  · rintro b u ⟨rfl, pde, pte, hw, -⟩
    refine ⟨rfl, fun j hj hnone => ?_⟩
    obtain rfl := Set.mem_singleton_iff.mp hj
    rw [hw] at hnone
    cases hnone
  · rintro e u ⟨he, hw⟩
    exact ⟨he, k, Set.mem_singleton k, fun hok => hok hw⟩

lemma probes_load16 (k : ℕ) :
    Probes (fun t => t = s) .fault (ByteMapped s.mem cr3 p) {j | k ≤ j ∧ j < k + 2}
      (load16 cr3 (p + BitVec.ofNat 32 k)) := by
  unfold load16
  apply Probes.congr
  · apply Probes.bind (probes_loadByte k)
    intro _
    apply Probes.bind (ofNat_add p k 1 ▸ probes_loadByte (k + 1))
    exact fun _ => Probes.pure _
  · intro j
    simp only [Set.mem_union, Set.mem_singleton_iff, Set.mem_empty_iff_false, or_false,
      Set.mem_ofPred_eq]
    omega

lemma probes_load32 (k : ℕ) :
    Probes (fun t => t = s) .fault (ByteMapped s.mem cr3 p) {j | k ≤ j ∧ j < k + 4}
      (load32 cr3 (p + BitVec.ofNat 32 k)) := by
  unfold load32
  apply Probes.congr
  · apply Probes.bind (probes_load16 k)
    intro _
    apply Probes.bind (ofNat_add p k 2 ▸ probes_load16 (k + 2))
    exact fun _ => Probes.pure _
  · intro j
    simp only [Set.mem_union, Set.mem_empty_iff_false, or_false, Set.mem_ofPred_eq]
    omega

lemma probes_loadPushRegs :
    Probes (fun t => t = s) .fault (ByteMapped s.mem cr3 p) {k | k < 32} (loadPushRegs cr3 p) := by
  unfold loadPushRegs
  have h0 : Probes (fun t => t = s) .fault (ByteMapped s.mem cr3 p) {j | 0 ≤ j ∧ j < 0 + 4}
      (load32 cr3 (p + BitVec.ofNat 32 0)) := probes_load32 0
  rw [show p + BitVec.ofNat 32 0 = p from BitVec.add_zero p] at h0
  apply Probes.congr
  · apply Probes.bind h0
    intro _
    apply Probes.bind (probes_load32 4)
    intro _
    apply Probes.bind (probes_load32 8)
    intro _
    apply Probes.bind (probes_load32 12)
    intro _
    apply Probes.bind (probes_load32 16)
    intro _
    apply Probes.bind (probes_load32 20)
    intro _
    apply Probes.bind (probes_load32 24)
    intro _
    apply Probes.bind (probes_load32 28)
    exact fun _ => Probes.pure _
  · intro j
    simp only [Set.mem_union, Set.mem_empty_iff_false, or_false, Set.mem_ofPred_eq]
    omega

/-- `sys_env_set_trapframe` reads 68 bytes. -/
lemma probes_loadTrapframe :
    Probes (fun t => t = s) .fault (ByteMapped s.mem cr3 p) {k | k < 68} (loadTrapframe cr3 p) := by
  unfold loadTrapframe
  apply Probes.congr
  · apply Probes.bind probes_loadPushRegs
    intro _
    apply Probes.bind (probes_load16 32)
    intro _
    apply Probes.bind (probes_load16 34)
    intro _
    apply Probes.bind (probes_load16 36)
    intro _
    apply Probes.bind (probes_load16 38)
    intro _
    apply Probes.bind (probes_load32 40)
    intro _
    apply Probes.bind (probes_load32 44)
    intro _
    apply Probes.bind (probes_load32 48)
    intro _
    apply Probes.bind (probes_load16 52)
    intro _
    apply Probes.bind (probes_load16 54)
    intro _
    apply Probes.bind (probes_load32 56)
    intro _
    apply Probes.bind (probes_load32 60)
    intro _
    apply Probes.bind (probes_load16 64)
    intro _
    apply Probes.bind (probes_load16 66)
    exact fun _ => Probes.pure _
  · intro j
    simp only [Set.mem_union, Set.mem_empty_iff_false, or_false, Set.mem_ofPred_eq]
    omega

end Loads

/-- The `%.*s` loop gets to byte `k` of the string at `p`: the precision allows it and no
earlier byte is null. -/
def StringReaches (mem : ℕ → ℕ → Word) (cr3 : ℕ) (p : Word) (precision : ℤ) (k : ℕ) : Prop :=
  (precision < 0 ∨ (k : ℤ) ≤ precision) ∧ ∀ j < k, ∃ pde pte,
    walk mem cr3 (p + BitVec.ofNat 32 j) = some (pde, pte) ∧
      getByte mem (pgnum pte) (pgoff (p + BitVec.ofNat 32 j)) ≠ 0

/-- The bytes that the loop gets to behind the first one. -/
lemma StringReaches.succ_iff {mem : ℕ → ℕ → Word} {cr3 k : ℕ} {p pde pte : Word} {precision q : ℤ}
    (hw : walk mem cr3 p = some (pde, pte)) (hch : getByte mem (pgnum pte) (pgoff p) ≠ 0)
    (hneg : precision < 0 ↔ q < 0) (hpos : 0 ≤ precision → q + 1 = precision) :
    StringReaches mem cr3 p precision (k + 1) ↔ StringReaches mem cr3 (p + 1) q k := by
  have hp0 : p + BitVec.ofNat 32 0 = p := BitVec.add_zero p
  have hk : ∀ j, p + 1 + BitVec.ofNat 32 j = p + BitVec.ofNat 32 (j + 1) := by
    intro j
    have := ofNat_add p 1 j
    rwa [Nat.add_comm 1 j] at this
  unfold StringReaches
  refine and_congr ?_ ?_
  · push_cast
    omega
  · constructor
    · intro h j hj
      rw [hk]
      exact h (j + 1) (by omega)
    · intro h j hj
      cases j with
      | zero => exact ⟨pde, pte, by rw [hp0]; exact hw, by rw [hp0]; exact hch⟩
      | succ j =>
        rw [← hk]
        exact h j (by omega)

/-- The byte at which the string is not mapped is one of the first `2 ^ 32`. -/
lemma StringReaches.lt {mem : ℕ → ℕ → Word} {cr3 k : ℕ} {p : Word} {precision : ℤ}
    (h : StringReaches mem cr3 p precision k) (hw : walk mem cr3 (p + BitVec.ofNat 32 k) = none) :
    k < 2 ^ 32 := by
  by_contra hge
  obtain ⟨pde, pte, hsome, -⟩ := h.2 (k - 2 ^ 32) (by omega)
  have hsame : BitVec.ofNat 32 (k - 2 ^ 32) = BitVec.ofNat 32 k := by
    apply BitVec.eq_of_toNat_eq
    rw [BitVec.toNat_ofNat, BitVec.toNat_ofNat]
    omega
  rw [hsame, hw] at hsome
  cases hsome

/-- The loop faults at a byte that it gets to, if one is not mapped. -/
lemma probes_vprintfmtString (cr3 fuel : ℕ) (p : Word) (precision : ℤ) :
    Probes (fun t => t = s) .fault (ByteMapped s.mem cr3 p)
      {k | k < fuel ∧ StringReaches s.mem cr3 p precision k} (vprintfmtString cr3 fuel p precision) := by
  induction fuel generalizing p precision with
  | zero =>
    refine (Probes.pure ()).congr (fun k => ?_)
    simp only [Set.mem_empty_iff_false, Set.mem_ofPred_eq, Nat.not_lt_zero, false_and]
  | succ fuel ih =>
    rintro t rfl
    unfold vprintfmtString
    rw [sat_bind]
    have hp0 : p + BitVec.ofNat 32 0 = p := BitVec.add_zero p
    have hk : ∀ k, ByteMapped t.mem cr3 (p + 1) k ↔ ByteMapped t.mem cr3 p (k + 1) := by
      intro k
      have := ofNat_add p 1 k
      rw [Nat.add_comm 1 k] at this
      rw [ByteMapped, ByteMapped, ← this]
      exact Iff.rfl
    refine (loadByte_sat cr3 p).mono ?_ ?_
    · rintro ch u ⟨rfl, pde, pte, hw, rfl⟩
      have hfirst : ByteMapped u.mem cr3 p 0 := by
        rw [ByteMapped, hp0, hw]
        simp
      simp only [sat_ite, sat_pure]
      refine ⟨fun hch => ⟨trivial, ?_⟩, fun hch => ?_⟩
      · rintro k ⟨-, -, hbytes⟩
        cases k with
        | zero => exact hfirst
        | succ k =>
          obtain ⟨pde', pte', hw', hch'⟩ := hbytes 0 (Nat.succ_pos k)
          rw [hp0] at hw' hch'
          obtain ⟨-, rfl⟩ := Prod.mk.inj (Option.some.inj (hw.symm.trans hw'))
          exact absurd hch hch'
      have hnext : ∀ q : ℤ, (precision < 0 ↔ q < 0) → (0 ≤ precision → q + 1 = precision) →
          Sat (vprintfmtString cr3 fuel (p + 1) q) u
            (fun _ v => v = u ∧ ∀ k ∈ {k | k < fuel + 1 ∧ StringReaches u.mem cr3 p precision k},
              ByteMapped u.mem cr3 p k)
            (fun e _ => e = .fault ∧ ∃ k ∈ {k | k < fuel + 1 ∧ StringReaches u.mem cr3 p precision k},
              ¬ByteMapped u.mem cr3 p k) := by
        intro q hneg hpos
        refine (ih (p + 1) q u rfl).mono ?_ ?_
        · rintro - v ⟨rfl, hall⟩
          refine ⟨rfl, ?_⟩
          rintro k ⟨hlt, hreach⟩
          cases k with
          | zero => exact hfirst
          | succ k =>
            rw [StringReaches.succ_iff hw hch hneg hpos] at hreach
            exact (hk k).mp (hall k ⟨Nat.lt_of_succ_lt_succ hlt, hreach⟩)
        · rintro e v ⟨he, k, ⟨hlt, hreach⟩, hbad⟩
          refine ⟨he, k + 1, ⟨Nat.succ_lt_succ hlt, ?_⟩, fun hok => hbad ((hk k).mpr hok)⟩
          exact (StringReaches.succ_iff hw hch hneg hpos).mpr hreach
      constructor
      · exact fun hlt => hnext precision Iff.rfl (fun h => by omega)
      · refine fun hge => ⟨fun hq => hnext (precision - 1) (by omega) (fun _ => by omega), fun hq => ?_⟩
        refine ⟨trivial, ?_⟩
        rintro k ⟨-, hprec, -⟩
        obtain rfl : k = 0 := by omega
        exact hfirst
    · rintro e u ⟨he, hnone⟩
      refine ⟨he, 0, ⟨Nat.succ_pos fuel, by push_cast; omega, fun j hj => by omega⟩, fun hok => ?_⟩
      rw [ByteMapped, hp0] at hok
      exact hok hnone

/-! ### `user_mem_check` -/

/-- The check of `user_mem_check`, page by page. A set of permission bits is accepted as soon
as one of them is present. -/
def MemChecked (dirs : ι → Option ℕ) (mem : ℕ → ℕ → Word) (i : ι) (va len perm : Word) : Prop :=
  ∀ page : Word, page.toNat % 4096 = 0 → rounddown va ≤ page → page < roundup (va + len) →
    page < ulim ∧ entry dirs mem i (pdx page) (ptx page) &&& perm ≠ 0

/-- Below `ULIM` every table and every frame a lookup reaches is physical memory. -/
lemma PmapIn.lookup_lt (h : PmapIn B dirs ext hand s) (hd : dirs i = some d) (hva : va < ulim) :
    (∀ t, tableAt target dirs s.mem i (pdx va) = some t → t < s.npages) ∧
      pgnum (entry dirs s.mem i (pdx va) (ptx va)) < s.npages := by
  by_cases hlow : va < utop
  · exact ⟨fun t ht => h.target_lt (r := .pde i (pageNo va hlow).1) ht,
      h.pgnum_lt i (pageNo va hlow)⟩
  have hx : pdxUtop ≤ pdx va ∧ pdx va ≤ pdx uvpt := by
    have h1 : utop.toNat ≤ va.toNat := Nat.le_of_not_lt hlow
    have h2 : va.toNat < ulim.toNat := hva
    have hu : utop.toNat = 955 * 2 ^ 22 := by decide
    have hl : ulim.toNat = 958 * 2 ^ 22 := by decide
    have hv : pdx uvpt = 957 := by decide
    rw [hv, pdx_eq_div]
    unfold pdxUtop
    omega
  have hd' : d < 2 ^ 20 := Nat.lt_trans (B.freeList_lt (h.tables.dir_managed hd)) B.npages_lt
  have hpd : page2pa d ||| pteP ||| pteU = page2pa d ||| pteU ||| pteP := by
    rw [BitVec.or_assoc, BitVec.or_comm pteP, ← BitVec.or_assoc]
  have hself : target (s.mem d (pdx uvpt)) = some d := by
    rw [h.tables.selfMap i d hd, hpd]
    exact target_entry hd' (by decide)
  rw [tableAt_of_dir hd]
  by_cases huv : pdx va = pdx uvpt
  · -- the directory seen as a table
    rw [huv]
    have htab : tableAt target dirs s.mem i (pdx uvpt) = some d := by
      rw [tableAt_of_dir hd, hself]
    constructor
    · intro t ht
      obtain rfl : d = t := Option.some.inj (hself.symm.trans ht)
      exact h.target_lt (r := .dir i) hd
    · have hent : entry dirs s.mem i (pdx uvpt) (ptx va) = s.mem d (ptx va) := entryAt_of_table htab
      rw [hent]
      by_cases hy : ptx va < pdxUtop
      · rcases h.tables.pde i d ⟨ptx va, hy⟩ hd with h0 | h1
        · rw [show s.mem d (ptx va) = 0 from h0]
          exact h.npages_pos
        · refine h.target_lt (r := .pde i ⟨ptx va, hy⟩) ?_
          rw [pointers, refMap_pde, tableAt_of_dir hd]
          exact target_of_present h1.1
      · by_cases hyu : ptx va = pdx uvpt
        · rw [hyu, (target_eq_some hself).2]
          exact h.target_lt (r := .dir i) hd
        · have hy' := Nat.le_of_not_lt hy
          rw [h.tables.kern i d (ptx va) hd hy' (ptx_lt va) hyu, h.npages]
          rcases B.tables (ptx va) hy' (ptx_lt va) hyu with h0 | ⟨t, ht, htt⟩
          · rw [h0]
            exact B.npages_pos
          · rw [(target_eq_some htt).2]
            exact B.kernTables_lt ht
  · have hkern := h.tables.kern i d (pdx va) hd hx.1 (pdx_lt va) huv
    have htab : ∀ t, target (s.mem d (pdx va)) = some t → t ∈ B.kernTables ∧
        ∀ y, pgnum (s.mem t y) < B.npages := by
      intro t ht
      rw [hkern] at ht
      have htk : t ∈ B.kernTables := by
        rcases B.tables (pdx va) hx.1 (pdx_lt va) huv with h0 | ⟨t', ht', htt⟩
        · rw [h0, target_zero] at ht
          cases ht
        · obtain rfl : t' = t := Option.some.inj (htt.symm.trans ht)
          exact ht'
      refine ⟨htk, fun y => ?_⟩
      rw [h.tables.other t (fun hf => B.notMem_kernTables hf htk)]
      exact B.frames (pdx va) t hx.1 (by omega) ht y
    constructor
    · intro t ht
      rw [h.npages]
      exact B.kernTables_lt (htab t ht).1
    · cases ht : target (s.mem d (pdx va)) with
      | none =>
        have h0 : entry dirs s.mem i (pdx va) (ptx va) = 0 :=
          entryAt_of_none ((tableAt_of_dir hd).trans ht)
        rw [h0]
        exact h.npages_pos
      | some t =>
        have hent : entry dirs s.mem i (pdx va) (ptx va) = s.mem t (ptx va) :=
          entryAt_of_table ((tableAt_of_dir hd).trans ht)
        rw [hent, h.npages]
        exact (htab t ht).2 _

lemma userMemCheckLoop_sat (h : PmapIn B dirs ext hand s) (hd : dirs i = some d)
    (va lastPage perm : Word) (fuel : ℕ) (auxPage : Word) (hal : auxPage.toNat % 4096 = 0)
    (hfuel : 2 ^ 20 ≤ fuel + auxPage.toNat / 4096) :
    Sat (userMemCheckLoop (some d) va lastPage perm fuel auxPage) s
      (fun r t => t = s ∧ (r = none ↔ ∀ page : Word, page.toNat % 4096 = 0 → auxPage ≤ page →
        page < lastPage → page < ulim ∧ entry dirs s.mem i (pdx page) (ptx page) &&& perm ≠ 0))
      (fun _ _ => False) := by
  induction fuel generalizing auxPage with
  | zero =>
    have := auxPage.isLt
    omega
  | succ fuel ih =>
    unfold userMemCheckLoop
    by_cases hlt : auxPage < lastPage
    · simp only [hlt, not_true_eq_false, if_false]
      -- the first page does not pass
      have hbad : ∀ {r : Option Word}, r ≠ none → ¬(auxPage < ulim ∧
          entry dirs s.mem i (pdx auxPage) (ptx auxPage) &&& perm ≠ 0) →
          (r = none ↔ ∀ page : Word, page.toNat % 4096 = 0 → auxPage ≤ page → page < lastPage →
            page < ulim ∧ entry dirs s.mem i (pdx page) (ptx page) &&& perm ≠ 0) :=
        fun hr hpage => iff_of_false hr (fun hall => hpage (hall auxPage hal (BitVec.le_refl _) hlt))
      by_cases hul : auxPage ≥ ulim
      · simp only [if_pos hul, sat_pure]
        exact ⟨trivial, hbad (by simp) (fun hpage => absurd hul (BitVec.not_le.mpr hpage.1))⟩
      · have hul' : auxPage < ulim := BitVec.not_le.mp hul
        obtain ⟨htl, hpl⟩ := h.lookup_lt hd hul'
        simp only [if_neg hul, sat_bind]
        refine (pageLookup_sat hd htl hpl).mono ?_ (fun _ _ h => h)
        rintro r t ⟨rfl, rfl⟩
        cases htab : tableAt target dirs t.mem i (pdx auxPage) with
        | none =>
          have h0 : entry dirs t.mem i (pdx auxPage) (ptx auxPage) = 0 := entryAt_of_none htab
          simp only [Option.map_none, sat_pure]
          refine ⟨trivial, hbad (by simp) (fun hpage => hpage.2 ?_)⟩
          rw [h0]
          exact BitVec.zero_and
        | some tb =>
          have hent : entry dirs t.mem i (pdx auxPage) (ptx auxPage) = t.mem tb (ptx auxPage) :=
            entryAt_of_table htab
          simp only [Option.map_some, sat_bind, readPte, sat_get, sat_pure]
          rw [sat_ite]
          constructor
          · intro hzero
            exact sat_pure.mpr ⟨rfl, hbad (by simp) (fun hpage => hpage.2 (hent ▸ hzero))⟩
          · intro hne
            have hnext : (auxPage + 0x1000).toNat = auxPage.toNat + 4096 := by
              have hb : auxPage.toNat < ulim.toNat := hul'
              have hl : ulim.toNat = 958 * 2 ^ 22 := by decide
              rw [BitVec.toNat_add, show (0x1000 : Word).toNat = 4096 from rfl]
              omega
            refine (ih (auxPage + 0x1000) (by omega) (by omega)).mono ?_ (fun _ _ h => h)
            rintro r u ⟨rfl, hr⟩
            refine ⟨rfl, hr.trans ⟨fun hall page hpal hle hpl => ?_, fun hall page hpal hle hpl => ?_⟩⟩
            · by_cases hpe : page = auxPage
              · subst hpe
                exact ⟨hul', by rw [hent]; exact hne⟩
              · refine hall page hpal ?_ hpl
                have hne' : page.toNat ≠ auxPage.toNat := fun e => hpe (BitVec.eq_of_toNat_eq e)
                have hle' : auxPage.toNat ≤ page.toNat := hle
                rw [BitVec.le_def, hnext]
                omega
            · rw [BitVec.le_def, hnext] at hle
              exact hall page hpal (BitVec.le_def.mpr (by omega)) hpl
    · simp only [hlt, not_false_eq_true, if_true, sat_pure]
      refine ⟨trivial, iff_of_true trivial (fun page _ hle hpl => ?_)⟩
      have hle' : auxPage.toNat ≤ page.toNat := hle
      have hpl' : page.toNat < lastPage.toNat := hpl
      exact absurd (show auxPage.toNat < lastPage.toNat by omega) hlt

/-- `user_mem_check` changes nothing and never leaves; it accepts if every page passes. -/
lemma userMemCheck_sat (h : PmapIn B dirs ext hand s) (hd : dirs i = some d)
    (va len perm : Word) :
    Sat (userMemCheck (some d) va len perm) s
      (fun r t => t = s ∧ (r = none ↔ MemChecked dirs s.mem i va len perm))
      (fun _ _ => False) := by
  unfold userMemCheck
  have hpages : 2 ^ 20 ≤ npdentries * nptentries := by decide
  generalize npdentries * nptentries = fuel at hpages
  exact userMemCheckLoop_sat h hd va (roundup (va + len)) perm fuel (rounddown va)
    (rounddown_aligned va) (Nat.le_trans hpages (Nat.le_add_right _ _))

/-! ### The accessed and dirty bits -/

lemma target_or_of_flags {w flags : Word} (hf : pgnum flags = 0) (hP : has flags pteP = false) :
    target (w ||| flags) = target w := by
  unfold target
  rw [has_or, hP, Bool.or_false, pgnum_or, hf, Nat.or_zero]

/-- The entry after an access. -/
def accessed (w : Word) (dirty : Bool) : Word := w ||| pteA ||| if dirty then pteD else 0

lemma target_accessed (w : Word) (dirty : Bool) : target (accessed w dirty) = target w := by
  unfold accessed
  rw [target_or_of_flags, target_or_of_flags] <;> cases dirty <;> decide

variable [DecidableEq ι] in
/-- The hardware changes one entry of the address space, and only its flags. -/
lemma PmapIn.markAccessed (h : PmapIn B dirs ext hand s) (hd : dirs i = some d)
    (hva : va < utop) (hw : (walk s.mem d va).isSome) (dirty : Bool) :
    PmapIn B dirs ext hand { s with mem := Kern.markAccessed s.mem d va dirty } ∧
      spaces dirs (Kern.markAccessed s.mem d va dirty) = setPage (spaces dirs s.mem) i
        (pageNo va hva) (accessed (spaces dirs s.mem i (pageNo va hva)) dirty) := by
  obtain ⟨⟨pde, pte⟩, hwalk⟩ := Option.isSome_iff_exists.mp hw
  obtain ⟨hpte, hP, hdW, hdU, hptr, t, htab, rfl, hptm, htgt⟩ :=
    h.tables.walk_some hd hva hwalk
  have htd : t ≠ d := fun e => h.tables.table_ne_dir htab hd e.symm
  have hpd : pgnum (s.mem d (pdx va)) = t := (target_eq_some htgt).2
  -- the directory entry keeps its target
  let mem₁ := setWord s.mem d (pdx va) (s.mem d (pdx va) ||| pteA)
  have hsame : ∀ f k, target (mem₁ f k) = target (s.mem f k) := by
    intro f k
    show target (setWord _ _ _ _ f k) = _
    rw [setWord_apply]
    split
    · rename_i hfk
      rw [hfk.1, hfk.2]
      exact target_or_of_flags (by decide) (by decide)
    · rfl
  have hmem₁ : ∀ f, f ≠ d → mem₁ f = s.mem f := fun f hf => setWord_of_ne hf
  have hptr₁ : pointers dirs mem₁ = pointers dirs s.mem :=
    refMap_congr (fun _ f _ _ k => hsame f k)
  have hent₁ : ∀ j (x : Fin pdxUtop) y, entry dirs mem₁ j x y = entry dirs s.mem j x y := by
    intro j x y
    refine entryAt_congr (fun e _ => hsame e x) (fun u hu => ?_)
    rw [hmem₁ u (fun e => h.tables.table_ne_dir hu hd e.symm)]
  have hword : ∀ j e x, dirs j = some e → x ≠ pdx va → mem₁ e x = s.mem e x := by
    intro j e x _ hx
    show setWord _ _ _ _ e x = _
    rw [setWord_apply, if_neg (fun hc => hx hc.2)]
  have hT₁ : TablesOk B dirs mem₁ := by
    refine ⟨hptr₁ ▸ h.tables.excl, fun r f hr => h.tables.managed r f (hptr₁ ▸ hr), ?_, ?_, ?_,
      ?_, ?_⟩
    · intro j e x he
      by_cases hc : e = d ∧ (x : ℕ) = pdx va
      · right
        have hval : mem₁ e x = s.mem d (pdx va) ||| pteA := by
          show setWord _ _ _ _ e x = _
          rw [setWord_apply, if_pos hc]
        rw [hval, has_or, has_or, has_or, hdW, hdU, (target_eq_some htgt).1]
        simp
      · have hval : mem₁ e x = s.mem e x := by
          show setWord _ _ _ _ e x = _
          rw [setWord_apply, if_neg hc]
        rw [hval]
        exact h.tables.pde j e x he
    · intro j x y
      rw [hent₁]
      exact h.tables.pte j x y
    · intro j e x he hx hx' hxu
      have hne : x ≠ pdx va := by
        have := pdx_lt_pdxUtop hva
        omega
      rw [hword j e x he hne]
      exact h.tables.kern j e x he hx hx' hxu
    · intro j e he
      have hne : pdx uvpt ≠ pdx va := by
        have := pdx_lt_pdxUtop hva
        have : pdxUtop < pdx uvpt := by decide
        omega
      rw [hword j e _ he hne]
      exact h.tables.selfMap j e he
    · intro f hf
      rw [hmem₁ f (fun e => hf (e ▸ h.tables.dir_managed hd))]
      exact h.tables.other f hf
  have htab₁ : tableAt target dirs mem₁ i (pageNo va hva).1 = some t := by
    rw [tableAt_of_dir hd]
    exact (hsame d _).trans htgt
  have hfm := h.tables.managed _ _ hptr
  have hleaf := h.tables.leaf hptr
  have hspace₁ : spaces dirs mem₁ = spaces dirs s.mem :=
    funext fun j => funext fun n => hent₁ j n.1 n.2
  have hpte₁ : mem₁ t (ptx va) = spaces dirs s.mem i (pageNo va hva) := by
    rw [hmem₁ t htd, ← hptm]
    exact hpte
  have hacc : target (accessed (mem₁ t (ptx va)) dirty) = some (pgnum pte) := by
    rw [target_accessed, hpte₁, ← hpte]
    exact target_of_present hP
  obtain ⟨hT, hptr', hS⟩ := hT₁.setEntry htab₁ (y := (pageNo va hva).2)
    (Or.inr ⟨pgnum pte, hacc, hfm, fun r hr => by rw [hptr₁]; exact hleaf r hr⟩)
  have hmem : Kern.markAccessed s.mem d va dirty =
      setWord mem₁ t (pageNo va hva).2 (accessed (mem₁ t (ptx va)) dirty) := by
    unfold Kern.markAccessed
    simp only [hpd]
    rfl
  have hptrs : pointers dirs (Kern.markAccessed s.mem d va dirty) = pointers dirs s.mem := by
    rw [hmem, hptr', hacc, hptr₁, ← hptr, Function.update_eq_self]
  refine ⟨⟨h.npages, h.kernPgdir, by rw [hmem]; exact hT, ?_, ?_, ?_⟩, ?_⟩
  · have hall := h.alloc
    rw [← hptrs] at hall
    exact hall.congr rfl rfl rfl
  · intro f
    show refs (pointers dirs (Kern.markAccessed s.mem d va dirty)) f < 65536
    rw [hptrs]
    exact h.bound f
  · intro f hf
    show refs (pointers dirs (Kern.markAccessed s.mem d va dirty)) f = 0
    rw [hptrs]
    exact h.idle f hf
  · rw [hmem, hS, hspace₁, hpte₁]

end SistemasOperativos.Kern
