import SistemasOperativos.Kern.KernelRuns

/-!
# What a user mapping can be

Every mapping below `UTOP` points to a user page, has the flags of a user page, and is writable
only if it was made writable by `sys_page_alloc` or copied from a writable mapping. The calls
check too little for this to hold of every run: `MappingGuard` is what they leave out.
-/

namespace SistemasOperativos.Kern

open Library

/-- The mapping at `n` in the space of `e` points to a page that was on the free list after
boot and is used neither as a page directory nor as a page table, and has the flags of a user
page. -/
structure MappingOk (B : Boot) (s : Kernel) (e : EnvIdx) (n : PageNo) : Prop where
  taken : pgnum (spacesOf s e n) ∈ B.freeList
  ne_zero : pgnum (spacesOf s e n) ≠ 0
  lt : pgnum (spacesOf s e n) < B.npages
  notTable : ∀ r : PageRef EnvIdx, r.Interior →
    pointers (dirsOf s) s.pm.mem r ≠ some (pgnum (spacesOf s e n))
  notKernel : pgnum (spacesOf s e n) ≠ B.kernPgdir ∧ pgnum (spacesOf s e n) ∉ B.kernTables
  entry : UserEntry (spacesOf s e n)

/-- The run `h` to `s` made the mapping at `n` in the space of `e` writable: it is one of the
first programs, or `sys_page_alloc` made it with `PTE_W`, or it was copied from a mapping that
had `PTE_W`. -/
inductive MadeWritable (B : Boot) : List (Move Kernel Event) → Kernel → EnvIdx → PageNo → Prop
  | boot {s : Kernel} {e : EnvIdx} {n : PageNo} (hs : Booted B s) : MadeWritable B [] s e n
  | kept {h : List (Move Kernel Event)} {s t : Kernel} {ev : Event} {e : EnvIdx} {n : PageNo}
      (hm : MadeWritable B h s e n) (hW : has (spacesOf s e n) pteW = true)
      (hsame : pgnum (spacesOf t e n) = pgnum (spacesOf s e n)) :
      MadeWritable B (h ++ [⟨s, ev, t⟩]) t e n
  | alloc {h : List (Move Kernel Event)} {s s' t : Kernel} {ev : Event} {c e : EnvIdx}
      {call : Call} (hcall : Calls s ev s' c call) (hno : call.no.toNat = 4)
      (he : envOf s' c call.a1 true = some e) (hva : call.a2 < utop)
      (hW : has call.a3 pteW = true) :
      MadeWritable B (h ++ [⟨s, ev, t⟩]) t e (pageNo call.a2 hva)
  | copied {h : List (Move Kernel Event)} {s s' t : Kernel} {ev : Event} {c se de : EnvIdx}
      {call : Call} {n m : PageNo} {perm : Word} (hcall : Calls s ev s' c call)
      (hsh : Shares s' c call se n de m perm) (hm : MadeWritable B h s se n)
      (hW : has (spacesOf s se n) pteW = true)
      (hsame : pgnum (spacesOf t de m) = pgnum (spacesOf s se n)) :
      MadeWritable B (h ++ [⟨s, ev, t⟩]) t de m

/-- Every mapping of every live environment is as it should be. -/
def MappingsOk (B : Boot) (h : List (Move Kernel Event)) (s : Kernel) : Prop :=
  ∀ e n, (s.envs e).envStatus ≠ .free → has (spacesOf s e n) pteP = true →
    MappingOk B s e n ∧ (has (spacesOf s e n) pteW = true → MadeWritable B h s e n)

/-- What the calls do not check of a permission word. -/
structure MappingGuard (s : Kernel) (c : EnvIdx) (call : Call) : Prop where
  alloc : call.no.toNat = 4 → call.a3 &&& ~~~pteSyscall = 0 →
    call.a3 &&& (pteU ||| pteP) ≠ 0 → has call.a3 pteU = true
  share : ∀ se n de m perm, Shares s c call se n de m perm →
    perm &&& ~~~(pteSyscall ||| pteA ||| pteD) = 0

/-- The condition on one step. -/
structure MappingEventGuard (s : Kernel) (ev : Event) : Prop where
  kernel : EventGuard s ev
  call : ∀ s' c call, Calls s ev s' c call → MappingGuard s' c call

variable {B : Boot} {s t : Kernel} {ev : Event} {h : List (Move Kernel Event)} {c e : EnvIdx}
  {n : PageNo} {call : Call}

/-- What a run keeps of the address spaces. -/
structure SpacesOk (B : Boot) (h : List (Move Kernel Event)) (s : Kernel) : Prop where
  kernel : KernelOk B s
  entries : EntriesOk (spacesOf s)
  writable : ∀ e n, has (spacesOf s e n) pteW = true → MadeWritable B h s e n

lemma has_zero (k : Word) : has 0 k = false := by
  unfold has
  rw [show (0 : Word) &&& k = 0 from BitVec.zero_and]
  rfl

/-- The flags of a mapping a call makes. -/
lemma Shares.flags {s : Kernel} {se de : EnvIdx} {m : PageNo} {perm : Word}
    (h : Shares s c call se n de m perm) :
    has perm pteU = true ∧ (has perm pteW = true → has (spacesOf s se n) pteW = true) := by
  cases h with
  | map hno hs hd h =>
    refine ⟨?_, h.writable⟩
    have hU : (pteU ||| pteP).getLsbD 2 = true := by decide
    have hbit : (call.a5 &&& (pteU ||| pteP)).getLsbD 2 = true := by
      rw [h.perm]
      exact hU
    rw [BitVec.getLsbD_and, hU, Bool.and_true] at hbit
    rw [has_pteU]
    exact hbit
  | send hno he hrecv hs hd h => exact ⟨h.user, h.writable⟩

lemma bits_weaken {perm : Word} (h : perm &&& ~~~pteSyscall = 0) :
    perm &&& ~~~(pteSyscall ||| pteA ||| pteD) = 0 := by
  have heq : ~~~(pteSyscall ||| pteA ||| pteD) =
      ~~~pteSyscall &&& ~~~(pteSyscall ||| pteA ||| pteD) := by decide
  rw [heq, ← BitVec.and_assoc, h]
  exact BitVec.zero_and

lemma UserEntry.accessed {w : Word} (h : UserEntry w) (dirty : Bool) :
    UserEntry (accessed w dirty) := by
  have hflag : ∀ k : Word, has k pteP = false → has w pteP = true → has (w ||| k) pteP = true := by
    intro k _ hP
    rw [has_or, hP, Bool.true_or]
  obtain ⟨hP, hU, hb⟩ := h
  have hor : ∀ k : Word, k &&& ~~~(pteSyscall ||| pteA ||| pteD) = 0 → UserEntry (w ||| k) := by
    intro k hk
    refine ⟨by rw [has_or, hP, Bool.true_or], by rw [has_or, hU, Bool.true_or], ?_⟩
    rw [BitVec.and_assoc, BitVec.and_or_distrib_right, ← BitVec.and_assoc, hb,
      BitVec.and_comm 0xfff, ← BitVec.and_assoc, hk]
    decide
  unfold Kern.accessed
  rw [BitVec.or_assoc]
  apply hor
  cases dirty <;> decide

lemma has_accessed_W (w : Word) (dirty : Bool) : has (accessed w dirty) pteW = has w pteW := by
  unfold accessed
  rw [has_or, has_or]
  cases dirty <;> simp [show has pteA pteW = false by decide, show has pteD pteW = false by decide,
    show has (0#32) pteW = false by decide]

lemma pgnum_accessed (w : Word) (dirty : Bool) : pgnum (accessed w dirty) = pgnum w := by
  unfold accessed
  rw [pgnum_or, pgnum_or]
  cases dirty <;> simp [show pgnum pteA = 0 by decide, show pgnum pteD = 0 by decide,
    show pgnum 0#32 = 0 by decide]

/-- A mapping that a step leaves alone stays writable for the same reason. -/
lemma SpacesOk.kept (hs : SpacesOk B h s) (heq : spacesOf t e n = spacesOf s e n)
    (hW : has (spacesOf t e n) pteW = true) : MadeWritable B (h ++ [⟨s, ev, t⟩]) t e n := by
  rw [heq] at hW
  exact .kept (hs.writable e n hW) hW (by rw [heq])

/-- A system call. -/
lemma SpacesOk.remapped {s' : Kernel} {r : Word} (hs : SpacesOk B h s)
    (hsp : spacesOf s' = spacesOf s) (hcall : Calls s ev s' c call)
    (hg : MappingGuard s' c call) (hmem : MemGuard s' c call) (hok : MemOk B s')
    (hre : Remapped B s' c call r (spacesOf t)) :
    EntriesOk (spacesOf t) ∧ ∀ e n, has (spacesOf t e n) pteW = true →
      MadeWritable B (h ++ [⟨s, ev, t⟩]) t e n := by
  have hsame : spacesOf t = spacesOf s' →
      EntriesOk (spacesOf t) ∧ ∀ e n, has (spacesOf t e n) pteW = true →
        MadeWritable B (h ++ [⟨s, ev, t⟩]) t e n := by
    intro heq
    rw [hsp] at heq
    refine ⟨heq ▸ hs.entries, fun e n hW => hs.kept (by rw [heq]) hW⟩
  generalize hS : spacesOf t = S at hre
  cases hre with
  | failed hr => exact hS ▸ hsame hS
  | noTable => exact hS ▸ hsame hS
  | kept hno hfork => exact hS ▸ hsame hS
  | sent e hno he hrecv hpage => exact hS ▸ hsame hS
  | removed e hno he =>
    rw [hsp] at hS ⊢
    refine ⟨hs.entries.clearSpace e, fun j k hW => ?_⟩
    have hne : j ≠ e := by
      intro hj
      unfold clearSpace at hW
      rw [if_pos hj, has_zero] at hW
      cases hW
    have heq : spacesOf t j k = spacesOf s j k := by
      rw [hS]
      unfold clearSpace
      rw [if_neg hne]
    exact hs.kept heq (hS ▸ hW)
  | unmapped e hno he hva hal =>
    rw [hsp] at hS ⊢
    refine ⟨hs.entries.setPage e _ (Or.inl rfl), fun j k hW => ?_⟩
    rw [setPage_apply] at hW
    split at hW
    · rw [has_zero] at hW
      cases hW
    · rename_i hne
      have heq : spacesOf t j k = spacesOf s j k := by
        rw [hS, setPage_apply, if_neg hne]
      exact hs.kept heq (heq ▸ hW)
  | alloc e p hno he hva hal hbits hflag hp hfree hnew htab =>
    rw [hsp] at hS ⊢
    refine ⟨hs.entries.setPage e _ (Or.inr (userEntry_insert (hg.alloc hno hbits hflag)
      (bits_weaken hbits))), fun j k hW => ?_⟩
    rw [setPage_apply] at hW
    split at hW
    · rename_i hjk
      rw [has_entry_W] at hW
      rw [hjk.1, hjk.2]
      exact .alloc hcall hno he hva hW
    · rename_i hne
      have heq : spacesOf t j k = spacesOf s j k := by
        rw [hS, setPage_apply, if_neg hne]
      exact hs.kept heq (heq ▸ hW)
  | @shared se de n m perm hsh htab =>
    obtain ⟨hP, hlt, -⟩ := hmem.share _ _ _ _ _ hsh
    obtain ⟨hU, hWsrc⟩ := hsh.flags
    have hptr : pointers (dirsOf s') s'.pm.mem (.pte se n.1 n.2) =
        some (pgnum (spacesOf s' se n)) := by
      rw [pointers_pte]
      exact target_of_present hP
    have hf := B.freeList_lt (hok.tables.managed _ _ hptr)
    rw [hsp] at hS hWsrc hf ⊢
    refine ⟨hs.entries.setPage de _ (Or.inr (userEntry_insert hU
      (hg.share _ _ _ _ _ hsh))), fun j k hW => ?_⟩
    rw [setPage_apply] at hW
    split at hW
    · rename_i hjk
      rw [has_entry_W] at hW
      have hW' := hWsrc hW
      rw [hjk.1, hjk.2]
      refine .copied hcall hsh (hs.writable se n hW') hW' ?_
      rw [hS, setPage_apply, if_pos ⟨rfl, rfl⟩]
      exact pgnum_entry (Nat.lt_trans hf B.npages_lt) hlt
    · rename_i hne
      have heq : spacesOf t j k = spacesOf s j k := by
        rw [hS, setPage_apply, if_neg hne]
      exact hs.kept heq (heq ▸ hW)

/-- One step keeps the address spaces in order. -/
lemma SpacesOk.step (hs : SpacesOk B h s) (hst : Step s ev t) (hg : MappingEventGuard s ev) :
    SpacesOk B (h ++ [⟨s, ev, t⟩]) t := by
  obtain ⟨hok, hre⟩ := hs.kernel.step hst hg.kernel
  suffices hgoal : EntriesOk (spacesOf t) ∧ ∀ e n, has (spacesOf t e n) pteW = true →
      MadeWritable B (h ++ [⟨s, ev, t⟩]) t e n from ⟨hok, hgoal.1, hgoal.2⟩
  have hsame : spacesOf t = spacesOf s →
      EntriesOk (spacesOf t) ∧ ∀ e n, has (spacesOf t e n) pteW = true →
        MadeWritable B (h ++ [⟨s, ev, t⟩]) t e n :=
    fun heq => ⟨heq ▸ hs.entries, fun e n hW => hs.kept (by rw [heq]) hW⟩
  generalize hS : spacesOf t = S at hre
  cases hre with
  | wake => exact hS ▸ hsame hS
  | store => exact hS ▸ hsame hS
  | @touch cpu c va dirty hc hva hP =>
    refine ⟨hs.entries.setPage c _ ?_, fun j k hW => ?_⟩
    · refine Or.inr (UserEntry.accessed ((hs.entries c _).resolve_left ?_) dirty)
      intro h0
      rw [h0, has_zero] at hP
      cases hP
    · rw [setPage_apply] at hW
      split at hW
      · rename_i hjk
        rw [has_accessed_W] at hW
        rw [hjk.1, hjk.2]
        refine .kept (hs.writable _ _ hW) hW ?_
        rw [hS, setPage_apply, if_pos ⟨rfl, rfl⟩, pgnum_accessed]
      · rename_i hne
        have heq : spacesOf t j k = spacesOf s j k := by
          rw [hS, setPage_apply, if_neg hne]
        exact hs.kept heq (heq ▸ hW)
  | @trap cpu c tf cr2 cons S hc htrap =>
    cases htrap with
    | same => exact hS ▸ hsame hS
    | gone =>
      refine ⟨hs.entries.clearSpace c, fun j k hW => ?_⟩
      have hne : j ≠ c := by
        intro hj
        unfold clearSpace at hW
        rw [if_pos hj, has_zero] at hW
        cases hW
      have heq : spacesOf t j k = spacesOf s j k := by
        rw [hS]
        unfold clearSpace
        rw [if_neg hne]
      exact hs.kept heq (hS ▸ hW)
    | call hst hno hre =>
      have hcall : Calls s (.trap cpu tf cr2 cons) (s.entered c tf) c tf.call := .trap hc hst hno
      obtain ⟨hok', hsp⟩ := hs.kernel.mem.setEnv (e := c) (v := { s.envs c with envTf := tf }) rfl
      subst hS
      exact hs.remapped hsp hcall (hg.call _ _ _ hcall) ((hg.kernel c hc).mem hst hno) hok' hre

/-- In a run whose calls pass the guard every mapping is as it should be. -/
theorem mappings_of_run (hr : Runs B h s)
    (hg : ∀ m ∈ h, MappingEventGuard m.pre m.label) : MappingsOk B h s := by
  have hall : SpacesOk B h s := hr.induct hg (SpacesOk B)
    (fun s hs => ⟨hs.kernelOk, hs.ok.entries, fun _ _ _ => .boot hs⟩)
    (fun _ _ _ _ hs hg hst => hs.step hst hg)
  intro e n _ hP
  have hptr : pointers (dirsOf s) s.pm.mem (.pte e n.1 n.2) = some (pgnum (spacesOf s e n)) := by
    rw [pointers_pte]
    exact target_of_present hP
  have hf := hall.kernel.mem.tables.managed _ _ hptr
  refine ⟨⟨hf, B.freeList_ne_zero hf, B.freeList_lt hf, hall.kernel.mem.tables.leaf hptr, ?_, ?_⟩,
    hall.writable e n⟩
  · exact ⟨fun hk => B.kernPgdir_notMem_freeList (hk ▸ hf), B.notMem_kernTables hf⟩
  · refine (hall.entries e n).resolve_left ?_
    intro h0
    rw [h0, has_zero] at hP
    cases hP

/-- A guarded run: `sys_page_alloc` with `PTE_P | PTE_U | PTE_W`. -/
theorem mappings_of_run_alloc : ∃ h, Runs smallBoot h (smallAlloc 7) ∧
    MappingsOk smallBoot h (smallAlloc 7) := by
  have hr := smallAlloc_run 7 (by decide +kernel)
  refine ⟨_, hr, mappings_of_run hr (fun m hm => ⟨smallAlloc_guarded 7 m hm, ?_⟩)⟩
  intro s' c call hcall
  rcases List.mem_cons.mp hm with rfl | hm
  · cases hcall
  · obtain rfl := List.mem_singleton.mp hm
    cases hcall with
    | trap hc hst hsys =>
      refine ⟨fun _ _ _ => by decide, fun se n de m perm hsh => ?_⟩
      cases hsh with
      | map h5 => exact absurd h5 (by decide)
      | send h12 => exact absurd h12 (by decide)

/-- `sys_page_alloc` with `PTE_P` alone makes a mapping that a user program cannot use. -/
theorem mappings_fail : ∃ h, Runs smallBoot h (smallAlloc 1) ∧
    ¬ MappingsOk smallBoot h (smallAlloc 1) := by
  have hfacts : exitOf (trap 0 (callFrame 4 0 0x400000 1 0 0) 0 0) smallStart = some .leave ∧
      has (spacesOf (smallAlloc 1) 0 (pageNo 0x400000 (by decide))) pteP = true ∧
      has (spacesOf (smallAlloc 1) 0 (pageNo 0x400000 (by decide))) pteU = false ∧
      ((smallAlloc 1).envs 0).envStatus ≠ .free := by decide +kernel
  obtain ⟨hexit, hP, hU, hlive⟩ := hfacts
  refine ⟨_, smallAlloc_run 1 hexit, fun hall => ?_⟩
  have huser := (hall 0 _ hlive hP).1.entry.user
  rw [hU] at huser
  cases huser

end SistemasOperativos.Kern
