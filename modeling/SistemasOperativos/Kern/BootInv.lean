import SistemasOperativos.Kern.TrapMem

/-!
# The kernel after boot

Every state in which the processors enter the scheduler is in order: the environments, the
memory under them, and the permissions of the pages of the first programs.
-/

namespace SistemasOperativos.Kern

open Library

/-- A mapping a user program may have: present, user, and no bit outside `PTE_SYSCALL` but for
the accessed and dirty bits. -/
structure UserEntry (w : Word) : Prop where
  present : has w pteP = true
  user : has w pteU = true
  bits : w &&& 0xfff &&& ~~~(pteSyscall ||| pteA ||| pteD) = 0

/-- Every mapping below `UTOP` is one a user program may have. -/
def EntriesOk (S : EnvIdx → PageNo → Word) : Prop := ∀ e n, S e n = 0 ∨ UserEntry (S e n)

lemma EntriesOk.setPage {S : EnvIdx → PageNo → Word} (h : EntriesOk S) (e : EnvIdx) (n : PageNo)
    {w : Word} (hw : w = 0 ∨ UserEntry w) : EntriesOk (setPage S e n w) := by
  intro j k
  rw [setPage_apply]
  split
  · exact hw
  · exact h j k

lemma EntriesOk.clearSpace {S : EnvIdx → PageNo → Word} (h : EntriesOk S) (e : EnvIdx) :
    EntriesOk (clearSpace S e) := by
  intro j k
  unfold Kern.clearSpace
  split
  · exact Or.inl rfl
  · exact h j k

/-- The flags of an entry written by `page_insert` are those of the permission word. -/
lemma userEntry_insert {f : ℕ} {perm : Word} (hU : has perm pteU = true)
    (hbits : perm &&& ~~~(pteSyscall ||| pteA ||| pteD) = 0) :
    UserEntry (page2pa f ||| perm ||| pteP) := by
  refine ⟨has_entry_P f perm, (has_entry_U f perm).trans hU, ?_⟩
  have hpage : page2pa f &&& 0xfff = 0 := by
    apply BitVec.eq_of_getLsbD_eq
    intro i hi
    rw [BitVec.getLsbD_and]
    by_cases h12 : i < 12
    · rw [getLsbD_page2pa f h12, Bool.false_and]
      exact (BitVec.getLsbD_zero).symm
    · have hfff : (0xfff : Word).getLsbD i = false := by
        have h20 : 12 ≤ i := Nat.not_lt.mp h12
        interval_cases i <;> decide
      rw [hfff, Bool.and_false]
      exact (BitVec.getLsbD_zero).symm
  rw [BitVec.and_assoc, BitVec.and_or_distrib_right, BitVec.and_or_distrib_right,
    ← BitVec.and_assoc, hpage, BitVec.and_comm 0xfff, ← BitVec.and_assoc, hbits]
  decide

/-- The kernel while `env_create` fills environment `e`, whose page directory is `d`. -/
structure Loading (B : Boot) (e : EnvIdx) (d : ℕ) (t : Kernel) : Prop where
  envs : EnvsIn none t
  mem : MemOk B t
  idle : ∀ cpu, (t.cpus cpu).cpuEnv = none
  entries : EntriesOk (spacesOf t)
  dir : dirsOf t e = some d

/-- The kernel before the processors enter the scheduler. -/
structure BootOk (B : Boot) (t : Kernel) : Prop where
  envs : EnvsIn none t
  mem : MemOk B t
  idle : ∀ cpu, (t.cpus cpu).cpuEnv = none
  entries : EntriesOk (spacesOf t)

variable {B : Boot} {s t : Kernel} {e : EnvIdx} {d : ℕ} {cpu : Cpu}

lemma bootOk_boot (B : Boot) : BootOk B (Kernel.boot B) := by
  have hnone : ∀ r, pointers (dirsOf (Kernel.boot B)) (Kernel.boot B).pm.mem r = none := by
    intro r
    cases r <;> rfl
  have hrefs : ∀ f, refs (pointers (dirsOf (Kernel.boot B)) (Kernel.boot B).pm.mem) f = 0 := by
    intro f
    rw [refs_eq_zero_iff]
    intro r
    rw [hnone]
    simp
  refine ⟨EnvsIn.boot B, ⟨rfl, rfl, ⟨?_, ?_, ?_, ?_, ?_, ?_, fun _ _ => rfl⟩, ⟨?_, ?_, ?_, ?_⟩, ?_,
    fun f hf => absurd hf (Finset.notMem_empty f)⟩, fun _ => rfl, fun _ _ => Or.inl rfl⟩
  · intro r r' f _ hr
    rw [hnone] at hr
    cases hr
  · intro r f hr
    rw [hnone] at hr
    cases hr
  · intro i d x hd
    cases hd
  · exact fun i x y => Or.inl rfl
  · intro i d x hd
    cases hd
  · intro i d hd
    cases hd
  · refine ⟨B.freeList, linked_linksOf B.nodup_freeList, B.nodup_freeList, fun f => ?_,
      fun f hf => linksOf_notMem hf⟩
    rw [Pi.add_apply, Pi.zero_apply, Nat.add_zero]
    exact ⟨fun hf => ⟨hf, hrefs f, Finset.notMem_empty f⟩, fun hf => hf.1⟩
  · intro f hf
    show (if f ∈ B.kernTables then (1 : BitVec 16) else 0) = _
    rw [if_neg (B.notMem_kernTables hf), Pi.add_apply, Pi.zero_apply, hrefs]
    rfl
  · intro f
    rw [Pi.add_apply, Pi.zero_apply, hrefs]
    decide
  · exact fun f _ _ => rfl
  · intro f
    rw [hrefs]
    decide

/-! ### Loading a program -/

lemma Loading.withPm {pm : Pmap} (h : Loading B e d s) (hok : PmapOk B (dirsOf s) pm)
    (hent : EntriesOk (spaces (dirsOf s) pm.mem)) : Loading B e d { s with pm := pm } :=
  ⟨h.envs.withPm pm, hok, h.idle, hent, h.dir⟩

/-- Changing fields that say nothing about memory or scheduling. -/
lemma Loading.setEnv (h : Loading B e d s) {j : EnvIdx} {v : Env}
    (hlink : v.envLink = (s.envs j).envLink) (hpg : v.envPgdir = (s.envs j).envPgdir)
    (hst : v.envStatus = (s.envs j).envStatus) : Loading B e d (s.setEnv j v) := by
  obtain ⟨hok, hsp⟩ := h.mem.setEnv hpg
  refine ⟨h.envs.setEnv hlink hpg (by rw [hst]) ?_, hok, h.idle, ?_, ?_⟩
  · intro cpu _ hc
    rw [h.idle cpu] at hc
    cases hc
  · rw [hsp]
    exact h.entries
  · unfold dirsOf
    rw [Kernel.setEnv_envs]
    split
    · rename_i hj
      rw [hpg, ← hj]
      exact h.dir
    · exact h.dir

lemma keeps_lcr3 (cr3 : ℕ) : Keeps (Loading B e d) (fun _ _ => True) (lcr3 cpu cr3) := by
  intro s h
  have hidle : ∀ k, ((s.setCpu cpu { s.cpus cpu with cr3 := cr3 }).cpus k).cpuEnv = none := by
    intro k
    unfold Kernel.setCpu
    by_cases hk : k = cpu
    · subst hk
      simp only [Function.update_self]
      exact h.idle k
    · simp only [Function.update_of_ne hk]
      exact h.idle k
  refine sat_modify.mpr ⟨⟨h.envs.list, h.envs.pgdir, ?_, ?_, ?_⟩, h.mem, hidle, h.entries, h.dir⟩
  · intro k k' j hk
    rw [hidle k] at hk
    cases hk
  · intro k j hk
    rw [hidle k] at hk
    cases hk
  · intro k j _ hk
    rw [hidle k] at hk
    cases hk

lemma keeps_loadByte {va : Word} (hva : va < utop) (b : Byte) :
    Keeps (Loading B e d) (fun _ _ => True) (liftPm (storeByte d va b)) := by
  intro s h
  rw [sat_liftPm]
  refine (storeByte_sat h.mem h.dir hva b).mono ?_ (fun _ _ _ => trivial)
  rintro - pm ⟨⟨hok, hsp⟩, -⟩
  exact h.withPm hok (hsp ▸ h.entries)

lemma keeps_regionAllocLoop {vaLen : Word} (hlen : vaLen ≤ utop) (fuel : ℕ) (vaAux : Word) :
    Keeps (Loading B e d) (fun _ _ => True) (regionAllocLoop e vaLen fuel vaAux) := by
  induction fuel generalizing vaAux with
  | zero => exact Keeps.pure _
  | succ fuel ih =>
    intro s h
    unfold regionAllocLoop
    rw [sat_ite]
    refine ⟨fun hlt => ?_, fun _ => sat_pure.mpr h⟩
    have hva : vaAux < utop := Nat.lt_of_lt_of_le hlt hlen
    have hpg : (s.envs e).envPgdir = some d := h.dir
    rw [sat_bind, sat_liftPm]
    refine (pageAlloc_hand h.mem).mono ?_ (fun _ _ _ => trivial)
    rintro (_ | p) pm
    · exact fun _ => sat_throw.mpr trivial
    rintro ⟨-, -, hpf, -, hfresh, hok, hptr, hS⟩
    simp only [sat_bind, sat_get]
    rw [sat_liftPm, hpg]
    refine (pageInsert_sat hok h.dir hva hpf (Or.inl (Finset.mem_insert_self p ∅))
      (fun r _ => by rw [hptr]; exact hfresh r) rfl
      (Or.inl (by rw [hok.idle p (Finset.mem_insert_self p ∅)]; decide)) (by decide)).mono ?_
      (fun _ _ _ => trivial)
    rintro r pm' (⟨rfl, -, -, -⟩ | ⟨rfl, hok', hS'⟩)
    · rw [if_pos (show (-eNoMem : Word).slt 0 = true by decide)]
      simp only [sat_bind, sat_throw]
    · rw [if_neg (by decide)]
      rw [Finset.erase_insert (Finset.notMem_empty p)] at hok'
      refine ih _ _ (h.withPm hok' ?_)
      rw [hS', hS]
      exact h.entries.setPage e _ (Or.inr (userEntry_insert (by decide) (by decide)))

lemma keeps_regionAlloc {va len : Word} (hlen : va.toNat + len.toNat ≤ utop.toNat) :
    Keeps (Loading B e d) (fun _ _ => True) (regionAlloc e va len) := by
  refine keeps_regionAllocLoop ?_ _ _
  have hu : utop.toNat = 4005560320 := by decide
  have hadd : (va + len).toNat = va.toNat + len.toNat := by
    rw [BitVec.toNat_add]
    omega
  have hup : (va + len + 0x1000 - 1).toNat = va.toNat + len.toNat + 4095 := by
    have h1 : (0x1000 : Word).toNat = 4096 := by decide
    have h2 : (1 : Word).toNat = 1 := by decide
    rw [BitVec.toNat_sub, BitVec.toNat_add, hadd, h1, h2]
    omega
  show (roundup (va + len)).toNat ≤ utop.toNat
  unfold roundup
  rw [rounddown_toNat, hup]
  omega

lemma keeps_loadSegment {binary : Binary} (hb : binary.BelowUtop) {i : ℕ}
    (hi : i < binary.ePhnum) :
    Keeps (Loading B e d) (fun _ _ => True) (loadSegment e binary d i) := by
  have hu : utop.toNat = 4005560320 := by decide
  unfold loadSegment
  intro s h
  rw [sat_ite]
  refine ⟨fun htype => ?_, fun _ => sat_pure.mpr h⟩
  have hlen := hb i hi htype
  rw [sat_ite]
  refine ⟨fun _ => by simp only [sat_bind, sat_throw], fun hsz => ?_⟩
  have hfile : (binary.ph i).pFilesz.toNat ≤ (binary.ph i).pMemsz.toNat := Nat.not_lt.mp hsz
  revert s
  apply Keeps.bind (keeps_regionAlloc hlen)
  intro _
  apply Keeps.bind
  · apply Keeps.forM
    intro k hk
    have hk' := List.mem_range.mp hk
    refine keeps_loadByte ?_ _
    show (_ : Word).toNat < utop.toNat
    rw [BitVec.toNat_add, BitVec.toNat_ofNat]
    omega
  · intro _
    apply Keeps.forM
    intro k hk
    have hk' := List.mem_range.mp hk
    rw [BitVec.toNat_sub_of_le hfile] at hk'
    refine keeps_loadByte ?_ _
    show (_ : Word).toNat < utop.toNat
    rw [BitVec.toNat_add, BitVec.toNat_add, BitVec.toNat_ofNat]
    omega

lemma keeps_loadIcode {binary : Binary} (hb : binary.BelowUtop) :
    Keeps (Loading B e d) (fun _ _ => True) (loadIcode cpu e binary) := by
  intro s h
  have hpg : (s.envs e).envPgdir = some d := h.dir
  unfold loadIcode paddr
  rw [sat_ite]
  refine ⟨fun _ => by simp only [sat_bind, sat_throw], fun _ => ?_⟩
  simp only [sat_bind, sat_get, hpg, sat_pure]
  refine (keeps_lcr3 d s h).post (fun _ s₁ h₁ => ?_)
  refine (Keeps.forM (fun i hi => keeps_loadSegment hb (List.mem_range.mp hi)) s₁ h₁).post
    (fun _ s₂ h₂ => ?_)
  refine (keeps_lcr3 _ s₂ h₂).post (fun _ s₃ h₃ => ?_)
  unfold modifyEnv
  rw [sat_modify]
  exact keeps_regionAlloc (by decide) _ (h₃.setEnv rfl rfl rfl)

/-- `env_create` leaves the kernel in order. -/
lemma envCreate_boot {binary : Binary} (hb : binary.BelowUtop) (type : EnvType)
    (h : BootOk B s) :
    Sat (envCreate cpu binary type) s (fun _ t => BootOk B t) (fun _ _ => True) := by
  have hfree : ∀ e, s.envFreeList = some e → dirsOf s e = none :=
    fun e hfl => (h.envs.pgdir e).mpr (h.envs.allocated hfl 0 0 s.pm).1
  unfold envCreate
  rw [sat_bind]
  refine ((envAlloc_mem h.mem hfree 0).and (envAlloc_rule s 0)).mono ?_ (fun _ _ _ => trivial)
  rintro (code | e) t
  · exact fun _ => sat_throw.mpr trivial
  rintro ⟨⟨hfl, -, hok, hsp⟩, -, pm, d, rfl⟩
  have hload : Loading B e d (s.allocated e 0 d pm) := by
    refine ⟨(h.envs.allocated hfl 0 d pm).2, hok, h.idle, hsp ▸ h.entries, ?_⟩
    unfold dirsOf Kernel.allocated
    simp only [Function.update_self]
    rfl
  have hend : ∀ t, Loading B e d t → BootOk B t := fun t ht =>
    ⟨ht.envs, ht.mem, ht.idle, ht.entries⟩
  dsimp only
  rw [sat_bind]
  refine (keeps_loadIcode hb _ hload).post (fun _ t ht => ?_)
  unfold modifyEnv
  rw [sat_bind, sat_modify]
  have ht' := ht.setEnv (j := e) (v := { t.envs e with envParentId := 0, envType := type })
    rfl rfl rfl
  rw [sat_ite]
  constructor
  · intro _
    rw [sat_modify]
    exact hend _ (ht'.setEnv rfl rfl rfl)
  · intro _
    exact sat_pure.mpr (hend _ ht')

/-- Every state in which the processors enter the scheduler is in order. -/
theorem Booted.ok (h : Booted B s) : BootOk B s := by
  induction h with
  | memInit => exact bootOk_boot B
  | envCreate hs hb ht ih => exact (envCreate_boot hb _ ih).of_ok ht

end SistemasOperativos.Kern
