import SistemasOperativos.Kern.CallMem

/-!
# Traps and memory

A trap keeps the books of memory and the environments in order when its system call passes
both guards, and it can bring the kernel down in the listed ways only. The other steps of the
machine need no guard.
-/

namespace SistemasOperativos.Kern

open Library

/-- How `page_fault_handler` can bring the kernel down: a byte of the frame it pushes is not
writable. -/
inductive FaultCrash (s : Kernel) (c : EnvIdx) : Exit → Prop
  | store {u len : Word} {k : ℕ} (hupcall : (s.envs c).envPgfaultUpcall ≠ 0)
      (hu : utrapframeAt (s.envs c).envTf.tfEsp = (u, len))
      (hframe : MemChecked (dirsOf s) s.pm.mem c u len (pteW ||| pteP ||| pteU))
      (hcode : MemChecked (dirsOf s) s.pm.mem c (s.envs c).envPgfaultUpcall 4 (pteP ||| pteU))
      (hk : k < 52) (hlt : u + BitVec.ofNat 32 k < utop)
      (hw : ¬(has (spacesOf s c (pageNo _ hlt)) pteP ∧ has (spacesOf s c (pageNo _ hlt)) pteW)) :
      FaultCrash s c .fault

/-- How a trap can bring the kernel down. -/
inductive TrapCrash (s : Kernel) (cpu : Cpu) (c : EnvIdx) (tf : Trapframe) : Exit → Prop
  | call {ex : Exit} (hst : (s.envs c).envStatus ≠ .dying) (hno : tf.tfTrapno = tSyscall)
      (h : Crash (s.entered c tf) cpu c tf.call ex) : TrapCrash s cpu c tf ex
  | fault {ex : Exit} (hst : (s.envs c).envStatus ≠ .dying) (hno : tf.tfTrapno = tPgflt)
      (h : FaultCrash (s.entered c tf) c ex) : TrapCrash s cpu c tf ex

/-- The address spaces after a trap. -/
inductive TrapRemapped (B : Boot) (s : Kernel) (c : EnvIdx) (tf : Trapframe) :
    (EnvIdx → PageNo → Word) → Prop
  | same : TrapRemapped B s c tf (spacesOf s)
  | gone : TrapRemapped B s c tf (clearSpace (spacesOf s) c)
  | call {r : Word} {S : EnvIdx → PageNo → Word} (hst : (s.envs c).envStatus ≠ .dying)
      (hno : tf.tfTrapno = tSyscall) (h : Remapped B (s.entered c tf) c tf.call r S) :
      TrapRemapped B s c tf S

/-- The condition under which a trap keeps the kernel in order. -/
structure TrapGuard (s : Kernel) (cpu : Cpu) (c : EnvIdx) (tf : Trapframe) : Prop where
  cpu : (s.envs c).envStatus ≠ .dying → tf.tfTrapno = tSyscall →
    CpuGuard (s.entered c tf) cpu c tf.call
  mem : (s.envs c).envStatus ≠ .dying → tf.tfTrapno = tSyscall →
    MemGuard (s.entered c tf) c tf.call

variable {B : Boot} {s t : Kernel} {cpu : Cpu} {c : EnvIdx} {tf : Trapframe}

/-! ### Page faults -/

lemma utrapframeAt_le (esp : Word) :
    (utrapframeAt esp).1.toNat + 52 ≤ utop.toNat := by
  have hu : utop.toNat = 4005560320 := by decide
  unfold utrapframeAt
  split
  · rename_i h
    have h₁ : esp.toNat < utop.toNat := h.1
    have h₂ : (uxstacktop - 0x1000).toNat ≤ esp.toNat := h.2
    have h₃ : (uxstacktop - 0x1000).toNat = 4005556224 := by decide
    have h₄ : (sizeofUTrapframe).toNat = 52 := by decide
    have h₅ : (4 : Word).toNat = 4 := by decide
    rw [BitVec.toNat_sub, BitVec.toNat_sub, h₄, h₅]
    omega
  · decide

lemma pageFaultHandler_mem (hE : EnvsIn none s) (h : MemOk B s)
    (hc : (s.cpus cpu).cpuEnv = some c) (faultVa : Word) :
    Sat (pageFaultHandler cpu faultVa) s (fun _ _ => False)
      (fun ex t => FaultCrash s c ex ∨ LeftMem B s c ex t) := by
  have hne := hE.ne_free hc
  have hcr3 : dirsOf s c = some (s.cpus cpu).cr3 := hE.cr3 cpu c hc
  unfold pageFaultHandler
  simp only [sat_bind, sat_curenv hc, sat_get]
  rw [sat_ite]
  constructor
  · intro hup
    obtain ⟨⟨u, len⟩, hframe⟩ : ∃ ul, utrapframeAt (s.envs c).envTf.tfEsp = ul := ⟨_, rfl⟩
    have hle := utrapframeAt_le (s.envs c).envTf.tfEsp
    rw [hframe] at hle ⊢
    dsimp only
    rw [sat_bind]
    refine (userMemAssert_mem hE (Or.inl rfl) h hc u len (pteW ||| pteP)).mono ?_
      (fun _ _ h => Or.inr h)
    rintro - t ⟨rfl, hchk⟩
    rw [sat_bind]
    refine (userMemAssert_mem hE (Or.inl rfl) h hc _ 4 pteP).mono ?_ (fun _ _ h => Or.inr h)
    rintro - t ⟨rfl, hcode⟩
    rw [sat_bind, sat_get, sat_bind, sat_liftPm]
    refine (probes_storeUTrapframe (S := spacesOf t) hcr3 hle faultVa _ t.pm ⟨h, rfl⟩).mono ?_ ?_
    · rintro - pm ⟨⟨hok, hsp⟩, -⟩
      unfold modifyEnv
      simp only [sat_bind, sat_modify]
      obtain ⟨hok', hsp'⟩ := PmapIn.setEnv (s := { t with pm := pm }) (e := c)
        (v := { t.envs c with
          envTf := { (t.envs c).envTf with tfEip := (t.envs c).envPgfaultUpcall, tfEsp := u } })
        hok rfl
      refine (envRun_rule _ cpu c).mono (fun _ _ h => h.elim) ?_
      rintro ex v (⟨rfl, d, hd, rfl⟩ | ⟨-, hnone⟩)
      · obtain ⟨hokv, hspv⟩ := hok'.ran cpu c d
        exact Or.inr ⟨Or.inl rfl, fun _ => ⟨hokv, Or.inl (hspv.trans (hsp'.trans hsp))⟩⟩
      · rw [Kernel.setEnv_envs_self] at hnone
        exact absurd ((hE.pgdir c).mp hnone) hne
    · rintro ex pm ⟨rfl, k, hk, hbad⟩
      obtain ⟨hlt, hw⟩ := not_forall.mp hbad
      exact Or.inl (.store hup hframe hchk hcode hk hlt hw)
  · intro _
    refine ((envDestroy_mem hE (Or.inl rfl) h hne).and (envDestroy_rule s cpu c)).mono ?_ ?_
    · rintro - t ⟨-, hcur, -⟩
      exact hcur hc
    · rintro ex t ⟨⟨hex, ht⟩, -⟩
      exact Or.inr ⟨hex, fun hl => ⟨(ht hl).1, Or.inr (ht hl).2⟩⟩

/-! ### Traps -/

lemma trapReturn_mem {busy : Option Cpu} (hE : EnvsIn busy s) (h : MemOk B s) :
    Sat (trapReturn cpu) s (fun _ _ => False)
      (fun ex t => ex.Orderly ∧ (ex = .leave → MemOk B t ∧ spacesOf t = spacesOf s)) := by
  have hyield : Sat (schedYield (α := Unit) cpu) s (fun _ _ => False)
      (fun ex t => ex.Orderly ∧ (ex = .leave → MemOk B t ∧ spacesOf t = spacesOf s)) :=
    schedYield_mem hE h
  unfold trapReturn curenv?
  simp only [sat_bind, sat_get, sat_pure]
  split
  · rename_i c hc
    simp only [sat_bind, sat_get]
    split
    · rw [sat_bind]
      refine (envRun_rule s cpu c).mono (fun _ _ h => h.elim) ?_
      rintro ex t (⟨rfl, d, hd, rfl⟩ | ⟨-, hnone⟩)
      · exact ⟨Or.inl rfl, fun _ => h.ran cpu c d⟩
      · exact absurd ((hE.pgdir c).mp hnone) (hE.ne_free hc)
    · exact hyield
  · exact hyield

/-- The end of a trap. -/
def TrapEnd (B : Boot) (s : Kernel) (cpu : Cpu) (c : EnvIdx) (tf : Trapframe) (ex : Exit)
    (t : Kernel) : Prop :=
  TrapCrash s cpu c tf ex ∨
    (ex.Orderly ∧ (ex = .leave → MemOk B t ∧ TrapRemapped B s c tf (spacesOf t)))

lemma LeftMem.trapEnd (hsp : spacesOf (s.entered c tf) = spacesOf s) {ex : Exit}
    (h : LeftMem B (s.entered c tf) c ex t) : TrapEnd B s cpu c tf ex t := by
  refine Or.inr ⟨h.1, fun hl => ⟨(h.2 hl).1, ?_⟩⟩
  rcases (h.2 hl).2 with hs | hs
  · rw [hs, hsp]
    exact .same
  · rw [hs, hsp]
    exact .gone

theorem trap_mem (hE : EnvsIn none s) (h : MemOk B s) (hc : (s.cpus cpu).cpuEnv = some c)
    (hg : TrapGuard s cpu c tf) (cr2 cons : Word) :
    Sat (trap cpu tf cr2 cons) s (fun _ _ => False) (TrapEnd B s cpu c tf) := by
  have hcur : (Kernel.cpus (s.entered c tf) cpu).cpuEnv = some c := hc
  have htf : ((s.entered c tf).envs c).envTf = tf := by
    unfold Kernel.entered
    rw [Kernel.setEnv_envs_self]
  have hE' : EnvsIn none (s.entered c tf) := hE.entered tf
  obtain ⟨h', hsp⟩ := h.setEnv (e := c) (v := { s.envs c with envTf := tf }) rfl
  change MemOk B (s.entered c tf) at h'
  change spacesOf (s.entered c tf) = spacesOf s at hsp
  have hmain : (s.envs c).envStatus ≠ .dying →
      Sat (do trapDispatch cpu cr2 cons; trapReturn cpu) (s.entered c tf) (fun _ _ => False)
        (TrapEnd B s cpu c tf) := by
    intro hst
    have hsame : ∀ {ex : Exit} {t : Kernel}, (ex.Orderly ∧ (ex = .leave → MemOk B t ∧
        spacesOf t = spacesOf (s.entered c tf))) → TrapEnd B s cpu c tf ex t :=
      fun ht => LeftMem.trapEnd hsp ⟨ht.1, fun hl => ⟨(ht.2 hl).1, Or.inl (ht.2 hl).2⟩⟩
    have hreturn : Sat (trapReturn cpu) (s.entered c tf) (fun _ _ => False)
        (TrapEnd B s cpu c tf) :=
      (trapReturn_mem hE' h').mono (fun _ _ h => h) (fun _ _ ht => hsame ht)
    rw [sat_bind]
    unfold trapDispatch
    simp only [sat_bind, sat_curenv hcur, sat_get, htf, sat_ite, sat_pure]
    refine ⟨fun _ => hreturn, fun _ => ⟨fun hpf => ?_, fun _ =>
      ⟨fun hsys => ?_, fun hsys => ⟨fun _ => hreturn, fun _ => ⟨fun _ => ?_, fun _ =>
        ⟨fun _ => hreturn, fun _ => ⟨fun _ => hreturn, fun _ => ?_⟩⟩⟩⟩⟩⟩⟩
    · refine (pageFaultHandler_mem hE' h' hcur cr2).mono (fun _ _ h => h.elim) ?_
      rintro ex t (hcrash | hleft)
      · exact Or.inl (.fault hst hpf hcrash)
      · exact hleft.trapEnd hsp
    · refine ((syscall_mem hE' h' hcur cons tf.call).and
        (syscall_rule hcur cons tf.call)).mono ?_ ?_
      · rintro r u ⟨⟨hkept, hre⟩, hret⟩
        have hok := (hkept (hg.mem hst hsys)).1
        have hEu := hE'.returned hcur (hg.cpu hst hsys) hret
        unfold modifyEnv
        rw [sat_modify]
        obtain ⟨hok', hspu⟩ := hok.setEnv (e := c) (v := { u.envs c with
          envTf := { (u.envs c).envTf with
            tfRegs := { (u.envs c).envTf.tfRegs with regEax := r } } }) rfl
        refine (trapReturn_mem (hEu.setEax r) hok').mono (fun _ _ h => h) ?_
        rintro ex t ⟨hex, ht⟩
        refine Or.inr ⟨hex, fun hl => ⟨(ht hl).1, ?_⟩⟩
        have hsame : spacesOf t = spacesOf u := (ht hl).2.trans hspu
        rw [hsame]
        exact .call hst hsys hre
      · rintro ex t ⟨hcrash | ⟨-, hleft⟩, -⟩
        · exact Or.inl (.call hst hsys hcrash)
        · exact hleft.trapEnd hsp
    · exact (schedYield_mem hE' h').mono (fun _ _ h => h.elim) (fun _ _ ht => hsame ht)
    · refine ((envDestroy_mem hE' (Or.inl rfl) h' (hE'.ne_free hcur)).and
        (envDestroy_rule _ cpu c)).mono ?_ ?_
      · rintro - t ⟨-, hne, -⟩
        exact absurd hcur hne
      · rintro ex t ⟨⟨hex, ht⟩, -⟩
        exact LeftMem.trapEnd hsp ⟨hex, fun hl => ⟨(ht hl).1, Or.inr (ht hl).2⟩⟩
  unfold trap
  simp only [sat_bind, sat_curenv hc, sat_get, sat_ite]
  constructor
  · intro hst
    obtain ⟨d, hd⟩ := hE.exists_dir (hE.ne_free hc)
    refine ((envFree_mem cpu hd h).and (envFree_rule s cpu c)).mono ?_
      (fun _ _ hf => hf.1.elim)
    rintro - t ⟨⟨hok, hsp', -⟩, -, pm, rfl⟩
    have hE'' := hE.freed_vacated hc (Or.inl rfl) pm
    obtain ⟨hok', hsp''⟩ := PmapIn.congr (t := (s.freed cpu c pm).vacated cpu) hok rfl
      (fun _ => rfl)
    unfold setCurenv
    rw [sat_modify]
    refine (schedYield_mem hE'' hok').mono (fun _ _ h => h.elim) ?_
    rintro ex t ⟨hex, ht⟩
    refine Or.inr ⟨hex, fun hl => ⟨(ht hl).1, ?_⟩⟩
    rw [(ht hl).2, hsp'', hsp']
    exact .gone
  · intro hst
    have h := hmain hst
    rw [sat_bind] at h
    unfold modifyEnv
    rw [sat_modify]
    exact h

end SistemasOperativos.Kern
