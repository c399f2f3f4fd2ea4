import SistemasOperativos.Kern.CallRules

/-!
# What a trap does to the environments

`Trapped` lists the ways in which a trap of the environment running on a processor can end
in user mode again, in terms of the outcomes of the system calls.
-/

namespace SistemasOperativos.Kern

open Library

/-- How `trap()` leaves the kernel after `trap_dispatch` has returned. -/
inductive Resume (s : Kernel) (cpu : Cpu) : Kernel → Prop
  | back (c : EnvIdx) (d : ℕ) (hc : (s.cpus cpu).cpuEnv = some c)
      (hst : (s.envs c).envStatus = .running) (hd : (s.envs c).envPgdir = some d) :
      Resume s cpu (s.ran cpu c d)
  | yield (t : Kernel) (hst : ∀ c, (s.cpus cpu).cpuEnv = some c →
      (s.envs c).envStatus ≠ .running) (hd : Dispatch s cpu t) : Resume s cpu t

/-- The system call in a trap frame. -/
def Trapframe.call (tf : Trapframe) : Call :=
  ⟨tf.tfRegs.regEax, tf.tfRegs.regEdx, tf.tfRegs.regEcx, tf.tfRegs.regEbx, tf.tfRegs.regEdi,
    tf.tfRegs.regEsi⟩

/-- The trap frame is copied to `curenv->env_tf`. -/
def Kernel.entered (s : Kernel) (c : EnvIdx) (tf : Trapframe) : Kernel :=
  s.setEnv c { s.envs c with envTf := tf }

def Kernel.setEax (s : Kernel) (c : EnvIdx) (r : Word) : Kernel :=
  s.setEnv c { s.envs c with
    envTf := { (s.envs c).envTf with tfRegs := { (s.envs c).envTf.tfRegs with regEax := r } } }

/-- The caller continues at its page fault upcall. -/
def Kernel.upcalled (s : Kernel) (c : EnvIdx) (u : Word) (pm : Pmap) : Kernel :=
  { s with pm := pm }.setEnv c { s.envs c with
    envTf := { (s.envs c).envTf with tfEip := (s.envs c).envPgfaultUpcall, tfEsp := u } }

/-- What a trap with frame `tf` of the environment `c` running on `cpu` has done. -/
inductive Trapped (s : Kernel) (cpu : Cpu) (c : EnvIdx) (tf : Trapframe) : Kernel → Prop
  | reaped (pm : Pmap) (t : Kernel) (hst : (s.envs c).envStatus = .dying)
      (hd : Dispatch ((s.freed cpu c pm).vacated cpu) cpu t) : Trapped s cpu c tf t
  | returned (r : Word) (u t : Kernel) (hst : (s.envs c).envStatus ≠ .dying)
      (hno : tf.tfTrapno = tSyscall) (hu : Returned (s.entered c tf) cpu c tf.call r u)
      (ht : Resume (u.setEax c r) cpu t) : Trapped s cpu c tf t
  | left (t : Kernel) (hst : (s.envs c).envStatus ≠ .dying) (hno : tf.tfTrapno = tSyscall)
      (ht : Left (s.entered c tf) cpu c tf.call t) : Trapped s cpu c tf t
  | upcall (d : ℕ) (pm : Pmap) (hst : (s.envs c).envStatus ≠ .dying)
      (hno : tf.tfTrapno = tPgflt) (hd : (s.envs c).envPgdir = some d) :
      Trapped s cpu c tf
        (((s.entered c tf).upcalled c (utrapframeAt tf.tfEsp).1 pm).ran cpu c d)
  | destroyed (pm₀ pm : Pmap) (t : Kernel) (hst : (s.envs c).envStatus ≠ .dying)
      (hno : tf.tfTrapno ≠ tSyscall)
      (hd : Dispatch (({ s.entered c tf with pm := pm₀ }.freed cpu c pm).vacated cpu) cpu t) :
      Trapped s cpu c tf t
  | ignored (t : Kernel) (hst : (s.envs c).envStatus ≠ .dying) (hno : tf.tfTrapno ≠ tSyscall)
      (ht : Resume (s.entered c tf) cpu t) : Trapped s cpu c tf t
  | timer (t : Kernel) (hst : (s.envs c).envStatus ≠ .dying) (hno : tf.tfTrapno ≠ tSyscall)
      (hd : Dispatch (s.entered c tf) cpu t) : Trapped s cpu c tf t

section Trap

variable {s : Kernel} {cpu : Cpu} {c : EnvIdx}

lemma trapReturn_rule (s : Kernel) (cpu : Cpu) :
    Sat (trapReturn cpu) s (fun _ _ => False) (fun ex t => ex = .leave → Resume s cpu t) := by
  have hyield : (∀ c, (s.cpus cpu).cpuEnv = some c → (s.envs c).envStatus ≠ .running) →
      Sat (schedYield (α := Unit) cpu) s (fun _ _ => False)
        (fun ex t => ex = .leave → Resume s cpu t) := by
    intro hst
    refine (schedYield_rule s cpu).mono (fun _ _ h => h) ?_
    rintro ex t (⟨-, hd⟩ | rfl | ⟨rfl, -⟩) hl
    · exact .yield t hst hd
    · cases hl
    · cases hl
  unfold trapReturn curenv?
  simp only [sat_bind, sat_get, sat_pure]
  split
  · rename_i c hc
    simp only [sat_bind, sat_get]
    split
    · rename_i hst
      rw [sat_bind]
      refine (envRun_rule s cpu c).mono (fun _ _ h => h.elim) ?_
      rintro ex t (⟨-, d, hd, rfl⟩ | ⟨rfl, -⟩) hl
      · exact .back c d hc hst hd
      · cases hl
    · rename_i hst
      refine hyield (fun c' hc' => ?_)
      rw [hc] at hc'
      exact Option.some.inj hc' ▸ hst
  · rename_i hnone
    refine hyield (fun c hc => ?_)
    exact absurd hc (hnone c)

/-- `page_fault_handler` never returns. -/
lemma pageFaultHandler_rule (hc : (s.cpus cpu).cpuEnv = some c) (faultVa : Word) :
    Sat (pageFaultHandler cpu faultVa) s (fun _ _ => False)
      (fun ex t => ex = .leave →
        (∃ d pm, (s.envs c).envPgdir = some d ∧
          t = (s.upcalled c (utrapframeAt (s.envs c).envTf.tfEsp).1 pm).ran cpu c d) ∨
        ∃ pm₀ pm, Dispatch (({ s with pm := pm₀ }.freed cpu c pm).vacated cpu) cpu t) := by
  have hdestroy : ∀ pm₀, Sat (envDestroy cpu c) { s with pm := pm₀ } (fun _ _ => False)
      (fun ex t => ex = .leave →
        (∃ d pm, (s.envs c).envPgdir = some d ∧
          t = (s.upcalled c (utrapframeAt (s.envs c).envTf.tfEsp).1 pm).ran cpu c d) ∨
        ∃ pm₀ pm, Dispatch (({ s with pm := pm₀ }.freed cpu c pm).vacated cpu) cpu t) := by
    intro pm₀
    refine (envDestroy_rule _ cpu c).mono (fun _ _ h => h.1 hc) ?_
    intro ex t hl hex
    obtain ⟨-, pm, hd⟩ := hl hex
    exact Or.inr ⟨pm₀, pm, hd⟩
  have hassert : ∀ pm₀ va len perm (Q : Unit → Kernel → Prop),
      (∀ pm, Q () { s with pm := pm }) →
      Sat (userMemAssert cpu c va len perm) { s with pm := pm₀ } Q
        (fun ex t => ex = .leave →
          (∃ d pm, (s.envs c).envPgdir = some d ∧
            t = (s.upcalled c (utrapframeAt (s.envs c).envTf.tfEsp).1 pm).ran cpu c d) ∨
          ∃ pm₀ pm, Dispatch (({ s with pm := pm₀ }.freed cpu c pm).vacated cpu) cpu t) := by
    intro pm₀ va len perm Q hQ
    refine (userMemAssert_rule (s := { s with pm := pm₀ }) hc va len perm).mono ?_ ?_
    · rintro - t ⟨pm, rfl⟩
      exact hQ pm
    · intro ex t hl hex
      obtain ⟨pm₁, pm, hd⟩ := hl hex
      exact Or.inr ⟨pm₁, pm, hd⟩
  unfold pageFaultHandler
  simp only [sat_bind, sat_curenv hc, sat_get, sat_ite]
  constructor
  · intro _
    refine hassert s.pm _ _ _ _ (fun pm => ?_)
    refine hassert pm _ _ _ _ (fun pm => ?_)
    refine (Quiet.storeUTrapframe _ _ _ _).lift (fun _ pm => ?_) (fun ex _ hex hl => absurd hl hex)
    unfold modifyEnv
    rw [sat_modify]
    refine (envRun_rule _ cpu c).mono (fun _ _ h => h.elim) ?_
    rintro ex t (⟨-, d, hd, rfl⟩ | ⟨rfl, -⟩) hl
    · refine Or.inl ⟨d, pm, ?_, rfl⟩
      rw [Kernel.setEnv_envs_self] at hd
      exact hd
    · cases hl
  · exact fun _ => hdestroy s.pm

/-- A trap of a user environment ends in one of the listed ways. -/
theorem trap_rule (hc : (s.cpus cpu).cpuEnv = some c) (tf : Trapframe) (cr2 cons : Word) :
    Sat (trap cpu tf cr2 cons) s (fun _ _ => False)
      (fun ex t => ex = .leave → Trapped s cpu c tf t) := by
  have hcur : (Kernel.cpus (s.entered c tf) cpu).cpuEnv = some c := hc
  have htf : ((s.entered c tf).envs c).envTf = tf := by
    unfold Kernel.entered
    rw [Kernel.setEnv_envs_self]
  have hpg : ((s.entered c tf).envs c).envPgdir = (s.envs c).envPgdir := by
    unfold Kernel.entered
    rw [Kernel.setEnv_envs_self]
  have hmain : (s.envs c).envStatus ≠ .dying →
      Sat (do trapDispatch cpu cr2 cons; trapReturn cpu) (s.entered c tf) (fun _ _ => False)
        (fun ex t => ex = .leave → Trapped s cpu c tf t) := by
    intro hst
    have hreturn : tf.tfTrapno ≠ tSyscall → Sat (trapReturn cpu) (s.entered c tf)
        (fun _ _ => False) (fun ex t => ex = .leave → Trapped s cpu c tf t) := by
      intro hno
      refine (trapReturn_rule _ cpu).mono (fun _ _ h => h) ?_
      exact fun ex t ht hl => .ignored t hst hno (ht hl)
    rw [sat_bind]
    unfold trapDispatch
    simp only [sat_bind, sat_curenv hcur, sat_get, htf, sat_ite, sat_pure]
    refine ⟨fun hb => hreturn (by rw [hb]; decide), fun _ => ⟨fun hpf => ?_, fun _ =>
      ⟨fun hsys => ?_, fun hsys => ⟨fun _ => hreturn hsys, fun _ => ⟨fun _ => ?_, fun _ =>
        ⟨fun _ => hreturn hsys, fun _ => ⟨fun _ => hreturn hsys, fun _ => ?_⟩⟩⟩⟩⟩⟩⟩
    · refine (pageFaultHandler_rule hcur cr2).mono (fun _ _ h => h.elim) ?_
      intro ex t hl hex
      rcases hl hex with ⟨d, pm, hd, rfl⟩ | ⟨pm₀, pm, hd⟩
      · rw [htf]
        exact .upcall d pm hst hpf (hpg ▸ hd)
      · exact .destroyed pm₀ pm t hst (by rw [hpf]; decide) hd
    · refine (syscall_rule hcur cons tf.call).mono ?_ ?_
      · intro r u hu
        unfold modifyEnv
        rw [sat_modify]
        refine (trapReturn_rule _ cpu).mono (fun _ _ h => h) ?_
        exact fun ex t ht hl => .returned r u t hst hsys hu (ht hl)
      · exact fun ex t ht hl => .left t hst hsys (ht hl)
    · refine (schedYield_rule _ cpu).mono (fun _ _ h => h.elim) ?_
      rintro ex t (⟨-, hd⟩ | rfl | ⟨rfl, -⟩) hl
      · exact .timer t hst hsys hd
      · cases hl
      · cases hl
    · refine (envDestroy_rule _ cpu c).mono (fun _ _ h => absurd hcur h.1) ?_
      intro ex t hl hex
      obtain ⟨-, pm, hd⟩ := hl hex
      exact .destroyed (s.entered c tf).pm pm t hst hsys hd
  unfold trap
  simp only [sat_bind, sat_curenv hc, sat_get, sat_ite]
  constructor
  · intro hst
    refine (envFree_rule s cpu c).mono ?_ (fun ex _ hex hl => absurd hl hex)
    rintro - t ⟨-, pm, rfl⟩
    unfold setCurenv
    rw [sat_modify]
    refine (schedYield_rule _ cpu).mono (fun _ _ h => h.elim) ?_
    rintro ex t (⟨-, hd⟩ | rfl | ⟨rfl, -⟩) hl
    · exact .reaped pm t hst hd
    · cases hl
    · cases hl
  · intro hst
    have h := hmain hst
    rw [sat_bind] at h
    unfold modifyEnv
    rw [sat_modify]
    exact h

end Trap

end SistemasOperativos.Kern
