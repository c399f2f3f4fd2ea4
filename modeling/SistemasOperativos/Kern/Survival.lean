import SistemasOperativos.Kern.KernelRuns

/-!
# What brings the kernel down

Starting from any state of a guarded run, a system call or a page fault ends without panic and
without a fault in ring 0, unless it is one of the listed accidents, and each of these brings the
kernel down. The call itself needs no guard here: a call that spoils the books still comes back.
-/

namespace SistemasOperativos.Kern

open Library

/-- The program returns, or leaves to a program or to the monitor. -/
def Survives {α : Type} (f : KernM α) (s : Kernel) : Prop :=
  Sat f s (fun _ _ => True) (fun ex _ => ex.Orderly)

variable {B : Boot} {s : Kernel} {cpu : Cpu} {c e : EnvIdx} {call : Call} {tf : Trapframe}
  {h : List (Move Kernel Event)}

/-- Every system call survives unless it is one of the accidents. -/
lemma syscall_survives (hE : EnvsIn none s) (hok : MemOk B s) (hc : (s.cpus cpu).cpuEnv = some c)
    (cons : Word) (call : Call) (hcrash : ∀ ex, ¬ Crash s cpu c call ex) :
    Survives (syscall cpu cons call.no call.a1 call.a2 call.a3 call.a4 call.a5) s := by
  refine (syscall_mem hE hok hc cons call).mono (fun _ _ _ => trivial) ?_
  rintro ex t (hex | ⟨-, hex, -⟩)
  · exact absurd hex (hcrash ex)
  · exact hex

/-! ### Accidents -/

/-- A program that always ends in `ex` does not end well, if `ex` is no end of a kernel entry. -/
lemma not_survives {α : Type} {f : KernM α} {ex : Exit}
    (hf : Sat f s (fun _ _ => False) (fun ex' _ => ex' = ex)) (hex : ¬ex.Orderly) : ¬ Survives f s := by
  intro hs
  refine not_sat_false ((hf.and hs).mono (fun _ _ h => h.1) ?_)
  rintro ex' t ⟨rfl, h⟩
  exact hex h

lemma Crash.not_orderly {ex : Exit} (h : Crash s cpu c call ex) : ¬ex.Orderly := by
  cases h <;> rintro (h | h) <;> cases h

lemma FaultCrash.not_orderly {ex : Exit} (h : FaultCrash s c ex) : ¬ex.Orderly := by
  cases h
  rintro (h | h) <;> cases h

/-- Without memory for its page table a mapping is not made. -/
lemma not_remapped {S : EnvIdx → PageNo → Word} {r : Word} {se de : EnvIdx} {n m : PageNo} {perm : Word}
    (hno : call.no.toNat = 5) (h : Shares s c call se n de m perm)
    (htab : tableAt target (dirsOf s) s.pm.mem de m.1 = none) (hfl : s.pm.pageFreeList = none)
    (href : s.pm.ppRef (pgnum (spacesOf s se n)) ≠ 0) : ¬ Remapped B s c call r S := by
  cases h with
  | send hno' => omega
  | map _ hs hd h =>
    intro hre
    cases hre with
    | failed hfail =>
      cases hfail with
      | mapBadEnv _ he =>
        rw [h.src, h.dst] at he
        rcases he with he | he <;> cases he
      | mapVa _ hva =>
        rcases hva with (hva | hva) | hva | hva
        · exact absurd hva (BitVec.not_le.mpr hs)
        · exact hva h.srcva
        · exact absurd hva (BitVec.not_le.mpr hd)
        · exact hva h.dstva
      | mapUnmapped _ he _ hnt =>
        obtain rfl := Option.some.inj (h.src.symm.trans he)
        exact hnt h.table
      | mapPerm _ hperm => exact hperm h.perm
      | mapReadOnly _ he _ hW hro =>
        obtain rfl := Option.some.inj (h.src.symm.trans he)
        rw [h.writable hW] at hro
        cases hro
      | badEnv hmem => simp [hno] at hmem
      | _ => omega
    | kept hmem => simp [hno] at hmem
    | shared h' hmem =>
      cases h' with
      | send hno' => omega
      | map _ _ _ h' =>
        obtain rfl := Option.some.inj (h.dst.symm.trans h'.dst)
        exact hmem.elim (fun ht => ht htab) (fun hf => hf hfl)
    | noTable _ h' _ _ h0 =>
      cases h' with
      | send hno' => omega
      | map _ _ _ h' =>
        obtain rfl := Option.some.inj (h.src.symm.trans h'.src)
        exact href h0
    | _ => omega

/-- A system call that is one of the accidents brings the kernel down. -/
lemma Crash.ends (hE : EnvsIn none s) (hok : MemOk B s) (hc : (s.cpus cpu).cpuEnv = some c)
    (cons : Word) {ex : Exit} (hcrash : Crash s cpu c call ex) :
    Sat (syscall cpu cons call.no call.a1 call.a2 call.a3 call.a4 call.a5) s (fun _ _ => False)
      (fun ex' _ => ex' = ex) := by
  cases hcrash with
  | outOfMemory hno h htab hfl href =>
    refine (syscall_mem hE hok hc cons call).mono ?_ ?_
    · rintro r t ⟨-, hre⟩
      exact not_remapped hno h htab hfl href hre
    · rintro ex t (hex | ⟨hleave, -⟩)
      · cases hex with
        | outOfMemory => rfl
        | _ => omega
      · unfold Call.Leaves at hleave
        simp only [List.mem_cons, List.not_mem_nil, or_false] at hleave
        omega
  | badFrame hno he htf hk hw =>
    have hbad : ¬ByteMapped s.pm.mem (s.cpus cpu).cr3 call.a2 _ := fun hok => hok hw
    unfold syscall
    rw [hno]
    show Sat (sysEnvSetTrapframe cpu call.a1 call.a2) s _ _
    unfold sysEnvSetTrapframe
    rw [sat_bind, sat_envid2env hc, he]
    dsimp only
    rw [if_neg (BitVec.not_le.mpr htf), sat_bind, sat_get, sat_bind, sat_liftPm]
    exact (probes_loadTrapframe.leaves rfl hk hbad).mono (fun _ _ h => h.elim) (fun _ _ h => h)
  | badString hno hchk hstr hk hw =>
    have hlt := hk.lt hw
    have hbad : ¬ByteMapped s.pm.mem (s.cpus cpu).cr3 call.a1 _ := fun hok => hok hw
    unfold syscall
    rw [hno]
    show Sat (do sysCputs cpu call.a1 call.a2; return 0) s _ _
    unfold sysCputs
    simp only [sat_bind, sat_curenv hc]
    refine (userMemAssert_checked hE hok hc hchk).mono ?_ (fun _ _ h => h.elim)
    rintro - t rfl
    generalize 2 ^ 32 = fuel at hlt
    rw [if_pos hstr, sat_bind, sat_get, sat_liftPm]
    exact ((probes_vprintfmtString _ fuel _ _).leaves rfl ⟨hlt, hk⟩ hbad).mono (fun _ _ h => h.elim)
      (fun _ _ h => h)

/-- A page fault that is an accident brings the kernel down. -/
lemma FaultCrash.ends (hE : EnvsIn none s) (hok : MemOk B s) (hc : (s.cpus cpu).cpuEnv = some c)
    (faultVa : Word) {ex : Exit} (hcrash : FaultCrash s c ex) :
    Sat (pageFaultHandler cpu faultVa) s (fun _ _ => False) (fun ex' _ => ex' = ex) := by
  have hcr3 : dirsOf s c = some (s.cpus cpu).cr3 := hE.cr3 cpu c hc
  cases hcrash with
  | store hupcall hu hframe hcode hk hlt hw =>
    have hle := utrapframeAt_le (s.envs c).envTf.tfEsp
    rw [hu] at hle
    unfold pageFaultHandler
    simp only [sat_bind, sat_curenv hc, sat_get]
    rw [if_pos hupcall, hu]
    dsimp only
    rw [sat_bind]
    refine (userMemAssert_checked hE hok hc hframe).mono ?_ (fun _ _ h => h.elim)
    rintro - t rfl
    rw [sat_bind]
    refine (userMemAssert_checked hE hok hc hcode).mono ?_ (fun _ _ h => h.elim)
    rintro - t rfl
    rw [sat_bind, sat_get, sat_bind, sat_liftPm]
    exact ((probes_storeUTrapframe (S := spacesOf t) hcr3 hle faultVa _).leaves ⟨hok, rfl⟩ hk
      (fun hall => hw (hall hlt))).mono (fun _ _ h => h.elim) (fun _ _ h => h)

/-- A system call or a page fault of the environment on `cpu`, with trap frame `tf`, ends
well. -/
def EntrySurvives (s : Kernel) (cpu : Cpu) (c : EnvIdx) (tf : Trapframe) (cr2 cons : Word) : Prop :=
  (tf.tfTrapno = tSyscall → Survives (syscall cpu cons tf.call.no tf.call.a1 tf.call.a2 tf.call.a3
    tf.call.a4 tf.call.a5) (s.entered c tf)) ∧
  (tf.tfTrapno = tPgflt → Survives (pageFaultHandler cpu cr2) (s.entered c tf))

/-- From every state of a guarded run a system call or a page fault survives if and only if it is
none of the accidents. -/
theorem entry_survives_iff (hr : Runs B h s) (hg : Guarded h) (hc : (s.cpus cpu).cpuEnv = some c)
    (hst : (s.envs c).envStatus ≠ .dying) (cr2 cons : Word) :
    EntrySurvives s cpu c tf cr2 cons ↔ ∀ ex, ¬ TrapCrash s cpu c tf ex := by
  obtain ⟨hE, hok⟩ := kernelOk_of_run hr hg
  have hE' : EnvsIn none (s.entered c tf) := hE.entered tf
  have hok' : MemOk B (s.entered c tf) :=
    (hok.setEnv (e := c) (v := { s.envs c with envTf := tf }) rfl).1
  have hc' : ((s.entered c tf).cpus cpu).cpuEnv = some c := hc
  constructor
  · rintro ⟨hsys, hfault⟩ ex (⟨-, hno, hcrash⟩ | ⟨-, hno, hcrash⟩)
    · exact not_survives (hcrash.ends hE' hok' hc' cons) hcrash.not_orderly (hsys hno)
    · exact not_survives (hcrash.ends hE' hok' hc' cr2) hcrash.not_orderly (hfault hno)
  · intro hcrash
    constructor
    · intro hno
      exact syscall_survives hE' hok' hc' cons tf.call
        (fun ex hex => hcrash ex (.call hst hno hex))
    · intro hno
      refine (pageFaultHandler_mem hE' hok' hc' cr2).mono (fun _ _ h => h.elim) ?_
      rintro ex t (hex | ⟨hex, -⟩)
      · exact absurd (.fault hst hno hex) (hcrash ex)
      · exact hex

/-- `sys_env_set_trapframe` of a frame that is mapped is no accident. -/
lemma not_trapCrash_frame {envid va : Word} (hmapped : ∀ k : Fin 68, walk s.pm.mem (s.cpus cpu).cr3
    (va + BitVec.ofNat 32 k) ≠ none) (ex : Exit) : ¬ TrapCrash s cpu c (callFrame 9 envid va 0 0 0) ex := by
  have hno : (callFrame 9 envid va 0 0 0).call.no.toNat = 9 := rfl
  intro hex
  cases hex with
  | call hst hsys hcrash =>
    cases hcrash with
    | badFrame h9 he htf hk hw => exact hmapped ⟨_, hk⟩ hw
    | _ => omega
  | fault hst hpf hcrash => exact absurd hpf (show tSyscall ≠ tPgflt by decide)

/-- `sys_env_set_trapframe` reads a frame from the user's stack. -/
theorem entry_survives_stack : EntrySurvives smallStart 0 0 (callFrame 9 0 0xeebfd000 0 0 0) 0 0 :=
  (entry_survives_iff smallStart_run smallStart_guarded (by decide +kernel) (by decide +kernel) 0 0).mpr
    (not_trapCrash_frame (by decide +kernel))

/-- `sys_env_set_trapframe` reads an unmapped address. -/
theorem entry_crashes : ∃ h, Runs smallBoot h smallStart ∧
    (smallStart.cpus 0).cpuEnv = some 0 ∧ (smallStart.envs 0).envStatus = .running ∧
    ¬ EntrySurvives smallStart 0 0 (callFrame 9 0 0x10000 0 0 0) 0 0 := by
  refine ⟨_, smallStart_run, by decide +kernel, by decide +kernel, fun hs => ?_⟩
  have hfault : exitOf (syscall 0 0 9 0 0x10000 0 0 0)
      (smallStart.entered 0 (callFrame 9 0 0x10000 0 0 0)) = some .fault := by
    decide +kernel
  have hex := (hs.1 rfl).of_error (eq_error_of_exitOf hfault)
  rcases hex with hex | hex <;> cases hex

end SistemasOperativos.Kern
