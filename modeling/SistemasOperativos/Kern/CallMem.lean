import SistemasOperativos.Kern.KernelMem

/-!
# System calls and memory

What a system call does to the address spaces, and how it can bring the kernel down, for every
call. A call that shares a page (`sys_page_map`, `sys_ipc_try_send`) also keeps the books as long
as the page is really mapped, the permission word fits in the flags and the reference count does
not overflow: `MemGuard`.
-/

namespace SistemasOperativos.Kern

open Library

/-- The ends of a kernel entry that leave the machine going. -/
def Exit.Orderly (ex : Exit) : Prop := ex = .leave ∨ ex = .monitor

/-- `va` has a page table in the address space of `e`. -/
def HasTable (s : Kernel) (e : EnvIdx) (va : Word) : Prop :=
  tableAt target (dirsOf s) s.pm.mem e (pdx va) ≠ none

/-! ### What the calls check -/

/-- The checks of `sys_page_map`. -/
structure MapChecks (s : Kernel) (c : EnvIdx) (call : Call) (se de : EnvIdx)
    (hs : call.a2 < utop) : Prop where
  src : envOf s c call.a1 false = some se
  dst : envOf s c call.a3 false = some de
  srcva : roundup call.a2 = call.a2
  dstva : roundup call.a4 = call.a4
  table : HasTable s se call.a2
  perm : call.a5 &&& (pteU ||| pteP) = pteU ||| pteP
  writable : has call.a5 pteW = true → has (spacesOf s se (pageNo call.a2 hs)) pteW = true

/-- The checks `sys_ipc_try_send` makes on a page. -/
structure SendChecks (s : Kernel) (c : EnvIdx) (srcva perm : Word) (hs : srcva < utop) : Prop where
  aligned : srcva % 0x1000 = 0
  present : has perm pteP = true
  user : has perm pteU = true
  bits : pteSyscall &&& perm = perm
  table : HasTable s c srcva
  writable : has perm pteW = true → has (spacesOf s c (pageNo srcva hs)) pteW = true

/-- The call maps the page of `se` at `n` at page `m` of `de`, with permission `perm`. -/
inductive Shares (s : Kernel) (c : EnvIdx) (call : Call) :
    EnvIdx → PageNo → EnvIdx → PageNo → Word → Prop
  | map {se de : EnvIdx} (hno : call.no.toNat = 5) (hs : call.a2 < utop) (hd : call.a4 < utop)
      (h : MapChecks s c call se de hs) :
      Shares s c call se (pageNo call.a2 hs) de (pageNo call.a4 hd) call.a5
  | send {e : EnvIdx} (hno : call.no.toNat = 12) (he : envOf s c call.a1 false = some e)
      (hrecv : (s.envs e).envIpcRecving = true) (hs : call.a3 < utop)
      (hd : (s.envs e).envIpcDstva < utop) (h : SendChecks s c call.a3 call.a4 hs) :
      Shares s c call c (pageNo call.a3 hs) e (pageNo (s.envs e).envIpcDstva hd) call.a4

/-- The condition under which a call keeps the books of the pages. -/
structure MemGuard (s : Kernel) (c : EnvIdx) (call : Call) : Prop where
  share : ∀ se n de m perm, Shares s c call se n de m perm →
    has (spacesOf s se n) pteP = true ∧ perm.toNat < 4096 ∧
      (s.pm.ppRef (pgnum (spacesOf s se n)) ≠ 0xffff ∨
        target (spacesOf s de m) = some (pgnum (spacesOf s se n)))
  unmap : call.no.toNat = 6 → ∀ e (hva : call.a2 < utop), envOf s c call.a1 true = some e →
    call.a2 % 0x1000 = 0 → HasTable s e call.a2 →
    has (spacesOf s e (pageNo call.a2 hva)) pteP = true ∨ s.pm.ppRef 0 ≠ 1

/-! ### What the calls do -/

/-- The page `sys_ipc_try_send` is asked to send does not pass its checks. -/
def SendRefused (s : Kernel) (c : EnvIdx) (srcva perm : Word) (hs : srcva < utop) : Prop :=
  srcva % 0x1000 ≠ 0 ∨
    (has perm pteP = false ∨ has perm pteU = false ∨ pteSyscall &&& perm ≠ perm) ∨
    ¬ HasTable s c srcva ∨
    (has perm pteW = true ∧ has (spacesOf s c (pageNo srcva hs)) pteW = false)

/-- The errors the calls return, with what they have found. -/
inductive Failed (s : Kernel) (c : EnvIdx) (call : Call) : Word → Prop
  | number (hno : 13 < call.no.toNat) : Failed s c call (-eInval)
  | badEnv (hno : call.no.toNat ∈ [3, 4, 6, 8, 9, 10]) (he : envOf s c call.a1 true = none) :
      Failed s c call (-eBadEnv)
  | noFreeEnv (hno : call.no.toNat = 7) (hfl : s.envFreeList = none) :
      Failed s c call (-eNoFreeEnv)
  | forkNoMem (hno : call.no.toNat = 7) (hfl : s.pm.pageFreeList = none) :
      Failed s c call (-eNoMem)
  | status (hno : call.no.toNat = 8) (hst : settableStatus call.a2 = none) :
      Failed s c call (-eInval)
  | frameVa {e : EnvIdx} (hno : call.no.toNat = 9) (he : envOf s c call.a1 true = some e)
      (hva : call.a2 ≥ utop) : Failed s c call (-eInval)
  | pageVa (hno : call.no.toNat = 4 ∨ call.no.toNat = 6)
      (hva : call.a2 ≥ utop ∨ call.a2 % 0x1000 ≠ 0) : Failed s c call (-eInval)
  | allocPerm (hno : call.no.toNat = 4)
      (hperm : call.a3 &&& ~~~pteSyscall ≠ 0 ∨ call.a3 &&& (pteU ||| pteP) = 0) :
      Failed s c call (-eInval)
  | allocNoMem {e : EnvIdx} (hno : call.no.toNat = 4) (he : envOf s c call.a1 true = some e)
      (hmem : ∀ p, s.pm.pageFreeList = some p → ¬ HasTable s e call.a2 ∧ s.pm.ppLink p = none) :
      Failed s c call (-eNoMem)
  | mapBadEnv (hno : call.no.toNat = 5)
      (he : envOf s c call.a1 false = none ∨ envOf s c call.a3 false = none) :
      Failed s c call (-eBadEnv)
  | mapVa (hno : call.no.toNat = 5)
      (hva : (call.a2 ≥ utop ∨ roundup call.a2 ≠ call.a2) ∨
        call.a4 ≥ utop ∨ roundup call.a4 ≠ call.a4) : Failed s c call (-eInval)
  | mapUnmapped {se : EnvIdx} (hno : call.no.toNat = 5) (he : envOf s c call.a1 false = some se)
      (hva : call.a2 < utop) (htab : ¬ HasTable s se call.a2) : Failed s c call (-eInval)
  | mapPerm (hno : call.no.toNat = 5)
      (hperm : call.a5 &&& (pteU ||| pteP) ≠ pteU ||| pteP) : Failed s c call (-eInval)
  | mapReadOnly {se : EnvIdx} (hno : call.no.toNat = 5) (he : envOf s c call.a1 false = some se)
      (hva : call.a2 < utop) (hW : has call.a5 pteW = true)
      (hro : has (spacesOf s se (pageNo call.a2 hva)) pteW = false) : Failed s c call (-eInval)
  | sendBadEnv (hno : call.no.toNat = 12) (he : envOf s c call.a1 false = none) :
      Failed s c call (-eBadEnv)
  | notRecv {e : EnvIdx} (hno : call.no.toNat = 12) (he : envOf s c call.a1 false = some e)
      (hrecv : (s.envs e).envIpcRecving = false) : Failed s c call (-eIpcNotRecv)
  | sendPage (hno : call.no.toNat = 12) (hva : call.a3 < utop)
      (hchk : SendRefused s c call.a3 call.a4 hva) : Failed s c call (-eInval)
  | sendNoMem {e : EnvIdx} {n m : PageNo} {perm : Word} (hno : call.no.toNat = 12)
      (he : envOf s c call.a1 false = some e) (h : Shares s c call c n e m perm)
      (htab : ¬ HasTable s e (s.envs e).envIpcDstva) (hfl : s.pm.pageFreeList = none) :
      Failed s c call (-eNoMem)
  | recvVa (hno : call.no.toNat = 13) (hva : call.a1 < utop) (hal : call.a1 % 0x1000 ≠ 0) :
      Failed s c call (-eInval)

lemma Failed.slt {s : Kernel} {c : EnvIdx} {call : Call} {r : Word} (h : Failed s c call r) :
    r.slt 0 = true := by
  cases h <;> decide

/-- The result of a call and the address spaces it leaves. -/
inductive Remapped (B : Boot) (s : Kernel) (c : EnvIdx) (call : Call) :
    Word → (EnvIdx → PageNo → Word) → Prop
  | failed {r : Word} (h : Failed s c call r) : Remapped B s c call r (spacesOf s)
  | kept {r : Word} (hno : call.no.toNat ∉ [4, 5, 6, 12, 13])
      (hset : call.no.toNat ∈ [8, 9, 10] → r = 0)
      (hfork : call.no.toNat = 7 → s.envFreeList ≠ none ∧ s.pm.pageFreeList ≠ none) :
      Remapped B s c call r (spacesOf s)
  | removed (e : EnvIdx) (hno : call.no.toNat = 3) (he : envOf s c call.a1 true = some e) :
      Remapped B s c call 0 (clearSpace (spacesOf s) e)
  | alloc (e : EnvIdx) (p : ℕ) (hno : call.no.toNat = 4) (he : envOf s c call.a1 true = some e)
      (hva : call.a2 < utop) (hal : call.a2 % 0x1000 = 0)
      (hbits : call.a3 &&& ~~~pteSyscall = 0) (hflag : call.a3 &&& (pteU ||| pteP) ≠ 0)
      (hp : s.pm.pageFreeList = some p) (hfree : p ∈ B.freeList)
      (hnew : ∀ r, pointers (dirsOf s) s.pm.mem r ≠ some p)
      (htab : HasTable s e call.a2 ∨ s.pm.ppLink p ≠ none) :
      Remapped B s c call 0 (setPage (spacesOf s) e (pageNo call.a2 hva)
        (page2pa p ||| call.a3 ||| pteP))
  | shared {se de : EnvIdx} {n m : PageNo} {perm : Word} (h : Shares s c call se n de m perm)
      (htab : tableAt target (dirsOf s) s.pm.mem de m.1 ≠ none ∨ s.pm.pageFreeList ≠ none) :
      Remapped B s c call 0 (setPage (spacesOf s) de m
        (page2pa (pgnum (spacesOf s se n)) ||| perm ||| pteP))
  /-- `page_insert` fails, and `page_free` takes frame 0 -/
  | noTable {se de : EnvIdx} {n m : PageNo} {perm : Word} (hno : call.no.toNat = 5)
      (h : Shares s c call se n de m perm)
      (htab : tableAt target (dirsOf s) s.pm.mem de m.1 = none) (hfl : s.pm.pageFreeList = none)
      (href : s.pm.ppRef (pgnum (spacesOf s se n)) = 0) :
      Remapped B s c call (-eNoMem) (spacesOf s)
  | unmapped (e : EnvIdx) (hno : call.no.toNat = 6) (he : envOf s c call.a1 true = some e)
      (hva : call.a2 < utop) (hal : call.a2 % 0x1000 = 0) :
      Remapped B s c call 0 (setPage (spacesOf s) e (pageNo call.a2 hva) 0)
  | sent (e : EnvIdx) (hno : call.no.toNat = 12) (he : envOf s c call.a1 false = some e)
      (hrecv : (s.envs e).envIpcRecving = true)
      (hpage : ∀ hs : call.a3 < utop, SendChecks s c call.a3 call.a4 hs ∧
        ¬(s.envs e).envIpcDstva < utop) :
      Remapped B s c call 0 (spacesOf s)

/-- The page state is as it was, but for the contents of a free frame. -/
def Undone (s t : Kernel) : Prop :=
  ∃ mem, t.pm = { s.pm with mem := mem } ∧
    ∀ f, mem f ≠ s.pm.mem f → s.pm.pageFreeList = some f

/-- How a call can bring the kernel down. -/
inductive Crash (s : Kernel) (cpu : Cpu) (c : EnvIdx) (call : Call) : Exit → Prop
  | outOfMemory {se de : EnvIdx} {n m : PageNo} {perm : Word} (hno : call.no.toNat = 5)
      (h : Shares s c call se n de m perm)
      (htab : tableAt target (dirsOf s) s.pm.mem de m.1 = none)
      (hfl : s.pm.pageFreeList = none) (href : s.pm.ppRef (pgnum (spacesOf s se n)) ≠ 0) :
      Crash s cpu c call .panic
  | badFrame {e : EnvIdx} {k : ℕ} (hno : call.no.toNat = 9)
      (he : envOf s c call.a1 true = some e) (htf : call.a2 < utop) (hk : k < 68)
      (hw : walk s.pm.mem (s.cpus cpu).cr3 (call.a2 + BitVec.ofNat 32 k) = none) :
      Crash s cpu c call .fault
  | badString {k : ℕ} (hno : call.no.toNat = 0)
      (hchk : MemChecked (dirsOf s) s.pm.mem c call.a1 call.a2 (pteU ||| pteU))
      (hstr : call.a1 ≠ 0)
      (hk : StringReaches s.pm.mem (s.cpus cpu).cr3 call.a1 call.a2.toInt k)
      (hw : walk s.pm.mem (s.cpus cpu).cr3 (call.a1 + BitVec.ofNat 32 k) = none) :
      Crash s cpu c call .fault

/-- The end of a call that does not return. -/
def LeftMem (B : Boot) (s : Kernel) (c : EnvIdx) (ex : Exit) (t : Kernel) : Prop :=
  ex.Orderly ∧ (ex = .leave → MemOk B t ∧
    (spacesOf t = spacesOf s ∨ spacesOf t = clearSpace (spacesOf s) c))

/-- The calls that may not return. -/
def Call.Leaves (call : Call) : Prop :=
  call.no.toNat ∈ [0, 3, 11] ∨
    (call.no.toNat = 13 ∧ (call.a1 < utop → call.a1 % 0x1000 = 0))

/-- What a call that returns leaves of memory: under the guard the books, and after an error
everything else too. -/
def Kept (B : Boot) (s : Kernel) (c : EnvIdx) (call : Call) (r : Word) (t : Kernel) : Prop :=
  MemGuard s c call → MemOk B t ∧ (r.slt 0 = true → Undone s t)

/-- The rule of a call for memory. -/
def CallMem (B : Boot) (s : Kernel) (cpu : Cpu) (c : EnvIdx) (call : Call) (f : KernM Word) :
    Prop :=
  Sat f s
    (fun r t => Kept B s c call r t ∧ Remapped B s c call r (spacesOf t))
    (fun ex t => Crash s cpu c call ex ∨ (call.Leaves ∧ LeftMem B s c ex t))

lemma Undone.of_pm {s t : Kernel} (h : t.pm = s.pm) : Undone s t :=
  ⟨s.pm.mem, h, fun _ hf => absurd rfl hf⟩

variable {B : Boot} {s t : Kernel} {cpu : Cpu} {c e : EnvIdx} {d : ℕ} {busy : Option Cpu}

/-! ### Scheduling -/

lemma ran_pgdir (s : Kernel) (cpu : Cpu) (j : EnvIdx) (d : ℕ) (e : EnvIdx) :
    ((s.ran cpu j d).envs e).envPgdir = (s.envs e).envPgdir := by
  obtain ⟨runs, cpunum, h⟩ := ran_envs s cpu j d e
  rw [h]

lemma PmapIn.ran (h : MemOk B s) (cpu : Cpu) (j : EnvIdx) (d : ℕ) :
    MemOk B (s.ran cpu j d) ∧ spacesOf (s.ran cpu j d) = spacesOf s :=
  PmapIn.congr h rfl (ran_pgdir s cpu j d)

lemma Dispatch.mem (hd : Dispatch s cpu t) (h : MemOk B s) :
    MemOk B t ∧ spacesOf t = spacesOf s := by
  cases hd with
  | next j d hj hst hd => exact h.ran cpu j d
  | again j d hnone hj hst hd => exact h.ran cpu j d
  | halt hnone hcur => exact PmapIn.congr h rfl (fun _ => rfl)

lemma schedYield_mem {α : Type} (hE : EnvsIn busy s) (h : MemOk B s) :
    Sat (schedYield (α := α) cpu) s (fun _ _ => False)
      (fun ex t => ex.Orderly ∧ (ex = .leave → MemOk B t ∧ spacesOf t = spacesOf s)) := by
  refine (schedYield_rule s cpu).mono (fun _ _ h => h) ?_
  rintro ex t (⟨rfl, hd⟩ | rfl | ⟨-, j, hj, hpg⟩)
  · exact ⟨Or.inl rfl, fun _ => hd.mem h⟩
  · exact ⟨Or.inr rfl, fun hl => by cases hl⟩
  · exact absurd ((hE.pgdir j).mp hpg) hj

/-- An environment that exists has a page directory. -/
lemma EnvsIn.exists_dir (hE : EnvsIn busy s) (he : (s.envs e).envStatus ≠ .free) :
    ∃ d, dirsOf s e = some d := by
  cases hd : dirsOf s e with
  | some d => exact ⟨d, rfl⟩
  | none => exact absurd ((hE.pgdir e).mp hd) he

/-- `env_destroy` marks the environment, frees it, or frees it and schedules. -/
lemma envDestroy_mem (hE : EnvsIn busy s) (hbusy : busy = none ∨ busy = some cpu)
    (h : MemOk B s) (he : (s.envs e).envStatus ≠ .free) :
    Sat (envDestroy cpu e) s
      (fun _ t => MemOk B t ∧ (spacesOf t = spacesOf s ∨ spacesOf t = clearSpace (spacesOf s) e))
      (fun ex t => ex.Orderly ∧ (ex = .leave → MemOk B t ∧
        spacesOf t = clearSpace (spacesOf s) e)) := by
  obtain ⟨d, hd⟩ := hE.exists_dir he
  unfold envDestroy
  rw [sat_bind, sat_get]
  split
  · unfold modifyEnv
    simp only [sat_bind, sat_modify, sat_pure]
    obtain ⟨hok, hsp⟩ := PmapIn.setEnv (e := e) (v := { s.envs e with envStatus := .dying }) h rfl
    exact ⟨hok, Or.inl hsp⟩
  · rw [sat_bind]
    refine ((envFree_mem cpu hd h).and (envFree_rule s cpu e)).mono ?_
      (fun _ _ hf => hf.1.elim)
    rintro - t ⟨⟨hok, hsp, -⟩, -, pm, rfl⟩
    have hcpu : ((s.freed cpu e pm).cpus cpu).cpuEnv = (s.cpus cpu).cpuEnv := by
      show (s.freedCpus cpu e cpu).cpuEnv = _
      unfold Kernel.freedCpus
      split
      · rw [Function.update_self]
      · rfl
    unfold curenv?
    simp only [sat_bind, sat_get, sat_pure, hcpu]
    split
    · rename_i hcur
      unfold setCurenv
      rw [sat_bind, sat_modify]
      have hE' := hE.freed_vacated hcur hbusy pm
      obtain ⟨hok', hsp'⟩ := PmapIn.congr (t := (s.freed cpu e pm).vacated cpu) hok rfl
        (fun _ => rfl)
      refine (schedYield_mem hE' hok').mono (fun _ _ h => h.elim) ?_
      rintro ex t ⟨hex, ht⟩
      refine ⟨hex, fun hl => ⟨(ht hl).1, (ht hl).2.trans (hsp'.trans hsp)⟩⟩
    · exact sat_pure.mpr ⟨hok, Or.inr hsp⟩

/-! ### User memory -/

lemma userMemAssert_mem (hE : EnvsIn busy s) (hbusy : busy = none ∨ busy = some cpu)
    (h : MemOk B s) (hc : (s.cpus cpu).cpuEnv = some c) (va len perm : Word) :
    Sat (userMemAssert cpu c va len perm) s
      (fun _ t => t = s ∧ MemChecked (dirsOf s) s.pm.mem c va len (perm ||| pteU))
      (LeftMem B s c) := by
  have hne := hE.ne_free hc
  obtain ⟨d, hd⟩ := hE.exists_dir hne
  have hd' : (s.envs c).envPgdir = some d := hd
  unfold userMemAssert
  simp only [sat_bind, sat_get]
  rw [sat_liftPm, hd']
  refine (userMemCheck_sat h hd va len _).mono ?_ (fun _ _ h => h.elim)
  rintro (_ | bad) t ⟨rfl, hchk⟩
  · exact sat_pure.mpr ⟨rfl, hchk.mp rfl⟩
  · refine ((envDestroy_mem hE hbusy h hne).and (envDestroy_rule s cpu c)).mono ?_ ?_
    · rintro - t ⟨-, hcur, -⟩
      exact absurd hc hcur
    · rintro ex t ⟨⟨hex, ht⟩, -⟩
      exact ⟨hex, fun hl => ⟨(ht hl).1, Or.inr (ht hl).2⟩⟩

/-- A range that passes the check of `user_mem_check` passes `user_mem_assert`. -/
lemma userMemAssert_checked (hE : EnvsIn none s) (h : MemOk B s) (hc : (s.cpus cpu).cpuEnv = some c)
    {va len perm : Word} (hchk : MemChecked (dirsOf s) s.pm.mem c va len (perm ||| pteU)) :
    Sat (userMemAssert cpu c va len perm) s (fun _ t => t = s) (fun _ _ => False) := by
  obtain ⟨d, hd⟩ := hE.exists_dir (hE.ne_free hc)
  have hd' : (s.envs c).envPgdir = some d := hd
  unfold userMemAssert
  simp only [sat_bind, sat_get]
  rw [sat_liftPm, hd']
  refine (userMemCheck_sat h hd va len _).mono ?_ (fun _ _ h => h.elim)
  rintro r t ⟨rfl, hr⟩
  obtain rfl := hr.mpr hchk
  exact sat_pure.mpr rfl

section Calls

variable {call : Call}

lemma Kept.of_ok (h : MemGuard s c call → MemOk B t) : Kept B s c call 0 t :=
  fun hg => ⟨h hg, fun hr => by simp at hr⟩

lemma Kept.same (h : MemOk B s) (r : Word) : Kept B s c call r s := fun _ => ⟨h, fun _ => .of_pm rfl⟩

lemma CallMem.failed (h : MemOk B s) {r : Word} (hr : Failed s c call r) :
    CallMem B s cpu c call (pure r) :=
  sat_pure.mpr ⟨.same h r, .failed hr⟩

lemma sysCputs_mem (hE : EnvsIn none s) (h : MemOk B s) (hc : (s.cpus cpu).cpuEnv = some c)
    (hno : call.no.toNat = 0) :
    CallMem B s cpu c call (do sysCputs cpu call.a1 call.a2; return 0) := by
  have hkept : Remapped B s c call 0 (spacesOf s) := .kept (by rw [hno]; decide) (by rw [hno]; decide) (by omega)
  unfold CallMem sysCputs
  simp only [sat_bind, sat_curenv hc]
  refine (userMemAssert_mem hE (Or.inl rfl) h hc call.a1 call.a2 pteU).mono ?_
    (fun _ _ h => Or.inr ⟨Or.inl (by rw [hno]; decide), h⟩)
  rintro - t ⟨rfl, hchk⟩
  generalize 2 ^ 32 = fuel
  split
  · rename_i hstr
    rw [sat_bind, sat_get, sat_liftPm]
    refine (probes_vprintfmtString (t.cpus cpu).cr3 fuel call.a1 call.a2.toInt t.pm rfl).mono ?_ ?_
    · rintro - pm ⟨rfl, -⟩
      exact sat_pure.mpr ⟨.same h 0, hkept⟩
    · rintro ex pm ⟨rfl, k, ⟨-, hk⟩, hw⟩
      exact Or.inl (.badString hno hchk hstr hk (not_not.mp hw))
  · rw [sat_pure]
    exact sat_pure.mpr ⟨.same h 0, hkept⟩

lemma sysEnvDestroy_mem (hE : EnvsIn none s) (h : MemOk B s) (hc : (s.cpus cpu).cpuEnv = some c)
    (hno : call.no.toNat = 3) : CallMem B s cpu c call (sysEnvDestroy cpu call.a1) := by
  unfold CallMem sysEnvDestroy
  rw [sat_bind, sat_envid2env hc]
  cases he : envOf s c call.a1 true with
  | none => exact CallMem.failed h (.badEnv (by rw [hno]; decide) he)
  | some e =>
    have hne := envOf_ne_free (hE.ne_free hc) he
    dsimp only
    rw [sat_bind]
    refine ((envDestroy_mem hE (Or.inl rfl) h hne).and (envDestroy_rule s cpu e)).mono ?_ ?_
    · rintro - t ⟨⟨hok, hsp⟩, -⟩
      refine sat_pure.mpr ⟨.of_ok fun _ => hok, ?_⟩
      rcases hsp with hsp | hsp
      · rw [hsp]
        exact .kept (by rw [hno]; decide) (by rw [hno]; decide) (by omega)
      · rw [hsp]
        exact .removed e hno he
    · rintro ex t ⟨⟨hex, ht⟩, hrule⟩
      refine Or.inr ⟨Or.inl (by rw [hno]; decide), hex, fun hl => ⟨(ht hl).1, Or.inr ?_⟩⟩
      obtain ⟨hcur, -⟩ := hrule hl
      rw [hc] at hcur
      rw [Option.some.inj hcur]
      exact (ht hl).2

/-- Two ways to ask for no bit outside `PTE_SYSCALL`. -/
lemma bits_iff (perm : Word) : perm &&& ~~~pteSyscall = 0 ↔ pteSyscall &&& perm = perm := by
  constructor
  · intro h
    have hall : perm &&& (pteSyscall ||| ~~~pteSyscall) = perm := by
      rw [show pteSyscall ||| ~~~pteSyscall = BitVec.allOnes 32 by decide, BitVec.and_allOnes]
    rw [BitVec.and_or_distrib_left, show perm &&& ~~~pteSyscall = 0#32 from h,
      BitVec.or_zero] at hall
    rw [BitVec.and_comm, hall]
  · intro h
    rw [← h, BitVec.and_comm pteSyscall, BitVec.and_assoc,
      show pteSyscall &&& ~~~pteSyscall = 0#32 by decide, BitVec.and_zero]
    rfl

lemma flags_lt {perm : Word} (h : perm &&& ~~~pteSyscall = 0) : perm.toNat < 4096 := by
  rw [← (bits_iff perm).mp h, BitVec.toNat_and]
  exact Nat.lt_of_le_of_lt Nat.and_le_left (by decide)

lemma sysPageAlloc_mem (hE : EnvsIn none s) (h : MemOk B s) (hc : (s.cpus cpu).cpuEnv = some c)
    (hno : call.no.toNat = 4) :
    CallMem B s cpu c call (sysPageAlloc cpu call.a1 call.a2 call.a3) := by
  unfold CallMem sysPageAlloc
  rw [sat_bind, sat_envid2env hc]
  cases he : envOf s c call.a1 true with
  | none => exact CallMem.failed h (.badEnv (by rw [hno]; decide) he)
  | some e =>
    obtain ⟨d, hd⟩ := hE.exists_dir (envOf_ne_free (hE.ne_free hc) he)
    dsimp only
    rw [sat_ite]
    refine ⟨fun hp => CallMem.failed h (.allocPerm hno hp), fun hperm => ?_⟩
    rw [not_or] at hperm
    have hbits := not_not.mp hperm.1
    rw [sat_ite]
    refine ⟨fun hv => CallMem.failed h (.pageVa (Or.inl hno) hv), fun hva => ?_⟩
    rw [not_or] at hva
    have hlt : call.a2 < utop := BitVec.not_le.mp hva.1
    have hal := not_not.mp hva.2
    rw [sat_bind, sat_liftPm]
    refine (pageAlloc_hand h).mono ?_ (fun _ _ h => h.elim)
    rintro (_ | p) pm
    · rintro ⟨hnone, rfl⟩
      exact CallMem.failed h (.allocNoMem hno he (fun p hp => by rw [hnone] at hp; cases hp))
    rintro ⟨hfl, hpm, hpf, -, hfresh, hok, hptr, hS⟩
    have hd' : (s.envs e).envPgdir = some d := hd
    simp only [sat_bind, sat_get]
    rw [sat_liftPm, hd']
    have hins := pageInsert_sat hok hd hlt hpf (Or.inl (Finset.mem_insert_self p ∅))
      (fun r _ => by rw [hptr]; exact hfresh r) rfl
      (Or.inl (by rw [hok.idle p (Finset.mem_insert_self p ∅)]; decide)) (flags_lt hbits)
    have htab : tableAt target (dirsOf s) pm.mem e (pdx call.a2) =
        tableAt target (dirsOf s) s.pm.mem e (pdx call.a2) :=
      congrFun hptr (.pde e ⟨pdx call.a2, pdx_lt_pdxUtop hlt⟩)
    have hnoMem : Sat (pageInsert (some d) p call.a2 call.a3) pm
        (fun r _ => r = 0 → HasTable s e call.a2 ∨ s.pm.ppLink p ≠ none) (fun _ _ => True) := by
      by_cases hmem : HasTable s e call.a2 ∨ s.pm.ppLink p ≠ none
      · exact hins.mono (fun _ _ _ _ => hmem) (fun _ _ h => h.elim)
      · rw [not_or, HasTable, not_not, not_not] at hmem
        refine (pageInsert_noMem hd (htab.trans hmem.1) (by rw [hpm]; exact hmem.2) p _).mono ?_
          (fun _ _ h => h.elim)
        rintro r t ⟨rfl, -⟩ hr
        exact absurd hr (by decide)
    refine (hins.and hnoMem).mono ?_ (fun _ _ h => h.1.elim)
    rintro r pm' ⟨⟨rfl, hnt, hfl', rfl⟩ | ⟨rfl, hok', hS'⟩, hmem⟩
    · -- the mapping failed: the page goes back on the free list
      rw [if_pos (show (-eNoMem : Word).slt 0 = true by decide), sat_bind, sat_liftPm]
      refine (pageFree_sat hok.alloc hpf (by
        rw [Pi.add_apply, hok.idle p (Finset.mem_insert_self p ∅)]; rfl)
        (Finset.mem_insert_self p ∅)).mono ?_ (fun _ _ h => h.elim)
      rintro - pm'' ⟨hpm'', halloc⟩
      rw [Finset.erase_insert (Finset.notMem_empty p)] at halloc
      have hmem'' : pm''.mem = pm'.mem := by rw [hpm'']
      rw [sat_pure]
      refine ⟨fun _ => ⟨⟨?_, ?_, ?_, ?_, ?_, fun f hf => absurd hf (Finset.notMem_empty f)⟩, fun _ => ?_⟩, ?_⟩
      · rw [hpm'']
        exact hok.npages
      · rw [hpm'']
        exact hok.kernPgdir
      · show TablesOk B (dirsOf s) pm''.mem
        rw [hmem'']
        exact hok.tables
      · show AllocOk B (refs (pointers (dirsOf s) pm''.mem) + 0) ∅ pm''
        rw [hmem'']
        exact halloc
      · intro f
        show refs (pointers (dirsOf s) pm''.mem) f < 65536
        rw [hmem'']
        exact hok.bound f
      · refine ⟨pm'.mem, ?_, ?_⟩
        · show pm'' = _
          rw [hpm'', hfl', hpm]
          unfold allocated
          rw [hpm] at hfl'
          have hlink : s.pm.ppLink p = none := hfl'
          rw [Function.update_idem, ← hlink, Function.update_eq_self, ← hfl]
        · intro f hf
          rw [hpm] at hf
          by_cases hfp : f = p
          · rw [hfl, hfp]
          · exact absurd (Function.update_of_ne hfp _ _) hf
      · have hsame : spacesOf { s with pm := pm'' } = spacesOf s := by
          show spaces (dirsOf s) pm''.mem = _
          rw [hmem'', hS]
          rfl
        rw [hsame]
        refine .failed (.allocNoMem hno he (fun q hq => ?_))
        rw [hfl] at hq
        obtain rfl := Option.some.inj hq
        rw [hpm] at hfl'
        exact ⟨fun hc => hc (htab ▸ hnt), hfl'⟩
    · rw [if_neg (by decide), sat_pure]
      rw [Finset.erase_insert (Finset.notMem_empty p)] at hok'
      refine ⟨.of_ok fun _ => hok', ?_⟩
      have hS'' : spacesOf { s with pm := pm' } = setPage (spacesOf s) e (pageNo call.a2 hlt)
          (page2pa p ||| call.a3 ||| pteP) := by
        show spaces (dirsOf s) pm'.mem = _
        rw [hS', hS]
        rfl
      rw [hS'']
      exact .alloc e p hno he hlt hal hbits hperm.2 hfl hpf hfresh (hmem rfl)

/-- `page_lookup` in the address space of an environment. -/
lemma lookup_mem (h : MemOk B s) (hd : dirsOf s e = some d) {va : Word} (hva : va < utop) :
    Sat (pageLookup (some d) va) s.pm
      (fun r t => t = s.pm ∧ ((r = none ∧ ¬ HasTable s e va) ∨
        (HasTable s e va ∧ ∃ tb, r = some (pgnum (spacesOf s e (pageNo va hva)), ⟨tb, ptx va⟩) ∧
          s.pm.mem tb (ptx va) = spacesOf s e (pageNo va hva))))
      (fun _ _ => False) := by
  refine (pageLookup_sat hd (fun t ht => h.target_lt (r := .pde e (pageNo va hva).1) ht)
    (h.pgnum_lt e (pageNo va hva))).mono ?_ (fun _ _ h => h)
  rintro r t ⟨rfl, rfl⟩
  refine ⟨rfl, ?_⟩
  unfold HasTable
  cases htb : tableAt target (dirsOf s) s.pm.mem e (pdx va) with
  | none => exact Or.inl ⟨rfl, fun hc => hc rfl⟩
  | some tb => exact Or.inr ⟨by simp, tb, rfl, (entryAt_of_table htb).symm⟩

lemma refs_lt_of_ref {f : ℕ} (h : MemOk B s) (hf : f ∈ B.freeList) (hr : s.pm.ppRef f ≠ 0xffff) :
    refs (pointers (dirsOf s) s.pm.mem) f + 1 < 65536 := by
  have hb := h.bound f
  have hcount := h.alloc.count f hf
  rw [Pi.add_apply, Pi.zero_apply, Nat.add_zero] at hcount
  by_contra hc
  have heq : refs (pointers (dirsOf s) s.pm.mem) f = 65535 := by omega
  rw [heq] at hcount
  exact hr hcount

/-- A page that is mapped has a reference. -/
lemma ref_ne_zero (h : MemOk B s) {n : PageNo} (hP : has (spacesOf s e n) pteP = true) :
    s.pm.ppRef (pgnum (spacesOf s e n)) ≠ 0 := by
  have hptr : pointers (dirsOf s) s.pm.mem (.pte e n.1 n.2) = some (pgnum (spacesOf s e n)) := by
    rw [pointers_pte]
    exact target_of_present hP
  have hpos := refs_pos_iff.mpr ⟨_, hptr⟩
  have hb := h.bound (pgnum (spacesOf s e n))
  have hcount := h.alloc.count _ (h.tables.managed _ _ hptr)
  rw [Pi.add_apply, Pi.zero_apply, Nat.add_zero] at hcount
  rw [hcount]
  intro h0
  have hnat := congrArg BitVec.toNat h0
  rw [BitVec.toNat_ofNat, Nat.mod_eq_of_lt hb] at hnat
  exact absurd hnat (Nat.pos_iff_ne_zero.mp hpos)

/-- `page_insert` of the page that the entry `n` in the space of `se` names. -/
lemma shareInsert (h : MemOk B s) (se : EnvIdx) {de : EnvIdx} (hd : dirsOf s de = some d) (n : PageNo)
    {va : Word} (hva : va < utop) (perm : Word) :
    Sat (pageInsert (some d) (pgnum (spacesOf s se n)) va perm) s.pm
      (fun r t =>
        (r = -eNoMem ∧ ¬ HasTable s de va ∧ s.pm.pageFreeList = none ∧ t = s.pm) ∨
        (r = 0 ∧ (has (spacesOf s se n) pteP = true ∧ perm.toNat < 4096 ∧
            (s.pm.ppRef (pgnum (spacesOf s se n)) ≠ 0xffff ∨
              target (spacesOf s de (pageNo va hva)) = some (pgnum (spacesOf s se n))) →
            PmapOk B (dirsOf s) t) ∧
          (HasTable s de va ∨ s.pm.pageFreeList ≠ none) ∧
          spaces (dirsOf s) t.mem = setPage (spacesOf s) de (pageNo va hva)
            (page2pa (pgnum (spacesOf s se n)) ||| perm ||| pteP)))
      (fun _ _ => False) := by
  have hspace := pageInsert_space h hd hva ((h.zero_or_held se n).imp_right (fun hr => ⟨_, hr⟩)) perm
  have hbooks : Sat (pageInsert (some d) (pgnum (spacesOf s se n)) va perm) s.pm
      (fun r t => r = 0 → has (spacesOf s se n) pteP = true ∧ perm.toNat < 4096 ∧
          (s.pm.ppRef (pgnum (spacesOf s se n)) ≠ 0xffff ∨
            target (spacesOf s de (pageNo va hva)) = some (pgnum (spacesOf s se n))) →
          PmapOk B (dirsOf s) t) (fun _ _ => True) := by
    by_cases hg : has (spacesOf s se n) pteP = true ∧ perm.toNat < 4096 ∧
        (s.pm.ppRef (pgnum (spacesOf s se n)) ≠ 0xffff ∨
          target (spacesOf s de (pageNo va hva)) = some (pgnum (spacesOf s se n)))
    · obtain ⟨hP, hperm, href⟩ := hg
      have hptr : pointers (dirsOf s) s.pm.mem (.pte se n.1 n.2) = some (pgnum (spacesOf s se n)) := by
        rw [pointers_pte]
        exact target_of_present hP
      have hf := h.tables.managed _ _ hptr
      refine (pageInsert_sat h hd hva hf (Or.inr ⟨_, hptr⟩) (h.tables.leaf hptr) rfl
        (href.imp (refs_lt_of_ref h hf) (fun h => h)) hperm).mono ?_ (fun _ _ h => h.elim)
      rintro r t (⟨rfl, -⟩ | ⟨-, hok, -⟩) h0 -
      · exact absurd h0 (by decide)
      · rw [Finset.erase_empty] at hok
        exact hok
    · exact hspace.mono (fun _ _ _ _ hg' => absurd hg' hg) (fun _ _ h => h.elim)
  have hnoMem : Sat (pageInsert (some d) (pgnum (spacesOf s se n)) va perm) s.pm
      (fun r _ => r = 0 → HasTable s de va ∨ s.pm.pageFreeList ≠ none) (fun _ _ => True) := by
    by_cases hmem : HasTable s de va ∨ s.pm.pageFreeList ≠ none
    · exact hspace.mono (fun _ _ _ _ => hmem) (fun _ _ h => h.elim)
    · rw [not_or, HasTable, not_not, not_not] at hmem
      refine (pageInsert_noMem hd hmem.1 hmem.2 _ _).mono ?_ (fun _ _ h => h.elim)
      rintro r t ⟨rfl, -⟩ hr
      exact absurd hr (by decide)
  refine (hspace.and (hbooks.and hnoMem)).mono ?_ (fun _ _ h => h.1.elim)
  rintro r t ⟨⟨rfl, htab, hfl, rfl⟩ | ⟨rfl, hS⟩, hok, hmem⟩
  · exact Or.inl ⟨rfl, fun hc => hc htab, hfl, rfl⟩
  · exact Or.inr ⟨rfl, hok rfl, hmem rfl, hS⟩

lemma sysPageMap_mem (hE : EnvsIn none s) (h : MemOk B s) (hc : (s.cpus cpu).cpuEnv = some c)
    (hno : call.no.toNat = 5) :
    CallMem B s cpu c call
      (sysPageMap cpu call.a1 call.a2 call.a3 call.a4 call.a5) := by
  have hnf := hE.ne_free hc
  unfold CallMem sysPageMap
  rw [sat_bind, sat_envid2env hc]
  cases hsrc : envOf s c call.a1 false with
  | none => exact CallMem.failed h (.mapBadEnv hno (Or.inl hsrc))
  | some se =>
    dsimp only
    rw [sat_bind, sat_envid2env hc]
    cases hdst : envOf s c call.a3 false with
    | none => exact CallMem.failed h (.mapBadEnv hno (Or.inr hdst))
    | some de =>
      obtain ⟨d, hd⟩ := hE.exists_dir (envOf_ne_free hnf hsrc)
      obtain ⟨d', hd'⟩ := hE.exists_dir (envOf_ne_free hnf hdst)
      have hpg : (s.envs se).envPgdir = some d := hd
      have hpg' : (s.envs de).envPgdir = some d' := hd'
      dsimp only
      rw [sat_ite]
      refine ⟨fun hv => CallMem.failed h (.mapVa hno (Or.inl hv)), fun hs => ?_⟩
      rw [sat_ite]
      refine ⟨fun hv => CallMem.failed h (.mapVa hno (Or.inr hv)), fun hdv => ?_⟩
      rw [not_or] at hs hdv
      have hslt : call.a2 < utop := BitVec.not_le.mp hs.1
      have hdlt : call.a4 < utop := BitVec.not_le.mp hdv.1
      rw [sat_bind, sat_get, sat_bind, sat_liftPm, hpg]
      refine (lookup_mem h hd hslt).mono ?_ (fun _ _ h => h.elim)
      rintro r pm ⟨rfl, ⟨rfl, hnt⟩ | ⟨htab, tb, rfl, hent⟩⟩
      · exact CallMem.failed h (.mapUnmapped hno hsrc hslt hnt)
      dsimp only
      rw [sat_ite]
      refine ⟨fun hp => CallMem.failed h (.mapPerm hno hp), fun hperm => ?_⟩
      unfold readPte
      rw [sat_bind, sat_liftPm]
      simp only [sat_bind, sat_get, sat_pure, hent]
      rw [sat_ite]
      refine ⟨fun hro => CallMem.failed h (.mapReadOnly hno hsrc hslt hro.2
        (by simpa using hro.1)), fun hW => ?_⟩
      have hchk : MapChecks s c call se de hslt := by
        refine ⟨hsrc, hdst, not_not.mp hs.2, not_not.mp hdv.2, htab, not_not.mp hperm, ?_⟩
        intro hw
        by_contra hw'
        exact hW ⟨by simpa using hw', hw⟩
      have hsh := Shares.map hno hslt hdlt hchk
      rw [sat_bind, sat_get, sat_bind, sat_liftPm, hpg']
      refine (shareInsert h se hd' (pageNo call.a2 hslt) hdlt call.a5).mono ?_ (fun _ _ h => h.elim)
      rintro r pm (⟨rfl, hnt, hfl, rfl⟩ | ⟨rfl, hok, hmem, hS⟩)
      · rw [if_pos (show (-eNoMem : Word).slt 0 = true by decide), sat_bind, sat_liftPm]
        have hlink : s.pm.ppLink (pgnum (spacesOf s se (pageNo call.a2 hslt))) = none :=
          h.link_eq_none ((h.zero_or_held se _).imp_right (fun hr => ⟨_, hr⟩))
        unfold pageFree
        simp only [sat_bind, sat_get]
        rw [sat_ite]
        constructor
        · rintro (href | hcon)
          · simp only [sat_bind, sat_throw]
            exact Or.inl (.outOfMemory hno hsh (not_not.mp hnt) hfl href)
          · exact absurd hlink hcon
        · intro href
          rw [not_or, not_not] at href
          simp only [sat_modify, sat_pure]
          refine ⟨fun hg => absurd href.1 (ref_ne_zero h (hg.share _ _ _ _ _ hsh).1), ?_⟩
          exact .noTable hno hsh (not_not.mp hnt) hfl href.1
      · rw [if_neg (by decide), sat_pure]
        refine ⟨fun hg => ⟨hok (hg.share _ _ _ _ _ hsh), fun hr => by simp at hr⟩, ?_⟩
        have hS' : spacesOf { s with pm := pm } = _ := hS
        rw [hS']
        exact .shared hsh hmem

lemma sysPageUnmap_mem (hE : EnvsIn none s) (h : MemOk B s) (hc : (s.cpus cpu).cpuEnv = some c)
    (hno : call.no.toNat = 6) :
    CallMem B s cpu c call (sysPageUnmap cpu call.a1 call.a2) := by
  unfold CallMem sysPageUnmap
  rw [sat_bind, sat_envid2env hc]
  cases he : envOf s c call.a1 true with
  | none => exact CallMem.failed h (.badEnv (by rw [hno]; decide) he)
  | some e =>
    obtain ⟨d, hd⟩ := hE.exists_dir (envOf_ne_free (hE.ne_free hc) he)
    have hpg : (s.envs e).envPgdir = some d := hd
    dsimp only
    rw [sat_ite]
    refine ⟨fun hv => CallMem.failed h (.pageVa (Or.inr hno) hv), fun hva => ?_⟩
    rw [not_or] at hva
    have hlt : call.a2 < utop := BitVec.not_le.mp hva.1
    have hal := not_not.mp hva.2
    have hun := Remapped.unmapped (B := B) e hno he hlt hal
    rw [sat_bind, sat_get, sat_bind, sat_liftPm, hpg]
    refine (lookup_mem h hd hlt).mono ?_ (fun _ _ h => h.elim)
    rintro r pm ⟨rfl, ⟨rfl, hnt⟩ | ⟨htab, tb, rfl, hent⟩⟩
    · rw [setPage_self (entryAt_of_none (not_not.mp hnt))] at hun
      exact sat_pure.mpr ⟨.of_ok fun _ => h, hun⟩
    · dsimp only
      rw [sat_bind, sat_liftPm]
      by_cases hP : has (spacesOf s e (pageNo call.a2 hlt)) pteP = true
      · refine (pageRemove_present h hd hlt (target_of_present hP)).mono ?_ (fun _ _ h => h.elim)
        rintro - pm ⟨hok, hS, -⟩
        refine sat_pure.mpr ⟨.of_ok fun _ => hok, ?_⟩
        have hS' : spacesOf { s with pm := pm } = _ := hS
        rw [hS']
        exact hun
      · have h0 := (h.tables.pte e _ _).resolve_right hP
        refine (pageRemove_absent h hd hlt h0).mono ?_ (fun _ _ h => h.elim)
        rintro - pm ⟨hok, hmem⟩
        refine sat_pure.mpr ⟨.of_ok fun hg => hok ((hg.unmap hno e hlt he hal htab).resolve_left hP), ?_⟩
        have hS' : spacesOf { s with pm := pm } = spacesOf s := by
          show spaces (dirsOf s) pm.mem = _
          rw [hmem]
          rfl
        rw [hS', ← setPage_self (S := spacesOf s) h0]
        exact hun

lemma nextEnvId_slt (w : Word) (e : EnvIdx) : (nextEnvId w e).slt 0 = false := by
  have he : (BitVec.ofNat 32 e.val).msb = false := by
    rw [BitVec.msb_eq_decide, BitVec.toNat_ofNat]
    have := e.isLt
    simp only [decide_eq_false_iff_not]
    omega
  have hmsb : ∀ g : Word, g.sle 0 = false → g.msb = false := by
    intro g hg
    have hslt : g.slt 0#32 = false := by
      rw [BitVec.sle_eq_slt_or_eq, Bool.or_eq_false_iff] at hg
      exact hg.1
    rw [BitVec.slt_zero_eq_msb] at hslt
    exact hslt
  have hslt : (nextEnvId w e).slt 0#32 = (nextEnvId w e).msb := BitVec.slt_zero_eq_msb
  refine hslt.trans ?_
  unfold nextEnvId
  dsimp only
  rw [BitVec.msb_or, he, Bool.or_false]
  split
  · decide
  · rename_i hg
    exact hmsb _ (Bool.eq_false_iff.mpr hg)

lemma sysExofork_mem (hE : EnvsIn none s) (h : MemOk B s) (hc : (s.cpus cpu).cpuEnv = some c)
    (hno : call.no.toNat = 7) : CallMem B s cpu c call (sysExofork cpu) := by
  have hfree : ∀ e, s.envFreeList = some e → dirsOf s e = none :=
    fun e hfl => (hE.pgdir e).mpr (hE.allocated hfl 0 0 s.pm).1
  unfold CallMem sysExofork
  rw [sat_bind, sat_curenv hc, sat_bind, sat_get, sat_bind]
  refine ((envAlloc_mem h hfree _).and (envAlloc_rule s _)).mono ?_ (fun _ _ h => h.1.elim)
  rintro (code | e) t
  · rintro ⟨⟨rfl, ⟨rfl, hfl⟩ | ⟨rfl, hfl⟩⟩, -⟩
    · exact CallMem.failed h (.noFreeEnv hno hfl)
    · exact CallMem.failed h (.forkNoMem hno hfl)
  · rintro ⟨⟨hfl, hpf, hok, hsp⟩, -, pm, d, rfl⟩
    unfold modifyEnv
    simp only [sat_bind, sat_get, sat_modify, sat_pure]
    obtain ⟨hok', hsp'⟩ := hok.setEnv (e := e) (v := { (s.allocated e (s.envs c).envId d pm).envs
        e with
      envTf := { ((s.allocated e (s.envs c).envId d pm).envs c).envTf with
        tfRegs := { ((s.allocated e (s.envs c).envId d pm).envs c).envTf.tfRegs with
          regEax := 0 } }
      envStatus := .notRunnable }) rfl
    refine ⟨fun _ => ⟨hok', ?_⟩, ?_⟩
    · intro hr
      rw [Kernel.setEnv_envs_self] at hr
      have hid : ((s.allocated e (s.envs c).envId d pm).envs e).envId =
          nextEnvId (s.envs e).envId e := by
        unfold Kernel.allocated freshEnv
        simp only [Function.update_self]
      dsimp only at hr
      rw [hid, nextEnvId_slt] at hr
      cases hr
    · rw [hsp', hsp]
      exact .kept (by rw [hno]; decide) (fun hm => absurd (hno ▸ hm) (by decide))
        (fun _ => ⟨by rw [hfl]; simp, hpf⟩)

lemma CallMem.setEnv (h : MemOk B s) (hno : call.no.toNat ∈ [8, 9, 10]) {env : Env}
    (hpg : env.envPgdir = (s.envs e).envPgdir) :
    Kept B s c call 0 (s.setEnv e env) ∧ Remapped B s c call 0 (spacesOf (s.setEnv e env)) := by
  obtain ⟨hok, hsp⟩ := h.setEnv hpg
  refine ⟨.of_ok fun _ => hok, ?_⟩
  rw [hsp]
  simp only [List.mem_cons, List.not_mem_nil, or_false] at hno
  refine .kept ?_ (fun _ => rfl) (by omega)
  rcases hno with hn | hn | hn <;> rw [hn] <;> decide

lemma sysEnvSetStatus_mem (h : MemOk B s) (hc : (s.cpus cpu).cpuEnv = some c)
    (hno : call.no.toNat = 8) :
    CallMem B s cpu c call (sysEnvSetStatus cpu call.a1 call.a2) := by
  unfold CallMem sysEnvSetStatus
  cases hst : settableStatus call.a2 with
  | none => exact CallMem.failed h (.status hno hst)
  | some st =>
    simp only [sat_bind, sat_envid2env hc]
    cases he : envOf s c call.a1 true with
    | none => exact CallMem.failed h (.badEnv (by rw [hno]; decide) he)
    | some e =>
      unfold modifyEnv
      simp only [sat_bind, sat_modify, sat_pure]
      exact CallMem.setEnv h (by rw [hno]; decide) rfl

lemma sysEnvSetTrapframe_mem (h : MemOk B s) (hc : (s.cpus cpu).cpuEnv = some c)
    (hno : call.no.toNat = 9) :
    CallMem B s cpu c call (sysEnvSetTrapframe cpu call.a1 call.a2) := by
  unfold CallMem sysEnvSetTrapframe
  rw [sat_bind, sat_envid2env hc]
  cases he : envOf s c call.a1 true with
  | none => exact CallMem.failed h (.badEnv (by rw [hno]; decide) he)
  | some e =>
    dsimp only
    rw [sat_ite]
    refine ⟨fun hv => CallMem.failed h (.frameVa hno he hv), fun htf => ?_⟩
    rw [sat_bind, sat_get, sat_bind, sat_liftPm]
    refine (probes_loadTrapframe (s := s.pm) s.pm rfl).mono ?_ ?_
    · rintro tf pm ⟨rfl, -⟩
      unfold modifyEnv
      simp only [sat_bind, sat_modify, sat_pure]
      exact CallMem.setEnv h (by rw [hno]; decide) rfl
    · rintro ex pm ⟨rfl, k, hk, hw⟩
      exact Or.inl (.badFrame hno he (BitVec.not_le.mp htf) hk (not_not.mp hw))

lemma sysEnvSetPgfaultUpcall_mem (h : MemOk B s) (hc : (s.cpus cpu).cpuEnv = some c)
    (hno : call.no.toNat = 10) :
    CallMem B s cpu c call (sysEnvSetPgfaultUpcall cpu call.a1 call.a2) := by
  unfold CallMem sysEnvSetPgfaultUpcall
  rw [sat_bind, sat_envid2env hc]
  cases he : envOf s c call.a1 true with
  | none => exact CallMem.failed h (.badEnv (by rw [hno]; decide) he)
  | some e =>
    unfold modifyEnv
    simp only [sat_bind, sat_modify, sat_pure]
    exact CallMem.setEnv h (by rw [hno]; decide) rfl

/-! ### IPC -/

lemma ipcSendPage_mem (hE : EnvsIn none s) (h : MemOk B s) (hc : (s.cpus cpu).cpuEnv = some c)
    (he : (s.envs e).envStatus ≠ .free) {srcva perm : Word} (hs : srcva < utop) :
    Sat (ipcSendPage cpu e srcva perm) s
      (fun r t => (Undone s t ∧ MemOk B t ∧ spacesOf t = spacesOf s ∧
          ((r = -eInval ∧ SendRefused s c srcva perm hs) ∨
            (r = -eNoMem ∧ (s.envs e).envIpcDstva < utop ∧ SendChecks s c srcva perm hs ∧
              ¬ HasTable s e (s.envs e).envIpcDstva ∧ s.pm.pageFreeList = none))) ∨
        (r = 0 ∧ ((∀ hd : (s.envs e).envIpcDstva < utop, has (spacesOf s c (pageNo srcva hs)) pteP = true ∧
            perm.toNat < 4096 ∧ (s.pm.ppRef (pgnum (spacesOf s c (pageNo srcva hs))) ≠ 0xffff ∨
              target (spacesOf s e (pageNo (s.envs e).envIpcDstva hd)) =
                some (pgnum (spacesOf s c (pageNo srcva hs))))) → MemOk B t) ∧
          SendChecks s c srcva perm hs ∧
          ((¬(s.envs e).envIpcDstva < utop ∧ spacesOf t = spacesOf s) ∨
            ∃ hd : (s.envs e).envIpcDstva < utop,
              (HasTable s e (s.envs e).envIpcDstva ∨ s.pm.pageFreeList ≠ none) ∧
              spacesOf t = setPage (spacesOf s) e (pageNo _ hd)
                (page2pa (pgnum (spacesOf s c (pageNo srcva hs))) ||| perm ||| pteP))))
      (fun _ _ => False) := by
  have hsame : Undone s s ∧ MemOk B s ∧ spacesOf s = spacesOf s := ⟨.of_pm rfl, h, rfl⟩
  obtain ⟨d, hd⟩ := hE.exists_dir (hE.ne_free hc)
  obtain ⟨d', hd'⟩ := hE.exists_dir he
  have hpg : (s.envs c).envPgdir = some d := hd
  have hpg' : (s.envs e).envPgdir = some d' := hd'
  unfold ipcSendPage
  rw [sat_ite]
  refine ⟨fun hr => sat_pure.mpr (Or.inl ⟨hsame.1, h, rfl, Or.inl ⟨rfl, Or.inl hr⟩⟩),
    fun hal => ?_⟩
  rw [sat_ite]
  refine ⟨fun hr => sat_pure.mpr (Or.inl ⟨hsame.1, h, rfl, Or.inl ⟨rfl, Or.inr (Or.inl hr)⟩⟩),
    fun hperm => ?_⟩
  simp only [not_or, Bool.not_eq_false, not_not, ne_eq] at hperm
  rw [sat_bind, sat_get, sat_bind, sat_curenv hc, sat_bind, sat_liftPm, hpg]
  refine (lookup_mem h hd hs).mono ?_ (fun _ _ h => h.elim)
  rintro r pm ⟨rfl, ⟨rfl, hnt⟩ | ⟨htab, tb, rfl, hent⟩⟩
  · exact sat_pure.mpr (Or.inl ⟨hsame.1, h, rfl, Or.inl ⟨rfl, Or.inr (Or.inr (Or.inl hnt))⟩⟩)
  unfold readPte
  dsimp only
  rw [sat_bind, sat_liftPm]
  simp only [sat_bind, sat_get, sat_pure, hent]
  rw [sat_ite]
  refine ⟨fun hr => sat_pure.mpr (Or.inl ⟨hsame.1, h, rfl, Or.inl ⟨rfl, Or.inr (Or.inr (Or.inr
    ⟨hr.1, by simpa using hr.2⟩))⟩⟩), fun hW => ?_⟩
  have hchk : SendChecks s c srcva perm hs := by
    refine ⟨not_not.mp hal, hperm.1, hperm.2.1, hperm.2.2, htab, ?_⟩
    intro hw
    by_contra hw'
    exact hW ⟨hw, by simpa using hw'⟩
  rw [sat_bind, sat_get, sat_ite]
  constructor
  · intro hdlt
    unfold modifyEnv
    simp only [sat_bind, sat_modify, sat_get, Kernel.setEnv_envs_self]
    have hins := shareInsert h c hd' (pageNo srcva hs) hdlt perm
    rw [← hpg'] at hins
    rw [sat_liftPm]
    refine hins.mono ?_ (fun _ _ h => h.elim)
    rintro r pm (⟨rfl, hnt, hfl, rfl⟩ | ⟨rfl, hok, hmem, hS⟩)
    · rw [if_pos (show (-eNoMem : Word).slt 0 = true by decide), sat_pure]
      obtain ⟨hok, hsp⟩ := h.setEnv (e := e) (v := { s.envs e with envIpcPerm := 0 }) rfl
      exact Or.inl ⟨.of_pm rfl, hok, hsp, Or.inr ⟨rfl, hdlt, hchk, hnt, hfl⟩⟩
    · rw [if_neg (by decide), sat_pure]
      have hsp : spacesOf (Kernel.setEnv { s with pm := pm } e { s.envs e with envIpcPerm := 0 }) =
          spacesOf { s with pm := pm } := spacesOf_setEnv rfl
      exact Or.inr ⟨rfl, fun hg => (PmapIn.setEnv (s := { s with pm := pm }) (e := e)
        (v := { s.envs e with envIpcPerm := 0 }) (hok (hg hdlt)) rfl).1, hchk,
        Or.inr ⟨hdlt, hmem, hsp.trans hS⟩⟩
  · intro hdlt
    exact sat_pure.mpr (Or.inr ⟨rfl, fun _ => h, hchk, Or.inl ⟨hdlt, rfl⟩⟩)

lemma sysIpcTrySend_mem (hE : EnvsIn none s) (h : MemOk B s) (hc : (s.cpus cpu).cpuEnv = some c)
    (hno : call.no.toNat = 12) :
    CallMem B s cpu c call (sysIpcTrySend cpu call.a1 call.a2 call.a3 call.a4) := by
  unfold CallMem sysIpcTrySend
  rw [sat_bind, sat_envid2env hc]
  cases he : envOf s c call.a1 false with
  | none => exact CallMem.failed h (.sendBadEnv hno he)
  | some e =>
    have hne := envOf_ne_free (hE.ne_free hc) he
    dsimp only
    rw [sat_bind, sat_get, sat_ite]
    refine ⟨fun hr => CallMem.failed h (.notRecv hno he hr), fun hrecv => ?_⟩
    rw [Bool.not_eq_false] at hrecv
    have hend : ∀ t : Kernel, (MemGuard s c call → MemOk B t) → (t.cpus cpu).cpuEnv = some c →
        Remapped B s c call 0 (spacesOf t) →
        Sat (do
          let c ← curenv cpu
          let from_ := ((← get).envs c).envId
          modifyEnv e fun env => { env with
            envIpcRecving := false
            envIpcFrom := from_
            envIpcValue := call.a2
            envIpcPerm := call.a4
            envStatus := .runnable }
          return 0 : KernM Word) t
          (fun r u => Kept B s c call r u ∧ Remapped B s c call r (spacesOf u))
          (fun ex u => Crash s cpu c call ex ∨ (call.Leaves ∧ LeftMem B s c ex u)) := by
      intro t ht htc hre
      rw [sat_bind, sat_curenv htc]
      unfold modifyEnv
      simp only [sat_bind, sat_get, sat_modify, sat_pure]
      refine ⟨.of_ok fun hg => (PmapIn.setEnv (ht hg) (by rfl)).1, ?_⟩
      rw [spacesOf_setEnv (by rfl)]
      exact hre
    rw [sat_ite]
    constructor
    · intro hs
      rw [sat_bind]
      refine ((ipcSendPage_mem hE h hc hne hs).and
          (ipcSendPage_rule hc e call.a3 call.a4)).mono ?_ (fun _ _ h => h.1.elim)
      rintro r t ⟨⟨hun, hok, hsp, hcause⟩ | ⟨rfl, hok, hchk, hpage⟩, hrule⟩
      · have hfail : Failed s c call r := by
          rcases hcause with ⟨rfl, hr⟩ | ⟨rfl, hd, hchk, hnt, hfl⟩
          · exact .sendPage hno hs hr
          · exact .sendNoMem hno he (.send hno he hrecv hs hd hchk) hnt hfl
        have hne0 : r ≠ 0 := by
          rintro rfl
          exact absurd hfail.slt (by decide)
        rw [if_pos hne0, sat_pure, hsp]
        exact ⟨fun _ => ⟨hok, fun _ => hun⟩, .failed hfail⟩
      · rw [if_neg (by simp)]
        refine hend t (fun hg => hok (fun hd => hg.share _ _ _ _ _ (.send hno he hrecv hs hd hchk))) ?_ ?_
        · have hcpus : t.cpus = s.cpus := by
            obtain ⟨pm, ⟨-, rfl⟩ | ⟨-, rfl⟩ | ⟨-, rfl | rfl⟩⟩ := hrule <;> rfl
          rw [hcpus]
          exact hc
        · rcases hpage with ⟨hnd, hsp⟩ | ⟨hd, hmem, hsp⟩
          · rw [hsp]
            exact .sent e hno he hrecv (fun _ => ⟨hchk, hnd⟩)
          · rw [hsp]
            exact .shared (.send hno he hrecv hs hd hchk) hmem
    · intro hs
      exact hend s (fun _ => h) hc (.sent e hno he hrecv (fun hs' => absurd hs' hs))

lemma sysIpcRecv_mem (hE : EnvsIn none s) (h : MemOk B s) (hc : (s.cpus cpu).cpuEnv = some c)
    (hno : call.no.toNat = 13) :
    CallMem B s cpu c call (sysIpcRecv cpu call.a1) := by
  obtain ⟨hok, hsp⟩ := h.setEnv (e := c) (v := (s.envs c).blocked call.a1) rfl
  have hyield : (call.a1 < utop → call.a1 % 0x1000 = 0) →
      Sat (schedYield (α := Word) cpu) (s.setEnv c ((s.envs c).blocked call.a1))
      (fun r t => Kept B s c call r t ∧ Remapped B s c call r (spacesOf t))
      (fun ex t => Crash s cpu c call ex ∨ (call.Leaves ∧ LeftMem B s c ex t)) := by
    intro hal
    refine (schedYield_mem (hE.blocked hc call.a1) hok).mono (fun _ _ h => h.elim) ?_
    rintro ex t ⟨hex, ht⟩
    exact Or.inr ⟨Or.inr ⟨hno, hal⟩, hex, fun hl => ⟨(ht hl).1, Or.inl ((ht hl).2.trans hsp)⟩⟩
  unfold CallMem sysIpcRecv modifyEnv
  simp only [sat_bind, sat_curenv hc]
  rw [sat_ite]
  constructor
  · intro hva
    rw [sat_ite]
    refine ⟨fun hr => CallMem.failed h (.recvVa hno hva hr), fun hal => ?_⟩
    have hyield := hyield (fun _ => not_not.mp hal)
    unfold Env.blocked Kernel.setEnv at hyield
    unfold Kernel.setEnv
    simpa only [if_pos hva, sat_modify, sat_bind, Function.update_self, Function.update_idem]
      using hyield
  · intro hva
    have hyield := hyield (fun h => absurd h hva)
    unfold Env.blocked at hyield
    simpa only [if_neg hva, sat_modify, sat_bind] using hyield

/-- What every system call does to the address spaces, and the three ways in which it can bring the
kernel down. Under the guard it keeps the books of memory. -/
theorem syscall_mem (hE : EnvsIn none s) (h : MemOk B s) (hc : (s.cpus cpu).cpuEnv = some c)
    (cons : Word) (call : Call) :
    CallMem B s cpu c call
      (syscall cpu cons call.no call.a1 call.a2 call.a3 call.a4 call.a5) := by
  have hkept : ∀ r : Word, call.no.toNat < 3 → CallMem B s cpu c call (pure r) := by
    intro r hno
    refine sat_pure.mpr ⟨.same h r, .kept ?_ ?_ (by omega)⟩
    · simp only [List.mem_cons, List.not_mem_nil, or_false]
      omega
    · simp only [List.mem_cons, List.not_mem_nil, or_false]
      omega
  unfold syscall
  split
  · exact sysCputs_mem hE h hc ‹_›
  · rename_i hno
    exact hkept _ (by omega)
  · rename_i hno
    unfold CallMem sysGetenvid
    simp only [sat_bind, sat_get, sat_curenv hc]
    exact hkept _ (by omega)
  · exact sysEnvDestroy_mem hE h hc ‹_›
  · exact sysPageAlloc_mem hE h hc ‹_›
  · exact sysPageMap_mem hE h hc ‹_›
  · exact sysPageUnmap_mem hE h hc ‹_›
  · exact sysExofork_mem hE h hc ‹_›
  · exact sysEnvSetStatus_mem h hc ‹_›
  · exact sysEnvSetTrapframe_mem h hc ‹_›
  · exact sysEnvSetPgfaultUpcall_mem h hc ‹_›
  · rename_i hno
    refine (schedYield_mem hE h).mono (fun _ _ h => h.elim) ?_
    rintro ex t ⟨hex, ht⟩
    exact Or.inr ⟨Or.inl (by rw [hno]; decide), hex, fun hl => ⟨(ht hl).1, Or.inl (ht hl).2⟩⟩
  · exact sysIpcTrySend_mem hE h hc ‹_›
  · exact sysIpcRecv_mem hE h hc ‹_›
  · exact CallMem.failed h (.number (by grind))

end Calls

end SistemasOperativos.Kern
