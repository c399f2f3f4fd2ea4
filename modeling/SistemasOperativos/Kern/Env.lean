import SistemasOperativos.Kern.Pmap

/-!
# Environments

`inc/env.h`, `kern/env.c` and `kern/sched.c`. The state of the kernel is the page state of
`kern/pmap.c`, the array `envs` with its free list, and what each processor is running. A
`struct Env *` is an index into `envs`; `env_pgdir` is the frame of the page directory. A
function that uses `curenv` takes the processor it runs on.
-/

namespace SistemasOperativos.Kern

open Library

def nenv : ℕ := 1024

abbrev EnvIdx := Fin 1024

instance neZeroNenv : NeZero 1024 := ⟨by decide⟩
abbrev Cpu := ℕ

def envx (envid : Word) : EnvIdx := ⟨envid.toNat % 1024, Nat.mod_lt _ (by decide)⟩

inductive EnvStatus
  | free | dying | runnable | running | notRunnable
  deriving DecidableEq, Repr

inductive EnvType
  | user | fs
  deriving DecidableEq, Repr

structure PushRegs where
  regEdi : Word
  regEsi : Word
  regEbp : Word
  regOesp : Word
  regEbx : Word
  regEdx : Word
  regEcx : Word
  regEax : Word
  deriving DecidableEq

structure Trapframe where
  tfRegs : PushRegs
  tfEs : BitVec 16
  tfDs : BitVec 16
  tfTrapno : Word
  tfErr : Word
  tfEip : Word
  tfCs : BitVec 16
  tfEflags : Word
  tfEsp : Word
  tfSs : BitVec 16
  deriving DecidableEq

def PushRegs.zero : PushRegs := ⟨0, 0, 0, 0, 0, 0, 0, 0⟩
def Trapframe.zero : Trapframe := ⟨.zero, 0, 0, 0, 0, 0, 0, 0, 0, 0⟩

def gdUt : BitVec 16 := 0x18
def gdUd : BitVec 16 := 0x20
def flIf : Word := 0x200
def flIopl3 : Word := 0x3000

structure Env where
  envTf : Trapframe
  envLink : Option EnvIdx
  envId : Word
  envParentId : Word
  envType : EnvType
  envStatus : EnvStatus
  envRuns : Word
  envCpunum : Cpu
  envPgdir : Option ℕ
  envPgfaultUpcall : Word
  envIpcRecving : Bool
  envIpcDstva : Word
  envIpcValue : Word
  envIpcFrom : Word
  envIpcPerm : Word

/-- What a processor is running and the page directory it has loaded. -/
structure CpuInfo where
  cpuEnv : Option EnvIdx
  cr3 : ℕ

structure Kernel where
  pm : Pmap
  envs : EnvIdx → Env
  envFreeList : Option EnvIdx
  cpus : Cpu → CpuInfo

abbrev KernM := EStateM Exit Kernel

/-- Run a function of `kern/pmap.c`. -/
def liftPm {α : Type} (f : PmapM α) : KernM α :=
  zoom (fun s => s.pm) (fun pm s => { s with pm := pm }) f

def Kernel.setEnv (s : Kernel) (e : EnvIdx) (env : Env) : Kernel :=
  { s with envs := Function.update s.envs e env }

def Kernel.setCpu (s : Kernel) (cpu : Cpu) (c : CpuInfo) : Kernel :=
  { s with cpus := Function.update s.cpus cpu c }

section SetEnv

variable {s : Kernel} {e : EnvIdx} {env : Env}

@[simp] lemma Kernel.setEnv_envs_self : (s.setEnv e env).envs e = env := Function.update_self ..

lemma Kernel.setEnv_envs_of_ne {j : EnvIdx} (h : j ≠ e) : (s.setEnv e env).envs j = s.envs j :=
  Function.update_of_ne h ..

lemma Kernel.setEnv_envs (j : EnvIdx) :
    (s.setEnv e env).envs j = if j = e then env else s.envs j := by
  by_cases h : j = e
  · subst h
    rw [setEnv_envs_self, if_pos rfl]
  · rw [setEnv_envs_of_ne h, if_neg h]

@[simp] lemma Kernel.setEnv_pm : (s.setEnv e env).pm = s.pm := rfl
@[simp] lemma Kernel.setEnv_cpus : (s.setEnv e env).cpus = s.cpus := rfl
@[simp] lemma Kernel.setEnv_envFreeList : (s.setEnv e env).envFreeList = s.envFreeList := rfl

end SetEnv

def modifyEnv (e : EnvIdx) (f : Env → Env) : KernM Unit :=
  modify fun s => s.setEnv e (f (s.envs e))

def curenv? (cpu : Cpu) : KernM (Option EnvIdx) := do return ((← get).cpus cpu).cpuEnv

/-- `curenv`, dereferenced. -/
def curenv (cpu : Cpu) : KernM EnvIdx := do
  let some e := ((← get).cpus cpu).cpuEnv | throw .fault
  return e

def setCurenv (cpu : Cpu) (e : Option EnvIdx) : KernM Unit :=
  modify fun s => s.setCpu cpu { s.cpus cpu with cpuEnv := e }

def lcr3 (cpu : Cpu) (pgdir : ℕ) : KernM Unit :=
  modify fun s => s.setCpu cpu { s.cpus cpu with cr3 := pgdir }

/-- `PADDR` of a page directory pointer: it panics on the null pointer. -/
def paddr (pgdir : Option ℕ) : KernM ℕ := do
  let some d := pgdir | throw .panic
  return d

/-! ### `kern/env.c` -/

/-- `none` stands for `-E_BAD_ENV`. -/
def envid2env (cpu : Cpu) (envid : Word) (checkperm : Bool) : KernM (Option EnvIdx) := do
  if envid = 0 then
    return some (← curenv cpu)
  let s ← get
  let e := envx envid
  if (s.envs e).envStatus = .free ∨ (s.envs e).envId ≠ envid then
    return none
  if checkperm then
    let c ← curenv cpu
    if e ≠ c ∧ (s.envs e).envParentId ≠ (s.envs c).envId then
      return none
  return some e

def envSetupVm (e : EnvIdx) : KernM Word := do
  match ← liftPm (pageAlloc true) with
  | none => return -eNoMem
  | some p =>
    liftPm (incRef p)
    let d ← liftPm (page2kva p)
    modifyEnv e fun env => { env with envPgdir := some d }
    liftPm (modify fun s => { s with mem := Function.update s.mem d (s.mem s.kernPgdir) })
    liftPm (writePte ⟨d, pdx uvpt⟩ (page2pa d ||| pteP ||| pteU))
    return 0

/-- The id given to slot `e` after `envId`. -/
def nextEnvId (envId : Word) (e : EnvIdx) : Word :=
  let generation := (envId + 0x1000) &&& ~~~0x3ff
  let generation := if generation.sle 0 then 0x1000 else generation
  generation ||| BitVec.ofNat 32 e

/-- The new environment, or the error code. -/
def envAlloc (parentId : Word) : KernM (Except Word EnvIdx) := do
  match (← get).envFreeList with
  | none => return .error (-eNoFreeEnv)
  | some e =>
    let r ← envSetupVm e
    if r ≠ 0 then return .error r
    modifyEnv e fun env => { env with
      envId := nextEnvId env.envId e
      envParentId := parentId
      envType := .user
      envStatus := .runnable
      envRuns := 0
      envTf := { Trapframe.zero with
        tfDs := gdUd ||| 3
        tfEs := gdUd ||| 3
        tfSs := gdUd ||| 3
        tfEsp := ustacktop
        tfCs := gdUt ||| 3
        tfEflags := flIf }
      envPgfaultUpcall := 0
      envIpcRecving := false }
    modify fun s => { s with envFreeList := (s.envs e).envLink }
    return .ok e

/-- One page directory entry of the loop of `env_free`. -/
def envFreeTable (e : EnvIdx) (pdeno : ℕ) : KernM Unit := do
  let some d := ((← get).envs e).envPgdir | throw .fault
  let pde ← liftPm (readPte ⟨d, pdeno⟩)
  if has pde pteP then
    let pa := pteAddr pde
    let pt ← liftPm (kaddr pa)
    forM (List.range nptentries) fun pteno => do
      if has (← liftPm (readPte ⟨pt, pteno⟩)) pteP then
        liftPm (pageRemove (some d) (pgaddr pdeno pteno 0))
    liftPm (writePte ⟨d, pdeno⟩ 0)
    liftPm (do pageDecref (← pa2page pa))

def envFree (cpu : Cpu) (e : EnvIdx) : KernM Unit := do
  if (← curenv? cpu) = some e then lcr3 cpu (← get).pm.kernPgdir
  forM (List.range pdxUtop) (envFreeTable e)
  let d ← paddr ((← get).envs e).envPgdir
  modifyEnv e fun env => { env with envPgdir := none }
  liftPm (do pageDecref (← pa2page (page2pa d)))
  modify fun s => { s.setEnv e { s.envs e with envStatus := .free, envLink := s.envFreeList } with
    envFreeList := some e }

/-- The environments after `env_run` has put the one that runs on `cpu` back in line. -/
def Kernel.preempted (s : Kernel) (cpu : Cpu) : EnvIdx → Env :=
  match (s.cpus cpu).cpuEnv with
  | none => s.envs
  | some c =>
    if (s.envs c).envStatus = .running then
      Function.update s.envs c { s.envs c with envStatus := .runnable }
    else s.envs

/-- `env_run` with `env_pop_tf`. It does not return. -/
def envRun {α : Type} (cpu : Cpu) (e : EnvIdx) : KernM α := do
  modify fun s => { s with envs := s.preempted cpu }
  setCurenv cpu (some e)
  modifyEnv e fun env => { env with envStatus := .running, envRuns := env.envRuns + 1 }
  lcr3 cpu (← paddr ((← get).envs e).envPgdir)
  modifyEnv e fun env => { env with envCpunum := cpu }
  throw .leave

/-! ### `kern/sched.c` -/

/-- Does `sched_halt` find an environment that may still run? -/
def EnvStatus.alive : EnvStatus → Bool
  | .runnable | .running | .dying => true
  | _ => false

def schedHalt {α : Type} (cpu : Cpu) : KernM α := do
  let s ← get
  if (List.finRange 1024).all (fun i => !(s.envs i).envStatus.alive) then throw .monitor
  setCurenv cpu none
  lcr3 cpu (← get).pm.kernPgdir
  throw .leave

/-- Slot `i` in circular order from slot `indx`. -/
def circular (indx i : ℕ) : EnvIdx := ⟨(indx + i) % 1024, Nat.mod_lt _ (by decide)⟩

/-- The first runnable environment in circular order from slot `indx`. -/
def firstRunnable (envs : EnvIdx → Env) (indx : ℕ) : Option EnvIdx :=
  ((List.range nenv).map (circular indx)).find? (fun j => (envs j).envStatus = .runnable)

/-- The slot from which `sched_yield` searches. -/
def Kernel.yieldFrom (s : Kernel) (cpu : Cpu) : ℕ :=
  match (s.cpus cpu).cpuEnv with
  | some c => (envx (s.envs c).envId).val + 1
  | none => 0

/-- `sched_yield`. It does not return. -/
def schedYield {α : Type} (cpu : Cpu) : KernM α := do
  let s ← get
  match firstRunnable s.envs (s.yieldFrom cpu) with
  | some j => envRun cpu j
  | none =>
    match (s.cpus cpu).cpuEnv with
    | some c => if (s.envs c).envStatus = .running then envRun cpu c else schedHalt cpu
    | none => schedHalt cpu

def envDestroy (cpu : Cpu) (e : EnvIdx) : KernM Unit := do
  let s ← get
  if (s.envs e).envStatus = .running ∧ (s.cpus cpu).cpuEnv ≠ some e then
    modifyEnv e fun env => { env with envStatus := .dying }
    return
  envFree cpu e
  if (← curenv? cpu) = some e then
    setCurenv cpu none
    schedYield cpu

end SistemasOperativos.Kern
