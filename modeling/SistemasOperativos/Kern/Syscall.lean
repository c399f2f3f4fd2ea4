import SistemasOperativos.Kern.Env

/-!
# System calls

`kern/syscall.c`. Every call runs on processor `cpu` on behalf of its `curenv`; the result is
the word stored in `eax`.
-/

namespace SistemasOperativos.Kern

open Library

/-- `user_mem_assert`. -/
def userMemAssert (cpu : Cpu) (e : EnvIdx) (va len perm : Word) : KernM Unit := do
  let pgdir := ((← get).envs e).envPgdir
  if let some _ ← liftPm (userMemCheck pgdir va len (perm ||| pteU)) then
    envDestroy cpu e

/-- The `%.*s` loop of `vprintfmt`: a character is read before the precision is tested. A
negative precision is no bound. `fuel` is the size of the address space. -/
def vprintfmtString (cr3 : ℕ) : ℕ → Word → ℤ → PmapM Unit
  | 0, _, _ => return
  | fuel + 1, p, precision => do
    let ch ← loadByte cr3 p
    if ch = 0 then return
    if precision < 0 then
      vprintfmtString cr3 fuel (p + 1) precision
    else if precision - 1 ≥ 0 then
      vprintfmtString cr3 fuel (p + 1) (precision - 1)

def sysCputs (cpu : Cpu) (s len : Word) : KernM Unit := do
  userMemAssert cpu (← curenv cpu) s len pteU
  if s ≠ 0 then
    let cr3 := ((← get).cpus cpu).cr3
    liftPm (vprintfmtString cr3 (2 ^ 32) s len.toInt)

def sysGetenvid (cpu : Cpu) : KernM Word := do
  return ((← get).envs (← curenv cpu)).envId

def sysEnvDestroy (cpu : Cpu) (envid : Word) : KernM Word := do
  match ← envid2env cpu envid true with
  | none => return -eBadEnv
  | some e =>
    envDestroy cpu e
    return 0

def sysExofork (cpu : Cpu) : KernM Word := do
  let c ← curenv cpu
  match ← envAlloc ((← get).envs c).envId with
  | .error result => return result
  | .ok e =>
    let tf := ((← get).envs c).envTf
    modifyEnv e fun env => { env with
      envTf := { tf with tfRegs := { tf.tfRegs with regEax := 0 } }
      envStatus := .notRunnable }
    return ((← get).envs e).envId

/-- The two statuses a program may ask for. -/
def settableStatus (status : Word) : Option EnvStatus :=
  if status = 2 then some .runnable else if status = 4 then some .notRunnable else none

def sysEnvSetStatus (cpu : Cpu) (envid status : Word) : KernM Word := do
  match settableStatus status with
  | none => return -eInval
  | some st =>
    match ← envid2env cpu envid true with
    | none => return -eBadEnv
    | some e =>
      modifyEnv e fun env => { env with envStatus := st }
      return 0

def loadPushRegs (cr3 : ℕ) (p : Word) : PmapM PushRegs := do
  return {
    regEdi := ← load32 cr3 p
    regEsi := ← load32 cr3 (p + 4)
    regEbp := ← load32 cr3 (p + 8)
    regOesp := ← load32 cr3 (p + 12)
    regEbx := ← load32 cr3 (p + 16)
    regEdx := ← load32 cr3 (p + 20)
    regEcx := ← load32 cr3 (p + 24)
    regEax := ← load32 cr3 (p + 28) }

/-- The copy of a `struct Trapframe` from user memory; the padding is read and dropped. -/
def loadTrapframe (cr3 : ℕ) (p : Word) : PmapM Trapframe := do
  let regs ← loadPushRegs cr3 p
  let es ← load16 cr3 (p + 32)
  let _ ← load16 cr3 (p + 34)
  let ds ← load16 cr3 (p + 36)
  let _ ← load16 cr3 (p + 38)
  let trapno ← load32 cr3 (p + 40)
  let err ← load32 cr3 (p + 44)
  let eip ← load32 cr3 (p + 48)
  let cs ← load16 cr3 (p + 52)
  let _ ← load16 cr3 (p + 54)
  let eflags ← load32 cr3 (p + 56)
  let esp ← load32 cr3 (p + 60)
  let ss ← load16 cr3 (p + 64)
  let _ ← load16 cr3 (p + 66)
  return ⟨regs, es, ds, trapno, err, eip, cs, eflags, esp, ss⟩

def sysEnvSetTrapframe (cpu : Cpu) (envid tf : Word) : KernM Word := do
  match ← envid2env cpu envid true with
  | none => return -eBadEnv
  | some e =>
    if tf ≥ utop then return -eInval
    let t ← liftPm (loadTrapframe ((← get).cpus cpu).cr3 tf)
    modifyEnv e fun env => { env with
      envTf := { t with
        tfEs := t.tfEs ||| 3
        tfDs := t.tfDs ||| 3
        tfCs := t.tfCs ||| 3
        tfSs := t.tfSs ||| 3
        tfEflags := (t.tfEflags ||| flIf) &&& ~~~flIopl3 } }
    return 0

def sysEnvSetPgfaultUpcall (cpu : Cpu) (envid func : Word) : KernM Word := do
  match ← envid2env cpu envid true with
  | none => return -eBadEnv
  | some e =>
    modifyEnv e fun env => { env with envPgfaultUpcall := func }
    return 0

def sysPageAlloc (cpu : Cpu) (envid va perm : Word) : KernM Word := do
  match ← envid2env cpu envid true with
  | none => return -eBadEnv
  | some e =>
    if perm &&& ~~~pteSyscall ≠ 0 ∨ perm &&& (pteU ||| pteP) = 0 then return -eInval
    if va ≥ utop ∨ va % 0x1000 ≠ 0 then return -eInval
    match ← liftPm (pageAlloc true) with
    | none => return -eNoMem
    | some page =>
      let r ← liftPm (pageInsert ((← get).envs e).envPgdir page va perm)
      if r.slt 0 then
        liftPm (pageFree page)
        return -eNoMem
      return 0

def sysPageMap (cpu : Cpu) (srcenvid srcva dstenvid dstva perm : Word) : KernM Word := do
  let some se ← envid2env cpu srcenvid false | return -eBadEnv
  let some de ← envid2env cpu dstenvid false | return -eBadEnv
  if srcva ≥ utop ∨ roundup srcva ≠ srcva then return -eInval
  if dstva ≥ utop ∨ roundup dstva ≠ dstva then return -eInval
  match ← liftPm (pageLookup ((← get).envs se).envPgdir srcva) with
  | none => return -eInval
  | some (page, pte) =>
    if perm &&& (pteU ||| pteP) ≠ pteU ||| pteP then return -eInval
    if !has (← liftPm (readPte pte)) pteW ∧ has perm pteW then return -eInval
    let r ← liftPm (pageInsert ((← get).envs de).envPgdir page dstva perm)
    if r.slt 0 then
      liftPm (pageFree page)
      return -eNoMem
    return 0

def sysPageUnmap (cpu : Cpu) (envid va : Word) : KernM Word := do
  match ← envid2env cpu envid true with
  | none => return -eBadEnv
  | some e =>
    if va ≥ utop ∨ va % 0x1000 ≠ 0 then return -eInval
    let pgdir := ((← get).envs e).envPgdir
    match ← liftPm (pageLookup pgdir va) with
    | none => return 0
    | some _ =>
      liftPm (pageRemove pgdir va)
      return 0

/-- The checks and the mapping of the page part of `sys_ipc_try_send`: an error code, or `0`
when the send goes on. -/
def ipcSendPage (cpu : Cpu) (e : EnvIdx) (srcva perm : Word) : KernM Word := do
  if srcva % 0x1000 ≠ 0 then return -eInval
  if has perm pteP = false ∨ has perm pteU = false ∨ pteSyscall &&& perm ≠ perm then
    return -eInval
  match ← liftPm (pageLookup ((← get).envs (← curenv cpu)).envPgdir srcva) with
  | none => return -eInval
  | some (p, pte) =>
    if has perm pteW ∧ !has (← liftPm (readPte pte)) pteW then return -eInval
    let dstva := ((← get).envs e).envIpcDstva
    if dstva < utop then
      modifyEnv e fun env => { env with envIpcPerm := 0 }
      let r ← liftPm (pageInsert ((← get).envs e).envPgdir p dstva perm)
      if r.slt 0 then return -eNoMem
    return 0

def sysIpcTrySend (cpu : Cpu) (envid value srcva perm : Word) : KernM Word := do
  match ← envid2env cpu envid false with
  | none => return -eBadEnv
  | some e =>
    if ((← get).envs e).envIpcRecving = false then return -eIpcNotRecv
    if srcva < utop then
      let r ← ipcSendPage cpu e srcva perm
      if r ≠ 0 then return r
    let c ← curenv cpu
    let from_ := ((← get).envs c).envId
    modifyEnv e fun env => { env with
      envIpcRecving := false
      envIpcFrom := from_
      envIpcValue := value
      envIpcPerm := perm
      envStatus := .runnable }
    return 0

def sysIpcRecv (cpu : Cpu) (dstva : Word) : KernM Word := do
  let c ← curenv cpu
  if dstva < utop then
    if dstva % 0x1000 ≠ 0 then return -eInval
    modifyEnv c fun env => { env with envIpcDstva := dstva }
  modifyEnv c fun env => { env with
    envIpcRecving := true
    envStatus := .notRunnable
    envTf := { env.envTf with tfRegs := { env.envTf.tfRegs with regEax := 0 } } }
  schedYield cpu

/-- `syscall()`. `cons` is what the console returns to `sys_cgetc`. -/
def syscall (cpu : Cpu) (cons syscallno a1 a2 a3 a4 a5 : Word) : KernM Word := do
  match syscallno.toNat with
  | 0 => do sysCputs cpu a1 a2; return 0
  | 1 => return cons
  | 2 => sysGetenvid cpu
  | 3 => sysEnvDestroy cpu a1
  | 4 => sysPageAlloc cpu a1 a2 a3
  | 5 => sysPageMap cpu a1 a2 a3 a4 a5
  | 6 => sysPageUnmap cpu a1 a2
  | 7 => sysExofork cpu
  | 8 => sysEnvSetStatus cpu a1 a2
  | 9 => sysEnvSetTrapframe cpu a1 a2
  | 10 => sysEnvSetPgfaultUpcall cpu a1 a2
  | 11 => schedYield cpu
  | 12 => sysIpcTrySend cpu a1 a2 a3 a4
  | 13 => sysIpcRecv cpu a1
  | _ => return -eInval

end SistemasOperativos.Kern
