import SistemasOperativos.Kern.Syscall

/-!
# Traps and the machine

`kern/trap.c`, and the steps of the machine: a kernel entry of one processor, made atomic by
the big kernel lock, or one memory access of a user program with the accessed and dirty bits
the hardware sets.
-/

namespace SistemasOperativos.Kern

open Library

def tBrkpt : Word := 3
def tPgflt : Word := 14
def tSyscall : Word := 48
def irqOffset : Word := 32
def irqTimer : Word := 0
def irqKbd : Word := 1
def irqSerial : Word := 4
def irqSpurious : Word := 7

/-- `sizeof(struct UTrapframe)`. -/
def sizeofUTrapframe : Word := 52

/-- The stores into the `struct UTrapframe` at `u`. -/
def storeUTrapframe (cr3 : ℕ) (u faultVa : Word) (tf : Trapframe) : PmapM Unit := do
  store32 cr3 u faultVa
  store32 cr3 (u + 4) tf.tfErr
  store32 cr3 (u + 8) tf.tfRegs.regEdi
  store32 cr3 (u + 12) tf.tfRegs.regEsi
  store32 cr3 (u + 16) tf.tfRegs.regEbp
  store32 cr3 (u + 20) tf.tfRegs.regOesp
  store32 cr3 (u + 24) tf.tfRegs.regEbx
  store32 cr3 (u + 28) tf.tfRegs.regEdx
  store32 cr3 (u + 32) tf.tfRegs.regEcx
  store32 cr3 (u + 36) tf.tfRegs.regEax
  store32 cr3 (u + 44) tf.tfEflags
  store32 cr3 (u + 40) tf.tfEip
  store32 cr3 (u + 48) tf.tfEsp

/-- Where `page_fault_handler` puts the `struct UTrapframe`, and how much it checks. -/
def utrapframeAt (esp : Word) : Word × Word :=
  if esp < uxstacktop ∧ esp ≥ uxstacktop - 0x1000 then
    (esp - 4 - sizeofUTrapframe, sizeofUTrapframe + 4)
  else (uxstacktop - sizeofUTrapframe, sizeofUTrapframe)

/-- `page_fault_handler` for a fault in user mode at `faultVa`. -/
def pageFaultHandler (cpu : Cpu) (faultVa : Word) : KernM Unit := do
  let c ← curenv cpu
  let env := (← get).envs c
  let tf := env.envTf
  if env.envPgfaultUpcall ≠ 0 then
    let (u, len) := utrapframeAt tf.tfEsp
    userMemAssert cpu c u len (pteW ||| pteP)
    userMemAssert cpu c env.envPgfaultUpcall 4 pteP
    liftPm (storeUTrapframe ((← get).cpus cpu).cr3 u faultVa tf)
    modifyEnv c fun env => { env with
      envTf := { env.envTf with tfEip := env.envPgfaultUpcall, tfEsp := u } }
    envRun cpu c
  envDestroy cpu c

/-- `trap_dispatch` for a trap from user mode; the trap frame is `curenv->env_tf`. -/
def trapDispatch (cpu : Cpu) (cr2 cons : Word) : KernM Unit := do
  let c ← curenv cpu
  let tf := ((← get).envs c).envTf
  if tf.tfTrapno = tBrkpt then
    -- `monitor(tf)` returns when the operator leaves it
    return
  if tf.tfTrapno = tPgflt then
    pageFaultHandler cpu cr2
    return
  if tf.tfTrapno = tSyscall then
    let regs := tf.tfRegs
    let resultado ← syscall cpu cons regs.regEax regs.regEdx regs.regEcx regs.regEbx regs.regEdi
      regs.regEsi
    modifyEnv c fun env => { env with
      envTf := { env.envTf with tfRegs := { env.envTf.tfRegs with regEax := resultado } } }
    return
  if tf.tfTrapno = irqOffset + irqSpurious then return
  if tf.tfTrapno = irqOffset + irqTimer then schedYield cpu
  if tf.tfTrapno = irqOffset + irqKbd then return
  if tf.tfTrapno = irqOffset + irqSerial then return
  envDestroy cpu c

/-- The end of `trap()`: back to `curenv` if it may run, else the scheduler. -/
def trapReturn (cpu : Cpu) : KernM Unit := do
  if let some c ← curenv? cpu then
    if ((← get).envs c).envStatus = .running then
      envRun cpu c
  schedYield cpu

/-- `trap()` for a trap from user mode with frame `tf`. -/
def trap (cpu : Cpu) (tf : Trapframe) (cr2 cons : Word) : KernM Unit := do
  let c ← curenv cpu
  if ((← get).envs c).envStatus = .dying then
    envFree cpu c
    setCurenv cpu none
    schedYield cpu
  modifyEnv c fun env => { env with envTf := tf }
  trapDispatch cpu cr2 cons
  trapReturn cpu

/-! ### The machine -/

inductive Event
  /-- a trap of the environment running on `cpu`, with the contents of `cr2` and the console -/
  | trap (cpu : Cpu) (tf : Trapframe) (cr2 cons : Word)
  /-- an interrupt of a halted processor, or its first entry into the scheduler -/
  | wake (cpu : Cpu)
  /-- the hardware marks the page of `va` accessed, and dirty if `dirty` -/
  | touch (cpu : Cpu) (va : Word) (dirty : Bool)
  /-- the program running on `cpu` stores `b` at `va` -/
  | store (cpu : Cpu) (va : Word) (b : Byte)

/-- The accessed and dirty bits of an access to a mapped page. -/
def markAccessed (mem : ℕ → ℕ → Word) (pgdir : ℕ) (va : Word) (dirty : Bool) : ℕ → ℕ → Word :=
  let pde := mem pgdir (pdx va)
  let mem := setWord mem pgdir (pdx va) (pde ||| pteA)
  let pte := mem (pgnum pde) (ptx va)
  setWord mem (pgnum pde) (ptx va) (pte ||| pteA ||| if dirty then pteD else 0)

/-- The page of `va` may be written in user mode. -/
def userWritable (mem : ℕ → ℕ → Word) (pgdir : ℕ) (va : Word) : Bool :=
  match walk mem pgdir va with
  | none => false
  | some (pde, pte) => has pde pteU && has pde pteW && has pte pteU && has pte pteW

inductive Step (s : Kernel) : Event → Kernel → Prop
  | trap {cpu : Cpu} {tf : Trapframe} {cr2 cons : Word} {t : Kernel}
      (huser : (s.cpus cpu).cpuEnv ≠ none) (hcs : tf.tfCs &&& 3 = 3)
      (ht : Kern.trap cpu tf cr2 cons s = .error .leave t) : Step s (.trap cpu tf cr2 cons) t
  | wake {cpu : Cpu} {t : Kernel} (hidle : (s.cpus cpu).cpuEnv = none)
      (ht : schedYield (α := Unit) cpu s = .error .leave t) : Step s (.wake cpu) t
  | touch {cpu : Cpu} {va : Word} {dirty : Bool}
      (huser : (s.cpus cpu).cpuEnv ≠ none) (hva : va < utop)
      (hmap : (walk s.pm.mem (s.cpus cpu).cr3 va).isSome)
      (hd : dirty = true → userWritable s.pm.mem (s.cpus cpu).cr3 va = true) :
      Step s (.touch cpu va dirty)
        { s with pm := { s.pm with mem := markAccessed s.pm.mem (s.cpus cpu).cr3 va dirty } }
  | store {cpu : Cpu} {va : Word} {b : Byte}
      (huser : (s.cpus cpu).cpuEnv ≠ none)
      (hw : userWritable s.pm.mem (s.cpus cpu).cr3 va = true) {pde pte : Word}
      (hmap : walk s.pm.mem (s.cpus cpu).cr3 va = some (pde, pte)) :
      Step s (.store cpu va b)
        { s with pm := { s.pm with mem := setByte s.pm.mem (pgnum pte) (pgoff va) b } }

end SistemasOperativos.Kern
