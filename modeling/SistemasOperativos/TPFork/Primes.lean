import Mathlib.Data.Nat.Digits.Defs
import SistemasOperativos.Library.Pipeline
import SistemasOperativos.Library.Runs
import SistemasOperativos.Library.Sieve

/-!
# `primes`

`TPFork/primes.c`. The processes form a chain: process 0 runs `main`, and the child of process `k`
is process `k + 1`. Every process makes one pipe at most, which has its number, and reads from the
pipe of its parent. A number is written and read at once. `fork` copies the open descriptors and
what `stdio` has not written yet.
-/

namespace SistemasOperativos.TPFork

open Library

def intMax : ℕ := 2147483647

/-- How `stdio` treats the standard output. A full buffer is written without its last line; it has
at least the 256 bytes that C asks of `BUFSIZ`. -/
inductive Buffering
  | line
  | full (size : ℕ) (large : 256 ≤ size)

structure Config where
  buffering : Buffering
  /-- how many numbers a pipe holds -/
  capacity : ℕ
  pos : 0 < capacity

inductive PipeEnd
  | lectura
  | escritura
  deriving DecidableEq

/-- What a process does next. -/
inductive Pc
  /-- `pipe(pipe_inicial)` -/
  | pipeInicial
  /-- `fork()` in `main` -/
  | forkActual
  /-- `close(pipe_inicial[PLECTURA])` -/
  | cierraLectura
  /-- the loop of `main`, with its counter -/
  | escribe (i : ℕ)
  /-- `i++` has overflowed, which is undefined behaviour -/
  | desborda
  /-- `close(pipe_inicial[PESCRITURA])` in the child of `main` -/
  | soyHijo
  /-- `read(lectura, &primo, ..)` -/
  | leePrimo
  /-- `close(lectura)` of a process without a number -/
  | cierraVacio
  | printfPrimo (primo : ℕ)
  /-- `pipe(pipe_nuevo)` -/
  | pipeNuevo (primo : ℕ)
  /-- `fork()` in `primes` -/
  | forkNuevo (primo : ℕ)
  /-- `close(pipe_nuevo[PLECTURA])` -/
  | cierraNuevaLectura (primo : ℕ)
  /-- `read(lectura, &num, ..)` -/
  | leeNum (primo : ℕ)
  /-- `write(pipe_nuevo[PESCRITURA], &num, ..)` -/
  | escribeNum (primo num : ℕ)
  /-- `close(lectura)` after the loop -/
  | cierraLecturaFinal
  /-- `close(pipe_nuevo[PESCRITURA])` in the child -/
  | hijoCierraEscritura
  /-- `close(lectura)` in the child -/
  | hijoCierraLectura
  /-- the parent closes the pipe that it writes to -/
  | cierraEscritura
  /-- `wait(0)` -/
  | espera
  /-- `exit(0)`, or the return from `main` -/
  | sale
  | fin
  deriving DecidableEq

/-- A process, and what is in the pipe that it has made. -/
structure Node where
  pc : Pc
  ends : ℕ → PipeEnd → Bool
  queue : List ℕ
  /-- the lines that `stdio` has not written -/
  buf : List ℕ

structure Estado where
  nodes : List Node
  /-- the lines on the standard output -/
  output : List ℕ

/-- `primo %i\n`. -/
def lineLength (primo : ℕ) : ℕ := 7 + (Nat.digits 10 primo).length

/-- `printf`: what is written, and what the buffer holds then. -/
def printf (b : Buffering) (buf : List ℕ) (primo : ℕ) : List ℕ × List ℕ :=
  match b with
  | .line => (buf ++ [primo], [])
  | .full size _ =>
    if ((buf ++ [primo]).map lineLength).sum ≤ size then ([], buf ++ [primo]) else (buf, [primo])

def Node.pipe (n : Node) (j : ℕ) (pc : Pc) : Node :=
  { n with
    pc := pc
    ends := fun j' e => if j' = j then true else n.ends j' e }

def Node.close (n : Node) (j : ℕ) (e : PipeEnd) (pc : Pc) : Node :=
  { n with
    pc := pc
    ends := fun j' e' => if j' = j ∧ e' = e then false else n.ends j' e' }

/-- The steps of process `k` that no other process takes part in, with what they write to the
standard output. -/
def act (b : Buffering) (max k : ℕ) (n : Node) : Option (List ℕ × Node) :=
  match n.pc with
  | .pipeInicial => some ([], n.pipe k .forkActual)
  | .cierraLectura => some ([], n.close k .lectura (.escribe 2))
  | .escribe i => if i ≤ max then none else some ([], { n with pc := .cierraEscritura })
  | .soyHijo => some ([], n.close (k - 1) .escritura .leePrimo)
  | .cierraVacio => some ([], n.close (k - 1) .lectura .sale)
  | .printfPrimo primo =>
    let (written, buf) := printf b n.buf primo
    some (written, { n with pc := .pipeNuevo primo, buf := buf })
  | .pipeNuevo primo => some ([], n.pipe k (.forkNuevo primo))
  | .cierraNuevaLectura primo => some ([], n.close k .lectura (.leeNum primo))
  | .cierraLecturaFinal => some ([], n.close (k - 1) .lectura .cierraEscritura)
  | .hijoCierraEscritura => some ([], n.close (k - 1) .escritura .hijoCierraLectura)
  | .hijoCierraLectura => some ([], n.close (k - 2) .lectura .leePrimo)
  | .cierraEscritura => some ([], n.close k .escritura .espera)
  | .sale => some (n.buf, { n with pc := .fin, ends := fun _ _ => false, buf := [] })
  | _ => none

/-- The number that a process writes to its pipe, and what it does then. -/
def writes (max : ℕ) : Pc → Option (ℕ × Pc)
  | .escribe i =>
    if i ≤ max then some (i, if i = intMax then .desborda else .escribe (i + 1)) else none
  | .escribeNum primo num => some (num, .leeNum primo)
  | _ => none

/-- What a process does with what it reads from the pipe of its parent; `none` is the end. -/
def reads : Pc → Option (Option ℕ → Pc)
  | .leePrimo => some fun
    | some primo => .printfPrimo primo
    | none => .cierraVacio
  | .leeNum primo => some fun
    | some num => if num % primo ≠ 0 then .escribeNum primo num else .leeNum primo
    | none => .cierraLecturaFinal
  | _ => none

/-- What the parent and the child do after a `fork`. -/
def forks : Pc → Option (Pc × Pc)
  | .forkActual => some (.cierraLectura, .soyHijo)
  | .forkNuevo primo => some (.cierraNuevaLectura primo, .hijoCierraEscritura)
  | _ => none

/-- A step of one of the processes, whose number is the label. The process that forks is the last
one, as its child is the next one. -/
inductive Step (c : Config) (max : ℕ) : Estado → ℕ → Estado → Prop
  | act {pre post : List Node} {n n' : Node} {output written : List ℕ}
      (h : act c.buffering max pre.length n = some (written, n')) :
      Step c max ⟨pre ++ n :: post, output⟩ pre.length ⟨pre ++ n' :: post, output ++ written⟩
  | write {pre post : List Node} {n : Node} {output : List ℕ} {num : ℕ} {pc : Pc}
      (h : writes max n.pc = some (num, pc)) (hopen : n.ends pre.length .escritura = true)
      (hroom : n.queue.length < c.capacity)
      (hreader : ∃ m ∈ pre ++ n :: post, m.ends pre.length .lectura = true) :
      Step c max ⟨pre ++ n :: post, output⟩ pre.length
        ⟨pre ++ { n with pc := pc, queue := n.queue ++ [num] } :: post, output⟩
  | read {pre post : List Node} {w n : Node} {output q : List ℕ} {num : ℕ} {next : Option ℕ → Pc}
      (h : reads n.pc = some next) (hopen : n.ends pre.length .lectura = true)
      (hq : w.queue = num :: q) :
      Step c max ⟨pre ++ w :: n :: post, output⟩ (pre.length + 1)
        ⟨pre ++ { w with queue := q } :: { n with pc := next (some num) } :: post, output⟩
  | eof {pre post : List Node} {w n : Node} {output : List ℕ} {next : Option ℕ → Pc}
      (h : reads n.pc = some next) (hopen : n.ends pre.length .lectura = true)
      (hq : w.queue = [])
      (hclosed : ∀ m ∈ pre ++ w :: n :: post, m.ends pre.length .escritura = false) :
      Step c max ⟨pre ++ w :: n :: post, output⟩ (pre.length + 1)
        ⟨pre ++ w :: { n with pc := next none } :: post, output⟩
  | fork {pre : List Node} {n : Node} {output : List ℕ} {padre hijo : Pc}
      (h : forks n.pc = some (padre, hijo)) :
      Step c max ⟨pre ++ [n], output⟩ pre.length
        ⟨pre ++ [{ n with pc := padre }, { n with pc := hijo, queue := [] }], output⟩
  | wait {pre post : List Node} {n m : Node} {output : List ℕ} (h : n.pc = .espera)
      (hfin : m.pc = .fin) :
      Step c max ⟨pre ++ n :: m :: post, output⟩ pre.length
        ⟨pre ++ { n with pc := .sale } :: m :: post, output⟩

/-- `main` has checked its argument. -/
def arranque : Estado := ⟨[⟨.pipeInicial, fun _ _ => false, [], []⟩], []⟩

abbrev Corrida (c : Config) (max : ℕ) : List (Move Estado ℕ) → Estado → Prop :=
  Run (· = arranque) (Step c max)

/-- No run goes on for ever, and when no process can take a step all have ended and the output has
one line for every prime number up to `max`. -/
def PrimesOk (c : Config) (max : ℕ) : Prop :=
  (∃ bound, ∀ h s, Corrida c max h s → h.length ≤ bound) ∧
  ∀ h s, Corrida c max h s → (∀ i t, ¬Step c max s i t) →
    (∀ n ∈ s.nodes, n.pc = .fin) ∧ s.output.Nodup ∧ ∀ p, p ∈ s.output ↔ p.Prime ∧ p ≤ max

end SistemasOperativos.TPFork
