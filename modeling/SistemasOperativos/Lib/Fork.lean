import SistemasOperativos.Kern.Env
import SistemasOperativos.Lib.Sharing
import SistemasOperativos.Library.Runs

/-!
# Copy-on-write fork

`lib/fork.c`: `fork` copies the mappings of its caller page by page, and `pgfault` replaces a
page marked `PTE_COW` by a private copy when it is written. Every system call of the two is a
step, and the steps of any number of environments, their writes and their ends come in any order. The
system calls do what they document and never lack memory; an environment that panics makes no
further step.
-/

namespace SistemasOperativos.Lib.Fork

open Library
open Kern (Word Byte pteP pteW pteU pteSyscall has EnvStatus)

/-- Where an environment stands in `fork`. -/
inductive ForkPc (ι : Type)
  | out
  /-- `set_pgfault_handler` allocates the exception stack -/
  | handler
  | setUpcall
  | exofork
  /-- the loops have come to page `pn` -/
  | copy (child : ι) (pn : ℕ)
  /-- `duppage` has read `pte` -/
  | dup (child : ι) (pn : ℕ) (pte : Pte)
  /-- `duppage` has made the mapping of the child and not yet its own -/
  | dupSelf (child : ι) (pn : ℕ)
  | upcall (child : ι)
  | status (child : ι)

/-- Where it stands in `pgfault`, called for page `pn`. -/
inductive FaultPc
  | out
  | alloc (pn : ℕ)
  | copy (pn : ℕ)
  | map (pn : ℕ)
  | unmap

structure ForkState (ι : Type) where
  space : Spaces ι
  /-- the contents of the frames -/
  mem : ℕ → ℕ → Byte
  /-- the next frame to be allocated -/
  next : ℕ
  status : ι → EnvStatus
  envPgfaultUpcall : ι → Bool
  /-- `_pgfault_handler` is set -/
  handler : ι → Bool
  fork : ι → ForkPc ι
  fault : ι → FaultPc

inductive ForkEvent (ι : Type)
  /-- a write of a byte that succeeds -/
  | write (e : ι) (pn off : ℕ) (b : Byte)
  | pgfault (e : ι)
  | fork (e : ι)
  /-- the environment exits or is destroyed -/
  | exit (e : ι)

variable {ι : Type} [DecidableEq ι]

namespace ForkState

/-- `sys_page_alloc(e, pn, PTE_U | PTE_W | PTE_P)`. -/
def alloc (s : ForkState ι) (e : ι) (pn : ℕ) : ForkState ι :=
  { s with
    space := s.space.set e pn (some ⟨s.next, permRw⟩)
    mem := Function.update s.mem s.next (fun _ => 0)
    next := s.next + 1 }

/-- `sys_page_map` of the frame `f`. -/
def map (s : ForkState ι) (f : ℕ) (e : ι) (pn : ℕ) (perm : Word) : ForkState ι :=
  { s with space := s.space.set e pn (some ⟨f, perm⟩) }

def unmap (s : ForkState ι) (e : ι) (pn : ℕ) : ForkState ι :=
  { s with space := s.space.set e pn none }

def setFork (s : ForkState ι) (e : ι) (pc : ForkPc ι) : ForkState ι :=
  { s with fork := Function.update s.fork e pc }

def setFault (s : ForkState ι) (e : ι) (pc : FaultPc) : ForkState ι :=
  { s with fault := Function.update s.fault e pc }

/-- A byte is written to a frame. -/
def store (s : ForkState ι) (f off : ℕ) (b : Byte) : ForkState ι :=
  { s with mem := Function.update s.mem f (Function.update (s.mem f) off b) }

/-- `sys_exofork` makes the environment `c`. -/
def exofork (s : ForkState ι) (e c : ι) : ForkState ι :=
  { s with
    space := s.space.clear c
    status := Function.update s.status c .notRunnable
    envPgfaultUpcall := Function.update s.envPgfaultUpcall c false
    handler := Function.update s.handler c (s.handler e)
    fork := Function.update (Function.update s.fork c .out) e (.copy c 0)
    fault := Function.update s.fault c .out }

def exit (s : ForkState ι) (e : ι) : ForkState ι :=
  { s with
    space := s.space.clear e
    status := Function.update s.status e .free
    fork := Function.update s.fork e .out
    fault := Function.update s.fault e .out }

end ForkState

/-- A step of `pgfault` in environment `e`. -/
inductive FaultStep (s : ForkState ι) (e : ι) : ForkState ι → Prop
  /-- a write faults; the checks of `pgfault` pass -/
  | start {pn : ℕ} {pte : Pte} (h : s.fault e = .out) (hup : s.envPgfaultUpcall e = true)
      (hp : s.space e pn = some pte) (hw : pte.writable = false) (hcow : pte.cow = true) :
      FaultStep s e (s.setFault e (.alloc pn))
  | alloc {pn : ℕ} (h : s.fault e = .alloc pn) :
      FaultStep s e ((s.alloc e pftempPage).setFault e (.copy pn))
  /-- `memmove` -/
  | copy {pn : ℕ} {old new : Pte} (h : s.fault e = .copy pn) (hold : s.space e pn = some old)
      (hnew : s.space e pftempPage = some new) (hw : new.writable = true) :
      FaultStep s e ({ s with mem := Function.update s.mem new.frame (s.mem old.frame) }.setFault e
        (.map pn))
  | map {pn : ℕ} {new : Pte} (h : s.fault e = .map pn) (hnew : s.space e pftempPage = some new)
      (hw : new.writable = true) :
      FaultStep s e ((s.map new.frame e pn permRw).setFault e .unmap)
  | unmap (h : s.fault e = .unmap) : FaultStep s e ((s.unmap e pftempPage).setFault e .out)

/-- A step of `fork` in environment `e`. -/
inductive CopyStep (s : ForkState ι) (e : ι) : ForkState ι → Prop
  | start (h : s.fork e = .out) :
      CopyStep s e (s.setFork e (if s.handler e then .setUpcall else .handler))
  | handler (h : s.fork e = .handler) :
      CopyStep s e ({ s.alloc e uxstackPage with
        handler := Function.update s.handler e true }.setFork e .setUpcall)
  | setUpcall (h : s.fork e = .setUpcall) :
      CopyStep s e ({ s with
        envPgfaultUpcall := Function.update s.envPgfaultUpcall e true }.setFork e .exofork)
  | exofork {c : ι} (h : s.fork e = .exofork) (hc : s.status c = .free) :
      CopyStep s e (s.exofork e c)
  /-- no page, or the exception stack -/
  | skip {c : ι} {pn : ℕ} (h : s.fork e = .copy c pn) (hpn : pn < utopPage)
      (hskip : pn = uxstackPage ∨ s.space e pn = none) :
      CopyStep s e (s.setFork e (.copy c (pn + 1)))
  | read {c : ι} {pn : ℕ} {pte : Pte} (h : s.fork e = .copy c pn) (hpn : pn < utopPage)
      (hne : pn ≠ uxstackPage) (hp : s.space e pn = some pte) :
      CopyStep s e (s.setFork e (.dup c pn pte))
  | share {c : ι} {pn : ℕ} {pte now : Pte} (h : s.fork e = .dup c pn pte)
      (hshare : pte.shared = true) (hp : s.space e pn = some now)
      (hw : has (pte.perm &&& pteSyscall) pteW = true → now.writable = true) :
      CopyStep s e ((s.map now.frame c pn (pte.perm &&& pteSyscall)).setFork e (.copy c (pn + 1)))
  | cow {c : ι} {pn : ℕ} {pte now : Pte} (h : s.fork e = .dup c pn pte)
      (hshare : pte.shared = false) (hcow : pte.cow = true ∨ pte.writable = true)
      (hp : s.space e pn = some now) :
      CopyStep s e ((s.map now.frame c pn permCow).setFork e (.dupSelf c pn))
  | self {c : ι} {pn : ℕ} {now : Pte} (h : s.fork e = .dupSelf c pn)
      (hp : s.space e pn = some now) :
      CopyStep s e ((s.map now.frame e pn permCow).setFork e (.copy c (pn + 1)))
  | readOnly {c : ι} {pn : ℕ} {pte now : Pte} (h : s.fork e = .dup c pn pte)
      (hshare : pte.shared = false) (hcow : pte.cow = false) (hro : pte.writable = false)
      (hp : s.space e pn = some now) :
      CopyStep s e ((s.map now.frame c pn permRo).setFork e (.copy c (pn + 1)))
  /-- the exception stack of the child -/
  | stack {c : ι} (h : s.fork e = .copy c utopPage) :
      CopyStep s e ((s.alloc c uxstackPage).setFork e (.upcall c))
  | upcall {c : ι} (h : s.fork e = .upcall c) :
      CopyStep s e ({ s with
        envPgfaultUpcall := Function.update s.envPgfaultUpcall c (s.envPgfaultUpcall e) }.setFork e
        (.status c))
  | status {c : ι} (h : s.fork e = .status c) :
      CopyStep s e ({ s with status := Function.update s.status c .runnable }.setFork e .out)

/-- A runnable environment writes or makes a step of `pgfault` or `fork`. While `pgfault` runs,
only the exception stack is written. -/
inductive Step (s : ForkState ι) : ForkEvent ι → ForkState ι → Prop
  | write {e : ι} {pn off : ℕ} {pte : Pte} (b : Byte) (hrun : s.status e = .runnable)
      (hout : s.fault e = .out ∨ pn = uxstackPage) (hp : s.space e pn = some pte)
      (hw : pte.writable = true) : Step s (.write e pn off b) (s.store pte.frame off b)
  | pgfault {e : ι} {t : ForkState ι} (hrun : s.status e = .runnable) (hst : FaultStep s e t) :
      Step s (.pgfault e) t
  | fork {e : ι} {t : ForkState ι} (hrun : s.status e = .runnable) (hout : s.fault e = .out)
      (hst : CopyStep s e t) : Step s (.fork e) t
  | exit {e : ι} (hrun : s.status e = .runnable) : Step s (.exit e) (s.exit e)

/-- The parent alone. Its pages below `UTOP` are read-only, writable, `PTE_COW` or `PTE_SHARE`, any of them
under several addresses; `PFTEMP` is free, and the exception stack is its own if the handler is set, else
free. -/
structure Start (p : ι) (s : ForkState ι) : Prop where
  parent : s.status p = .runnable
  others : ∀ e, e ≠ p → s.status e = .free ∧ s.space e = fun _ => none
  idle : ∀ e, s.fork e = .out ∧ s.fault e = .out
  frames : ∀ pn pte, s.space p pn = some pte → pte.frame < s.next ∧ pn < utopPage
  kinds : ∀ pn pte, s.space p pn = some pte → pte.shared = true → pte.cow = false
  pftemp : s.space p pftempPage = none
  stack : if s.handler p then
      ∃ f, s.space p uxstackPage = some ⟨f, permRw⟩ ∧
        ∀ pn pte, s.space p pn = some pte → pte.frame = f → pn = uxstackPage
    else s.space p uxstackPage = none
  /-- no page is mapped both writable with `PTE_SHARE` and, elsewhere, writable or copy-on-write without it -/
  unmixed : ∀ pn pn' pte pte', s.space p pn = some pte → s.space p pn' = some pte' → pte'.frame = pte.frame →
    pte.shared = true → pte.writable = true → pte'.shared = true ∨ pte'.ReadOnly

abbrev ForkMove (ι : Type) := Move (ForkState ι) (ForkEvent ι)

abbrev ForkRuns (p : ι) : List (ForkMove ι) → ForkState ι → Prop := Run (Start p) Step

/-! ### What a run promises -/

/-- What `e` reads in its page `pn`. -/
def view (s : ForkState ι) (e : ι) (pn : ℕ) : Option (ℕ → Byte) :=
  (s.space e pn).map fun pte => s.mem pte.frame

/-- The page is mapped, and not with `PTE_SHARE`. -/
def Private (s : ForkState ι) (e : ι) (pn : ℕ) : Prop :=
  ∃ pte, s.space e pn = some pte ∧ pte.shared = false

/-- A later write of `e` to the byte `off` of the page `pn`, through any of its addresses. -/
def Overwrites (m : ForkMove ι) (e : ι) (pn off : ℕ) : Prop :=
  ∃ pn' b, m.label = .write e pn' off b ∧
    (m.pre.space e pn').map Pte.frame = (m.pre.space e pn).map Pte.frame

structure ForkOk (h : List (ForkMove ι)) (s : ForkState ι) : Prop where
  /-- a write to a page that is not `PTE_SHARE` shows in no other environment -/
  hidden : ∀ m ∈ h, ∀ e pn off b, m.label = .write e pn off b → Private m.pre e pn →
    ∀ e', e' ≠ e → m.pre.status e' = .runnable → view m.post e' = view m.pre e'
  /-- an environment reads back what it wrote last to such a page -/
  readBack : ∀ h₁ m h₂ e pn off b, h = h₁ ++ m :: h₂ → m.label = .write e pn off b →
    Private m.pre e pn → (∀ x ∈ h₂, ¬Overwrites x e pn off ∧ x.label ≠ .exit e) →
    ∃ v, view s e pn = some v ∧ v off = b
  /-- a `PTE_SHARE` page is common to all environments -/
  common : ∀ e e' pn pte, s.status e = .runnable → s.status e' = .runnable →
    s.space e pn = some pte → pte.shared = true →
    ∃ pte', s.space e' pn = some pte' ∧ pte'.shared = true ∧ pte'.frame = pte.frame

end SistemasOperativos.Lib.Fork
