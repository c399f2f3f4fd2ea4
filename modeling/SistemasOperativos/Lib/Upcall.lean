import SistemasOperativos.Library.Runs
import SistemasOperativos.Library.X86
import SistemasOperativos.Kern.TrapMem
import SistemasOperativos.Kern.UserImage

/-!
# The exception stack

The frames that `page_fault_handler` pushes for a program, and the way back from them in
`lib/pfentry.S`. A world is a program with its live frames, the innermost first; its handler may do
anything as long as it uses only the stack below its frame.
-/

namespace SistemasOperativos.Lib

open Library Kern

/-- `_pgfault_upcall` after the handler has returned, up to the stack being ready for `ret`. -/
def pushTrapEip : List Instr :=
  [.add 4 .esp, .mov .esp .eax, .load 40 .esp .ebx, .load 48 .esp .esp, .push .ebx,
    .store .esp 48 .eax, .mov .eax .esp]

/-- The rest of `_pgfault_upcall`. -/
def restoreTrapState : List Instr :=
  [.add 4 .esp, .add 4 .esp, .popa, .add 4 .esp, .popf, .pop .esp, .ret]

def pgfaultUpcall : List Instr := pushTrapEip ++ restoreTrapState

/-- The words of a `struct UTrapframe` that the kernel writes, in its order; the flags are those
that the processor has saved. -/
def utrapframeWords (s : Machine) (faultVa err oesp : Word) : List (ℕ × Word) :=
  [(0, faultVa), (4, err), (8, s.regs .edi), (12, s.regs .esi), (16, s.regs .ebp), (20, oesp),
    (24, s.regs .ebx), (28, s.regs .edx), (32, s.regs .ecx), (36, s.regs .eax),
    (44, s.eflags ||| flRf), (40, s.eip), (48, s.regs .esp)]

/-- A frame on the exception stack, and the program when it faulted. -/
structure LiveFrame where
  u : Word
  user : Machine

/-- What the return needs of a frame. -/
def LiveFrame.words (f : LiveFrame) : List (ℕ × Word) :=
  [(8, f.user.regs .edi), (12, f.user.regs .esi), (16, f.user.regs .ebp), (24, f.user.regs .ebx),
    (28, f.user.regs .edx), (32, f.user.regs .ecx), (36, f.user.regs .eax),
    (40, f.user.eip), (44, f.user.eflags ||| flRf), (48, f.user.regs .esp)]

/-- The frame is in memory as it was pushed. -/
def Saved (m : UserMem) (f : LiveFrame) : Prop :=
  ∀ x ∈ f.words, m.load32 (f.u + BitVec.ofNat 32 x.1) = some x.2

/-- The program is on the exception stack, by the test of the kernel. -/
def OnException (esp : Word) : Prop := esp < uxstacktop ∧ esp ≥ uxstacktop - 0x1000

/-- The word just below the trap-time stack pointer is writable and not a part of the frame. -/
structure StackOk (m : UserMem) (f : LiveFrame) : Prop where
  mapped : m.Mapped (f.user.regs .esp - 4)
  apart : ∀ x ∈ f.words, m.Apart (f.user.regs .esp - 4) (f.u + BitVec.ofNat 32 x.1)

structure World where
  machine : Machine
  frames : List LiveFrame

inductive WorldEvent
  | user
  | fault (faultVa err oesp upcall : Word)
  | resume

/-- The exception stack is one page, which is mapped. -/
def HasException (m : UserMem) : Prop := (m.frames (uxstacktop.toNat / 4096 - 1)).isSome

inductive WorldStep (w : World) : WorldEvent → World → Prop
  /-- Anything that a program can do. A handler stays on the exception stack below its frame. -/
  | user {m : Machine} (hflags : fixedFlags m.eflags = fixedFlags w.machine.eflags)
      (hpage : HasException m.mem) (hsaved : ∀ f ∈ w.frames, Saved m.mem f)
      (hstack : ∀ f ∈ w.frames.head?, OnException (m.regs .esp) ∧ m.regs .esp ≤ f.u) :
      WorldStep w .user ⟨m, w.frames⟩
  /-- A page fault, for which the exception stack has room. -/
  | fault {faultVa err oesp upcall u len : Word} {m : UserMem}
      (hu : utrapframeAt (w.machine.regs .esp) = (u, len)) (hroom : uxstacktop - 0x1000 ≤ u)
      (hm : w.machine.mem.storeWords u (utrapframeWords w.machine faultVa err oesp) = some m) :
      WorldStep w (.fault faultVa err oesp upcall)
        ⟨{ (w.machine.withMem m).set .esp u with eip := upcall, eflags := w.machine.eflags ||| flRf },
          ⟨u, w.machine⟩ :: w.frames⟩
  /-- The return from the handler of the innermost frame. -/
  | resume {f : LiveFrame} {fs : List LiveFrame} {m : Machine} (hf : w.frames = f :: fs)
      (hesp : w.machine.regs .esp = f.u - 4)
      (hstack : OnException (f.user.regs .esp) ∨ StackOk w.machine.mem f)
      (hm : execAll pgfaultUpcall w.machine = some m) : WorldStep w .resume ⟨m, fs⟩

/-- A program that is not in its handler. -/
def WorldStarts (w : World) : Prop := w.frames = [] ∧ HasException w.machine.mem

/-- The program is as it was when it faulted. The resume flag is the processor's own. -/
structure Resumed (f : LiveFrame) (m : Machine) : Prop where
  regs : m.regs = f.user.regs
  eip : m.eip = f.user.eip
  eflags : m.eflags = f.user.eflags &&& ~~~flRf

structure UpcallOk (w : World) : Prop where
  /-- a frame with the word that is reserved above it lies below the older frames -/
  disjoint : w.frames.Pairwise (fun f g => f.u.toNat + 56 ≤ g.u.toNat)
  /-- the reserved word lies just below the stack that the handler was interrupted on -/
  reserved : ∀ f ∈ w.frames, OnException (f.user.regs .esp) →
    f.u.toNat + 56 = (f.user.regs .esp).toNat
  /-- a frame for which there is room can be pushed -/
  pushes : ∀ faultVa err oesp u len, utrapframeAt (w.machine.regs .esp) = (u, len) →
    uxstacktop - 0x1000 ≤ u →
    (w.machine.mem.storeWords u (utrapframeWords w.machine faultVa err oesp)).isSome
  resumes : ∀ f fs, w.frames = f :: fs → w.machine.regs .esp = f.u - 4 →
    OnException (f.user.regs .esp) ∨ StackOk w.machine.mem f →
    ∃ m, execAll pgfaultUpcall w.machine = some m ∧ Resumed f m

variable {s t : Machine} {m m' : UserMem} {f g : LiveFrame} {fs : List LiveFrame}
variable {a b u len esp : Word} {k : ℕ} {w w' : World} {e : WorldEvent}

/-! ### The return -/

/-- What the first part leaves: the trap-time `eip` on the trap-time stack, and the frame with the
adjusted stack pointer. -/
structure Pushed (s : Machine) (f : LiveFrame) (t : Machine) : Prop where
  esp : t.regs .esp = f.u
  flags : fixedFlags t.eflags = fixedFlags s.eflags
  frames : t.mem.frames = s.mem.frames
  eip : t.mem.load32 (f.user.regs .esp - 4) = some f.user.eip
  adjusted : t.mem.load32 (f.u + 48) = some (f.user.regs .esp - 4)
  other : ∀ b, s.mem.Apart (f.user.regs .esp - 4) b → s.mem.Apart (f.u + 48) b →
    t.mem.load32 b = s.mem.load32 b

lemma pushTrapEip_spec (hesp : s.regs .esp = f.u - 4) (hsaved : Saved s.mem f)
    (hstack : StackOk s.mem f) : ∃ t, execAll pushTrapEip s = some t ∧ Pushed s f t := by
  have heip : s.mem.load32 (f.u + 40) = some f.user.eip :=
    hsaved (40, f.user.eip) (by simp [LiveFrame.words])
  have hold : s.mem.load32 (f.u + 48) = some (f.user.regs .esp) :=
    hsaved (48, f.user.regs .esp) (by simp [LiveFrame.words])
  have hapart : s.mem.Apart (f.user.regs .esp - 4) (f.u + 48) :=
    hstack.apart (48, f.user.regs .esp) (by simp [LiveFrame.words])
  obtain ⟨m₁, h₁, hf₁, hl₁, ho₁⟩ := UserMem.store32_spec hstack.mapped f.user.eip
  have hmap : m₁.Mapped (f.u + 48) := (UserMem.mapped_of_load32 hold).congr hf₁
  obtain ⟨m₂, h₂, hf₂, hl₂, ho₂⟩ := UserMem.store32_spec hmap (f.user.regs .esp - 4)
  let s₁ : Machine := { s.set .esp f.u with eflags := addFlags s.eflags (s.regs .esp) 4 }
  let s₄ := ((s₁.set .eax f.u).set .ebx f.user.eip).set .esp (f.user.regs .esp)
  let s₅ := (s₄.withMem m₁).set .esp (f.user.regs .esp - 4)
  have hu : s.regs .esp + 4 = f.u := by
    rw [hesp]
    exact BitVec.sub_add_cancel f.u 4
  have e₁ : exec s (.add 4 .esp) = some s₁ := exec_add hu
  have e₃ : exec (s₁.set .eax f.u) (.load 40 .esp .ebx) =
      some ((s₁.set .eax f.u).set .ebx f.user.eip) := exec_load heip
  have e₄ : exec ((s₁.set .eax f.u).set .ebx f.user.eip) (.load 48 .esp .esp) = some s₄ :=
    exec_load hold
  have e₅ : exec s₄ (.push .ebx) = some s₅ := exec_push h₁
  have e₆ : exec s₅ (.store .esp 48 .eax) = some (s₅.withMem m₂) := exec_store h₂
  refine ⟨(s₅.withMem m₂).set .esp f.u, ?_, ?_⟩
  · unfold pushTrapEip
    rw [execAll_cons e₁, execAll_cons (t := s₁.set .eax f.u) rfl, execAll_cons e₃,
      execAll_cons e₄, execAll_cons e₅, execAll_cons e₆]
    rfl
  · constructor
    · rfl
    · exact addFlags_fixed _ _ _
    · exact hf₂.trans hf₁
    · exact (ho₂ _ (hapart.symm.congr hf₁)).trans hl₁
    · exact hl₂
    · intro b hb hb'
      exact (ho₂ b (hb'.congr hf₁)).trans (ho₁ b hb)

/-- The second part, from a frame with an adjusted stack pointer. -/
lemma restoreTrapState_spec (hesp : s.regs .esp = f.u)
    (hwords : ∀ x ∈ f.words, x.1 ≠ 48 → s.mem.load32 (f.u + BitVec.ofNat 32 x.1) = some x.2)
    (hadjusted : s.mem.load32 (f.u + 48) = some (f.user.regs .esp - 4))
    (heip : s.mem.load32 (f.user.regs .esp - 4) = some f.user.eip)
    (hflags : fixedFlags s.eflags = fixedFlags f.user.eflags) :
    ∃ t, execAll restoreTrapState s = some t ∧ Resumed f t ∧ t.mem = s.mem := by
  have hword : ∀ k v, (k, v) ∈ f.words → k ≠ 48 → s.mem.load32 (f.u + BitVec.ofNat 32 k) = some v :=
    fun k v h hk => hwords (k, v) h hk
  have hadd : ∀ j k : ℕ, f.u + BitVec.ofNat 32 j + BitVec.ofNat 32 k = f.u + BitVec.ofNat 32 (j + k) := by
    intro j k
    rw [BitVec.add_assoc, BitVec.ofNat_add]
  let s₁ : Machine := { s.set .esp (f.u + 4) with eflags := addFlags s.eflags (s.regs .esp) 4 }
  let s₂ : Machine := { s₁.set .esp (f.u + 8) with eflags := addFlags s₁.eflags (s₁.regs .esp) 4 }
  let s₃ : Machine := { s₂ with regs := Function.update f.user.regs .esp (f.u + 40) }
  let s₄ : Machine := { s₃.set .esp (f.u + 44) with eflags := addFlags s₃.eflags (s₃.regs .esp) 4 }
  let s₅ : Machine := { s₄.set .esp (f.u + 48) with
    eflags := popfFlags s₄.eflags (f.user.eflags ||| flRf) }
  let s₆ := (s₅.set .esp (f.u + 52)).set .esp (f.user.regs .esp - 4)
  let s₇ : Machine := { s₆.set .esp (f.user.regs .esp) with eip := f.user.eip }
  have e₁ : exec s (.add 4 .esp) = some s₁ := exec_add (by rw [hesp])
  have e₂ : exec s₁ (.add 4 .esp) = some s₂ := exec_add (hadd 4 4)
  have hpop : ∀ k v, (8 + k, v) ∈ f.words → 8 + k ≠ 48 →
      s.mem.load32 (f.u + BitVec.ofNat 32 8 + BitVec.ofNat 32 k) = some v := by
    intro k v h hk
    rw [hadd]
    exact hword _ v h hk
  have e₃ : exec s₂ .popa = some s₃ := by
    apply exec_popa
    · exact hword 8 (f.user.regs .edi) (by simp [LiveFrame.words]) (by decide)
    · exact hpop 4 (f.user.regs .esi) (by simp [LiveFrame.words]) (by decide)
    · exact hpop 8 (f.user.regs .ebp) (by simp [LiveFrame.words]) (by decide)
    · exact hpop 16 (f.user.regs .ebx) (by simp [LiveFrame.words]) (by decide)
    · exact hpop 20 (f.user.regs .edx) (by simp [LiveFrame.words]) (by decide)
    · exact hpop 24 (f.user.regs .ecx) (by simp [LiveFrame.words]) (by decide)
    · exact hpop 28 (f.user.regs .eax) (by simp [LiveFrame.words]) (by decide)
    · exact hadd 8 32
  have e₄ : exec s₃ (.add 4 .esp) = some s₄ := exec_add (hadd 40 4)
  have e₅ : exec s₄ .popf = some s₅ := by
    apply exec_popf
    · exact hword 44 (f.user.eflags ||| flRf) (by simp [LiveFrame.words]) (by decide)
    · exact hadd 44 4
  have e₆ : exec s₅ (.pop .esp) = some s₆ := exec_pop hadjusted (hadd 48 4)
  have e₇ : exec s₆ .ret = some s₇ := exec_ret heip (BitVec.sub_add_cancel _ 4)
  refine ⟨s₇, ?_, ?_, rfl⟩
  · unfold restoreTrapState
    rw [execAll_cons e₁, execAll_cons e₂, execAll_cons e₃, execAll_cons e₄, execAll_cons e₅,
      execAll_cons e₆, execAll_cons e₇]
    rfl
  · constructor
    · funext r
      cases r <;> rfl
    · rfl
    · have hfixed : fixedFlags s₄.eflags = fixedFlags f.user.eflags := by
        change fixedFlags (addFlags (addFlags (addFlags s.eflags _ _) _ _) _ _) = _
        rw [addFlags_fixed, addFlags_fixed, addFlags_fixed, hflags]
      exact popfFlags_saved hfixed

/-- The offsets of the words of a frame. -/
lemma words_offset {x : ℕ × Word} (hx : x ∈ f.words) : x.1 + 4 ≤ 52 ∧ x.1 % 4 = 0 := by
  have hall : ∀ k ∈ f.words.map Prod.fst, k + 4 ≤ 52 ∧ k % 4 = 0 := by
    change ∀ k ∈ [8, 12, 16, 24, 28, 32, 36, 40, 44, 48], k + 4 ≤ 52 ∧ k % 4 = 0
    decide
  exact hall x.1 (List.mem_map_of_mem hx)

/-- What the return does, when the frame is as it was pushed. -/
lemma pgfaultUpcall_spec (hesp : s.regs .esp = f.u - 4) (hsaved : Saved s.mem f)
    (hstack : StackOk s.mem f) (hflags : fixedFlags f.user.eflags = fixedFlags s.eflags) :
    ∃ t, execAll pgfaultUpcall s = some t ∧ Resumed f t ∧ t.mem.frames = s.mem.frames ∧
      ∀ b, s.mem.Apart (f.user.regs .esp - 4) b → s.mem.Apart (f.u + 48) b →
        t.mem.load32 b = s.mem.load32 b := by
  obtain ⟨s₁, h₁, hpushed⟩ := pushTrapEip_spec hesp hsaved hstack
  have hwords : ∀ x ∈ f.words, x.1 ≠ 48 →
      s₁.mem.load32 (f.u + BitVec.ofNat 32 x.1) = some x.2 := by
    intro x hx hne
    rw [hpushed.other _ (hstack.apart x hx)]
    · exact hsaved x hx
    · have hoff : x.1 + 4 ≤ 48 := by
        have h := words_offset hx
        omega
      exact UserMem.apart_words (k := 48) (.inr hoff) (by omega) (by omega) f.u
  obtain ⟨t, h₂, hresumed, hmem⟩ := restoreTrapState_spec hpushed.esp hwords hpushed.adjusted
    hpushed.eip (hpushed.flags.trans hflags.symm)
  refine ⟨t, (execAll_append h₁).trans h₂, hresumed, ?_, ?_⟩
  · rw [hmem, hpushed.frames]
  · intro b hb hb'
    rw [hmem, hpushed.other b hb hb']

/-! ### The exception stack -/

lemma onException_iff : OnException esp ↔ 4005556224 ≤ esp.toNat ∧ esp.toNat < 4005560320 := by
  unfold OnException
  have htop : uxstacktop.toNat = 4005560320 := by decide
  have hbase : (uxstacktop - 0x1000).toNat = 4005556224 := by decide
  rw [BitVec.lt_def, ge_iff_le, BitVec.le_def, htop, hbase]
  exact and_comm

/-- Where a frame for which there is room lies. -/
lemma utrapframeAt_room (hu : utrapframeAt esp = (u, len)) (hroom : uxstacktop - 0x1000 ≤ u) :
    4005556224 ≤ u.toNat ∧ u.toNat + 52 ≤ 4005560320 ∧
      (OnException esp → u.toNat + 56 = esp.toNat) := by
  have hbase : (uxstacktop - 0x1000).toNat = 4005556224 := by decide
  rw [BitVec.le_def, hbase] at hroom
  refine ⟨hroom, ?_⟩
  by_cases hesp : OnException esp
  · have hat : utrapframeAt esp = (esp - 4 - sizeofUTrapframe, sizeofUTrapframe + 4) := if_pos hesp
    have hu : esp - 4 - sizeofUTrapframe = u := (Prod.mk.inj (hat.symm.trans hu)).1
    have hsub : (esp - 4 - sizeofUTrapframe).toNat = esp.toNat - 56 := by
      have h := onException_iff.mp hesp
      have hsize : sizeofUTrapframe.toNat = 52 := by decide
      have hfour : (4 : Word).toNat = 4 := by decide
      rw [BitVec.toNat_sub, BitVec.toNat_sub, hsize, hfour]
      omega
    have h := onException_iff.mp hesp
    rw [hu] at hsub
    exact ⟨by omega, fun _ => by omega⟩
  · have hat : utrapframeAt esp = (uxstacktop - sizeofUTrapframe, sizeofUTrapframe) := if_neg hesp
    have hu : uxstacktop - sizeofUTrapframe = u := (Prod.mk.inj (hat.symm.trans hu)).1
    have htop : (uxstacktop - sizeofUTrapframe).toNat = 4005560268 := by decide
    rw [hu] at htop
    exact ⟨by omega, fun h => absurd h hesp⟩

lemma HasException.cell (hpage : HasException m) (h : 4005556224 ≤ a.toNat)
    (h' : a.toNat < 4005560320) : (m.cell a).isSome := by
  have hnum : a.toNat / 4096 = uxstacktop.toNat / 4096 - 1 := by
    have htop : uxstacktop.toNat = 4005560320 := by decide
    rw [htop]
    omega
  unfold UserMem.cell
  rw [Option.isSome_map, hnum]
  exact hpage

lemma HasException.mapped (hpage : HasException m) (h : 4005556224 ≤ a.toNat)
    (h' : a.toNat + 4 ≤ 4005560320) : m.Mapped a := by
  intro i hi
  have hadd := UserMem.toNat_add_ofNat a (i := i) (by omega)
  apply hpage.cell
  · omega
  · omega

lemma toNat_offset (hu : u.toNat + 52 ≤ 4005560320) (hk : k ≤ 4092) :
    (u + BitVec.ofNat 32 k).toNat = u.toNat + k := by
  rw [UserMem.toNat_add_ofNat u (by omega)]
  omega

/-! ### The push of the kernel -/

/-- A push for which there is room. -/
lemma push_spec (hpage : HasException w.machine.mem) (faultVa err oesp : Word)
    (hu : utrapframeAt (w.machine.regs .esp) = (u, len)) (hroom : uxstacktop - 0x1000 ≤ u) :
    ∃ m, w.machine.mem.storeWords u (utrapframeWords w.machine faultVa err oesp) = some m ∧
      m.frames = w.machine.mem.frames ∧ Saved m ⟨u, w.machine⟩ ∧
      ∀ b, (∀ k ≤ 48, w.machine.mem.Apart (u + BitVec.ofNat 32 k) b) →
        m.load32 b = w.machine.mem.load32 b := by
  obtain ⟨hbase, htop, -⟩ := utrapframeAt_room hu hroom
  have hoffsets : (utrapframeWords w.machine faultVa err oesp).map Prod.fst =
    [0, 4, 8, 12, 16, 20, 24, 28, 32, 36, 44, 40, 48] := rfl
  have hle : ∀ x ∈ utrapframeWords w.machine faultVa err oesp, x.1 ≤ 48 := by
    intro x hx
    have hmem := List.mem_map_of_mem (f := Prod.fst) hx
    rw [hoffsets] at hmem
    have hall : ∀ k ∈ [0, 4, 8, 12, 16, 20, 24, 28, 32, 36, 44, 40, 48], k ≤ 48 := by decide
    exact hall x.1 hmem
  obtain ⟨m, hm, hf, hl, ho⟩ := UserMem.storeWords_spec u
    (utrapframeWords w.machine faultVa err oesp) w.machine.mem
    (by
      intro x hx
      have hk := hle x hx
      have hword := toNat_offset htop (k := x.1) (by omega)
      apply hpage.mapped
      · omega
      · omega)
    (by
      have hpair : [0, 4, 8, 12, 16, 20, 24, 28, 32, 36, 44, 40, 48].Pairwise
        (fun j k => (j + 4 ≤ k ∨ k + 4 ≤ j) ∧ j ≤ 4092 ∧ k ≤ 4092) := by decide
      rw [← hoffsets, List.pairwise_map] at hpair
      exact hpair.imp (fun h => UserMem.apart_words h.1 h.2.1 h.2.2 u))
  refine ⟨m, hm, hf, ?_, fun b hb => ho b (fun x hx => hb x.1 (hle x hx))⟩
  intro x hx
  apply hl x
  simp only [LiveFrame.words, utrapframeWords, List.mem_cons, List.not_mem_nil, or_false] at hx ⊢
  tauto

/-- The trap frame of a program that faults. -/
structure Interrupted (s : Machine) (tf : Trapframe) : Prop where
  edi : tf.tfRegs.regEdi = s.regs .edi
  esi : tf.tfRegs.regEsi = s.regs .esi
  ebp : tf.tfRegs.regEbp = s.regs .ebp
  ebx : tf.tfRegs.regEbx = s.regs .ebx
  edx : tf.tfRegs.regEdx = s.regs .edx
  ecx : tf.tfRegs.regEcx = s.regs .ecx
  eax : tf.tfRegs.regEax = s.regs .eax
  eip : tf.tfEip = s.eip
  eflags : tf.tfEflags = s.eflags ||| flRf
  esp : tf.tfEsp = s.regs .esp

lemma storeUTrapframe_eq {tf : Trapframe} (h : Interrupted s tf) (d : ℕ) (u faultVa : Word) :
    storeUTrapframe d u faultVa tf =
      (utrapframeWords s faultVa tf.tfErr tf.tfRegs.regOesp).forM
        (fun x => Kern.store32 d (u + BitVec.ofNat 32 x.1) x.2) := by
  unfold storeUTrapframe utrapframeWords
  rw [← h.edi, ← h.esi, ← h.ebp, ← h.ebx, ← h.edx, ← h.ecx, ← h.eax, ← h.eip, ← h.eflags, ← h.esp]
  have hzero : u + BitVec.ofNat 32 0 = u := BitVec.add_zero u
  simp only [List.forM, hzero]
  have hlast : (do Kern.store32 d (u + BitVec.ofNat 32 48) tf.tfEsp; pure PUnit.unit : PmapM PUnit) =
    Kern.store32 d (u + BitVec.ofNat 32 48) tf.tfEsp := bind_pure_unit
  rw [hlast]
  rfl

/-- `page_fault_handler`, when its checks pass, takes the step of the world. -/
theorem pageFaultHandler_simulates {B : Boot} {k : Kernel} {cpu : Cpu} {c : EnvIdx}
    {fs : List LiveFrame} {faultVa : Word} (hE : EnvsIn none k) (hk : MemOk B k)
    (hc : (k.cpus cpu).cpuEnv = some c) (htf : Interrupted s (k.envs c).envTf)
    (hmem : s.mem = userMem k.pm.mem (k.cpus cpu).cr3) (hpage : HasException s.mem)
    (hup : (k.envs c).envPgfaultUpcall ≠ 0) (hu : utrapframeAt (s.regs .esp) = (u, len))
    (hroom : uxstacktop - 0x1000 ≤ u)
    (hframe : userMemCheck (k.envs c).envPgdir u len (pteW ||| pteP ||| pteU) k.pm = .ok none k.pm)
    (hcode : userMemCheck (k.envs c).envPgdir (k.envs c).envPgfaultUpcall 4 (pteP ||| pteU) k.pm =
      .ok none k.pm) :
    ∃ t w, pageFaultHandler cpu faultVa k = .error .leave t ∧
      WorldStep ⟨s, fs⟩ (.fault faultVa (k.envs c).envTf.tfErr (k.envs c).envTf.tfRegs.regOesp
        (k.envs c).envPgfaultUpcall) w ∧
      w.machine.mem = userMem t.pm.mem (t.cpus cpu).cr3 ∧
      (t.envs c).envTf = { (k.envs c).envTf with
        tfEip := w.machine.eip, tfEsp := w.machine.regs .esp } := by
  obtain ⟨m, hm, -⟩ := push_spec (w := ⟨s, fs⟩) hpage faultVa (k.envs c).envTf.tfErr
    (k.envs c).envTf.tfRegs.regOesp hu hroom
  have hcr3 : dirsOf k c = some (k.cpus cpu).cr3 := hE.cr3 cpu c hc
  have hpush := hm
  dsimp only at hpush
  rw [hmem] at hpush
  obtain ⟨pm, hpm, hok, huser⟩ := storeWords_simulates hcr3 u _ k.pm m hk hpush
  rw [← storeUTrapframe_eq htf] at hpm
  let k' := Kernel.setEnv { k with pm := pm } c { k.envs c with
    envTf := { (k.envs c).envTf with tfEip := (k.envs c).envPgfaultUpcall, tfEsp := u } }
  have hcheck : ∀ va n perm : Word,
      userMemCheck (k.envs c).envPgdir va n (perm ||| pteU) k.pm = .ok none k.pm →
      Sat (userMemAssert cpu c va n perm) k (fun _ t => t = k) (fun _ _ => False) := by
    intro va n perm hok
    unfold userMemAssert
    rw [sat_bind, sat_get, sat_bind, sat_liftPm, sat_of_ok hok]
    exact sat_pure.mpr rfl
  have hsat : Sat (pageFaultHandler cpu faultVa) k (fun _ _ => False)
      (fun ex t => ex = .leave ∧ t = k'.ran cpu c (k.cpus cpu).cr3) := by
    unfold pageFaultHandler
    simp only [sat_bind, sat_curenv hc, sat_get]
    rw [sat_ite, htf.esp, hu]
    refine ⟨fun _ => ?_, fun hnot => absurd hup hnot⟩
    rw [sat_bind]
    refine (hcheck u len (pteW ||| pteP) hframe).mono ?_ (fun _ _ h => h.elim)
    rintro - t rfl
    rw [sat_bind]
    refine (hcheck _ 4 pteP hcode).mono ?_ (fun _ _ h => h.elim)
    rintro - t rfl
    rw [sat_bind, sat_get, sat_bind, sat_liftPm, sat_of_ok hpm]
    unfold modifyEnv
    simp only [sat_bind, sat_modify]
    have hdir : (k'.envs c).envPgdir = some (t.cpus cpu).cr3 := by
      rw [Kernel.setEnv_envs_self]
      exact hcr3
    refine (envRun_rule k' cpu c).mono (fun _ _ h => h.elim) ?_
    rintro ex v (⟨rfl, d, hd, rfl⟩ | ⟨-, hnone⟩)
    · obtain rfl := Option.some_inj.mp (hdir.symm.trans hd)
      exact ⟨rfl, rfl⟩
    · rw [hdir] at hnone
      cases hnone
  have hleave : pageFaultHandler cpu faultVa k = .error .leave (k'.ran cpu c (k.cpus cpu).cr3) := by
    unfold Sat at hsat
    cases hres : pageFaultHandler cpu faultVa k with
    | ok r t =>
      rw [hres] at hsat
      exact hsat.elim
    | error ex t =>
      rw [hres] at hsat
      rw [hsat.1, hsat.2]
  refine ⟨_, _, hleave, .fault hu hroom hm, ?_, ?_⟩
  · change m = userMem pm.mem (Function.update k.cpus cpu ⟨some c, (k.cpus cpu).cr3⟩ cpu).cr3
    rw [Function.update_self, huser]
  · unfold Kernel.ran
    rw [preempted_eq]
    simp only [Function.update_self, k', Kernel.setEnv_envs_self]
    rfl

/-! ### Runs -/

/-- Where a frame lies. -/
structure Placed (f : LiveFrame) : Prop where
  base : 4005556224 ≤ f.u.toNat
  top : f.u.toNat + 52 ≤ 4005560320
  reserved : OnException (f.user.regs .esp) → f.u.toNat + 56 = (f.user.regs .esp).toNat

/-- The program runs on the exception stack below the frame `f`. -/
def Below (s : Machine) (f : LiveFrame) : Prop := OnException (s.regs .esp) ∧ s.regs .esp ≤ f.u

structure WorldOk (w : World) : Prop where
  page : HasException w.machine.mem
  saved : ∀ f ∈ w.frames, Saved w.machine.mem f
  flags : ∀ f ∈ w.frames, fixedFlags f.user.eflags = fixedFlags w.machine.eflags
  placed : ∀ f ∈ w.frames, Placed f
  /-- a frame was pushed by a handler that ran below the frames before it -/
  below : w.frames.Pairwise (fun f g => Below f.user g)
  top : ∀ f ∈ w.frames, Below w.machine f

lemma Below.trans (hs : Below s f) (hf : Placed f) (hg : Below f.user g) : Below s g := by
  refine ⟨hs.1, ?_⟩
  have hsf : (s.regs .esp).toNat ≤ f.u.toNat := hs.2
  have hfg : (f.user.regs .esp).toNat ≤ g.u.toNat := hg.2
  have hres := hf.reserved hg.1
  change (s.regs .esp).toNat ≤ g.u.toNat
  omega

/-- A handler that is below the innermost frame is below all of them. -/
lemma below_all (hplaced : ∀ f ∈ w.frames, Placed f)
    (hbelow : w.frames.Pairwise (fun f g => Below f.user g))
    (h : ∀ f ∈ w.frames.head?, Below s f) : ∀ f ∈ w.frames, Below s f := by
  cases hfs : w.frames with
  | nil => exact fun f hf => absurd hf List.not_mem_nil
  | cons f fs =>
    rw [hfs] at hplaced hbelow h
    have hf : Below s f := h f rfl
    intro g hg
    cases hg with
    | head => exact hf
    | tail _ hg =>
      exact hf.trans (hplaced f List.mem_cons_self) ((List.pairwise_cons.mp hbelow).1 g hg)

lemma WorldOk.start (h : WorldStarts w) : WorldOk w := by
  obtain ⟨hframes, hpage⟩ := h
  constructor
  · exact hpage
  all_goals rw [hframes]; simp

/-- The stack of a program that faulted on the exception stack is the reserved word. -/
lemma WorldOk.stackOk (hw : WorldOk w) (hf : f ∈ w.frames)
    (h : OnException (f.user.regs .esp) ∨ StackOk w.machine.mem f) :
    StackOk w.machine.mem f := by
  rcases h with hesp | h
  · have hplaced := hw.placed f hf
    have hres := hplaced.reserved hesp
    have hbase := hplaced.base
    have htop := onException_iff.mp hesp
    have hsub : (f.user.regs .esp - 4).toNat = f.u.toNat + 52 := by
      have hfour : (4 : Word).toNat = 4 := by decide
      rw [BitVec.toNat_sub, hfour]
      omega
    have hword : f.user.regs .esp - 4 = f.u + BitVec.ofNat 32 52 := by
      apply BitVec.eq_of_toNat_eq
      rw [hsub, toNat_offset hplaced.top (by omega)]
    constructor
    · apply hw.page.mapped
      · omega
      · omega
    · intro x hx
      rw [hword]
      have hoff : x.1 + 4 ≤ 52 := (words_offset hx).1
      exact UserMem.apart_words (.inr hoff) (by omega) (by omega) f.u
  · exact h

/-- A word of the exception stack below an older frame is apart from it. -/
lemma Placed.apart (hg : Placed g) {x : ℕ × Word} (hx : x ∈ g.words) (ha : 4005556224 ≤ a.toNat)
    (hlt : a.toNat + 4 ≤ g.u.toNat) : m.Apart a (g.u + BitVec.ofNat 32 x.1) := by
  have hoff := (words_offset hx).1
  have htop := hg.top
  have hword := toNat_offset hg.top (k := x.1) (by omega)
  apply UserMem.apart_of_lt
  · omega
  · omega

lemma WorldOk.user (hw : WorldOk w) (hflags : fixedFlags s.eflags = fixedFlags w.machine.eflags)
    (hpage : HasException s.mem) (hsaved : ∀ f ∈ w.frames, Saved s.mem f)
    (hstack : ∀ f ∈ w.frames.head?, Below s f) : WorldOk ⟨s, w.frames⟩ := by
  constructor
  · exact hpage
  · exact hsaved
  · exact fun f hf => (hw.flags f hf).trans hflags.symm
  · exact hw.placed
  · exact hw.below
  · exact below_all hw.placed hw.below hstack

lemma WorldOk.fault (hw : WorldOk w) {faultVa err oesp : Word} (upcall : Word)
    (hu : utrapframeAt (w.machine.regs .esp) = (u, len)) (hroom : uxstacktop - 0x1000 ≤ u)
    (hm : w.machine.mem.storeWords u (utrapframeWords w.machine faultVa err oesp) = some m) :
    WorldOk ⟨{ (w.machine.withMem m).set .esp u with
      eip := upcall, eflags := w.machine.eflags ||| flRf }, ⟨u, w.machine⟩ :: w.frames⟩ := by
  obtain ⟨m', hm', hf, hsaved, ho⟩ := push_spec hw.page faultVa err oesp hu hroom
  obtain rfl : m' = m := Option.some_inj.mp (hm'.symm.trans hm)
  obtain ⟨hbase, htop, hres⟩ := utrapframeAt_room hu hroom
  have hrf : fixedFlags (w.machine.eflags ||| flRf) = fixedFlags w.machine.eflags := by
    apply fixedFlags_rf
    rw [BitVec.and_or_distrib_right]
    have hzero : flRf &&& ~~~flRf = 0 := by decide
    rw [hzero]
    exact BitVec.or_zero
  have hplaced : ∀ f ∈ ⟨u, w.machine⟩ :: w.frames, Placed f := by
    intro f hf
    cases hf with
    | head => exact ⟨hbase, htop, hres⟩
    | tail _ hf => exact hw.placed f hf
  have hbelow : (⟨u, w.machine⟩ :: w.frames).Pairwise (fun f g => Below f.user g) :=
    List.pairwise_cons.mpr ⟨hw.top, hw.below⟩
  constructor
  · change (m'.frames _).isSome
    rw [hf]
    exact hw.page
  · intro f hf
    cases hf with
    | head => exact hsaved
    | tail _ hf =>
      -- the new frame ends at the stack of the handler, which is below the older ones
      intro x hx
      have hb := hw.top f hf
      have hle : (w.machine.regs .esp).toNat ≤ f.u.toNat := hb.2
      have hend := hres hb.1
      have hold : m'.load32 (f.u + BitVec.ofNat 32 x.1) =
          w.machine.mem.load32 (f.u + BitVec.ofNat 32 x.1) := by
        apply ho
        intro k hk
        have hword := toNat_offset htop (k := k) (by omega)
        apply (hw.placed f hf).apart hx
        · omega
        · omega
      exact hold.trans (hw.saved f hf x hx)
  · intro f hf
    cases hf with
    | head => exact hrf.symm
    | tail _ hf => exact (hw.flags f hf).trans hrf.symm
  · exact hplaced
  · exact hbelow
  · apply below_all hplaced hbelow
    intro f hf
    obtain rfl := Option.some_inj.mp hf
    refine ⟨onException_iff.mpr ?_, BitVec.le_refl u⟩
    change 4005556224 ≤ u.toNat ∧ u.toNat < 4005560320
    omega

lemma WorldOk.resume (hw : WorldOk w) (hf : w.frames = f :: fs)
    (hesp : w.machine.regs .esp = f.u - 4)
    (hstack : OnException (f.user.regs .esp) ∨ StackOk w.machine.mem f)
    (hm : execAll pgfaultUpcall w.machine = some t) : WorldOk ⟨t, fs⟩ := by
  have hmem : f ∈ w.frames := hf ▸ List.mem_cons_self
  have htail : ∀ g ∈ fs, g ∈ w.frames := fun g hg => hf ▸ List.mem_cons_of_mem f hg
  have hbelow := hw.below
  rw [hf, List.pairwise_cons] at hbelow
  obtain ⟨t', ht', hresumed, hframes, hother⟩ := pgfaultUpcall_spec hesp (hw.saved f hmem)
    (hw.stackOk hmem hstack) (hw.flags f hmem)
  obtain rfl : t' = t := Option.some_inj.mp (ht'.symm.trans hm)
  have hrf : fixedFlags t'.eflags = fixedFlags f.user.eflags := by
    rw [hresumed.eflags]
    apply fixedFlags_rf
    rw [BitVec.and_assoc, BitVec.and_self]
  constructor
  · change (t'.mem.frames _).isSome
    rw [hframes]
    exact hw.page
  · intro g hg x hx
    have hb := hbelow.1 g hg
    have hle : (f.user.regs .esp).toNat ≤ g.u.toNat := hb.2
    have hplaced := hw.placed f hmem
    have hend := hplaced.reserved hb.1
    have hbase := hplaced.base
    have hsub : (f.user.regs .esp - 4).toNat = f.u.toNat + 52 := by
      have hfour : (4 : Word).toNat = 4 := by decide
      have htop := onException_iff.mp hb.1
      rw [BitVec.toNat_sub, hfour]
      omega
    have hword : (f.u + 48).toNat = f.u.toNat + 48 := toNat_offset hplaced.top (k := 48) (by decide)
    have hold : t'.mem.load32 (g.u + BitVec.ofNat 32 x.1) =
        w.machine.mem.load32 (g.u + BitVec.ofNat 32 x.1) := by
      apply hother
      · apply (hw.placed g (htail g hg)).apart hx
        · omega
        · omega
      · apply (hw.placed g (htail g hg)).apart hx
        · omega
        · omega
    exact hold.trans (hw.saved g (htail g hg) x hx)
  · intro g hg
    rw [hrf, hw.flags f hmem]
    exact hw.flags g (htail g hg)
  · exact fun g hg => hw.placed g (htail g hg)
  · exact hbelow.2
  · intro g hg
    have hb := hbelow.1 g hg
    unfold Below at hb ⊢
    rw [hresumed.regs]
    exact hb

lemma WorldStep.keeps (hst : WorldStep w e w') (hw : WorldOk w) : WorldOk w' := by
  cases hst with
  | user hflags hpage hsaved hstack => exact hw.user hflags hpage hsaved hstack
  | fault hu hroom hm => exact hw.fault _ hu hroom hm
  | resume hf hesp hstack hm => exact hw.resume hf hesp hstack hm

lemma WorldOk.upcallOk (hw : WorldOk w) : UpcallOk w := by
  constructor
  · apply List.Pairwise.imp_of_mem _ hw.below
    intro f g hf _ hb
    have hle : (f.user.regs .esp).toNat ≤ g.u.toNat := hb.2
    rw [(hw.placed f hf).reserved hb.1]
    exact hle
  · exact fun f hf => (hw.placed f hf).reserved
  · intro faultVa err oesp u len hu hroom
    obtain ⟨m, hm, -⟩ := push_spec hw.page faultVa err oesp hu hroom
    rw [hm]
    rfl
  · intro f fs hf hesp hstack
    have hmem : f ∈ w.frames := hf ▸ List.mem_cons_self
    obtain ⟨t, ht, hresumed, -⟩ := pgfaultUpcall_spec hesp (hw.saved f hmem)
      (hw.stackOk hmem hstack) (hw.flags f hmem)
    exact ⟨t, ht, hresumed⟩

lemma worldOk_of_run {h : List (Move World WorldEvent)} (hr : Run WorldStarts WorldStep h w) :
    WorldOk w := by
  induction hr with
  | start hs => exact WorldOk.start hs
  | next _ hst ih => exact hst.keeps ih

/-- Frames never overlap, and every return resumes the program as it was. -/
theorem upcallOk_of_run {h : List (Move World WorldEvent)} (hr : Run WorldStarts WorldStep h w) :
    UpcallOk w := (worldOk_of_run hr).upcallOk

/-- A program at its entry with stack pointer `esp` and only an exception stack. -/
def startWorld (esp : Word) : World :=
  ⟨⟨fun r => if r = .esp then esp else 0, 0x800020, 0x202,
    ⟨fun page => if page = 977919 then some 0 else none, fun _ _ => 0⟩⟩, []⟩

lemma startWorld_starts (esp : Word) : WorldStarts (startWorld esp) := ⟨rfl, rfl⟩

/-- A fault, and the upcall at work on the word below the frame. -/
lemma run_fault {h : List (Move World WorldEvent)} (hr : Run WorldStarts WorldStep h w)
    (hu : utrapframeAt (w.machine.regs .esp) = (u, len)) (hroom : 4005556228 ≤ u.toNat)
    (hm : w.machine.mem.storeWords u (utrapframeWords w.machine 0 6 0) = some m) :
    ∃ h', Run WorldStarts WorldStep h' ⟨⟨fun r => if r = .esp then u - 4 else w.machine.regs r,
      0x800100, w.machine.eflags ||| flRf, m⟩, ⟨u, w.machine⟩ :: w.frames⟩ := by
  have hbase : (uxstacktop - 0x1000).toNat = 4005556224 := by decide
  have hle : uxstacktop - 0x1000 ≤ u := by
    rw [BitVec.le_def, hbase]
    omega
  have hfault : WorldStep w (.fault 0 6 0 0x800100) _ := .fault hu hle hm
  have hr' := hr.next hfault
  have hok := worldOk_of_run hr'
  have htop := (hok.placed ⟨u, w.machine⟩ List.mem_cons_self).top
  have hsub : (u - 4).toNat = u.toNat - 4 := by
    have hfour : (4 : Word).toNat = 4 := by decide
    rw [BitVec.toNat_sub, hfour]
    omega
  refine ⟨_, hr'.next (.user rfl hok.page hok.saved ?_)⟩
  intro g hg
  obtain rfl := Option.some_inj.mp hg
  refine ⟨onException_iff.mpr ?_, ?_⟩
  · change 4005556224 ≤ (u - 4).toNat ∧ (u - 4).toNat < 4005560320
    dsimp only at htop
    omega
  · change (u - 4).toNat ≤ u.toNat
    omega

/-- Two faults, the second in the handler of the first. -/
theorem upcallOk_nested : ∃ h w, Run WorldStarts WorldStep h w ∧ w.frames.length = 2 ∧
    UpcallOk w := by
  have hs : Run WorldStarts WorldStep [] (startWorld 0xeebfe000) := .start (startWorld_starts _)
  have hu : utrapframeAt 0xeebfe000 = (0xeebfffcc, 52) := by decide
  have hu₂ : utrapframeAt (0xeebfffcc - 4) = (0xeebfff90, 56) := by decide
  obtain ⟨m, hm, -⟩ := push_spec (worldOk_of_run hs).page 0 6 0 hu (by decide)
  obtain ⟨h₁, hr₁⟩ := run_fault hs hu (by decide) hm
  obtain ⟨m₂, hm₂, -⟩ := push_spec (worldOk_of_run hr₁).page 0 6 0 hu₂ (by decide)
  obtain ⟨h₂, hr₂⟩ := run_fault hr₁ hu₂ (by decide) hm₂
  exact ⟨h₂, _, hr₂, rfl, upcallOk_of_run hr₂⟩

/-- A program whose stack is empty at `UXSTACKTOP`: the pushed `eip` is in the frame. -/
theorem upcall_fails : ∃ h w f m, Run WorldStarts WorldStep h w ∧ w.frames = [f] ∧
    f.user.regs .esp = uxstacktop ∧ w.machine.regs .esp = f.u - 4 ∧
    w.machine.mem.Mapped (f.user.regs .esp - 4) ∧ execAll pgfaultUpcall w.machine = some m ∧
    m.eip ≠ f.user.eip := by
  let s := (startWorld uxstacktop).machine
  have hs : Run WorldStarts WorldStep [] (startWorld uxstacktop) := .start (startWorld_starts _)
  have hrun : ((s.mem.storeWords 0xeebfffcc (utrapframeWords s 0 6 0)).bind
      (fun m => execAll pgfaultUpcall ⟨fun r => if r = .esp then 0xeebfffc8 else s.regs r, 0x800100,
        s.eflags ||| flRf, m⟩)).map (·.eip) = some 0xeebffffc := by decide +kernel
  obtain ⟨t, ht, heip⟩ := Option.map_eq_some_iff.mp hrun
  obtain ⟨m, hm, hexec⟩ := Option.bind_eq_some_iff.mp ht
  obtain ⟨h, hr⟩ := run_fault hs rfl (by decide) hm
  refine ⟨h, _, _, t, hr, rfl, rfl, rfl, ?_, hexec, ?_⟩
  · exact (worldOk_of_run hr).page.mapped (by decide) (by decide)
  · rw [heip]
    decide

end SistemasOperativos.Lib
