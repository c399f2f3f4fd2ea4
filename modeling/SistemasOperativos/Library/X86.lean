import SistemasOperativos.Library.Bytes
import Mathlib.Tactic.IntervalCases

/-!
# A program on the processor

The memory of a program, through its pages, and the instructions of the i386 that move words
between registers and a stack. `none` is a fault.
-/

namespace SistemasOperativos.Library

/-- The pages that the program may read and write, and the bytes of the frames behind them. -/
structure UserMem where
  frames : ℕ → Option ℕ
  byte : ℕ → ℕ → BitVec 8

namespace UserMem

variable {m m' : UserMem} {a b : BitVec 32} {c : ℕ × ℕ} {w : BitVec 32} {x : BitVec 8}

/-- The frame and the offset of a byte. -/
def cell (m : UserMem) (a : BitVec 32) : Option (ℕ × ℕ) :=
  (m.frames (a.toNat / 4096)).map (·, a.toNat % 4096)

def set (m : UserMem) (c : ℕ × ℕ) (x : BitVec 8) : UserMem :=
  { m with byte := Function.update m.byte c.1 (Function.update (m.byte c.1) c.2 x) }

def load8 (m : UserMem) (a : BitVec 32) : Option (BitVec 8) :=
  (m.cell a).map (fun c => m.byte c.1 c.2)

def store8 (m : UserMem) (a : BitVec 32) (x : BitVec 8) : Option UserMem :=
  (m.cell a).map (m.set · x)

def load32 (m : UserMem) (a : BitVec 32) : Option (BitVec 32) := do
  let x0 ← m.load8 a
  let x1 ← m.load8 (a + 1#32)
  let x2 ← m.load8 (a + 2#32)
  let x3 ← m.load8 (a + 3#32)
  return x3 ++ x2 ++ x1 ++ x0

def store32 (m : UserMem) (a w : BitVec 32) : Option UserMem := do
  let m ← m.store8 a (w.setWidth 8)
  let m ← m.store8 (a + 1#32) ((w >>> 8).setWidth 8)
  let m ← m.store8 (a + 2#32) ((w >>> 16).setWidth 8)
  m.store8 (a + 3#32) ((w >>> 24).setWidth 8)

/-- The stores of words at offsets of `u`, in the order of the list. -/
def storeWords (m : UserMem) (u : BitVec 32) (words : List (ℕ × BitVec 32)) : Option UserMem :=
  words.foldlM (fun m x => m.store32 (u + BitVec.ofNat 32 x.1) x.2) m

/-- The word at `a` is in the memory. -/
def Mapped (m : UserMem) (a : BitVec 32) : Prop := ∀ i < 4, (m.cell (a + BitVec.ofNat 32 i)).isSome

/-- The words at `a` and `b` have no byte in common, in whatever way they are mapped. -/
def Apart (m : UserMem) (a b : BitVec 32) : Prop :=
  ∀ i < 4, ∀ j < 4, ∀ c, m.cell (a + BitVec.ofNat 32 i) = some c →
    m.cell (b + BitVec.ofNat 32 j) ≠ some c

@[simp] lemma set_cell (m : UserMem) (c : ℕ × ℕ) (x : BitVec 8) (a : BitVec 32) :
    (m.set c x).cell a = m.cell a := rfl

@[simp] lemma set_frames (m : UserMem) (c : ℕ × ℕ) (x : BitVec 8) : (m.set c x).frames = m.frames :=
  rfl

/-- What a byte is after one has been set. -/
lemma load8_set (m : UserMem) (c : ℕ × ℕ) (x : BitVec 8) (a : BitVec 32) :
    (m.set c x).load8 a = if m.cell a = some c then some x else m.load8 a := by
  unfold load8
  rw [set_cell]
  cases hcell : m.cell a with
  | none => simp
  | some d =>
    by_cases hd : d = c
    · subst hd
      simp [set]
    · have hbyte : (m.set c x).byte d.1 d.2 = m.byte d.1 d.2 := by
        unfold set
        by_cases hframe : d.1 = c.1
        · have hoff : d.2 ≠ c.2 := fun hoff => hd (Prod.ext hframe hoff)
          rw [hframe]
          simp [Function.update_of_ne hoff]
        · simp [Function.update_of_ne hframe]
      simp [hd, hbyte]

lemma load8_isSome : (m.load8 a).isSome = (m.cell a).isSome := Option.isSome_map

/-- The offset of a byte. -/
lemma cell_snd (h : m.cell a = some c) : c.2 = a.toNat % 4096 := by
  obtain ⟨f, -, rfl⟩ := Option.map_eq_some_iff.mp h
  rfl

lemma toNat_add_ofNat (a : BitVec 32) {i : ℕ} (hi : i < 2 ^ 32) :
    (a + BitVec.ofNat 32 i).toNat = (a.toNat + i) % 2 ^ 32 := by
  rw [BitVec.toNat_add, BitVec.toNat_ofNat, Nat.mod_eq_of_lt hi]

/-- The bytes of a word are distinct. -/
lemma cell_ne {i j : ℕ} (hi : i < 4) (hj : j < 4) (hij : i ≠ j)
    (h : m.cell (a + BitVec.ofNat 32 i) = some c) : m.cell (a + BitVec.ofNat 32 j) ≠ some c := by
  intro h'
  have hoff := (cell_snd h).symm.trans (cell_snd h')
  rw [toNat_add_ofNat a (by omega), toNat_add_ofNat a (by omega)] at hoff
  omega

/-- What a store of a word does to the loads. -/
lemma store32_spec (h : m.Mapped a) (w : BitVec 32) : ∃ m', m.store32 a w = some m' ∧
    m'.frames = m.frames ∧ m'.load32 a = some w ∧ ∀ b, m.Apart a b → m'.load32 b = m.load32 b := by
  have hcell : ∀ i < 4, ∃ c, m.cell (a + BitVec.ofNat 32 i) = some c :=
    fun i hi => Option.isSome_iff_exists.mp (h i hi)
  obtain ⟨c0, h0⟩ := hcell 0 (by decide)
  obtain ⟨c1, h1⟩ := hcell 1 (by decide)
  obtain ⟨c2, h2⟩ := hcell 2 (by decide)
  obtain ⟨c3, h3⟩ := hcell 3 (by decide)
  have hone : ∀ {i : ℕ} {b : BitVec 32} {c : ℕ × ℕ}, i < 4 → m.Apart a b →
      m.cell (a + BitVec.ofNat 32 i) = some c →
      ∀ j < 4, m.cell (b + BitVec.ofNat 32 j) ≠ some c := fun hi hb hc j hj => hb _ hi j hj _ hc
  have e0 : a + BitVec.ofNat 32 0 = a := BitVec.add_zero a
  have hne : ∀ {i j : ℕ} {c d : ℕ × ℕ}, i < 4 → j < 4 → i ≠ j →
      m.cell (a + BitVec.ofNat 32 i) = some c → m.cell (a + BitVec.ofNat 32 j) = some d → c ≠ d := by
    rintro i j c d hi hj hij hc hd rfl
    exact cell_ne hi hj hij hc hd
  have n01 := hne (by decide) (by decide) (by decide) h0 h1
  have n02 := hne (by decide) (by decide) (by decide) h0 h2
  have n03 := hne (by decide) (by decide) (by decide) h0 h3
  have n12 := hne (by decide) (by decide) (by decide) h1 h2
  have n13 := hne (by decide) (by decide) (by decide) h1 h3
  have n23 := hne (by decide) (by decide) (by decide) h2 h3
  refine ⟨(((m.set c0 (w.setWidth 8)).set c1 ((w >>> 8).setWidth 8)).set c2
    ((w >>> 16).setWidth 8)).set c3 ((w >>> 24).setWidth 8), ?_, rfl, ?_, ?_⟩
  · unfold store32 store8
    rw [e0] at h0
    simp [h0, h1, h2, h3]
  · unfold load32
    rw [e0] at h0
    simp only [load8_set, set_cell, h0, h1, h2, h3]
    simp [n01, n02, n03, n12, n13, n23, bytes_append]
  · intro b hb
    have hb0 := hone (by decide) hb h0
    have hb1 := hone (by decide) hb h1
    have hb2 := hone (by decide) hb h2
    have hb3 := hone (by decide) hb h3
    have hsame : ∀ j < 4, ((((m.set c0 (w.setWidth 8)).set c1 ((w >>> 8).setWidth 8)).set c2
        ((w >>> 16).setWidth 8)).set c3 ((w >>> 24).setWidth 8)).load8 (b + BitVec.ofNat 32 j) =
        m.load8 (b + BitVec.ofNat 32 j) := by
      intro j hj
      simp only [load8_set, set_cell]
      rw [if_neg (hb3 j hj), if_neg (hb2 j hj), if_neg (hb1 j hj), if_neg (hb0 j hj)]
    have s0 := hsame 0 (by decide)
    have s1 : _ = m.load8 (b + 1#32) := hsame 1 (by decide)
    have s2 : _ = m.load8 (b + 2#32) := hsame 2 (by decide)
    have s3 : _ = m.load8 (b + 3#32) := hsame 3 (by decide)
    rw [show b + BitVec.ofNat 32 0 = b from BitVec.add_zero b] at s0
    unfold load32
    rw [← s0, ← s1, ← s2, ← s3]

lemma mapped_of_load32 (h : m.load32 a = some w) : m.Mapped a := by
  unfold load32 at h
  simp only [bind, Option.bind_eq_some_iff] at h
  obtain ⟨x0, h0, x1, h1, x2, h2, x3, h3, -⟩ := h
  have hsome : ∀ {b : BitVec 32} {x : BitVec 8}, m.load8 b = some x → (m.cell b).isSome := by
    intro b x hx
    rw [← load8_isSome, hx]
    rfl
  intro i hi
  interval_cases i
  · rw [show a + BitVec.ofNat 32 0 = a from BitVec.add_zero a]
    exact hsome h0
  · exact hsome h1
  · exact hsome h2
  · exact hsome h3

lemma Apart.congr (h : m.Apart a b) (hf : m'.frames = m.frames) : m'.Apart a b := by
  have hcell : ∀ a, m'.cell a = m.cell a := by
    intro a
    unfold cell
    rw [hf]
  intro i hi j hj c hc
  rw [hcell] at hc ⊢
  exact h i hi j hj c hc

lemma Mapped.congr (h : m.Mapped a) (hf : m'.frames = m.frames) : m'.Mapped a := by
  intro i hi
  have hcell : m'.cell (a + BitVec.ofNat 32 i) = m.cell (a + BitVec.ofNat 32 i) := by
    unfold cell
    rw [hf]
  rw [hcell]
  exact h i hi

lemma Apart.symm (h : m.Apart a b) : m.Apart b a :=
  fun i hi j hj c hc hc' => h j hj i hi c hc' hc

/-- Words at a distance of 4 to 4092 bytes in a page have no byte in common. -/
lemma apart_of_distance (h : 4 ≤ (a - b).toNat % 4096) (h' : (a - b).toNat % 4096 ≤ 4092) :
    m.Apart a b := by
  intro i hi j hj c hc hc'
  have hoff := (cell_snd hc).symm.trans (cell_snd hc')
  rw [toNat_add_ofNat a (by omega), toNat_add_ofNat b (by omega)] at hoff
  rw [BitVec.toNat_sub] at h h'
  have ha := a.isLt
  have hb := b.isLt
  omega

/-- The same for words in order. -/
lemma apart_of_lt (h : a.toNat + 4 ≤ b.toNat) (h' : b.toNat ≤ a.toNat + 4092) : m.Apart a b := by
  have ha := a.isLt
  have hb := b.isLt
  have hsub : (a - b).toNat = 2 ^ 32 - b.toNat + a.toNat := by
    rw [BitVec.toNat_sub]
    omega
  apply apart_of_distance
  · rw [hsub]
    omega
  · rw [hsub]
    omega

/-- The words of a structure have no byte in common. -/
lemma apart_words {k j : ℕ} (h : k + 4 ≤ j ∨ j + 4 ≤ k) (hk : k ≤ 4092) (hj : j ≤ 4092)
    (u : BitVec 32) : m.Apart (u + BitVec.ofNat 32 k) (u + BitVec.ofNat 32 j) := by
  have hsub : (u + BitVec.ofNat 32 k - (u + BitVec.ofNat 32 j)).toNat =
      (2 ^ 32 - j + k) % 2 ^ 32 := by
    rw [BitVec.toNat_sub, toNat_add_ofNat u (by omega), toNat_add_ofNat u (by omega)]
    have hu := u.isLt
    omega
  apply apart_of_distance
  · rw [hsub]
    omega
  · rw [hsub]
    omega

/-- What the stores of words that have no byte in common do to the loads. -/
lemma storeWords_spec (u : BitVec 32) (words : List (ℕ × BitVec 32)) (m : UserMem)
    (hmap : ∀ x ∈ words, m.Mapped (u + BitVec.ofNat 32 x.1))
    (hapart : words.Pairwise (fun x y => m.Apart (u + BitVec.ofNat 32 x.1)
      (u + BitVec.ofNat 32 y.1))) :
    ∃ m', m.storeWords u words = some m' ∧ m'.frames = m.frames ∧
      (∀ x ∈ words, m'.load32 (u + BitVec.ofNat 32 x.1) = some x.2) ∧
      ∀ b, (∀ x ∈ words, m.Apart (u + BitVec.ofNat 32 x.1) b) → m'.load32 b = m.load32 b := by
  induction words generalizing m with
  | nil => exact ⟨m, rfl, rfl, fun x hx => absurd hx List.not_mem_nil, fun b _ => rfl⟩
  | cons y ys ih =>
    obtain ⟨hy, hys⟩ := List.pairwise_cons.mp hapart
    obtain ⟨m₁, h₁, hf₁, hl₁, ho₁⟩ := store32_spec (hmap y List.mem_cons_self) y.2
    have hmap₁ : ∀ x ∈ ys, m₁.Mapped (u + BitVec.ofNat 32 x.1) :=
      fun x hx => (hmap x (List.mem_cons_of_mem _ hx)).congr hf₁
    have hapart₁ : ys.Pairwise (fun x y => m₁.Apart (u + BitVec.ofNat 32 x.1)
        (u + BitVec.ofNat 32 y.1)) := hys.imp (fun h => h.congr hf₁)
    obtain ⟨m₂, h₂, hf₂, hl₂, ho₂⟩ := ih m₁ hmap₁ hapart₁
    refine ⟨m₂, ?_, hf₂.trans hf₁, ?_, ?_⟩
    · unfold storeWords at h₂ ⊢
      rw [List.foldlM_cons, h₁]
      exact h₂
    · intro x hx
      cases hx with
      | head => exact (ho₂ _ (fun z hz => (hy z hz).symm.congr hf₁)).trans hl₁
      | tail _ hx => exact hl₂ x hx
    · intro b hb
      have hrest : ∀ x ∈ ys, m₁.Apart (u + BitVec.ofNat 32 x.1) b :=
        fun x hx => (hb x (List.mem_cons_of_mem _ hx)).congr hf₁
      exact (ho₂ b hrest).trans (ho₁ b (hb y List.mem_cons_self))

end UserMem

/-! ### Instructions -/

inductive Reg
  | eax | ecx | edx | ebx | esp | ebp | esi | edi
  deriving DecidableEq

/-- The instructions, with the operands in the order of the assembler: `add imm dst`. -/
inductive Instr
  | mov (src dst : Reg)
  | load (off : BitVec 32) (base dst : Reg)
  | store (src : Reg) (off : BitVec 32) (base : Reg)
  | push (src : Reg)
  | pop (dst : Reg)
  | add (imm : BitVec 32) (dst : Reg)
  | popa
  | popf
  | ret

/-- A program between two instructions; `eip` is where it continues after the instructions that
are being looked at. -/
structure Machine where
  regs : Reg → BitVec 32
  eip : BitVec 32
  eflags : BitVec 32
  mem : UserMem

def flIopl : BitVec 32 := 0x3000
def flInt : BitVec 32 := 0x200
/-- The resume flag, which the processor sets in the flags it saves at a fault. -/
def flRf : BitVec 32 := 0x10000
def flArith : BitVec 32 := 0x8d5

/-- The flags that `popf` changes in user mode. -/
def popfMask (eflags : BitVec 32) : BitVec 32 :=
  0x244dd5 ||| if eflags &&& flIopl = flIopl then flInt else 0

/-- `popf` of `w` in user mode; it clears the resume flag. -/
def popfFlags (eflags w : BitVec 32) : BitVec 32 :=
  (eflags &&& ~~~(popfMask eflags ||| flRf)) ||| (w &&& popfMask eflags)

/-- The number of bits that are set in the low byte is even. -/
def evenParity (w : BitVec 32) : Bool :=
  ((List.range 8).countP (fun i => w.getLsbD i)) % 2 = 0

/-- The flags after an addition. -/
def addFlags (eflags a b : BitVec 32) : BitVec 32 :=
  let bit (c : Bool) (i : ℕ) : BitVec 32 := if c then BitVec.twoPow 32 i else 0
  (eflags &&& ~~~flArith) ||| bit (2 ^ 32 ≤ a.toNat + b.toNat) 0 ||| bit (evenParity (a + b)) 2 |||
    bit (16 ≤ a.toNat % 16 + b.toNat % 16) 4 ||| bit (a + b = 0) 6 ||| bit (a + b).msb 7 |||
    bit (a.msb = b.msb ∧ (a + b).msb ≠ a.msb) 11

namespace Machine

def set (s : Machine) (r : Reg) (w : BitVec 32) : Machine :=
  { s with regs := Function.update s.regs r w }

def withMem (s : Machine) (m : UserMem) : Machine := { s with mem := m }

@[simp] lemma set_mem (s : Machine) (r : Reg) (w : BitVec 32) : (s.set r w).mem = s.mem := rfl
@[simp] lemma set_eip (s : Machine) (r : Reg) (w : BitVec 32) : (s.set r w).eip = s.eip := rfl
@[simp] lemma set_eflags (s : Machine) (r : Reg) (w : BitVec 32) : (s.set r w).eflags = s.eflags :=
  rfl
@[simp] lemma withMem_mem (s : Machine) (m : UserMem) : (s.withMem m).mem = m := rfl
@[simp] lemma withMem_regs (s : Machine) (m : UserMem) : (s.withMem m).regs = s.regs := rfl
@[simp] lemma withMem_eip (s : Machine) (m : UserMem) : (s.withMem m).eip = s.eip := rfl
@[simp] lemma withMem_eflags (s : Machine) (m : UserMem) : (s.withMem m).eflags = s.eflags := rfl

@[simp] lemma set_regs (s : Machine) (r r' : Reg) (w : BitVec 32) :
    (s.set r w).regs r' = if r' = r then w else s.regs r' := Function.update_apply s.regs r w r'

end Machine

def exec (s : Machine) : Instr → Option Machine
  | .mov src dst => some (s.set dst (s.regs src))
  | .load off base dst => (s.mem.load32 (s.regs base + off)).map (s.set dst)
  | .store src off base => (s.mem.store32 (s.regs base + off) (s.regs src)).map s.withMem
  | .push src => (s.mem.store32 (s.regs .esp - 4) (s.regs src)).map
      (fun m => (s.withMem m).set .esp (s.regs .esp - 4))
  | .pop dst => (s.mem.load32 (s.regs .esp)).map
      (fun w => (s.set .esp (s.regs .esp + 4)).set dst w)
  | .add imm dst => some { s.set dst (s.regs dst + imm) with
      eflags := addFlags s.eflags (s.regs dst) imm }
  | .popa => do
    let esp := s.regs .esp
    let edi ← s.mem.load32 esp
    let esi ← s.mem.load32 (esp + 4)
    let ebp ← s.mem.load32 (esp + 8)
    let ebx ← s.mem.load32 (esp + 16)
    let edx ← s.mem.load32 (esp + 20)
    let ecx ← s.mem.load32 (esp + 24)
    let eax ← s.mem.load32 (esp + 28)
    return (((((((s.set .edi edi).set .esi esi).set .ebp ebp).set .ebx ebx).set .edx edx).set
      .ecx ecx).set .eax eax).set .esp (esp + 32)
  | .popf => (s.mem.load32 (s.regs .esp)).map
      (fun w => { s.set .esp (s.regs .esp + 4) with eflags := popfFlags s.eflags w })
  | .ret => (s.mem.load32 (s.regs .esp)).map
      (fun w => { s.set .esp (s.regs .esp + 4) with eip := w })

/-! ### One rule for each instruction -/

section rules

variable {s : Machine} {m : UserMem} {w e off imm : BitVec 32} {src dst base : Reg}

lemma exec_load (h : s.mem.load32 (s.regs base + off) = some w) :
    exec s (.load off base dst) = some (s.set dst w) := congrArg (Option.map (s.set dst)) h

lemma exec_store (h : s.mem.store32 (s.regs base + off) (s.regs src) = some m) :
    exec s (.store src off base) = some (s.withMem m) := congrArg (Option.map s.withMem) h

lemma exec_push (h : s.mem.store32 (s.regs .esp - 4) (s.regs src) = some m) :
    exec s (.push src) = some ((s.withMem m).set .esp (s.regs .esp - 4)) :=
  congrArg (Option.map (fun m => (s.withMem m).set .esp (s.regs .esp - 4))) h

lemma exec_pop (h : s.mem.load32 (s.regs .esp) = some w) (hesp : s.regs .esp + 4 = e) :
    exec s (.pop dst) = some ((s.set .esp e).set dst w) := by
  subst hesp
  exact congrArg (Option.map (fun w => (s.set .esp (s.regs .esp + 4)).set dst w)) h

lemma exec_add (h : s.regs dst + imm = w) : exec s (.add imm dst) =
    some { s.set dst w with eflags := addFlags s.eflags (s.regs dst) imm } := by
  subst h
  rfl

lemma exec_popf (h : s.mem.load32 (s.regs .esp) = some w) (hesp : s.regs .esp + 4 = e) :
    exec s .popf = some { s.set .esp e with eflags := popfFlags s.eflags w } := by
  subst hesp
  unfold exec
  rw [h]
  rfl

lemma exec_ret (h : s.mem.load32 (s.regs .esp) = some w) (hesp : s.regs .esp + 4 = e) :
    exec s .ret = some { s.set .esp e with eip := w } := by
  subst hesp
  unfold exec
  rw [h]
  rfl

/-- `popa` of a block that holds the registers of `r`. -/
lemma exec_popa {r : Reg → BitVec 32} (hedi : s.mem.load32 (s.regs .esp) = some (r .edi))
    (hesi : s.mem.load32 (s.regs .esp + 4) = some (r .esi))
    (hebp : s.mem.load32 (s.regs .esp + 8) = some (r .ebp))
    (hebx : s.mem.load32 (s.regs .esp + 16) = some (r .ebx))
    (hedx : s.mem.load32 (s.regs .esp + 20) = some (r .edx))
    (hecx : s.mem.load32 (s.regs .esp + 24) = some (r .ecx))
    (heax : s.mem.load32 (s.regs .esp + 28) = some (r .eax)) (hesp : s.regs .esp + 32 = e) :
    exec s .popa = some { s with regs := Function.update r .esp e } := by
  subst hesp
  unfold exec
  simp only [hedi, hesi, hebp, hebx, hedx, hecx, heax]
  change some _ = some _
  congr 1
  unfold Machine.set
  congr 1
  funext q
  cases q <;> rfl

end rules

/-- A sequence of instructions, without jumps. -/
def execAll (is : List Instr) (s : Machine) : Option Machine := is.foldlM exec s

lemma execAll_cons {i : Instr} {is : List Instr} {s t : Machine} (h : exec s i = some t) :
    execAll (i :: is) s = execAll is t := by
  unfold execAll
  rw [List.foldlM_cons, h]
  rfl

lemma execAll_append {is js : List Instr} {s t : Machine} (h : execAll is s = some t) :
    execAll (is ++ js) s = execAll js t := by
  unfold execAll at h ⊢
  rw [List.foldlM_append, h]
  rfl

/-! ### Flags -/

/-- The flags that no instruction in user mode changes, but for the resume flag. -/
def fixedFlags (eflags : BitVec 32) : BitVec 32 := eflags &&& ~~~(popfMask eflags ||| flRf)

lemma and_or_flags (f c r : BitVec 32) (h : c &&& r = 0) :
    (f &&& ~~~(c ||| r)) ||| ((f ||| r) &&& c) = f &&& ~~~r := by
  apply BitVec.eq_of_getLsbD_eq
  intro i hi
  have hbit : (c &&& r).getLsbD i = false := by
    rw [h]
    exact BitVec.getLsbD_zero
  rw [BitVec.getLsbD_and] at hbit
  simp only [BitVec.getLsbD_or, BitVec.getLsbD_and, BitVec.getLsbD_not, hi, decide_true,
    Bool.true_and]
  cases hc : c.getLsbD i <;> cases hr : r.getLsbD i <;> simp_all

lemma popfMask_congr {f g : BitVec 32} (h : fixedFlags f = fixedFlags g) :
    popfMask f = popfMask g := by
  have hiopl : ∀ f, fixedFlags f &&& flIopl = f &&& flIopl := by
    intro f
    unfold fixedFlags popfMask
    rw [BitVec.and_assoc]
    congr 1
    split <;> decide
  unfold popfMask
  rw [← hiopl f, h, hiopl g]

/-- An addition changes only the arithmetic flags. -/
lemma addFlags_and {e a b r : BitVec 32} (h : flArith &&& r = 0) : addFlags e a b &&& r = e &&& r := by
  have hbit : ∀ (c : Bool) (i : ℕ), flArith &&& BitVec.twoPow 32 i = BitVec.twoPow 32 i →
      (if c then BitVec.twoPow 32 i else 0) &&& r = 0 := by
    intro c i hi
    cases c with
    | false => simp
    | true =>
      rw [if_pos rfl, ← hi, BitVec.and_comm flArith, BitVec.and_assoc, h]
      exact BitVec.and_zero
  have hrest : ~~~flArith &&& r = r := by
    apply BitVec.eq_of_getLsbD_eq
    intro i hi
    have hi' : (flArith &&& r).getLsbD i = false := by
      rw [h]
      exact BitVec.getLsbD_zero
    rw [BitVec.getLsbD_and] at hi'
    rw [BitVec.getLsbD_and, BitVec.getLsbD_not]
    cases hbitA : flArith.getLsbD i with
    | false => simp [hi]
    | true =>
      rw [hbitA, Bool.true_and] at hi'
      simp [hi']
  unfold addFlags
  simp only [BitVec.and_or_distrib_right]
  rw [hbit _ 0 (by decide), hbit _ 2 (by decide), hbit _ 4 (by decide), hbit _ 6 (by decide),
    hbit _ 7 (by decide), hbit _ 11 (by decide), BitVec.and_assoc, hrest]
  have hzero : ∀ x : BitVec 32, x ||| 0 = x := fun x => BitVec.or_zero
  simp only [hzero]

lemma addFlags_fixed (e a b : BitVec 32) : fixedFlags (addFlags e a b) = fixedFlags e := by
  have hmask : popfMask (addFlags e a b) = popfMask e := by
    unfold popfMask
    rw [addFlags_and (by decide)]
  unfold fixedFlags
  rw [hmask]
  apply addFlags_and
  unfold popfMask
  split <;> decide

/-- The resume flag is not a fixed flag. -/
lemma fixedFlags_rf {f g : BitVec 32} (h : f &&& ~~~flRf = g &&& ~~~flRf) :
    fixedFlags f = fixedFlags g := by
  have hout : ∀ r, ~~~flRf &&& r = r → f &&& r = g &&& r := by
    intro r hr
    rw [← hr, ← BitVec.and_assoc, ← BitVec.and_assoc, h]
  have hmask : popfMask f = popfMask g := by
    unfold popfMask
    rw [hout flIopl (by decide)]
  unfold fixedFlags
  rw [hmask]
  apply hout
  unfold popfMask
  split <;> decide

/-- `popf` brings back the flags of a fault, if the others have not changed. -/
lemma popfFlags_saved {f g : BitVec 32} (h : fixedFlags f = fixedFlags g) :
    popfFlags f (g ||| flRf) = g &&& ~~~flRf := by
  unfold popfFlags
  have hfixed : f &&& ~~~(popfMask f ||| flRf) = g &&& ~~~(popfMask g ||| flRf) := h
  rw [hfixed, popfMask_congr h]
  apply and_or_flags
  unfold popfMask
  split <;> decide

end SistemasOperativos.Library
