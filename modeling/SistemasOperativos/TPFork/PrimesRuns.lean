import Mathlib.Algebra.BigOperators.Group.List.Basic
import Mathlib.Algebra.Order.Group.Multiset
import Mathlib.Tactic.Abel
import SistemasOperativos.TPFork.PrimesChain

/-!
# The runs of `primes`

What every process is still going to write is a function of what it is still going to read, so
that what the chain prints does not depend on the order of the steps. A bound on the steps that are
left goes down with every step.
-/

namespace SistemasOperativos.TPFork

open Library

/-- What a process without a number makes of its input. -/
def sieved : List ℕ → List ℕ
  | [] => []
  | primo :: input => coprimeTo primo input

/-- What a process is still going to write to its pipe. -/
def through (max : ℕ) (pc : Pc) (input : List ℕ) : List ℕ :=
  match pc with
  | .pipeInicial | .forkActual | .cierraLectura => List.range' 2 (max - 1)
  | .escribe i => List.range' i (max + 1 - i)
  | .soyHijo | .leePrimo | .hijoCierraEscritura | .hijoCierraLectura => sieved input
  | .printfPrimo primo | .pipeNuevo primo | .forkNuevo primo | .cierraNuevaLectura primo
  | .leeNum primo => coprimeTo primo input
  | .escribeNum primo num => num :: coprimeTo primo input
  | _ => []

/-- What the child of a process is still going to read, if it reads nothing else. -/
def out (max : ℕ) (n : Node) (input : List ℕ) : List ℕ := n.queue ++ through max n.pc input

/-- What a process is still going to print. -/
def own (pc : Pc) (input : List ℕ) : Multiset ℕ :=
  match pc with
  | .soyHijo | .leePrimo | .hijoCierraEscritura | .hijoCierraLectura =>
    match input with
    | [] => 0
    | primo :: _ => {primo}
  | .printfPrimo primo => {primo}
  | _ => 0

/-- The steps of a process that is going to read `m` numbers and of those that come after it. -/
def leeWork : ℕ → ℕ
  | 0 => 3
  | m + 1 => leeWork m + 2 * m + 13

/-- A bound on the steps that a process is still going to take, with those of the child that it
still makes. -/
def work (max : ℕ) (pc : Pc) (input : List ℕ) : ℕ :=
  match pc with
  | .pipeInicial => max + leeWork (max - 1) + 8
  | .forkActual => max + leeWork (max - 1) + 7
  | .cierraLectura => max + 5
  | .escribe i => max + 1 - i + 4
  | .soyHijo | .hijoCierraLectura => leeWork input.length + 1
  | .hijoCierraEscritura => leeWork input.length + 2
  | .leePrimo => leeWork input.length
  | .printfPrimo _ => 2 * input.length + leeWork input.length + 11
  | .pipeNuevo _ => 2 * input.length + leeWork input.length + 10
  | .forkNuevo _ => 2 * input.length + leeWork input.length + 9
  | .cierraNuevaLectura _ => 2 * input.length + 6
  | .leeNum _ => 2 * input.length + 5
  | .escribeNum _ _ => 2 * input.length + 6
  | .cierraLecturaFinal => 4
  | .cierraEscritura => 3
  | .espera | .cierraVacio => 2
  | .sale => 1
  | .desborda | .fin => 0

variable {b : Buffering} {c : Config} {max k i : ℕ} {n n' w m : Node} {s t : Estado}
  {written input : List ℕ} {h : List (Move Estado ℕ)} {num : ℕ} {pc padre hijo : Pc}
  {next : Option ℕ → Pc}

lemma leeWork_mono : Monotone leeWork := by
  apply monotone_nat_of_le_succ
  intro m
  change leeWork m ≤ leeWork m + 2 * m + 13
  omega

/-! ### What a step does to the streams -/

lemma act_streams (ha : act b max k n = some (written, n')) (input : List ℕ) :
    out max n' input = out max n input ∧ work max n'.pc input < work max n.pc input := by
  obtain ⟨pc, ends, queue, buf⟩ := n
  cases pc <;> simp [TPFork.act] at ha
  case escribe i =>
    obtain ⟨hi, -, rfl⟩ := ha
    have hzero : max + 1 - i = 0 := by omega
    simp [out, through, work, hzero]
  case cierraLectura =>
    obtain ⟨-, rfl⟩ := ha
    have hsub : max + 1 - 2 = max - 1 := by omega
    refine ⟨?_, ?_⟩
    · simp only [out, through, Node.close, hsub]
    · simp only [work, Node.close]
      omega
  all_goals obtain ⟨-, rfl⟩ := ha; simp [out, through, work, Node.pipe, Node.close]

lemma writes_streams (hw : writes max pc = some (num, padre)) (hmax : max ≤ intMax)
    (input : List ℕ) : through max pc input = num :: through max padre input ∧
      work max padre input < work max pc input ∧ own padre input = own pc input := by
  cases pc <;> simp [writes] at hw
  case escribe i =>
    obtain ⟨hi, rfl, rfl⟩ := hw
    have hsucc : max + 1 - i = max - i + 1 := by omega
    by_cases hlast : i = intMax
    · have hzero : max - i = 0 := by omega
      rw [if_pos hlast]
      refine ⟨?_, ?_, rfl⟩
      · simp only [through, hsucc, hzero]
        rfl
      · simp only [work]
        omega
    · rw [if_neg hlast]
      refine ⟨?_, ?_, rfl⟩
      · have hnext : max + 1 - (i + 1) = max - i := by omega
        simp only [through, hsucc, hnext, List.range'_succ]
      · simp only [work]
        omega
  case escribeNum primo num' =>
    obtain ⟨rfl, rfl⟩ := hw
    simp [through, work, own]

lemma reads_streams (max : ℕ) (hr : reads pc = some next) (num : ℕ) (input : List ℕ) :
    through max pc (num :: input) = through max (next (some num)) input ∧
      work max (next (some num)) input < work max pc (num :: input) ∧
      own (next (some num)) input = own pc (num :: input) := by
  cases pc <;> simp [reads] at hr
  case leePrimo =>
    obtain rfl := hr
    refine ⟨rfl, ?_, rfl⟩
    simp only [work, List.length_cons, leeWork]
    omega
  case leeNum primo =>
    obtain rfl := hr
    dsimp only
    by_cases hnum : num % primo = 0
    · rw [if_pos hnum]
      refine ⟨by simp [through, coprimeTo, hnum], ?_, rfl⟩
      simp only [work, List.length_cons]
      omega
    · rw [if_neg hnum]
      refine ⟨by simp [through, coprimeTo, hnum], ?_, rfl⟩
      simp only [work, List.length_cons]
      omega

lemma reads_streams_end (max : ℕ) (hr : reads pc = some next) :
    through max pc [] = through max (next none) [] ∧
      work max (next none) [] < work max pc [] ∧ own (next none) [] = own pc [] := by
  cases pc <;> simp [reads] at hr
  case leePrimo => obtain rfl := hr; simp [through, sieved, work, leeWork, own]
  case leeNum primo => obtain rfl := hr; simp [through, coprimeTo, work, own]

lemma forks_streams (max : ℕ) (hf : forks pc = some (padre, hijo)) (input : List ℕ) :
    through max padre input = through max pc input ∧
      work max padre input + work max hijo (through max padre input) < work max pc input ∧
      own pc input = 0 ∧ own padre input = 0 ∧
      own hijo (through max padre input) +
        ↑(sieve (through max hijo (through max padre input))) =
          (↑(sieve (through max padre input)) : Multiset ℕ) := by
  have hsieve : ∀ l : List ℕ, own .soyHijo l + ↑(sieve (sieved l)) = (↑(sieve l) : Multiset ℕ) := by
    intro l
    cases l with
    | nil => simp [own, sieved]
    | cons primo l => simp [own, sieved]
  cases pc <;> simp [forks] at hf
  case forkActual =>
    obtain ⟨rfl, rfl⟩ := hf
    refine ⟨rfl, ?_, rfl, rfl, hsieve _⟩
    simp only [work, through, List.length_range']
    omega
  case forkNuevo primo =>
    obtain ⟨rfl, rfl⟩ := hf
    refine ⟨rfl, ?_, rfl, rfl, hsieve _⟩
    have hmono := leeWork_mono (length_coprimeTo primo input)
    simp only [work, through]
    omega

lemma through_closed (h : pc.closed = true) (input : List ℕ) : through max pc input = [] := by
  cases pc <;> simp at h <;> rfl

/-- The end of the input is read when nothing more is going to come. -/
lemma out_closed (h : w.pc.closed = true) (hq : w.queue = []) (input : List ℕ) :
    out max w input = [] := by
  unfold out
  rw [hq, through_closed h, List.nil_append]

/-! ### Every run ends -/

/-- The bound on the steps that are left. -/
def remaining (max : ℕ) (s : Estado) : ℕ :=
  total (out max) (fun n input => work max n.pc input) s.nodes []

lemma Step.remaining_lt (hst : Step c max s i t) (ho : Ordered s) (hmax : max ≤ intMax) :
    remaining max t < remaining max s := by
  obtain ⟨-, hplaced, hchained⟩ := ho
  unfold remaining
  cases hst with
  | @act pre post n n' output written ha =>
    obtain ⟨hout, hwork⟩ := act_streams ha (flow (out max) pre [])
    simp only [total_append, total_cons, hout]
    omega
  | @write pre post n output num pc hw hopen hroom hreader =>
    obtain ⟨hthrough, hwork, -⟩ := writes_streams hw hmax (flow (out max) pre [])
    simp only [total_append, total_cons, out, hthrough, List.append_assoc, List.singleton_append]
    omega
  | @read pre post w n output q num next hr hopen hq =>
    obtain ⟨hthrough, hwork, -⟩ := reads_streams max hr num
      (q ++ through max w.pc (flow (out max) pre []))
    simp only [total_append, total_cons, out, hq, List.cons_append, hthrough]
    omega
  | @eof pre post w n output next hr hopen hq hclosed =>
    simp only [allFrom_append, allFrom_cons, Nat.zero_add] at hplaced
    have hw := hchained.right.1.closed hplaced.2.1 (hclosed w (by simp))
    obtain ⟨hthrough, hwork, -⟩ := reads_streams_end max hr
    simp only [total_append, total_cons, out_closed hw hq]
    simp only [out, hthrough]
    omega
  | @fork pre n output padre hijo hf =>
    have hq : n.queue = [] := hchained.right.1.2
    obtain ⟨hthrough, hwork, -⟩ := forks_streams max hf (flow (out max) pre [])
    simp only [total_append, total_cons, total_nil, out, hq, List.nil_append]
    omega
  | @wait pre post n m output hn hm =>
    simp only [total_append, total_cons, out, hn]
    simp only [work, through]
    omega

/-- A run takes one step at most for every unit of what is left at the beginning. -/
lemma length_add_remaining (hr : Corrida c max h s) (hmax : max ≤ intMax) :
    h.length + remaining max s ≤ remaining max arranque := by
  have hboth := hr.induct (G := fun _ _ => True) (fun _ _ => trivial)
    (fun h s => Ordered s ∧ h.length + remaining max s ≤ remaining max arranque) ?_ ?_
  · exact hboth.2
  · rintro s rfl
    exact ⟨ordered_arranque, by simp⟩
  · rintro h s i t ⟨ho, hle⟩ - hst
    have hlt := hst.remaining_lt ho hmax
    rw [List.length_append, List.length_singleton]
    exact ⟨ho.step hst, by omega⟩

/-- Some run ends where no process can take a step. -/
lemma exists_final (c : Config) (hmax : max ≤ intMax) :
    ∃ h s, Corrida c max h s ∧ ∀ i t, ¬Step c max s i t := by
  have hstart : ∃ h s, Corrida c max h s := ⟨[], arranque, .start rfl⟩
  by_contra hnone
  push Not at hnone
  have hlong : ∀ k, ∃ h s, Corrida c max h s ∧ k ≤ h.length := by
    intro k
    induction k with
    | zero =>
      obtain ⟨h, s, hr⟩ := hstart
      exact ⟨h, s, hr, Nat.zero_le _⟩
    | succ k ih =>
      obtain ⟨h, s, hr, hle⟩ := ih
      obtain ⟨i, t, hst⟩ := hnone h s hr
      refine ⟨_, t, .next hr hst, ?_⟩
      rw [List.length_append, List.length_singleton]
      omega
  obtain ⟨h, s, hr, hle⟩ := hlong (remaining max arranque + 1)
  have hbound := length_add_remaining hr hmax
  omega

/-! ### What is printed -/

/-- Nothing waits in a buffer. -/
def Flushed (s : Estado) : Prop := ∀ n ∈ s.nodes, n.buf = []

/-- What has been printed and what is going to be. -/
def printed (max : ℕ) (s : Estado) : Multiset ℕ :=
  ↑s.output + (total (out max) (fun n input => own n.pc input) s.nodes [] +
    ↑(sieve (flow (out max) s.nodes [])))

/-- In line-buffered mode every number is on the output as soon as it is printed. -/
lemma act_printed (ha : act .line max k n = some (written, n')) (hbuf : n.buf = [])
    (input : List ℕ) : ↑written + own n'.pc input = own n.pc input ∧ n'.buf = [] := by
  obtain ⟨pc, ends, queue, buf⟩ := n
  obtain rfl : buf = [] := hbuf
  cases pc <;> simp [TPFork.act, printf] at ha
  case escribe i =>
    obtain ⟨-, rfl, rfl⟩ := ha
    simp [own]
  all_goals obtain ⟨rfl, rfl⟩ := ha; simp [own, Node.pipe, Node.close]

lemma Step.flushed (hst : Step c max s i t) (hline : c.buffering = .line) (hbuf : Flushed s) :
    Flushed t := by
  unfold Flushed at hbuf ⊢
  cases hst with
  | act ha =>
    rw [hline] at ha
    simp only [List.forall_mem_append, List.forall_mem_cons] at hbuf ⊢
    exact ⟨hbuf.1, (act_printed ha hbuf.2.1 []).2, hbuf.2.2⟩
  | write | read | eof | wait =>
    simp only [List.forall_mem_append, List.forall_mem_cons] at hbuf ⊢
    exact hbuf
  | fork =>
    simp only [List.forall_mem_append, List.forall_mem_cons] at hbuf ⊢
    exact ⟨hbuf.1, hbuf.2.1, hbuf.2⟩

lemma Step.printed_line (hst : Step c max s i t) (hline : c.buffering = .line) (ho : Ordered s)
    (hmax : max ≤ intMax) (hbuf : Flushed s) : printed max t = printed max s := by
  obtain ⟨-, hplaced, hchained⟩ := ho
  unfold printed
  cases hst with
  | @act pre post n n' output written ha =>
    rw [hline] at ha
    obtain ⟨hout, -⟩ := act_streams ha (flow (out max) pre [])
    obtain ⟨hown, -⟩ := act_printed ha (hbuf n (by simp)) (flow (out max) pre [])
    simp only [total_append, total_cons, flow_append, flow_cons, hout, ← hown, ← Multiset.coe_add]
    abel
  | @write pre post n output num pc hw hopen hroom hreader =>
    obtain ⟨hthrough, -, hown⟩ := writes_streams hw hmax (flow (out max) pre [])
    simp only [total_append, total_cons, flow_append, flow_cons, out, hthrough, List.append_assoc,
      List.singleton_append, hown]
  | @read pre post w n output q num next hr hopen hq =>
    obtain ⟨hthrough, -, hown⟩ := reads_streams max hr num
      (q ++ through max w.pc (flow (out max) pre []))
    simp only [total_append, total_cons, flow_append, flow_cons, out, hq, List.cons_append,
      hthrough, hown]
  | @eof pre post w n output next hr hopen hq hclosed =>
    simp only [allFrom_append, allFrom_cons, Nat.zero_add] at hplaced
    have hw := hchained.right.1.closed hplaced.2.1 (hclosed w (by simp))
    obtain ⟨hthrough, -, hown⟩ := reads_streams_end max hr
    simp only [total_append, total_cons, flow_append, flow_cons, out_closed hw hq, hown]
    simp only [out, hthrough]
  | @fork pre n output padre hijo hf =>
    have hq : n.queue = [] := hchained.right.1.2
    obtain ⟨hthrough, -, hown, hpadre, hhijo⟩ := forks_streams max hf (flow (out max) pre [])
    simp only [total_append, total_cons, total_nil, flow_append, flow_cons, flow_nil, out, hq,
      List.nil_append, hown, hpadre, zero_add, add_zero]
    rw [add_assoc, hhijo, hthrough]
  | @wait pre post n m output hn hm =>
    simp only [total_append, total_cons, flow_append, flow_cons, out, hn]
    rfl

lemma printed_of_run (hr : Corrida c max h s) (hline : c.buffering = .line) (hmax : max ≤ intMax) :
    printed max s = ↑(sieve (List.range' 2 (max - 1))) := by
  have hall := hr.induct (G := fun _ _ => True) (fun _ _ => trivial)
    (fun _ s => Ordered s ∧ Flushed s ∧ printed max s = ↑(sieve (List.range' 2 (max - 1)))) ?_ ?_
  · exact hall.2.2
  · rintro s rfl
    refine ⟨ordered_arranque, by simp [Flushed, arranque], ?_⟩
    simp [printed, arranque, out, through, own]
  · rintro h s i t ⟨ho, hbuf, hs⟩ - hst
    exact ⟨ho.step hst, hst.flushed hline hbuf, (hst.printed_line hline ho hmax hbuf).trans hs⟩

/-- When all processes have ended nothing is left to print. -/
lemma printed_fin (ho : Ordered s) (hfin : ∀ n ∈ s.nodes, n.pc = .fin) :
    printed max s = ↑s.output := by
  have hown : total (out max) (fun n input => own n.pc input) s.nodes [] = 0 :=
    total_eq_zero (fun n hn input => by rw [hfin n hn]; rfl) []
  obtain ⟨pre, n, hnodes⟩ := List.eq_nil_or_concat s.nodes |>.resolve_left ho.ne
  have hchained := ho.chained
  rw [hnodes, List.concat_eq_append] at hchained
  have hq : n.queue = [] := hchained.right.1.2
  have hpc : n.pc = .fin := hfin n (by rw [hnodes]; simp)
  unfold printed
  rw [hown, hnodes, List.concat_eq_append, flow_append, flow_cons, flow_nil]
  unfold out
  rw [hq, hpc]
  simp [through]

/-! ### The counter of `main` -/

lemma act_ne_desborda (ha : act b max k n = some (written, n')) : n'.pc ≠ .desborda := by
  obtain ⟨pc, ends, queue, buf⟩ := n
  cases pc <;> simp [TPFork.act] at ha
  case escribe i =>
    obtain ⟨-, -, rfl⟩ := ha
    simp
  all_goals obtain ⟨-, rfl⟩ := ha; simp [Node.pipe, Node.close]

lemma writes_ne_desborda (hw : writes max pc = some (num, padre)) (hmax : max < intMax) :
    padre ≠ .desborda := by
  cases pc <;> simp [writes] at hw
  case escribe i =>
    obtain ⟨hi, -, rfl⟩ := hw
    rw [if_neg (by omega)]
    simp
  case escribeNum => obtain ⟨-, rfl⟩ := hw; simp

lemma reads_ne_desborda (hr : reads pc = some next) (r : Option ℕ) : next r ≠ .desborda := by
  cases pc <;> simp [reads] at hr
  case leePrimo => obtain rfl := hr; cases r <;> simp
  case leeNum primo =>
    obtain rfl := hr
    cases r with
    | none => simp
    | some num => dsimp only; split <;> simp

/-- Below `INT_MAX` the counter does not overflow. -/
lemma Step.ne_desborda (hst : Step c max s i t) (hmax : max < intMax)
    (hs : ∀ n ∈ s.nodes, n.pc ≠ .desborda) : ∀ n ∈ t.nodes, n.pc ≠ .desborda := by
  cases hst with
  | act ha =>
    simp only [List.forall_mem_append, List.forall_mem_cons] at hs ⊢
    exact ⟨hs.1, act_ne_desborda ha, hs.2.2⟩
  | write hw =>
    simp only [List.forall_mem_append, List.forall_mem_cons] at hs ⊢
    exact ⟨hs.1, writes_ne_desborda hw hmax, hs.2.2⟩
  | read hr | eof hr =>
    simp only [List.forall_mem_append, List.forall_mem_cons] at hs ⊢
    exact ⟨hs.1, hs.2.1, reads_ne_desborda hr _, hs.2.2.2⟩
  | @fork pre n output padre hijo hf =>
    simp only [List.forall_mem_append, List.forall_mem_cons] at hs ⊢
    have hpcs : padre ≠ .desborda ∧ hijo ≠ .desborda := by
      obtain ⟨pc, ends, queue, buf⟩ := n
      cases pc <;> simp [forks] at hf
      all_goals obtain ⟨rfl, rfl⟩ := hf; simp
    exact ⟨hs.1, hpcs.1, hpcs.2, hs.2.2⟩
  | wait =>
    simp only [List.forall_mem_append, List.forall_mem_cons] at hs ⊢
    exact ⟨hs.1, by simp, hs.2.2⟩

lemma ne_desborda_of_run (hr : Corrida c max h s) (hmax : max < intMax) :
    ∀ n ∈ s.nodes, n.pc ≠ .desborda := by
  refine hr.induct (G := fun _ _ => True) (fun _ _ => trivial)
    (fun _ s => ∀ n ∈ s.nodes, n.pc ≠ .desborda) ?_ ?_
  · rintro s rfl
    simp [arranque]
  · intro h s i t hs _ hst
    exact hst.ne_desborda hmax hs

/-- When no process can take a step all have ended. -/
lemma fin_of_final (hr : Corrida c max h s) (hmax : max < intMax) (hfinal : ∀ i t, ¬Step c max s i t) :
    ∀ n ∈ s.nodes, n.pc = .fin := by
  by_contra hrun
  push Not at hrun
  obtain ⟨i, t, hst⟩ := (Ordered.of_run hr).progress (c := c) (ne_desborda_of_run hr hmax) hrun
  exact hfinal i t hst

/-- `main` is still in its loop, whose counter is not above `INT_MAX`. -/
def Looping (s : Estado) : Prop :=
  ∃ m rest, s.nodes = m :: rest ∧ m.pc.inMain = true ∧ ∀ i, m.pc = .escribe i → i ≤ intMax

/-- The first process stays in its loop when it takes a step or another one does. -/
lemma Looping.replace {pre l l' : List Node} {output output' : List ℕ}
    (hs : Looping ⟨pre ++ l, output⟩) (hl : Looping ⟨l, output⟩ → Looping ⟨l', output'⟩) :
    Looping ⟨pre ++ l', output'⟩ := by
  cases pre with
  | nil => exact hl hs
  | cons m pre =>
    obtain ⟨m', rest, hnodes, hm⟩ := hs
    obtain ⟨rfl, -⟩ := List.cons.inj hnodes
    exact ⟨m, _, rfl, hm⟩

/-- At `INT_MAX` the comparison with `max_num` is always true. -/
lemma Step.looping (hst : Step c intMax s i t) (hs : Looping s) : Looping t := by
  cases hst with
  | @act pre post n n' output written ha =>
    refine hs.replace ?_
    rintro ⟨m, rest, hnodes, hmain, hle⟩
    obtain ⟨rfl, rfl⟩ := List.cons.inj hnodes
    refine ⟨n', post, rfl, ?_⟩
    obtain ⟨pc, ends, queue, buf⟩ := n
    cases pc <;> simp [TPFork.act] at ha hmain
    case escribe j => exact absurd (hle j rfl) (Nat.not_le.mpr ha.1)
    case pipeInicial => obtain ⟨-, rfl⟩ := ha; simp [Node.pipe]
    case cierraLectura =>
      obtain ⟨-, rfl⟩ := ha
      refine ⟨rfl, fun i hi => ?_⟩
      cases hi
      decide
  | @write pre post n output num pc hw _ _ _ =>
    clear * - hs hw
    refine hs.replace ?_
    rintro ⟨m, rest, hnodes, hmain, hle⟩
    obtain ⟨rfl, rfl⟩ := List.cons.inj hnodes
    refine ⟨_, post, rfl, ?_⟩
    obtain ⟨npc, ends, queue, buf⟩ := n
    cases npc <;> simp [writes] at hw hmain
    case escribe j =>
      obtain ⟨hle', -, rfl⟩ := hw
      by_cases hlast : j = intMax
      · rw [if_pos hlast]
        exact ⟨rfl, by simp⟩
      · rw [if_neg hlast]
        refine ⟨rfl, fun k hk => ?_⟩
        cases hk
        omega
  | read hr | eof hr =>
    refine hs.replace ?_
    rintro ⟨m, rest, hnodes, hmain, hle⟩
    obtain ⟨rfl, rfl⟩ := List.cons.inj hnodes
    exact ⟨_, _, rfl, hmain, hle⟩
  | @fork pre n output padre hijo hf =>
    refine hs.replace ?_
    rintro ⟨m, rest, hnodes, hmain, hle⟩
    obtain ⟨rfl, rfl⟩ := List.cons.inj hnodes
    refine ⟨_, _, rfl, ?_⟩
    obtain ⟨npc, ends, queue, buf⟩ := n
    cases npc <;> simp [forks] at hf hmain
    case forkActual => obtain ⟨rfl, rfl⟩ := hf; exact ⟨rfl, by simp⟩
  | wait hn =>
    refine hs.replace ?_
    rintro ⟨m, rest, hnodes, hmain, hle⟩
    obtain ⟨rfl, rfl⟩ := List.cons.inj hnodes
    rw [hn] at hmain
    cases hmain

lemma looping_of_run (hr : Corrida c intMax h s) : Looping s := by
  refine hr.induct (G := fun _ _ => True) (fun _ _ => trivial) (fun _ s => Looping s) ?_ ?_
  · rintro s rfl
    exact ⟨_, [], rfl, rfl, nofun⟩
  · intro h s i t hs _ hst
    exact hst.looping hs

/-! ### A full buffer and `fork` -/

/-- How often the first line is waiting in the buffer of a process. -/
def esperando (n : Node) : ℕ := if n.pc = .fin then 0 else n.buf.count 2

/-- How often the first line is on the output or in a buffer. -/
def copias (s : Estado) : ℕ := s.output.count 2 + (s.nodes.map esperando).sum

lemma act_copias (ha : act b max k n = some (written, n')) :
    esperando n ≤ written.count 2 + esperando n' := by
  obtain ⟨pc, ends, queue, buf⟩ := n
  cases pc <;> simp [TPFork.act] at ha
  case escribe i =>
    obtain ⟨-, rfl, rfl⟩ := ha
    simp [esperando]
  case printfPrimo primo =>
    obtain ⟨rfl, rfl⟩ := ha
    cases b with
    | line => simp [esperando, printf]
    | full size large =>
      by_cases hfits : ((buf ++ [primo]).map lineLength).sum ≤ size
      · simp only [printf, if_pos hfits]
        simp [esperando]
      · simp only [printf, if_neg hfits]
        simp [esperando]
  all_goals obtain ⟨rfl, rfl⟩ := ha; simp [esperando, Node.pipe, Node.close]

/-- A process that has not ended keeps what is in its buffer. -/
lemma esperando_le (n n' : Node) (hbuf : n'.buf = n.buf) (hpc : n'.pc ≠ .fin) : esperando n ≤ esperando n' := by
  unfold esperando
  rw [if_neg hpc, hbuf]
  split <;> omega

lemma ne_fin_of_drained (h : pc.drained = false) : pc ≠ .fin := by
  rintro rfl
  cases h

lemma reads_ne_fin (hr : reads pc = some next) (r : Option ℕ) : next r ≠ .fin := by
  cases pc <;> simp [reads] at hr
  case leePrimo => obtain rfl := hr; cases r <;> simp
  case leeNum primo =>
    obtain rfl := hr
    cases r with
    | none => simp
    | some num => dsimp only; split <;> simp

/-- No step takes a line back. -/
lemma Step.copias_le (hst : Step c max s i t) : copias s ≤ copias t := by
  unfold copias
  cases hst with
  | act ha =>
    have hle := act_copias ha
    simp only [List.map_append, List.map_cons, List.sum_append, List.sum_cons, List.count_append]
    omega
  | @write pre post n output num pc hw =>
    have hn := esperando_le n { n with pc := pc, queue := n.queue ++ [num] } rfl
      (ne_fin_of_drained (writes_pc hw).1)
    simp only [List.map_append, List.map_cons, List.sum_append, List.sum_cons]
    omega
  | @read pre post w n output q num next hr =>
    have hn := esperando_le n { n with pc := next (some num) } rfl (reads_ne_fin hr _)
    have hw : esperando { w with queue := q } = esperando w := rfl
    simp only [List.map_append, List.map_cons, List.sum_append, List.sum_cons, hw]
    omega
  | @eof pre post w n output next hr =>
    have hn := esperando_le n { n with pc := next none } rfl (reads_ne_fin hr _)
    simp only [List.map_append, List.map_cons, List.sum_append, List.sum_cons]
    omega
  | @fork pre n output padre hijo hf =>
    have hn := esperando_le n { n with pc := padre } rfl
      (ne_fin_of_drained (forks_pc hf).1)
    simp only [List.map_append, List.map_cons, List.sum_append, List.sum_cons]
    omega
  | @wait pre post n m output hn =>
    have hle := esperando_le n { n with pc := .sale } rfl nofun
    simp only [List.map_append, List.map_cons, List.sum_append, List.sum_cons]
    omega

lemma copias_fin (hfin : ∀ n ∈ s.nodes, n.pc = .fin) : copias s = s.output.count 2 := by
  have hzero : (s.nodes.map esperando).sum = 0 := by
    apply List.sum_eq_zero
    intro x hx
    obtain ⟨n, hn, rfl⟩ := List.mem_map.mp hx
    unfold esperando
    rw [if_pos (hfin n hn)]
  unfold copias
  rw [hzero, Nat.add_zero]

/-- A step of a chain of two processes of which the second has not forked. -/
inductive PairStep (b : Buffering) (max : ℕ) (m n : Node) (t : Estado) : Prop
  | first (m' : Node) (ht : t.nodes = [m', n]) (hout : out max m' [] = out max m [])
  | act (n' : Node) (written : List ℕ) (ha : act b max 1 n = some (written, n'))
      (ht : t.nodes = [m, n'])
  | read (next : Option ℕ → Pc) (num : ℕ) (q : List ℕ) (hr : reads n.pc = some next)
      (hq : m.queue = num :: q) (ht : t.nodes = [{ m with queue := q }, { n with pc := next (some num) }])
  | eof (next : Option ℕ → Pc) (hr : reads n.pc = some next) (hout : out max m [] = [])
  | fork (padre hijo : Pc) (hf : forks n.pc = some (padre, hijo))
      (ht : t.nodes = [m, { n with pc := padre }, { n with pc := hijo, queue := [] }])

lemma Step.pair (hst : Step c max s i t) (hs : s.nodes = [m, n]) (ho : Ordered s)
    (hmax : max ≤ intMax) (hn : n.pc.young = true) : PairStep c.buffering max m n t := by
  obtain ⟨-, hplaced, hchained⟩ := ho
  have hwrites : ∀ num pc, writes max n.pc ≠ some (num, pc) := by
    intro num pc
    obtain ⟨npc, ends, queue, buf⟩ := n
    cases npc <;> simp [writes] at hn ⊢
  cases hst with
  | @act pre post n₀ n' output written ha =>
    obtain ⟨rfl, rfl, rfl⟩ | ⟨rfl, rfl, rfl⟩ : (pre = [] ∧ n₀ = m ∧ post = [n]) ∨
        (pre = [m] ∧ n₀ = n ∧ post = []) := by
      rcases pre with _ | ⟨x, _ | ⟨y, pre⟩⟩ <;> simp_all
    · exact .first n' rfl (act_streams ha []).1
    · exact .act n' written ha rfl
  | @write pre post n₀ output num pc hw =>
    obtain ⟨rfl, rfl, rfl⟩ | ⟨rfl, rfl, rfl⟩ : (pre = [] ∧ n₀ = m ∧ post = [n]) ∨
        (pre = [m] ∧ n₀ = n ∧ post = []) := by
      rcases pre with _ | ⟨x, _ | ⟨y, pre⟩⟩ <;> simp_all
    · refine .first _ rfl ?_
      simp [out, (writes_streams hw hmax []).1]
    · exact absurd hw (hwrites _ _)
  | @read pre post w n₀ output q num next hr hopen hq =>
    obtain ⟨rfl, rfl, rfl, rfl⟩ : pre = [] ∧ w = m ∧ n₀ = n ∧ post = [] := by
      rcases pre with _ | ⟨x, _ | ⟨y, pre⟩⟩ <;> simp_all
    exact .read next num q hr hq rfl
  | @eof pre post w n₀ output next hr hopen hq hclosed =>
    obtain ⟨rfl, rfl, rfl, rfl⟩ : pre = [] ∧ w = m ∧ n₀ = n ∧ post = [] := by
      rcases pre with _ | ⟨x, _ | ⟨y, pre⟩⟩ <;> simp_all
    exact .eof next hr (out_closed (hchained.1.closed hplaced.1 (hclosed w (by simp))) hq [])
  | @fork pre n₀ output padre hijo hf =>
    obtain ⟨rfl, rfl⟩ : pre = [m] ∧ n₀ = n := by
      rcases pre with _ | ⟨x, _ | ⟨y, pre⟩⟩ <;> simp_all
    exact .fork padre hijo hf rfl
  | @wait pre post n₀ m₀ output hn₀ hm₀ =>
    obtain ⟨rfl, rfl, rfl, rfl⟩ : pre = [] ∧ n₀ = m ∧ m₀ = n ∧ post = [] := by
      rcases pre with _ | ⟨x, _ | ⟨y, pre⟩⟩ <;> simp_all
    rw [hm₀] at hn
    cases hn

/-- The first line is printed twice: it waits in a buffer when its process forks. -/
inductive Doubled (max : ℕ) (s : Estado) : Prop
  | main (m : Node) (hs : s.nodes = [m]) (hpc : m.pc = .pipeInicial ∨ m.pc = .forkActual)
      (hq : m.queue = []) (hbuf : m.buf = [])
  | lee (m n : Node) (hs : s.nodes = [m, n]) (hpc : n.pc = .soyHijo ∨ n.pc = .leePrimo)
      (hbuf : n.buf = []) (l : List ℕ) (hout : out max m [] = 2 :: l)
  | imprime (m n : Node) (hs : s.nodes = [m, n]) (hpc : n.pc = .printfPrimo 2) (hbuf : n.buf = [])
  | espera (m n : Node) (primo : ℕ) (hs : s.nodes = [m, n])
      (hpc : n.pc = .pipeNuevo primo ∨ n.pc = .forkNuevo primo) (hbuf : n.buf = [2])
  | copiada (h : 2 ≤ copias s)

lemma Step.doubled {size : ℕ} {large : 256 ≤ size} (hst : Step c max s i t)
    (hfull : c.buffering = .full size large) (ho : Ordered s) (h2 : 2 ≤ max) (hmax : max ≤ intMax)
    (hs : Doubled max s) : Doubled max t := by
  cases hs with
  | copiada h => exact .copiada (h.trans hst.copias_le)
  | main m hs hpc hq hbuf =>
    cases hst with
    | @act pre post n n' output written ha =>
      obtain ⟨rfl, rfl, rfl⟩ : pre = [] ∧ n = m ∧ post = [] := by
        rcases pre with _ | ⟨x, pre⟩ <;> simp_all
      obtain ⟨npc, ends, queue, buf⟩ := n
      rcases hpc with rfl | rfl
      · simp [TPFork.act] at ha
        obtain ⟨-, rfl⟩ := ha
        exact .main _ rfl (.inr rfl) hq hbuf
      · simp [TPFork.act] at ha
    | @write pre post n output num pc hw =>
      obtain ⟨-, rfl, -⟩ : pre = [] ∧ n = m ∧ post = [] := by
        rcases pre with _ | ⟨x, pre⟩ <;> simp_all
      rcases hpc with hpc | hpc <;> rw [hpc] at hw <;> cases hw
    | @read pre | @eof pre | @wait pre => rcases pre with _ | ⟨x, pre⟩ <;> simp_all
    | @fork pre n output padre hijo hf =>
      obtain ⟨rfl, rfl⟩ : pre = [] ∧ n = m := by
        rcases pre with _ | ⟨x, pre⟩ <;> simp_all
      rcases hpc with hpc | hpc
      · rw [hpc] at hf
        cases hf
      · rw [hpc] at hf
        cases hf
        obtain ⟨k, hk⟩ : ∃ k, max - 1 = k + 1 := ⟨max - 2, by omega⟩
        refine .lee _ _ rfl (.inl rfl) hbuf (List.range' 3 k) ?_
        simp [out, through, hq, hk, List.range'_succ]
  | lee m n hs hpc hbuf l hout =>
    cases hst.pair hs ho hmax (by rcases hpc with h | h <;> rw [h] <;> rfl) with
    | first m' ht hout' => exact .lee m' n ht hpc hbuf l (hout'.trans hout)
    | act n' written ha ht =>
      obtain ⟨npc, ends, queue, buf⟩ := n
      rcases hpc with rfl | rfl
      · simp [TPFork.act] at ha
        obtain ⟨-, rfl⟩ := ha
        exact .lee m _ ht (.inr rfl) hbuf l hout
      · simp [TPFork.act] at ha
    | read next num q hr hq ht =>
      rcases hpc with hpc | hpc
      · rw [hpc] at hr
        cases hr
      · rw [hpc] at hr
        cases hr
        have hnum : num = 2 := by
          unfold out at hout
          rw [hq] at hout
          exact (List.cons.inj hout).1
        subst hnum
        exact .imprime _ _ ht rfl hbuf
    | eof next hr hout' =>
      rw [hout'] at hout
      cases hout
    | fork padre hijo hf ht =>
      rcases hpc with hpc | hpc <;> rw [hpc] at hf <;> cases hf
  | imprime m n hs hpc hbuf =>
    cases hst.pair hs ho hmax (by rw [hpc]; rfl) with
    | first m' ht hout' => exact .imprime m' n ht hpc hbuf
    | act n' written ha ht =>
      obtain ⟨npc, ends, queue, buf⟩ := n
      obtain rfl : npc = .printfPrimo 2 := hpc
      obtain rfl : buf = [] := hbuf
      have hfits : (([] ++ [2]).map lineLength).sum ≤ size := by
        have hlen : (([] ++ [2]).map lineLength).sum = 8 := by simp [lineLength]
        omega
      simp only [TPFork.act, hfull, printf, if_pos hfits] at ha
      cases ha
      exact .espera m _ 2 ht (.inl rfl) rfl
    | read next num q hr hq ht =>
      rw [hpc] at hr
      cases hr
    | eof next hr hout' =>
      rw [hpc] at hr
      cases hr
    | fork padre hijo hf ht =>
      rw [hpc] at hf
      cases hf
  | espera m n primo hs hpc hbuf =>
    cases hst.pair hs ho hmax (by rcases hpc with h | h <;> rw [h] <;> rfl) with
    | first m' ht hout' => exact .espera m' n primo ht hpc hbuf
    | act n' written ha ht =>
      obtain ⟨npc, ends, queue, buf⟩ := n
      rcases hpc with rfl | rfl
      · simp [TPFork.act] at ha
        obtain ⟨-, rfl⟩ := ha
        exact .espera m _ primo ht (.inr rfl) hbuf
      · simp [TPFork.act] at ha
    | read next num q hr hq ht => rcases hpc with hpc | hpc <;> rw [hpc] at hr <;> cases hr
    | eof next hr hout' => rcases hpc with hpc | hpc <;> rw [hpc] at hr <;> cases hr
    | fork padre hijo hf ht =>
      obtain ⟨hd, -, -, hchild, -⟩ := forks_pc hf
      have hpadre := ne_fin_of_drained hd
      have hhijo := ne_fin_of_drained (drained_of_young hchild)
      refine .copiada ?_
      unfold copias
      rw [ht]
      simp only [List.map_cons, List.map_nil, List.sum_cons, List.sum_nil, esperando, hpadre, hhijo,
        if_false, hbuf]
      simp
      omega

lemma doubled_of_run {size : ℕ} {large : 256 ≤ size} (hr : Corrida c max h s)
    (hfull : c.buffering = .full size large) (h2 : 2 ≤ max) (hmax : max ≤ intMax) : Doubled max s := by
  have hboth := hr.induct (G := fun _ _ => True) (fun _ _ => trivial)
    (fun _ s => Ordered s ∧ Doubled max s) ?_ ?_
  · exact hboth.2
  · rintro s rfl
    exact ⟨ordered_arranque, .main _ rfl (.inl rfl) rfl rfl⟩
  · rintro h s i t ⟨ho, hs⟩ - hst
    exact ⟨ho.step hst, hst.doubled hfull ho h2 hmax hs⟩

/-- When all have ended the first line is twice on the output. -/
lemma Doubled.count_output (hs : Doubled max s) (hfin : ∀ n ∈ s.nodes, n.pc = .fin) :
    2 ≤ s.output.count 2 := by
  cases hs with
  | main m hs hpc =>
    rw [hfin m (by simp [hs])] at hpc
    rcases hpc with h | h <;> cases h
  | lee m n hs hpc =>
    rw [hfin n (by simp [hs])] at hpc
    rcases hpc with h | h <;> cases h
  | imprime m n hs hpc =>
    rw [hfin n (by simp [hs])] at hpc
    cases hpc
  | espera m n primo hs hpc =>
    rw [hfin n (by simp [hs])] at hpc
    rcases hpc with h | h <;> cases h
  | copiada h =>
    rw [copias_fin hfin] at h
    exact h

/-! ### The programs that print the prime numbers -/

lemma not_primesOk_full {size : ℕ} {large : 256 ≤ size} (hfull : c.buffering = .full size large)
    (h2 : 2 ≤ max) (hmax : max ≤ intMax) : ¬PrimesOk c max := by
  intro hok
  obtain ⟨h, s, hr, hfinal⟩ := exists_final c hmax
  obtain ⟨hfin, hnodup, -⟩ := hok.2 h s hr hfinal
  have hcount := (doubled_of_run hr hfull h2 hmax).count_output hfin
  have hle := List.nodup_iff_count_le_one.mp hnodup 2
  omega

lemma not_primesOk_intMax (c : Config) : ¬PrimesOk c intMax := by
  intro hok
  obtain ⟨h, s, hr, hfinal⟩ := exists_final c le_rfl
  obtain ⟨m, rest, hnodes, hmain, -⟩ := looping_of_run hr
  have hfin := (hok.2 h s hr hfinal).1 m (by simp [hnodes])
  rw [hfin] at hmain
  cases hmain

lemma primesOk_line (hline : c.buffering = .line) (hmax : max < intMax) : PrimesOk c max := by
  refine ⟨⟨remaining max arranque, fun h s hr => ?_⟩, fun h s hr hfinal => ?_⟩
  · have hle := length_add_remaining hr hmax.le
    omega
  · have hfin := fin_of_final hr hmax hfinal
    have hperm : s.output.Perm (sieve (List.range' 2 (max - 1))) := by
      rw [← Multiset.coe_eq_coe, ← printed_of_run hr hline hmax.le]
      exact (printed_fin (Ordered.of_run hr) hfin).symm
    refine ⟨hfin, hperm.nodup_iff.mpr (nodup_sieve_range max), fun p => ?_⟩
    rw [hperm.mem_iff, mem_sieve_range]

/-- For every number that an `int` holds, every size of the pipes and both ways of buffering. -/
theorem primesOk_iff (c : Config) (max : ℕ) (h2 : 2 ≤ max) (hmax : max ≤ intMax) :
    PrimesOk c max ↔ c.buffering = .line ∧ max < intMax := by
  constructor
  · intro hok
    constructor
    · cases hbuf : c.buffering with
      | line => rfl
      | full size large => exact absurd hok (not_primesOk_full hbuf h2 hmax)
    · rcases hmax.lt_or_eq with hlt | rfl
      · exact hlt
      · exact absurd hok (not_primesOk_intMax c)
  · rintro ⟨hline, hlt⟩
    exact primesOk_line hline hlt

/-- Up to ten there is a filter for each of 2, 3, 5 and 7. -/
theorem primesOk_diez : PrimesOk ⟨.line, 16384, by decide⟩ 10 :=
  (primesOk_iff ⟨.line, 16384, by decide⟩ 10 (by decide) (by decide)).mpr ⟨rfl, by decide⟩

theorem primesOk_fails : ∃ c max, 2 ≤ max ∧ max ≤ intMax ∧ ¬PrimesOk c max :=
  ⟨⟨.full 4096 (by decide), 16384, by decide⟩, 2, by decide, by decide,
    not_primesOk_full rfl (by decide) (by decide)⟩

end SistemasOperativos.TPFork
