import SistemasOperativos.TPFork.Primes

/-!
# The chain of processes

Which descriptors a process has open, and how far a process can be when its child is at some
place. A process that has seen the end of its input has a parent that has closed its pipe.
-/

namespace SistemasOperativos.TPFork

open Library

namespace Pc

/-- The process runs `main`. -/
def inMain : Pc → Bool
  | pipeInicial | forkActual | cierraLectura | escribe _ | desborda => true
  | _ => false

/-- The process is in the child's part of `primes`. -/
def inChild : Pc → Bool
  | hijoCierraEscritura | hijoCierraLectura => true
  | _ => false

/-- The process is in `primes`, or has not come to it yet. -/
def inPrimes : Pc → Bool
  | soyHijo | leePrimo | cierraVacio | printfPrimo _ | pipeNuevo _ | forkNuevo _
  | cierraNuevaLectura _ | leeNum _ | escribeNum _ _ | cierraLecturaFinal => true
  | _ => false

/-- The process has not forked. -/
def young : Pc → Bool
  | pipeInicial | forkActual | soyHijo | leePrimo | printfPrimo _ | pipeNuevo _ | forkNuevo _
  | hijoCierraEscritura | hijoCierraLectura => true
  | _ => false

/-- The process reads no more. -/
def drained : Pc → Bool
  | cierraVacio | cierraLecturaFinal | cierraEscritura | espera | sale | fin => true
  | _ => false

/-- The process has closed its pipe. -/
def closed : Pc → Bool
  | espera | sale | fin => true
  | _ => false

def gone : Pc → Bool
  | sale | fin => true
  | _ => false

/-- The end for reading of the parent's pipe is open. -/
def inRead : Pc → Bool
  | soyHijo | hijoCierraEscritura | hijoCierraLectura | leePrimo | printfPrimo _ | pipeNuevo _
  | forkNuevo _ | cierraNuevaLectura _ | leeNum _ | escribeNum _ _ | cierraLecturaFinal
  | cierraVacio => true
  | _ => false

/-- The end for reading of the process' own pipe is open. -/
def ownRead : Pc → Bool
  | forkActual | cierraLectura | forkNuevo _ | cierraNuevaLectura _ => true
  | _ => false

/-- The end for writing of the process' own pipe is open. -/
def ownWrite : Pc → Bool
  | forkActual | cierraLectura | escribe _ | desborda | cierraEscritura | forkNuevo _
  | cierraNuevaLectura _ | leeNum _ | escribeNum _ _ | cierraLecturaFinal => true
  | _ => false

/-- The end for writing of the parent's pipe is open. -/
def inWrite : Pc → Bool
  | soyHijo | hijoCierraEscritura => true
  | _ => false

attribute [simp] inMain inChild inPrimes young drained closed gone inRead ownRead ownWrite inWrite

end Pc

/-- The ends of the pipe `j` that process `k` has open. -/
def Holds (k : ℕ) (pc : Pc) (j : ℕ) : PipeEnd → Prop
  | .lectura => (j + 1 = k ∧ pc.inRead) ∨ (j = k ∧ pc.ownRead) ∨ (j + 2 = k ∧ pc.inChild)
  | .escritura => (j = k ∧ pc.ownWrite) ∨ (j + 1 = k ∧ pc.inWrite)

/-- Process `k` is where it can be, with the descriptors that it has there. -/
structure Placed (k : ℕ) (n : Node) : Prop where
  main : n.pc.inMain = true → k = 0
  primes : n.pc.inPrimes = true → 1 ≤ k
  child : n.pc.inChild = true → 2 ≤ k
  ends : ∀ j e, n.ends j e = true ↔ Holds k n.pc j e

/-- What holds of a process and its child. A process without a child has not forked, or has had no
number. -/
def Follows (n : Node) : Option Node → Prop
  | some m => (n.pc.young = false ∧ n.pc ≠ .cierraVacio) ∧
      (m.pc.drained = true → n.pc.closed = true ∧ n.queue = []) ∧ (n.pc.gone = true → m.pc = .fin)
  | none => (n.pc.young = true ∨ n.pc = .cierraVacio ∨ n.pc.gone = true) ∧ n.queue = []

structure Ordered (s : Estado) : Prop where
  ne : s.nodes ≠ []
  placed : AllFrom Placed 0 s.nodes
  chained : Chained Follows s.nodes

variable {b : Buffering} {c : Config} {max k i : ℕ} {n n' w m : Node} {s t : Estado}
  {written : List ℕ} {h : List (Move Estado ℕ)} {num : ℕ} {pc padre hijo : Pc}
  {next : Option ℕ → Pc}

/-! ### Descriptors -/

/-- The place of a process agrees with its number. -/
def At (k : ℕ) (pc : Pc) : Prop :=
  (pc.inMain = true → k = 0) ∧ (pc.inPrimes = true → 1 ≤ k) ∧ (pc.inChild = true → 2 ≤ k)

lemma Placed.at (h : Placed k n) : At k n.pc := ⟨h.main, h.primes, h.child⟩

/-- A step without a change of the descriptors. -/
lemma Placed.goto (h : Placed k n) (hat : At k pc)
    (hends : ∀ j e, Holds k pc j e ↔ Holds k n.pc j e) (queue buf : List ℕ) :
    Placed k { n with pc := pc, queue := queue, buf := buf } where
  main := hat.1
  primes := hat.2.1
  child := hat.2.2
  ends j e := (h.ends j e).trans (hends j e).symm

lemma Placed.pipe (h : Placed k n) (hat : At k pc)
    (hends : ∀ j e, Holds k pc j e ↔ j = k ∨ Holds k n.pc j e) : Placed k (n.pipe k pc) where
  main := hat.1
  primes := hat.2.1
  child := hat.2.2
  ends j e := by
    refine Iff.trans ?_ (hends j e).symm
    rw [← h.ends]
    unfold Node.pipe
    by_cases hj : j = k
    · simp [hj]
    · simp [hj]

lemma Placed.close (h : Placed k n) (hat : At k pc) {i : ℕ} {e : PipeEnd}
    (hends : ∀ j e', Holds k pc j e' ↔ ¬(j = i ∧ e' = e) ∧ Holds k n.pc j e') :
    Placed k (n.close i e pc) where
  main := hat.1
  primes := hat.2.1
  child := hat.2.2
  ends j e' := by
    refine Iff.trans ?_ (hends j e').symm
    rw [← h.ends]
    unfold Node.close
    by_cases hj : j = i ∧ e' = e
    · simp [hj]
    · simp [hj]

/-- The descriptors after each of the steps of a process on its own. -/
lemma Placed.act (h : Placed k n) (ha : act b max k n = some (written, n')) : Placed k n' := by
  have hat := h.at
  obtain ⟨pc, ends, queue, buf⟩ := n
  cases pc <;> simp [TPFork.act, At] at ha hat
  case pipeInicial | pipeNuevo =>
    obtain ⟨-, rfl⟩ := ha
    refine h.pipe (by simpa [At] using hat) (fun j e => ?_)
    cases e <;> simp [Holds] <;> omega
  case cierraLectura | soyHijo | cierraVacio | cierraNuevaLectura | cierraLecturaFinal |
      hijoCierraEscritura | hijoCierraLectura | cierraEscritura =>
    obtain ⟨-, rfl⟩ := ha
    refine h.close (by simp [At]; try omega) (fun j e => ?_)
    cases e <;> simp [Holds] <;> omega
  case escribe i =>
    obtain ⟨-, -, rfl⟩ := ha
    refine h.goto (by simp [At]) (fun j e => ?_) _ _
    cases e <;> simp [Holds]
  case printfPrimo =>
    obtain ⟨-, rfl⟩ := ha
    refine h.goto (by simpa [At] using hat) (fun j e => ?_) _ _
    cases e <;> simp [Holds]
  case sale =>
    obtain ⟨-, rfl⟩ := ha
    refine ⟨by simp, by simp, by simp, fun j e => ?_⟩
    cases e <;> simp [Holds]

lemma Placed.write (h : Placed k n) (hw : writes max n.pc = some (num, pc)) (queue : List ℕ) :
    Placed k { n with pc := pc, queue := queue } := by
  have hat := h.at
  obtain ⟨npc, ends, q, buf⟩ := n
  cases npc <;> simp [writes, At] at hw hat
  case escribe i =>
    obtain ⟨-, -, rfl⟩ := hw
    refine h.goto ?_ (fun j e => ?_) _ _
    · split <;> simp [At, hat]
    · split <;> cases e <;> simp [Holds]
  case escribeNum primo num =>
    obtain ⟨-, rfl⟩ := hw
    refine h.goto (by simpa [At] using hat) (fun j e => ?_) _ _
    cases e <;> simp [Holds]

lemma Placed.read (h : Placed k n) (hr : reads n.pc = some next) (r : Option ℕ) :
    Placed k { n with pc := next r } := by
  have hat := h.at
  obtain ⟨npc, ends, q, buf⟩ := n
  cases npc <;> simp [reads, At] at hr hat
  case leePrimo =>
    obtain rfl := hr
    refine h.goto ?_ (fun j e => ?_) _ _
    · cases r <;> simpa [At] using hat
    · cases r <;> cases e <;> simp [Holds]
  case leeNum primo =>
    obtain rfl := hr
    refine h.goto ?_ (fun j e => ?_) _ _
    · cases r with
      | none => simpa [At] using hat
      | some num => dsimp only; split <;> simpa [At] using hat
    · cases r with
      | none => cases e <;> simp [Holds]
      | some num => dsimp only; split <;> cases e <;> simp [Holds]

lemma Placed.fork (h : Placed k n) (hf : forks n.pc = some (padre, hijo)) :
    Placed k { n with pc := padre } ∧ Placed (k + 1) { n with pc := hijo, queue := [] } := by
  have hat := h.at
  have hends := h.ends
  obtain ⟨npc, ends, q, buf⟩ := n
  cases npc <;> simp [forks, At] at hf hat
  case forkActual =>
    obtain ⟨rfl, rfl⟩ := hf
    refine ⟨h.goto (by simpa [At] using hat) (fun j e => ?_) _ _, by simp, by simp, by simp,
      fun j e => (hends j e).trans ?_⟩
    · cases e <;> simp [Holds]
    · cases e <;> simp [Holds]
  case forkNuevo =>
    obtain ⟨rfl, rfl⟩ := hf
    refine ⟨h.goto (by simpa [At] using hat) (fun j e => ?_) _ _, by simp, by simp,
      by simpa using hat, fun j e => (hends j e).trans ?_⟩
    · cases e <;> simp [Holds]
    · cases e
      · simp [Holds]
        omega
      · simp [Holds]

lemma Placed.wait (h : Placed k n) (hn : n.pc = .espera) : Placed k { n with pc := .sale } := by
  refine h.goto (by simp [At]) (fun j e => ?_) _ _
  rw [hn]
  cases e <;> simp [Holds]

/-! ### The order of the chain -/

/-- A step of a process that is not the end of its input does not matter to its parent. -/
lemma Follows.keep (h : Follows w (some n)) (hd : n'.pc.drained = true → n.pc.drained = true)
    (hfin : n.pc ≠ .fin) : Follows w (some n') := by
  obtain ⟨hw, hdr, hgone⟩ := h
  exact ⟨hw, fun h => hdr (hd h), fun h => absurd (hgone h) hfin⟩

lemma act_drained (ha : act b max k n = some (written, n')) :
    (n'.pc.drained = true → n.pc.drained = true ∨ n.pc.inMain = true) ∧ n.pc ≠ .fin := by
  obtain ⟨pc, ends, queue, buf⟩ := n
  cases pc <;> simp [TPFork.act] at ha ⊢
  all_goals obtain ⟨-, rfl⟩ := ha; simp [Node.pipe, Node.close]

/-- What a process does on its own does not matter to its child. -/
lemma Follows.act {o : Option Node} (h : Follows n o) (ha : act b max k n = some (written, n')) :
    Follows n' o := by
  obtain ⟨pc, ends, queue, buf⟩ := n
  cases o with
  | none =>
    cases pc <;> simp [TPFork.act, Follows] at ha h
    all_goals obtain ⟨-, rfl⟩ := ha; simpa [Follows, Node.pipe, Node.close] using h
  | some m =>
    obtain ⟨hforked, hdrained, hgone⟩ := h
    cases pc <;> simp [TPFork.act] at ha hforked hdrained hgone
    case escribe => obtain ⟨-, -, rfl⟩ := ha; simp [Follows, hdrained]
    all_goals obtain ⟨-, rfl⟩ := ha; simp [Follows, Node.close, hdrained, hgone]

lemma Follows.write {o : Option Node} (h : Follows n o) (hw : writes max n.pc = some (num, pc))
    (queue : List ℕ) : Follows { n with pc := pc, queue := queue } o := by
  obtain ⟨npc, ends, q, buf⟩ := n
  cases o with
  | none => cases npc <;> simp [writes, Follows] at hw h
  | some m =>
    obtain ⟨hforked, hdrained, hgone⟩ := h
    cases npc <;> simp [writes] at hw hdrained hgone
    case escribe =>
      obtain ⟨-, -, rfl⟩ := hw
      split <;> simp [Follows, hdrained]
    case escribeNum =>
      obtain ⟨-, rfl⟩ := hw
      simp [Follows, hdrained]

lemma writes_pc (hw : writes max n.pc = some (num, pc)) : pc.drained = false ∧ n.pc ≠ .fin := by
  obtain ⟨npc, ends, q, buf⟩ := n
  cases npc <;> simp [writes] at hw ⊢
  case escribe i =>
    obtain ⟨-, -, rfl⟩ := hw
    by_cases hi : i = intMax <;> simp [hi]
  case escribeNum => obtain ⟨-, rfl⟩ := hw; simp

lemma reads_pc (hr : reads n.pc = some next) (num : ℕ) :
    n.pc.drained = false ∧ n.pc ≠ .fin ∧ (next (some num)).drained = false := by
  obtain ⟨npc, ends, q, buf⟩ := n
  cases npc <;> simp [reads] at hr ⊢
  case leePrimo => obtain rfl := hr; simp
  case leeNum primo =>
    obtain rfl := hr
    by_cases hnum : num % primo = 0 <;> simp [hnum]

lemma Follows.read {o : Option Node} (h : Follows n o) (hr : reads n.pc = some next)
    (r : Option ℕ) : Follows { n with pc := next r } o := by
  obtain ⟨npc, ends, q, buf⟩ := n
  cases o with
  | none =>
    cases npc <;> simp [reads, Follows] at hr h
    case leePrimo => obtain rfl := hr; cases r <;> simp [Follows, h]
  | some m =>
    obtain ⟨hforked, hdrained, hgone⟩ := h
    cases npc <;> simp [reads] at hr hforked hdrained hgone
    case leeNum =>
      obtain rfl := hr
      cases r with
      | none => simp [Follows, hdrained]
      | some num => dsimp only; split <;> simp [Follows, hdrained]

/-- A process that is not at its end has a parent that is waiting at the latest. -/
lemma Follows.not_gone (h : Follows w (some n)) (hfin : n.pc ≠ .fin) : w.pc.gone = false := by
  cases hg : w.pc.gone with
  | false => rfl
  | true => exact absurd (h.2.2 hg) hfin

/-- The end of a pipe is read when its process has closed it. -/
lemma Follows.closed (h : Follows w (some n)) (hp : Placed k w)
    (hends : w.ends k .escritura = false) : w.pc.closed = true := by
  have hown : w.pc.ownWrite = false := by
    cases hown : w.pc.ownWrite with
    | false => rfl
    | true =>
      have hopen := (hp.ends k .escritura).mpr (.inl ⟨rfl, hown⟩)
      rw [hends] at hopen
      cases hopen
  obtain ⟨hforked, hvacio⟩ := h.1
  obtain ⟨pc, ends, q, buf⟩ := w
  cases pc <;> simp at hown hforked hvacio ⊢

lemma forks_pc (hf : forks n.pc = some (padre, hijo)) :
    padre.drained = false ∧ padre.young = false ∧ padre.gone = false ∧ hijo.young = true ∧
      n.pc ≠ .fin := by
  obtain ⟨npc, ends, q, buf⟩ := n
  cases npc <;> simp [forks] at hf ⊢
  case forkActual => obtain ⟨rfl, rfl⟩ := hf; simp
  case forkNuevo => obtain ⟨rfl, rfl⟩ := hf; simp

lemma drained_of_young (h : pc.young = true) : pc.drained = false := by
  cases pc <;> simp at h ⊢

/-- Every step keeps the order of the chain. -/
lemma Ordered.step (ho : Ordered s) (hst : Step c max s i t) : Ordered t := by
  obtain ⟨hne, hplaced, hchained⟩ := ho
  cases hst with
  | @act pre post n n' output written ha =>
    simp only [allFrom_append, allFrom_cons, Nat.zero_add] at hplaced
    refine ⟨by simp, ?_, hchained.replace (fun w hw h => ?_) (fun h => ⟨h.1.act ha, h.2⟩)⟩
    · simp only [allFrom_append, allFrom_cons, Nat.zero_add]
      exact ⟨hplaced.1, hplaced.2.1.act ha, hplaced.2.2⟩
    · obtain ⟨hd, hfin⟩ := act_drained ha
      refine Follows.keep h (fun h => (hd h).resolve_right fun hmain => ?_) hfin
      have hlen := hplaced.2.1.main hmain
      rw [List.length_eq_zero_iff] at hlen
      rw [hlen] at hw
      exact absurd hw List.not_mem_nil
  | @write pre post n output num pc hw hopen hroom hreader =>
    simp only [allFrom_append, allFrom_cons, Nat.zero_add] at hplaced
    obtain ⟨hd, hfin⟩ := writes_pc hw
    refine ⟨by simp, ?_, hchained.replace (fun w _ h => Follows.keep h (fun h => ?_) hfin)
      (fun h => ⟨h.1.write hw _, h.2⟩)⟩
    · simp only [allFrom_append, allFrom_cons, Nat.zero_add]
      exact ⟨hplaced.1, hplaced.2.1.write hw _, hplaced.2.2⟩
    · rw [hd] at h
      cases h
  | @read pre post w n output q num next hr hopen hq =>
    simp only [allFrom_append, allFrom_cons, Nat.zero_add] at hplaced
    obtain ⟨-, hfin, hd⟩ := reads_pc hr num
    refine ⟨by simp, ?_, hchained.replace (fun v _ h => h) (fun h => ⟨?_, h.2.1.read hr _, h.2.2⟩)⟩
    · simp only [allFrom_append, allFrom_cons, Nat.zero_add]
      obtain ⟨hw, hn, hpost⟩ := hplaced.2
      exact ⟨hplaced.1, ⟨hw.main, hw.primes, hw.child, hw.ends⟩, hn.read hr _, hpost⟩
    · have hw : Follows w (some { n with pc := next (some num) }) :=
        h.1.keep (fun h => by rw [hd] at h; cases h) hfin
      refine ⟨hw.1, fun h => ?_, hw.2.2⟩
      rw [hd] at h
      cases h
  | @eof pre post w n output next hr hopen hq hclosed =>
    simp only [allFrom_append, allFrom_cons, Nat.zero_add] at hplaced
    obtain ⟨-, hfin, -⟩ := reads_pc hr 0
    refine ⟨by simp, ?_, hchained.replace (fun v _ h => h) (fun h => ⟨?_, h.2.1.read hr _, h.2.2⟩)⟩
    · simp only [allFrom_append, allFrom_cons, Nat.zero_add]
      obtain ⟨hw, hn, hpost⟩ := hplaced.2
      exact ⟨hplaced.1, hw, hn.read hr _, hpost⟩
    · have hends := hclosed w (by simp)
      refine ⟨h.1.1, fun _ => ⟨Follows.closed h.1 hplaced.2.1 hends, hq⟩, fun hg => ?_⟩
      rw [Follows.not_gone h.1 hfin] at hg
      cases hg
  | @fork pre n output padre hijo hf =>
    simp only [allFrom_append, allFrom_cons, Nat.zero_add, allFrom_nil, and_true] at hplaced
    obtain ⟨hd, hyoung, hgone, hchild, hfin⟩ := forks_pc hf
    refine ⟨by simp, ?_, hchained.replace (fun w _ h => Follows.keep h (fun h => ?_) hfin)
      (fun h => ⟨?_, ⟨.inl hchild, rfl⟩, trivial⟩)⟩
    · simp only [allFrom_append, allFrom_cons, Nat.zero_add, allFrom_nil, and_true]
      exact ⟨hplaced.1, hplaced.2.fork hf⟩
    · rw [hd] at h
      cases h
    · refine ⟨⟨hyoung, fun hvacio => ?_⟩, fun h => ?_, fun h => ?_⟩
      · obtain rfl : padre = .cierraVacio := hvacio
        cases hd
      · rw [drained_of_young hchild] at h
        cases h
      · rw [hgone] at h
        cases h
  | @wait pre post n m output hn hm =>
    simp only [allFrom_append, allFrom_cons, Nat.zero_add] at hplaced
    refine ⟨by simp, ?_, hchained.replace (fun w _ h => Follows.keep h (fun _ => by rw [hn]; rfl)
      (by rw [hn]; simp)) (fun h => ⟨?_, h.2⟩)⟩
    · simp only [allFrom_append, allFrom_cons, Nat.zero_add]
      exact ⟨hplaced.1, hplaced.2.1.wait hn, hplaced.2.2⟩
    · exact ⟨⟨rfl, by simp⟩, fun hd => ⟨rfl, (h.1.2.1 hd).2⟩, fun _ => hm⟩

lemma ordered_arranque : Ordered arranque where
  ne := by simp [arranque]
  placed := by
    refine ⟨⟨by simp, by simp, by simp, fun j e => ?_⟩, trivial⟩
    cases e <;> simp [Holds]
  chained := ⟨⟨.inl rfl, rfl⟩, trivial⟩

lemma Ordered.of_run (hr : Corrida c max h s) : Ordered s := by
  refine hr.induct (G := fun _ _ => True) (fun _ _ => trivial) (fun _ s => Ordered s) ?_ ?_
  · rintro s rfl
    exact ordered_arranque
  · intro h s i t ho _ hst
    exact ho.step hst

/-! ### Progress -/

variable {pre post : List Node} {output : List ℕ}

lemma reads_cases (hr : reads n.pc = some next) :
    n.pc.inPrimes = true ∧ n.pc.inRead = true ∧ n.pc.inWrite = false := by
  obtain ⟨npc, ends, q, buf⟩ := n
  cases npc <;> simp [reads] at hr ⊢

/-- Only a process and its child can have the end for writing of its pipe. -/
lemma closed_of_not_ownWrite (hp : AllFrom Placed 0 (pre ++ w :: n :: post))
    (hw : w.pc.ownWrite = false) (hn : n.pc.inWrite = false) :
    ∀ m ∈ pre ++ w :: n :: post, m.ends pre.length .escritura = false := by
  simp only [allFrom_append, allFrom_cons, Nat.zero_add] at hp
  obtain ⟨hpre, hpw, hpn, hpost⟩ := hp
  have hfalse : ∀ j m, Placed j m → ¬Holds j m.pc pre.length .escritura →
      m.ends pre.length .escritura = false := by
    intro j m hm hnot
    rw [← hm.ends, Bool.not_eq_true] at hnot
    exact hnot
  intro m hm
  rcases List.mem_append.mp hm with hm | hm
  · obtain ⟨j, -, hlt, hj⟩ := hpre.mem hm
    apply hfalse j m hj
    rintro (⟨heq, -⟩ | ⟨heq, -⟩)
    · omega
    · omega
  rcases List.mem_cons.mp hm with rfl | hm
  · apply hfalse _ m hpw
    rintro (⟨-, hown⟩ | ⟨heq, -⟩)
    · rw [hw] at hown
      cases hown
    · omega
  rcases List.mem_cons.mp hm with rfl | hm
  · apply hfalse _ m hpn
    rintro (⟨heq, -⟩ | ⟨-, hin⟩)
    · omega
    · rw [hn] at hin
      cases hin
  · obtain ⟨j, hle, -, hj⟩ := hpost.mem hm
    apply hfalse j m hj
    rintro (⟨heq, -⟩ | ⟨heq, -⟩)
    · omega
    · omega

/-- When a process waits for input, some process can take a step: if its parent cannot write, it
waits for input, too. -/
lemma Ordered.step_of_reads (ho : Ordered ⟨pre ++ n :: post, output⟩)
    (hover : ∀ m ∈ pre ++ n :: post, m.pc ≠ .desborda) (hr : reads n.pc = some next) :
    ∃ i t, Step c max ⟨pre ++ n :: post, output⟩ i t := by
  induction pre using List.reverseRecOn generalizing n post next with
  | nil =>
    have hle := ho.placed.1.primes (reads_cases hr).1
    omega
  | append_singleton pre w ih =>
    obtain ⟨hne, hplaced, hchained⟩ := ho
    rw [List.append_assoc, List.singleton_append] at hplaced hchained hover ⊢
    have hopen : n.ends pre.length .lectura = true := by
      simp only [allFrom_append, allFrom_cons, Nat.zero_add] at hplaced
      exact (hplaced.2.2.1.ends _ .lectura).mpr (.inl ⟨rfl, (reads_cases hr).2.1⟩)
    cases hq : w.queue with
    | cons num q => exact ⟨_, _, .read hr hopen hq⟩
    | nil =>
      cases hown : w.pc.ownWrite with
      | false =>
        exact ⟨_, _, .eof hr hopen hq (closed_of_not_ownWrite hplaced hown (reads_cases hr).2.2)⟩
      | true =>
        -- the parent is not done with its pipe, and has forked
        have hforked := hchained.right.1.1.1
        have hpw := hplaced
        simp only [allFrom_append, allFrom_cons, Nat.zero_add] at hpw
        have hwend : w.ends pre.length .escritura = true :=
          (hpw.2.1.ends _ .escritura).mpr (.inl ⟨rfl, hown⟩)
        have hwrite : ∀ num pc, writes max w.pc = some (num, pc) →
            ∃ i t, Step c max ⟨pre ++ w :: n :: post, output⟩ i t := fun num pc hw =>
          ⟨_, _, .write hw hwend (by rw [hq]; exact c.pos) ⟨n, by simp, hopen⟩⟩
        have hact : ∀ r, act c.buffering max pre.length w = some r →
            ∃ i t, Step c max ⟨pre ++ w :: n :: post, output⟩ i t := fun r hr =>
          ⟨_, _, .act hr⟩
        cases hpc : w.pc with
        | cierraLectura | cierraEscritura | cierraNuevaLectura | cierraLecturaFinal =>
          exact hact _ (by simp only [act, hpc]; rfl)
        | escribe i =>
          by_cases hi : i ≤ max
          · exact hwrite _ _ (by rw [hpc]; exact if_pos hi)
          · exact hact _ (by simp only [act, hpc]; exact if_neg hi)
        | escribeNum primo num => exact hwrite _ _ (by rw [hpc]; rfl)
        | desborda => exact absurd hpc (hover w (by simp))
        | leeNum primo =>
          have hreads : ∃ next, reads w.pc = some next := ⟨_, by rw [hpc]; rfl⟩
          obtain ⟨next', hnext⟩ := hreads
          exact ih ⟨by simp, hplaced, hchained⟩ hover hnext
        | _ =>
          rw [hpc] at hforked hown
          simp at hforked hown

/-- While a process has not ended, some process can take a step. -/
lemma Ordered.progress (ho : Ordered s) (hover : ∀ n ∈ s.nodes, n.pc ≠ .desborda)
    (hrun : ∃ n ∈ s.nodes, n.pc ≠ .fin) : ∃ i t, Step c max s i t := by
  obtain ⟨nodes, output⟩ := s
  obtain ⟨pre, n, post, hnodes, hn, hpost⟩ := exists_last hrun
  dsimp only at hnodes
  subst hnodes
  have hfollows : Follows n post.head? := ho.chained.right.1
  have hact : ∀ r, act c.buffering max pre.length n = some r →
      ∃ i t, Step c max ⟨pre ++ n :: post, output⟩ i t := fun r hr => ⟨_, _, .act hr⟩
  have hhead : ∀ m, post.head? = some m → m.pc = .fin := fun m hm =>
    not_not.mp (hpost m (List.mem_of_mem_head? hm))
  -- a process that has not closed its pipe has no child: it would not have ended
  have hlast : n.pc.closed = false → post = [] := by
    intro hclosed
    cases post with
    | nil => rfl
    | cons m post =>
      have hc := (hfollows.2.1 (by rw [hhead m rfl]; rfl)).1
      rw [hclosed] at hc
      cases hc
  have hreads : ∀ next, reads n.pc = some next →
      ∃ i t, Step c max ⟨pre ++ n :: post, output⟩ i t := fun _ hr => ho.step_of_reads hover hr
  cases hpc : n.pc with
  | pipeInicial | cierraLectura | soyHijo | cierraVacio | printfPrimo | pipeNuevo |
      cierraNuevaLectura | cierraLecturaFinal | hijoCierraEscritura | hijoCierraLectura |
      cierraEscritura | sale =>
    exact hact _ (by simp only [act, hpc]; rfl)
  | forkActual | forkNuevo =>
    obtain rfl := hlast (by rw [hpc]; rfl)
    exact ⟨_, _, .fork (by rw [hpc]; rfl)⟩
  | leePrimo | leeNum => exact hreads _ (by rw [hpc]; rfl)
  | escribe i =>
    by_cases hi : i ≤ max
    · obtain rfl := hlast (by rw [hpc]; rfl)
      simp [Follows, hpc] at hfollows
    · exact hact _ (by simp only [act, hpc]; exact if_neg hi)
  | escribeNum primo num =>
    obtain rfl := hlast (by rw [hpc]; rfl)
    simp [Follows, hpc] at hfollows
  | espera =>
    cases post with
    | nil => simp [Follows, hpc] at hfollows
    | cons m post => exact ⟨_, _, .wait hpc (hhead m rfl)⟩
  | desborda => exact absurd hpc (hover n (by simp))
  | fin => exact absurd hpc hn

end SistemasOperativos.TPFork
