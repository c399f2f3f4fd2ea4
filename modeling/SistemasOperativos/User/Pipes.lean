import Mathlib.Logic.Function.Basic
import SistemasOperativos.User.Sh

/-!
# The descriptors of a pipeline

The processes of a command line of the JOS shell on tables of descriptors. Process `i` of a line is
the one that is the child of the first `i` calls of `fork` and the parent of the next one, and
spawned commands inherit its table.
-/

namespace SistemasOperativos.User

/-- An open file: what the shell had, the file of a redirection, or an end of pipe `j` of the line. -/
inductive Desc
  | other (n : ℕ)
  | file (path : List Char) (write : Bool)
  | pipeEnd (j : ℕ) (write : Bool)

/-- The table of a process, how many pipes it has made, and how many forks are still to return 0. -/
structure Shell where
  table : ℕ → Option Desc
  pipes : ℕ
  forks : ℕ

def maxfd : ℕ := 32

/-- `fd_alloc`. -/
def fdAlloc (table : ℕ → Option Desc) : Option ℕ := (List.range maxfd).find? fun fd => (table fd).isNone

def Shell.set (st : Shell) (fd : ℕ) (x : Option Desc) : Shell :=
  { st with table := Function.update st.table fd x }

/-- `open` of a file that there is. -/
def Shell.openFile (st : Shell) (path : List Char) (write : Bool) : ℤ × Shell :=
  match fdAlloc st.table with
  | none => (-10, st)
  | some fd => (fd, st.set fd (some (.file path write)))

/-- `pipe`. -/
def Shell.pipe (st : Shell) : Option (ℤ × ℤ) × Shell :=
  match fdAlloc st.table with
  | none => (none, st)
  | some p0 =>
    let st' := st.set p0 (some (.pipeEnd st.pipes false))
    match fdAlloc st'.table with
    | none => (none, st)
    | some p1 =>
      (some (p0, p1), { st'.set p1 (some (.pipeEnd st.pipes true)) with pipes := st.pipes + 1 })

/-- The calls of `runcmd` on tables of descriptors. -/
def tableSys : Sys Shell where
  openRead st path := st.openFile path false
  openWrite st path := st.openFile path true
  dup st fd n :=
    match st.table fd.toNat with
    | none => st
    | some d => st.set n.toNat (some d)
  close st fd := st.set fd.toNat none
  pipe st := st.pipe
  fork st := if st.forks = 0 then (1, st) else (0, { st with forks := st.forks - 1 })

/-- The table that the shell had. -/
def initial (had : ℕ → Option ℕ) : ℕ → Option Desc := fun fd => (had fd).map .other

/-- Process `i` of a line comes to spawn its command with this table. -/
def SpawnsWith (line : List Char) (had : ℕ → Option ℕ) (i : ℕ) (table : ℕ → Option Desc) : Prop :=
  ∃ argv st, runcmd tableSys line ⟨initial had, 0, i⟩ = .spawned i argv st ∧ st.table = table

/-- The files behind the symbol `c`. -/
def files (c : Char) : List Tok → List (List Char)
  | [] => []
  | .word _ :: toks => files c toks
  | .symbol d :: .word w :: toks => if d = c then w :: files c toks else files c toks
  | .symbol _ :: toks => files c toks

/-- The last file behind the symbol `c`, or `x` if there is none. -/
def lastFile (c : Char) (write : Bool) (seg : List Tok) (x : Option Desc) : Option Desc :=
  match (files c seg).getLast? with
  | some f => some (.file f write)
  | none => x

/-- `close_all`. -/
def closeAll (table : ℕ → Option Desc) : ℕ → Option Desc :=
  (List.range maxfd).foldl (fun table fd => Function.update table fd none) table

/-- What command `i` should have as descriptors 0 and 1, that it holds no other end of a pipe of the
line, and that the shell process, which has the same table, holds none after its `close_all`. So only
command `i` keeps the write end of pipe `i`. -/
structure WiredTo (segs : List (List Tok)) (had : ℕ → Option ℕ) (i : ℕ) (seg : List Tok)
    (table : ℕ → Option Desc) : Prop where
  input : table 0 =
    lastFile '<' false seg (if 0 < i then some (.pipeEnd (i - 1) false) else initial had 0)
  output : table 1 =
    lastFile '>' true seg (if i + 1 < segs.length then some (.pipeEnd i true) else initial had 1)
  only : ∀ fd j w, table fd = some (.pipeEnd j w) →
    w = false ∧ fd = 0 ∧ j + 1 = i ∨ w = true ∧ fd = 1 ∧ j = i
  closed : ∀ fd j w, closeAll table fd ≠ some (.pipeEnd j w)

/-- Command `i` has its descriptors. -/
def Wired (line : List Char) (had : ℕ → Option ℕ) (i : ℕ) (table : ℕ → Option Desc) : Prop :=
  ∃ seg, (segments (lex line))[i]? = some seg ∧ WiredTo (segments (lex line)) had i seg table

/-- Some command before number `i` has its output redirected. -/
def RedirectedBefore (segs : List (List Tok)) (i : ℕ) : Prop :=
  ∃ j < i, ∃ seg ∈ segs[j]?, files '>' seg ≠ []

/-- A command on the left of a pipe has no output file, and when the pipe is made descriptor 1 is
open or descriptor 0 is not; the last command has an output file or no other command has one. -/
def Wirable (line : List Char) (had : ℕ → Option ℕ) (i : ℕ) : Prop :=
  ∀ seg ∈ (segments (lex line))[i]?,
    if i + 1 < (segments (lex line)).length then
      files '>' seg = [] ∧ (had 1 ≠ none ∨ RedirectedBefore (segments (lex line)) i ∨
        i = 0 ∧ files '<' seg = [] ∧ had 0 = none)
    else files '>' seg ≠ [] ∨ ¬ RedirectedBefore (segments (lex line)) i

/-! ### Tables -/

/-- The table of the shell with other entries at 0 and 1. -/
def withStd (had : ℕ → Option ℕ) (x y : Option Desc) : ℕ → Option Desc
  | 0 => x
  | 1 => y
  | fd + 2 => initial had (fd + 2)

variable {σ : Type} {had : ℕ → Option ℕ} {x y : Option Desc} {n m fd : ℕ} {d : Desc} {st : Shell}
  {table : ℕ → Option Desc}

lemma initial_eq (had : ℕ → Option ℕ) : initial had = withStd had (initial had 0) (initial had 1) := by
  funext fd
  match fd with
  | 0 => rfl
  | 1 => rfl
  | fd + 2 => rfl

lemma update_zero (x' : Option Desc) : Function.update (withStd had x y) 0 x' = withStd had x' y := by
  funext fd
  match fd with
  | 0 => rfl
  | 1 => rfl
  | fd + 2 => rfl

lemma update_one (y' : Option Desc) : Function.update (withStd had x y) 1 y' = withStd had x y' := by
  funext fd
  match fd with
  | 0 => rfl
  | 1 => rfl
  | fd + 2 => rfl

/-- `fd_alloc` gives the lowest free descriptor. -/
lemma fdAlloc_some (h : fdAlloc table = some fd) : table fd = none ∧ ∀ i < fd, table i ≠ none := by
  obtain ⟨hfree, -, hlow⟩ := List.find?_range_eq_some.mp h
  refine ⟨Option.isNone_iff_eq_none.mp hfree, fun i hi hnone => ?_⟩
  have hused := hlow i hi
  rw [hnone] at hused
  cases hused

/-- Closing a descriptor that was free before. -/
lemma update_free (hfree : table fd = none) (hne : fd ≠ n) (z : Option Desc) :
    Function.update (Function.update table n z) fd none = Function.update table n z := by
  funext i
  by_cases hi : i = fd
  · subst hi
    rw [Function.update_self, Function.update_of_ne hne, hfree]
  · rw [Function.update_of_ne hi]

/-- What was opened at a free descriptor goes to `n`, and nothing is left. -/
lemma move_opened (hfree : st.table fd = none) (d : Desc) (n : ℕ) :
    tableSys.move (st.set fd (some d)) fd n = st.set n (some d) := by
  unfold Sys.move
  by_cases h : fd = n
  · subst h
    rw [if_neg (not_not_intro rfl)]
  · have hne : (fd : ℤ) ≠ n := fun heq => h (Int.ofNat.inj heq)
    rw [if_pos hne]
    unfold tableSys Shell.set
    simp only [Int.toNat_natCast, Function.update_self]
    rw [Function.update_comm h, Function.update_idem, update_free hfree h]

/-- A redirection changes one of the two descriptors. -/
lemma move_openFile {path : List Char} {write : Bool} (h : ¬ (st.openFile path write).1 < 0) (n : ℕ) :
    tableSys.move (st.openFile path write).2 (st.openFile path write).1 n =
      st.set n (some (.file path write)) := by
  unfold Shell.openFile at h ⊢
  cases hfd : fdAlloc st.table with
  | none =>
    have hneg : (-10 : ℤ) < 0 := by decide
    rw [hfd] at h
    exact absurd hneg h
  | some fd => exact move_opened (fdAlloc_some hfd).1 _ n

/-- The two descriptors of a new pipe. -/
lemma pipe_some {p : ℤ × ℤ} {st' : Shell} (h : st.pipe = (some p, st')) : ∃ p0 p1 : ℕ,
    p = (↑p0, ↑p1) ∧ st.table p0 = none ∧ st.table p1 = none ∧ p0 < p1 ∧
      (∀ i < p0, st.table i ≠ none) ∧
      st' = { (st.set p0 (some (.pipeEnd st.pipes false))).set p1 (some (.pipeEnd st.pipes true)) with
        pipes := st.pipes + 1 } := by
  unfold Shell.pipe at h
  cases h0 : fdAlloc st.table with
  | none =>
    rw [h0] at h
    cases h
  | some p0 =>
    rw [h0] at h
    dsimp only at h
    cases h1 : fdAlloc (st.set p0 (some (.pipeEnd st.pipes false))).table with
    | none =>
      rw [h1] at h
      cases h
    | some p1 =>
      rw [h1] at h
      cases h
      obtain ⟨hfree0, hlow0⟩ := fdAlloc_some h0
      obtain ⟨hfree1, hlow1⟩ := fdAlloc_some h1
      have hne : p1 ≠ p0 := by
        rintro rfl
        unfold Shell.set at hfree1
        dsimp only at hfree1
        rw [Function.update_self] at hfree1
        cases hfree1
      have hfree1' : st.table p1 = none := by
        unfold Shell.set at hfree1
        dsimp only at hfree1
        rwa [Function.update_of_ne hne] at hfree1
      have hlt : p0 < p1 := by
        by_contra hnot
        exact hlow0 p1 (by omega) hfree1'
      exact ⟨p0, p1, rfl, hfree0, hfree1', hlt, hlow0, rfl⟩

/-- The right side of a pipe reads from it, and keeps nothing else. -/
lemma pipe_child {p0 p1 : ℕ} (hfree0 : st.table p0 = none) (hfree1 : st.table p1 = none)
    (hlt : p0 < p1) (r w : Desc) :
    tableSys.close (tableSys.move ((st.set p0 (some r)).set p1 (some w)) p0 0) p1 =
      st.set 0 (some r) := by
  have hp1 : p1 ≠ 0 := by omega
  have hne : p0 ≠ p1 := by omega
  unfold Sys.move
  by_cases h : p0 = 0
  · subst h
    rw [if_neg (by simp)]
    unfold tableSys Shell.set
    simp only [Int.toNat_natCast, Function.update_idem]
    rw [update_free hfree1 hp1]
  · have hne0 : (p0 : ℤ) ≠ 0 := by omega
    rw [if_pos hne0]
    unfold tableSys Shell.set
    simp only [Int.toNat_natCast, Int.toNat_zero, Function.update_self, Function.update_of_ne hne]
    congr 1
    funext i
    by_cases hi0 : i = 0
    · subst hi0
      rw [Function.update_of_ne hp1.symm, Function.update_of_ne (Ne.symm h), Function.update_self,
        Function.update_self]
    · rw [Function.update_of_ne hi0]
      by_cases hi1 : i = p1
      · subst hi1
        rw [Function.update_self, hfree1]
      · rw [Function.update_of_ne hi1]
        by_cases hip : i = p0
        · subst hip
          rw [Function.update_self, hfree0]
        · rw [Function.update_of_ne hip, Function.update_of_ne hi0, Function.update_of_ne hi1,
            Function.update_of_ne hip]

/-- The left side writes to it, unless the read end was opened as descriptor 1: then that is
closed in the end. -/
lemma pipe_parent {p0 p1 : ℕ} (hfree0 : st.table p0 = none) (hfree1 : st.table p1 = none)
    (hlt : p0 < p1) (r w : Desc) :
    tableSys.close (tableSys.move ((st.set p0 (some r)).set p1 (some w)) p1 1) p0 =
      st.set 1 (if p0 = 1 then none else some w) := by
  have hne : p0 ≠ p1 := by omega
  unfold Sys.move
  by_cases h : p1 = 1
  · subst h
    rw [if_neg (by simp), if_neg hne]
    unfold tableSys Shell.set
    simp only [Int.toNat_natCast]
    rw [Function.update_comm hne, Function.update_idem, update_free hfree0 hne]
  · have hne1 : (p1 : ℤ) ≠ 1 := by omega
    rw [if_pos hne1]
    unfold tableSys Shell.set
    simp only [Int.toNat_natCast, Int.toNat_one, Function.update_self]
    congr 1
    funext i
    by_cases hi0 : i = p0
    · subst hi0
      rw [Function.update_self]
      by_cases hi1 : i = 1
      · rw [if_pos hi1, hi1, Function.update_self]
      · rw [Function.update_of_ne hi1, hfree0]
    · rw [Function.update_of_ne hi0]
      by_cases hip : i = p1
      · subst hip
        rw [Function.update_self, Function.update_of_ne h, hfree1]
      · rw [Function.update_of_ne hip]
        by_cases hi1 : i = 1
        · subst hi1
          rw [Function.update_self, Function.update_self, if_neg (Ne.symm hi0)]
        · rw [Function.update_of_ne hi1, Function.update_of_ne hi1, Function.update_of_ne hip,
            Function.update_of_ne hi0]

/-! ### The processes of a line -/

lemma files_cons (c : Char) (f : List Char) (toks : List Tok) :
    files c (.symbol c :: .word f :: toks) = f :: files c toks := by
  conv_lhs => unfold files
  rw [if_pos rfl]

lemma lastFile_cons (c : Char) (write : Bool) (f : List Char) (toks : List Tok) (x : Option Desc) :
    lastFile c write (.symbol c :: .word f :: toks) x =
      lastFile c write toks (some (.file f write)) := by
  unfold lastFile
  rw [files_cons, List.getLast?_cons]
  cases (files c toks).getLast? with
  | none => rfl
  | some g => rfl

lemma lastFile_other {c d : Char} (h : d ≠ c) (write : Bool) (f : List Char) (toks : List Tok)
    (x : Option Desc) :
    lastFile c write (.symbol d :: .word f :: toks) x = lastFile c write toks x := by
  unfold lastFile
  conv_lhs => unfold files
  rw [if_neg h]

lemma lastFile_word (c : Char) (write : Bool) (w : List Char) (toks : List Tok) (x : Option Desc) :
    lastFile c write (.word w :: toks) x = lastFile c write toks x := by
  unfold lastFile
  conv_lhs => unfold files

lemma lastFile_nil {c : Char} {seg : List Tok} (h : files c seg = []) (write : Bool)
    (x : Option Desc) : lastFile c write seg x = x := by
  unfold lastFile
  rw [h]
  rfl

lemma lastFile_file {c : Char} {seg : List Tok} (h : files c seg ≠ []) (write : Bool) :
    ∃ f, ∀ x, lastFile c write seg x = some (.file f write) := by
  obtain ⟨f, hf⟩ := Option.isSome_iff_exists.mp (List.getLast?_isSome.mpr h)
  refine ⟨f, fun x => ?_⟩
  unfold lastFile
  rw [hf]

/-- The redirections of a command change the first two descriptors only. -/
lemma redirect_table {seg : List Tok} (hform : wellFormed seg = true) {st' : Shell}
    (h : redirect tableSys seg ⟨withStd had x y, n, m⟩ = some st') :
    st' = ⟨withStd had (lastFile '<' false seg x) (lastFile '>' true seg y), n, m⟩ := by
  induction seg using argWords.induct generalizing x y with
  | case1 =>
    cases h
    rfl
  | case2 w toks ih =>
    rw [lastFile_word, lastFile_word]
    exact ih hform h
  | case3 c file toks ih =>
    obtain ⟨hc, hform'⟩ := eq_of_wellFormed hform
    rcases hc with rfl | rfl
    · rw [redirect_read] at h
      by_cases hfd : (tableSys.openRead ⟨withStd had x y, n, m⟩ file).1 < 0
      · rw [if_pos hfd] at h
        cases h
      · have hmove := move_openFile hfd 0
        unfold Shell.set at hmove
        dsimp only at hmove
        rw [update_zero] at hmove
        rw [if_neg hfd] at h
        rw [lastFile_cons, lastFile_other (by decide)]
        refine ih hform' (Eq.trans ?_ h)
        exact congrArg (redirect tableSys toks) hmove.symm
    · rw [redirect_write] at h
      by_cases hfd : (tableSys.openWrite ⟨withStd had x y, n, m⟩ file).1 < 0
      · rw [if_pos hfd] at h
        cases h
      · have hmove := move_openFile hfd 1
        unfold Shell.set at hmove
        dsimp only at hmove
        rw [update_one] at hmove
        rw [if_neg hfd] at h
        rw [lastFile_cons, lastFile_other (by decide)]
        refine ih hform' (Eq.trans ?_ h)
        exact congrArg (redirect tableSys toks) hmove.symm
  | case4 c toks hne ih =>
    rw [not_wellFormed hne] at hform
    cases hform

/-- Where a process spawns something, it had no error and not too many words. -/
lemma clear_of_spawned {sys : Sys σ} {seg tail : List Tok} {words argv : List (List Char)} {k k' : ℕ}
    {st st' : σ} (htail : ∀ w rest, tail ≠ .word w :: rest) (hbar : .symbol '|' ∉ seg)
    (hwords : words.length ≤ maxargs)
    (h : tokRun sys (seg ++ tail) k words st = .spawned k' argv st') :
    wellFormed seg = true ∧ (words ++ argWords seg).length ≤ maxargs := by
  by_contra hbad
  have hstop : Stopped (tokRun sys (seg ++ tail) k words st) :=
    stopped_segment htail hbar hwords hbad
  rw [h] at hstop
  exact hstop

lemma spawnWords_spawned {words argv : List (List Char)} {k k' : ℕ} {st st' : σ}
    (h : spawnWords k words st = .spawned k' argv st') : k' = k ∧ st' = st := by
  cases words with
  | nil => cases h
  | cons name args =>
    unfold spawnWords at h
    dsimp only at h
    split at h
    · cases h
    split at h
    · cases h
    · cases h
      exact ⟨rfl, rfl⟩

lemma redirectedBefore_succ {first : List Tok} {others : List (List Tok)} {i : ℕ} :
    RedirectedBefore (first :: others) (i + 1) ↔ files '>' first ≠ [] ∨ RedirectedBefore others i := by
  constructor
  · rintro ⟨j, hj, seg, hseg, hfile⟩
    cases j with
    | zero =>
      cases hseg
      exact .inl hfile
    | succ j => exact .inr ⟨j, by omega, seg, hseg, hfile⟩
  · rintro (hfile | ⟨j, hj, seg, hseg, hfile⟩)
    · exact ⟨0, by omega, first, rfl, hfile⟩
    · exact ⟨j + 1, by omega, seg, hseg, hfile⟩

/-- Descriptor 1 of the process that comes to command `i`, before its redirections: what the first
one had, until some command has an output file. -/
inductive Carried (segs : List (List Tok)) (i : ℕ) (y : Option Desc) : Option Desc → Prop
  | same (h : ¬ RedirectedBefore segs i) : Carried segs i y y
  | file (h : RedirectedBefore segs i) (f : List Char) : Carried segs i y (some (.file f true))

lemma carried_succ {first : List Tok} {others : List (List Tok)} {i : ℕ} {y y' : Option Desc}
    (h : Carried others i (lastFile '>' true first y) y') : Carried (first :: others) (i + 1) y y' := by
  by_cases hfile : files '>' first = []
  · rw [lastFile_nil hfile] at h
    cases h with
    | same hnot => exact .same fun hbefore =>
        (redirectedBefore_succ.mp hbefore).elim (fun hne => hne hfile) hnot
    | file hbefore f => exact .file (redirectedBefore_succ.mpr (.inr hbefore)) f
  · obtain ⟨f, hf⟩ := lastFile_file hfile true
    rw [hf] at h
    have hbefore := redirectedBefore_succ.mpr (.inl hfile : _ ∨ RedirectedBefore others i)
    cases h with
    | same _ => exact .file hbefore f
    | file _ g => exact .file hbefore g

/-- The table of the left side of pipe `k`: the write end is lost where the read end was opened as
descriptor 1. -/
def leftEnd (k : ℕ) (x y : Option Desc) : Option Desc :=
  if x ≠ none ∧ y = none then none else some (.pipeEnd k true)

/-- Both processes after a pipe. -/
lemma pipe_table {p : ℤ × ℤ} {st' : Shell}
    (h : tableSys.pipe ⟨withStd had x y, n, m⟩ = (some p, st')) (m' : ℕ) :
    tableSys.close (tableSys.move { st' with forks := m' } p.1 0) p.2 =
        ⟨withStd had (some (.pipeEnd n false)) y, n + 1, m'⟩ ∧
      tableSys.close (tableSys.move { st' with forks := m' } p.2 1) p.1 =
        ⟨withStd had x (leftEnd n x y), n + 1, m'⟩ := by
  obtain ⟨p0, p1, rfl, hfree0, hfree1, hlt, hlow, rfl⟩ := pipe_some h
  let st : Shell := ⟨withStd had x y, n + 1, m'⟩
  constructor
  · refine (pipe_child (by exact hfree0 : st.table p0 = none) hfree1 hlt _ _).trans ?_
    unfold Shell.set
    rw [update_zero]
  · refine (pipe_parent (by exact hfree0 : st.table p0 = none) hfree1 hlt _ _).trans ?_
    unfold Shell.set
    rw [update_one]
    have hiff : p0 = 1 ↔ x ≠ none ∧ y = none := by
      constructor
      · rintro rfl
        exact ⟨hlow 0 (by decide), hfree0⟩
      · rintro ⟨hx, hy⟩
        have hne : p0 ≠ 0 := by
          rintro rfl
          exact hx hfree0
        by_contra hne1
        exact hlow 1 (by omega) hy
    unfold leftEnd
    rw [if_congr hiff rfl rfl]

/-- A process at a pipe. -/
lemma tokRun_pipe_table (toks : List Tok) (k : ℕ) (words : List (List Char)) :
    tokRun tableSys (.symbol '|' :: toks) k words ⟨withStd had x y, n, m⟩ = .pipeFailed ∨
    tokRun tableSys (.symbol '|' :: toks) k words ⟨withStd had x y, n, m⟩ =
      if m = 0 then spawnWords k words ⟨withStd had x (leftEnd n x y), n + 1, 0⟩
      else tokRun tableSys toks (k + 1) [] ⟨withStd had (some (.pipeEnd n false)) y, n + 1, m - 1⟩ := by
  rw [tokRun_pipe]
  split
  · exact .inl rfl
  · rename_i p0 p1 st' hpipe
    right
    have hforks : st'.forks = m := by
      obtain ⟨-, -, -, -, -, -, -, rfl⟩ := pipe_some hpipe
      rfl
    have hfork : tableSys.fork st' = if m = 0 then (1, { st' with forks := 0 })
        else (0, { st' with forks := m - 1 }) := by
      subst hforks
      unfold tableSys
      dsimp only
      split
      · rename_i hzero
        rw [← hzero]
      · rfl
    rw [hfork]
    by_cases hzero : m = 0
    · rw [if_pos hzero, if_pos hzero]
      exact congrArg (spawnWords k words) (pipe_table hpipe 0).2
    · rw [if_neg hzero, if_neg hzero]
      exact congrArg (tokRun tableSys toks (k + 1) []) (pipe_table hpipe (m - 1)).1

/-- The table that command `i` is spawned with, from the one of the process that began with the first
of these commands. -/
structure Spawned (segs : List (List Tok)) (had : ℕ → Option ℕ) (k i : ℕ) (x y : Option Desc)
    (seg : List Tok) (x' y' : Option Desc) (table : ℕ → Option Desc) : Prop where
  segment : segs[i]? = some seg
  left : x' = if i = 0 then x else some (.pipeEnd (k + i - 1) false)
  carried : Carried segs i y y'
  table : table = withStd had (lastFile '<' false seg x')
    (if i + 1 < segs.length then leftEnd (k + i) (lastFile '<' false seg x') (lastFile '>' true seg y')
    else lastFile '>' true seg y')

lemma notRedirectedBefore_zero (segs : List (List Tok)) : ¬ RedirectedBefore segs 0 := by
  rintro ⟨j, hj, -⟩
  exact absurd hj (Nat.not_lt_zero j)

/-- By induction on the forks of which the process is the child. -/
lemma tokRun_spawned (i : ℕ) : ∀ {first : List Tok} {others : List (List Tok)} {k k' : ℕ}
    {x y : Option Desc} {argv : List (List Char)} {st : Shell},
    (∀ seg ∈ first :: others, .symbol '|' ∉ seg) →
    tokRun tableSys (first ++ bars others) k [] ⟨withStd had x y, k, i⟩ = .spawned k' argv st →
    k' = k + i → ∃ seg x' y', Spawned (first :: others) had k i x y seg x' y' st.table := by
  induction i with
  | zero =>
    intro first others k k' x y argv st hbar h hk'
    obtain ⟨hform, hlen⟩ :=
      clear_of_spawned (bars_ne_word others) (hbar first List.mem_cons_self) (Nat.zero_le _) h
    rw [tokRun_segment hform hlen] at h
    cases hred : redirect tableSys first ⟨withStd had x y, k, 0⟩ with
    | none =>
      rw [hred] at h
      cases h
    | some st' =>
      obtain rfl := redirect_table hform hred
      rw [hred] at h
      dsimp only at h
      refine ⟨first, x, y, rfl, rfl, .same (notRedirectedBefore_zero _), ?_⟩
      cases others with
      | nil =>
        obtain ⟨-, rfl⟩ := spawnWords_spawned h
        rfl
      | cons second others =>
        rw [bars_cons] at h
        rcases tokRun_pipe_table (second ++ bars others) k ([] ++ argWords first) with hpipe | hpipe
        · rw [hpipe] at h
          cases h
        · rw [hpipe, if_pos rfl] at h
          obtain ⟨-, rfl⟩ := spawnWords_spawned h
          rfl
  | succ i ih =>
    intro first others k k' x y argv st hbar h hk'
    obtain ⟨hform, hlen⟩ :=
      clear_of_spawned (bars_ne_word others) (hbar first List.mem_cons_self) (Nat.zero_le _) h
    rw [tokRun_segment hform hlen] at h
    cases hred : redirect tableSys first ⟨withStd had x y, k, i + 1⟩ with
    | none =>
      rw [hred] at h
      cases h
    | some st' =>
      obtain rfl := redirect_table hform hred
      rw [hred] at h
      dsimp only at h
      cases others with
      | nil =>
        -- no fork is left
        obtain ⟨rfl, -⟩ := spawnWords_spawned h
        omega
      | cons second others =>
        rw [bars_cons] at h
        rcases tokRun_pipe_table (second ++ bars others) k ([] ++ argWords first) with hpipe | hpipe
        · rw [hpipe] at h
          cases h
        · rw [hpipe, if_neg (Nat.succ_ne_zero i)] at h
          obtain ⟨seg, x', y', hseg, hleft, hcarried, htable⟩ :=
            ih (fun seg hmem => hbar seg (List.mem_cons_of_mem first hmem)) h (by omega)
          refine ⟨seg, x', y', hseg, ?_, carried_succ hcarried, ?_⟩
          · rw [hleft, if_neg (Nat.succ_ne_zero i)]
            split
            · rename_i hzero
              rw [hzero]
              rfl
            · congr 2
              omega
          · rw [htable]
            have hidx : k + 1 + i = k + (i + 1) := by omega
            rw [hidx]
            simp only [List.length_cons, Nat.add_lt_add_iff_right]

lemma closeAll_eq (table : ℕ → Option Desc) (fd : ℕ) :
    closeAll table fd = if fd < maxfd then none else table fd := by
  have hall : ∀ (l : List ℕ) (table : ℕ → Option Desc),
      l.foldl (fun table fd => Function.update table fd none) table fd =
        if fd ∈ l then none else table fd := by
    intro l
    induction l with
    | nil => exact fun table => rfl
    | cons i l ih =>
      intro table
      rw [List.foldl_cons, ih]
      by_cases hmem : fd ∈ l
      · rw [if_pos hmem, if_pos (List.mem_cons_of_mem i hmem)]
      · rw [if_neg hmem]
        by_cases hi : fd = i
        · subst hi
          rw [Function.update_self, if_pos List.mem_cons_self]
        · have hnot : fd ∉ i :: l := fun h => (List.mem_cons.mp h).elim hi hmem
          rw [Function.update_of_ne hi, if_neg hnot]
  unfold closeAll
  rw [hall, if_congr List.mem_range rfl rfl]

/-! ### Results -/

lemma lastFile_pipeEnd {c : Char} {write w : Bool} {seg : List Tok} {x : Option Desc} {j : ℕ}
    (h : lastFile c write seg x = some (.pipeEnd j w)) : x = some (.pipeEnd j w) := by
  by_cases hfile : files c seg = []
  · rwa [lastFile_nil hfile] at h
  · obtain ⟨f, hf⟩ := lastFile_file hfile write
    rw [hf] at h
    cases h

lemma initial_ne_pipeEnd (had : ℕ → Option ℕ) (fd j : ℕ) (w : Bool) :
    initial had fd ≠ some (.pipeEnd j w) := by
  unfold initial
  cases had fd with
  | none => exact nofun
  | some n => exact nofun

lemma carried_pipeEnd {segs : List (List Tok)} {i j : ℕ} {w : Bool} {y y' : Option Desc}
    (h : Carried segs i y y') (hy : y ≠ some (.pipeEnd j w)) : y' ≠ some (.pipeEnd j w) := by
  cases h with
  | same _ => exact hy
  | file _ f => exact nofun

/-- No end of a pipe is left anywhere else. -/
lemma only_of_spawned {segs : List (List Tok)} {had : ℕ → Option ℕ} {i : ℕ} {seg : List Tok}
    {x' y' : Option Desc} {table : ℕ → Option Desc}
    (h : Spawned segs had 0 i (initial had 0) (initial had 1) seg x' y' table) {fd j : ℕ} {w : Bool}
    (hfd : table fd = some (.pipeEnd j w)) :
    w = false ∧ fd = 0 ∧ j + 1 = i ∨ w = true ∧ fd = 1 ∧ j = i := by
  obtain ⟨-, hleft, hcarried, rfl⟩ := h
  match fd with
  | 0 =>
    left
    have hx : x' = some (.pipeEnd j w) := lastFile_pipeEnd hfd
    rw [hx] at hleft
    by_cases hzero : i = 0
    · rw [if_pos hzero] at hleft
      exact absurd hleft.symm (initial_ne_pipeEnd had 0 j w)
    · rw [if_neg hzero] at hleft
      cases hleft
      exact ⟨rfl, rfl, by omega⟩
  | 1 =>
    right
    have hy : ∀ j w, lastFile '>' true seg y' ≠ some (.pipeEnd j w) := fun j w heq =>
      carried_pipeEnd hcarried (initial_ne_pipeEnd had 1 j w) (lastFile_pipeEnd heq)
    unfold withStd at hfd
    dsimp only at hfd
    split at hfd
    · unfold leftEnd at hfd
      split at hfd
      · cases hfd
      · cases hfd
        exact ⟨rfl, rfl, Nat.zero_add i⟩
    · exact absurd hfd (hy j w)
  | fd + 2 => exact absurd hfd (initial_ne_pipeEnd had (fd + 2) j w)

lemma lastFile_eq_none {c : Char} {write : Bool} {seg : List Tok} {x : Option Desc} :
    lastFile c write seg x = none ↔ files c seg = [] ∧ x = none := by
  by_cases hfile : files c seg = []
  · rw [lastFile_nil hfile]
    exact ⟨fun h => ⟨hfile, h⟩, fun h => h.2⟩
  · obtain ⟨f, hf⟩ := lastFile_file hfile write
    rw [hf]
    exact ⟨nofun, fun h => absurd h.1 hfile⟩

lemma initial_eq_none {had : ℕ → Option ℕ} {fd : ℕ} : initial had fd = none ↔ had fd = none :=
  Option.map_eq_none_iff

lemma carried_eq_none {segs : List (List Tok)} {i : ℕ} {y y' : Option Desc}
    (h : Carried segs i y y') : y' = none ↔ ¬ RedirectedBefore segs i ∧ y = none := by
  cases h with
  | same hnot => exact ⟨fun h => ⟨hnot, h⟩, fun h => h.2⟩
  | file hbefore f => exact ⟨nofun, fun h => absurd hbefore h.1⟩

/-- Descriptor 1 on the left side of a pipe. -/
lemma output_left {seg : List Tok} {i : ℕ} {x y : Option Desc} :
    leftEnd i x (lastFile '>' true seg y) = lastFile '>' true seg (some (.pipeEnd i true)) ↔
      files '>' seg = [] ∧ (x = none ∨ y ≠ none) := by
  unfold leftEnd
  by_cases hfile : files '>' seg = []
  · rw [lastFile_nil hfile, lastFile_nil hfile]
    constructor
    · intro h
      refine ⟨hfile, ?_⟩
      by_contra hnot
      rw [not_or, not_not] at hnot
      rw [if_pos hnot] at h
      cases h
    · rintro ⟨-, hopen⟩
      rw [if_neg]
      rintro ⟨hx, hy⟩
      exact hopen.elim hx (fun hne => hne hy)
  · obtain ⟨f, hf⟩ := lastFile_file hfile true
    rw [hf, hf, if_neg (fun h => nomatch h.2)]
    exact ⟨nofun, fun h => absurd h.1 hfile⟩

/-- Descriptor 1 of the last command. -/
lemma output_last {segs : List (List Tok)} {had : ℕ → Option ℕ} {seg : List Tok} {i : ℕ}
    {y : Option Desc} (h : Carried segs i (initial had 1) y) :
    lastFile '>' true seg y = lastFile '>' true seg (initial had 1) ↔
      files '>' seg ≠ [] ∨ ¬ RedirectedBefore segs i := by
  by_cases hfile : files '>' seg = []
  · rw [lastFile_nil hfile, lastFile_nil hfile]
    cases h with
    | same hnot => exact ⟨fun _ => .inr hnot, fun _ => rfl⟩
    | file hbefore f =>
      constructor
      · intro heq
        unfold initial at heq
        cases hhad : had 1 with
        | none =>
          rw [hhad] at heq
          cases heq
        | some n =>
          rw [hhad] at heq
          cases heq
      · rintro (hne | hnot)
        · exact absurd hfile hne
        · exact absurd hbefore hnot
  · obtain ⟨f, hf⟩ := lastFile_file hfile true
    rw [hf, hf]
    exact ⟨fun _ => .inl hfile, fun _ => rfl⟩

lemma spawned_of_spawnsWith (line : ShLine) {had : ℕ → Option ℕ} {i : ℕ} {table : ℕ → Option Desc}
    (h : SpawnsWith line.text had i table) :
    ∃ seg x' y', Spawned (segments (lex line.text)) had 0 i (initial had 0) (initial had 1)
      seg x' y' table := by
  obtain ⟨argv, st, hrun, rfl⟩ := h
  obtain ⟨first, others, htoks, hsegs, hbar⟩ := segments_parts (lex line.text)
  rw [runcmd_eq _ line.noNul, htoks, initial_eq] at hrun
  rw [hsegs]
  exact tokRun_spawned i hbar hrun (Nat.zero_add i).symm

/-- A spawned command has its descriptors exactly if its pipe and the output files allow it. -/
theorem wired_iff (line : ShLine) (had : ℕ → Option ℕ) (i : ℕ) (table : ℕ → Option Desc)
    (h : SpawnsWith line.text had i table) :
    Wired line.text had i table ↔ Wirable line.text had i := by
  obtain ⟨seg, x', y', hsp⟩ := spawned_of_spawnsWith line h
  have honly : ∀ {fd j w}, table fd = some (.pipeEnd j w) →
      w = false ∧ fd = 0 ∧ j + 1 = i ∨ w = true ∧ fd = 1 ∧ j = i := fun hfd => only_of_spawned hsp hfd
  obtain ⟨hseg, hleft, hcarried, htable⟩ := hsp
  have hinput : x' = if 0 < i then some (.pipeEnd (i - 1) false) else initial had 0 := by
    rw [hleft, Nat.zero_add]
    by_cases hzero : i = 0
    · rw [if_pos hzero, if_neg (by omega)]
    · rw [if_neg hzero, if_pos (by omega)]
  have hclosed : ∀ fd j w, closeAll table fd ≠ some (.pipeEnd j w) := by
    intro fd j w heq
    rw [closeAll_eq] at heq
    split at heq
    · cases heq
    · rename_i hlarge
      unfold maxfd at hlarge
      rcases honly heq with ⟨-, hfd, -⟩ | ⟨-, hfd, -⟩
      · omega
      · omega
  -- so only the output is left
  have hwired : Wired line.text had i table ↔ table 1 = lastFile '>' true seg
      (if i + 1 < (segments (lex line.text)).length then some (.pipeEnd i true) else initial had 1) := by
    constructor
    · rintro ⟨seg', hseg', hto⟩
      rw [hseg] at hseg'
      cases hseg'
      exact hto.output
    · intro houtput
      refine ⟨seg, hseg, ?_, houtput, fun fd j w => honly, hclosed⟩
      rw [htable, ← hinput]
      rfl
  have hwirable : Wirable line.text had i ↔ if i + 1 < (segments (lex line.text)).length then
      files '>' seg = [] ∧ (had 1 ≠ none ∨ RedirectedBefore (segments (lex line.text)) i ∨
        i = 0 ∧ files '<' seg = [] ∧ had 0 = none)
      else files '>' seg ≠ [] ∨ ¬ RedirectedBefore (segments (lex line.text)) i := by
    constructor
    · intro hall
      exact hall seg hseg
    · intro hone seg' hseg'
      rw [hseg] at hseg'
      cases hseg'
      exact hone
  rw [hwired, hwirable, htable]
  unfold withStd
  dsimp only
  split
  · rw [Nat.zero_add, output_left, lastFile_eq_none, Ne, carried_eq_none hcarried, hinput,
      initial_eq_none]
    refine and_congr_right fun _ => ?_
    by_cases hzero : 0 < i
    · have hne : i ≠ 0 := by omega
      rw [if_pos hzero]
      simp only [reduceCtorEq, and_false, false_or, hne, false_and, or_false]
      rw [not_and_or, not_not, or_comm]
    · have heq : i = 0 := by omega
      rw [if_neg hzero, initial_eq_none]
      simp only [heq, true_and]
      rw [not_and_or, not_not, or_comm, or_assoc, or_left_comm]
  · exact output_last hcarried

/-- Descriptors 0 and 1 of a shell on the console. -/
def console : ℕ → Option ℕ
  | 0 => some 0
  | 1 => some 1
  | _ + 2 => none

/-- `a|b`. -/
def twoCommands : ShLine := ⟨['a', '|', 'b'], by decide, by decide⟩

lemma lex_twoCommands : lex twoCommands.text = [.word ['a'], .symbol '|', .word ['b']] := by
  rw [lex_some (show firstTok twoCommands.text = some (.word ['a'], ['|', 'b']) from rfl),
    lex_some (show firstTok ['|', 'b'] = some (.symbol '|', ['b']) from rfl),
    lex_some (show firstTok ['b'] = some (.word ['b'], []) from rfl), lex_none rfl]

theorem wired_twoCommands : ∃ table, SpawnsWith twoCommands.text console 1 table ∧
    (Wired twoCommands.text console 1 table ↔ Wirable twoCommands.text console 1) := by
  have hrun : ∃ argv st,
      runcmd tableSys twoCommands.text ⟨initial console, 0, 1⟩ = .spawned 1 argv st := by
    rw [runcmd_eq _ twoCommands.noNul, lex_twoCommands]
    exact ⟨_, _, rfl⟩
  obtain ⟨argv, st, hrun⟩ := hrun
  have hspawns : SpawnsWith twoCommands.text console 1 st.table := ⟨argv, st, hrun, rfl⟩
  exact ⟨st.table, hspawns, wired_iff twoCommands console 1 st.table hspawns⟩

/-- `a>f|b`. -/
def outputFile : ShLine := ⟨['a', '>', 'f', '|', 'b'], by decide, by decide⟩

lemma lex_outputFile :
    lex outputFile.text = [.word ['a'], .symbol '>', .word ['f'], .symbol '|', .word ['b']] := by
  rw [lex_some (show firstTok outputFile.text = some (.word ['a'], ['>', 'f', '|', 'b']) from rfl),
    lex_some (show firstTok ['>', 'f', '|', 'b'] = some (.symbol '>', ['f', '|', 'b']) from rfl),
    lex_some (show firstTok ['f', '|', 'b'] = some (.word ['f'], ['|', 'b']) from rfl),
    lex_some (show firstTok ['|', 'b'] = some (.symbol '|', ['b']) from rfl),
    lex_some (show firstTok ['b'] = some (.word ['b'], []) from rfl), lex_none rfl]

/-- The pipe takes the place of the output file. -/
theorem wired_fails : ¬ ∀ (line : ShLine) (had : ℕ → Option ℕ) (i : ℕ) (table : ℕ → Option Desc),
    SpawnsWith line.text had i table → Wired line.text had i table := by
  intro h
  have hrun : ∃ argv st, runcmd tableSys outputFile.text ⟨initial console, 0, 0⟩ = .spawned 0 argv st ∧
      st.table 1 = some (.pipeEnd 0 true) := by
    rw [runcmd_eq _ outputFile.noNul, lex_outputFile]
    exact ⟨_, _, rfl, rfl⟩
  obtain ⟨argv, st, hrun, htable⟩ := hrun
  obtain ⟨seg, hseg, hto⟩ := h outputFile console 0 st.table ⟨argv, st, hrun, rfl⟩
  have hfirst : (segments (lex outputFile.text))[0]? = some [.word ['a'], .symbol '>', .word ['f']] := by
    rw [lex_outputFile]
    rfl
  rw [hfirst] at hseg
  cases hseg
  have houtput := hto.output
  rw [htable] at houtput
  cases houtput

end SistemasOperativos.User
