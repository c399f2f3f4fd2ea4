import Mathlib.Logic.Function.Basic
import SistemasOperativos.Library.Getline

/-!
# `xargs`

`TPFork/xargs.c` collects the lines of its input in an array and runs a command for every `NARGS`
of them. The last character of a line is overwritten whatever it is.
-/

namespace SistemasOperativos.TPFork

open Library

def endLine : Char := '\n'

/-- An element of `args`; `junk` has not been set or has been freed. -/
inductive Arg
  | junk
  | null
  | str (s : List Char)

/-- The standard input. -/
structure Stream where
  chars : List Char
  noNul : '\x00' ∉ chars

/-- `args` and `contador`, how often `lanzar` was called, and the vectors that the commands have
got. -/
structure XargsState where
  args : ℕ → Arg
  contador : ℕ
  launched : ℕ
  runs : List (Option (List (List Char)))

/-- The strings from `args[i]` on up to the null pointer; `none` if the `left` elements up to the
end of the array have none, or something else before. -/
def argList (args : ℕ → Arg) : ℕ → ℕ → Option (List (List Char))
  | 0, _ => none
  | left + 1, i =>
    match args i with
    | .junk => none
    | .null => some []
    | .str s => (argList args left (i + 1)).map (s :: ·)

/-- `lanzar`; `forks` says which of its calls get a process. -/
def lanzar (nargs : ℕ) (forks : ℕ → Bool) (t : XargsState) : XargsState :=
  { t with
    launched := t.launched + 1
    runs := if forks t.launched then t.runs ++ [argList t.args (nargs + 2) 0] else t.runs }

def reiniciar (nargs : ℕ) (t : XargsState) : XargsState :=
  { t with
    args := fun i => if 1 ≤ i ∧ i < nargs + 1 then .junk else t.args i
    contador := 1 }

/-- A line goes into the array: `linea[strlen(linea)-1] = '\0'` takes its last character. -/
def storeLine (t : XargsState) (linea : List Char) : XargsState :=
  { t with
    args := Function.update t.args t.contador (.str linea.dropLast)
    contador := t.contador + 1 }

/-- The body of the loop of `main`. -/
def readLine (nargs : ℕ) (forks : ℕ → Bool) (t : XargsState) (linea : List Char) : XargsState :=
  if (storeLine t linea).contador = nargs + 1 then
    reiniciar nargs (lanzar nargs forks (storeLine t linea))
  else storeLine t linea

/-- What `main` does with the rest after the loop. -/
def leftover (nargs : ℕ) (forks : ℕ → Bool) (t : XargsState) : XargsState :=
  if t.contador < nargs + 1 ∧ 1 < t.contador then
    let contador := t.contador - 1
    let args := fun i => if contador + 1 ≤ i ∧ i < nargs + 1 then .null else t.args i
    reiniciar nargs (lanzar nargs forks { t with args := args, contador := contador })
  else t

def start (nargs : ℕ) (command : List Char) : XargsState where
  args i := if i = 0 then .str command else if i = nargs + 1 then .null else .junk
  contador := 1
  launched := 0
  runs := []

/-- `main`. -/
def xargs (nargs : ℕ) (forks : ℕ → Bool) (command : List Char) (input : Stream) : XargsState :=
  leftover nargs forks
    ((rawLines endLine input.chars).foldl (readLine nargs forks) (start nargs command))

/-! ### The contract -/

/-- The lists `bs` are `xs` cut into pieces of `n`, with a shorter one at the end if need be. -/
structure Batched {α : Type} (n : ℕ) (xs : List α) (bs : List (List α)) : Prop where
  flat : bs.flatten = xs
  full : ∀ b ∈ bs.dropLast, b.length = n
  last : ∀ b ∈ bs.getLast?, 1 ≤ b.length ∧ b.length ≤ n

/-- The lines of the input. -/
def Stream.lines (input : Stream) : List (List Char) :=
  (rawLines endLine input.chars).map (lineText endLine)

/-- Every command gets its arguments in a terminated vector, and together they get the lines. -/
def XargsOk (nargs : ℕ) (forks : ℕ → Bool) (command : List Char) (input : Stream) : Prop :=
  ∃ bs, (xargs nargs forks command input).runs = bs.map (fun b => some (command :: b)) ∧
    Batched nargs input.lines bs

/-! ### Batches -/

section Batches

variable {α : Type} {n : ℕ} {xs b : List α} {bs : List (List α)}

lemma batched_nil : Batched n ([] : List α) [] := ⟨rfl, nofun, nofun⟩

lemma batched_singleton (hpos : 1 ≤ b.length) (hle : b.length ≤ n) : Batched n b [b] := by
  refine ⟨List.flatten_singleton, nofun, ?_⟩
  intro b' hb'
  cases hb'
  exact ⟨hpos, hle⟩

lemma Batched.cons (h : Batched n xs bs) (hn : 0 < n) (hb : b.length = n) :
    Batched n (b ++ xs) (b :: bs) := by
  cases bs with
  | nil =>
    rw [← h.flat, List.flatten_nil, List.append_nil]
    exact batched_singleton (by omega) (by omega)
  | cons b' bs =>
    refine ⟨by rw [List.flatten_cons, h.flat], ?_, h.last⟩
    intro c hc
    rw [List.dropLast_cons_cons] at hc
    rcases List.mem_cons.mp hc with rfl | hc
    · exact hb
    · exact h.full c hc

lemma Batched.tail (h : Batched n xs (b :: bs)) (hne : bs ≠ []) :
    b.length = n ∧ Batched n bs.flatten bs := by
  cases bs with
  | nil => exact absurd rfl hne
  | cons b' bs =>
    refine ⟨h.full b List.mem_cons_self, rfl, ?_, h.last⟩
    intro c hc
    exact h.full c (List.mem_cons_of_mem b hc)

/-- Where batch `j` starts. -/
lemma Batched.lt_length (h : Batched n xs bs) (j : ℕ) : j < bs.length ↔ j * n < xs.length := by
  induction bs generalizing xs j with
  | nil =>
    rw [← h.flat]
    simp
  | cons b bs ih =>
    by_cases hnil : bs = []
    · subst hnil
      obtain ⟨hpos, hle⟩ := h.last b rfl
      rw [← h.flat, List.flatten_singleton, List.length_singleton]
      cases j with
      | zero => omega
      | succ j =>
        rw [Nat.succ_mul]
        omega
    · obtain ⟨hb, hrest⟩ := h.tail hnil
      have hlen : 0 < bs.flatten.length := by
        have hfirst := (ih hrest 0).mp (List.length_pos_iff.mpr hnil)
        omega
      rw [← h.flat, List.flatten_cons, List.length_append, List.length_cons, hb]
      cases j with
      | zero => omega
      | succ j =>
        rw [Nat.succ_mul, Nat.add_lt_add_iff_right, ih hrest]
        omega

lemma Batched.pos (h : Batched n xs bs) (hn : 0 < n) (hb : b ∈ bs) : 0 < b.length := by
  have hne : bs ≠ [] := List.ne_nil_of_mem hb
  rw [← List.dropLast_concat_getLast hne, List.mem_append, List.mem_singleton] at hb
  rcases hb with hb | rfl
  · rw [h.full b hb]
    exact hn
  · exact (h.last _ (List.getLast?_eq_some_getLast hne)).1

end Batches

/-! ### Commands -/

/-- What of `bs` is run, if `lanzar` has been called `j` times before. -/
def ran {β : Type} (forks : ℕ → Bool) : ℕ → List β → List β
  | _, [] => []
  | j, b :: bs => if forks j then b :: ran forks (j + 1) bs else ran forks (j + 1) bs

section Commands

variable {β : Type} {forks : ℕ → Bool} {n : ℕ}

lemma ran_map {γ : Type} (f : β → γ) (bs : List β) (j : ℕ) :
    ran forks j (bs.map f) = (ran forks j bs).map f := by
  induction bs generalizing j with
  | nil => rfl
  | cons b bs ih =>
    rw [List.map_cons]
    unfold ran
    split
    · rw [ih, List.map_cons]
    · exact ih (j + 1)

lemma ran_of_all {bs : List β} {j : ℕ} (h : ∀ i < bs.length, forks (j + i) = true) :
    ran forks j bs = bs := by
  induction bs generalizing j with
  | nil => rfl
  | cons b bs ih =>
    rw [List.length_cons] at h
    have hrest : ran forks (j + 1) bs = bs := by
      apply ih
      intro i hi
      have hadd : j + 1 + i = j + (i + 1) := by omega
      rw [hadd]
      exact h (i + 1) (by omega)
    have hfork : forks j = true := h 0 (by omega)
    unfold ran
    rw [if_pos hfork, hrest]

lemma length_ran_le (bs : List (List β)) (j : ℕ) :
    (ran forks j bs).flatten.length ≤ bs.flatten.length := by
  induction bs generalizing j with
  | nil => exact Nat.le_refl _
  | cons b bs ih =>
    have hrest := ih (j + 1)
    unfold ran
    split
    · rw [List.flatten_cons, List.flatten_cons, List.length_append, List.length_append]
      omega
    · rw [List.flatten_cons, List.length_append]
      omega

/-- Nothing is lost only if every process was created. -/
lemma all_of_length_ran {bs : List (List β)} {j : ℕ} (hpos : ∀ b ∈ bs, 0 < b.length)
    (h : (ran forks j bs).flatten.length = bs.flatten.length) :
    ∀ i < bs.length, forks (j + i) = true := by
  induction bs generalizing j with
  | nil => exact fun i hi => absurd hi (Nat.not_lt_zero i)
  | cons b bs ih =>
    have hle : (ran forks (j + 1) bs).flatten.length ≤ bs.flatten.length := length_ran_le bs (j + 1)
    have hb := hpos b List.mem_cons_self
    unfold ran at h
    split at h
    · rename_i hfork
      rw [List.flatten_cons, List.flatten_cons, List.length_append, List.length_append] at h
      intro i hi
      cases i with
      | zero => exact hfork
      | succ i =>
        have hadd : j + (i + 1) = j + 1 + i := by omega
        rw [hadd]
        rw [List.length_cons] at hi
        exact ih (fun c hc => hpos c (List.mem_cons_of_mem b hc)) (by omega) i (by omega)
    · rw [List.flatten_cons, List.length_append] at h
      omega

end Commands

/-! ### The array -/

variable {nargs : ℕ} {forks : ℕ → Bool} {command : List Char} {batch : List (List Char)}
  {t : XargsState}

lemma argList_eq {args : ℕ → Arg} {ss : List (List Char)} {left i : ℕ} (hlt : ss.length < left)
    (hstr : ∀ j (h : j < ss.length), args (i + j) = .str ss[j])
    (hnull : args (i + ss.length) = .null) : argList args left i = some ss := by
  induction ss generalizing left i with
  | nil =>
    obtain ⟨left, rfl⟩ := Nat.exists_eq_succ_of_ne_zero (Nat.ne_of_gt hlt)
    have hhere : args i = .null := hnull
    unfold argList
    rw [hhere]
  | cons s ss ih =>
    rw [List.length_cons] at hlt
    obtain ⟨left, rfl⟩ := Nat.exists_eq_succ_of_ne_zero (Nat.ne_of_gt (Nat.zero_lt_of_lt hlt))
    have hhere : args i = .str s := hstr 0 (Nat.succ_pos _)
    have hrest : argList args left (i + 1) = some ss := by
      apply ih (by omega)
      · intro j hj
        have hadd : i + 1 + j = i + (j + 1) := by omega
        rw [hadd]
        exact hstr (j + 1) (Nat.succ_lt_succ hj)
      · rw [Nat.add_assoc, Nat.add_comm 1]
        exact hnull
    unfold argList
    rw [hhere]
    dsimp only
    rw [hrest]
    rfl

/-- The array holds the command and the arguments `batch`, and a null pointer at its end. -/
structure Loaded (nargs : ℕ) (command : List Char) (batch : List (List Char)) (args : ℕ → Arg) :
    Prop where
  command : args 0 = .str command
  strs : ∀ j (h : j < batch.length), args (j + 1) = .str batch[j]
  null : args (nargs + 1) = .null

variable {args : ℕ → Arg}

lemma loaded_start : Loaded nargs command [] (start nargs command).args := by
  refine ⟨rfl, fun j hj => absurd hj (Nat.not_lt_zero j), ?_⟩
  unfold start
  dsimp only
  rw [if_neg (Nat.succ_ne_zero nargs), if_pos rfl]

/-- After a command the array is empty again. -/
lemma Loaded.freed (h : Loaded nargs command batch t.args) :
    Loaded nargs command [] (reiniciar nargs t).args := by
  unfold reiniciar
  constructor
  · dsimp only
    rw [if_neg (by omega), h.command]
  · exact fun j hj => absurd hj (Nat.not_lt_zero j)
  · dsimp only
    rw [if_neg (by omega), h.null]

lemma Loaded.add (h : Loaded nargs command batch args) (hlt : batch.length < nargs) (s : List Char) :
    Loaded nargs command (batch ++ [s]) (Function.update args (batch.length + 1) (.str s)) := by
  constructor
  · rw [Function.update_of_ne (by omega), h.command]
  · intro j hj
    rw [List.length_append, List.length_singleton] at hj
    by_cases hlast : j = batch.length
    · subst hlast
      rw [Function.update_self, List.getElem_concat_length rfl]
    · rw [Function.update_of_ne (by omega), List.getElem_append_left (by omega)]
      exact h.strs j (by omega)
  · rw [Function.update_of_ne (by omega), h.null]

/-- The elements behind the arguments are set to null. -/
lemma Loaded.filled (h : Loaded nargs command batch args) :
    Loaded nargs command batch
      (fun i => if batch.length + 1 ≤ i ∧ i < nargs + 1 then .null else args i) := by
  constructor
  · rw [if_neg (by omega), h.command]
  · intro j hj
    rw [if_neg (by omega), h.strs j hj]
  · rw [if_neg (by omega), h.null]

/-- The command gets the arguments when the element behind them is null. -/
lemma argList_loaded (h : Loaded nargs command batch args) (hle : batch.length ≤ nargs)
    (hnull : args (batch.length + 1) = .null) :
    argList args (nargs + 2) 0 = some (command :: batch) := by
  apply argList_eq
  · rw [List.length_cons]
    omega
  · intro j hj
    rw [Nat.zero_add]
    cases j with
    | zero => exact h.command
    | succ j =>
      rw [List.length_cons] at hj
      exact h.strs j (by omega)
  · rw [Nat.zero_add, List.length_cons]
    exact hnull

lemma runs_lanzar (h : Loaded nargs command batch t.args) (hle : batch.length ≤ nargs)
    (hnull : t.args (batch.length + 1) = .null) (forks : ℕ → Bool) :
    (lanzar nargs forks t).runs = t.runs ++ ran forks t.launched [some (command :: batch)] := by
  unfold lanzar ran
  dsimp only
  rw [argList_loaded h hle hnull]
  split
  · rfl
  · exact (List.append_nil _).symm

/-! ### The loop -/

lemma ran_cons {β : Type} (forks : ℕ → Bool) (j : ℕ) (b : β) (bs : List β) :
    ran forks j (b :: bs) = ran forks j [b] ++ ran forks (j + 1) bs := by
  cases hfork : forks j with
  | true => simp only [ran, hfork, if_true, List.singleton_append]
  | false => simp only [ran, hfork, Bool.false_eq_true, if_false, List.nil_append]

/-- The rest is passed on if there is any. -/
lemma runs_leftover (h : Loaded nargs command batch t.args) (hlt : batch.length < nargs)
    (hcont : t.contador = batch.length + 1) (forks : ℕ → Bool) :
    ∃ bs, Batched nargs batch bs ∧ (leftover nargs forks t).runs =
      t.runs ++ ran forks t.launched (bs.map fun b => some (command :: b)) := by
  unfold leftover
  by_cases hempty : batch = []
  · subst hempty
    refine ⟨[], batched_nil, ?_⟩
    rw [if_neg (by rw [hcont]; simp)]
    exact (List.append_nil _).symm
  · have hpos : 0 < batch.length := List.length_pos_iff.mpr hempty
    refine ⟨[batch], batched_singleton hpos (Nat.le_of_lt hlt), ?_⟩
    rw [if_pos (by rw [hcont]; omega)]
    dsimp only
    rw [hcont, Nat.add_sub_cancel]
    exact runs_lanzar (t := ⟨_, batch.length, t.launched, t.runs⟩) h.filled (Nat.le_of_lt hlt)
      (if_pos (by omega)) forks

/-- What is run from a partly filled array on: the lines in batches, each line without its last
character. -/
lemma runs_from (hn : 0 < nargs) (forks : ℕ → Bool) (ls : List (List Char)) :
    ∀ {batch : List (List Char)} {t : XargsState}, Loaded nargs command batch t.args →
      batch.length < nargs → t.contador = batch.length + 1 →
      ∃ bs, Batched nargs (batch ++ ls.map List.dropLast) bs ∧
        (leftover nargs forks (ls.foldl (readLine nargs forks) t)).runs =
          t.runs ++ ran forks t.launched (bs.map fun b => some (command :: b)) := by
  induction ls with
  | nil =>
    intro batch t h hlt hcont
    rw [List.foldl_nil, List.map_nil, List.append_nil]
    exact runs_leftover h hlt hcont forks
  | cons l ls ih =>
    intro batch t h hlt hcont
    rw [List.foldl_cons, List.map_cons]
    have hadd : Loaded nargs command (batch ++ [l.dropLast]) (storeLine t l).args := by
      unfold storeLine
      dsimp only
      rw [hcont]
      exact h.add hlt l.dropLast
    have hlen : (batch ++ [l.dropLast]).length = batch.length + 1 := by
      rw [List.length_append, List.length_singleton]
    have hstored : (storeLine t l).contador = batch.length + 1 + 1 := by rw [← hcont]; rfl
    have hassoc : batch ++ l.dropLast :: ls.map List.dropLast =
        (batch ++ [l.dropLast]) ++ ls.map List.dropLast := by
      rw [List.append_assoc, List.singleton_append]
    rw [hassoc]
    by_cases hfull : batch.length + 1 = nargs
    · have hstep : readLine nargs forks t l = reiniciar nargs (lanzar nargs forks (storeLine t l)) := by
        unfold readLine
        rw [if_pos (by omega)]
      have hnull : (storeLine t l).args ((batch ++ [l.dropLast]).length + 1) = .null := by
        rw [hlen, hfull]
        exact hadd.null
      have hruns := runs_lanzar hadd (by omega) hnull forks
      have hfreed : Loaded nargs command [] (reiniciar nargs (lanzar nargs forks (storeLine t l))).args :=
        Loaded.freed hadd
      obtain ⟨bs, hbs, hrun⟩ := ih hfreed hn rfl
      refine ⟨(batch ++ [l.dropLast]) :: bs, hbs.cons hn (by omega), ?_⟩
      rw [hstep, hrun, List.map_cons, ran_cons, ← List.append_assoc]
      exact congrArg (· ++ _) hruns
    · have hstep : readLine nargs forks t l = storeLine t l := by
        unfold readLine
        rw [if_neg (by omega)]
      rw [hstep]
      exact ih hadd (by omega) (by rw [hstored, hlen])

/-! ### Results -/

lemma lineText_of_getLast? {l : List Char} (h : l.getLast? = some endLine) :
    lineText endLine l = l.dropLast := if_pos h

/-- Taking the last character of every line gives the lines when the last one is terminated too,
and then only. -/
lemma map_dropLast_iff (input : Stream) :
    (rawLines endLine input.chars).map List.dropLast = input.lines ↔
      input.chars = [] ∨ input.chars.getLast? = some endLine := by
  unfold Stream.lines
  cases hlast : (rawLines endLine input.chars).getLast? with
  | none =>
    have hnil : rawLines endLine input.chars = [] := List.getLast?_eq_none_iff.mp hlast
    rw [hnil]
    exact iff_of_true rfl (.inl (rawLines_eq_nil.mp hnil))
  | some l =>
    have hmem : l ∈ rawLines endLine input.chars := List.mem_of_getLast? hlast
    have hne : l ≠ [] := rawLines_ne_nil hmem
    have hend : l.getLast? = input.chars.getLast? := getLast?_rawLines hlast
    have hchars : input.chars ≠ [] := by
      intro hnil
      rw [rawLines_eq_nil.mpr hnil] at hmem
      cases hmem
    rw [List.map_inj_left, ← hend]
    constructor
    · intro h
      right
      by_contra hnot
      have hdrop := h l hmem
      unfold lineText at hdrop
      rw [if_neg hnot] at hdrop
      have hlen := congrArg List.length hdrop
      rw [List.length_dropLast] at hlen
      have hpos := List.length_pos_iff.mpr hne
      omega
    · rintro (h | h) l' hl'
      · exact absurd h hchars
      · rw [lineText_of_getLast?]
        obtain ⟨ls, hls⟩ := List.getLast?_eq_some_iff.mp hlast
        rw [hls, List.mem_append, List.mem_singleton] at hl'
        rcases hl' with hl' | rfl
        · apply getLast?_of_mem_dropLast
          rw [hls, List.dropLast_concat]
          exact hl'
        · exact h

lemma Stream.length_lines (input : Stream) :
    input.lines.length = ((rawLines endLine input.chars).map List.dropLast).length := by
  unfold Stream.lines
  rw [List.length_map, List.length_map]

/-- `xargs` is right if the last line of the input is terminated and every process can be created,
and then only. -/
theorem xargsOk_iff {nargs : ℕ} (hn : 0 < nargs) (forks : ℕ → Bool) (command : List Char)
    (input : Stream) : XargsOk nargs forks command input ↔
      (input.chars = [] ∨ input.chars.getLast? = some endLine) ∧
        ∀ j, j * nargs < input.lines.length → forks j = true := by
  obtain ⟨bs, hbs, hruns⟩ := runs_from hn forks (rawLines endLine input.chars)
    (loaded_start : Loaded nargs command [] _) hn rfl
  have hinj : Function.Injective fun b : List (List Char) => some (command :: b) := by
    intro b b' h
    exact List.tail_eq_of_cons_eq (Option.some.inj h)
  rw [List.nil_append] at hbs
  rw [ran_map] at hruns
  rw [← map_dropLast_iff, input.length_lines]
  constructor
  · rintro ⟨bs', hruns', hbs'⟩
    have hran : ran forks 0 bs = bs' := by
      apply List.map_injective_iff.mpr hinj
      rw [← hruns']
      exact hruns.symm
    have hlen : (ran forks 0 bs).flatten.length = bs.flatten.length := by
      rw [hran, hbs.flat, hbs'.flat, input.length_lines]
    have hall := all_of_length_ran (fun b hb => hbs.pos hn hb) hlen
    simp only [Nat.zero_add] at hall
    constructor
    · rw [← hbs.flat, ← hbs'.flat, ← hran, ran_of_all]
      simpa only [Nat.zero_add] using hall
    · exact fun j hj => hall j ((hbs.lt_length j).mpr hj)
  · rintro ⟨htext, hforks⟩
    have hall : ran forks 0 bs = bs := by
      apply ran_of_all
      intro j hj
      rw [Nat.zero_add]
      exact hforks j ((hbs.lt_length j).mp hj)
    refine ⟨bs, ?_, htext ▸ hbs⟩
    rw [← hall]
    exact hruns

/-- Three lines in batches of two; only the two processes that this takes can be created. -/
theorem xargsOk_batches :
    XargsOk 2 (fun j => decide (j < 2)) ['l', 's'] ⟨['a', '\n', 'b', '\n', 'c', '\n'], by decide⟩ := by
  refine (xargsOk_iff (by decide) _ _ _).mpr ⟨.inr rfl, fun j hj => ?_⟩
  have hlen : (Stream.mk ['a', '\n', 'b', '\n', 'c', '\n'] (by decide)).lines.length = 3 := by decide +kernel
  rw [hlen] at hj
  simp only [decide_eq_true_eq]
  omega

/-- Without it the last character is lost. -/
theorem xargsOk_fails : ¬ ∀ (nargs : ℕ) (command : List Char) (input : Stream), 0 < nargs →
    XargsOk nargs (fun _ => true) command input := by
  intro h
  obtain ⟨bs, hruns, hbs⟩ := h 4 ['l', 's'] ⟨['a'], by decide⟩ (by decide)
  have hrun : [some [['l', 's'], []]] = bs.map fun b => some (['l', 's'] :: b) := hruns
  have hflat : bs.flatten = [['a']] := hbs.flat
  match bs with
  | [] => cases hrun
  | [b] =>
    obtain ⟨hb, -⟩ := List.cons.inj hrun
    have hempty : [[]] = b := (List.cons.inj (Option.some.inj hb)).2
    rw [← hempty] at hflat
    exact absurd hflat (by decide)
  | _ :: _ :: _ => cases (List.cons.inj hrun).2

end SistemasOperativos.TPFork
