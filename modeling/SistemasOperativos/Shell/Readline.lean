import SistemasOperativos.Shell.History

/-!
# Reading the keys of a line

The loop of `read_line` and the main loop of the shell, as far as they read. What the keys do to the
line is the matter of the editor. The end of the input is a value of `getchar` that never changes
and that the loop does not test for.
-/

namespace SistemasOperativos.Shell

def escape : Char := '\x1b'
def backspace : Char := '\x7f'
/-- `VEOF` of `termios.h`, with which `read_line` compares. -/
def veof : Char := '\x04'
def up : Char := 'A'
def down : Char := 'B'

/-- `getchar`; `none` is `EOF`. -/
def getchar : List Char → Option Char × List Char
  | [] => (none, [])
  | c :: input => (some c, input)

/-- What one turn of the loop of `read_line` reads: a character or `EOF`, an escape sequence with
nothing to do, or the character of `manejar_desplazamiento`. -/
inductive Key
  | plain (c : Option Char)
  | ignored
  | move (c : Option Char)

/-- One turn, when `c` has been read. -/
def readKey (c : Option Char) (input : List Char) : Key × List Char :=
  if c = some escape then
    let (c, input) := getchar input
    if c = some '[' then
      let (c, input) := getchar input
      (.move c, input)
    else (.ignored, input)
  else (.plain c, input)

/-- The loop of `read_line` with at most `fuel` tests: the keys, the last character and the rest of
the input. The stores to `buffer` are left out, also those behind its end: a line with `BUFLEN` or more
printable characters counts as read. -/
def readKeys : ℕ → Option Char → List Char → Option (List Key × Option Char × List Char)
  | 0, _, _ => none
  | fuel + 1, c, input =>
    if c ≠ some endLine ∧ c ≠ some veof then
      let (key, input) := readKey c input
      let (c, input) := getchar input
      (readKeys fuel c input).map fun (keys, last) => (key :: keys, last)
    else some ([], c, input)

def readLine (fuel : ℕ) (input : List Char) : Option (List Key × Option Char × List Char) :=
  let (c, input) := getchar input
  readKeys fuel c input

/-- `run_shell`, where `exits k` says whether `run_cmd` returns `EXIT_SHELL` for line `k`; the number
of lines. -/
def runShell (exits : ℕ → Bool) : ℕ → ℕ → List Char → Option ℕ
  | 0, _, _ => none
  | fuel + 1, k, input =>
    match readLine (fuel + 1) input with
    | none => none
    | some (_, c, input) =>
      -- `read_line` returns `NULL`
      if c = some veof then some k
      else if exits k = true then some (k + 1)
      else runShell exits fuel (k + 1) input

/-! ### The contract -/

/-- A call of `read_line` ends, and so does the shell. -/
structure EndsOk (exits : ℕ → Bool) (input : List Char) : Prop where
  line : ∃ fuel, readLine fuel input ≠ none
  shell : ∃ fuel, runShell exits fuel 0 input ≠ none

/-- The characters that the loop tests, without those behind an escape. -/
def tested : List Char → List Char
  | [] => []
  | c :: input =>
    if c = escape then
      match input with
      | [] => [c]
      | d :: input =>
        if d = '[' then
          match input with
          | [] => [c]
          | _ :: input => c :: tested input
        else c :: tested input
    else c :: tested input

def endsLine (c : Char) : Bool := c = endLine || c = veof

/-- The characters at which lines end. -/
def lineEnds (input : List Char) : List Char := (tested input).filter endsLine

/-- Among the characters that are tested there is a `VEOF`, or the newline of a line that makes the
shell end. -/
def Ended (exits : ℕ → Bool) (input : List Char) : Prop :=
  ∃ k, (lineEnds input)[k]? = some veof ∨ (lineEnds input)[k]? = some endLine ∧ exits k = true

/-! ### One line -/

variable {c : Option Char} {input rest : List Char} {keys : List Key} {fuel n : ℕ}

lemma readKeys_mono {r : List Key × Option Char × List Char} (h : readKeys fuel c input = some r)
    (hle : fuel ≤ n) : readKeys n c input = some r := by
  induction fuel generalizing n c input r with
  | zero => cases h
  | succ fuel ih =>
    cases n with
    | zero => omega
    | succ n =>
      unfold readKeys at h ⊢
      split
      · rename_i htest
        rw [if_pos htest] at h
        obtain ⟨r', hr', rfl⟩ := Option.map_eq_some_iff.mp h
        exact Option.map_eq_some_iff.mpr ⟨r', ih hr' (by omega), rfl⟩
      · rename_i htest
        rw [if_neg htest] at h
        exact h

/-- At the end of the input the loop goes on for ever. -/
lemma readKeys_eof (fuel : ℕ) : readKeys fuel none [] = none := by
  induction fuel with
  | zero => rfl
  | succ fuel ih =>
    unfold readKeys
    rw [if_pos ⟨nofun, nofun⟩]
    exact Option.map_eq_none_iff.mpr ih

lemma readLine_mono {r : List Key × Option Char × List Char} (h : readLine fuel input = some r)
    (hle : fuel ≤ n) : readLine n input = some r :=
  readKeys_mono h hle

lemma readLine_end {c : Char} (h : endsLine c = true) (fuel : ℕ) (input : List Char) :
    readLine (fuel + 1) (c :: input) = some ([], some c, input) := by
  show readKeys (fuel + 1) (some c) input = _
  unfold readKeys
  rw [if_neg]
  rintro ⟨hend, hveof⟩
  unfold endsLine at h
  rcases Bool.or_eq_true_iff.mp h with h | h
  · exact hend (congrArg some (of_decide_eq_true h))
  · exact hveof (congrArg some (of_decide_eq_true h))

lemma readLine_key {c : Char} (h : endsLine c = false) (fuel : ℕ) (input : List Char) :
    readLine (fuel + 1) (c :: input) =
      (readLine fuel (readKey (some c) input).2).map fun (keys, last) =>
        ((readKey (some c) input).1 :: keys, last) := by
  unfold endsLine at h
  obtain ⟨hend, hveof⟩ := Bool.or_eq_false_iff.mp h
  show readKeys (fuel + 1) (some c) input = _
  unfold readKeys
  rw [if_pos]
  · rfl
  · exact ⟨fun heq => of_decide_eq_false hend (Option.some.inj heq),
      fun heq => of_decide_eq_false hveof (Option.some.inj heq)⟩

lemma lineEnds_end {c : Char} (h : endsLine c = true) (input : List Char) :
    lineEnds (c :: input) = c :: lineEnds input := by
  have hesc : ¬ c = escape := by
    rintro rfl
    cases h
  unfold lineEnds
  rw [tested.eq_def]
  dsimp only
  rw [if_neg hesc, List.filter_cons_of_pos h]

lemma readKey_plain {c : Option Char} (h : c ≠ some escape) (input : List Char) :
    readKey c input = (.plain c, input) := by
  unfold readKey
  rw [if_neg h]

lemma readKey_ignored {d : Char} (h : d ≠ '[') (input : List Char) :
    readKey (some escape) (d :: input) = (.ignored, input) := by
  have hd : ¬ some d = some '[' := fun heq => h (Option.some.inj heq)
  show (if some d = some '[' then _ else _) = _
  exact if_neg hd

lemma lineEnds_key {c : Char} (h : endsLine c = false) (input : List Char) :
    lineEnds (c :: input) = lineEnds (readKey (some c) input).2 := by
  have hdrop (s : List Char) : (c :: s).filter endsLine = s.filter endsLine :=
    List.filter_cons_of_neg (by rw [h]; exact Bool.false_ne_true)
  unfold lineEnds
  rw [tested.eq_def]
  dsimp only
  by_cases hesc : c = escape
  · rw [if_pos hesc]
    subst hesc
    cases input with
    | nil => exact hdrop []
    | cons d input =>
      dsimp only
      by_cases hd : d = '['
      · subst hd
        rw [if_pos rfl]
        cases input with
        | nil => exact hdrop []
        | cons e input => exact hdrop (tested input)
      · rw [if_neg hd, readKey_ignored hd]
        exact hdrop (tested input)
  · rw [if_neg hesc, readKey_plain fun heq => hesc (Option.some.inj heq)]
    exact hdrop (tested input)

lemma length_getchar (input : List Char) : (getchar input).2.length ≤ input.length := by
  cases input with
  | nil => exact Nat.le_refl 0
  | cons c input => exact Nat.le_succ _

lemma length_readKey (c : Option Char) (input : List Char) :
    (readKey c input).2.length ≤ input.length := by
  unfold readKey
  split
  · dsimp only
    split
    · exact (length_getchar _).trans (length_getchar input)
    · exact length_getchar input
  · exact Nat.le_refl _

/-- What a call of `read_line` comes to: the first end of a line that is tested, if there is one. -/
lemma readLine_cases (n : ℕ) : ∀ {input : List Char}, input.length < n →
    lineEnds input = [] ∧ (∀ fuel, readLine fuel input = none) ∨
    ∃ c rest, endsLine c = true ∧ lineEnds input = c :: lineEnds rest ∧ rest.length < input.length ∧
      ∃ fuel keys, readLine fuel input = some (keys, some c, rest) := by
  induction n with
  | zero => exact fun hlen => absurd hlen (Nat.not_lt_zero _)
  | succ n ih =>
    intro input hlen
    cases input with
    | nil => exact .inl ⟨rfl, readKeys_eof⟩
    | cons c input =>
      rw [List.length_cons] at hlen
      cases hc : endsLine c with
      | true =>
        refine .inr ⟨c, input, hc, lineEnds_end hc input, ?_, 1, [], readLine_end hc 0 input⟩
        exact Nat.lt_succ_self _
      | false =>
        have hkey := length_readKey (some c) input
        rw [lineEnds_key hc]
        rcases ih (by omega : (readKey (some c) input).2.length < n) with
          ⟨hnone, hloop⟩ | ⟨d, rest, hd, hends, hrest, fuel, keys, hrun⟩
        · refine .inl ⟨hnone, fun fuel => ?_⟩
          cases fuel with
          | zero => rfl
          | succ fuel =>
            rw [readLine_key hc, hloop]
            rfl
        · refine .inr ⟨d, rest, hd, hends, ?_, fuel + 1, (readKey (some c) input).1 :: keys, ?_⟩
          · rw [List.length_cons]
            omega
          · rw [readLine_key hc, hrun]
            rfl

/-! ### Results -/

/-- A call of `read_line` ends exactly if some character that it tests ends a line. -/
theorem readLine_ends_iff (input : List Char) :
    (∃ fuel, readLine fuel input ≠ none) ↔ lineEnds input ≠ [] := by
  rcases readLine_cases (input.length + 1) (Nat.lt_succ_self _) with
    ⟨hnone, hloop⟩ | ⟨c, rest, -, hends, -, fuel, keys, hrun⟩
  · refine iff_of_false ?_ (not_not_intro hnone)
    rintro ⟨fuel, hne⟩
    exact hne (hloop fuel)
  · refine iff_of_true ⟨fuel, ?_⟩ ?_
    · rw [hrun]
      exact nofun
    · rw [hends]
      exact List.cons_ne_nil _ _

lemma runShell_mono {exits : ℕ → Bool} {k m : ℕ} (h : runShell exits fuel k input ≠ none)
    (hle : fuel ≤ m) : runShell exits m k input ≠ none := by
  induction fuel generalizing m k input with
  | zero => exact absurd rfl h
  | succ fuel ih =>
    cases m with
    | zero => omega
    | succ m =>
      unfold runShell at h ⊢
      cases hline : readLine (fuel + 1) input with
      | none =>
        rw [hline] at h
        exact absurd rfl h
      | some r =>
        obtain ⟨keys, c, rest⟩ := r
        rw [hline] at h
        rw [readLine_mono hline hle]
        dsimp only at h ⊢
        split
        · exact nofun
        · rename_i hveof
          rw [if_neg hveof] at h
          split
          · exact nofun
          · rename_i hexits
            rw [if_neg hexits] at h
            exact ih h (by omega)

/-- The shell from line `k` on; by induction on the input that is left. -/
lemma runShell_ends_iff (exits : ℕ → Bool) (n : ℕ) : ∀ {input : List Char}, input.length < n →
    ∀ k, (∃ fuel, runShell exits fuel k input ≠ none) ↔
      ∃ j, (lineEnds input)[j]? = some veof ∨ (lineEnds input)[j]? = some endLine ∧ exits (k + j) = true := by
  induction n with
  | zero => exact fun hlen => absurd hlen (Nat.not_lt_zero _)
  | succ n ih =>
    intro input hlen k
    rcases readLine_cases (input.length + 1) (Nat.lt_succ_self _) with
      ⟨hnone, hloop⟩ | ⟨c, rest, hc, hends, hrest, fuel, keys, hrun⟩
    · rw [hnone]
      refine iff_of_false ?_ ?_
      · rintro ⟨fuel, hne⟩
        refine hne ?_
        cases fuel with
        | zero => rfl
        | succ fuel =>
          unfold runShell
          rw [hloop]
      · rintro ⟨j, h | ⟨h, -⟩⟩
        · cases h
        · cases h
    · have hstep : ∀ m, fuel ≤ m + 1 → runShell exits (m + 1) k input =
          if c = veof then some k else if exits k = true then some (k + 1)
          else runShell exits m (k + 1) rest := by
        intro m hm
        conv_lhs => unfold runShell
        rw [readLine_mono hrun hm]
        simp only [Option.some.injEq]
      have hcases : c = veof ∨ c = endLine := by
        unfold endsLine at hc
        rcases Bool.or_eq_true_iff.mp hc with hc | hc
        · exact .inr (of_decide_eq_true hc)
        · exact .inl (of_decide_eq_true hc)
      have hne : endLine ≠ veof := by decide
      rw [hends]
      rcases hcases with rfl | rfl
      · refine iff_of_true ⟨fuel + 1, ?_⟩ ⟨0, .inl rfl⟩
        rw [hstep fuel (Nat.le_succ fuel), if_pos rfl]
        exact nofun
      by_cases hexits : exits k = true
      · refine iff_of_true ⟨fuel + 1, ?_⟩ ⟨0, .inr ⟨rfl, hexits⟩⟩
        rw [hstep fuel (Nat.le_succ fuel), if_neg hne, if_pos hexits]
        exact nofun
      -- the shell goes on with the next line
      have hnext : (∃ m, runShell exits m k input ≠ none) ↔
          ∃ m, runShell exits m (k + 1) rest ≠ none := by
        constructor
        · rintro ⟨m, hm⟩
          have hm' := runShell_mono hm (by omega : m ≤ max m fuel + 1)
          rw [hstep (max m fuel) (by omega), if_neg hne, if_neg hexits] at hm'
          exact ⟨max m fuel, hm'⟩
        · rintro ⟨m, hm⟩
          refine ⟨max m fuel + 1, ?_⟩
          rw [hstep (max m fuel) (by omega), if_neg hne, if_neg hexits]
          exact runShell_mono hm (by omega)
      rw [hnext, ih (by omega) (k + 1)]
      constructor
      · rintro ⟨j, h⟩
        refine ⟨j + 1, ?_⟩
        rwa [Nat.add_right_comm, Nat.add_assoc] at h
      · rintro ⟨j, h⟩
        cases j with
        | zero =>
          rcases h with h | ⟨-, h⟩
          · cases h
          · exact absurd h hexits
        | succ j =>
          refine ⟨j, ?_⟩
          rwa [Nat.add_right_comm, Nat.add_assoc]

/-- The shell ends exactly if a `VEOF` or the line of an `exit` is read before the input ends. -/
theorem endsOk_iff (exits : ℕ → Bool) (input : List Char) :
    EndsOk exits input ↔ Ended exits input := by
  have hshell := runShell_ends_iff exits (input.length + 1) (Nat.lt_succ_self _ : input.length < _) 0
  simp only [Nat.zero_add] at hshell
  constructor
  · intro h
    exact hshell.mp h.shell
  · intro h
    refine ⟨(readLine_ends_iff input).mpr ?_, hshell.mpr h⟩
    intro hnone
    obtain ⟨k, h | ⟨h, -⟩⟩ := h
    · rw [hnone] at h
      cases h
    · rw [hnone] at h
      cases h

/-- The input ends at once. -/
theorem endsOk_fails : ¬ ∀ (exits : ℕ → Bool) (input : List Char), EndsOk exits input := by
  intro h
  obtain ⟨fuel, hne⟩ := (h (fun _ => false) []).line
  exact hne (readKeys_eof fuel)

end SistemasOperativos.Shell
