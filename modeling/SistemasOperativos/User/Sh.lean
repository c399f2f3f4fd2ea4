import Mathlib.Data.List.Forall2
import SistemasOperativos.Library.Segments
import SistemasOperativos.User.Gettoken

/-!
# The shell of JOS

`runcmd` of `user/sh.c` in one of the processes of a command line. What the other parts of the
system do is given by their operations on a state, so that the same function is run on any system
and on tables of descriptors.
-/

namespace SistemasOperativos.User

open Library

def maxargs : ℕ := 16
/-- `BUFSIZ`, the size of `argv0buf`. -/
def bufsiz : ℕ := 1024
/-- `BUFLEN` of `lib/readline.c`. -/
def buflen : ℕ := 1024

/-! ### `readline` -/

/-- A key of `readline`: the characters so far, the last one first, or the line. -/
def readKey (echo : List Char) (c : Char) : List Char ⊕ List Char :=
  if (c = '\x08' ∨ c = '\x7f') ∧ echo ≠ [] then .inl echo.tail
  else if ' ' ≤ c ∧ echo.length < buflen - 1 then .inl (c :: echo)
  else if c = '\n' ∨ c = '\r' then .inr echo.reverse
  else .inl echo

/-- `readline` on the characters of its input; `none` at the end of the input. -/
def readlineFrom (echo : List Char) : List Char → Option (List Char)
  | [] => none
  | c :: keys =>
    match readKey echo c with
    | .inl echo => readlineFrom echo keys
    | .inr line => some line

def readline (keys : List Char) : Option (List Char) := readlineFrom [] keys

/-! ### `runcmd` -/

/-- The calls that `runcmd` makes, on a state `σ`. `pipe` gives its two descriptors, `fork` what it
returns in this process. -/
structure Sys (σ : Type) where
  openRead : σ → List Char → ℤ × σ
  openWrite : σ → List Char → ℤ × σ
  dup : σ → ℤ → ℤ → σ
  close : σ → ℤ → σ
  pipe : σ → Option (ℤ × ℤ) × σ
  fork : σ → ℤ × σ

/-- How a process ends. `spawned`: it calls `spawn` with this vector, after `k` pipes on its left;
`overflow`: it stores outside of `argv` or `argv0buf`. -/
inductive ShEnd (σ : Type)
  | tooMany
  | syntaxError
  | openFailed
  | pipeFailed
  | forkFailed
  | panicked (c : Char)
  | empty
  | spawned (k : ℕ) (argv : List (List Char)) (st : σ)
  | overflow

variable {σ : Type}

/-- `dup(fd, n); close(fd)` unless `fd` is `n`. -/
def Sys.move (sys : Sys σ) (st : σ) (fd n : ℤ) : σ :=
  if fd ≠ n then sys.close (sys.dup st fd n) fd else st

/-- The command line is cleaned up and the command spawned. -/
def spawnWords (k : ℕ) (words : List (List Char)) (st : σ) : ShEnd σ :=
  match words with
  | [] => .empty
  | name :: args =>
    -- `strcpy` to `argv0buf + 1`
    if name.head? ≠ some '/' ∧ bufsiz < 1 + (name.length + 1) then .overflow
    -- `argv[argc] = 0`
    else if maxargs ≤ words.length then .overflow
    else .spawned k ((if name.head? = some '/' then name else '/' :: name) :: args) st

/-- The label `runit`: `argv` are the places of the words in the buffer. -/
def runit (buf : List Char) (k : ℕ) (argv : List ℕ) (st : σ) : ShEnd σ :=
  spawnWords k (argv.map fun p => cstr nul (buf.drop p)) st

/-- The loop from the label `again` on. -/
def again (sys : Sys σ) (lx : Lexer) (k : ℕ) (argv : List ℕ) (st : σ) : ShEnd σ :=
  if hend : (gettoken lx).1 = nul then runit (gettoken lx).2.2.buf k argv st
  else
    have hlt := gettoken_measure lx hend
    let t := (gettoken lx).2.1
    let lx' := (gettoken lx).2.2
    if (gettoken lx).1 = 'w' then
      if argv.length = maxargs then .tooMany
      else if maxargs < argv.length then .overflow
      else again sys lx' k (argv ++ [t]) st
    else if (gettoken lx).1 = '<' then
      if hword : (gettoken lx').1 = 'w' then
        have := Nat.lt_trans (gettoken_measure lx' (by rw [hword]; decide)) hlt
        let lx'' := (gettoken lx').2.2
        let (fd, st) := sys.openRead st (cstr nul (lx''.buf.drop (gettoken lx').2.1))
        if fd < 0 then .openFailed else again sys lx'' k argv (sys.move st fd 0)
      else .syntaxError
    else if (gettoken lx).1 = '>' then
      if hword : (gettoken lx').1 = 'w' then
        have := Nat.lt_trans (gettoken_measure lx' (by rw [hword]; decide)) hlt
        let lx'' := (gettoken lx').2.2
        let (fd, st) := sys.openWrite st (cstr nul (lx''.buf.drop (gettoken lx').2.1))
        if fd < 0 then .openFailed else again sys lx'' k argv (sys.move st fd 1)
      else .syntaxError
    else if (gettoken lx).1 = '|' then
      match sys.pipe st with
      | (none, _) => .pipeFailed
      | (some (p0, p1), st) =>
        let (r, st) := sys.fork st
        if r < 0 then .forkFailed
        else if r = 0 then again sys lx' (k + 1) [] (sys.close (sys.move st p0 0) p1)
        else runit lx'.buf k argv (sys.close (sys.move st p1 1) p0)
    else .panicked (gettoken lx).1
termination_by lx.measure

def runcmd (sys : Sys σ) (line : List Char) (st : σ) : ShEnd σ :=
  again sys (gettokenStart line) 0 [] st

/-! ### The commands of a line -/

/-- The tokens between the pipes. -/
def segments (toks : List Tok) : List (List Tok) := toks.splitOn (.symbol '|')

/-- The words of a command without the files of its redirections. -/
def argWords : List Tok → List (List Char)
  | [] => []
  | .word w :: toks => w :: argWords toks
  | .symbol _ :: .word _ :: toks => argWords toks
  | .symbol _ :: toks => argWords toks

/-- Only words and redirections with a file. -/
def wellFormed : List Tok → Bool
  | [] => true
  | .word _ :: toks => wellFormed toks
  | .symbol c :: .word _ :: toks => (c = '<' || c = '>') && wellFormed toks
  | .symbol _ :: _ => false

/-- The vector for a command: its words, with a slash before the name if it has none. -/
def commandLine : List (List Char) → List (List Char)
  | [] => []
  | name :: args => (if name.head? = some '/' then name else '/' :: name) :: args

/-- A process stays in its arrays, spawns the words of its command only, and on a line of words it
either reports too many of them or does spawn. -/
structure RuncmdOk (line : List Char) (out : ShEnd σ) : Prop where
  inside : out ≠ .overflow
  spawned : ∀ k argv st, out = .spawned k argv st →
    ∃ seg, (segments (lex line))[k]? = some seg ∧ argv = commandLine (argWords seg)
  words : lex line ≠ [] → (∀ tok ∈ lex line, ∃ w, tok = .word w) →
    out = .tooMany ∨ ∃ argv st, out = .spawned 0 argv st

/-- Command `k` is reached and complete: it and those before it have no error and not too many
words. -/
def Reached (segs : List (List Tok)) (k : ℕ) : Prop :=
  ∀ j ≤ k, ∀ seg ∈ segs[j]?, wellFormed seg = true ∧ (argWords seg).length ≤ maxargs

/-- The arrays are large enough: `argv` for the null pointer behind the words, and `argv0buf` for the
name. -/
def Room (words : List (List Char)) : Prop :=
  words.length ≠ maxargs ∧ ∀ name ∈ words.head?, name.head? = some '/' ∨ name.length + 2 ≤ bufsiz

/-- There is room for every command that is reached. -/
def Fits (line : List Char) : Prop :=
  ∀ k seg, (segments (lex line))[k]? = some seg → Reached (segments (lex line)) k →
    Room (argWords seg)

/-! ### The run on tokens -/

/-- `again` on the tokens that are left, with the words themselves. -/
def tokRun (sys : Sys σ) : List Tok → ℕ → List (List Char) → σ → ShEnd σ
  | [], k, words, st => spawnWords k words st
  | .word w :: toks, k, words, st =>
    if words.length = maxargs then .tooMany
    else if maxargs < words.length then .overflow
    else tokRun sys toks k (words ++ [w]) st
  | .symbol c :: toks, k, words, st =>
    if c = '<' then
      match toks with
      | .word file :: toks =>
        if (sys.openRead st file).1 < 0 then .openFailed
        else tokRun sys toks k words (sys.move (sys.openRead st file).2 (sys.openRead st file).1 0)
      | _ => .syntaxError
    else if c = '>' then
      match toks with
      | .word file :: toks =>
        if (sys.openWrite st file).1 < 0 then .openFailed
        else tokRun sys toks k words (sys.move (sys.openWrite st file).2 (sys.openWrite st file).1 1)
      | _ => .syntaxError
    else if c = '|' then
      match sys.pipe st with
      | (none, _) => .pipeFailed
      | (some (p0, p1), st) =>
        if (sys.fork st).1 < 0 then .forkFailed
        else if (sys.fork st).1 = 0 then
          tokRun sys toks (k + 1) [] (sys.close (sys.move (sys.fork st).2 p0 0) p1)
        else spawnWords k words (sys.close (sys.move (sys.fork st).2 p1 1) p0)
    else .panicked c

lemma tokRun_word (sys : Sys σ) (w : List Char) (toks : List Tok) (k : ℕ)
    (words : List (List Char)) (st : σ) :
    tokRun sys (.word w :: toks) k words st =
      if words.length = maxargs then .tooMany
      else if maxargs < words.length then .overflow
      else tokRun sys toks k (words ++ [w]) st := by
  conv_lhs => unfold tokRun

lemma tokRun_read (sys : Sys σ) (file : List Char) (toks : List Tok) (k : ℕ)
    (words : List (List Char)) (st : σ) :
    tokRun sys (.symbol '<' :: .word file :: toks) k words st =
      if (sys.openRead st file).1 < 0 then .openFailed
      else tokRun sys toks k words (sys.move (sys.openRead st file).2 (sys.openRead st file).1 0) := by
  conv_lhs => unfold tokRun
  rfl

lemma tokRun_write (sys : Sys σ) (file : List Char) (toks : List Tok) (k : ℕ)
    (words : List (List Char)) (st : σ) :
    tokRun sys (.symbol '>' :: .word file :: toks) k words st =
      if (sys.openWrite st file).1 < 0 then .openFailed
      else tokRun sys toks k words (sys.move (sys.openWrite st file).2 (sys.openWrite st file).1 1) := by
  conv_lhs => unfold tokRun
  rfl

lemma tokRun_pipe (sys : Sys σ) (toks : List Tok) (k : ℕ) (words : List (List Char)) (st : σ) :
    tokRun sys (.symbol '|' :: toks) k words st =
      match sys.pipe st with
      | (none, _) => .pipeFailed
      | (some (p0, p1), st) =>
        if (sys.fork st).1 < 0 then .forkFailed
        else if (sys.fork st).1 = 0 then
          tokRun sys toks (k + 1) [] (sys.close (sys.move (sys.fork st).2 p0 0) p1)
        else spawnWords k words (sys.close (sys.move (sys.fork st).2 p1 1) p0) := by
  conv_lhs => unfold tokRun
  rfl

lemma tokRun_other (sys : Sys σ) {c : Char} (hc : c ≠ '<' ∧ c ≠ '>' ∧ c ≠ '|') (toks : List Tok)
    (k : ℕ) (words : List (List Char)) (st : σ) :
    tokRun sys (.symbol c :: toks) k words st = .panicked c := by
  unfold tokRun
  simp [hc]

section Steps

variable {sys : Sys σ} {lx lx' lx'' : Lexer} {p p' k : ℕ} {argv : List ℕ} {st : σ}

lemma not_end {c : Char} (h : gettoken lx = (c, p, lx')) (hc : c ≠ nul) : (gettoken lx).1 ≠ nul := by
  rw [h]
  exact hc

lemma again_end (h : gettoken lx = (nul, p, lx')) : again sys lx k argv st = runit lx'.buf k argv st := by
  unfold again
  rw [dif_pos (by rw [h]), h]

lemma again_word (h : gettoken lx = ('w', p, lx')) : again sys lx k argv st =
    if argv.length = maxargs then .tooMany
    else if maxargs < argv.length then .overflow
    else again sys lx' k (argv ++ [p]) st := by
  conv_lhs => unfold again
  rw [dif_neg (not_end h (by decide))]
  simp only [h, if_true]

lemma again_noFile {c : Char} (h : gettoken lx = (c, p, lx')) (hc : c = '<' ∨ c = '>')
    (h' : (gettoken lx').1 ≠ 'w') : again sys lx k argv st = .syntaxError := by
  unfold again
  rcases hc with rfl | rfl
  · rw [dif_neg (not_end h (by decide))]
    simp [h, h']
  · rw [dif_neg (not_end h (by decide))]
    simp [h, h']

lemma again_read (h : gettoken lx = ('<', p, lx')) (h' : gettoken lx' = ('w', p', lx'')) :
    again sys lx k argv st =
      let (fd, st) := sys.openRead st (cstr nul (lx''.buf.drop p'))
      if fd < 0 then .openFailed else again sys lx'' k argv (sys.move st fd 0) := by
  conv_lhs => unfold again
  rw [dif_neg (not_end h (by decide))]
  simp [h, h']

lemma again_write (h : gettoken lx = ('>', p, lx')) (h' : gettoken lx' = ('w', p', lx'')) :
    again sys lx k argv st =
      let (fd, st) := sys.openWrite st (cstr nul (lx''.buf.drop p'))
      if fd < 0 then .openFailed else again sys lx'' k argv (sys.move st fd 1) := by
  conv_lhs => unfold again
  rw [dif_neg (not_end h (by decide))]
  simp [h, h']

lemma again_pipe (h : gettoken lx = ('|', p, lx')) : again sys lx k argv st =
    match sys.pipe st with
    | (none, _) => .pipeFailed
    | (some (p0, p1), st) =>
      if (sys.fork st).1 < 0 then .forkFailed
      else if (sys.fork st).1 = 0 then
        again sys lx' (k + 1) [] (sys.close (sys.move (sys.fork st).2 p0 0) p1)
      else runit lx'.buf k argv (sys.close (sys.move (sys.fork st).2 p1 1) p0) := by
  conv_lhs => unfold again
  rw [dif_neg (not_end h (by decide))]
  simp [h]

lemma again_other {c : Char} (h : gettoken lx = (c, p, lx')) (hnul : c ≠ nul)
    (hc : c ≠ 'w' ∧ c ≠ '<' ∧ c ≠ '>' ∧ c ≠ '|') : again sys lx k argv st = .panicked c := by
  unfold again
  rw [dif_neg (not_end h hnul)]
  simp [h, hc]

end Steps

lemma kind_symbol {c d : Char} (hc : isSymbol c = true) (hd : isSymbol d = false) : c ≠ d := by
  rintro rfl
  rw [hc] at hd
  cases hd

lemma words_of_terminated {front buf : List Char} {argv : List ℕ} {words : List (List Char)}
    (h : List.Forall₂ (Terminated front) argv words) (hpre : front <+: buf) :
    argv.map (fun p => cstr nul (buf.drop p)) = words := by
  induction h with
  | nil => rfl
  | cons hp _ ih => rw [List.map_cons, hp.cstr hpre, ih]

/-- A file name is read where the next token has been found. -/
lemma file_of_found {lx : Lexer} {front rest : List Char} {tok? : Option Tok}
    (h : Found lx front rest tok?) (hrest : nul ∉ rest) :
    (∃ file p lx' front' rest' tok?', tok? = some (.word file) ∧ gettoken lx = ('w', p, lx') ∧
      cstr nul (lx'.buf.drop p) = file ∧ Found lx' front' rest' tok?' ∧ nul ∉ rest' ∧
      tok?'.toList ++ lex rest' = lex rest ∧ front <+: front') ∨
    ((∀ file, tok? ≠ some (.word file)) ∧ (gettoken lx).1 ≠ 'w') := by
  cases htok : tok? with
  | none =>
    subst htok
    obtain ⟨p, lx', hget, -⟩ := gettoken_done h
    exact .inr ⟨nofun, by rw [hget]; exact (by decide : nul ≠ 'w')⟩
  | some tok =>
    subst htok
    obtain ⟨lx', front', rest', tok?', hget, hfound, hrest', hlex, hpre, hword⟩ :=
      gettoken_found h hrest
    cases tok with
    | word file =>
      refine .inl ⟨file, lx.np1, lx', front', rest', tok?', rfl, hget, ?_, hfound, hrest', hlex, hpre⟩
      exact (hword file rfl).cstr hfound.prefix_buf
    | symbol c =>
      refine .inr ⟨nofun, ?_⟩
      rw [hget]
      cases h with
      | symbol _ _ _ hc _ => exact kind_symbol hc (by decide)

lemma tokRun_noFile {sys : Sys σ} {c : Char} (hc : c = '<' ∨ c = '>') {toks : List Tok}
    (h : ∀ file rest, toks ≠ .word file :: rest) (k : ℕ) (words : List (List Char)) (st : σ) :
    tokRun sys (.symbol c :: toks) k words st = .syntaxError := by
  cases toks with
  | nil => rcases hc with rfl | rfl <;> rfl
  | cons tok rest =>
    cases tok with
    | word file => exact absurd rfl (h file rest)
    | symbol d => rcases hc with rfl | rfl <;> rfl

/-- The run on the buffer is the run on the tokens of the line. -/
lemma again_eq (sys : Sys σ) : ∀ (n : ℕ) {lx : Lexer} {front rest : List Char} {tok? : Option Tok},
    (tok?.toList ++ lex rest).length < n → Found lx front rest tok? → nul ∉ rest →
    ∀ (k : ℕ) {argv : List ℕ} {words : List (List Char)} (st : σ),
      List.Forall₂ (Terminated front) argv words →
      again sys lx k argv st = tokRun sys (tok?.toList ++ lex rest) k words st := by
  intro n
  induction n with
  | zero => exact fun hlen => absurd hlen (Nat.not_lt_zero _)
  | succ n ih =>
    intro lx front rest tok? hlen hfound hrest k argv words st hargv
    cases htok : tok? with
    | none =>
      subst htok
      obtain ⟨p, lx', hget, hbuf⟩ := gettoken_done hfound
      cases hfound with
      | done _ p' =>
        rw [again_end hget, lex_none rfl]
        unfold runit
        rw [hbuf, words_of_terminated hargv (List.prefix_refl _)]
        rfl
    | some tok =>
      subst htok
      obtain ⟨lx', front', rest', tok?', hget, hfound', hrest', hlex, hpre, hword⟩ :=
        gettoken_found hfound hrest
      have hargv' : List.Forall₂ (Terminated front') argv words :=
        hargv.imp fun p w hp => hp.mono hpre
      rw [Option.toList_some, List.singleton_append, List.length_cons, ← hlex] at hlen
      rw [Option.toList_some, List.singleton_append, ← hlex]
      cases tok with
      | word w =>
        rw [again_word hget]
        have hcount : argv.length = words.length := hargv.length_eq
        have hadd : List.Forall₂ (Terminated front') (argv ++ [lx.np1]) (words ++ [w]) :=
          List.rel_append hargv' (.cons (hword w rfl) .nil)
        unfold tokRun
        rw [hcount, ih (by omega) hfound' hrest' k st hadd]
      | symbol c =>
        have hsym : isSymbol c = true := by
          cases hfound with
          | symbol _ _ _ hc _ => exact hc
        -- the redirections take the next token too
        have hredir : c = '<' ∨ c = '>' → again sys lx k argv st =
            tokRun sys (.symbol c :: (tok?'.toList ++ lex rest')) k words st := by
          intro hc
          rcases file_of_found hfound' hrest' with
            ⟨file, p, lx'', front'', rest'', tok?'', rfl, hget', hfile, hfound'', hrest'', hlex', hpre'⟩ | ⟨hno, hget'⟩
          · rw [Option.toList_some, List.singleton_append, List.length_cons, ← hlex'] at hlen
            have hnext : ∀ st', again sys lx'' k argv st' =
                tokRun sys (tok?''.toList ++ lex rest'') k words st' := fun st' =>
              ih (by omega) hfound'' hrest'' k st' (hargv'.imp fun p w hp => hp.mono hpre')
            rw [Option.toList_some, List.singleton_append, ← hlex']
            rcases hc with rfl | rfl
            · rw [again_read hget hget', hfile]
              simp only [hnext]
              rw [tokRun_read]
            · rw [again_write hget hget', hfile]
              simp only [hnext]
              rw [tokRun_write]
          · rw [again_noFile hget hc hget', tokRun_noFile hc]
            intro file rest'' heq
            cases htok' : tok?' with
            | none =>
              subst htok'
              cases hfound' with
              | done _ _ =>
                rw [lex_none rfl] at heq
                cases heq
            | some tok =>
              rw [htok', Option.toList_some, List.singleton_append] at heq
              rw [(List.cons.inj heq).1] at htok'
              exact hno file htok'
        by_cases hread : c = '<'
        · exact hredir (.inl hread)
        by_cases hwrite : c = '>'
        · exact hredir (.inr hwrite)
        by_cases hpipe : c = '|'
        · subst hpipe
          rw [again_pipe hget]
          have hnext : ∀ st', again sys lx' (k + 1) [] st' =
              tokRun sys (tok?'.toList ++ lex rest') (k + 1) [] st' := fun st' =>
            ih (by omega) hfound' hrest' (k + 1) st' .nil
          have hleft : ∀ st' : σ, runit lx'.buf k argv st' = spawnWords k words st' := by
            intro st'
            unfold runit
            rw [words_of_terminated hargv' hfound'.prefix_buf]
          simp only [hnext, hleft]
          rw [tokRun_pipe]
        · have hnul : c ≠ nul := kind_symbol hsym (by decide)
          have hword' : c ≠ 'w' := kind_symbol hsym (by decide)
          rw [again_other hget hnul ⟨hword', hread, hwrite, hpipe⟩,
            tokRun_other sys ⟨hread, hwrite, hpipe⟩]
          rfl

lemma runcmd_eq (sys : Sys σ) {line : List Char} (h : nul ∉ line) (st : σ) :
    runcmd sys line st = tokRun sys (lex line) 0 [] st := by
  obtain ⟨front, rest, tok?, hfound, hrest, hlex⟩ := gettokenStart_found h
  unfold runcmd
  rw [again_eq sys _ (Nat.lt_succ_self _) hfound hrest 0 st .nil, hlex]

/-! ### One command -/

/-- The redirections of a command one after the other; `none` if a file cannot be opened. -/
def redirect (sys : Sys σ) : List Tok → σ → Option σ
  | [], st => some st
  | .word _ :: toks, st => redirect sys toks st
  | .symbol c :: .word file :: toks, st =>
    if c = '<' then
      if (sys.openRead st file).1 < 0 then none
      else redirect sys toks (sys.move (sys.openRead st file).2 (sys.openRead st file).1 0)
    else if (sys.openWrite st file).1 < 0 then none
    else redirect sys toks (sys.move (sys.openWrite st file).2 (sys.openWrite st file).1 1)
  | .symbol _ :: toks, st => redirect sys toks st

lemma append_argWords (words : List (List Char)) (w : List Char) (toks : List Tok) :
    words ++ argWords (.word w :: toks) = (words ++ [w]) ++ argWords toks := by
  conv_lhs => unfold argWords
  rw [List.append_assoc, List.singleton_append]

lemma redirect_read (sys : Sys σ) (file : List Char) (toks : List Tok) (st : σ) :
    redirect sys (.symbol '<' :: .word file :: toks) st =
      if (sys.openRead st file).1 < 0 then none
      else redirect sys toks (sys.move (sys.openRead st file).2 (sys.openRead st file).1 0) := by
  conv_lhs => unfold redirect
  rw [if_pos rfl]

lemma redirect_write (sys : Sys σ) (file : List Char) (toks : List Tok) (st : σ) :
    redirect sys (.symbol '>' :: .word file :: toks) st =
      if (sys.openWrite st file).1 < 0 then none
      else redirect sys toks (sys.move (sys.openWrite st file).2 (sys.openWrite st file).1 1) := by
  have hne : ¬ '>' = '<' := by decide
  conv_lhs => unfold redirect
  rw [if_neg hne]

/-- Ends that come without a call of `spawn`. -/
def Stopped : ShEnd σ → Prop
  | .tooMany | .syntaxError | .openFailed | .pipeFailed | .forkFailed | .panicked _ => True
  | .empty | .spawned _ _ _ | .overflow => False

variable {sys : Sys σ} {k : ℕ} {seg tail toks : List Tok} {words : List (List Char)} {st : σ}

lemma eq_of_wellFormed {c : Char} {file : List Char} (h : wellFormed (.symbol c :: .word file :: toks) = true) :
    (c = '<' ∨ c = '>') ∧ wellFormed toks = true := by
  unfold wellFormed at h
  simpa using h

lemma not_wellFormed {c : Char} (hne : ∀ w rest, toks = .word w :: rest → False) :
    wellFormed (.symbol c :: toks) = false := by
  cases toks with
  | nil => rfl
  | cons tok rest =>
    cases tok with
    | word w => exact (hne w rest rfl).elim
    | symbol d => rfl

/-- A command without errors is read to its end. -/
lemma tokRun_segment (hform : wellFormed seg = true)
    (hlen : (words ++ argWords seg).length ≤ maxargs) :
    tokRun sys (seg ++ tail) k words st =
      match redirect sys seg st with
      | none => .openFailed
      | some st' => tokRun sys tail k (words ++ argWords seg) st' := by
  induction seg using argWords.induct generalizing words st with
  | case1 =>
    unfold argWords
    rw [List.nil_append, List.append_nil]
    rfl
  | case2 w toks ih =>
    rw [append_argWords] at hlen ⊢
    have hlt : words.length < maxargs := by
      simp only [List.length_append, List.length_singleton] at hlen
      omega
    rw [List.cons_append, tokRun_word, if_neg (Nat.ne_of_lt hlt), if_neg (Nat.lt_asymm hlt)]
    exact ih hform hlen
  | case3 c file toks ih =>
    obtain ⟨hc, hform'⟩ := eq_of_wellFormed hform
    rw [List.cons_append, List.cons_append]
    rcases hc with rfl | rfl
    · rw [tokRun_read, redirect_read]
      by_cases hfd : (sys.openRead st file).1 < 0
      · rw [if_pos hfd, if_pos hfd]
      · rw [if_neg hfd, if_neg hfd]
        exact ih hform' hlen
    · rw [tokRun_write, redirect_write]
      by_cases hfd : (sys.openWrite st file).1 < 0
      · rw [if_pos hfd, if_pos hfd]
      · rw [if_neg hfd, if_neg hfd]
        exact ih hform' hlen
  | case4 c toks hne ih =>
    rw [not_wellFormed hne] at hform
    cases hform

/-- A command with an error or with too many words comes to no call of `spawn`. -/
lemma stopped_segment (htail : ∀ w rest, tail ≠ .word w :: rest) (hbar : .symbol '|' ∉ seg)
    (hwords : words.length ≤ maxargs)
    (hbad : ¬ (wellFormed seg = true ∧ (words ++ argWords seg).length ≤ maxargs)) :
    Stopped (tokRun sys (seg ++ tail) k words st) := by
  induction seg using argWords.induct generalizing words st with
  | case1 =>
    refine absurd ⟨rfl, ?_⟩ hbad
    unfold argWords
    rw [List.append_nil]
    exact hwords
  | case2 w toks ih =>
    rw [append_argWords] at hbad
    rw [List.cons_append, tokRun_word]
    split
    · trivial
    · rename_i hne
      rw [if_neg (by omega)]
      refine ih (fun h => hbar (List.mem_cons_of_mem _ h)) ?_ hbad
      rw [List.length_append, List.length_singleton]
      omega
  | case3 c file toks ih =>
    have hrest : (.symbol '|' : Tok) ∉ toks := fun h =>
      hbar (List.mem_cons_of_mem _ (List.mem_cons_of_mem _ h))
    have hc : c ≠ '|' := fun h => hbar (h ▸ List.mem_cons_self)
    rw [List.cons_append, List.cons_append]
    by_cases hredir : c = '<' ∨ c = '>'
    · have hbad' : ¬ (wellFormed toks = true ∧ (words ++ argWords toks).length ≤ maxargs) := by
        rintro ⟨hform, hlen⟩
        refine hbad ⟨?_, hlen⟩
        unfold wellFormed
        simpa [hform] using hredir
      rcases hredir with rfl | rfl
      · rw [tokRun_read]
        split
        · trivial
        · exact ih hrest hwords hbad'
      · rw [tokRun_write]
        split
        · trivial
        · exact ih hrest hwords hbad'
    · rw [not_or] at hredir
      rw [tokRun_other sys ⟨hredir.1, hredir.2, hc⟩]
      trivial
  | case4 c toks hne ih =>
    have hc : c ≠ '|' := fun h => hbar (h ▸ List.mem_cons_self)
    rw [List.cons_append]
    by_cases hredir : c = '<' ∨ c = '>'
    · rw [tokRun_noFile hredir]
      · trivial
      · intro file rest heq
        cases toks with
        | nil => exact htail file rest heq
        | cons tok more =>
          cases heq
          exact hne file more rfl
    · rw [not_or] at hredir
      rw [tokRun_other sys ⟨hredir.1, hredir.2, hc⟩]
      trivial

/-! ### A line of commands -/

/-- The tokens of the commands behind the first one. -/
def bars (segs : List (List Tok)) : List Tok := segs.flatMap (.symbol '|' :: ·)

lemma bars_cons (second : List Tok) (others : List (List Tok)) :
    bars (second :: others) = .symbol '|' :: (second ++ bars others) := rfl

lemma bars_ne_word (segs : List (List Tok)) (w : List Char) (rest : List Tok) :
    bars segs ≠ .word w :: rest := by
  cases segs with
  | nil => exact nofun
  | cons seg segs =>
    intro h
    cases h

lemma reached_zero {first : List Tok} {others : List (List Tok)} :
    Reached (first :: others) 0 ↔ wellFormed first = true ∧ (argWords first).length ≤ maxargs := by
  constructor
  · intro h
    exact h 0 (Nat.le_refl 0) first rfl
  · intro h j hj seg hseg
    obtain rfl := Nat.le_zero.mp hj
    cases hseg
    exact h

lemma reached_succ {first : List Tok} {others : List (List Tok)} {i : ℕ} :
    Reached (first :: others) (i + 1) ↔
      (wellFormed first = true ∧ (argWords first).length ≤ maxargs) ∧ Reached others i := by
  constructor
  · intro h
    exact ⟨h 0 (Nat.zero_le _) first rfl, fun j hj seg hseg => h (j + 1) (by omega) seg hseg⟩
  · rintro ⟨hfirst, hrest⟩ j hj seg hseg
    cases j with
    | zero =>
      cases hseg
      exact hfirst
    | succ j => exact hrest j (by omega) seg hseg

/-- A process stops with an error, or comes to the end of a command that is reached. -/
lemma tokRun_cases (sys : Sys σ) (others : List (List Tok)) :
    ∀ {first : List Tok} (_ : ∀ seg ∈ first :: others, .symbol '|' ∉ seg) (k : ℕ) (st : σ),
      Stopped (tokRun sys (first ++ bars others) k [] st) ∨
      ∃ i seg st', (first :: others)[i]? = some seg ∧ Reached (first :: others) i ∧
        tokRun sys (first ++ bars others) k [] st = spawnWords (k + i) (argWords seg) st' := by
  induction others with
  | nil =>
    intro first hbar k st
    by_cases hclear : wellFormed first = true ∧ ([] ++ argWords first).length ≤ maxargs
    · rw [tokRun_segment hclear.1 hclear.2]
      cases redirect sys first st with
      | none => exact .inl trivial
      | some st' => exact .inr ⟨0, first, st', rfl, reached_zero.mpr hclear, rfl⟩
    · left
      exact stopped_segment (bars_ne_word []) (hbar first List.mem_cons_self) (Nat.zero_le _) hclear
  | cons second others ih =>
    intro first hbar k st
    by_cases hclear : wellFormed first = true ∧ ([] ++ argWords first).length ≤ maxargs
    · rw [tokRun_segment hclear.1 hclear.2]
      cases redirect sys first st with
      | none => exact .inl trivial
      | some st' =>
        dsimp only
        rw [bars_cons, tokRun_pipe]
        split
        · exact .inl trivial
        · rename_i p0 p1 st'' hpipe
          split
          · exact .inl trivial
          split
          · rcases ih (fun seg hseg => hbar seg (List.mem_cons_of_mem first hseg)) (k + 1)
              (sys.close (sys.move (sys.fork st'').2 p0 0) p1) with hstop | ⟨i, seg, st3, hseg, hreach, hrun⟩
            · exact .inl hstop
            · refine .inr ⟨i + 1, seg, st3, hseg, reached_succ.mpr ⟨hclear, hreach⟩, ?_⟩
              rw [hrun, Nat.add_assoc, Nat.add_comm 1]
          · exact .inr ⟨0, first, _, rfl, reached_zero.mpr hclear, rfl⟩
    · left
      exact stopped_segment (bars_ne_word _) (hbar first List.mem_cons_self) (Nat.zero_le _) hclear

/-- A system in which nothing fails; the state counts the forks that are still to return 0. -/
def goodSys : Sys ℕ where
  openRead st _ := (3, st)
  openWrite st _ := (3, st)
  dup st _ _ := st
  close st _ := st
  pipe st := (some (3, 4), st)
  fork st := if st = 0 then (1, 0) else (0, st - 1)

lemma redirect_goodSys (seg : List Tok) (n : ℕ) : redirect goodSys seg n = some n := by
  induction seg using argWords.induct with
  | case1 => rfl
  | case2 w toks ih => exact ih
  | case3 c file toks ih =>
    unfold redirect
    split
    · exact ih
    · exact ih
  | case4 c toks hne ih =>
    cases toks with
    | nil => rfl
    | cons tok rest =>
      cases tok with
      | word w => exact (hne w rest rfl).elim
      | symbol d => exact ih

/-- There every command that is reached comes to its end. -/
lemma tokRun_goodSys (i : ℕ) : ∀ {first : List Tok} {others : List (List Tok)} {seg : List Tok} (k : ℕ),
    (first :: others)[i]? = some seg → Reached (first :: others) i →
    ∃ n, tokRun goodSys (first ++ bars others) k [] i = spawnWords (k + i) (argWords seg) n := by
  induction i with
  | zero =>
    intro first others seg k hseg hreach
    obtain ⟨hform, hlen⟩ := reached_zero.mp hreach
    cases hseg
    rw [tokRun_segment hform hlen, redirect_goodSys]
    dsimp only
    cases others with
    | nil => exact ⟨0, rfl⟩
    | cons second others =>
      rw [bars_cons, tokRun_pipe]
      exact ⟨0, rfl⟩
  | succ i ih =>
    intro first others seg k hseg hreach
    obtain ⟨⟨hform, hlen⟩, hrest⟩ := reached_succ.mp hreach
    cases others with
    | nil => cases hseg
    | cons second others =>
      obtain ⟨n, hrun⟩ := ih (k + 1) hseg hrest
      refine ⟨n, ?_⟩
      rw [Nat.add_assoc, Nat.add_comm 1] at hrun
      rw [tokRun_segment hform hlen, redirect_goodSys]
      dsimp only
      rw [bars_cons, tokRun_pipe]
      exact hrun

/-! ### Results -/

/-- A line that `readline` can return. -/
structure ShLine where
  text : List Char
  short : text.length < buflen
  noNul : nul ∉ text

lemma readlineFrom_line {keys : List Char} : ∀ {echo line : List Char}, echo.length < buflen →
    nul ∉ echo → readlineFrom echo keys = some line → line.length < buflen ∧ nul ∉ line := by
  induction keys with
  | nil =>
    intro echo line _ _ h
    cases h
  | cons c keys ih =>
    intro echo line hlen hnul h
    unfold readlineFrom readKey at h
    by_cases hback : (c = '\x08' ∨ c = '\x7f') ∧ echo ≠ []
    · rw [if_pos hback] at h
      refine ih ?_ (fun hmem => hnul (List.mem_of_mem_tail hmem)) h
      rw [List.length_tail]
      omega
    rw [if_neg hback] at h
    by_cases hprint : ' ' ≤ c ∧ echo.length < buflen - 1
    · rw [if_pos hprint] at h
      refine ih ?_ ?_ h
      · rw [List.length_cons]
        have hsize : buflen = 1024 := rfl
        omega
      · intro hmem
        rcases List.mem_cons.mp hmem with heq | hmem
        · rw [← heq] at hprint
          exact absurd hprint.1 (by decide)
        · exact hnul hmem
    rw [if_neg hprint] at h
    by_cases hend : c = '\n' ∨ c = '\r'
    · rw [if_pos hend] at h
      cases h
      exact ⟨by rwa [List.length_reverse], fun hmem => hnul (List.mem_reverse.mp hmem)⟩
    · rw [if_neg hend] at h
      exact ih hlen hnul h

lemma readline_line {keys line : List Char} (h : readline keys = some line) :
    ∃ l : ShLine, l.text = line := by
  obtain ⟨hlen, hnul⟩ := readlineFrom_line (by decide) List.not_mem_nil h
  exact ⟨⟨line, hlen, hnul⟩, rfl⟩

lemma spawnWords_room (k : ℕ) (st : σ) (h : Room words) (hlen : words.length ≤ maxargs) :
    spawnWords k words st = .empty ∧ words = [] ∨
      spawnWords k words st = .spawned k (commandLine words) st := by
  cases words with
  | nil => exact .inl ⟨rfl, rfl⟩
  | cons name args =>
    right
    obtain ⟨hne, hname⟩ := h
    have hfits := hname name rfl
    unfold spawnWords
    dsimp only
    rw [if_neg, if_neg (by omega)]
    · rfl
    · rintro ⟨hslash, hlong⟩
      rcases hfits with hfits | hfits
      · exact hslash hfits
      · omega

lemma spawnWords_noRoom (h : ¬ Room words) (hlen : words.length ≤ maxargs) :
    spawnWords k words st = .overflow := by
  cases words with
  | nil => exact absurd ⟨by decide, nofun⟩ h
  | cons name args =>
    unfold spawnWords
    dsimp only
    split
    · rfl
    · rename_i hname
      rw [if_pos]
      by_contra hshort
      refine h ⟨by omega, ?_⟩
      rintro _ ⟨⟩
      by_contra hnot
      rw [not_or] at hnot
      exact hname ⟨hnot.1, by omega⟩

/-- A line of words. -/
lemma tokRun_words (sys : Sys σ) (k : ℕ) (st : σ) (hwords : ∀ tok ∈ toks, ∃ w, tok = .word w)
    (hlen : words.length ≤ maxargs) :
    tokRun sys toks k words st = .tooMany ∨
      tokRun sys toks k words st = spawnWords k (words ++ argWords toks) st ∧
        wellFormed toks = true ∧ (words ++ argWords toks).length ≤ maxargs := by
  induction toks generalizing words with
  | nil =>
    right
    unfold argWords
    rw [List.append_nil]
    exact ⟨rfl, rfl, hlen⟩
  | cons tok toks ih =>
    obtain ⟨w, rfl⟩ := hwords tok List.mem_cons_self
    rw [tokRun_word, append_argWords]
    split
    · exact .inl rfl
    · rename_i hne
      rw [if_neg (by omega)]
      refine ih (fun tok' h => hwords tok' (List.mem_cons_of_mem _ h)) ?_
      rw [List.length_append, List.length_singleton]
      omega

lemma segments_parts (toks : List Tok) : ∃ first others, toks = first ++ bars others ∧
    segments toks = first :: others ∧ ∀ seg ∈ first :: others, (.symbol '|' : Tok) ∉ seg :=
  splitOn_parts (Tok.symbol '|') toks

/-- Whatever the system does, `runcmd` is right about the lines that have room for every command
that is reached, and about no others. -/
theorem runcmdOk_iff (line : ShLine) :
    (∀ (σ : Type) (sys : Sys σ) (st : σ), RuncmdOk line.text (runcmd sys line.text st)) ↔
      Fits line.text := by
  obtain ⟨first, others, htoks, hsegs, hbar⟩ := segments_parts (lex line.text)
  constructor
  · intro h k seg hseg hreach
    by_contra hroom
    rw [hsegs] at hseg hreach
    obtain ⟨n, hrun⟩ := tokRun_goodSys k 0 hseg hreach
    refine (h ℕ goodSys k).inside ?_
    rw [runcmd_eq _ line.noNul, htoks, hrun]
    exact spawnWords_noRoom hroom (hreach k (Nat.le_refl k) seg hseg).2
  · intro h σ sys st
    rw [runcmd_eq _ line.noNul]
    have hends : ∀ i seg, (first :: others)[i]? = some seg → Reached (first :: others) i →
        Room (argWords seg) ∧ (argWords seg).length ≤ maxargs := by
      intro i seg hseg hreach
      exact ⟨h i seg (hsegs ▸ hseg) (hsegs ▸ hreach), (hreach i (Nat.le_refl i) seg hseg).2⟩
    constructor
    · intro hover
      rcases tokRun_cases sys others hbar 0 st with hstop | ⟨i, seg, st', hseg, hreach, hrun⟩
      · rw [← htoks, hover] at hstop
        exact hstop
      · obtain ⟨hroom, hlen⟩ := hends i seg hseg hreach
        rw [← htoks, hover] at hrun
        rcases spawnWords_room (0 + i) st' hroom hlen with ⟨hempty, -⟩ | hspawn
        · rw [hempty] at hrun
          cases hrun
        · rw [hspawn] at hrun
          cases hrun
    · intro k argv st3 hspawned
      rcases tokRun_cases sys others hbar 0 st with hstop | ⟨i, seg, st', hseg, hreach, hrun⟩
      · rw [← htoks, hspawned] at hstop
        exact hstop.elim
      · obtain ⟨hroom, hlen⟩ := hends i seg hseg hreach
        rw [← htoks, hspawned] at hrun
        rcases spawnWords_room (0 + i) st' hroom hlen with ⟨hempty, -⟩ | hspawn
        · rw [hempty] at hrun
          cases hrun
        · rw [hspawn, Nat.zero_add] at hrun
          cases hrun
          exact ⟨seg, hsegs ▸ hseg, rfl⟩
    · intro hne hwords
      have hempty : ([] : List (List Char)).length ≤ maxargs := Nat.zero_le _
      rcases tokRun_words sys 0 st hwords hempty with
        hmany | ⟨hrun, hform, hlen⟩
      · exact .inl hmany
      right
      -- a line of words is one command
      have hone : segments (lex line.text) = [lex line.text] := by
        refine List.splitOn_eq_singleton fun hmem => ?_
        obtain ⟨w, hw⟩ := hwords _ hmem
        cases hw
      have hroom : Room (argWords (lex line.text)) := by
        apply h 0
        · rw [hone]
          rfl
        · rw [hone]
          exact reached_zero.mpr ⟨hform, hlen⟩
      rw [hrun, List.nil_append]
      rcases spawnWords_room 0 st hroom hlen with ⟨-, hnil⟩ | hspawn
      · cases htok : lex line.text with
        | nil => exact absurd htok hne
        | cons tok toks =>
          rw [htok] at hwords hnil
          obtain ⟨w, rfl⟩ := hwords tok List.mem_cons_self
          cases hnil
      · exact ⟨_, _, hspawn⟩

lemma lex_blank (s : List Char) : lex (' ' :: s) = lex s := by
  have hfirst : firstTok (' ' :: s) = firstTok s := by
    unfold firstTok
    rw [List.dropWhile_cons_of_pos (by decide)]
  cases hs : firstTok s with
  | none => rw [lex_none hs, lex_none (hfirst.trans hs)]
  | some x => rw [lex_some hs, lex_some (hfirst.trans hs)]

/-- Sixteen words. -/
def sixteen (n : ℕ) : List Char := (List.replicate n ['a', ' ']).flatten

lemma lex_sixteen (n : ℕ) : lex (sixteen n) = List.replicate n (.word ['a']) := by
  induction n with
  | zero => exact lex_none rfl
  | succ n ih =>
    have hfirst : firstTok (sixteen (n + 1)) = some (.word ['a'], ' ' :: sixteen n) := rfl
    rw [lex_some hfirst, lex_blank, ih]
    rfl

/-- The null pointer is stored behind `argv`. -/
theorem runcmdOk_fails : ¬ ∀ (line : ShLine) (σ : Type) (sys : Sys σ) (st : σ),
    RuncmdOk line.text (runcmd sys line.text st) := by
  intro h
  have hnul : nul ∉ sixteen 16 := by decide
  refine (h ⟨sixteen 16, by decide, hnul⟩ ℕ goodSys 0).inside ?_
  rw [runcmd_eq _ hnul, lex_sixteen]
  rfl

end SistemasOperativos.User
