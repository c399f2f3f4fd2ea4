import Mathlib.Data.List.Basic
import Mathlib.Data.Int.Notation
import Mathlib.Tactic.Common

/-!
# The parser of the shell

`parsing.c`, `createcmd.c` and the string functions of `utils.c` of `TPShell`. A `char *` into
the line buffer is an index; the parser splits the line by writing terminators into the buffer.
-/

namespace SistemasOperativos.Shell

def endString : Char := '\x00'
def space : Char := ' '

/-- The line buffer, with the byte before it and the bytes behind it. -/
abbrev Buffer := List Char

/-- The string that starts at index `p`. -/
def strAt (b : Buffer) (p : ℕ) : List Char := (b.drop p).takeWhile (· ≠ endString)

/-! ### `utils.c` -/

/-- `split_line`: the buffer afterwards and the index of what follows the splitter. -/
def splitLine (b : Buffer) (p : ℕ) (splitter : Char) : Buffer × ℕ :=
  let i := p + ((b.drop p).takeWhile (fun x => x ≠ splitter ∧ x ≠ endString)).length
  let b := b.set i endString
  (b, i + 1 + ((b.drop (i + 1)).takeWhile (· = space)).length)

/-- `block_contains`, with `none` for `-1`. -/
def blockContains (s : List Char) (c : Char) : Option ℕ := s.idxOf? c

/-! ### Commands -/

inductive ExecType
  | exec
  | redir
  deriving DecidableEq, Repr

/-- `struct execcmd`; `argc` and `eargc` are the lengths. -/
structure ExecCmd where
  type : ExecType
  scmd : List Char
  argv : List (List Char)
  eargv : List (List Char)
  outFile : List Char
  inFile : List Char
  errFile : List Char
  deriving DecidableEq

/-- A `struct cmd *`. The `scmd` of a `BACK` node is that of its command, and a `PIPE` node has
an empty one. -/
inductive Cmd
  | null
  | exec (e : ExecCmd)
  | back (c : Cmd)
  | pipe (left right : Cmd)
  deriving DecidableEq

/-- No pointer to a command is null. -/
def Cmd.noNull : Cmd → Bool
  | .null => false
  | .exec _ => true
  | .back c => c.noNull
  | .pipe l r => l.noNull && r.noNull

def execCmdCreate (scmd : List Char) : ExecCmd := ⟨.exec, scmd, [], [], [], [], []⟩

def pipeCmdCreate (left right : Cmd) : Cmd :=
  match right with
  | .null => left
  | _ => .pipe left right

/-! ### `parsing.c` -/

/-- What the parser reads from outside: the environment, the global `status`, and the bytes that
follow in the heap, up to the next terminator, when `realloc` has cut the block of an argument
down to a value. -/
structure Environ where
  getenv : List Char → Option (List Char)
  status : ℤ
  heap : List Char → List Char → List Char

def getToken (s : List Char) (idx : ℕ) : List Char := (s.drop idx).takeWhile (· ≠ space)

/-- `parse_redir_flow`: the command with the redirection, if `arg` is one. -/
def parseRedirFlow (c : ExecCmd) (arg : List Char) : Option ExecCmd :=
  match blockContains arg '>' with
  | some 0 => some { c with outFile := arg.drop 1, type := .redir }
  | some 1 => some { c with errFile := arg.drop 2, type := .redir }
  | some _ => some { c with type := .redir }
  | none =>
    match blockContains arg '<' with
    | some _ => some { c with inFile := arg.drop 1, type := .redir }
    | none => none

def parseEnvironVar (c : ExecCmd) (arg : List Char) : Option ExecCmd :=
  match blockContains arg '=' with
  | some (_ + 1) =>
    match blockContains arg '-' with
    | none => some { c with eargv := c.eargv ++ [arg] }
    | some _ => none
  | _ => none

/-- `expand_environ_var`. A value shorter than the token is copied without a terminator. -/
def expandEnvironVar (env : Environ) (arg : List Char) : List Char :=
  match arg with
  | '$' :: '?' :: _ => (toString env.status).toList
  | '$' :: name =>
    match env.getenv name with
    | some value =>
      if arg.length > value.length then
        value ++ (arg.drop value.length).take 1 ++ env.heap arg value
      else value
    | none => []
  | _ => arg

/-- One token of `parse_exec`. -/
def addToken (env : Environ) (c : ExecCmd) (tok : List Char) : ExecCmd :=
  match parseRedirFlow c tok with
  | some c => c
  | none =>
    match parseEnvironVar c tok with
    | some c => c
    | none => { c with argv := c.argv ++ [expandEnvironVar env tok] }

/-- The loop of `parse_exec` from index `idx` on. -/
def parseExecFrom (env : Environ) (s : List Char) (idx : ℕ) (c : ExecCmd) : ExecCmd :=
  if h : idx < s.length then
    let tok := getToken s idx
    let next := idx + tok.length
    if next < s.length then parseExecFrom env s (next + 1) (addToken env c tok)
    else addToken env c tok
  else c
termination_by s.length - idx

def parseExec (env : Environ) (s : List Char) : ExecCmd :=
  parseExecFrom env s 0 (execCmdCreate s)

/-- `parse_back`, which cuts the string at its `&`. -/
def parseBack (env : Environ) (b : Buffer) (p : ℕ) : Cmd × Buffer :=
  let i := ((b.drop p).takeWhile (· ≠ '&')).length
  let b := b.set (p + i) endString
  (.back (.exec (parseExec env (strAt b p))), b)

def parseCmd (env : Environ) (b : Buffer) (p : ℕ) : Cmd × Buffer :=
  let s := strAt b p
  if s = [] then (.null, b)
  else
    match blockContains s '&' with
    | some idx =>
      -- with `idx = 0` this is the byte before the string
      if b.getD (p + idx - 1) endString ≠ '>' then parseBack env b p
      else (.exec (parseExec env s), b)
    | none => (.exec (parseExec env s), b)

lemma splitLine_length (b : Buffer) (p : ℕ) (c : Char) : (splitLine b p c).1.length = b.length := by
  unfold splitLine
  exact List.length_set

lemma lt_splitLine (b : Buffer) (p : ℕ) (c : Char) : p < (splitLine b p c).2 := by
  unfold splitLine
  dsimp only
  omega

lemma parseCmd_length (env : Environ) (b : Buffer) (p : ℕ) :
    (parseCmd env b p).2.length = b.length := by
  unfold parseCmd parseBack
  dsimp only
  split
  · rfl
  · split
    · split
      · exact List.length_set
      · rfl
    · rfl

lemma lt_of_blockContains {b : Buffer} {p i : ℕ} {c : Char}
    (h : blockContains (strAt b p) c = some i) : p < b.length := by
  by_contra hge
  unfold blockContains strAt at h
  rw [List.drop_of_length_le (by omega)] at h
  cases h

/-- `parse_line`: the command, `null` for a null pointer, and the buffer afterwards. -/
def parseLine (env : Environ) (b : Buffer) (p : ℕ) : Cmd × Buffer :=
  let right := (splitLine b p '|').2
  let l := parseCmd env (splitLine b p '|').1 p
  match _ : blockContains (strAt l.2 right) '|' with
  | some (_ + 1) =>
    let r := parseLine env l.2 right
    (pipeCmdCreate l.1 r.1, r.2)
  | _ =>
    let r := parseCmd env l.2 right
    (pipeCmdCreate l.1 r.1, r.2)
termination_by b.length - p
decreasing_by
  have hlt := lt_splitLine b p '|'
  have hlen := (parseCmd_length env (splitLine b p '|').1 p).trans (splitLine_length b p '|')
  have hin : (splitLine b p '|').2 < (parseCmd env (splitLine b p '|').1 p).2.length :=
    lt_of_blockContains ‹_›
  omega

end SistemasOperativos.Shell
