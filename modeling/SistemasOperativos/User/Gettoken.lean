import Mathlib.Data.List.TakeWhile
import SistemasOperativos.Library.Strings

/-!
# Tokens of a command line

`_gettoken` and `gettoken` of `user/sh.c` cut a line in place: blanks and symbols are overwritten
with terminators, and a word ends at the one that the call for the next token writes.
-/

namespace SistemasOperativos.User

open Library

def nul : Char := '\x00'
/-- `WHITESPACE`. -/
def whitespace : List Char := [' ', '\t', '\r', '\n']
/-- `SYMBOLS`. -/
def symbols : List Char := ['<', '|', '>', '&', ';', '(', ')']

def isWhite (c : Char) : Bool := whitespace.contains c
def isSymbol (c : Char) : Bool := symbols.contains c
/-- What a word is made of. -/
def isWord (c : Char) : Bool := c ≠ nul && !isWhite c && !isSymbol c

/-- The buffer with the line and the static variables `nc`, `np1` and `np2` of `gettoken`. -/
structure Lexer where
  buf : List Char
  nc : Char
  np1 : ℕ
  np2 : Option ℕ

/-- `_gettoken` at position `s`. -/
def gettokenAt (buf : List Char) (s : ℕ) : Lexer :=
  let white := ((buf.drop s).takeWhile isWhite).length
  let buf := buf.take s ++ List.replicate white nul ++ buf.drop (s + white)
  let s := s + white
  match buf.drop s with
  | [] => ⟨buf, nul, 0, none⟩
  | c :: _ =>
    if c = nul then ⟨buf, nul, 0, none⟩
    else if isSymbol c then ⟨buf.set s nul, c, s, some (s + 1)⟩
    else ⟨buf, 'w', s, some (s + ((buf.drop s).takeWhile isWord).length)⟩

/-- `gettoken(s, 0)`. -/
def gettokenStart (line : List Char) : Lexer := gettokenAt (line ++ [nul]) 0

/-- `gettoken(0, &t)`: the kind of the token that was found before and its place, and the state
after the next one has been found. -/
def gettoken (lx : Lexer) : Char × ℕ × Lexer :=
  match lx.np2 with
  | none => (lx.nc, lx.np1, { lx with nc := nul })
  | some s => (lx.nc, lx.np1, gettokenAt lx.buf s)

/-- How far the end of the line is. -/
def Lexer.measure (lx : Lexer) : ℕ :=
  (match lx.np2 with
    | none => 0
    | some s => lx.buf.length + 1 - s) + if lx.nc = nul then 0 else 1

/-! ### Tokens of a text -/

inductive Tok
  | word (w : List Char)
  | symbol (c : Char)
deriving DecidableEq

/-- The first token of a text and what is behind it. -/
def firstTok (s : List Char) : Option (Tok × List Char) :=
  match s.dropWhile isWhite with
  | [] => none
  | c :: rest =>
    if isSymbol c then some (.symbol c, rest)
    else some (.word (c :: rest.takeWhile isWord), rest.dropWhile isWord)

lemma firstTok_length {s rest : List Char} {tok : Tok} (h : firstTok s = some (tok, rest)) :
    rest.length < s.length := by
  have hle := List.length_dropWhile_le isWhite s
  unfold firstTok at h
  split at h
  · cases h
  · rename_i c rest' hs
    rw [hs, List.length_cons] at hle
    split at h
    · cases h
      omega
    · cases h
      have hrest := List.length_dropWhile_le isWord rest'
      omega

/-- The tokens of a text. -/
def lex (s : List Char) : List Tok :=
  match h : firstTok s with
  | none => []
  | some (tok, rest) =>
    have := firstTok_length h
    tok :: lex rest
termination_by s.length

lemma lex_none {s : List Char} (h : firstTok s = none) : lex s = [] := by
  unfold lex
  split
  · rfl
  · rename_i h'
    rw [h] at h'
    cases h'

lemma lex_some {s rest : List Char} {tok : Tok} (h : firstTok s = some (tok, rest)) :
    lex s = tok :: lex rest := by
  conv_lhs => unfold lex
  split
  · rename_i h'
    rw [h] at h'
    cases h'
  · rename_i tok' rest' h'
    rw [h] at h'
    cases h'
    rfl

/-- What `gettoken` returns for a token. -/
def Tok.kind : Tok → Char
  | .word _ => 'w'
  | .symbol c => c

/-! ### The buffer while it is read -/

/-- The word `w` at `p` is terminated within `front`. -/
def Terminated (front : List Char) (p : ℕ) (w : List Char) : Prop :=
  nul ∉ w ∧ ∃ a b, front = a ++ w ++ nul :: b ∧ a.length = p

/-- The words that were found so far stay as they are. -/
lemma Terminated.mono {front front' : List Char} {p : ℕ} {w : List Char} (h : Terminated front p w)
    (hpre : front <+: front') : Terminated front' p w := by
  obtain ⟨hw, a, b, rfl, hlen⟩ := h
  obtain ⟨more, rfl⟩ := hpre
  exact ⟨hw, a, b ++ more, by simp, hlen⟩

lemma Terminated.cstr {front buf : List Char} {p : ℕ} {w : List Char} (h : Terminated front p w)
    (hpre : front <+: buf) : cstr nul (buf.drop p) = w := by
  obtain ⟨hw, a, b, rfl, hlen⟩ := h.mono hpre
  rw [List.append_assoc, ← hlen, List.drop_left, cstr_append hw]

/-- The token that was found is `tok?`, everything up to its end is in `front`, and `rest` is still
as it was. -/
inductive Found : Lexer → List Char → List Char → Option Tok → Prop
  | word (a w rest : List Char) (hw : nul ∉ w) (hend : ∀ c ∈ rest.head?, isWord c = false) :
    Found ⟨a ++ w ++ rest ++ [nul], 'w', a.length, some (a ++ w).length⟩ (a ++ w) rest (some (.word w))
  | symbol (front rest : List Char) (c : Char) (hc : isSymbol c = true) (p : ℕ) :
    Found ⟨front ++ rest ++ [nul], c, p, some front.length⟩ front rest (some (.symbol c))
  | done (front : List Char) (p : ℕ) : Found ⟨front, nul, p, none⟩ front [] none

variable {front rest : List Char} {c : Char} {p : Char → Bool}

lemma takeWhile_stop {ws t : List Char} (hws : ∀ a ∈ ws, p a = true) (hc : p c = false) :
    (ws ++ c :: t).takeWhile p = ws := by
  rw [List.takeWhile_append_of_pos hws, List.takeWhile_cons_of_neg (by simp [hc]), List.append_nil]

lemma head?_dropWhile (p : Char → Bool) (s : List Char) : ∀ c ∈ (s.dropWhile p).head?, p c = false := by
  intro c hc
  have hne : s.dropWhile p ≠ [] := by
    intro hnil
    rw [hnil] at hc
    cases hc
  have hhead := List.head_dropWhile_not p hne
  rw [List.head?_eq_some_head hne] at hc
  cases hc
  exact hhead

/-- The next token is found, and what was found before is terminated. -/
lemma gettokenAt_found (front rest : List Char) (hrest : nul ∉ rest) :
    ∃ front' rest' tok?, Found (gettokenAt (front ++ rest ++ [nul]) front.length) front' rest' tok? ∧
      nul ∉ rest' ∧ tok?.toList ++ lex rest' = lex rest ∧ front <+: front' ∧
      ((∀ c ∈ rest.head?, isWord c = false) → front ++ [nul] <+: front') := by
  have hsplit : rest = rest.takeWhile isWhite ++ rest.dropWhile isWhite :=
    List.takeWhile_append_dropWhile.symm
  have hwhite : ∀ a ∈ rest.takeWhile isWhite, isWhite a = true := fun a ha => List.mem_takeWhile_imp ha
  have hstop := head?_dropWhile isWhite rest
  have hnul : isWhite nul = false := by decide
  generalize hws : rest.takeWhile isWhite = ws at hsplit hwhite
  generalize hrest1 : rest.dropWhile isWhite = rest1 at hsplit hstop
  -- the blanks are overwritten
  have hdrop : (front ++ rest ++ [nul]).drop front.length = ws ++ (rest1 ++ [nul]) := by
    rw [List.append_assoc, List.drop_left, hsplit, List.append_assoc]
  have htake : (front ++ rest ++ [nul]).take front.length = front := by
    rw [List.append_assoc, List.take_left]
  have hlen : ((front ++ rest ++ [nul]).drop front.length).takeWhile isWhite = ws := by
    rw [hdrop]
    cases rest1 with
    | nil => exact takeWhile_stop hwhite hnul
    | cons c rest2 => exact takeWhile_stop hwhite (hstop c rfl)
  have hbehind : (front ++ rest ++ [nul]).drop (front.length + ws.length) = rest1 ++ [nul] := by
    rw [← List.drop_drop, hdrop, List.drop_left]
  generalize hblank : front ++ List.replicate ws.length nul = a
  have ha : a.length = front.length + ws.length := by rw [← hblank]; simp
  have hat : (a ++ (rest1 ++ [nul])).drop (front.length + ws.length) = rest1 ++ [nul] := by
    rw [← ha, List.drop_left]
  have hpre : front <+: a := hblank ▸ List.prefix_append _ _
  have hpre' : ws ≠ [] → front ++ [nul] <+: a := by
    intro hne
    obtain ⟨n, hn⟩ := Nat.exists_eq_succ_of_ne_zero (Nat.ne_of_gt (List.length_pos_iff.mpr hne))
    rw [← hblank, hn, List.replicate_succ]
    exact ⟨List.replicate n nul, by simp⟩
  unfold gettokenAt
  rw [hlen, htake]
  dsimp only
  rw [hbehind, hblank, hat]
  cases rest1 with
  | nil =>
    have hnone : firstTok rest = none := by
      unfold firstTok
      rw [hrest1]
    refine ⟨a ++ [nul], [], none, ?_, List.not_mem_nil, ?_, hpre.trans (List.prefix_append _ _), ?_⟩
    · exact Found.done _ 0
    · rw [lex_none hnone, lex_none rfl]
      rfl
    · intro _
      by_cases hne : ws = []
      · rw [← hblank, hne]
        exact ⟨[], by simp⟩
      · exact (hpre' hne).trans (List.prefix_append _ _)
  | cons c rest2 =>
    have hmem : ∀ b ∈ c :: rest2, b ≠ nul := by
      intro b hb hnil
      apply hrest
      rw [hsplit, ← hnil]
      exact List.mem_append_right ws hb
    have hc : c ≠ nul := hmem c List.mem_cons_self
    rw [List.cons_append]
    dsimp only
    rw [if_neg hc]
    by_cases hsym : isSymbol c = true
    · have hsome : firstTok rest = some (.symbol c, rest2) := by
        unfold firstTok
        rw [hrest1]
        exact if_pos hsym
      have hset : (a ++ c :: (rest2 ++ [nul])).set (front.length + ws.length) nul =
          (a ++ [nul]) ++ rest2 ++ [nul] := by
        rw [← ha, List.set_append_right _ _ (Nat.le_refl _), Nat.sub_self, List.set_cons_zero]
        simp
      have hend : front.length + ws.length + 1 = (a ++ [nul]).length := by simp [ha]
      rw [if_pos hsym, hset, hend]
      refine ⟨a ++ [nul], rest2, some (.symbol c), Found.symbol _ _ _ hsym _, ?_, ?_, ?_, ?_⟩
      · exact fun h => hmem nul (List.mem_cons_of_mem c h) rfl
      · exact (lex_some hsome).symm
      · exact hpre.trans (List.prefix_append _ _)
      · intro _
        by_cases hne : ws = []
        · rw [← hblank, hne]
          exact ⟨[], by simp⟩
        · exact (hpre' hne).trans (List.prefix_append _ _)
    · have hwhite' : isWhite c = false := hstop c rfl
      have hword : isWord c = true := by
        unfold isWord
        simp [hc, hwhite', hsym]
      have hsome : firstTok rest =
          some (.word (c :: rest2.takeWhile isWord), rest2.dropWhile isWord) := by
        unfold firstTok
        rw [hrest1]
        exact if_neg hsym
      have htw : (c :: (rest2 ++ [nul])).takeWhile isWord = c :: rest2.takeWhile isWord := by
        rw [List.takeWhile_cons_of_pos hword]
        congr 1
        have hparts : rest2 ++ [nul] =
            rest2.takeWhile isWord ++ (rest2.dropWhile isWord ++ [nul]) := by
          rw [← List.append_assoc, List.takeWhile_append_dropWhile]
        rw [hparts]
        cases hdw : rest2.dropWhile isWord with
        | nil => exact takeWhile_stop (fun b hb => List.mem_takeWhile_imp hb) (by decide)
        | cons d t =>
          have hd := head?_dropWhile isWord rest2 d (by rw [hdw]; rfl)
          exact takeWhile_stop (fun b hb => List.mem_takeWhile_imp hb) hd
      have hbuf : a ++ c :: (rest2 ++ [nul]) =
          a ++ (c :: rest2.takeWhile isWord) ++ rest2.dropWhile isWord ++ [nul] := by
        simp
      have hend : front.length + ws.length + (c :: rest2.takeWhile isWord).length =
          (a ++ (c :: rest2.takeWhile isWord)).length := by
        rw [List.length_append, ha]
      rw [if_neg hsym, htw, hbuf, hend, ← ha]
      refine ⟨_, _, _, Found.word a _ _ ?_ (head?_dropWhile isWord rest2), ?_, ?_, ?_, ?_⟩
      · intro h
        rcases List.mem_cons.mp h with h | h
        · exact hc h.symm
        · exact hmem nul (List.mem_cons_of_mem c ((List.takeWhile_sublist isWord).mem h)) rfl
      · intro h
        exact hmem nul (List.mem_cons_of_mem c ((List.dropWhile_sublist isWord).mem h)) rfl
      · exact (lex_some hsome).symm
      · exact hpre.trans (List.prefix_append _ _)
      · intro hfirst
        by_cases hne : ws = []
        · have hbad := hfirst c (by rw [hsplit, hne]; rfl)
          rw [hword] at hbad
          cases hbad
        · exact (hpre' hne).trans (List.prefix_append _ _)

/-- The token that was found is returned, its word terminated, and the next one is found. -/
lemma gettoken_found {lx : Lexer} {tok : Tok} (h : Found lx front rest (some tok))
    (hrest : nul ∉ rest) :
    ∃ lx' front' rest' tok?, gettoken lx = (tok.kind, lx.np1, lx') ∧ Found lx' front' rest' tok? ∧
      nul ∉ rest' ∧ tok?.toList ++ lex rest' = lex rest ∧ front <+: front' ∧
      ∀ w, tok = .word w → Terminated front' lx.np1 w := by
  obtain ⟨front', rest', tok?, hfound, hrest', hlex, hpre, hterm⟩ := gettokenAt_found front rest hrest
  cases h with
  | word a w _ hw hend =>
    refine ⟨_, front', rest', tok?, rfl, hfound, hrest', hlex, hpre, ?_⟩
    rintro _ ⟨⟩
    obtain ⟨b, hb⟩ := hterm hend
    exact ⟨hw, a, b, by rw [← hb]; simp, rfl⟩
  | symbol _ _ c hc p =>
    exact ⟨_, front', rest', tok?, rfl, hfound, hrest', hlex, hpre, nofun⟩

/-- At the end of the line there is nothing more to find. -/
lemma gettoken_done {lx : Lexer} (h : Found lx front rest none) :
    ∃ p lx', gettoken lx = (nul, p, lx') ∧ lx'.buf = lx.buf := by
  cases h with
  | done _ p => exact ⟨p, _, rfl, rfl⟩

lemma gettokenStart_found {line : List Char} (h : nul ∉ line) :
    ∃ front rest tok?, Found (gettokenStart line) front rest tok? ∧ nul ∉ rest ∧
      tok?.toList ++ lex rest = lex line := by
  obtain ⟨front, rest, tok?, hfound, hrest, hlex, -, -⟩ := gettokenAt_found [] line h
  exact ⟨front, rest, tok?, hfound, hrest, hlex⟩

lemma Found.prefix_buf {lx : Lexer} {tok? : Option Tok} (h : Found lx front rest tok?) :
    front <+: lx.buf := by
  cases h with
  | word a w _ _ _ => exact ⟨rest ++ [nul], by simp⟩
  | symbol _ _ c hc p => exact ⟨rest ++ [nul], by simp⟩
  | done _ p => exact List.prefix_refl _

/-! ### The loop ends -/

lemma drop_takeWhile (p : Char → Bool) (s : List Char) :
    s.drop (s.takeWhile p).length = s.dropWhile p := by
  conv_lhs => enter [2]; rw [← List.takeWhile_append_dropWhile (p := p) (l := s)]
  exact List.drop_left

lemma gettokenAt_measure (buf : List Char) (s : ℕ) :
    (gettokenAt buf s).measure ≤ buf.length + 1 - s := by
  have hdrop : buf.drop (s + ((buf.drop s).takeWhile isWhite).length) =
      (buf.drop s).dropWhile isWhite := by
    rw [← List.drop_drop, drop_takeWhile]
  have hstop := head?_dropWhile isWhite (buf.drop s)
  have hle : ((buf.drop s).takeWhile isWhite).length ≤ buf.length - s := by
    have h := (List.takeWhile_sublist isWhite (l := buf.drop s)).length_le
    rwa [List.length_drop] at h
  unfold gettokenAt
  generalize ((buf.drop s).takeWhile isWhite).length = n at hdrop hle ⊢
  rw [← hdrop] at hstop
  dsimp only
  generalize hbuf : buf.take s ++ List.replicate n nul ++ buf.drop (s + n) = buf'
  have hlen : buf'.length = min s buf.length + n + (buf.length - (s + n)) := by
    rw [← hbuf]
    simp only [List.length_append, List.length_take, List.length_replicate, List.length_drop]
  cases hrest : buf'.drop (s + n) with
  | nil => exact Nat.zero_le _
  | cons c tail =>
    have hlt : s + n < buf'.length := by
      by_contra hnot
      rw [List.drop_eq_nil_of_le (by omega)] at hrest
      cases hrest
    dsimp only
    by_cases hc : c = nul
    · rw [if_pos hc]
      exact Nat.zero_le _
    rw [if_neg hc]
    by_cases hsym : isSymbol c = true
    · rw [if_pos hsym]
      unfold Lexer.measure
      dsimp only
      rw [if_neg hc, List.length_set]
      omega
    · have hkept : buf'.drop (s + n) = buf.drop (s + n) := by
        rw [← hbuf]
        exact List.drop_left' (by simp; omega)
      have hwhite : isWhite c = false := hstop c (by rw [← hkept, hrest]; rfl)
      have hword : isWord c = true := by
        unfold isWord
        simp [hc, hwhite, hsym]
      rw [if_neg hsym, List.takeWhile_cons_of_pos hword, List.length_cons]
      unfold Lexer.measure
      dsimp only
      rw [if_neg (by decide)]
      omega

/-- Every call that does not return the end comes closer to it. -/
lemma gettoken_measure (lx : Lexer) (h : (gettoken lx).1 ≠ nul) :
    (gettoken lx).2.2.measure < lx.measure := by
  unfold gettoken at h ⊢
  cases hnp : lx.np2 with
  | none =>
    rw [hnp] at h
    unfold Lexer.measure
    dsimp only at h ⊢
    rw [hnp, if_neg h, if_pos rfl]
    exact Nat.zero_lt_one
  | some s =>
    rw [hnp] at h
    have hle := gettokenAt_measure lx.buf s
    unfold Lexer.measure at hle ⊢
    dsimp only at h ⊢
    rw [hnp, if_neg h]
    dsimp only
    omega

end SistemasOperativos.User
