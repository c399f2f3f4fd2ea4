import SistemasOperativos.Shell.Lines

/-!
# The tokens of a segment

`parse_exec` cuts a segment behind every single space and gives each piece to three classifiers in
turn. Here the tokens of a segment are its maximal runs without spaces, and a token is a
redirection, an assignment or an argument by how it begins.
-/

namespace SistemasOperativos.Shell

/-- The size of `argv` and of `eargv`. -/
def maxargs : ℕ := 20

/-- The maximal runs without spaces. -/
def tokens (s : List Char) : List (List Char) := (s.splitOn space).filter (· ≠ [])

/-- What a token stands for. -/
inductive Word
  | out (file : List Char)
  | err (file : List Char)
  | inp (file : List Char)
  | assign
  | arg
  deriving DecidableEq

def Word.out? : Word → Option (List Char)
  | .out file => some file
  | _ => none

def Word.err? : Word → Option (List Char)
  | .err file => some file
  | _ => none

def Word.inp? : Word → Option (List Char)
  | .inp file => some file
  | _ => none

/-- `>F`, `2>F`, `<F`, `KEY=VALUE` with a key without `-`, or an argument. -/
def word (tok : List Char) : Word :=
  match tok with
  | '>' :: file => .out file
  | '2' :: '>' :: file => .err file
  | '<' :: file => .inp file
  | _ =>
    let key := tok.takeWhile (· ≠ '=')
    if '=' ∈ tok ∧ key ≠ [] ∧ '-' ∉ key then .assign else .arg

/-- The file that the last of the tokens names, and the empty name if there is none. -/
def lastFile (file? : List Char → Option (List Char)) (toks : List (List Char)) : List Char :=
  (toks.filterMap file?).getLast?.getD []

/-- `parse_exec` accounts for every token of the segment once. The stores into the two arrays are
at the indices below the lengths, and the one of the null pointer at `argc`. -/
structure ParseOk (env : Environ) (s : List Char) : Prop where
  outFile : (parseExec env s).outFile = lastFile (fun tok => (word tok).out?) (tokens s)
  errFile : (parseExec env s).errFile = lastFile (fun tok => (word tok).err?) (tokens s)
  inFile : (parseExec env s).inFile = lastFile (fun tok => (word tok).inp?) (tokens s)
  eargv : (parseExec env s).eargv = (tokens s).filter (word · = .assign)
  argv : (parseExec env s).argv =
    ((tokens s).filter (word · = .arg)).map (expandEnvironVar env)
  expanded : ∀ arg ∈ (parseExec env s).argv, arg = [] →
    ∃ name, '$' :: name ∈ tokens s ∧ arg = expandEnvironVar env ('$' :: name)
  argc : (parseExec env s).argv.length < maxargs
  eargc : (parseExec env s).eargv.length ≤ maxargs

/-- The file behind a `>` in second place, whatever stands before it. -/
def secondFile? : List Char → Option (List Char)
  | a :: '>' :: file => if a = '>' then none else some file
  | _ => none

/-- The segments that are parsed as they should be: no space in front and no two in a row, no
`<` or `>` inside a word that is no redirection, no `-` in a value, no `>` in the last input file,
no `<>F` behind the last `2>F` that names another file, and room in the arrays. -/
structure WellSpaced (s : List Char) : Prop where
  spaces : [] ∉ (s.splitOn space).dropLast
  words : ∀ tok ∈ tokens s, (word tok = .arg ∨ word tok = .assign) → '>' ∉ tok ∧ '<' ∉ tok
  values : ∀ tok ∈ tokens s, word tok = .assign → '-' ∉ tok
  inFile : '>' ∉ lastFile (fun tok => (word tok).inp?) (tokens s)
  errFile : lastFile secondFile? (tokens s) = lastFile (fun tok => (word tok).err?) (tokens s)
  argc : ((tokens s).filter (word · = .arg)).length < maxargs
  eargc : ((tokens s).filter (word · = .assign)).length ≤ maxargs

variable {env : Environ} {s tok : List Char}

/-! ### The pieces -/

/-- The pieces of the loop: it stops at the end of the string, without an empty last piece. -/
def pieces (s : List Char) : List (List Char) :=
  if (s.splitOn space).getLast? = some [] then (s.splitOn space).dropLast else s.splitOn space

lemma pieces_nil : pieces [] = [] := rfl

lemma pieces_word (hne : tok ≠ []) (hspace : space ∉ tok) : pieces tok = [tok] := by
  unfold pieces
  rw [List.splitOn_eq_singleton hspace, if_neg]
  simpa using hne

lemma pieces_cons (hspace : space ∉ tok) (rest : List Char) :
    pieces (tok ++ space :: rest) = tok :: pieces rest := by
  have hsplit := List.splitOn_append_cons_self_of_not_mem hspace rest
  have hne := List.splitOn_ne_nil space rest
  unfold pieces
  rw [hsplit, List.getLast?_cons_of_ne_nil hne, List.dropLast_cons_of_ne_nil hne]
  split <;> rfl

lemma not_mem_getToken (s : List Char) (idx : ℕ) : space ∉ getToken s idx := by
  intro hmem
  simpa using List.mem_takeWhile_imp hmem

/-- The loop adds the pieces one by one. -/
lemma parseExecFrom_pieces (env : Environ) (s : List Char) (idx : ℕ) (c : ExecCmd) :
    parseExecFrom env s idx c = (pieces (s.drop idx)).foldl (addToken env) c := by
  induction idx, c using parseExecFrom.induct env s with
  | case1 idx c h tok next hnext ih =>
    have hdrop : s.drop idx = getToken s idx ++ space :: s.drop (next + 1) := by
      have hrest : s.drop next = (s.drop idx).dropWhile (· ≠ space) := by
        have hleft : (getToken s idx ++ (s.drop idx).dropWhile (· ≠ space)).drop
            (getToken s idx).length = (s.drop idx).dropWhile (· ≠ space) := List.drop_left
        have happ : getToken s idx ++ (s.drop idx).dropWhile (· ≠ space) = s.drop idx :=
          List.takeWhile_append_dropWhile
        rw [happ, List.drop_drop] at hleft
        exact hleft
      have hcons := List.drop_eq_getElem_cons hnext
      have hhead : s[next] = space := by
        have hne : (s.drop idx).dropWhile (· ≠ space) ≠ [] := by
          rw [← hrest, hcons]
          exact List.cons_ne_nil _ _
        have hnot := List.head_dropWhile_not (· ≠ space) hne
        rw [hrest] at hcons
        simp only [hcons, List.head_cons] at hnot
        simpa using hnot
      rw [← hhead, ← hcons, hrest]
      exact (List.takeWhile_append_dropWhile).symm
    rw [parseExecFrom, dif_pos h]
    dsimp only
    rw [if_pos hnext, ih, hdrop, pieces_cons (not_mem_getToken s idx)]
    rfl
  | case2 idx c h tok next hnext =>
    have htok : getToken s idx = s.drop idx := by
      apply (List.takeWhile_prefix _).eq_of_length_le
      have hlen : (getToken s idx).length = tok.length := rfl
      have hnext' : ¬ idx + tok.length < s.length := hnext
      unfold getToken at hlen
      rw [hlen, List.length_drop]
      omega
    have hne : s.drop idx ≠ [] := by
      intro hnil
      rw [List.drop_eq_nil_iff] at hnil
      omega
    rw [parseExecFrom, dif_pos h]
    dsimp only
    rw [if_neg hnext, htok, pieces_word hne (htok ▸ not_mem_getToken s idx)]
    rfl
  | case3 idx c h =>
    rw [parseExecFrom, dif_neg h, List.drop_of_length_le (by omega), pieces_nil]
    rfl

lemma parseExec_pieces (env : Environ) (s : List Char) :
    parseExec env s = (pieces s).foldl (addToken env) (execCmdCreate s) := by
  have h := parseExecFrom_pieces env s 0 (execCmdCreate s)
  rwa [List.drop_zero] at h

lemma filter_pieces (s : List Char) : (pieces s).filter (· ≠ []) = tokens s := by
  unfold pieces tokens
  split
  · rename_i h
    obtain ⟨ps, hps⟩ := List.getLast?_eq_some_iff.mp h
    rw [hps, List.dropLast_concat, List.filter_append]
    simp
  · rfl

lemma nil_mem_pieces : [] ∈ pieces s ↔ [] ∈ (s.splitOn space).dropLast := by
  unfold pieces
  split
  · rfl
  · rename_i h
    constructor
    · intro hmem
      have hne := List.splitOn_ne_nil space s
      rw [← List.dropLast_append_getLast hne] at hmem
      rcases List.mem_append.mp hmem with hin | hlast
      · exact hin
      · apply absurd _ h
        rw [List.getLast?_eq_some_getLast hne, List.mem_singleton.mp hlast]
    · exact fun hmem => (List.dropLast_sublist _).subset hmem

lemma pieces_eq_tokens (h : [] ∉ pieces s) : pieces s = tokens s := by
  rw [← filter_pieces]
  apply (List.filter_eq_self.mpr ?_).symm
  intro tok htok
  have hne : tok ≠ [] := fun hnil => h (hnil ▸ htok)
  simpa using hne

/-! ### The classifiers -/

/-- What the classifiers make of a token; `none` for one that is dropped. -/
def sorted (tok : List Char) : Option Word :=
  match blockContains tok '>' with
  | some 0 => some (.out (tok.drop 1))
  | some 1 => some (.err (tok.drop 2))
  | some _ => none
  | none =>
    match blockContains tok '<' with
    | some _ => some (.inp (tok.drop 1))
    | none =>
      match blockContains tok '=' with
      | some (_ + 1) => if '-' ∈ tok then some .arg else some .assign
      | _ => some .arg

lemma addToken_sorted (env : Environ) (c : ExecCmd) (tok : List Char) :
    (addToken env c tok).outFile = ((sorted tok).bind Word.out?).getD c.outFile ∧
    (addToken env c tok).errFile = ((sorted tok).bind Word.err?).getD c.errFile ∧
    (addToken env c tok).inFile = ((sorted tok).bind Word.inp?).getD c.inFile ∧
    (addToken env c tok).eargv = c.eargv ++ [tok].filter (sorted · = some .assign) ∧
    (addToken env c tok).argv =
      c.argv ++ ([tok].filter (sorted · = some .arg)).map (expandEnvironVar env) := by
  unfold addToken parseRedirFlow parseEnvironVar sorted
  cases hgt : blockContains tok '>' with
  | some i =>
    rcases i with _ | _ | i
    · simp [Word.out?, Word.err?, Word.inp?, hgt]
    · simp [Word.out?, Word.err?, Word.inp?, hgt]
    · simp [hgt]
  | none =>
    cases hlt : blockContains tok '<' with
    | some i => simp [Word.out?, Word.err?, Word.inp?, hgt, hlt]
    | none =>
      have harg : Word.arg.out? = none ∧ Word.arg.err? = none ∧ Word.arg.inp? = none :=
        ⟨rfl, rfl, rfl⟩
      cases heq : blockContains tok '=' with
      | none => simp [harg, hgt, hlt, heq]
      | some i =>
        cases i with
        | zero => simp [harg, hgt, hlt, heq]
        | succ i =>
          by_cases hdash : '-' ∈ tok
          · obtain ⟨j, hj⟩ := Option.ne_none_iff_exists'.mp (mt blockContains_none.mp (not_not.mpr hdash))
            simp [harg, hgt, hlt, heq, hdash, hj]
          · have hnone := blockContains_none.mpr hdash
            simp [Word.out?, Word.err?, Word.inp?, hgt, hlt, heq, hdash, hnone]

/-- The tokens without `<` and `>`. -/
lemma sorted_plain (hgt : '>' ∉ tok) (hlt : '<' ∉ tok) : sorted tok =
    some (if '=' ∈ tok ∧ tok.takeWhile (· ≠ '=') ≠ [] ∧ '-' ∉ tok then .assign else .arg) := by
  unfold sorted
  rw [blockContains_none.mpr hgt, blockContains_none.mpr hlt]
  dsimp only
  by_cases heq : '=' ∈ tok
  · obtain ⟨u, v, rfl, hu⟩ := List.eq_append_cons_of_mem heq
    have hkey : (u ++ '=' :: v).takeWhile (· ≠ '=') = u := by
      apply takeWhile_stop
      · intro a ha
        have hne : a ≠ '=' := fun h => hu (h ▸ ha)
        simpa using hne
      · simp
    rw [blockContains_append hu, hkey]
    cases u with
    | nil => simp
    | cons a u =>
      simp only [List.length_cons]
      split
      · rename_i hdash
        rw [if_neg (fun h => h.2.2 hdash)]
      · rename_i hdash
        rw [if_pos ⟨heq, List.cons_ne_nil a u, hdash⟩]
  · rw [blockContains_none.mpr heq]
    simp [heq]

lemma word_plain (hgt : '>' ∉ tok) (hlt : '<' ∉ tok) : word tok =
    if '=' ∈ tok ∧ tok.takeWhile (· ≠ '=') ≠ [] ∧ '-' ∉ tok.takeWhile (· ≠ '=') then .assign
    else .arg := by
  unfold word
  split
  · simp at hgt
  · simp at hgt
  · simp at hlt
  · rfl

/-- What is sorted as an assignment or an argument has neither `<` nor `>`. -/
lemma plain_of_sorted (h : sorted tok = some .arg ∨ sorted tok = some .assign) :
    '>' ∉ tok ∧ '<' ∉ tok := by
  unfold sorted at h
  cases hgt : blockContains tok '>' with
  | some i =>
    rw [hgt] at h
    rcases i with _ | _ | i
    · simp at h
    · simp at h
    · simp at h
  | none =>
    cases hlt : blockContains tok '<' with
    | some i => simp [hgt, hlt] at h
    | none => exact ⟨blockContains_none.mp hgt, blockContains_none.mp hlt⟩

lemma not_mem_key {c : Char} (h : c ∉ tok) : c ∉ tok.takeWhile (· ≠ '=') :=
  fun hc => h ((List.takeWhile_sublist _).subset hc)

lemma word_of_sorted_assign (h : sorted tok = some .assign) : word tok = .assign := by
  obtain ⟨hgt, hlt⟩ := plain_of_sorted (.inr h)
  rw [sorted_plain hgt hlt] at h
  rw [word_plain hgt hlt, if_pos]
  split at h
  · rename_i hc
    exact ⟨hc.1, hc.2.1, not_mem_key hc.2.2⟩
  · simp at h

lemma word_of_sorted_arg (hassign : word tok = .assign → sorted tok = some .assign)
    (h : sorted tok = some .arg) : word tok = .arg := by
  obtain ⟨hgt, hlt⟩ := plain_of_sorted (.inl h)
  have hw := word_plain hgt hlt
  split at hw
  · have hs := hassign hw
    rw [h] at hs
    cases hs
  · exact hw

/-- A token is sorted as an assignment or an argument as it should be. -/
lemma sorted_iff_word (tok : List Char) :
    ((word tok = .assign → sorted tok = some .assign) ∧
      (word tok = .arg → sorted tok = some .arg)) ↔
    ((word tok = .arg ∨ word tok = .assign → '>' ∉ tok ∧ '<' ∉ tok) ∧
      (word tok = .assign → '-' ∉ tok)) := by
  constructor
  · intro ⟨hassign, harg⟩
    refine ⟨?_, ?_⟩
    · rintro (h | h)
      · exact plain_of_sorted (.inl (harg h))
      · exact plain_of_sorted (.inr (hassign h))
    · intro h
      have hs := hassign h
      obtain ⟨hgt, hlt⟩ := plain_of_sorted (.inr hs)
      rw [sorted_plain hgt hlt] at hs
      split at hs
      · rename_i hc
        exact hc.2.2
      · simp at hs
  · intro ⟨hplain, hvalue⟩
    refine ⟨?_, ?_⟩
    · intro h
      obtain ⟨hgt, hlt⟩ := hplain (.inr h)
      have hdash := hvalue h
      rw [word_plain hgt hlt] at h
      rw [sorted_plain hgt hlt, if_pos]
      split at h
      · rename_i hc
        exact ⟨hc.1, hc.2.1, hdash⟩
      · simp at h
    · intro h
      obtain ⟨hgt, hlt⟩ := hplain (.inl h)
      rw [word_plain hgt hlt] at h
      rw [sorted_plain hgt hlt, if_neg]
      intro hc
      rw [if_pos ⟨hc.1, hc.2.1, not_mem_key hc.2.2⟩] at h
      simp at h

lemma word_out_of_ne {a : Char} (ha : a ≠ '>') (rest : List Char) :
    (word (a :: rest)).out? = none := by
  unfold word
  split
  · rename_i h
    cases h
    exact absurd rfl ha
  · rfl
  · rfl
  · dsimp only
    split <;> rfl

/-- An output file is found as it should be. -/
lemma sorted_out (tok : List Char) : (sorted tok).bind Word.out? = (word tok).out? := by
  unfold sorted
  cases hgt : blockContains tok '>' with
  | some i =>
    obtain ⟨u, v, rfl, hu, rfl⟩ := blockContains_some.mp hgt
    rcases u with _ | ⟨a, u⟩
    · rfl
    · have ha : a ≠ '>' := fun h => hu (h ▸ List.mem_cons_self)
      rw [List.cons_append, word_out_of_ne ha]
      cases u <;> rfl
  | none =>
    have hgt' := blockContains_none.mp hgt
    have hword : (word tok).out? = none := by
      cases tok with
      | nil => rfl
      | cons a rest => exact word_out_of_ne (fun h => hgt' (h ▸ List.mem_cons_self)) rest
    rw [hword]
    dsimp only
    split
    · rfl
    · split
      · split <;> rfl
      · rfl

/-- An error file is what stands behind a `>` in second place. -/
lemma sorted_err (tok : List Char) : (sorted tok).bind Word.err? = secondFile? tok := by
  unfold sorted
  cases hgt : blockContains tok '>' with
  | some i =>
    obtain ⟨u, v, rfl, hu, rfl⟩ := blockContains_some.mp hgt
    rcases u with _ | ⟨a, _ | ⟨b, u⟩⟩
    · have hnone : secondFile? ('>' :: v) = none := by
        unfold secondFile?
        split
        · rename_i h
          cases h
          rfl
        · rfl
      rw [List.nil_append, hnone]
      rfl
    · have ha : a ≠ '>' := fun h => hu (h ▸ List.mem_singleton_self a)
      simp [secondFile?, ha, Word.err?]
    · have hb : b ≠ '>' := fun h => hu (h ▸ by simp)
      have hnone : secondFile? (a :: b :: u ++ '>' :: v) = none := by
        unfold secondFile?
        split
        · rename_i h
          cases h
          exact absurd rfl hb
        · rfl
      rw [hnone]
      rfl
  | none =>
    have hgt' := blockContains_none.mp hgt
    have hsecond : secondFile? tok = none := by
      unfold secondFile?
      split
      · simp at hgt'
      · rfl
    rw [hsecond]
    dsimp only
    split
    · rfl
    · split
      · split <;> rfl
      · rfl

/-- An input file is found unless there is a `>` in it. -/
lemma sorted_inp (h : word tok = .arg ∨ word tok = .assign → '>' ∉ tok ∧ '<' ∉ tok) :
    (sorted tok).bind Word.inp? = ((word tok).inp?).filter ('>' ∉ ·) := by
  cases hw : word tok with
  | out file =>
    have hs := sorted_out tok
    rw [hw] at hs
    obtain ⟨w, hsome, hout⟩ := Option.bind_eq_some_iff.mp hs
    rw [hsome]
    cases w <;> first | rfl | cases hout
  | err file =>
    have hs : secondFile? tok = some file := by
      unfold word at hw
      split at hw
      · cases hw
      · cases hw
        rfl
      · cases hw
      · dsimp only at hw
        split at hw <;> cases hw
    obtain ⟨w, hsome, herr⟩ := Option.bind_eq_some_iff.mp ((sorted_err tok).trans hs)
    rw [hsome]
    cases w <;> first | rfl | cases herr
  | inp file =>
    have htok : tok = '<' :: file := by
      unfold word at hw
      split at hw
      · cases hw
      · cases hw
      · cases hw
        rfl
      · dsimp only at hw
        split at hw <;> cases hw
    subst htok
    have hlt := blockContains_append (c := '<') (s := []) List.not_mem_nil file
    rw [List.nil_append] at hlt
    unfold sorted
    rw [hlt]
    by_cases hgt : '>' ∈ file
    · obtain ⟨u, v, rfl, hu⟩ := List.eq_append_cons_of_mem hgt
      have hgt' : blockContains ('<' :: (u ++ '>' :: v)) '>' = some (u.length + 1) :=
        blockContains_some.mpr ⟨'<' :: u, v, rfl, by simpa using hu, rfl⟩
      rw [hgt']
      cases u <;> simp [Word.inp?, Option.filter]
    · have hnone : blockContains ('<' :: file) '>' = none :=
        blockContains_none.mpr (by simpa using hgt)
      rw [hnone]
      simp [Word.inp?, Option.filter, hgt]
  | assign =>
    obtain ⟨hgt, hlt⟩ := h (.inr hw)
    rw [sorted_plain hgt hlt]
    split <;> rfl
  | arg =>
    obtain ⟨hgt, hlt⟩ := h (.inl hw)
    rw [sorted_plain hgt hlt]
    split <;> rfl

/-! ### Lists of tokens -/

/-- What the loop makes of the pieces. -/
lemma foldl_addToken (env : Environ) (ps : List (List Char)) : ∀ c : ExecCmd,
    (ps.foldl (addToken env) c).outFile =
      ((ps.filterMap fun tok => (sorted tok).bind Word.out?).getLast?).getD c.outFile ∧
    (ps.foldl (addToken env) c).errFile =
      ((ps.filterMap fun tok => (sorted tok).bind Word.err?).getLast?).getD c.errFile ∧
    (ps.foldl (addToken env) c).inFile =
      ((ps.filterMap fun tok => (sorted tok).bind Word.inp?).getLast?).getD c.inFile ∧
    (ps.foldl (addToken env) c).eargv = c.eargv ++ ps.filter (sorted · = some .assign) ∧
    (ps.foldl (addToken env) c).argv =
      c.argv ++ (ps.filter (sorted · = some .arg)).map (expandEnvironVar env) := by
  have hlast : ∀ (o : Option (List Char)) (l : List (List Char)) (d : List Char),
      l.getLast?.getD (o.getD d) = (o.toList ++ l).getLast?.getD d := by
    intro o l d
    cases o with
    | none => rfl
    | some f =>
      cases l with
      | nil => rfl
      | cons a l => simp [List.getLast?_cons]
  induction ps with
  | nil =>
    intro c
    simp
  | cons tok ps ih =>
    intro c
    obtain ⟨hout, herr, hinp, heargv, hargv⟩ := ih (addToken env c tok)
    obtain ⟨hout', herr', hinp', heargv', hargv'⟩ := addToken_sorted env c tok
    rw [hout'] at hout
    rw [herr'] at herr
    rw [hinp'] at hinp
    rw [heargv'] at heargv
    rw [hargv'] at hargv
    have hcons : ∀ f : List Char → Option (List Char),
        (tok :: ps).filterMap f = (f tok).toList ++ ps.filterMap f := by
      intro f
      cases h : f tok <;> simp [h]
    have hfilter : ∀ p : List Char → Bool, (tok :: ps).filter p = [tok].filter p ++ ps.filter p := by
      intro p
      rw [← List.filter_append, List.singleton_append]
    rw [List.foldl_cons, hout, herr, hinp, heargv, hargv, hlast, hlast, hlast, hcons, hcons, hcons,
      hfilter, hfilter, List.map_append, List.append_assoc, List.append_assoc]
    exact ⟨rfl, rfl, rfl, rfl, rfl⟩

/-- Of the names without a `>`, the last is the last of all if that has none. -/
lemma lastFile_filter {f g : List Char → Option (List Char)} {toks : List (List Char)}
    (h : ∀ tok ∈ toks, f tok = (g tok).filter ('>' ∉ ·)) :
    lastFile f toks = lastFile g toks ↔ '>' ∉ lastFile g toks := by
  have hmap : toks.filterMap f = (toks.filterMap g).filter ('>' ∉ ·) := by
    rw [List.filter_filterMap]
    exact List.filterMap_congr h
  unfold lastFile
  rw [hmap]
  rcases List.eq_nil_or_concat (toks.filterMap g) with hnil | ⟨files, file, hfiles⟩
  · rw [hnil]
    simp
  · rw [hfiles, List.concat_eq_append, List.filter_append, List.getLast?_concat]
    by_cases hgt : '>' ∈ file
    · have hnot : ∀ name ∈ files.filter ('>' ∉ ·), '>' ∉ name := by
        intro name hname
        simpa using (List.mem_filter.mp hname).2
      simp only [Option.getD_some, hgt, not_true_eq_false, iff_false]
      intro heq
      have hlast : '>' ∉ (files.filter ('>' ∉ ·)).getLast?.getD [] := by
        cases hl : (files.filter ('>' ∉ ·)).getLast? with
        | none => simp
        | some name => exact hnot name (List.mem_of_getLast? hl)
      rw [List.filter_cons_of_neg (by simpa using hgt), List.filter_nil, List.append_nil] at heq
      rw [heq] at hlast
      exact hlast hgt
    · simp [hgt]

lemma filter_pieces_of {p : List Char → Bool} (h : p [] = false) (s : List Char) :
    (pieces s).filter p = (tokens s).filter p := by
  rw [← filter_pieces, List.filter_filter]
  apply List.filter_congr
  intro tok _
  by_cases hnil : tok = []
  · rw [hnil, h]
    rfl
  · simp [hnil]

lemma filterMap_pieces {f : List Char → Option (List Char)} (h : f [] = none) (s : List Char) :
    (pieces s).filterMap f = (tokens s).filterMap f := by
  rw [← filter_pieces, List.filterMap_filter]
  apply List.filterMap_congr
  intro tok _
  by_cases hnil : tok = []
  · rw [hnil, h]
    rfl
  · simp [hnil]

/-- What `parse_exec` makes of a segment. -/
lemma parseExec_sorted (env : Environ) (s : List Char) :
    (parseExec env s).outFile = lastFile (fun tok => (word tok).out?) (tokens s) ∧
    (parseExec env s).errFile = lastFile secondFile? (tokens s) ∧
    (parseExec env s).inFile = lastFile (fun tok => (sorted tok).bind Word.inp?) (tokens s) ∧
    (parseExec env s).eargv = (tokens s).filter (sorted · = some .assign) ∧
    (parseExec env s).argv =
      ((pieces s).filter (sorted · = some .arg)).map (expandEnvironVar env) := by
  obtain ⟨hout, herr, hinp, heargv, hargv⟩ := foldl_addToken env (pieces s) (execCmdCreate s)
  rw [← parseExec_pieces] at hout herr hinp heargv hargv
  rw [filterMap_pieces rfl] at hout herr hinp
  rw [filter_pieces_of rfl] at heargv
  have houts : (fun tok => (sorted tok).bind Word.out?) = fun tok => (word tok).out? :=
    funext sorted_out
  have herrs : (fun tok => (sorted tok).bind Word.err?) = secondFile? := funext sorted_err
  rw [houts] at hout
  rw [herrs] at herr
  exact ⟨hout, herr, hinp, heargv, hargv⟩

/-- An environment where every expansion has a character. -/
lemma expandEnvironVar_ne_nil (hne : tok ≠ []) :
    expandEnvironVar ⟨fun _ => some ['v'], 0, fun _ _ => []⟩ tok ≠ [] := by
  unfold expandEnvironVar
  split
  · decide
  · dsimp only
    split
    · simp
    · simp
  · exact hne

lemma expandEnvironVar_of_ne (h : ∀ name, tok ≠ '$' :: name) : expandEnvironVar env tok = tok := by
  unfold expandEnvironVar
  split
  · exact absurd rfl (h _)
  · exact absurd rfl (h _)
  · rfl

/-! ### Results -/

end SistemasOperativos.Shell
