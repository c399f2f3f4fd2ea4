import Mathlib.Data.List.GetD
import Mathlib.Data.List.TakeWhile
import SistemasOperativos.Library.Segments
import SistemasOperativos.Shell.Parsing

/-!
# Command lines

A line is a sequence of segments between bars. `parse_line` makes a pipeline of them, one leaf for
each segment, as long as no segment but the last is empty and it does not read past the end of the
line.
-/

namespace SistemasOperativos.Shell

open Library

/-- Without the spaces in front. -/
def strip (s : List Char) : List Char := s.dropWhile (· = space)

/-- The parse of a segment by itself; `prev` is the byte before it. -/
def parseSegment (env : Environ) (prev : Char) (seg : List Char) : Cmd :=
  if seg = [] then .null
  else
    match blockContains seg '&' with
    | some idx =>
      if (prev :: seg).getD idx endString ≠ '>' then .back (.exec (parseExec env (seg.take idx)))
      else .exec (parseExec env seg)
    | none => .exec (parseExec env seg)

/-- The parses of the segments of a line that are not empty. The spaces behind a bar do not
belong to a segment. -/
def segmentParses (env : Environ) (before : Char) (line : List Char) : List Cmd :=
  match line.splitOn '|' with
  | [] => []
  | first :: others =>
    (if first = [] then [] else [parseSegment env before first]) ++
      ((others.map strip).filter (· ≠ [])).map (parseSegment env endString)

/-- The command in a leaf. -/
def Cmd.execCmd? : Cmd → Option ExecCmd
  | .exec e => some e
  | .back (.exec e) => some e
  | _ => none

/-- The leaves of a right-nested tree of pipes without null children, from left to right. -/
def leaves : Cmd → Option (List Cmd)
  | .pipe left right =>
    match left.execCmd? with
    | some _ => (leaves right).map (left :: ·)
    | none => none
  | c =>
    match c.execCmd? with
    | some _ => some [c]
    | none => none

/-- `parse_line` of a line in a buffer: `before` is the byte before the line and `rest` the bytes
behind its terminator. -/
def parsed (env : Environ) (before : Char) (line rest : List Char) : Cmd :=
  (parseLine env (before :: (line ++ endString :: rest)) 1).1

/-- Neither the text of the leaf nor a word that gives one of its arguments has a bar. -/
def NoBars (env : Environ) (c : Cmd) : Prop :=
  ∃ e, c.execCmd? = some e ∧ '|' ∉ e.scmd ∧
    ∀ arg ∈ e.argv, ∃ word, '|' ∉ word ∧ arg = expandEnvironVar env word

/-- What `parse_line` makes of a line. -/
structure LineOk (env : Environ) (before : Char) (line rest : List Char) : Prop where
  tree : leaves (parsed env before line rest) = some (segmentParses env before line)
  bars : ∀ cs, leaves (parsed env before line rest) = some cs → ∀ c ∈ cs, NoBars env c
  clean : parsed env before line rest = parsed env before line []

/-- The line starts with a segment that is not empty, has no empty one between two bars, and,
where it has no bar, is followed by nothing but spaces. -/
def Plain (line rest : List Char) : Prop :=
  match line.splitOn '|' with
  | [] => False
  | [_] => (strip rest).takeWhile (· ≠ endString) = []
  | first :: others => first ≠ [] ∧ ∀ seg ∈ others.dropLast, strip seg ≠ []

instance (line rest : List Char) : Decidable (Plain line rest) := by
  unfold Plain
  split <;> infer_instance

variable {env : Environ} {pre seg rest s t : List Char} {prev x : Char}

/-! ### Strings -/

lemma takeWhile_stop {p : Char → Bool} (hs : ∀ a ∈ s, p a = true) (hx : p x = false) :
    (s ++ x :: t).takeWhile p = s := by
  rw [List.takeWhile_append_of_pos hs, List.takeWhile_cons_of_neg (by rw [hx]; decide),
    List.append_nil]

lemma blockContains_append {c : Char} (hs : c ∉ s) (t : List Char) :
    blockContains (s ++ c :: t) c = some s.length := by
  have hnone : s.findIdx? (· == c) = none := by
    apply List.findIdx?_eq_none_iff.mpr
    intro a ha
    have hne : a ≠ c := fun h => hs (h ▸ ha)
    simpa using hne
  unfold blockContains List.idxOf?
  rw [List.findIdx?_append, hnone, List.findIdx?_cons]
  simp

lemma blockContains_none {c : Char} : blockContains s c = none ↔ c ∉ s := List.idxOf?_eq_none_iff

/-- The first place of a character. -/
lemma blockContains_some {c : Char} {i : ℕ} :
    blockContains s c = some i ↔ ∃ u v, s = u ++ c :: v ∧ c ∉ u ∧ u.length = i := by
  constructor
  · intro h
    have hmem : c ∈ s := by
      by_contra hnot
      rw [blockContains_none.mpr hnot] at h
      cases h
    obtain ⟨u, v, rfl, hu⟩ := List.eq_append_cons_of_mem hmem
    rw [blockContains_append hu, Option.some.injEq] at h
    exact ⟨u, v, rfl, hu, h⟩
  · rintro ⟨u, v, rfl, hu, rfl⟩
    exact blockContains_append hu v

lemma strAt_append (hs : endString ∉ s) (pre rest : List Char) :
    strAt (pre ++ (s ++ endString :: rest)) pre.length = s := by
  unfold strAt
  rw [List.drop_left]
  apply takeWhile_stop
  · intro a ha
    have hne : a ≠ endString := fun h => hs (h ▸ ha)
    simpa using hne
  · simp

lemma set_append (pre s t : List Char) (x y : Char) :
    (pre ++ (s ++ x :: t)).set (pre.length + s.length) y = pre ++ (s ++ y :: t) := by
  rw [List.set_append_right _ _ (by omega), Nat.add_sub_cancel_left,
    List.set_append_right _ _ (Nat.le_refl _), Nat.sub_self]
  rfl

/-- Splitting at a bar or at the end of the line. -/
lemma splitLine_append (hbar : '|' ∉ seg) (hend : endString ∉ seg) (hx : x = '|' ∨ x = endString)
    (pre t : List Char) :
    splitLine (pre ++ (seg ++ x :: t)) pre.length '|' =
      (pre ++ (seg ++ endString :: t),
        (pre ++ (seg ++ endString :: t.takeWhile (· = space))).length) := by
  have hseg : ((pre ++ (seg ++ x :: t)).drop pre.length).takeWhile
      (fun a => a ≠ '|' ∧ a ≠ endString) = seg := by
    rw [List.drop_left]
    apply takeWhile_stop
    · intro a ha
      have h1 : a ≠ '|' := fun h => hbar (h ▸ ha)
      have h2 : a ≠ endString := fun h => hend (h ▸ ha)
      simp [h1, h2]
    · rcases hx with rfl | rfl
      · simp
      · simp
  have hdrop : (pre ++ (seg ++ endString :: t)).drop (pre.length + seg.length + 1) = t := by
    rw [Nat.add_assoc, List.drop_length_add_append, List.drop_length_add_append]
    rfl
  unfold splitLine
  dsimp only
  rw [hseg, set_append, hdrop]
  congr 1
  simp only [List.length_append, List.length_cons]
  omega

/-- A segment in the buffer is parsed as by itself, and what follows it stays as it is. -/
lemma parseCmd_append (env : Environ) (hend : endString ∉ seg) (pre : List Char) (prev : Char)
    (rest : List Char) : ∃ seg', seg'.length = seg.length ∧
    parseCmd env (pre ++ [prev] ++ (seg ++ endString :: rest)) (pre ++ [prev]).length =
      (parseSegment env prev seg, pre ++ [prev] ++ (seg' ++ endString :: rest)) := by
  unfold parseCmd parseSegment
  dsimp only
  rw [strAt_append hend]
  by_cases hempty : seg = []
  · rw [if_pos hempty, if_pos hempty]
    exact ⟨seg, rfl, rfl⟩
  rw [if_neg hempty, if_neg hempty]
  by_cases hamp : '&' ∈ seg
  · obtain ⟨u, v, rfl, hu⟩ := List.eq_append_cons_of_mem hamp
    have hbyte : (pre ++ [prev] ++ (u ++ '&' :: v ++ endString :: rest)).getD
        ((pre ++ [prev]).length + u.length - 1) endString =
        (prev :: (u ++ '&' :: v)).getD u.length endString := by
      have hidx : (pre ++ [prev]).length + u.length - 1 = pre.length + u.length := by
        rw [List.length_append, List.length_singleton]
        omega
      rw [hidx, List.append_assoc, List.getD_append_right _ _ _ _ (by omega),
        Nat.add_sub_cancel_left, ← List.append_assoc [prev]]
      apply List.getD_append
      simp only [List.length_append, List.length_cons]
      omega
    rw [blockContains_append hu v]
    dsimp only
    rw [hbyte]
    split
    · -- the string is cut at its `&`
      have hu' : endString ∉ u := fun h => hend (List.mem_append_left _ h)
      have hcut : ((pre ++ [prev] ++ (u ++ '&' :: v ++ endString :: rest)).drop
          (pre ++ [prev]).length).takeWhile (· ≠ '&') = u := by
        rw [List.drop_left, List.append_assoc, List.cons_append]
        apply takeWhile_stop
        · intro a ha
          have hne : a ≠ '&' := fun h => hu (h ▸ ha)
          simpa using hne
        · simp
      have hset := set_append (pre ++ [prev]) u (v ++ endString :: rest) '&' endString
      have hstr := strAt_append hu' (pre ++ [prev]) (v ++ endString :: rest)
      refine ⟨u ++ endString :: v, by simp, ?_⟩
      unfold parseBack
      dsimp only
      rw [hcut, List.append_assoc u, List.cons_append, hset, hstr, List.take_left,
        List.append_assoc u, List.cons_append]
    · exact ⟨_, rfl, rfl⟩
  · rw [blockContains_none.mpr hamp]
    exact ⟨seg, rfl, rfl⟩

/-! ### Words -/

lemma addToken_scmd (env : Environ) (c : ExecCmd) (tok : List Char) :
    (addToken env c tok).scmd = c.scmd := by
  unfold addToken parseRedirFlow parseEnvironVar
  grind

lemma addToken_argv (env : Environ) (c : ExecCmd) (tok : List Char) :
    (addToken env c tok).argv = c.argv ∨
    (addToken env c tok).argv = c.argv ++ [expandEnvironVar env tok] := by
  unfold addToken parseRedirFlow parseEnvironVar
  grind

lemma getToken_subset (s : List Char) (idx : ℕ) : getToken s idx ⊆ s := by
  intro a ha
  exact List.mem_of_mem_drop ((List.takeWhile_sublist _).subset ha)

/-- The tokens become arguments one by one. -/
lemma parseExecFrom_spec (env : Environ) (s : List Char) (idx : ℕ) (c : ExecCmd) :
    (parseExecFrom env s idx c).scmd = c.scmd ∧ ∀ arg ∈ (parseExecFrom env s idx c).argv,
      arg ∈ c.argv ∨ ∃ word, word ⊆ s ∧ arg = expandEnvironVar env word := by
  have htok : ∀ (idx : ℕ) (c : ExecCmd), ∀ arg ∈ (addToken env c (getToken s idx)).argv,
      arg ∈ c.argv ∨ ∃ word, word ⊆ s ∧ arg = expandEnvironVar env word := by
    intro idx c arg harg
    rcases addToken_argv env c (getToken s idx) with h | h
    · rw [h] at harg
      exact .inl harg
    · rw [h] at harg
      rcases List.mem_append.mp harg with harg | harg
      · exact .inl harg
      · exact .inr ⟨_, getToken_subset s idx, List.mem_singleton.mp harg⟩
  induction idx, c using parseExecFrom.induct env s with
  | case1 idx c h tok next hnext ih =>
    rw [parseExecFrom, dif_pos h]
    dsimp only
    rw [if_pos hnext]
    refine ⟨ih.1.trans (addToken_scmd env c tok), ?_⟩
    intro arg harg
    rcases ih.2 arg harg with hin | hword
    · exact htok idx c arg hin
    · exact .inr hword
  | case2 idx c h tok next hnext =>
    rw [parseExecFrom, dif_pos h]
    dsimp only
    rw [if_neg hnext]
    exact ⟨addToken_scmd env c tok, htok idx c⟩
  | case3 idx c h =>
    rw [parseExecFrom, dif_neg h]
    exact ⟨rfl, fun arg harg => .inl harg⟩

lemma parseExec_scmd (env : Environ) (s : List Char) : (parseExec env s).scmd = s :=
  (parseExecFrom_spec env s 0 _).1

lemma noBars_parseExec (h : '|' ∉ s) : '|' ∉ (parseExec env s).scmd ∧
    ∀ arg ∈ (parseExec env s).argv, ∃ word, '|' ∉ word ∧ arg = expandEnvironVar env word := by
  refine ⟨by rwa [parseExec_scmd], ?_⟩
  intro arg harg
  rcases (parseExecFrom_spec env s 0 _).2 arg harg with hnil | ⟨word, hsub, heq⟩
  · cases hnil
  · exact ⟨word, fun hmem => h (hsub hmem), heq⟩

/-! ### Segments -/

/-- The text of the segments behind the first one. -/
def bars (segs : List (List Char)) : List Char := segs.flatMap ('|' :: ·)

/-- What `parse_line` makes of a first segment and the segments behind it. The search for another
bar misses one in front, so that an empty segment is parsed together with all that follows. -/
def barTree (env : Environ) (prev : Char) (first : List Char) : List (List Char) → Cmd
  | [] => parseSegment env prev first
  | o :: os =>
    pipeCmdCreate (parseSegment env prev first)
      (if strip o = [] then parseSegment env endString (bars os)
        else barTree env endString (strip o) os)

lemma parseSegment_congr {a b : Char} (ha : a ≠ '>') (hb : b ≠ '>') (seg : List Char) :
    parseSegment env a seg = parseSegment env b seg := by
  unfold parseSegment
  split
  · rfl
  · split
    · rename_i i _
      cases i with
      | zero =>
        simp only [List.getD_cons_zero]
        rw [if_pos ha, if_pos hb]
      | succ i => simp only [List.getD_cons_succ]
    · rfl

/-- The two ways a segment is parsed. -/
lemma parseSegment_cases (env : Environ) (h : seg ≠ []) (prev : Char) :
    parseSegment env prev seg = .exec (parseExec env seg) ∨
    ∃ i, blockContains seg '&' = some i ∧
      parseSegment env prev seg = .back (.exec (parseExec env (seg.take i))) := by
  unfold parseSegment
  rw [if_neg h]
  split
  · rename_i i hi
    split
    · exact .inr ⟨i, hi, rfl⟩
    · exact .inl rfl
  · exact .inl rfl

lemma strip_append (hx : x ≠ space) (s t : List Char) :
    strip (s ++ x :: t) = strip s ++ x :: t := by
  unfold strip
  rw [List.dropWhile_append]
  split
  · rename_i h
    rw [List.isEmpty_iff.mp h, List.dropWhile_cons_of_neg (by simpa using hx)]
    rfl
  · rfl

lemma not_mem_strip {c : Char} (h : c ∉ s) : c ∉ strip s :=
  fun hc => h ((List.dropWhile_sublist _).subset hc)

/-- One pass of `parse_line`: the segment is parsed, and the rest of the line starts behind the
spaces, preceded by a byte that is not `>`. -/
lemma parseLine_step (env : Environ) (hbar : '|' ∉ seg) (hend : endString ∉ seg) (hx : x = '|' ∨ x = endString)
    (pre : List Char) (prev : Char) (t : List Char) : ∃ pre' prev', prev' ≠ '>' ∧
    (parseLine env (pre ++ [prev] ++ (seg ++ x :: t)) (pre ++ [prev]).length).1 =
      pipeCmdCreate (parseSegment env prev seg)
        (match blockContains (strAt (pre' ++ [prev'] ++ strip t) (pre' ++ [prev']).length) '|' with
          | some (_ + 1) =>
            (parseLine env (pre' ++ [prev'] ++ strip t) (pre' ++ [prev']).length).1
          | _ => (parseCmd env (pre' ++ [prev'] ++ strip t) (pre' ++ [prev']).length).1) := by
  obtain ⟨seg', hlen, hcmd⟩ := parseCmd_append env hend pre prev t
  -- the byte before the rest of the line
  have hlast : ∃ pre' prev', prev' ≠ '>' ∧
      pre ++ [prev] ++ (seg' ++ endString :: t.takeWhile (· = space)) = pre' ++ [prev'] := by
    rcases List.eq_nil_or_concat (t.takeWhile (· = space)) with h | ⟨sp, a, h⟩
    · refine ⟨pre ++ [prev] ++ seg', endString, by decide, ?_⟩
      rw [h, List.append_assoc _ seg']
    · have ha : a = space := by
        have hmem : a ∈ t.takeWhile (· = space) := by
          rw [h]
          simp
        simpa using List.mem_takeWhile_imp hmem
      refine ⟨pre ++ [prev] ++ (seg' ++ endString :: sp), a, by rw [ha]; decide, ?_⟩
      rw [h]
      simp
  obtain ⟨pre', prev', hprev, heq⟩ := hlast
  have hbuf : pre ++ [prev] ++ (seg' ++ endString :: t) = pre' ++ [prev'] ++ strip t := by
    rw [← heq]
    unfold strip
    conv_lhs => rw [← List.takeWhile_append_dropWhile (p := (· = space)) (l := t)]
    simp
  have hpos : (pre ++ [prev] ++ (seg ++ endString :: t.takeWhile (· = space))).length =
      (pre' ++ [prev']).length := by
    rw [← heq]
    simp [hlen]
  refine ⟨pre', prev', hprev, ?_⟩
  rw [parseLine, splitLine_append hbar hend hx (pre ++ [prev]) t, hcmd, hbuf, hpos]
  dsimp only
  split <;> rename_i h
  · rw [h]
  · split
    · rename_i i hi
      exact absurd hi (h i)
    · rfl

/-- The segments of a line. -/
lemma splitOn_bars (line : List Char) : ∃ first others, line = first ++ bars others ∧
    line.splitOn '|' = first :: others ∧ ∀ seg ∈ first :: others, '|' ∉ seg :=
  splitOn_parts '|' line

lemma parseLine_bars (env : Environ) (rest : List Char) {others : List (List Char)}
    (hne : others ≠ []) : ∀ {first : List Char} (_ : ∀ seg ∈ first :: others, '|' ∉ seg)
      (_ : endString ∉ first ++ bars others) (pre : List Char) (prev : Char),
      (parseLine env (pre ++ [prev] ++ (first ++ (bars others ++ endString :: rest)))
        (pre ++ [prev]).length).1 = barTree env prev first others := by
  induction others with
  | nil => exact absurd rfl hne
  | cons o os ih =>
    intro first hbar hend pre prev
    have hfirst : endString ∉ first := fun h => hend (List.mem_append_left _ h)
    have hrest : endString ∉ strip o ++ bars os := by
      intro h
      have hmem : endString ∈ o ++ bars os := by
        rcases List.mem_append.mp h with h | h
        · exact List.mem_append_left _ ((List.dropWhile_sublist _).subset h)
        · exact List.mem_append_right _ h
      exact hend (List.mem_append_right _ (List.mem_cons_of_mem _ hmem))
    have hstrip : strip (o ++ (bars os ++ endString :: rest)) =
        strip o ++ (bars os ++ endString :: rest) := by
      cases os with
      | nil => exact strip_append (by decide) o rest
      | cons o' os => exact strip_append (by decide) o _
    obtain ⟨pre', prev', hprev, hstep⟩ := parseLine_step env (x := '|')
      (hbar _ List.mem_cons_self) hfirst (.inl rfl) pre prev (o ++ (bars os ++ endString :: rest))
    have hline : bars (o :: os) ++ endString :: rest =
        '|' :: (o ++ (bars os ++ endString :: rest)) := by
      unfold bars
      simp
    have hstr : strAt (pre' ++ [prev'] ++ (strip o ++ (bars os ++ endString :: rest)))
        (pre' ++ [prev']).length = strip o ++ bars os := by
      rw [← List.append_assoc (strip o)]
      exact strAt_append hrest _ _
    have hcmd : (parseCmd env (pre' ++ [prev'] ++ (strip o ++ (bars os ++ endString :: rest)))
        (pre' ++ [prev']).length).1 = parseSegment env endString (strip o ++ bars os) := by
      obtain ⟨seg', -, h⟩ := parseCmd_append env hrest pre' prev' rest
      rw [← List.append_assoc (strip o), h]
      exact parseSegment_congr hprev (by decide) _
    rw [hline, hstep, hstrip, hstr, hcmd]
    unfold barTree
    congr 1
    have ho : '|' ∉ strip o :=
      not_mem_strip (hbar _ (List.mem_cons_of_mem _ List.mem_cons_self))
    cases os with
    | nil =>
      have hnone : blockContains (strip o ++ bars []) '|' = none := by
        apply blockContains_none.mpr
        simpa [bars] using ho
      rw [hnone]
      dsimp only
      split
      · rename_i h
        rw [h]
        rfl
      · unfold barTree bars
        simp
    | cons o' os =>
      have hsome : blockContains (strip o ++ bars (o' :: os)) '|' = some (strip o).length :=
        blockContains_append ho _
      rw [hsome]
      by_cases hempty : strip o = []
      · rw [if_pos hempty, hempty]
        rfl
      · rw [if_neg hempty]
        have hlen : ∃ n, (strip o).length = n + 1 :=
          Nat.exists_eq_succ_of_ne_zero (fun h => hempty (List.length_eq_zero_iff.mp h))
        obtain ⟨n, hn⟩ := hlen
        rw [hn]
        dsimp only
        have hsegs : ∀ seg ∈ strip o :: o' :: os, '|' ∉ seg := by
          intro seg hseg
          rcases List.mem_cons.mp hseg with rfl | hseg
          · exact ho
          · exact hbar seg (List.mem_cons_of_mem _ (List.mem_cons_of_mem _ hseg))
        rw [ih (by simp) hsegs hrest pre' prev']
        unfold barTree
        rw [parseSegment_congr hprev (b := endString) (by decide)]

/-! ### Leaves -/

lemma parseSegment_ne_null (h : seg ≠ []) (prev : Char) : parseSegment env prev seg ≠ .null := by
  rcases parseSegment_cases env h prev with heq | ⟨i, -, heq⟩
  · rw [heq]
    simp
  · rw [heq]
    simp

lemma leaves_ne_nil (c : Cmd) : leaves c ≠ some [] := by
  unfold leaves
  split <;> split <;> simp

lemma leaves_parseSegment (h : seg ≠ []) (prev : Char) :
    leaves (parseSegment env prev seg) = some [parseSegment env prev seg] := by
  rcases parseSegment_cases env h prev with heq | ⟨i, -, heq⟩
  · rw [heq]
    rfl
  · rw [heq]
    rfl

lemma pipeCmdCreate_ne_null {l r : Cmd} (h : l ≠ .null) : pipeCmdCreate l r ≠ .null := by
  unfold pipeCmdCreate
  split
  · exact h
  · simp

lemma leaves_pipeCmdCreate (h : seg ≠ []) (prev : Char) {r : Cmd} (hr : r ≠ .null) :
    leaves (pipeCmdCreate (parseSegment env prev seg) r) =
      (leaves r).map (parseSegment env prev seg :: ·) := by
  have hpipe : pipeCmdCreate (parseSegment env prev seg) r =
      .pipe (parseSegment env prev seg) r := by
    unfold pipeCmdCreate
    split
    · exact absurd rfl hr
    · rfl
  rw [hpipe]
  rcases parseSegment_cases env h prev with heq | ⟨i, -, heq⟩
  · rw [heq, leaves]
    rfl
  · rw [heq, leaves]
    rfl

lemma leaves_null_pipe (r : Cmd) : leaves (pipeCmdCreate .null r) = none := by
  unfold pipeCmdCreate
  split
  · rfl
  · rw [leaves]
    rfl

lemma barTree_ne_null {first : List Char} (h : first ≠ []) (prev : Char)
    (others : List (List Char)) : barTree env prev first others ≠ .null := by
  cases others with
  | nil => exact parseSegment_ne_null h prev
  | cons o os => exact pipeCmdCreate_ne_null (parseSegment_ne_null h prev)

lemma leaves_barTree (env : Environ) {others : List (List Char)} : ∀ {first : List Char} (_ : first ≠ [])
    (_ : ∀ seg ∈ others.dropLast, strip seg ≠ []) (prev : Char),
    leaves (barTree env prev first others) = some (parseSegment env prev first ::
      ((others.map strip).filter (· ≠ [])).map (parseSegment env endString)) := by
  induction others with
  | nil =>
    intro first hfirst _ prev
    exact leaves_parseSegment hfirst prev
  | cons o os ih =>
    intro first hfirst hmid prev
    unfold barTree
    by_cases ho : strip o = []
    · -- only the last segment may be empty
      have hos : os = [] := by
        by_contra hos
        apply hmid o ?_ ho
        rw [List.dropLast_cons_of_ne_nil hos]
        exact List.mem_cons_self
      rw [if_pos ho, hos]
      have hnull : parseSegment env endString (bars []) = .null := rfl
      have hleft : pipeCmdCreate (parseSegment env prev first) .null =
          parseSegment env prev first := rfl
      rw [hnull, hleft, leaves_parseSegment hfirst prev]
      simp [ho]
    · have hmid' : ∀ seg ∈ os.dropLast, strip seg ≠ [] := by
        intro seg hseg
        apply hmid seg
        have hos : os ≠ [] := by
          rintro rfl
          cases hseg
        rw [List.dropLast_cons_of_ne_nil hos]
        exact List.mem_cons_of_mem _ hseg
      rw [if_neg ho, leaves_pipeCmdCreate hfirst prev (barTree_ne_null ho _ _), ih ho hmid']
      simp [ho]

/-- Behind an empty segment the bars end up in a leaf. -/
lemma bar_of_barTree {others : List (List Char)} : ∀ {first : List Char} (_ : first ≠ [])
    (_ : ∃ seg ∈ others.dropLast, strip seg = []) (prev : Char) {cs : List Cmd}
    (_ : leaves (barTree env prev first others) = some cs), ∃ c ∈ cs, ¬ NoBars env c := by
  induction others with
  | nil =>
    intro first _ hmid
    obtain ⟨seg, hseg, -⟩ := hmid
    cases hseg
  | cons o os ih =>
    intro first hfirst hmid prev cs hcs
    obtain ⟨seg, hseg, hempty⟩ := hmid
    have hos : os ≠ [] := by
      rintro rfl
      cases hseg
    rw [List.dropLast_cons_of_ne_nil hos] at hseg
    unfold barTree at hcs
    by_cases ho : strip o = []
    · obtain ⟨o', os', rfl⟩ := List.exists_cons_of_ne_nil hos
      have hbars : bars (o' :: os') ≠ [] := by
        unfold bars
        simp
      rw [if_pos ho, leaves_pipeCmdCreate hfirst prev (parseSegment_ne_null hbars _),
        leaves_parseSegment hbars, Option.map_some, Option.some.injEq] at hcs
      subst hcs
      refine ⟨parseSegment env endString (bars (o' :: os')), by simp, ?_⟩
      rintro ⟨e, he, hscmd, -⟩
      rcases parseSegment_cases env hbars endString with heq | ⟨i, hi, heq⟩
      · rw [heq] at he
        cases he
        apply hscmd
        rw [parseExec_scmd]
        simp [bars]
      · rw [heq] at he
        cases he
        apply hscmd
        rw [parseExec_scmd]
        have hpos : i ≠ 0 := by
          rintro rfl
          simp [bars, blockContains, List.idxOf?, List.findIdx?_cons] at hi
        obtain ⟨j, rfl⟩ := Nat.exists_eq_succ_of_ne_zero hpos
        simp [bars]
    · rw [if_neg ho, leaves_pipeCmdCreate hfirst prev (barTree_ne_null ho _ _),
        Option.map_eq_some_iff] at hcs
      obtain ⟨ds, hds, rfl⟩ := hcs
      have hmid' : ∃ seg ∈ os.dropLast, strip seg = [] := by
        rcases List.mem_cons.mp hseg with rfl | hseg
        · exact absurd hempty ho
        · exact ⟨seg, hseg, hempty⟩
      obtain ⟨c, hc, hbar⟩ := ih ho hmid' endString hds
      exact ⟨c, List.mem_cons_of_mem _ hc, hbar⟩

lemma noBars_parseSegment (h : seg ≠ []) (hbar : '|' ∉ seg) (prev : Char) :
    NoBars env (parseSegment env prev seg) := by
  rcases parseSegment_cases env h prev with heq | ⟨i, -, heq⟩
  · rw [heq]
    exact ⟨_, rfl, noBars_parseExec hbar⟩
  · rw [heq]
    exact ⟨_, rfl, noBars_parseExec (fun hmem => hbar (List.mem_of_mem_take hmem))⟩

/-! ### Lines without bars -/

lemma parseCmd_ne_null {b : Buffer} {p : ℕ} (h : strAt b p ≠ []) :
    (parseCmd env b p).1 ≠ .null := by
  unfold parseCmd parseBack
  grind

/-- Where a string is left, something is parsed. -/
lemma parseLine_ne_null (env : Environ) {n : ℕ} (pre : List Char) (prev : Char)
    (h : blockContains (s.takeWhile (· ≠ endString)) '|' = some (n + 1)) :
    (parseLine env (pre ++ [prev] ++ s) (pre ++ [prev]).length).1 ≠ .null := by
  have hmem : '|' ∈ s.takeWhile (· ≠ endString) := by
    by_contra hnot
    rw [blockContains_none.mpr hnot] at h
    cases h
  obtain ⟨u, v, huv, hu⟩ := List.eq_append_cons_of_mem hmem
  have hne : u ≠ [] := by
    rintro rfl
    rw [huv, blockContains_append List.not_mem_nil] at h
    cases h
  have hend : endString ∉ u := by
    intro hmem
    have hin : endString ∈ s.takeWhile (· ≠ endString) := by
      rw [huv]
      exact List.mem_append_left _ hmem
    simpa using List.mem_takeWhile_imp hin
  have hs : s = u ++ '|' :: (v ++ s.dropWhile (· ≠ endString)) := by
    conv_lhs => rw [← List.takeWhile_append_dropWhile (p := (· ≠ endString)) (l := s), huv]
    simp
  rw [hs]
  obtain ⟨pre', prev', -, heq⟩ := parseLine_step env hu hend (.inl rfl) pre prev
    (v ++ s.dropWhile (· ≠ endString))
  rw [heq]
  exact pipeCmdCreate_ne_null (parseSegment_ne_null hne prev)

/-- A line without bars is a pipeline with what follows its terminator, if that is a string. -/
lemma parsed_noBar (env : Environ) {line : List Char} (hbar : '|' ∉ line) (hend : endString ∉ line)
    (before : Char) (rest : List Char) : ∃ r, parsed env before line rest =
      pipeCmdCreate (parseSegment env before line) r ∧
      (r = .null ↔ (strip rest).takeWhile (· ≠ endString) = []) := by
  obtain ⟨pre', prev', -, heq⟩ := parseLine_step env hbar hend (.inr rfl) [] before rest
  have hstr : strAt (pre' ++ [prev'] ++ strip rest) (pre' ++ [prev']).length =
      (strip rest).takeWhile (· ≠ endString) := by
    unfold strAt
    rw [List.drop_left]
  refine ⟨_, heq, ?_⟩
  rw [hstr]
  split
  · rename_i n hn
    have hline := parseLine_ne_null env pre' prev' hn
    constructor
    · intro h
      exact absurd h hline
    · intro h
      rw [h] at hn
      cases hn
  · constructor
    · intro h
      by_contra hne
      rw [← hstr] at hne
      exact parseCmd_ne_null hne h
    · intro h
      unfold parseCmd
      rw [hstr, if_pos h]

/-! ### Results -/

/-- The parser keeps its contract for the plain lines and for no others: with an empty first
segment it builds a null child, it takes the bars behind an empty segment into a leaf, and behind
a line without bars it goes on with the bytes that are left in the buffer. -/
theorem lineOk_iff (env : Environ) (before : Char) {line rest : List Char} (hne : line ≠ [])
    (hend : endString ∉ line) : LineOk env before line rest ↔ Plain line rest := by
  obtain ⟨first, others, hline, hsplit, hbar⟩ := splitOn_bars line
  have hsegs : segmentParses env before line = (if first = [] then []
      else [parseSegment env before first]) ++
        ((others.map strip).filter (· ≠ [])).map (parseSegment env endString) := by
    unfold segmentParses
    rw [hsplit]
  cases others with
  | nil =>
    have hfirst : first = line := by
      rw [hline]
      exact (List.append_nil first).symm
    subst hfirst
    have hbar' := hbar first List.mem_cons_self
    have hplain : Plain first rest ↔ (strip rest).takeWhile (· ≠ endString) = [] := by
      unfold Plain
      rw [hsplit]
    rw [if_neg hne] at hsegs
    rw [hplain]
    obtain ⟨r, hr, hnull⟩ := parsed_noBar env hbar' hend before rest
    obtain ⟨r₀, hr₀, hnull₀⟩ := parsed_noBar env hbar' hend before []
    rw [← hnull]
    constructor
    · intro hok
      by_contra hsome
      have htree := hok.tree
      rw [hr, leaves_pipeCmdCreate hne before hsome, hsegs] at htree
      obtain ⟨cs, hcs, heq⟩ := Option.map_eq_some_iff.mp htree
      simp only [List.map_nil, List.filter_nil, List.append_nil, List.cons.injEq, true_and] at heq
      rw [heq] at hcs
      exact leaves_ne_nil r hcs
    · intro h
      have hone : parsed env before first rest = parseSegment env before first := by
        rw [hr, h]
        rfl
      have hone₀ : parsed env before first [] = parseSegment env before first := by
        rw [hr₀, hnull₀.mpr rfl]
        rfl
      refine ⟨?_, ?_, by rw [hone, hone₀]⟩
      · rw [hone, hsegs]
        exact leaves_parseSegment hne before
      · intro cs hcs c hc
        rw [hone, leaves_parseSegment hne before] at hcs
        cases hcs
        rw [List.mem_singleton.mp hc]
        exact noBars_parseSegment hne hbar' before
  | cons o os =>
    have htree : ∀ rest, parsed env before line rest = barTree env before first (o :: os) := by
      intro rest
      rw [hline] at hend ⊢
      have h := parseLine_bars env rest (by simp) hbar hend [] before
      rw [← List.append_assoc first] at h
      exact h
    have hplain : Plain line rest ↔ first ≠ [] ∧ ∀ seg ∈ (o :: os).dropLast, strip seg ≠ [] := by
      unfold Plain
      rw [hsplit]
    rw [hplain]
    constructor
    · intro hok
      have hleaves := hok.tree
      have hbars := hok.bars
      rw [htree] at hleaves hbars
      have hfirst : first ≠ [] := by
        rintro rfl
        unfold barTree at hleaves
        have hnull : parseSegment env before [] = .null := rfl
        rw [hnull, leaves_null_pipe] at hleaves
        cases hleaves
      refine ⟨hfirst, ?_⟩
      intro seg hseg hempty
      obtain ⟨c, hc, hbad⟩ := bar_of_barTree hfirst ⟨seg, hseg, hempty⟩ before hleaves
      exact hbad (hbars _ hleaves c hc)
    · intro ⟨hfirst, hmid⟩
      have hleaves := leaves_barTree env hfirst hmid before
      refine ⟨?_, ?_, by rw [htree, htree]⟩
      · rw [htree, hleaves, hsegs, if_neg hfirst]
        rfl
      · intro cs hcs c hc
        rw [htree, hleaves] at hcs
        cases hcs
        rcases List.mem_cons.mp hc with rfl | hc
        · exact noBars_parseSegment hfirst (hbar _ List.mem_cons_self) before
        · obtain ⟨seg, hseg, rfl⟩ := List.mem_map.mp hc
          have hmem := List.mem_filter.mp hseg
          obtain ⟨seg', hseg', rfl⟩ := List.mem_map.mp hmem.1
          have hnot := not_mem_strip (hbar seg' (List.mem_cons_of_mem _ hseg'))
          exact noBars_parseSegment (by simpa using hmem.2) hnot _

/-- Three commands, with the rest of a longer line left in the buffer. -/
theorem lineOk_three :
    (segmentParses ⟨fun _ => none, 0, fun _ _ => []⟩ endString ['a', '|', 'b', '|', 'c']).length = 3 ∧
    LineOk ⟨fun _ => none, 0, fun _ _ => []⟩ endString ['a', '|', 'b', '|', 'c'] ['w', 'c', endString] :=
  ⟨by decide +kernel, (lineOk_iff _ endString (by decide) (by decide)).mpr (by decide)⟩

/-- With `wc` left in the buffer behind the terminator, `ls` runs as `ls | wc`. -/
theorem lineOk_fails : ¬ (∀ (env : Environ) (before : Char) (line rest : List Char), line ≠ [] →
    endString ∉ line → LineOk env before line rest) := by
  intro h
  have hok := h ⟨fun _ => none, 0, fun _ _ => []⟩ endString ['l', 's'] ['w', 'c', endString]
    (by decide) (by decide)
  have hclean := hok.clean
  revert hclean
  decide +kernel

end SistemasOperativos.Shell
