import SistemasOperativos.Shell.Lines

/-!
# Background commands

`run_cmd` does not wait when the root of the tree is a `BACK` node. That node is made for a segment,
at its first `&`, and `parse_cmd` looks at one character before it.
-/

namespace SistemasOperativos.Shell

/-- `parsed->type == BACK`: the shell does not wait. -/
def Cmd.isBack : Cmd → Bool
  | .back _ => true
  | _ => false

/-- The commands with a text, in the order of the line. -/
def Cmd.started : Cmd → List ExecCmd
  | .null => []
  | .exec e => if e.scmd = [] then [] else [e]
  | .back c => c.started
  | .pipe l r => l.started ++ r.started

/-! ### The contract -/

/-- The line is `text`, an `&` and spaces, and the `&` does not belong to a redirection. -/
def AmpBehind (text line : List Char) : Prop :=
  (∃ k, line = text ++ '&' :: List.replicate k space) ∧ text.getLast? ≠ some '>'

/-- The commands of a text with their full arguments. -/
def commandsOf (env : Environ) (text : List Char) : List ExecCmd :=
  match text.splitOn '|' with
  | [] => []
  | first :: others => ((first :: others.map strip).filter (· ≠ [])).map (parseExec env)

/-- The shell does not wait exactly if the line ends in an `&`, and then all that stands before it is
started. -/
structure BackOk (env : Environ) (before : Char) (line rest : List Char) : Prop where
  background : (parsed env before line rest).isBack = true ↔ ∃ text, AmpBehind text line
  started : ∀ text, AmpBehind text line → (parsed env before line rest).started = commandsOf env text

/-- Nothing but spaces is left in the buffer behind the line. -/
def NoText (rest : List Char) : Prop := (strip rest).takeWhile (· ≠ endString) = []

/-- The first `&` of a segment does not follow a `>`; `before` is the byte before the segment. -/
def FirstAmp (before : Char) (seg : List Char) : Prop :=
  ∃ i, blockContains seg '&' = some i ∧ (before :: seg).getD i endString ≠ '>'

/-- Nothing is parsed behind the first segment. -/
def Alone (line rest : List Char) : Prop :=
  match line.splitOn '|' with
  | [_] => NoText rest
  | [_, o] => strip o = []
  | _ => False

/-- A line that ends in an `&` has no other one and no bar; the first `&` of any other line follows a
`>`, or is not in the first segment, or there is more behind that. -/
def Backable (before : Char) (line rest : List Char) : Prop :=
  ((∃ text, AmpBehind text line) →
    '|' ∉ line ∧ line.count '&' = 1 ∧ NoText rest ∧ (line.head? = some '&' → before ≠ '>')) ∧
  ((¬ ∃ text, AmpBehind text line) →
    ¬ (FirstAmp before (line.takeWhile (· ≠ '|')) ∧ Alone line rest))

/-! ### The root of the tree -/

variable {env : Environ} {before : Char} {line rest seg text : List Char}

lemma isBack_parseSegment (env : Environ) (before : Char) (seg : List Char) :
    (parseSegment env before seg).isBack = true ↔ FirstAmp before seg := by
  unfold parseSegment FirstAmp
  by_cases hne : seg = []
  · rw [if_pos hne]
    refine iff_of_false nofun ?_
    rintro ⟨i, hi, -⟩
    rw [hne] at hi
    cases hi
  · rw [if_neg hne]
    cases hamp : blockContains seg '&' with
    | none => exact iff_of_false nofun (fun ⟨i, hi, _⟩ => nomatch hi)
    | some i =>
      dsimp only
      split
      · rename_i hgt
        exact iff_of_true rfl ⟨i, rfl, hgt⟩
      · rename_i hgt
        refine iff_of_false nofun ?_
        rintro ⟨j, hj, hne'⟩
        cases hj
        exact hgt hne'

lemma isBack_pipeCmdCreate (l r : Cmd) :
    (pipeCmdCreate l r).isBack = true ↔ l.isBack = true ∧ r = .null := by
  unfold pipeCmdCreate
  split
  · exact (and_iff_left rfl).symm
  · rename_i hne
    exact iff_of_false nofun (fun h => hne h.2)

lemma takeWhile_bars {first : List Char} (hbar : '|' ∉ first) (others : List (List Char)) :
    (first ++ bars others).takeWhile (· ≠ '|') = first := by
  have hpos : ∀ c ∈ first, decide (c ≠ '|') = true := by
    intro c hc
    have hne : c ≠ '|' := fun h => hbar (h ▸ hc)
    simpa using hne
  rw [List.takeWhile_append_of_pos hpos]
  cases others with
  | nil => exact List.append_nil first
  | cons o os => exact List.append_nil first

/-- The shell does not wait when the first segment is a background command and nothing is behind
it. -/
lemma isBack_parsed (env : Environ) (before : Char) (hend : endString ∉ line) (rest : List Char) :
    (parsed env before line rest).isBack = true ↔
      FirstAmp before (line.takeWhile (· ≠ '|')) ∧ Alone line rest := by
  obtain ⟨first, others, hline, hsplit, hbar⟩ := splitOn_bars line
  have hfirst := hbar first List.mem_cons_self
  have htake : line.takeWhile (· ≠ '|') = first := by
    rw [hline]
    exact takeWhile_bars hfirst others
  unfold Alone
  rw [hsplit, htake]
  cases others with
  | nil =>
    have hone : line = first := by
      rw [hline]
      exact List.append_nil first
    rw [← hone] at hfirst ⊢
    obtain ⟨r, heq, hnull⟩ := parsed_noBar env hfirst hend before rest
    rw [heq, isBack_pipeCmdCreate, isBack_parseSegment, hnull]
    rfl
  | cons o os =>
    have hparsed : parsed env before line rest = barTree env before first (o :: os) := by
      rw [hline] at hend
      have h := parseLine_bars env rest (List.cons_ne_nil o os) hbar hend [] before
      unfold parsed
      rw [hline, List.append_assoc]
      exact h
    rw [hparsed]
    unfold barTree
    rw [isBack_pipeCmdCreate, isBack_parseSegment]
    refine and_congr_right fun _ => ?_
    cases os with
    | nil =>
      dsimp only
      by_cases ho : strip o = []
      · rw [if_pos ho]
        exact iff_of_true rfl ho
      · rw [if_neg ho]
        exact iff_of_false (barTree_ne_null ho endString []) ho
    | cons o' os =>
      refine iff_of_false ?_ (fun h => h)
      split
      · exact parseSegment_ne_null (List.cons_ne_nil _ _) endString
      · rename_i ho
        exact barTree_ne_null ho endString _

/-! ### The end of the line -/

lemma dropWhile_reverse {c : Char} (hc : c ≠ space) (text : List Char) (k : ℕ) :
    (text ++ c :: List.replicate k space).reverse.dropWhile (· = space) = c :: text.reverse := by
  have hall : ∀ a ∈ List.replicate k space, decide (a = space) = true := fun a ha =>
    decide_eq_true (List.eq_of_mem_replicate ha)
  rw [List.reverse_append, List.reverse_cons, List.reverse_replicate, List.append_assoc,
    List.dropWhile_append_of_pos hall]
  exact List.dropWhile_cons_of_neg (by simpa using hc)

/-- The last character of a line that is no space. -/
lemma end_unique {c d : Char} {s t : List Char} {k j : ℕ} (hc : c ≠ space) (hd : d ≠ space)
    (h : s ++ c :: List.replicate k space = t ++ d :: List.replicate j space) : c = d ∧ s = t := by
  have hrev := congrArg (fun l => l.reverse.dropWhile (· = space)) h
  rw [dropWhile_reverse hc, dropWhile_reverse hd] at hrev
  obtain ⟨hcd, hst⟩ := List.cons.inj hrev
  exact ⟨hcd, List.reverse_injective hst⟩

lemma eq_replicate_of_strip {o : List Char} (h : strip o = []) : ∃ k, o = List.replicate k space := by
  refine ⟨o.length, List.eq_replicate_of_mem fun a ha => ?_⟩
  have hall := List.dropWhile_eq_nil_iff.mp h a ha
  exact of_decide_eq_true hall

/-- A line that ends in an `&` does not end in a bar. -/
lemma noBar_of_alone (hamp : ∃ text, AmpBehind text line) (h : Alone line rest) :
    '|' ∉ line ∧ NoText rest := by
  obtain ⟨first, others, hline, hsplit, hbar⟩ := splitOn_bars line
  obtain ⟨text, ⟨k, htext⟩, -⟩ := hamp
  unfold Alone at h
  rw [hsplit] at h
  match others with
  | [] =>
    have hone : line = first := by
      rw [hline]
      exact List.append_nil first
    exact ⟨hone ▸ hbar first List.mem_cons_self, h⟩
  | [o] =>
    obtain ⟨j, ho⟩ := eq_replicate_of_strip h
    have hbars : bars [o] = '|' :: o := List.append_nil _
    rw [hline, hbars, ho] at htext
    exact absurd (end_unique (by decide) (by decide) htext).1 (by decide)
  | _ :: _ :: _ => exact h.elim

/-! ### Results -/

lemma commandsOf_noBar (env : Environ) (hbar : '|' ∉ text) :
    commandsOf env text = if text = [] then [] else [parseExec env text] := by
  unfold commandsOf
  rw [List.splitOn_eq_singleton hbar]
  by_cases hempty : text = []
  · rw [if_pos hempty, hempty]
    rfl
  · have hkeep : [text].filter (· ≠ []) = [text] := List.filter_cons_of_pos (by simpa using hempty)
    rw [if_neg hempty]
    exact congrArg (List.map (parseExec env)) hkeep

/-- The command of a line whose root is a `BACK` node. -/
lemma started_back {u v : List Char} (hu : '&' ∉ u) (hbar : '|' ∉ u ++ '&' :: v)
    (hend : endString ∉ u ++ '&' :: v) (hclean : NoText rest)
    (hamp : FirstAmp before (u ++ '&' :: v)) :
    (parsed env before (u ++ '&' :: v) rest).started = if u = [] then [] else [parseExec env u] := by
  obtain ⟨r, heq, hnull⟩ := parsed_noBar env hbar hend before rest
  have hseg : parseSegment env before (u ++ '&' :: v) = .back (.exec (parseExec env u)) := by
    obtain ⟨i, hi, hgt⟩ := hamp
    rw [blockContains_append hu] at hi
    cases hi
    have hne : u ++ '&' :: v ≠ [] := List.append_ne_nil_of_right_ne_nil u (List.cons_ne_nil _ _)
    unfold parseSegment
    rw [if_neg hne, blockContains_append hu]
    dsimp only
    rw [if_pos hgt, List.take_left]
  rw [heq, hnull.mpr hclean, hseg]
  have hscmd : (parseExec env u).scmd = u := parseExec_scmd env u
  show (if (parseExec env u).scmd = [] then [] else [parseExec env u]) = _
  rw [hscmd]

/-- The shell leaves a line in the background as its end says exactly if it is backable. -/
theorem backOk_iff (env : Environ) (before : Char) {line rest : List Char} (hend : endString ∉ line) :
    BackOk env before line rest ↔ Backable before line rest := by
  have hback := isBack_parsed env before hend rest
  constructor
  · intro h
    refine ⟨fun hamp => ?_, fun hnot hfirst => hnot (h.background.mp (hback.mpr hfirst))⟩
    obtain ⟨hfirst, halone⟩ := hback.mp (h.background.mpr hamp)
    obtain ⟨hbar, hclean⟩ := noBar_of_alone hamp halone
    have htake : line.takeWhile (· ≠ '|') = line := by
      have htake := takeWhile_bars hbar []
      rwa [bars, List.flatMap_nil, List.append_nil] at htake
    rw [htake] at hfirst
    have hfirst' := hfirst
    obtain ⟨i, hi, hgt⟩ := hfirst'
    obtain ⟨u, v, rfl, hu, rfl⟩ := blockContains_some.mp hi
    obtain ⟨text, hbehind⟩ := hamp
    have hstarted := h.started text hbehind
    obtain ⟨⟨k, htext⟩, -⟩ := hbehind
    have hbar' : '|' ∉ text := fun hmem => hbar (htext ▸ List.mem_append_left _ hmem)
    rw [started_back hu hbar hend hclean hfirst, commandsOf_noBar env hbar'] at hstarted
    -- the text that is started is all that stands before the last `&`
    have heq : u = text := by
      by_cases hu0 : u = []
      · by_cases ht0 : text = []
        · rw [hu0, ht0]
        · rw [if_pos hu0, if_neg ht0] at hstarted
          cases hstarted
      · by_cases ht0 : text = []
        · rw [if_neg hu0, if_pos ht0] at hstarted
          cases hstarted
        · rw [if_neg hu0, if_neg ht0] at hstarted
          have hscmd := congrArg ExecCmd.scmd (List.cons.inj hstarted).1
          rwa [parseExec_scmd, parseExec_scmd] at hscmd
    subst heq
    refine ⟨hbar, ?_, hclean, ?_⟩
    · have hspaces : '&' ∉ List.replicate k space := fun hmem =>
        absurd (List.eq_of_mem_replicate hmem) (by decide)
      rw [htext, List.count_append, List.count_cons_self, List.count_eq_zero.mpr hu,
        List.count_eq_zero.mpr hspaces]
    · intro hhead
      have hu0 : u = [] := by
        cases u with
        | nil => rfl
        | cons c u =>
          cases hhead
          exact absurd List.mem_cons_self hu
      rw [hu0] at hgt
      exact hgt
  · rintro ⟨hamp, hnot⟩
    have hall : ∀ text, AmpBehind text line → (parsed env before line rest).isBack = true ∧
        (parsed env before line rest).started = commandsOf env text := by
      intro text hbehind
      obtain ⟨hbar, hcount, hclean, hhead⟩ := hamp ⟨text, hbehind⟩
      obtain ⟨⟨k, rfl⟩, hlast⟩ := hbehind
      have htext : '&' ∉ text := by
        rw [List.count_append, List.count_cons_self] at hcount
        exact List.count_eq_zero.mp (by omega)
      have hfirst : FirstAmp before (text ++ '&' :: List.replicate k space) := by
        refine ⟨text.length, blockContains_append htext _, ?_⟩
        rcases List.eq_nil_or_concat text with rfl | ⟨s, c, rfl⟩
        · exact hhead rfl
        · rw [List.concat_eq_append] at hlast ⊢
          have hget : (before :: (s ++ [c] ++ '&' :: List.replicate k space)).getD (s ++ [c]).length
              endString = c := by
            rw [List.length_append, List.length_singleton, List.getD_cons_succ, List.append_assoc,
              List.getD_append_right _ _ _ _ (Nat.le_refl _), Nat.sub_self]
            rfl
          rw [List.getLast?_concat] at hlast
          rw [hget]
          exact fun heq => hlast (congrArg some heq)
      have htake : (text ++ '&' :: List.replicate k space).takeWhile (· ≠ '|') =
          text ++ '&' :: List.replicate k space := by
        have htake := takeWhile_bars hbar []
        rwa [bars, List.flatMap_nil, List.append_nil] at htake
      have halone : Alone (text ++ '&' :: List.replicate k space) rest := by
        unfold Alone
        rw [List.splitOn_eq_singleton hbar]
        exact hclean
      have hbar' : '|' ∉ text := fun hmem => hbar (List.mem_append_left _ hmem)
      refine ⟨hback.mpr ⟨htake.symm ▸ hfirst, halone⟩, ?_⟩
      rw [started_back htext hbar hend hclean hfirst, commandsOf_noBar env hbar']
    constructor
    · constructor
      · intro hisBack
        by_contra hno
        exact hnot hno (hback.mp hisBack)
      · rintro ⟨text, hbehind⟩
        exact (hall text hbehind).1
    · exact fun text hbehind => (hall text hbehind).2

theorem backOk_sleep :
    BackOk ⟨fun _ => none, 0, fun _ _ => []⟩ endString ['a', '&'] [] ↔
      Backable endString ['a', '&'] [] :=
  backOk_iff ⟨fun _ => none, 0, fun _ _ => []⟩ endString (by decide)

/-- `a|b&` is waited for. -/
theorem backOk_fails : ¬ ∀ (env : Environ) (before : Char) (line rest : List Char),
    endString ∉ line → BackOk env before line rest := by
  intro h
  have hok := h ⟨fun _ => none, 0, fun _ _ => []⟩ endString ['a', '|', 'b', '&'] [] (by decide)
  have hamp : ∃ text, AmpBehind text ['a', '|', 'b', '&'] := ⟨['a', '|', 'b'], ⟨0, rfl⟩, by decide⟩
  have hback := hok.background.mpr hamp
  revert hback
  decide +kernel

end SistemasOperativos.Shell
