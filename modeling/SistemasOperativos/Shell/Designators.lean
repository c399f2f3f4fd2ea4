import SistemasOperativos.Shell.Builtin

/-!
# Event designators

`event_designators` of `builtin.c` and the part of `run_cmd` that follows them. A line `!-n` of the
history can lead to itself, so the lines that are followed are shown to be different from each other
whenever they come to an end.
-/

namespace SistemasOperativos.Shell

open Library

/-- The history file: its text if it can be opened, and whether it can be opened to append. -/
structure HistFile where
  text : Option (List Char)
  writable : Bool

/-- `save_history`. -/
def saveHistory (file : HistFile) (cmd : List Char) : HistFile :=
  if file.writable = true then { file with text := some (file.text.getD [] ++ (cmd ++ [endLine])) }
  else file

def bangBang : List Char := ['!', '!']
def bangMinusOne : List Char := ['!', '-', '1']

/-- `event_designators`: `NULL`, or the line and `debo_guardar`; `none` when `find_command` or `atoi`
has no result. -/
def eventDesignators (junk : List Char) (file : Option (List Char)) (cmd : List Char) :
    Option (Option (List Char × Bool)) :=
  if cmd.head? = some '!' then
    match file with
    | none => some none
    | some text =>
      if cmd = bangBang ∨ cmd = bangMinusOne then
        (findCommand junk text 1).map fun res => some (res, false)
      else if cmd[1]? = some '-' then
        ((atoi? (cmd.drop 2)).bind (findCommand junk text)).map fun res => some (res, true)
      else some none
  else some none

/-- How the calls of `run_cmd` for a line end. `done`: with this line for the shell or a program, or
with the empty one, and with this history file. -/
inductive RunEnd
  | running
  | undefined
  | done (line : Option (List Char)) (file : HistFile)

/-- `run_cmd` with at most `fuel` calls; `junk k` is what the buffer of call `k` holds. -/
def runCmdFrom (junk : ℕ → List Char) : ℕ → ℕ → HistFile → List Char → RunEnd
  | 0, _, _, _ => .running
  | fuel + 1, k, file, cmd =>
    match eventDesignators (junk k) file.text cmd with
    | none => .undefined
    | some (some (newCmd, true)) => runCmdFrom junk fuel (k + 1) file newCmd
    -- `run_cmd_without_history`
    | some (some (newCmd, false)) => .done (if newCmd = [] then none else some newCmd) file
    | some none => if cmd = [] then .done none file else .done (some cmd) (saveHistory file cmd)

/-! ### The contract -/

/-- A line that can be entered. -/
structure Entered where
  text : List Char
  oneLine : endLine ∉ text

def isDesignator (cmd : List Char) : Bool := cmd = bangBang || ['!', '-'].isPrefixOf cmd

/-- At most one line more. -/
def Extends (file file' : HistFile) : Prop :=
  file'.text = file.text ∨
    ∃ l, endLine ∉ l ∧ file'.text = some (file.text.getD [] ++ (l ++ [endLine]))

/-- After finitely many calls a line that is no designator is executed, or the empty one not, and the
history has at most one line more. -/
def ExpandsOk (file : HistFile) (cmd : List Char) : Prop :=
  ∀ junk, ∃ fuel line file', runCmdFrom junk fuel 0 file cmd = .done line file' ∧
    (∀ l ∈ line, isDesignator l = false) ∧ Extends file file'

/-- The line that `!-n` stands for, if the history has one. -/
def recalled (text cmd : List Char) : Option (List Char) := do
  let n ← atoi? (cmd.drop 2)
  if 1 ≤ n ∧ (fileLines text).length ≤ intMax then
    let l ← (fileLines text)[(fileLines text).length - n.toNat]?
    stripLast (l ++ [endString])
  else none

/-- A line `!-n` that is followed by another call of `run_cmd`. -/
def chained (cmd : List Char) : Bool := isDesignator cmd && cmd ≠ bangBang && cmd ≠ bangMinusOne

/-- A line at which the calls end well. -/
def Final (text cmd : List Char) : Prop :=
  if cmd = bangBang ∨ cmd = bangMinusOne then
    ∃ l, recalled text bangMinusOne = some l ∧ isDesignator l = false
  else isDesignator cmd = false

/-- The line leads to a final one over `k` lines `!-n`. -/
def Leads (text : List Char) : ℕ → List Char → Prop
  | 0, cmd => Final text cmd
  | k + 1, cmd => chained cmd = true ∧ ∃ l, recalled text cmd = some l ∧ Leads text k l

/-- A line that is no designator; or the history can be opened and leads to the end with no more
lines than it has. -/
def Resolves (file : HistFile) (cmd : List Char) : Prop :=
  match file.text with
  | none => isDesignator cmd = false
  | some text => ∃ k ≤ (fileLines text).length, Leads text k cmd

/-! ### Recalled lines -/

variable {text cmd l junk : List Char} {file : HistFile} {k j : ℕ}

lemma recalled_eq_some : recalled text cmd = some l ↔ ∃ n : ℤ, atoi? (cmd.drop 2) = some n ∧ 1 ≤ n ∧
    (fileLines text).length ≤ intMax ∧
      ∃ raw, (fileLines text)[(fileLines text).length - n.toNat]? = some raw ∧
        stripLast (raw ++ [endString]) = some l := by
  unfold recalled
  cases hn : atoi? (cmd.drop 2) with
  | none => exact iff_of_false nofun (fun ⟨n, h, _⟩ => nomatch h)
  | some n =>
    simp only [Option.bind_eq_bind, Option.bind_some]
    split
    · rename_i h
      rw [Option.bind_eq_some_iff]
      constructor
      · rintro ⟨raw, hraw, hl⟩
        exact ⟨n, rfl, h.1, h.2, raw, hraw, hl⟩
      · rintro ⟨n', hn', -, -, raw, hraw, hl⟩
        cases hn'
        exact ⟨raw, hraw, hl⟩
    · rename_i h
      refine iff_of_false nofun ?_
      rintro ⟨n', hn', hpos, hmax, -⟩
      cases hn'
      exact h ⟨hpos, hmax⟩

lemma atoi?_le {s : List Char} {n : ℤ} (h : atoi? s = some n) : n ≤ intMax := by
  have hint : ∀ z : ℤ, int? z = some n → n ≤ intMax := by
    intro z hz
    unfold int? at hz
    split at hz
    · rename_i hrange
      cases hz
      exact hrange.2
    · cases hz
  unfold atoi? at h
  split at h
  · exact hint _ h
  · exact hint _ h
  · exact hint _ h

/-- `find_command` gives the recalled line. -/
lemma find_recalled (h : recalled text cmd = some l) (junk : List Char) :
    (atoi? (cmd.drop 2)).bind (findCommand junk text) = some l := by
  obtain ⟨n, hn, hpos, hmax, raw, hraw, hl⟩ := recalled_eq_some.mp h
  have hle := atoi?_le hn
  have hcast : ((n.toNat : ℕ) : ℤ) = n := Int.toNat_of_nonneg (by omega)
  rw [hn, Option.bind_some, ← hcast, findCommand_eq (by omega) hmax, hraw]
  exact hl

lemma findFrom_none {saltar i : ℤ} (ls : List (List Char)) (h : i + ls.length ≤ saltar) :
    findFrom saltar i ls = none := by
  induction ls generalizing i with
  | nil => rfl
  | cons l ls ih =>
    rw [List.length_cons] at h
    unfold findFrom
    rw [if_pos (by omega)]
    exact ih (by omega)

lemma findCommand_nonpos {n : ℤ} (h : n ≤ 0) : findCommand [] text n = none := by
  unfold findCommand
  rw [countLines_eq]
  split
  · simp only [Option.bind_eq_bind, Option.bind_some]
    cases hdiff : int? ((fileLines text).length - n) with
    | none => rfl
    | some diff =>
      have heq : diff = (fileLines text).length - n := by
        unfold int? at hdiff
        split at hdiff
        · cases hdiff
          rfl
        · cases hdiff
      rw [Option.bind_some, findFrom_none]
      · rfl
      · split
        · omega
        · omega
  · rfl

/-- Where there is none, an empty buffer gives nothing. -/
lemma find_not_recalled (h : recalled text cmd = none) :
    (atoi? (cmd.drop 2)).bind (findCommand [] text) = none := by
  cases hn : atoi? (cmd.drop 2) with
  | none => rfl
  | some n =>
    rw [Option.bind_some]
    by_cases hpos : n ≤ 0
    · exact findCommand_nonpos hpos
    have hle := atoi?_le hn
    have hcast : ((n.toNat : ℕ) : ℤ) = n := Int.toNat_of_nonneg (by omega)
    rw [← hcast]
    by_cases hmax : (fileLines text).length ≤ intMax
    · rw [findCommand_eq (by omega) hmax]
      cases hraw : (fileLines text)[(fileLines text).length - n.toNat]? with
      | none => rfl
      | some raw =>
        dsimp only
        cases hl : stripLast (raw ++ [endString]) with
        | none => rfl
        | some l =>
          have hsome := recalled_eq_some.mpr ⟨n, hn, by omega, hmax, raw, hraw, hl⟩
          rw [h] at hsome
          cases hsome
    · unfold findCommand
      rw [countLines_eq, if_neg hmax]
      rfl

lemma dropLast_prefix_dropLast {a b : List Char} (h : a <+: b) : a.dropLast <+: b.dropLast := by
  obtain ⟨t, rfl⟩ := h
  by_cases ht : t = []
  · rw [ht, List.append_nil]
  · rw [List.dropLast_append_of_ne_nil ht]
    exact (List.dropLast_prefix a).trans (List.prefix_append a _)

lemma not_mem_stripLast_line {raw : List Char} (hraw : endLine ∉ raw.dropLast)
    (h : stripLast (raw ++ [endString]) = some l) : endLine ∉ l := by
  unfold stripLast at h
  rw [strAt?_zero, if_pos (List.mem_append_right raw List.mem_cons_self), Option.bind_some] at h
  split at h
  · cases h
  · cases h
    have hpre : cstr endString (raw ++ [endString]) <+: raw := by
      by_cases hnul : endString ∈ raw
      · obtain ⟨a, b, rfl, ha⟩ := List.eq_append_cons_of_mem hnul
        rw [List.append_assoc, List.cons_append, cstr_append ha]
        exact List.prefix_append a _
      · rw [cstr_append hnul]
    exact fun hmem => hraw ((dropLast_prefix_dropLast hpre).subset hmem)

/-! ### Calls of `event_designators` -/

lemma eventDesignators_other (junk : List Char) (file : Option (List Char))
    (h : isDesignator cmd = false) : eventDesignators junk file cmd = some none := by
  unfold isDesignator at h
  unfold eventDesignators
  split
  · rename_i hbang
    cases file with
    | none => rfl
    | some text =>
      have htwo : ¬ cmd = bangBang := by
        rintro rfl
        cases h
      have hone : ¬ cmd = bangMinusOne := by
        rintro rfl
        cases h
      dsimp only
      rw [if_neg (not_or_intro htwo hone), if_neg]
      intro hminus
      obtain ⟨t, rfl⟩ := List.head?_eq_some_iff.mp hbang
      cases t with
      | nil => cases hminus
      | cons c t =>
        cases hminus
        simp [List.isPrefixOf] at h
  · rfl

lemma eventDesignators_noFile (junk cmd : List Char) : eventDesignators junk none cmd = some none := by
  unfold eventDesignators
  split
  · rfl
  · rfl

lemma eventDesignators_last (junk text : List Char) (h : cmd = bangBang ∨ cmd = bangMinusOne) :
    eventDesignators junk (some text) cmd =
      ((atoi? (bangMinusOne.drop 2)).bind (findCommand junk text)).map fun res => some (res, false) := by
  have hbang : cmd.head? = some '!' := by
    rcases h with rfl | rfl
    · rfl
    · rfl
  have hatoi : atoi? (bangMinusOne.drop 2) = some 1 := by decide
  unfold eventDesignators
  rw [if_pos hbang, hatoi]
  dsimp only
  rw [if_pos h]
  rfl

lemma eq_of_chained (h : chained cmd = true) :
    (∃ t, cmd = '!' :: '-' :: t) ∧ ¬ (cmd = bangBang ∨ cmd = bangMinusOne) := by
  unfold chained isDesignator at h
  simp only [Bool.and_eq_true, Bool.or_eq_true, decide_eq_true_eq] at h
  obtain ⟨⟨hdes, htwo⟩, hone⟩ := h
  have hpre := List.isPrefixOf_iff_prefix.mp (hdes.resolve_left htwo)
  obtain ⟨t, ht⟩ := hpre
  exact ⟨⟨t, ht.symm⟩, not_or_intro htwo hone⟩

lemma eventDesignators_chained (junk text : List Char) (h : chained cmd = true) :
    eventDesignators junk (some text) cmd =
      ((atoi? (cmd.drop 2)).bind (findCommand junk text)).map fun res => some (res, true) := by
  obtain ⟨⟨t, rfl⟩, hnot⟩ := eq_of_chained h
  have hbang : ('!' :: '-' :: t).head? = some '!' := rfl
  unfold eventDesignators
  rw [if_pos hbang]
  dsimp only
  rw [if_neg hnot]
  rfl

/-- A line is final or followed by another one. -/
lemma not_chained (h : chained cmd = false) :
    (cmd = bangBang ∨ cmd = bangMinusOne) ∨ isDesignator cmd = false := by
  unfold chained at h
  by_contra hnot
  rw [not_or, not_or] at hnot
  obtain ⟨⟨htwo, hone⟩, hdes⟩ := hnot
  rw [Bool.not_eq_false] at hdes
  simp [hdes, htwo, hone] at h

/-! ### The lines that are followed -/

lemma not_final_of_chained (h : chained cmd = true) : ¬ Final text cmd := by
  obtain ⟨⟨t, rfl⟩, hnot⟩ := eq_of_chained h
  unfold Final
  rw [if_neg hnot]
  intro hfalse
  unfold isDesignator at hfalse
  simp [List.isPrefixOf] at hfalse

/-- A line comes to its end after one number of steps only. -/
lemma Leads.unique (hk : Leads text k cmd) (hj : Leads text j cmd) : k = j := by
  induction k generalizing j cmd with
  | zero =>
    cases j with
    | zero => rfl
    | succ j => exact absurd hk (not_final_of_chained hj.1)
  | succ k ih =>
    cases j with
    | zero => exact absurd hj (not_final_of_chained hk.1)
    | succ j =>
      obtain ⟨-, l, hl, hk⟩ := hk
      obtain ⟨-, l', hl', hj⟩ := hj
      rw [hl] at hl'
      cases hl'
      rw [ih hk hj]

/-- The texts that can be recalled. -/
def texts (text : List Char) : List (List Char) :=
  (fileLines text).filterMap fun raw => stripLast (raw ++ [endString])

lemma mem_texts (h : recalled text cmd = some l) : l ∈ texts text := by
  obtain ⟨n, -, -, -, raw, hraw, hl⟩ := recalled_eq_some.mp h
  exact List.mem_filterMap.mpr ⟨raw, List.mem_of_getElem? hraw, hl⟩

/-- The lines on the way are different from each other, since their numbers of steps are. -/
lemma Leads.visited (h : Leads text k cmd) : ∃ ls : List (List Char), ls.length = k ∧ ls.Nodup ∧
    ls ⊆ texts text ∧ ∀ l ∈ ls, ∃ j < k, Leads text j l := by
  induction k generalizing cmd with
  | zero => exact ⟨[], rfl, List.nodup_nil, List.nil_subset _, nofun⟩
  | succ k ih =>
    obtain ⟨-, l, hl, hrest⟩ := h
    obtain ⟨ls, hlen, hnodup, hsub, hsteps⟩ := ih hrest
    refine ⟨l :: ls, by rw [List.length_cons, hlen], ?_, ?_, ?_⟩
    · refine List.nodup_cons.mpr ⟨fun hmem => ?_, hnodup⟩
      obtain ⟨j, hj, hleads⟩ := hsteps l hmem
      have heq := hrest.unique hleads
      omega
    · exact List.cons_subset.mpr ⟨mem_texts hl, hsub⟩
    · intro l' hmem
      rcases List.mem_cons.mp hmem with rfl | hmem
      · exact ⟨k, Nat.lt_succ_self k, hrest⟩
      · obtain ⟨j, hj, hleads⟩ := hsteps l' hmem
        exact ⟨j, by omega, hleads⟩

lemma Leads.le_lines (h : Leads text k cmd) : k ≤ (fileLines text).length := by
  obtain ⟨ls, hlen, hnodup, hsub, -⟩ := h.visited
  have htexts : (texts text).length ≤ (fileLines text).length := List.length_filterMap_le _ _
  have hle := hnodup.length_le_of_subset hsub
  omega

lemma recalled_oneLine (h : recalled text cmd = some l) : endLine ∉ l := by
  obtain ⟨n, -, -, -, raw, hraw, hl⟩ := recalled_eq_some.mp h
  exact not_mem_stripLast_line (not_mem_dropLast (List.mem_of_getElem? hraw)) hl

lemma extends_saveHistory (file : HistFile) (h : endLine ∉ cmd) : Extends file (saveHistory file cmd) := by
  unfold saveHistory
  split
  · exact .inr ⟨cmd, h, rfl⟩
  · exact .inl rfl

/-! ### Results -/

/-- What a good end of the calls is. -/
def EndsWell (file : HistFile) (out : RunEnd) : Prop :=
  ∃ line file', out = .done line file' ∧ (∀ l ∈ line, isDesignator l = false) ∧ Extends file file'

/-- A line that is no designator. -/
lemma runCmdFrom_other (junk : ℕ → List Char) (fuel k : ℕ) (hev : ∀ b, eventDesignators b file.text cmd = some none)
    (hdes : isDesignator cmd = false) (hline : endLine ∉ cmd) :
    EndsWell file (runCmdFrom junk (fuel + 1) k file cmd) := by
  unfold runCmdFrom
  rw [hev]
  dsimp only
  by_cases hempty : cmd = []
  · rw [if_pos hempty]
    exact ⟨none, file, rfl, nofun, .inl rfl⟩
  · rw [if_neg hempty]
    refine ⟨some cmd, _, rfl, ?_, extends_saveHistory file hline⟩
    rintro _ ⟨⟩
    exact hdes

/-- The line leads to the end with one call more than it has steps. -/
lemma Leads.runs (htext : file.text = some text) (junk : ℕ → List Char) (h : Leads text k cmd) :
    ∀ (i : ℕ), endLine ∉ cmd → EndsWell file (runCmdFrom junk (k + 1) i file cmd) := by
  induction k generalizing cmd with
  | zero =>
    intro i hline
    replace h : Final text cmd := h
    unfold Final at h
    split at h
    · rename_i hlast
      obtain ⟨l, hl, hdes⟩ := h
      unfold runCmdFrom
      rw [htext, eventDesignators_last _ _ hlast, find_recalled hl]
      dsimp only [Option.map_some]
      refine ⟨_, file, rfl, ?_, .inl rfl⟩
      split
      · exact nofun
      · rintro _ ⟨⟩
        exact hdes
    · exact runCmdFrom_other junk 0 i (fun b => eventDesignators_other b _ h) h hline
  | succ k ih =>
    intro i hline
    obtain ⟨hch, l, hl, hrest⟩ := h
    unfold runCmdFrom
    rw [htext, eventDesignators_chained _ _ hch, find_recalled hl]
    exact ih hrest (i + 1) (recalled_oneLine hl)

/-- With empty buffers every good end is that of a line that leads to it. -/
lemma leads_of_endsWell (htext : file.text = some text) (fuel : ℕ) :
    ∀ {cmd : List Char} (i : ℕ), EndsWell file (runCmdFrom (fun _ => []) fuel i file cmd) →
      ∃ k, Leads text k cmd := by
  induction fuel with
  | zero =>
    rintro cmd i ⟨line, file', hrun, -⟩
    cases hrun
  | succ fuel ih =>
    intro cmd i h
    unfold runCmdFrom at h
    rw [htext] at h
    cases hch : chained cmd with
    | true =>
      rw [eventDesignators_chained _ _ hch] at h
      cases hl : recalled text cmd with
      | none =>
        rw [find_not_recalled hl] at h
        obtain ⟨line, file', hrun, -⟩ := h
        cases hrun
      | some l =>
        rw [find_recalled hl] at h
        obtain ⟨k, hk⟩ := ih (i + 1) h
        exact ⟨k + 1, hch, l, hl, hk⟩
    | false =>
      refine ⟨0, ?_⟩
      show Final text cmd
      unfold Final
      rcases not_chained hch with hlast | hdes
      · rw [if_pos hlast]
        rw [eventDesignators_last _ _ hlast] at h
        cases hl : recalled text bangMinusOne with
        | none =>
          rw [find_not_recalled hl] at h
          obtain ⟨line, file', hrun, -⟩ := h
          cases hrun
        | some l =>
          rw [find_recalled hl] at h
          obtain ⟨line, file', hrun, hexec, -⟩ := h
          refine ⟨l, rfl, ?_⟩
          dsimp only [Option.map_some] at hrun
          by_cases hempty : l = []
          · rw [hempty]
            rfl
          · rw [if_neg hempty] at hrun
            cases hrun
            exact hexec l rfl
      · split
        · rename_i hlast
          rcases hlast with rfl | rfl
          · cases hdes
          · cases hdes
        · exact hdes

/-- The calls for a line end well exactly if it is no designator or leads to the end within the
number of lines of the history. -/
theorem expandsOk_iff (file : HistFile) (cmd : Entered) :
    ExpandsOk file cmd.text ↔ Resolves file cmd.text := by
  unfold Resolves
  cases htext : file.text with
  | none =>
    dsimp only
    constructor
    · intro h
      obtain ⟨fuel, line, file', hrun, hexec, -⟩ := h fun _ => []
      cases fuel with
      | zero => cases hrun
      | succ fuel =>
        unfold runCmdFrom at hrun
        rw [htext, eventDesignators_noFile] at hrun
        dsimp only at hrun
        by_cases hempty : cmd.text = []
        · rw [hempty]
          rfl
        · rw [if_neg hempty] at hrun
          cases hrun
          exact hexec _ rfl
    · intro hdes junk
      have hev : ∀ b, eventDesignators b file.text cmd.text = some none := fun b => by
        rw [htext]
        exact eventDesignators_noFile b cmd.text
      exact ⟨1, runCmdFrom_other junk 0 0 hev hdes cmd.oneLine⟩
  | some text =>
    constructor
    · intro h
      obtain ⟨fuel, hwell⟩ := h fun _ => []
      obtain ⟨k, hk⟩ := leads_of_endsWell htext fuel 0 hwell
      exact ⟨k, hk.le_lines, hk⟩
    · rintro ⟨k, -, hk⟩ junk
      exact ⟨k + 1, hk.runs htext junk 0 cmd.oneLine⟩

/-- The only line of the history is `!-2`, and so is the line that is entered. -/
theorem expandsOk_fails : ¬ ∀ (file : HistFile) (cmd : Entered), ExpandsOk file cmd.text := by
  intro h
  let file : HistFile := ⟨some ['!', '-', '2', '\n'], true⟩
  obtain ⟨fuel, line, file', hrun, -⟩ := h file ⟨['!', '-', '2'], by decide⟩ fun _ => []
  have hloop : ∀ fuel k, runCmdFrom (fun _ => []) fuel k file ['!', '-', '2'] = .running := by
    intro fuel
    induction fuel with
    | zero => exact fun k => rfl
    | succ fuel ih => exact fun k => ih (k + 1)
  rw [hloop] at hrun
  cases hrun

end SistemasOperativos.Shell
