import SistemasOperativos.Fs.Lookup
import Mathlib.Data.List.TakeWhile

/-!
# The resolution of a path

What a path means in a directory tree, and that `walk_path` finds it.
-/

namespace SistemasOperativos.Fs

open Library Kern

/-- The elements of a path: what stands between runs of slashes. -/
def elements (path : CString) : List CString := (path.splitOnP (· = slash)).filter (· ≠ [])

/-- `e` is the first entry of the directory `d` with this name. -/
def Named (c : ℕ → Byte) (d : ℕ) (name : CString) (e : ℕ) : Prop :=
  (entries c d).find? (fun e => nameIs c e name) = some e

/-- The directory `d` has no entry with this name. -/
def Missing (c : ℕ → Byte) (d : ℕ) (name : CString) : Prop :=
  ∀ e, Entry c d e → nameIs c e name = false

/-- From the file `f` in the directory `dir`, the names lead down to the file `g` in the directory
`d`. -/
inductive Reaches (c : ℕ → Byte) : ℕ → ℕ → List CString → ℕ → ℕ → Prop
  | here (dir f : ℕ) : Reaches c dir f [] dir f
  | down {dir f e d g : ℕ} {name : CString} {rest : List CString}
      (hname : name.length < maxnamelen) (hdir : IsDir c f) (he : Named c f name e)
      (hrest : Reaches c f e rest d g) : Reaches c dir f (name :: rest) d g

/-- What the names mean from the file `f` in the directory `dir` on: a file with its directory, or
the error at the first name that fails, with the directory where a new file of that name belongs if
only the last name is missing. -/
inductive Resolution (c : ℕ → Byte) (dir f : ℕ) (names : List CString) :
    Except (ℤ × Option (ℕ × CString)) (ℕ × ℕ) → Prop
  | found {d g : ℕ} (h : Reaches c dir f names d g) : Resolution c dir f names (.ok (d, g))
  | long {front back : List CString} {name : CString} {d g : ℕ} (hnames : names = front ++ name :: back)
      (h : Reaches c dir f front d g) (hname : maxnamelen ≤ name.length) :
      Resolution c dir f names (.error (-eBadPath, none))
  | regular {front back : List CString} {name : CString} {d g : ℕ}
      (hnames : names = front ++ name :: back) (h : Reaches c dir f front d g)
      (hname : name.length < maxnamelen) (hreg : ¬IsDir c g) :
      Resolution c dir f names (.error (-eNotFound, none))
  | missing {front back : List CString} {name : CString} {d g : ℕ}
      (hnames : names = front ++ name :: back) (h : Reaches c dir f front d g)
      (hname : name.length < maxnamelen) (hdir : IsDir c g) (hmissing : Missing c g name)
      (hback : back ≠ []) : Resolution c dir f names (.error (-eNotFound, none))
  | missingLast {front : List CString} {name : CString} {d g : ℕ}
      (hnames : names = front ++ [name]) (h : Reaches c dir f front d g)
      (hname : name.length < maxnamelen) (hdir : IsDir c g) (hmissing : Missing c g name) :
      Resolution c dir f names (.error (-eNotFound, some (g, name)))

variable {c : ℕ → Byte} {F : Set ℕ} {s t : Fs} {d e f g dir : ℕ} {name path : CString}
  {names front rest : List CString}

/-! ### The elements of a path -/

lemma elements_slash (path : CString) : elements (slash :: path) = elements path := by
  unfold elements
  rw [List.splitOnP_cons_eq_if_modifyHead]
  simp

lemma elements_skipSlash (path : CString) : elements (skipSlash path) = elements path := by
  induction path with
  | nil => rfl
  | cons x xs ih =>
    by_cases hx : x = slash
    · subst hx
      rw [elements_slash, ← ih]
      unfold skipSlash
      rw [List.dropWhile_cons_of_pos (by simp)]
    · unfold skipSlash
      rw [List.dropWhile_cons_of_neg (by simp [hx])]

/-- The first element of a path is what stands before the first slash. -/
lemma elements_cons (hpath : path ≠ []) (h : NoSlash path) :
    elements path = path.takeWhile (· ≠ slash) :: elements (nextElem path) := by
  have hword : ∀ x ∈ path.takeWhile (· ≠ slash), decide (x = slash) = false := by
    intro x hx
    have hne := List.mem_takeWhile_imp hx
    simpa using hne
  have hne := takeWhile_ne_nil hpath h
  have hsplit := List.takeWhile_append_dropWhile (p := (· ≠ slash)) (l := path)
  unfold nextElem
  rw [elements_skipSlash]
  cases hrest : path.dropWhile (· ≠ slash) with
  | nil =>
    rw [hrest, List.append_nil] at hsplit
    rw [hsplit] at hword hne ⊢
    unfold elements
    rw [List.splitOnP_eq_singleton hword]
    simp [hne]
  | cons x xs =>
    have hx : x = slash := by
      have h := List.head?_dropWhile_not (· ≠ slash) path
      rw [hrest] at h
      simpa using h
    subst hx
    rw [elements_slash]
    rw [hrest] at hsplit
    unfold elements
    conv_lhs => rw [← hsplit]
    rw [List.splitOnP_append_cons_of_forall_mem hword _ (by simp)]
    rw [List.filter_cons_of_pos (by simpa using hne)]

lemma components_eq_elements (h : NoSlash path) : components path = elements path := by
  induction hlen : path.length using Nat.strong_induction_on generalizing path with
  | _ n ih =>
    unfold components
    by_cases hnil : path = []
    · rw [dif_pos hnil, hnil]
      rfl
    · rw [dif_neg hnil, elements_cons hnil h]
      congr 1
      exact ih _ (hlen ▸ length_nextElem hnil) (noSlash_nextElem path) rfl

lemma ne_nil_of_mem_elements (h : name ∈ elements path) : name ≠ [] := by
  have h := (List.mem_filter.mp h).2
  simpa using h

/-! ### The reference resolution -/

lemma lookupAt_ok : lookupAt c d name = .ok e ↔ Named c d name e := by
  unfold lookupAt Named
  cases (entries c d).find? (fun e => nameIs c e name) with
  | none => simp
  | some e' => simp

lemma missing_iff : Missing c d name ↔ (entries c d).find? (fun e => nameIs c e name) = none := by
  rw [List.find?_eq_none]
  unfold Missing
  simp only [mem_entries, Bool.not_eq_true]

lemma lookupAt_missing (hlen : dirLen c d ≤ maxLen) (h : Missing c d name) :
    lookupAt c d name = .error (-eNotFound) := by
  unfold lookupAt
  rw [missing_iff.mp h]
  dsimp only
  rw [if_pos hlen]

/-- Every directory is as small as a file may be. -/
def SmallDirs (c : ℕ → Byte) (F : Set ℕ) : Prop := ∀ d ∈ F, IsDir c d → dirLen c d ≤ maxLen

lemma walkAt_long (hname : maxnamelen ≤ name.length) :
    walkAt c dir f (name :: rest) = .error (-eBadPath, none) := by
  unfold walkAt
  rw [if_pos hname]

lemma walkAt_regular (hname : name.length < maxnamelen) (hreg : ¬IsDir c f) :
    walkAt c dir f (name :: rest) = .error (-eNotFound, none) := by
  have hne : fileType c f ≠ ftypeDir := hreg
  unfold walkAt
  rw [if_neg (Nat.not_le.mpr hname), if_pos hne]

lemma walkAt_dir (hname : name.length < maxnamelen) (hdir : IsDir c f) :
    walkAt c dir f (name :: rest) = match lookupAt c f name with
      | .error r => .error (r, if r = -eNotFound ∧ rest = [] then some (f, name) else none)
      | .ok g => walkAt c f g rest := by
  have hnot : ¬fileType c f ≠ ftypeDir := not_not.mpr hdir
  conv_lhs => unfold walkAt
  refine (if_neg (Nat.not_le.mpr hname)).trans ((if_neg hnot).trans ?_)
  cases lookupAt c f name with
  | error r => rfl
  | ok g => rfl

lemma walkAt_reaches (h : Reaches c dir f front d g) (rest : List CString) :
    walkAt c dir f (front ++ rest) = walkAt c d g rest := by
  induction h with
  | here dir f => rfl
  | down hname hdir he hrest ih =>
    rw [List.cons_append, walkAt_dir hname hdir, lookupAt_ok.mpr he]
    exact ih

lemma Wf.reaches_mem (h : Wf c F) (hf : f ∈ F) (hnames : ∀ name ∈ front, name ≠ [])
    (hr : Reaches c dir f front d g) : g ∈ F := by
  induction hr with
  | here dir f => exact hf
  | down hname hdir he hrest ih =>
    apply ih
    · exact h.lookupAt_mem hf hdir (hnames _ List.mem_cons_self) (lookupAt_ok.mpr he)
    · exact fun name hmem => hnames name (List.mem_cons_of_mem _ hmem)

/-- There is one resolution only. -/
lemma Wf.eq_of_resolution (h : Wf c F) (hsmall : SmallDirs c F) (hf : f ∈ F)
    (hnames : ∀ name ∈ names, name ≠ []) {r : Except (ℤ × Option (ℕ × CString)) (ℕ × ℕ)}
    (hr : Resolution c dir f names r) : r = walkAt c dir f names := by
  have hmem : ∀ front back, names = front ++ back → ∀ d g, Reaches c dir f front d g → g ∈ F := by
    intro front back heq d g hreach
    apply h.reaches_mem hf ?_ hreach
    intro name hname
    apply hnames
    rw [heq]
    exact List.mem_append_left _ hname
  cases hr with
  | found hreach =>
    have heq := walkAt_reaches hreach []
    rw [List.append_nil] at heq
    rw [heq]
    rfl
  | long heq hreach hname =>
    rw [heq, walkAt_reaches hreach, walkAt_long hname]
  | regular heq hreach hname hreg =>
    rw [heq, walkAt_reaches hreach, walkAt_regular hname hreg]
  | missing heq hreach hname hdir hmissing hback =>
    have hg := hmem _ _ heq _ _ hreach
    rw [heq, walkAt_reaches hreach, walkAt_dir hname hdir,
      lookupAt_missing (hsmall _ hg hdir) hmissing]
    dsimp only
    rw [if_neg (fun hand => hback hand.2)]
  | missingLast heq hreach hname hdir hmissing =>
    have hg := hmem _ _ heq _ _ hreach
    rw [heq, walkAt_reaches hreach, walkAt_dir hname hdir,
      lookupAt_missing (hsmall _ hg hdir) hmissing]
    dsimp only
    rw [if_pos ⟨rfl, rfl⟩]

/-- One name in front of what follows. -/
lemma Resolution.down (hname : name.length < maxnamelen) (hdir : IsDir c f) (he : Named c f name e)
    {r : Except (ℤ × Option (ℕ × CString)) (ℕ × ℕ)} (hr : Resolution c f e rest r) :
    Resolution c dir f (name :: rest) r := by
  cases hr with
  | found h => exact .found (.down hname hdir he h)
  | long heq h hlong => exact .long (by rw [heq, List.cons_append]) (.down hname hdir he h) hlong
  | regular heq h hshort hreg =>
    exact .regular (by rw [heq, List.cons_append]) (.down hname hdir he h) hshort hreg
  | missing heq h hshort hisDir hmissing hback =>
    exact .missing (by rw [heq, List.cons_append]) (.down hname hdir he h) hshort hisDir hmissing hback
  | missingLast heq h hshort hisDir hmissing =>
    exact .missingLast (by rw [heq, List.cons_append]) (.down hname hdir he h) hshort hisDir hmissing

lemma Wf.resolution_walkAt (h : Wf c F) (hsmall : SmallDirs c F) (dir : ℕ) (hf : f ∈ F)
    (hnames : ∀ name ∈ names, name ≠ []) : Resolution c dir f names (walkAt c dir f names) := by
  induction names generalizing dir f with
  | nil =>
    unfold walkAt
    exact .found (.here dir f)
  | cons name rest ih =>
    by_cases hlong : maxnamelen ≤ name.length
    · rw [walkAt_long hlong]
      exact .long rfl (.here dir f) hlong
    have hshort := Nat.not_le.mp hlong
    by_cases hdir : IsDir c f
    · rw [walkAt_dir hshort hdir]
      by_cases hmissing : Missing c f name
      · rw [lookupAt_missing (hsmall f hf hdir) hmissing]
        dsimp only
        by_cases hrest : rest = []
        · rw [if_pos ⟨rfl, hrest⟩, hrest]
          exact .missingLast rfl (.here dir f) hshort hdir hmissing
        · rw [if_neg (fun hand => hrest hand.2)]
          exact .missing rfl (.here dir f) hshort hdir hmissing hrest
      · rw [missing_iff] at hmissing
        obtain ⟨e, he⟩ := Option.ne_none_iff_exists'.mp hmissing
        have hlook := lookupAt_ok.mpr he
        rw [hlook]
        apply Resolution.down hshort hdir he
        apply ih
        · exact h.lookupAt_mem hf hdir (hnames name List.mem_cons_self) hlook
        · exact fun name hmem => hnames name (List.mem_cons_of_mem _ hmem)
    · rw [walkAt_regular hshort hdir]
      exact .regular rfl (.here dir f) hshort hdir

/-- `walk_path` returns what the path means, and changes nothing. -/
theorem walkPath_resolves (h : Wf c F) (hsmall : SmallDirs c F) (path : CString) (hs : s.content = c) :
    Sat (walkPath path) s (fun r t => (∀ r', Resolution c 0 rootAddr (elements path) r' ↔ r' = r) ∧
      t.content = c) NoMem := by
  have hnames : ∀ name ∈ elements path, name ≠ [] := fun _ hmem => ne_nil_of_mem_elements hmem
  refine (h.walkPath_sat path hs).post ?_
  rintro r t ⟨rfl, ht⟩
  rw [components_eq_elements (noSlash_skipSlash path), elements_skipSlash]
  refine ⟨fun r' => ⟨fun hr => ?_, ?_⟩, ht⟩
  · exact h.eq_of_resolution hsmall h.root hnames hr
  · rintro rfl
    exact h.resolution_walkAt hsmall 0 h.root hnames

theorem walkPath_resolves_small :
    Sat (walkPath [slash, ⟨0x62, by decide⟩]) (onDisk smallDisk 8)
      (fun r t => (∀ r', Resolution smallDisk 0 rootAddr (elements [slash, ⟨0x62, by decide⟩]) r' ↔
        r' = r) ∧ t.content = smallDisk) NoMem := by
  apply walkPath_resolves wf_smallDisk
  · intro d hd hdir
    rw [(smallDisk_isDir hd hdir).2]
    decide
  · exact content_onDisk smallDisk 8

end SistemasOperativos.Fs
