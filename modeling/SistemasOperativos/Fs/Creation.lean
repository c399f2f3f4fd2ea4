import SistemasOperativos.Fs.NewEntry
import SistemasOperativos.Fs.Resolve
import SistemasOperativos.Fs.Memory

/-!
# Paths after the creation of a file

Every path leads where it has led, and the path of the new file to it, when the entry that it gets is
blank and the block around it brings no names.
-/

namespace SistemasOperativos.Fs

open Library Kern

/-- A regular file of size 0 without blocks. -/
structure Blank (c : ℕ → Byte) (f : ℕ) : Prop where
  regular : fileType c f = ftypeReg
  size : fileSize c f = 0
  direct : ∀ i < ndirect, ptr c f (.direct i) = 0
  indirect : indirectOf c f = 0

/-- With the content `c`, `file_open` of the path returns `r`. -/
def OpensTo (c : ℕ → Byte) (path : CString) (r : Except ℤ ℕ) : Prop :=
  ∀ s : Fs, s.content = c → Sat (fileOpen path) s (fun r' _ => r' = r) NoMem

/-- What is promised of a `file_create` that returns the file `f`. A path below the new file names
nothing; one that goes on with a name that is too long has got the error for that instead. -/
structure CreateOk (c : ℕ → Byte) (path : CString) (f : ℕ) (c' : ℕ → Byte) : Prop where
  opens : ∀ p, elements p = elements path → OpensTo c' p (.ok f)
  blank : Blank c' f
  again : ∀ p, elements p = elements path → ∀ s : Fs, s.content = c' →
    Sat (fileCreate p) s (fun r _ => r = .error (-eFileExists)) NoMem
  others : ∀ q r, elements q ≠ elements path →
    (elements path <+: elements q → ∀ x ∈ elements q, x.length < maxnamelen) →
    OpensTo c q r → OpensTo c' q r
  below : ∀ q, elements path <+: elements q → elements q ≠ elements path →
    ∃ r, OpensTo c' q (.error r)

/-- A string that can be an element of a path in a directory. -/
structure IsName (x : CString) : Prop where
  nonempty : x ≠ []
  noSlash : slash ∉ x
  short : x.length < maxnamelen

/-- The entry that a new file gets is blank, and those around it in a new block bring no names that
their directory has not got. -/
def Unused (c : ℕ → Byte) (path : CString) : Prop :=
  ∀ r d name, walkAt c 0 rootAddr (components (skipSlash path)) = .error (r, some (d, name)) →
    Blank c (newEntry c d) ∧ ∀ e ∈ strayEntries c d, ∀ x, IsName x → nameIs c e x = true →
      x = name ∨ ¬Missing c d x

/-- What `file_open` makes of a walk. -/
def outcome : Except (ℤ × Option (ℕ × CString)) (ℕ × ℕ) → Except ℤ ℕ
  | .ok (_, f) => .ok f
  | .error (r, _) => .error r

variable {c c' : ℕ → Byte} {F : Set ℕ} {s t : Fs} {d dir e f g i : ℕ} {name path q x : CString}
  {names front rest : List CString}

/-! ### `file_open` -/

lemma fileOpen_sat (h : SuperOk c) (hw : Walkable c rootAddr (elements path)) (hs : s.content = c) :
    Sat (fileOpen path) s (fun r t => r = outcome (walkAt c 0 rootAddr (elements path)) ∧
      t.content = c) NoMem := by
  rw [← elements_skipSlash, ← components_eq_elements (noSlash_skipSlash path)] at hw ⊢
  unfold fileOpen walkPath
  rw [sat_bind]
  refine (walkFrom_sat h 0 hw hs).post ?_
  rintro r t ⟨rfl, ht⟩
  rcases walkAt c 0 rootAddr (components (skipSlash path)) with ⟨r, p⟩ | ⟨d, f⟩
  · exact sat_pure.mpr ⟨rfl, ht⟩
  · exact sat_pure.mpr ⟨rfl, ht⟩

lemma opens_of_walk {p : CString} (h : SuperOk c) (hw : Walkable c rootAddr (elements p)) :
    OpensTo c p (outcome (walkAt c 0 rootAddr (elements p))) := by
  intro s hs
  exact (fileOpen_sat h hw hs).mono (fun _ _ hr => hr.1) (fun _ _ hmem => hmem)

/-- There is only one result. -/
lemma OpensTo.unique {r r' : Except ℤ ℕ} (h : OpensTo c path r) (h' : OpensTo c path r') : r = r' := by
  have hboth := (h (cached c) (content_cached c)).and (h' (cached c) (content_cached c))
  have hmem := fileOpen_needsNone path (cached c) (ample_cached c)
  obtain ⟨a, t, -, ⟨heq, heq'⟩, -⟩ := Sat.exists_ok ((hboth.and hmem).mono (fun _ _ hr => hr)
    (fun e t he => he.2 he.1.1.1))
  exact heq.symm.trans heq'

/-! ### Elements of paths -/

lemma slash_notMem_elements (h : x ∈ elements path) : slash ∉ x := by
  rw [← elements_skipSlash, ← components_eq_elements (noSlash_skipSlash path)] at h
  generalize skipSlash path = p at h
  induction hlen : p.length using Nat.strong_induction_on generalizing p with
  | _ n ih =>
    unfold components at h
    by_cases hnil : p = []
    · rw [dif_pos hnil] at h
      exact absurd h List.not_mem_nil
    · rw [dif_neg hnil] at h
      rcases List.mem_cons.mp h with rfl | h
      · intro hmem
        have hne := List.mem_takeWhile_imp hmem
        simp at hne
      · exact ih _ (hlen ▸ length_nextElem hnil) _ h rfl

/-- The path with these elements. -/
def pathOf : List CString → CString
  | [] => []
  | x :: rest => slash :: (x ++ pathOf rest)

lemma elements_pathOf (h : ∀ x ∈ names, x ≠ [] ∧ slash ∉ x) : elements (pathOf names) = names := by
  induction names with
  | nil => rfl
  | cons x rest ih =>
    obtain ⟨hnil, hslash⟩ := h x List.mem_cons_self
    have hrest := ih (fun y hy => h y (List.mem_cons_of_mem _ hy))
    have hword : ∀ y ∈ x, decide (y ≠ slash) = true := by
      intro y hy
      simp only [decide_eq_true_eq]
      rintro rfl
      exact hslash hy
    have hhead : NoSlash (x ++ pathOf rest) := by
      cases x with
      | nil => exact absurd rfl hnil
      | cons y ys =>
        intro z hz
        obtain rfl : y = z := by simpa using hz
        simpa using hword y List.mem_cons_self
    have htake : (x ++ pathOf rest).takeWhile (· ≠ slash) = x ∧
        (x ++ pathOf rest).dropWhile (· ≠ slash) = pathOf rest := by
      rw [List.takeWhile_append_of_pos hword, List.dropWhile_append_of_pos hword]
      cases rest with
      | nil => simp [pathOf]
      | cons y ys => simp [pathOf]
    unfold pathOf
    rw [elements_slash, elements_cons (by simp [hnil]) hhead, htake.1]
    unfold nextElem
    rw [htake.2, elements_skipSlash, hrest]

/-! ### Walks -/

/-- Where only the last name is missing. -/
lemma walkAt_missing {r : ℤ} (hwalk : walkAt c dir f names = .error (r, some (d, name))) :
    r = -eNotFound ∧ ∃ front dir', names = front ++ [name] ∧ Reaches c dir f front dir' d ∧
      IsDir c d ∧ name.length < maxnamelen ∧ lookupAt c d name = .error (-eNotFound) := by
  induction names generalizing dir f with
  | nil => cases hwalk
  | cons y rest ih =>
    by_cases hlong : maxnamelen ≤ y.length
    · rw [walkAt_long hlong] at hwalk
      cases hwalk
    have hshort := Nat.not_le.mp hlong
    by_cases hdir : IsDir c f
    · rw [walkAt_dir hshort hdir] at hwalk
      cases hlook : lookupAt c f y with
      | ok g =>
        rw [hlook] at hwalk
        obtain ⟨hr, front, dir', hnames, hreach, hrest⟩ := ih hwalk
        refine ⟨hr, y :: front, dir', by rw [hnames, List.cons_append], ?_, hrest⟩
        exact .down hshort hdir (lookupAt_ok.mp hlook) hreach
      | error r' =>
        rw [hlook] at hwalk
        have herr := Except.error.inj hwalk
        by_cases hlast : r' = -eNotFound ∧ rest = []
        · rw [if_pos hlast] at herr
          obtain ⟨hr, hsome⟩ := Prod.mk.inj herr
          obtain ⟨rfl, rfl⟩ := Prod.mk.inj (Option.some.inj hsome)
          rw [hlast.1] at hr hlook
          exact ⟨hr.symm, [], dir, by rw [hlast.2]; rfl, .here dir f, hdir, hshort, hlook⟩
        · rw [if_neg hlast] at herr
          cases (Prod.mk.inj herr).2
    · rw [walkAt_regular hshort hdir] at hwalk
      cases hwalk

lemma missing_of_lookupAt {r : ℤ} (h : lookupAt c d name = .error r) : Missing c d name := by
  rw [missing_iff]
  unfold lookupAt at h
  cases hfind : (entries c d).find? (fun e => nameIs c e name) with
  | none => rfl
  | some e =>
    rw [hfind] at h
    cases h

/-- The last step of a way down. -/
lemma Reaches.snoc (h : Reaches c dir f (front ++ [name]) g e) :
    ∃ dir', Reaches c dir f front dir' g ∧ IsDir c g ∧ Named c g name e := by
  induction front generalizing dir f with
  | nil =>
    cases h with
    | down _ hdir he hrest =>
      cases hrest
      exact ⟨dir, .here dir _, hdir, he⟩
  | cons y front ih =>
    cases h with
    | down hshort hdir he hrest =>
      obtain ⟨dir', hreach, hlast⟩ := ih hrest
      exact ⟨dir', .down hshort hdir he hreach, hlast⟩

lemma nameIs_unique (h : nameIs c e x = true) (h' : nameIs c e name = true) : x = name := by
  induction x generalizing e name with
  | nil =>
    unfold nameIs at h
    cases name with
    | nil => rfl
    | cons y ys =>
      unfold nameIs at h'
      rw [Bool.and_eq_true, decide_eq_true_eq] at h'
      exact absurd (h'.1.symm.trans (of_decide_eq_true h)) y.2
  | cons z zs ih =>
    unfold nameIs at h
    rw [Bool.and_eq_true, decide_eq_true_eq] at h
    cases name with
    | nil =>
      unfold nameIs at h'
      exact absurd (h.1.symm.trans (of_decide_eq_true h')) z.2
    | cons y ys =>
      unfold nameIs at h'
      rw [Bool.and_eq_true, decide_eq_true_eq] at h'
      rw [Subtype.ext (h.1.symm.trans h'.1), ih h.2 h'.2]

lemma named_entry (h : Named c d name e) : Entry c d e ∧ nameIs c e name = true := by
  have hyes := List.find?_some h
  exact ⟨mem_entries.mp (List.mem_of_find?_eq_some h), hyes⟩

/-- Only one way leads from the root to a file. -/
lemma Wf.reaches_unique (h : Wf c F) (hnames : ∀ x ∈ front, x ≠ []) (hnames' : ∀ x ∈ rest, x ≠ [])
    (hr : Reaches c 0 rootAddr front d g) {d' : ℕ} (hr' : Reaches c 0 rootAddr rest d' g) :
    front = rest := by
  have hroot : ∀ {names : List CString} {y : CString} {d : ℕ}, (∀ x ∈ names ++ [y], x ≠ []) →
      ¬Reaches c 0 rootAddr (names ++ [y]) d rootAddr := by
    intro names y d hne hreach
    obtain ⟨dir', hreach', hdir, hnamed⟩ := hreach.snoc
    have hmem := h.reaches_mem h.root (fun x hx => hne x (List.mem_append_left _ hx)) hreach'
    have hle := (h.toTree.entry_block hmem hdir (named_entry hnamed).1).2.2
    unfold rootAddr at hle
    omega
  induction front using List.reverseRecOn generalizing rest d d' g with
  | nil =>
    cases hr
    rcases List.eq_nil_or_concat rest with rfl | ⟨rest, y, rfl⟩
    · rfl
    · rw [List.concat_eq_append] at hnames' hr'
      exact absurd hr' (hroot hnames')
  | append_singleton front x ih =>
    rcases List.eq_nil_or_concat rest with rfl | ⟨rest, y, rfl⟩
    · cases hr'
      exact absurd hr (hroot hnames)
    · rw [List.concat_eq_append] at hnames' hr' ⊢
      have hne : ∀ x ∈ front, x ≠ [] := fun x hx => hnames x (List.mem_append_left _ hx)
      have hne' : ∀ x ∈ rest, x ≠ [] := fun x hx => hnames' x (List.mem_append_left _ hx)
      obtain ⟨dir, hreach, hdir, hnamed⟩ := hr.snoc
      obtain ⟨dir', hreach', hdir', hnamed'⟩ := hr'.snoc
      obtain ⟨hentry, hname⟩ := named_entry hnamed
      obtain ⟨hentry', hname'⟩ := named_entry hnamed'
      have hmem := h.reaches_mem h.root hne hreach
      have hmem' := h.reaches_mem h.root hne' hreach'
      obtain rfl := h.toTree.entry_unique hmem hdir hmem' hdir' hentry hentry'
      rw [ih hne hne' hreach hreach', nameIs_unique hname hname']

/-! ### After a creation -/

namespace Chosen

variable (h : Chosen F c d e c') (hw : Wf c F) (hname : name.length < maxnamelen) (hd : d ∈ F)
  (hdir : IsDir c d)
include h hw hname hd hdir

/-- What is found stays found. -/
lemma named_named (hmissing : Missing c d name) (hf : f ∈ F) (hdir' : IsDir c f)
    (hx : x.length < maxnamelen) (hnil : x ≠ []) (hnamed : Named c f x g) :
    Named (withName c' e name) f x g := by
  rw [← lookupAt_ok] at hnamed ⊢
  by_cases hfd : f = d
  · subst hfd
    have hne : x ≠ name := by
      rintro rfl
      rw [lookupAt_ok] at hnamed
      obtain ⟨hentry, hyes⟩ := named_entry hnamed
      rw [hmissing g hentry] at hyes
      cases hyes
    rw [h.lookup_rest hw hname hd hdir hx hnil hne, hnamed]
  · rw [h.lookup_other hw hname hd hdir hf hdir' hfd hx, hnamed]

lemma reaches_named (hmissing : Missing c d name) (hf : f ∈ F) (hnames : ∀ x ∈ front, x ≠ [])
    (hreach : Reaches c dir f front i g) : Reaches (withName c' e name) dir f front i g := by
  induction hreach with
  | here dir f => exact .here dir f
  | down hx hdir' hnamed hrest ih =>
    have hnil := hnames _ List.mem_cons_self
    have hmem := hw.lookupAt_mem hf hdir' hnil (lookupAt_ok.mpr hnamed)
    refine .down hx ((h.isDir_named hname hf).mpr hdir')
      (h.named_named hw hname hd hdir hmissing hf hdir' hx hnil hnamed) (ih hmem ?_)
    exact fun x hx => hnames x (List.mem_cons_of_mem _ hx)

/-- The path of the new file leads to it. -/
lemma walk_new (hmissing : Missing c d name) (hnames : ∀ x ∈ front, x ≠ [])
    (hreach : Reaches c 0 rootAddr front dir d) (rest : List CString) :
    walkAt (withName c' e name) 0 rootAddr (front ++ name :: rest) =
      walkAt (withName c' e name) d e rest := by
  have hreach' := h.reaches_named hw hname hd hdir hmissing hw.root hnames hreach
  have hdir' := (h.isDir_named hname hd).mpr hdir
  rw [walkAt_reaches hreach', walkAt_dir hname hdir', h.lookup_own hw hname hd hdir hmissing]

/-- The way to the directory, and one name more, can be walked in any case. -/
lemma walkable_reaches (hmissing : Missing c d name) (hf : f ∈ F) (hnames : ∀ x ∈ front, x ≠ [])
    (hreach : Reaches c dir f front i d) : Walkable (withName c' e name) f (front ++ [x]) := by
  induction front generalizing dir f with
  | nil =>
    cases hreach
    exact ⟨(h.blocksAt_named hname hf 0).file, fun _ _ =>
      ⟨h.dirOk_named hw hname hf hdir, fun _ _ => trivial⟩⟩
  | cons y front ih =>
    cases hreach with
    | down hshort hdir' hnamed hrest =>
      have hnil := hnames y List.mem_cons_self
      have hnamed' := h.named_named hw hname hd hdir hmissing hf hdir' hshort hnil hnamed
      refine ⟨(h.blocksAt_named hname hf 0).file, fun _ _ => ⟨h.dirOk_named hw hname hf hdir', ?_⟩⟩
      intro g hg
      rw [lookupAt_ok.mpr hnamed'] at hg
      obtain rfl := Except.ok.inj hg
      exact ih (hw.lookupAt_mem hf hdir' hnil (lookupAt_ok.mpr hnamed))
        (fun x hx => hnames x (List.mem_cons_of_mem _ hx)) hrest

section Blank

variable (hmissing : Missing c d name)
  (hstray : ∀ i ∈ strayEntries c d, ∀ x, IsName x → nameIs c i x = true → x = name ∨ ¬Missing c d x)
include hmissing hstray

lemma lookup_named (hf : f ∈ F) (hdir' : IsDir c f) (hx : IsName x) :
    lookupAt (withName c' e name) f x = if f = d ∧ x = name then .ok e else lookupAt c f x := by
  by_cases hfd : f = d
  · subst hfd
    by_cases heq : x = name
    · rw [if_pos ⟨rfl, heq⟩, heq]
      exact h.lookup_own hw hname hd hdir hmissing
    · rw [if_neg (fun hand => heq hand.2), h.lookup_rest hw hname hd hdir hx.short hx.nonempty heq]
      cases hlook : lookupAt c f x with
      | ok i => rfl
      | error r =>
        have hnone : (strayEntries c f).find? (fun i => nameIs c i x) = none := by
          rw [List.find?_eq_none]
          intro i hi hyes
          rcases hstray i hi x hx hyes with hxn | hnot
          · exact heq hxn
          · exact hnot (missing_of_lookupAt hlook)
        rw [hnone]
  · rw [if_neg (fun hand => hfd hand.1)]
    exact h.lookup_other hw hname hd hdir hf hdir' hfd hx.short

variable (hreg : ¬IsDir (withName c' e name) e)
include hreg

lemma walkable_named (hf : f ∈ F) (hnames : ∀ x ∈ names, x ≠ [] ∧ slash ∉ x) :
    Walkable (withName c' e name) f names := by
  induction names generalizing f with
  | nil => trivial
  | cons y rest ih =>
    obtain ⟨hnil, hslash⟩ := hnames y List.mem_cons_self
    have hrest : ∀ x ∈ rest, x ≠ [] ∧ slash ∉ x := fun x hx => hnames x (List.mem_cons_of_mem _ hx)
    refine ⟨(h.blocksAt_named hname hf 0).file, fun hshort hdir' => ?_⟩
    have hdir' := (h.isDir_named hname hf).mp hdir'
    refine ⟨h.dirOk_named hw hname hf hdir', fun g hg => ?_⟩
    rw [h.lookup_named hw hname hd hdir hmissing hstray hf hdir' ⟨hnil, hslash, hshort⟩] at hg
    by_cases hnew : f = d ∧ y = name
    · rw [if_pos hnew] at hg
      obtain rfl := Except.ok.inj hg
      cases rest with
      | nil => trivial
      | cons z rest => exact ⟨(h.sameSuper hname).fileAt h.fileAt, fun _ hbad => absurd hbad hreg⟩
    · rw [if_neg hnew] at hg
      exact ih (hw.lookupAt_mem hf hdir' hnil hg) hrest

/-- The other paths lead where they have led. -/
lemma outcome_named (hfails : lookupAt c d name = .error (-eNotFound)) (dir : ℕ) (hf : f ∈ F)
    (hnames : ∀ x ∈ names, x ≠ [] ∧ slash ∉ x)
    (helse : ∀ front rest dir', names = front ++ name :: rest → Reaches c dir f front dir' d →
      ∃ y, rest.head? = some y ∧ y.length < maxnamelen) :
    outcome (walkAt (withName c' e name) dir f names) = outcome (walkAt c dir f names) := by
  induction names generalizing dir f with
  | nil => rfl
  | cons y rest ih =>
    obtain ⟨hnil, hslash⟩ := hnames y List.mem_cons_self
    by_cases hlong : maxnamelen ≤ y.length
    · rw [walkAt_long hlong, walkAt_long hlong]
    have hshort := Nat.not_le.mp hlong
    by_cases hdir' : IsDir c f
    · rw [walkAt_dir hshort hdir', walkAt_dir hshort ((h.isDir_named hname hf).mpr hdir'),
        h.lookup_named hw hname hd hdir hmissing hstray hf hdir' ⟨hnil, hslash, hshort⟩]
      by_cases hnew : f = d ∧ y = name
      · obtain ⟨rfl, rfl⟩ := hnew
        obtain ⟨z, hz, hzshort⟩ := helse [] rest dir rfl (.here dir f)
        obtain ⟨back, rfl⟩ := List.head?_eq_some_iff.mp hz
        rw [if_pos ⟨rfl, rfl⟩, hfails]
        exact congrArg outcome (walkAt_regular hzshort hreg)
      · rw [if_neg hnew]
        cases hlook : lookupAt c f y with
        | error r => rfl
        | ok g =>
          apply ih f (hw.lookupAt_mem hf hdir' hnil hlook)
            (fun x hx => hnames x (List.mem_cons_of_mem _ hx))
          rintro front back dir' rfl hreach
          exact helse (y :: front) back dir' rfl (.down hshort hdir' (lookupAt_ok.mp hlook) hreach)
    · rw [walkAt_regular hshort hdir', walkAt_regular hshort (fun hbad => hdir'
        ((h.isDir_named hname hf).mp hbad))]

end Blank

end Chosen

/-! ### `file_create` -/

/-- A `file_create` that returns a file has chosen an entry for it. -/
lemma Wf.created (h : Wf c F) (hs : s.content = c) (hrun : fileCreate path s = .ok (.ok f) t) :
    ∃ front dir d name c', elements path = front ++ [name] ∧ Reaches c 0 rootAddr front dir d ∧
      walkAt c 0 rootAddr (components (skipSlash path)) = .error (-eNotFound, some (d, name)) ∧
      d ∈ F ∧ IsDir c d ∧ name.length < maxnamelen ∧ lookupAt c d name = .error (-eNotFound) ∧
      Chosen F c d f c' ∧ t.content = withName c' f name := by
  have hcreates := (h.fileCreate_sat path hs).of_ok hrun
  generalize hct : t.content = c'' at hcreates
  cases hcreates with
  | created hwalk halloc =>
    obtain ⟨rfl, front, dir, hnames, hreach, hdir, hshort, hlook⟩ := walkAt_missing hwalk
    have hne := ne_nil_of_mem_components (noSlash_skipSlash path)
    have hd := h.reaches_mem h.root
      (fun x hx => hne x (by rw [hnames]; exact List.mem_append_left _ hx)) hreach
    rw [components_eq_elements (noSlash_skipSlash path), elements_skipSlash] at hnames
    exact ⟨front, dir, _, _, _, hnames, hreach, hwalk, hd, hdir, hshort, hlook,
      h.chosen hd hdir halloc, rfl⟩

lemma Chosen.blank_iff (h : Chosen F c d e c') (hname : name.length < maxnamelen) :
    Blank (withName c' e name) e ↔ Blank c e := by
  have htype : fileType (withName c' e name) e = fileType c e :=
    h.field_named hname (k := 132) (by decide) (by decide)
  have hsize : fileSize (withName c' e name) e = fileSize c e :=
    h.field_named hname (k := 128) (by decide) (by decide)
  have hind : indirectOf (withName c' e name) e = indirectOf c e := by
    unfold indirectOf fIndirect
    rw [h.field_named hname (k := 176) (by decide) (by decide)]
  have hdirect : ∀ i < ndirect, ptr (withName c' e name) e (.direct i) = ptr c e (.direct i) := by
    intro i hi
    unfold ndirect at hi
    unfold ptr
    rw [slotAddr_direct, slotAddr_direct, Nat.add_assoc, h.field_named hname (by omega) (by omega)]
  constructor
  · rintro ⟨h₁, h₂, h₃, h₄⟩
    exact ⟨htype ▸ h₁, hsize ▸ h₂, fun i hi => (hdirect i hi) ▸ h₃ i hi, hind ▸ h₄⟩
  · rintro ⟨h₁, h₂, h₃, h₄⟩
    exact ⟨htype.trans h₁, hsize.trans h₂, fun i hi => (hdirect i hi).trans (h₃ i hi), hind.trans h₄⟩

lemma mem_elements {p : CString} (h : x ∈ elements p) : x ≠ [] ∧ slash ∉ x :=
  ⟨ne_nil_of_mem_elements h, slash_notMem_elements h⟩

lemma ftypeReg_ne_ftypeDir : ftypeReg ≠ ftypeDir := by decide

/-- A blank entry makes a new file as promised. -/
lemma Wf.createOk_of_unused (h : Wf c F) (hs : s.content = c)
    (hrun : fileCreate path s = .ok (.ok f) t) (hunused : Unused c path) :
    CreateOk c path f t.content := by
  obtain ⟨front, dir, d, name, c', hnames, hreach, hwalk, hd, hdir, hname, hlook, hc, ht⟩ :=
    h.created hs hrun
  obtain ⟨hblank, hstray⟩ := hunused _ d name hwalk
  rw [← hc.new, ← hc.blank_iff hname] at hblank
  have hmissing := missing_of_lookupAt hlook
  have hsuper := (hc.sameSuper hname).superOk hc.tree.super
  have hreg : ¬IsDir (withName c' f name) f :=
    fun hbad => ftypeReg_ne_ftypeDir (hblank.regular.symm.trans hbad)
  have hfront : ∀ x ∈ front, x ≠ [] := by
    intro x hx
    exact (mem_elements (p := path) (by rw [hnames]; exact List.mem_append_left _ hx)).1
  have hwalkable : ∀ p : CString, Walkable (withName c' f name) rootAddr (elements p) := fun p =>
    hc.walkable_named h hname hd hdir hmissing hstray hreg h.root (fun _ hx => mem_elements hx)
  have hnew : ∀ rest, walkAt (withName c' f name) 0 rootAddr (front ++ name :: rest) =
      walkAt (withName c' f name) d f rest :=
    hc.walk_new h hname hd hdir hmissing hfront hreach
  rw [ht]
  constructor
  · intro p hp
    have hopen := opens_of_walk hsuper (hwalkable p)
    rw [hp, hnames, hnew []] at hopen
    exact hopen
  · exact hblank
  · intro p hp u hu
    have hcomponents : Walkable (withName c' f name) rootAddr (components (skipSlash p)) := by
      rw [components_eq_elements (noSlash_skipSlash p), elements_skipSlash]
      exact hwalkable p
    have hsat := walkFrom_sat hsuper 0 hcomponents hu
    rw [components_eq_elements (noSlash_skipSlash p), elements_skipSlash, hp, hnames, hnew []] at hsat
    unfold fileCreate walkPath
    rw [sat_bind]
    refine hsat.post ?_
    rintro r v ⟨rfl, -⟩
    exact sat_pure.mpr rfl
  · intro q r hne hshort hopen
    have hopen' := opens_of_walk hsuper (hwalkable q)
    rw [hc.outcome_named h hname hd hdir hmissing hstray hreg hlook 0 h.root
      (fun _ hx => mem_elements hx)] at hopen'
    · have hold := opens_of_walk h.super (h.walkable h.root (fun _ hx => (mem_elements (p := q) hx).1))
      rw [hopen.unique hold]
      exact hopen'
    · intro front' rest dir' hq hreach'
      have hfront' : ∀ x ∈ front', x ≠ [] := by
        intro x hx
        exact (mem_elements (p := q) (by rw [hq]; exact List.mem_append_left _ hx)).1
      obtain rfl := h.reaches_unique hfront hfront' hreach hreach'
      cases rest with
      | nil => exact absurd (hq.trans hnames.symm) hne
      | cons y rest =>
        refine ⟨y, rfl, hshort ⟨y :: rest, ?_⟩ y ?_⟩
        · rw [hq, hnames, List.append_assoc]
          rfl
        · rw [hq]
          simp
  · rintro q ⟨rest, hrest⟩ hne
    have hopen := opens_of_walk hsuper (hwalkable q)
    rw [← hrest, hnames, List.append_assoc, List.singleton_append, hnew rest] at hopen
    cases rest with
    | nil => exact absurd (hrest.symm.trans (List.append_nil _)) hne
    | cons y rest =>
      by_cases hlong : maxnamelen ≤ y.length
      · rw [walkAt_long hlong] at hopen
        exact ⟨_, hopen⟩
      · rw [walkAt_regular (Nat.not_le.mp hlong) hreg] at hopen
        exact ⟨_, hopen⟩

/-- What is promised of a new file needs a blank entry. -/
lemma Wf.unused_of_createOk (h : Wf c F) (hs : s.content = c)
    (hrun : fileCreate path s = .ok (.ok f) t) (hok : CreateOk c path f t.content) :
    Unused c path := by
  obtain ⟨front, dir, d, name, c', hnames, hreach, hwalk, hd, hdir, hname, hlook, hc, ht⟩ :=
    h.created hs hrun
  rw [ht] at hok
  rintro r d' name' hwalk'
  have herr := Except.error.inj (hwalk.symm.trans hwalk')
  obtain ⟨rfl, rfl⟩ := Prod.mk.inj (Option.some.inj (Prod.mk.inj herr).2)
  have hmissing := missing_of_lookupAt hlook
  have hsuper := (hc.sameSuper hname).superOk hc.tree.super
  have hfront : ∀ x ∈ front, x ≠ [] ∧ slash ∉ x := by
    intro x hx
    exact mem_elements (p := path) (by rw [hnames]; exact List.mem_append_left _ hx)
  refine ⟨hc.new ▸ (hc.blank_iff hname).mp hok.blank, ?_⟩
  intro i hi x hx hyes
  by_contra hno
  obtain ⟨hne, hmiss⟩ := not_or.mp hno
  have hmiss := not_not.mp hmiss
  have hlen : dirLen c d ≤ maxLen := by
    by_contra hlarge
    unfold lookupAt at hlook
    rw [missing_iff.mp hmissing] at hlook
    dsimp only at hlook
    rw [if_neg hlarge] at hlook
    exact absurd (Except.error.inj hlook) (by decide)
  -- the path of the stray name
  have hq : elements (pathOf (front ++ [x])) = front ++ [x] := by
    apply elements_pathOf
    intro y hy
    rcases List.mem_append.mp hy with hy | hy
    · exact hfront y hy
    · rw [List.mem_singleton.mp hy]
      exact ⟨hx.nonempty, hx.noSlash⟩
  have hbefore : OpensTo c (pathOf (front ++ [x])) (.error (-eNotFound)) := by
    have hopen := opens_of_walk (p := pathOf (front ++ [x])) h.super
      (h.walkable h.root (fun _ hy => (mem_elements hy).1))
    rw [hq, walkAt_reaches hreach, walkAt_dir hx.short hdir, lookupAt_missing hlen hmiss] at hopen
    exact hopen
  obtain ⟨j, hj⟩ : ∃ j, (strayEntries c d).find? (fun i => nameIs c i x) = some j := by
    rw [← Option.isSome_iff_exists, List.find?_isSome]
    exact ⟨i, hi, hyes⟩
  have hafter : OpensTo (withName c' f name) (pathOf (front ++ [x])) (.ok j) := by
    have hopen := opens_of_walk (p := pathOf (front ++ [x])) hsuper (by
      rw [hq]
      exact hc.walkable_reaches h hname hd hdir hmissing h.root (fun y hy => (hfront y hy).1) hreach)
    rw [hq, walkAt_reaches (hc.reaches_named h hname hd hdir hmissing h.root
      (fun y hy => (hfront y hy).1) hreach), walkAt_dir hx.short ((hc.isDir_named hname hd).mpr hdir),
      hc.lookup_rest h hname hd hdir hx.short hx.nonempty hne, lookupAt_missing hlen hmiss] at hopen
    dsimp only at hopen
    rw [hj] at hopen
    exact hopen
  have hsame := hok.others _ _ (by
      rw [hq, hnames]
      intro heq
      have hlast := List.append_cancel_left heq
      exact hne (List.singleton_inj.mp hlast)) (by
      intro hpre
      rw [hq, hnames, List.prefix_append_right_inj] at hpre
      have hlast := List.singleton_inj.mp (hpre.eq_of_length rfl)
      exact absurd hlast.symm hne) hbefore
  cases hsame.unique hafter

/-- `file_create` keeps its promise exactly where the entry that it takes is blank, and a new block of
the directory brings no names. -/
theorem createOk_iff (h : Wf c F) (hs : s.content = c) (hrun : fileCreate path s = .ok (.ok f) t) :
    CreateOk c path f t.content ↔ Unused c path :=
  ⟨h.unused_of_createOk hs hrun, h.createOk_of_unused hs hrun⟩

/-- The path `b`. -/
def bPath : CString := [⟨0x62, by decide⟩]

theorem createOk_small :
    CreateOk smallDisk bPath 12544 (after (fileCreate bPath) (onDisk smallDisk 20)).content ↔
      Unused smallDisk bPath :=
  createOk_iff wf_smallDisk (content_onDisk smallDisk 20) (eq_ok_of_resultOf (by decide +kernel))

/-- A disk of eight blocks with an empty root. The free block 3 still has two words of what was in
it. -/
def staleDisk : ℕ → Byte :=
  [(4100, 8), (bitmapAddr, 0xf8), (fType rootAddr, ftypeDir), (12416, 77), (12424, 1)].foldl
    (fun c w => putWord c w.1 w.2) (fun _ => 0)

lemma staleDisk_slot {p : Slot} (hp : p.Valid staleDisk rootAddr) : ptr staleDisk rootAddr p = 0 := by
  have hind : indirectOf staleDisk rootAddr = 0 := by decide +kernel
  cases p with
  | direct i =>
    have hdirect : ∀ i < ndirect, ptr staleDisk rootAddr (.direct i) = 0 := by decide +kernel
    exact hdirect i hp
  | indirect => exact hind
  | entry i => exact absurd hind hp.2

lemma wf_staleDisk : Wf staleDisk {rootAddr} := by
  have hlen : dirLen staleDisk rootAddr = 0 := by decide +kernel
  constructor
  · constructor
    · constructor
      · decide +kernel
      · decide +kernel
      · decide +kernel
    · exact rfl
    · unfold IsDir
      decide +kernel
    · exact fun f hf => .inl hf
    · rintro d rfl _ e ⟨n, hn, -⟩
      rw [hlen] at hn
      exact absurd hn (Nat.not_lt_zero n)
    · rintro f rfl
      exact ⟨0, by decide, by decide +kernel⟩
    · rintro f rfl p hp hpos
      exact absurd (staleDisk_slot hp) hpos
    · rintro f rfl g rfl p q hp _ hpos
      exact absurd (staleDisk_slot hp) hpos
    · rintro d rfl _ hlt
      rw [hlen] at hlt
      exact absurd hlt (Nat.not_lt_zero _)
    · rintro d rfl _ n hn
      rw [hlen] at hn
      exact absurd hn (Nat.not_lt_zero n)
  · rintro d rfl _
    decide +kernel
  · rintro d rfl _
    rw [hlen]
    exact Nat.zero_le _

/-- The block that the root gets is not cleared: the new file has a size of 77. -/
theorem createOk_fails : Wf staleDisk {rootAddr} ∧
    resultOf (fileCreate bPath) (onDisk staleDisk 20) = some (.ok 12288) ∧
    ¬CreateOk staleDisk bPath 12288 (after (fileCreate bPath) (onDisk staleDisk 20)).content := by
  refine ⟨wf_staleDisk, by decide +kernel, fun hok => ?_⟩
  have hsize : fileSize (after (fileCreate bPath) (onDisk staleDisk 20)).content 12288 ≠ 0 := by
    decide +kernel
  exact hsize hok.blank.size

end SistemasOperativos.Fs
