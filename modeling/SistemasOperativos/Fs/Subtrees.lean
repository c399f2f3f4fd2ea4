import SistemasOperativos.Fs.FileRuns

/-!
# A directory as a file

A directory can be read and written as any file. What is below it is left out then: the rest of the disk
is a tree in which the directory has no entries.
-/

namespace SistemasOperativos.Fs

open Library Kern

/-- `n` steps lead from the root to `f`. -/
inductive AtDepth (c : ℕ → Byte) (F : Set ℕ) (len : ℕ → ℕ) : ℕ → ℕ → Prop
  | root : AtDepth c F len 0 rootAddr
  | entry {n d e : ℕ} (h : AtDepth c F len n d) (hd : d ∈ F) (hdir : IsDir c d)
      (he : EntryOf c (len d) d e) : AtDepth c F len (n + 1) e

/-- One step or more lead from `f` to a place. -/
inductive Below (c : ℕ → Byte) (F : Set ℕ) (len : ℕ → ℕ) (f : ℕ) : ℕ → Prop
  | entry {e : ℕ} (hdir : IsDir c f) (he : EntryOf c (len f) f e) : Below c F len f e
  | deeper {d e : ℕ} (h : Below c F len f d) (hd : d ∈ F) (hdir : IsDir c d)
      (he : EntryOf c (len d) d e) : Below c F len f e

/-- The files that are not below `f`. -/
def notBelow (c : ℕ → Byte) (F : Set ℕ) (len : ℕ → ℕ) (f : ℕ) : Set ℕ := {g ∈ F | ¬Below c F len f g}

variable {c : ℕ → Byte} {F : Set ℕ} {len : ℕ → ℕ} {d e f g m n dir : ℕ} {names : List CString}

lemma Tree.entry_ne_root (h : Tree c F len) (hd : d ∈ F) (hdir : IsDir c d)
    (he : EntryOf c (len d) d e) : e ≠ rootAddr := by
  rintro rfl
  have hle := (h.entry_block hd hdir he).2.2
  unfold rootAddr at hle
  omega

lemma Tree.below_ne_root (h : Tree c F len) (hf : f ∈ F) (hg : Below c F len f g) : g ≠ rootAddr := by
  cases hg with
  | entry hdir he => exact h.entry_ne_root hf hdir he
  | deeper _ hd hdir he => exact h.entry_ne_root hd hdir he

/-! ### Depths -/

/-- A file has one depth, since it is an entry of one directory. -/
lemma Tree.depth_unique (h : Tree c F len) (hn : AtDepth c F len n f) (hm : AtDepth c F len m f) :
    n = m := by
  induction hn generalizing m with
  | root =>
    generalize hroot : rootAddr = r at hm
    cases hm with
    | root => rfl
    | entry _ hd hdir he => exact absurd hroot.symm (h.entry_ne_root hd hdir he)
  | @entry n d e hdepth hd hdir he ih =>
    cases hm with
    | root => exact absurd rfl (h.entry_ne_root hd hdir he)
    | entry hdepth' hd' hdir' he' =>
      obtain rfl := h.entry_unique hd hdir hd' hdir' he he'
      rw [ih hdepth']

lemma Below.depth (hg : Below c F len f g) (hf : f ∈ F) (hn : AtDepth c F len n f) :
    ∃ m, n < m ∧ AtDepth c F len m g := by
  induction hg with
  | entry hdir he => exact ⟨n + 1, Nat.lt_succ_self n, .entry hn hf hdir he⟩
  | deeper _ hd hdir he ih =>
    obtain ⟨m, hlt, hm⟩ := ih
    exact ⟨m + 1, Nat.lt_succ_of_lt hlt, .entry hm hd hdir he⟩

/-- No file that the root leads to is below itself. -/
lemma Tree.not_below_self (h : Tree c F len) (hf : f ∈ F) (hn : AtDepth c F len n f) :
    ¬Below c F len f f := by
  intro hself
  obtain ⟨m, hlt, hm⟩ := hself.depth hf hn
  exact absurd (h.depth_unique hn hm) (Nat.ne_of_lt hlt)

lemma Wf.reaches_depth (h : Wf c F) (hr : Reaches c dir f names d g) (hf : f ∈ F)
    (hnames : ∀ name ∈ names, name ≠ []) (hn : AtDepth c F (dirLen c) n f) :
    ∃ m, AtDepth c F (dirLen c) m g := by
  induction hr generalizing n with
  | here => exact ⟨n, hn⟩
  | @down dir f e d g name rest hname hdir he hrest ih =>
    have hmem : e ∈ F :=
      h.lookupAt_mem hf hdir (hnames name List.mem_cons_self) (lookupAt_ok.mpr he)
    exact ih hmem (fun x hx => hnames x (List.mem_cons_of_mem _ hx))
      (.entry hn hf hdir (named_entry he).1)

/-! ### The rest of the disk -/

/-- Without what is below it, a directory has no entries, and the rest is a tree. -/
lemma Tree.notBelow (h : Tree c F len) (hf : f ∈ F) :
    Tree c (Fs.notBelow c F len f) (Function.update len f 0) := by
  have hlen : ∀ d e, EntryOf c (Function.update len f 0 d) d e → d ≠ f ∧ EntryOf c (len d) d e := by
    intro d e he
    by_cases hdf : d = f
    · subst hdf
      rw [Function.update_self] at he
      obtain ⟨n, hn, -⟩ := he
      exact absurd hn (Nat.not_lt_zero n)
    · rw [Function.update_of_ne hdf] at he
      exact ⟨hdf, he⟩
  constructor
  · exact h.super
  · exact ⟨h.root, fun hbelow => h.below_ne_root hf hbelow rfl⟩
  · exact h.rootDir
  · rintro g ⟨hg, hnot⟩
    refine (h.home g hg).imp id ?_
    rintro ⟨d, hd, hdir, he⟩
    have hdf : d ≠ f := by
      rintro rfl
      exact hnot (.entry hdir he)
    refine ⟨d, ⟨hd, fun hbelow => hnot (.deeper hbelow hd hdir he)⟩, hdir, ?_⟩
    rw [Function.update_of_ne hdf]
    exact he
  · rintro d ⟨hd, hnot⟩ hdir e he hname
    obtain ⟨hdf, he⟩ := hlen d e he
    refine ⟨h.named d hd hdir e he hname, fun hbelow => ?_⟩
    cases hbelow with
    | entry hdir' he' => exact hdf (h.entry_unique hd hdir hf hdir' he he')
    | deeper hbelow hd' hdir' he' =>
      obtain rfl := h.entry_unique hd hdir hd' hdir' he he'
      exact hnot hbelow
  · exact fun g hg => h.terminated g hg.1
  · exact fun g hg => h.slots g hg.1
  · exact fun g hg g' hg' => h.inj g hg.1 g' hg'.1
  · intro d hd hdir hlt
    by_cases hdf : d = f
    · subst hdf
      rw [Function.update_self] at hlt
      exact absurd hlt (Nat.not_lt_zero ndirect)
    · rw [Function.update_of_ne hdf] at hlt
      exact h.indirect d hd.1 hdir hlt
  · intro d hd hdir n hn hmax
    by_cases hdf : d = f
    · subst hdf
      rw [Function.update_self] at hn
      exact absurd hn (Nat.not_lt_zero n)
    · rw [Function.update_of_ne hdf] at hn
      exact h.present d hd.1 hdir n hn hmax

/-- Every file is a file without entries of some tree, when a path leads to it or it is no directory. -/
lemma Wf.tree_without (h : Wf c F) (hf : f ∈ F) (hreach : IsDir c f → Reachable c f) :
    ∃ F' len, Tree c F' len ∧ f ∈ F' ∧ NoEntries c len f := by
  by_cases hdir : IsDir c f
  · obtain ⟨path, d, hpath⟩ := hreach hdir
    obtain ⟨n, hn⟩ := h.reaches_depth hpath h.root (fun _ hx => ne_nil_of_mem_elements hx) .root
    refine ⟨_, _, h.toTree.notBelow hf, ⟨hf, h.toTree.not_below_self hf hn⟩, ?_⟩
    exact fun _ => Function.update_self f 0 (dirLen c)
  · exact ⟨F, dirLen c, h.toTree, hf, noEntries_of_reg hdir⟩

end SistemasOperativos.Fs
