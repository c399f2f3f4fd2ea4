import SistemasOperativos.Fs.FileRuns
import SistemasOperativos.Fs.Serve

/-!
# What the directories list

The names in a directory, with the files they stand for: a file that is opened leaves the listings
alone, but for the one new name of a file that is created.
-/

namespace SistemasOperativos.Fs

open Library Kern

/-- The names in a directory with their entries. -/
def listing (c : ℕ → Byte) (d : ℕ) : Set (CString × ℕ) :=
  {x | Entry c d x.2 ∧ x.1 ≠ [] ∧ nameIs c x.2 x.1 = true}

/-- What a call on files leaves of the files `F` and the listings, with the new sizes in `K`. -/
inductive Listed (K : Set Word) (F : Set ℕ) (s : Fs) (path : CString) (c' : ℕ → Byte) : Set ℕ → Prop
  | same (hw : Wf c' F) (hdirs : ∀ d ∈ F, IsDir s.content d → IsDir c' d ∧ listing c' d = listing s.content d)
      (hgrown : ∀ f ∈ F, fileSize c' f = fileSize s.content f ∨ fileSize c' f ∈ K) :
      Listed K F s path c' F
  | created {d e : ℕ} {name : CString} {t : Fs} (hrun : fileCreate path s = .ok (.ok e) t)
      (hw : Wf c' (F ∪ {e})) (hreg : ¬IsDir c' e) (hd : d ∈ F) (hdir : IsDir s.content d)
      (hnew : ∀ i, (name, i) ∉ listing s.content d)
      (hself : IsDir c' d ∧ listing c' d = insert (name, e) (listing s.content d))
      (hdirs : ∀ g ∈ F, IsDir s.content g → g ≠ d → IsDir c' g ∧ listing c' g = listing s.content g)
      (hgrown : ∀ f ∈ F, fileSize c' f = fileSize s.content f ∨ fileSize c' f ∈ K)
      (hsize : fileSize c' e ∈ K) : Listed K F s path c' (F ∪ {e})

/-- A `file_create` finds an empty regular file in the entry that it takes, and no names in the
entries that come with it. -/
def NameSound (c : ℕ → Byte) (path : CString) : Prop :=
  CreateSound c path ∧ ∀ r d name,
    walkAt c 0 rootAddr (components (skipSlash path)) = .error (r, some (d, name)) →
      ¬IsDir c (newEntry c d) ∧ ∀ e ∈ strayEntries c d, c e = 0

/-- The sizes that a `file_create` brings are in `K`: that of the entry, and that of a directory that gets
one more block. -/
def SizeSound (K : Set Word) (c : ℕ → Byte) (path : CString) : Prop :=
  ∀ r d name, walkAt c 0 rootAddr (components (skipSlash path)) = .error (r, some (d, name)) →
    fileSize c (newEntry c d) ∈ K ∧ (freeEntry c d = none → fileSize c d + 4096 ∈ K)

/-- The condition on an open: a file that is created is sound, and no directory is truncated. -/
def OpenSound (c : ℕ → Byte) (path : CString) (omode : Word) : Prop :=
  (omode &&& oCreat ≠ 0 → NameSound c path) ∧
    (omode &&& oTrunc ≠ 0 → ∀ d f,
      walkAt c 0 rootAddr (components (skipSlash path)) = .ok (d, f) → ¬IsDir c f)

variable {c c' : ℕ → Byte} {K : Set Word} {F F' : Set ℕ} {s t : Fs} {a d e f g n : ℕ} {name path x : CString}
  {omode : Word}

/-! ### Names -/

lemma nameIs_ne_zero (h : nameIs c a x = true) {i : ℕ} (hi : i < x.length) : c (a + i) ≠ 0 := by
  induction x generalizing a i with
  | nil => exact absurd hi (Nat.not_lt_zero i)
  | cons y ys ih =>
    unfold nameIs at h
    rw [Bool.and_eq_true, decide_eq_true_eq] at h
    cases i with
    | zero =>
      rw [Nat.add_zero, h.1]
      exact y.2
    | succ i =>
      have hne := ih h.2 (i := i) (Nat.lt_of_succ_lt_succ hi)
      rw [Nat.add_right_comm] at hne
      exact hne

/-- An entry with a name that is not empty is a file, and its name ends in time. -/
lemma Wf.named_length (h : Wf c F) (hd : d ∈ F) (hdir : IsDir c d) (he : Entry c d e) (hx : x ≠ [])
    (hname : nameIs c e x = true) : c e ≠ 0 ∧ x.length < maxnamelen := by
  have hne : c e ≠ 0 := nameIs_ne_zero hname (i := 0) (List.length_pos_iff.mpr hx)
  obtain ⟨i, hi, hzero⟩ := h.terminated e (h.named d hd hdir e he hne)
  refine ⟨hne, Nat.lt_of_le_of_lt ?_ hi⟩
  by_contra hlt
  exact nameIs_ne_zero hname (Nat.not_le.mp hlt) hzero

/-- Listings are compared by the entries and the names that are short enough. -/
lemma listing_congr (h : Wf c F) (h' : Wf c' F') (hd : d ∈ F) (hdir : IsDir c d) (hd' : d ∈ F')
    (hdir' : IsDir c' d) (hentry : ∀ i, Entry c' d i ↔ Entry c d i)
    (hnames : ∀ i, Entry c d i → ∀ y : CString, y ≠ [] → y.length < maxnamelen →
      nameIs c' i y = nameIs c i y) : listing c' d = listing c d := by
  ext ⟨y, i⟩
  constructor
  · rintro ⟨he, hy, hname⟩
    have hshort := (h'.named_length hd' hdir' he hy hname).2
    have he := (hentry i).mp he
    exact ⟨he, hy, (hnames i he y hy hshort).symm.trans hname⟩
  · rintro ⟨he, hy, hname⟩
    have hshort := (h.named_length hd hdir he hy hname).2
    exact ⟨(hentry i).mpr he, hy, (hnames i he y hy hshort).trans hname⟩

lemma Quiet.listing_eq (hq : Quiet K F c c') (h : Wf c F) (hd : d ∈ F) (hdir : IsDir c d) :
    listing c' d = listing c d := by
  refine listing_congr h hq.wf hd hdir hd ((hq.kept.isDir hd).mpr hdir) (fun i => ?_) ?_
  · unfold Entry
    rw [hq.dirLen_eq hd hdir]
    exact hq.kept.entryOf hd hdir
  · intro i hi y _ hshort
    exact hq.kept.nameIs (.inr ⟨d, hd, hdir, hi⟩) hshort

/-! ### Creation -/

lemma Wf.listing_lengthened (h : Wf c F) (hd : d ∈ F) (hlen : dirLen c d = maxLen) (hdir : IsDir c d)
    (hg : g ∈ F) (hdir' : IsDir c g) : listing (lengthened c d) g = listing c g := by
  have hr : Resized F (dirLen c) d (fileSize c d + 4096) c (lengthened c d) :=
    h.toTree.resized hd (fileSize c d + 4096)
  have hisDir := (hr.kept.isDir hg).mpr hdir'
  refine listing_congr h (h.wf_lengthened hd hlen hdir) hg hdir' hg hisDir (fun i => ?_) ?_
  · exact (h.entryOf_lengthened hd hlen hdir hg).trans (hr.kept.entryOf hg hdir')
  · intro i hi y _ hshort
    exact hr.kept.nameIs (.inr ⟨g, hg, hdir', hi⟩) hshort

namespace Chosen

variable (h : Chosen F c d e c') (hw : Wf c F) (hname : name.length < maxnamelen) (hd : d ∈ F)
  (hdir : IsDir c d)
include h hname hd hdir

/-- An entry with a name keeps it. -/
lemma nameIs_old (hg : g ∈ F) (hdir' : IsDir c g) (hi : Entry c g n) (hne : c n ≠ 0)
    (hx : x.length < maxnamelen) : n ≠ e ∧ nameIs (withName c' e name) n x = nameIs c n x := by
  have hother : n ≠ e := by
    rintro rfl
    rcases h.entry_ne hd hdir hg hdir' hi with hself | ⟨-, hfree⟩
    · exact hself rfl
    · exact hne (freeEntry_entry hfree).2
  exact ⟨hother, h.nameIs_named hname (.inr ⟨g, hg, hdir', hi⟩) hother hx⟩

include hw

/-- An entry without a name gets none, unless it is taken. -/
lemma unnamed (hstray : ∀ i ∈ strayEntries c d, c i = 0) (hg : g ∈ F) (hdir' : IsDir c g)
    (hi : Entry (withName c' e name) g n) (hne : n ≠ e) (hzero : c n = 0 ∨ ¬Entry c g n) :
    withName c' e name n = 0 := by
  rcases (h.entry_named hw hname hd hdir hg hdir').mp hi with hold | ⟨-, rfl | hmem⟩
  · have hbyte := h.names n (h.kept.place.mpr (.inr ⟨g, hg, hdir', hold⟩)) hne 0 (by decide)
    have hbyte' := h.kept.names n (.inr ⟨g, hg, hdir', hold⟩) 0 (by decide)
    rw [Nat.add_zero] at hbyte hbyte'
    rw [withName_of_not hname hbyte, hbyte']
    exact hzero.resolve_right (not_not.mpr hold)
  · exact absurd rfl hne
  · have hbyte := h.same_stray hname hmem (n := 0) (by decide)
    rw [Nat.add_zero] at hbyte
    rw [hbyte, hstray n hmem]

/-- The listings with the new name. -/
lemma mem_listing (hstray : ∀ i ∈ strayEntries c d, c i = 0) (hnil : name ≠ [])
    (hw' : Wf (withName c' e name) F') (hg : g ∈ F) (hg' : g ∈ F') (hdir' : IsDir c g) :
    (x, n) ∈ listing (withName c' e name) g ↔
      (x, n) ∈ listing c g ∨ (g = d ∧ x = name ∧ n = e) := by
  have hdir'' := (h.isDir_named hname hg).mpr hdir'
  constructor
  · rintro ⟨he, hx, hyes⟩
    have he : Entry (withName c' e name) g n := he
    have hyes : nameIs (withName c' e name) n x = true := hyes
    obtain ⟨hpos, hshort⟩ := hw'.named_length hg' hdir'' he hx hyes
    by_cases hne : n = e
    · subst hne
      rw [nameIs_withName, decide_eq_true_eq] at hyes
      rcases (h.entry_named hw hname hd hdir hg hdir').mp he with hold | ⟨hgd, -⟩
      · rcases h.entry_ne hd hdir hg hdir' hold with hself | ⟨hgd, -⟩
        · exact absurd rfl hself
        · exact .inr ⟨hgd, hyes, rfl⟩
      · exact .inr ⟨hgd, hyes, rfl⟩
    · have hold : Entry c g n := by
        by_contra hno
        exact hpos (h.unnamed hw hname hd hdir hstray hg hdir' he hne (.inr hno))
      have hnamed : c n ≠ 0 := by
        intro hzero
        exact hpos (h.unnamed hw hname hd hdir hstray hg hdir' he hne (.inl hzero))
      have hsame := (h.nameIs_old hname hd hdir hg hdir' hold hnamed hshort).2
      exact .inl ⟨hold, hx, hsame.symm.trans hyes⟩
  · rintro (⟨he, hx, hyes⟩ | ⟨rfl, rfl, rfl⟩)
    · obtain ⟨hne, hshort⟩ := hw.named_length hg hdir' he hx hyes
      have hsame := (h.nameIs_old hname hd hdir hg hdir' he hne hshort).2
      exact ⟨(h.entry_named hw hname hd hdir hg hdir').mpr (.inl he), hx, hsame.trans hyes⟩
    · refine ⟨(h.entry_named hw hname hd hdir hg hdir').mpr (.inr ⟨rfl, .inl rfl⟩), hnil, ?_⟩
      rw [nameIs_withName]
      exact decide_eq_true rfl

end Chosen

/-! ### Opening -/

/-- A quiet step after it. -/
lemma Listed.quiet (hl : Listed K F s path c F') (hq : Quiet K F' c c') : Listed K F s path c' F' := by
  cases hl with
  | same hw hdirs hgrown =>
    refine .same hq.wf (fun d hd hdir => ?_) (fun f hf => hq.grown_of hf (hgrown f hf))
    obtain ⟨hdir', heq⟩ := hdirs d hd hdir
    exact ⟨(hq.kept.isDir hd).mpr hdir', (hq.listing_eq hw hd hdir').trans heq⟩
  | created hrun hw hreg hd hdir hnew hself hdirs hgrown hsize =>
    refine .created hrun hq.wf ?_ hd hdir hnew ?_ (fun g hg hdir' hgd => ?_)
      (fun f hf => hq.grown_of (.inl hf) (hgrown f hf)) (hq.grown_mem (.inr rfl) hsize)
    · exact fun hdir' => hreg ((hq.kept.isDir (.inr rfl)).mp hdir')
    · refine ⟨(hq.kept.isDir (.inl hd)).mpr hself.1, ?_⟩
      exact (hq.listing_eq hw (.inl hd) hself.1).trans hself.2
    · obtain ⟨hdir'', heq⟩ := hdirs g hg hdir' hgd
      exact ⟨(hq.kept.isDir (.inl hg)).mpr hdir'', (hq.listing_eq hw (.inl hg) hdir'').trans heq⟩

lemma Listed.wf (hl : Listed K F s path c F') : Wf c F' := by
  cases hl with
  | same hw => exact hw
  | created _ hw => exact hw

lemma Wf.listed_refl (h : Wf s.content F) (path : CString) : Listed K F s path s.content F :=
  .same h (fun _ _ hdir => ⟨hdir, rfl⟩) (fun _ _ => .inl rfl)

/-- What a walk ends at is a file. -/
lemma Wf.walkAt_mem (h : Wf c F) (dir : ℕ) (hf : f ∈ F) {names : List CString}
    (hnames : ∀ name ∈ names, name ≠ []) (hwalk : walkAt c dir f names = .ok (d, g)) : g ∈ F := by
  induction names generalizing dir f with
  | nil =>
    obtain ⟨-, rfl⟩ := Prod.mk.inj (Except.ok.inj hwalk)
    exact hf
  | cons x rest ih =>
    unfold walkAt at hwalk
    by_cases hlong : maxnamelen ≤ x.length
    · rw [if_pos hlong] at hwalk
      cases hwalk
    rw [if_neg hlong] at hwalk
    by_cases hreg : fileType c f ≠ ftypeDir
    · rw [if_pos hreg] at hwalk
      cases hwalk
    rw [if_neg hreg] at hwalk
    cases hlook : lookupAt c f x with
    | ok g' =>
      rw [hlook] at hwalk
      have hmem := h.lookupAt_mem hf (not_not.mp hreg) (hnames x List.mem_cons_self) hlook
      exact ih f hmem (fun y hy => hnames y (List.mem_cons_of_mem _ hy)) hwalk
    | error r =>
      rw [hlook] at hwalk
      cases hwalk

lemma Wf.walk_mem (h : Wf c F)
    (hwalk : walkAt c 0 rootAddr (components (skipSlash path)) = .ok (d, f)) : f ∈ F :=
  h.walkAt_mem 0 h.root (ne_nil_of_mem_components (noSlash_skipSlash path)) hwalk

lemma Wf.fileOpen_walk (h : Wf s.content F) (path : CString) :
    Sat (fileOpen path) s
      (fun r t => t.content = s.content ∧ ∀ f, r = .ok f →
        ∃ d, walkAt s.content 0 rootAddr (components (skipSlash path)) = .ok (d, f)) Anyhow := by
  unfold fileOpen
  rw [sat_bind]
  refine (h.walkPath_sat path rfl).mono ?_ (fun _ _ _ => trivial)
  rintro (⟨r, p⟩ | ⟨d, f⟩) u ⟨hr, hu⟩
  · exact sat_pure.mpr ⟨hu, fun _ hf => nomatch hf⟩
  · refine sat_pure.mpr ⟨hu, fun g hg => ?_⟩
    obtain rfl := Except.ok.inj hg
    exact ⟨d, hr.symm⟩

/-- `file_create` where it is sound. -/
lemma Wf.fileCreate_listed (h : Wf s.content F) (hsound : NameSound s.content path)
    (hsize : SizeSound K s.content path) :
    Sat (fileCreate path) s
      (fun r t => ∃ F', Listed K F s path t.content F' ∧
        (∀ f, r = .ok f → f ∈ F' ∧ ¬IsDir t.content f) ∧
        (r = .error (-eFileExists) → t.content = s.content ∧ F' = F)) Anyhow := by
  refine ((h.fileCreate_sat path rfl).and (sat_self _ _)).mono ?_ (fun _ _ _ => trivial)
  rintro r t ⟨hc, hrun⟩
  generalize hct : t.content = c' at hc ⊢
  cases hc with
  | present => exact ⟨F, h.listed_refl path, nofun, fun _ => ⟨rfl, rfl⟩⟩
  | unreached => exact ⟨F, h.listed_refl path, nofun, fun _ => ⟨rfl, rfl⟩⟩
  | refused hwalk halloc =>
    obtain ⟨hd, hdir, -, -⟩ := h.walkAt_parent 0 h.root
      (ne_nil_of_mem_components (noSlash_skipSlash path)) hwalk
    cases halloc with
    | large => exact ⟨F, h.listed_refl path, nofun, fun _ => ⟨rfl, rfl⟩⟩
    | grown hfree hlen hgets =>
      cases hgets with
      | inval hmax =>
        rename_i d _
        have hlen := Nat.le_antisymm hlen hmax
        have hr := h.toTree.resized hd (fileSize s.content d + 4096)
        refine ⟨F, .same (h.wf_lengthened hd hlen hdir) (fun g hg hdir' => ?_) (fun g hg => ?_), nofun, ?_⟩
        · exact ⟨(hr.kept.isDir hg).mpr hdir', h.listing_lengthened hd hlen hdir hg hdir'⟩
        · by_cases hgd : g = d
          · rw [hgd]
            right
            rw [show fileSize (lengthened s.content d) d = fileSize s.content d + 4096 from hr.size]
            exact (hsize _ _ _ hwalk).2 hfree
          · exact .inl (hr.sizes g hg hgd)
        · intro heq
          exact absurd (Except.error.inj heq) (by decide)
      | full hmax hextra hfull =>
        rename_i d _
        have hroom := (hsound.1 _ _ _ hwalk).2 hfree hmax
        have hr := h.toTree.resized hd (fileSize s.content d + 4096)
        have hextra' := hr.extra_eq hd (m := dirLen s.content d)
        have hfull' := hr.freeCount_eq
        unfold lengthened at hextra hfull
        omega
  | created hwalk halloc =>
    rename_i d e name c₁
    obtain ⟨hd, hdir, hmem, hname⟩ := h.walkAt_parent 0 h.root
      (ne_nil_of_mem_components (noSlash_skipSlash path)) hwalk
    have hnil := ne_nil_of_mem_components (noSlash_skipSlash path) _ hmem
    obtain ⟨-, -, -, -, -, -, -, hlook⟩ := walkAt_missing hwalk
    have hchosen := h.chosen hd hdir halloc
    obtain ⟨hnodir, hstray⟩ := hsound.2 _ _ _ hwalk
    have hfiles : newFiles s.content d = {e} := by
      ext i
      constructor
      · rintro (heq | ⟨hi, hne⟩)
        · exact heq.trans hchosen.new.symm
        · exact absurd (hstray i hi) hne
      · rintro rfl
        exact .inl hchosen.new
    have hw := hchosen.wf_named h hname hd hdir (hsound.1 _ _ _ hwalk).1
    rw [hfiles] at hw
    have hreg : ¬IsDir (withName c₁ e name) e := by
      have htype : fileType (withName c₁ e name) e = fileType s.content e :=
        hchosen.field_named hname (k := 132) (by decide) (by decide)
      unfold IsDir at hnodir ⊢
      rw [htype, hchosen.new]
      exact hnodir
    have hstale : fileSize (withName c₁ e name) e ∈ K := by
      have hsame : fileSize (withName c₁ e name) e = fileSize s.content e :=
        hchosen.field_named hname (k := 128) (by decide) (by decide)
      rw [hsame, hchosen.new]
      exact (hsize _ _ _ hwalk).1
    have hgrown : ∀ g ∈ F, fileSize (withName c₁ e name) g = fileSize s.content g ∨
        fileSize (withName c₁ e name) g ∈ K := by
      intro g hg
      rw [hchosen.size_named hname hg]
      by_cases hgd : g = d
      · subst hgd
        rcases hchosen.found with ⟨-, rfl⟩ | ⟨hfree, hnew, -⟩
        · exact .inl rfl
        · right
          rw [hnew]
          exact (hsize _ _ _ hwalk).2 hfree
      · exact .inl (hchosen.sizes g hg hgd)
    have hlisting : ∀ g ∈ F, IsDir s.content g → ∀ y i, (y, i) ∈ listing (withName c₁ e name) g ↔
        (y, i) ∈ listing s.content g ∨ (g = d ∧ y = name ∧ i = e) :=
      fun g hg hdir' y i => hchosen.mem_listing h hname hd hdir hstray hnil hw hg (.inl hg) hdir'
    have hnew : ∀ i, (name, i) ∉ listing s.content d := by
      rintro i ⟨he, -, hyes⟩
      have hyes : nameIs s.content i name = true := hyes
      rw [missing_of_lookupAt hlook i he] at hyes
      cases hyes
    refine ⟨F ∪ {e}, .created hrun hw hreg hd hdir hnew ?_ ?_ hgrown hstale, ?_, nofun⟩
    · refine ⟨(hchosen.isDir_named hname hd).mpr hdir, ?_⟩
      ext ⟨y, i⟩
      rw [hlisting d hd hdir, Set.mem_insert_iff, Prod.mk.injEq]
      constructor
      · rintro (hold | ⟨-, hy, hi⟩)
        · exact .inr hold
        · exact .inl ⟨hy, hi⟩
      · rintro (⟨hy, hi⟩ | hold)
        · exact .inr ⟨rfl, hy, hi⟩
        · exact .inl hold
    · intro g hg hdir' hgd
      refine ⟨(hchosen.isDir_named hname hg).mpr hdir', ?_⟩
      ext ⟨y, i⟩
      rw [hlisting g hg hdir']
      exact ⟨fun hor => hor.resolve_right (fun hand => hgd hand.1), .inl⟩
    · intro f hf
      obtain rfl := Except.ok.inj hf
      exact ⟨.inr rfl, hreg⟩

/-- The file that an open finds or creates, before it is truncated. -/
lemma Wf.openOrCreate_listed (h : Wf s.content F) (hsound : OpenSound s.content path omode)
    (hsize : omode &&& oCreat ≠ 0 → SizeSound K s.content path) :
    Sat (openOrCreate path omode) s
      (fun r t => ∃ F', Listed K F s path t.content F' ∧ ∀ f, r = .ok f →
        f ∈ F' ∧ (omode &&& oTrunc ≠ 0 → ¬IsDir t.content f)) Anyhow := by
  have hfound : ∀ t : Fs, t.content = s.content → Sat (fileOpen path) t
      (fun r u => ∃ F', Listed K F s path u.content F' ∧ ∀ f, r = .ok f →
        f ∈ F' ∧ (omode &&& oTrunc ≠ 0 → ¬IsDir u.content f)) Anyhow := by
    intro t ht
    have hw : Wf t.content F := by
      rw [ht]
      exact h
    refine (hw.fileOpen_walk path).post ?_
    rintro r u ⟨hu, hwalk⟩
    rw [hu, ht]
    refine ⟨F, h.listed_refl path, fun f hf => ?_⟩
    obtain ⟨d, hd⟩ := hwalk f hf
    rw [ht] at hd
    exact ⟨h.walk_mem hd, fun htrunc => hsound.2 htrunc d f hd⟩
  unfold openOrCreate
  rw [sat_ite]
  refine ⟨fun hcreat => ?_, fun _ => hfound s rfl⟩
  rw [sat_bind]
  refine (h.fileCreate_listed (hsound.1 hcreat) (hsize hcreat)).post ?_
  rintro (r | f) t ⟨F', hl, hok, hexists⟩
  · dsimp only
    rw [sat_ite]
    refine ⟨fun hr => ?_, fun _ => sat_pure.mpr ⟨F', hl, nofun⟩⟩
    exact hfound t (hexists (congrArg _ hr.2)).1
  · refine sat_pure.mpr ⟨F', hl, fun g hg => ?_⟩
    obtain rfl := Except.ok.inj hg
    obtain ⟨hmem, hreg⟩ := hok _ rfl
    exact ⟨hmem, fun _ => hreg⟩

lemma Wf.openFile_listed (h : Wf s.content F) (hsound : OpenSound s.content path omode)
    (hsize : omode &&& oCreat ≠ 0 → SizeSound K s.content path) (hzero : omode &&& oTrunc ≠ 0 → 0 ∈ K) :
    Sat (openFile path omode) s
      (fun r t => ∃ F', Listed K F s path t.content F' ∧ ∀ f, r = .ok f → f ∈ F') Anyhow := by
  have hlast : ∀ {t : Fs} {F' : Set ℕ}, Listed K F s path t.content F' → Sat (fileOpen path) t
      (fun r u => ∃ F', Listed K F s path u.content F' ∧ ∀ f, r = .ok f → f ∈ F') Anyhow := by
    intro t F' hl
    refine (hl.wf.fileOpen_walk path).post ?_
    rintro r u ⟨hu, hwalk⟩
    rw [hu]
    refine ⟨F', hl, fun f hf => ?_⟩
    obtain ⟨d, hd⟩ := hwalk f hf
    exact hl.wf.walk_mem hd
  unfold openFile
  rw [sat_bind]
  refine (h.openOrCreate_listed hsound hsize).post ?_
  rintro (r | f) t ⟨F', hl, hok⟩
  · exact sat_pure.mpr ⟨F', hl, nofun⟩
  · obtain ⟨hmem, hreg⟩ := hok f rfl
    dsimp only
    rw [sat_ite]
    refine ⟨fun htrunc => ?_, fun _ => hlast hl⟩
    rw [sat_bind]
    refine (hl.wf.fileSetSize_quiet hmem (hreg htrunc) (hzero htrunc)).post ?_
    exact fun _ u hu => hlast (hl.quiet hu)

end SistemasOperativos.Fs
