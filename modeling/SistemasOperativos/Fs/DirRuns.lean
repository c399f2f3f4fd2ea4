import SistemasOperativos.Fs.Requests
import SistemasOperativos.Fs.OpenRuns

/-!
# Directories under requests

Any number of clients send requests to the server. The sizes of directories stay whole and their
listings change only by a `file_create`, as long as no request writes to a directory.
-/

namespace SistemasOperativos.Fs

open Library Kern

/-- A directory that a path leads to. -/
def Directory (c : ℕ → Byte) (d : ℕ) : Prop := Reachable c d ∧ IsDir c d

/-- The path and the mode of an open, in the request page. -/
def pathIn (s : Server) (q : ℕ) : CString := cstringAt (s.page q) 0 (maxpathlen - 1)

def modeIn (s : Server) (q : ℕ) : Word := wordAt (s.page q) reqOmode

/-- The condition on a step. -/
def DirGuard (w : World) : WorldEvent → Prop
  | .serve req => ∀ q, w.server.fsreq = some q →
      if req = 1 then OpenSound w.server.fs.content (pathIn w.server q) (modeIn w.server q)
      else FileSound w.server q req
  | _ => True

/-- Nothing is open, and the disk is well-formed. -/
def DirStart (w : World) : Prop := WorldStart w ∧ ∃ F, Wf w.server.fs.content F

/-- The sizes of the directories are numbers of blocks. -/
def DirsWhole (c : ℕ → Byte) : Prop := ∀ d, Directory c d → (fileSize c d).toNat % 4096 = 0

/-- What a step may do to the listings: nothing, or the `file_create` of an open adds one new name. -/
inductive DirsStep (w : World) (e : WorldEvent) (c' : ℕ → Byte) : Prop
  | same (hdirs : ∀ d, Directory w.server.fs.content d →
      IsDir c' d ∧ listing c' d = listing w.server.fs.content d) : DirsStep w e c'
  | created {name : CString} {u v : Fs} {q d f : ℕ} (he : e = .serve 1) (hq : w.server.fsreq = some q)
      (hu : u.content = w.server.fs.content) (hrun : fileCreate (pathIn w.server q) u = .ok (.ok f) v)
      (hnew : ∀ i, (name, i) ∉ listing w.server.fs.content d)
      (hself : IsDir c' d ∧ listing c' d = insert (name, f) (listing w.server.fs.content d))
      (hdirs : ∀ g, Directory w.server.fs.content g → g ≠ d →
        IsDir c' g ∧ listing c' g = listing w.server.fs.content g) : DirsStep w e c'

/-- The new sizes of a step are in `K`. -/
def GrowGuard (K : Set Word) (w : World) : WorldEvent → Prop
  | .serve req => ∀ q, w.server.fsreq = some q →
      if req = 1 then (modeIn w.server q &&& oCreat ≠ 0 → SizeSound K w.server.fs.content (pathIn w.server q)) ∧
        (modeIn w.server q &&& oTrunc ≠ 0 → 0 ∈ K)
      else GrowSound K w.server q req
  | _ => True

/-- Every file is an old one with its size, or has one of the sizes `K`. -/
def Grown (K : Set Word) (F : Set ℕ) (c : ℕ → Byte) (F' : Set ℕ) (c' : ℕ → Byte) : Prop :=
  ∀ f ∈ F', (f ∈ F ∧ fileSize c' f = fileSize c f) ∨ fileSize c' f ∈ K

/-- A page that clients have or are about to get. -/
def Given (w : World) (p : ℕ) : Prop := (∃ id, (id, p) ∈ w.handles) ∨ ∃ r, w.reply = some (r, some p)

/-- The invariant: the file of a slot whose page clients can have is one of the disk. -/
structure DirIn (w : World) (F : Set ℕ) : Prop where
  wf : Wf w.server.fs.content F
  pages : ∀ i p, w.server.fdPage i = some p → p < w.server.fresh
  inj : ∀ i j p, w.server.fdPage i = some p → w.server.fdPage j = some p → i = j
  given : ∀ p, Given w p → p < w.server.fresh
  file : ∀ i p, w.server.fdPage i = some p → (2 ≤ w.server.mapped p ∨ Given w p) →
    (w.server.opentab i).file ∈ F

variable {w w' : World} {K : Set Word} {F F' : Set ℕ} {s t u : Server} {c c' : ℕ → Byte} {e : WorldEvent}
  {d f i j k n p q : ℕ} {path : CString} {omode : Word}

/-! ### Opening -/

/-- The slot `i` has been taken, with the page `p`, which is an old page of the slot or a new one. -/
structure Seized (s t : Server) (i p : ℕ) : Prop where
  page : t.fdPage i = some p
  pages : ∀ j ≠ i, t.fdPage j = s.fdPage j
  files : ∀ j ≠ i, (t.opentab j).file = (s.opentab j).file
  old : (s.fdPage i = some p ∧ t.mapped = s.mapped ∧ t.fresh = s.fresh) ∨
    (p = s.fresh ∧ t.fresh = s.fresh + 1 ∧ t.mapped p = 1 ∧ ∀ p' < s.fresh, t.mapped p' ≤ s.mapped p')

/-- The outcomes of `openfile_alloc`. -/
inductive Seizes (s : Server) : Except ℤ (ℕ × ℤ) → Server → Prop
  | refused (r : ℤ) : Seizes s (.error r) s
  | taken {i p : ℕ} {fileid : ℤ} {t : Server} (hseized : Seized s t i p)
      (hfile : (t.opentab i).file = (s.opentab i).file) (hfs : t.fs.content = s.fs.content) :
      Seizes s (.ok (i, fileid)) t

lemma takeSlot_seizes (hp : s.fdPage i = some p) :
    Sat (takeSlot i) s (fun r t => (∃ fileid, r = .ok (i, fileid)) ∧ t.fdPage = s.fdPage ∧
      t.mapped = s.mapped ∧ t.fresh = s.fresh ∧ t.fs = s.fs ∧
      ∀ j, (t.opentab j).file = (s.opentab j).file) (fun _ _ => False) := by
  refine (takeSlot_sat hp).post ?_
  rintro r t ⟨rfl, rfl⟩
  refine ⟨⟨_, rfl⟩, rfl, rfl, rfl, rfl, fun j => ?_⟩
  dsimp only
  by_cases hj : j = i
  · rw [hj, Function.update_self]
  · rw [Function.update_of_ne hj]

lemma allocSlot_seizes (n k : ℕ) : Sat (allocSlot n k) s (fun r t => Seizes s r t) (fun _ _ => False) := by
  induction n generalizing k with
  | zero =>
    unfold allocSlot
    exact sat_pure.mpr (.refused _)
  | succ n ih =>
    unfold allocSlot
    rw [sat_bind, sat_get]
    split
    · unfold fdAlloc
      simp only [sat_bind, sat_get, sat_ite, sat_pure, sat_set]
      refine ⟨fun _ => ⟨fun h => absurd h Bool.false_ne_true, fun _ => .refused _⟩, fun _ => ?_⟩
      refine ⟨fun _ => ?_, fun h => absurd trivial h⟩
      refine (takeSlot_seizes (p := s.fresh) (Function.update_self k (some s.fresh) s.fdPage)).post ?_
      rintro r t ⟨⟨fileid, rfl⟩, hpages, hmapped, hfresh, hfs, hfiles⟩
      refine .taken (p := s.fresh) ⟨?_, fun j hj => ?_, fun j _ => hfiles j, .inr ⟨rfl, hfresh, ?_, ?_⟩⟩
        (hfiles k) (by rw [hfs]; rfl)
      · rw [hpages]
        exact Function.update_self k (some s.fresh) s.fdPage
      · rw [hpages]
        exact Function.update_of_ne hj _ _
      · rw [hmapped]
        exact Function.update_self _ _ _
      · intro p' hp'
        rw [hmapped]
        dsimp only
        rw [Function.update_of_ne (Nat.ne_of_lt hp')]
        cases s.fdPage k with
        | none => exact le_rfl
        | some p =>
          dsimp only
          by_cases hpp : p' = p
          · rw [hpp, Function.update_self]
            exact Nat.sub_le _ _
          · rw [Function.update_of_ne hpp]
    · rename_i hone
      obtain ⟨p, hp⟩ : ∃ p, s.fdPage k = some p := by
        cases hpage : s.fdPage k with
        | some p => exact ⟨p, rfl⟩
        | none =>
          unfold pageref at hone
          rw [hpage] at hone
          cases hone
      refine (takeSlot_seizes hp).post ?_
      rintro r t ⟨⟨fileid, rfl⟩, hpages, hmapped, hfresh, hfs, hfiles⟩
      refine .taken (p := p) ⟨?_, fun j _ => ?_, fun j _ => hfiles j, .inl ⟨hp, hmapped, hfresh⟩⟩
        (hfiles k) (by rw [hfs])
      · rw [hpages]
        exact hp
      · rw [hpages]
    · exact ih (k + 1)

/-- The outcomes of an open. -/
inductive Opened (K : Set Word) (F : Set ℕ) (s : Server) (path : CString) : ℤ × Option ℕ → Server → Set ℕ → Prop
  | refused (r : ℤ) : Opened K F s path (r, none) s F
  | failed {i p : ℕ} {t : Server} {F' : Set ℕ} {u : Fs} (hu : u.content = s.fs.content)
      (hl : Listed K F u path t.fs.content F') (hseized : Seized s t i p)
      (hfile : (t.opentab i).file = (s.opentab i).file) (r : ℤ) : Opened K F s path (r, none) t F'
  | opened {i p : ℕ} {t : Server} {F' : Set ℕ} {u : Fs} (hu : u.content = s.fs.content)
      (hl : Listed K F u path t.fs.content F') (hseized : Seized s t i p)
      (hfile : (t.opentab i).file ∈ F') : Opened K F s path (0, some p) t F'

/-- The end of `serve_open`, which fills the Fd page. -/
lemma fillFd_opened (hu : u.fs.content = s.fs.content) (hl : Listed K F u.fs path t.fs.content F')
    (hseized : Seized s t i p) (hf : f ∈ F') (omode : Word) : Sat (do
      let p ← fdOf i
      modify fun s => { s with
        opentab := Function.update s.opentab i { s.opentab i with file := f } }
      storePage p fdFileId ((← get).opentab i).fileid
      storePage p fdOmode (omode &&& oAccmode)
      storePage p fdDevId devId
      modify fun s => { s with
        opentab := Function.update s.opentab i { s.opentab i with mode := omode } }
      return (0, some p) : ServM (ℤ × Option ℕ)) t (fun r v => ∃ F', Opened K F s path r v F')
      (fun _ _ => True) := by
  unfold fdOf storePage
  simp only [sat_bind, sat_get, sat_modify, sat_pure, hseized.page]
  refine ⟨F', .opened (i := i) hu hl ⟨hseized.page, hseized.pages, fun j hj => ?_, hseized.old⟩ ?_⟩
  · dsimp only
    rw [Function.update_of_ne hj, Function.update_of_ne hj]
    exact hseized.files j hj
  · dsimp only
    rw [Function.update_self, Function.update_self]
    exact hf

lemma Wf.serveOpen_opened (h : Wf s.fs.content F) (hq : s.fsreq = some q)
    (hsound : OpenSound s.fs.content (pathIn s q) (modeIn s q))
    (hsize : modeIn s q &&& oCreat ≠ 0 → SizeSound K s.fs.content (pathIn s q))
    (hzero : modeIn s q &&& oTrunc ≠ 0 → 0 ∈ K) :
    Sat serveOpen s (fun r t => ∃ F', Opened K F s (pathIn s q) r t F') (fun _ _ => True) := by
  unfold serveOpen reqPage loadPage openfileAlloc
  simp only [sat_bind, sat_get, sat_pure, hq]
  refine (allocSlot_seizes maxopen 0).mono ?_ (fun _ _ hfalse => hfalse.elim)
  intro r t ht
  cases ht with
  | refused r => exact sat_pure.mpr ⟨F, .refused r⟩
  | @taken i p fileid t hseized hfile hfs =>
    have hw : Wf t.fs.content F := by
      rw [hfs]
      exact h
    dsimp only
    rw [sat_ite]
    refine ⟨fun _ => sat_pure.mpr ⟨F, .failed hfs (hw.listed_refl _) hseized hfile _⟩, fun _ => ?_⟩
    rw [sat_bind, sat_onFs]
    rw [← hfs] at hsound hsize
    refine (hw.openFile_listed hsound hsize hzero).mono ?_ (fun _ _ _ => trivial)
    rintro (r | f) x ⟨F', hl, hok⟩
    · refine sat_pure.mpr ⟨F', .failed (t := { t with fs := x }) (i := i) (p := p) hfs hl ?_ hfile r⟩
      exact ⟨hseized.page, hseized.pages, hseized.files, hseized.old⟩
    · refine fillFd_opened (u := t) (t := { t with fs := x }) (p := p) hfs hl ?_ (hok f rfl) _
      exact ⟨hseized.page, hseized.pages, hseized.files, hseized.old⟩

/-! ### Steps -/

lemma release_rest (s : Server) : s.release.fs = s.fs ∧ s.release.opentab = s.opentab ∧
    s.release.fdPage = s.fdPage ∧ s.release.fresh = s.fresh := by
  obtain ⟨f, heq, -⟩ := release_eq s
  rw [heq]
  exact ⟨rfl, rfl, rfl, rfl⟩

lemma release_mapped_le (s : Server) (p : ℕ) : s.release.mapped p ≤ s.mapped p := by
  unfold Server.release
  cases s.fsreq with
  | none => exact le_rfl
  | some q =>
    dsimp only
    by_cases hp : p = q
    · rw [hp, Function.update_self]
      exact Nat.sub_le _ _
    · rw [Function.update_of_ne hp]

lemma map_mapped (s : Server) (p q : ℕ) (h : p ≠ q) : (s.map q).mapped p = s.mapped p :=
  Function.update_of_ne h _ _

lemma Listed.subset {u : Fs} (hl : Listed K F u path c F') : F ⊆ F' := by
  cases hl with
  | same => exact le_rfl
  | created => exact Set.subset_union_left

lemma Listed.grown {u : Fs} (hl : Listed K F u path c F') : Grown K F u.content F' c := by
  intro f hf
  cases hl with
  | same _ _ hgrown => exact (hgrown f hf).imp_left (fun heq => ⟨hf, heq⟩)
  | created _ _ _ _ _ _ _ _ hgrown hsize =>
    rcases hf with hf | rfl
    · exact (hgrown f hf).imp_left (fun heq => ⟨hf, heq⟩)
    · exact .inr hsize

lemma Quiet.all_grown (hq : Quiet K F c c') : Grown K F c F c' :=
  fun f hf => (hq.grown f hf).imp_left (fun heq => ⟨hf, heq⟩)

lemma growGuard_univ (w : World) (e : WorldEvent) : GrowGuard Set.univ w e := by
  cases e with
  | serve req =>
    intro q _
    split
    · exact ⟨fun _ _ _ _ _ => ⟨Set.mem_univ _, fun _ => Set.mem_univ _⟩, fun _ => Set.mem_univ _⟩
    · exact fun _ => ⟨fun _ => Set.mem_univ _, fun _ _ _ _ => Set.mem_univ _⟩
  | _ => trivial

namespace DirIn

/-- A step that leaves the disk and the table alone. -/
lemma of_same (hw : DirIn w F) (hcontent : w'.server.fs.content = w.server.fs.content)
    (hopentab : w'.server.opentab = w.server.opentab) (hpages : w'.server.fdPage = w.server.fdPage)
    (hfresh : w.server.fresh ≤ w'.server.fresh) (hgiven : ∀ p, Given w' p → Given w p)
    (hmapped : ∀ p < w.server.fresh, w'.server.mapped p ≤ w.server.mapped p ∨ Given w p) : DirIn w' F := by
  constructor
  · rw [hcontent]
    exact hw.wf
  · intro i p hp
    rw [hpages] at hp
    exact Nat.lt_of_lt_of_le (hw.pages i p hp) hfresh
  · rw [hpages]
    exact hw.inj
  · exact fun p hp => Nat.lt_of_lt_of_le (hw.given p (hgiven p hp)) hfresh
  · intro i p hp hor
    rw [hpages] at hp
    rw [hopentab]
    apply hw.file i p hp
    rcases hor with hle | hg
    · rcases hmapped p (hw.pages i p hp) with hle' | hg
      · exact .inl (Nat.le_trans hle hle')
      · exact .inr hg
    · exact .inr (hgiven p hg)

/-- The file that is looked up is one of the disk. -/
lemma found (hw : DirIn w F) (hfound : Found w.server q) :
    (w.server.opentab (slotOf w.server q)).file ∈ F := by
  unfold Found at hfound
  rw [not_or] at hfound
  have hlt := hfound.1
  unfold pageref at hlt
  cases hp : w.server.fdPage (slotOf w.server q) with
  | none =>
    rw [hp] at hlt
    exact absurd (Nat.zero_le 1) hlt
  | some p =>
    rw [hp] at hlt
    dsimp only at hlt
    have hle := Nat.mod_le (w.server.mapped p) 65536
    exact hw.file _ p hp (.inl (by omega))

/-- A request that leaves the table alone and sends no page. -/
lemma calm (hw : DirIn w F) (hc : Calm K F w.server t) (r : ℤ) :
    DirIn { w with server := t, reply := some (r, none) } F := by
  have hgiven : ∀ p, Given { w with server := t, reply := some (r, none) } p → Given w p := by
    rintro p (hp | ⟨r', hr'⟩)
    · exact .inl hp
    · cases hr'
  constructor
  · exact hc.quiet.wf
  · dsimp only
    rw [hc.fdPage, hc.fresh]
    exact hw.pages
  · dsimp only
    rw [hc.fdPage]
    exact hw.inj
  · intro p hp
    dsimp only
    rw [hc.fresh]
    exact hw.given p (hgiven p hp)
  · intro i p hp hor
    dsimp only at hp hor ⊢
    rw [hc.fdPage] at hp
    rw [hc.mapped] at hor
    rw [hc.opentab]
    exact hw.file i p hp (hor.imp id (hgiven p))

/-- An open that has taken a slot, and sends its page or not. -/
lemma seized (hw : DirIn w F) (hseized : Seized w.server t i p)
    (hwf : Wf t.fs.content F') (hsub : F ⊆ F') {r : ℤ × Option ℕ} (hr : ∀ p', r.2 = some p' → p' = p)
    (hfile : (t.opentab i).file ∈ F' ∨
      (r.2 = none ∧ (t.opentab i).file = (w.server.opentab i).file)) :
    DirIn { w with server := t, reply := some r } F' := by
  have hgiven : ∀ p', Given { w with server := t, reply := some r } p' → Given w p' ∨ r.2 = some p' := by
    rintro p' (hp' | ⟨r', hr'⟩)
    · exact .inl (.inl hp')
    · exact .inr (congrArg Prod.snd (Option.some.inj hr'))
  have hle : w.server.fresh ≤ t.fresh := by
    rcases hseized.old with ⟨-, -, hfresh⟩ | ⟨-, hfresh, -⟩
    · exact hfresh.ge
    · omega
  have hp : p < t.fresh := by
    rcases hseized.old with ⟨hp, -, hfresh⟩ | ⟨rfl, hfresh, -⟩
    · rw [hfresh]
      exact hw.pages i p hp
    · omega
  -- the pages of the other slots
  have hother : ∀ j ≠ i, ∀ p', t.fdPage j = some p' → w.server.fdPage j = some p' ∧ p' ≠ p := by
    intro j hj p' hp'
    rw [hseized.pages j hj] at hp'
    refine ⟨hp', ?_⟩
    rintro rfl
    rcases hseized.old with ⟨hp, -, -⟩ | ⟨rfl, -⟩
    · exact hj (hw.inj j i p' hp' hp)
    · exact Nat.lt_irrefl _ (hw.pages j _ hp')
  constructor
  · exact hwf
  · intro j p' hp'
    by_cases hj : j = i
    · subst hj
      obtain rfl := Option.some.inj (hp'.symm.trans hseized.page)
      exact hp
    · exact Nat.lt_of_lt_of_le (hw.pages j p' (hother j hj p' hp').1) hle
  · intro j k p' hj hk
    by_cases hji : j = i
    · by_cases hki : k = i
      · rw [hji, hki]
      · subst hji
        obtain rfl := Option.some.inj (hj.symm.trans hseized.page)
        exact absurd rfl (hother k hki p' hk).2
    · by_cases hki : k = i
      · subst hki
        obtain rfl := Option.some.inj (hk.symm.trans hseized.page)
        exact absurd rfl (hother j hji p' hj).2
      · exact hw.inj j k p' (hother j hji p' hj).1 (hother k hki p' hk).1
  · intro p' hp'
    rcases hgiven p' hp' with hold | hnew
    · exact Nat.lt_of_lt_of_le (hw.given p' hold) hle
    · rw [hr p' hnew]
      exact hp
  · intro j p' hp' hor
    by_cases hj : j = i
    · subst hj
      obtain rfl := Option.some.inj (hp'.symm.trans hseized.page)
      rcases hfile with hmem | ⟨hnone, hsame⟩
      · exact hmem
      · change (t.opentab j).file ∈ F'
        rw [hsame]
        have hold : 2 ≤ t.mapped p' ∨ Given w p' := by
          refine hor.imp id (fun hg => (hgiven p' hg).resolve_right ?_)
          rw [hnone]
          exact (Option.some_ne_none p').symm
        rcases hseized.old with ⟨hp, hmapped, -⟩ | ⟨rfl, -, hone, -⟩
        · rw [hmapped] at hold
          exact hsub (hw.file j p' hp hold)
        · rcases hold with htwo | hg
          · rw [hone] at htwo
            exact absurd htwo (by decide)
          · exact absurd (hw.given _ hg) (Nat.lt_irrefl _)
    · obtain ⟨hold, hne⟩ := hother j hj p' hp'
      change (t.opentab j).file ∈ F'
      rw [hseized.files j hj]
      apply hsub
      apply hw.file j p' hold
      rcases hor with htwo | hg
      · left
        rcases hseized.old with ⟨-, hmapped, -⟩ | ⟨-, -, -, hmapped⟩
        · rw [← hmapped]
          exact htwo
        · exact Nat.le_trans htwo (hmapped p' (hw.pages j p' hold))
      · rcases hgiven p' hg with hg | hnew
        · exact .inr hg
        · exact absurd (hr p' hnew) hne

lemma dirsStep_same (hw : DirIn w F) (hq : Quiet K F w.server.fs.content c') (e : WorldEvent) :
    DirsStep w e c' := by
  refine .same (fun d hd => ?_)
  have hmem := hw.wf.reachable_mem hd.1
  exact ⟨(hq.kept.isDir hmem).mpr hd.2, hq.listing_eq hw.wf hmem hd.2⟩

lemma dirsStep_listed (hw : DirIn w F) (hq : w.server.fsreq = some q) {u : Fs}
    (hu : u.content = w.server.fs.content) (hl : Listed K F u (pathIn w.server q) c' F') :
    DirsStep w (.serve 1) c' := by
  cases hl with
  | same hwf hdirs hgrown =>
    rw [hu] at hdirs
    exact .same (fun d hd => hdirs d (hw.wf.reachable_mem hd.1) hd.2)
  | created hrun hwf hreg hd hdir hnew hself hdirs =>
    rw [hu] at hnew hself hdirs
    exact .created rfl hq hu hrun hnew hself
      (fun g hg hgd => hdirs g (hw.wf.reachable_mem hg.1) hg.2 hgd)

/-- A request is served. -/
lemma serve (hw : DirIn w F) (hpage : w.server.fsreq ≠ none) {req : Word}
    (hg : DirGuard w (.serve req)) (hk : GrowGuard K w (.serve req)) {r : ℤ × Option ℕ}
    (hrun : serveRequest req w.server = .ok r t) :
    ∃ F', DirIn { w with server := t, reply := some r } F' ∧
      DirsStep w (.serve req) t.fs.content ∧
      Grown K F w.server.fs.content F' t.fs.content := by
  obtain ⟨q, hq⟩ := Option.ne_none_iff_exists'.mp hpage
  have hsound := hg q hq
  have hsize := hk q hq
  by_cases hreq : req = 1
  · subst hreq
    rw [if_pos rfl] at hsound hsize
    obtain ⟨F', ho⟩ := (hw.wf.serveOpen_opened hq hsound hsize.1 hsize.2).of_ok hrun
    have hgrown : ∀ {u : Fs} {c : ℕ → Byte}, u.content = w.server.fs.content →
        Listed K F u (pathIn w.server q) c F' → Grown K F w.server.fs.content F' c := by
      intro u c hu hl
      rw [← hu]
      exact hl.grown
    cases ho with
    | refused r =>
      have hq := Quiet.refl (K := K) hw.wf
      exact ⟨F, hw.calm (Calm.refl (K := K) hw.wf) r, hw.dirsStep_same hq _, hq.all_grown⟩
    | failed hu hl hseized hfile r =>
      exact ⟨F', hw.seized hseized hl.wf hl.subset nofun (.inr ⟨rfl, hfile⟩),
        hw.dirsStep_listed hq hu hl, hgrown hu hl⟩
    | opened hu hl hseized hfile =>
      exact ⟨F', hw.seized hseized hl.wf hl.subset (fun _ hp => (Option.some.inj hp).symm)
        (.inl hfile), hw.dirsStep_listed hq hu hl, hgrown hu hl⟩
  · rw [if_neg hreq] at hsound hsize
    obtain ⟨hc, hnone⟩ := (hw.wf.serveRequest_calm hq hw.found hsound hsize hreq).of_ok hrun
    obtain ⟨r, o⟩ := r
    obtain rfl : o = none := hnone
    exact ⟨F, hw.calm hc r, hw.dirsStep_same hc.quiet _, hc.quiet.all_grown⟩

lemma start (hs : WorldStart w) (hw : Wf w.server.fs.content F) : DirIn w F := by
  obtain ⟨-, hpages, -, hhandles, hreply⟩ := hs
  constructor
  · exact hw
  · intro i p hp
    rw [hpages i] at hp
    cases hp
  · intro i j p hp
    rw [hpages i] at hp
    cases hp
  · rintro p (⟨id, hid⟩ | ⟨r, hr⟩)
    · rw [hhandles] at hid
      cases hid
    · rw [hreply] at hr
      cases hr
  · intro i p hp
    rw [hpages i] at hp
    cases hp

lemma step_grown (hw : DirIn w F) (hg : DirGuard w e) (hk : GrowGuard K w e) (hstep : WorldStep w e w') :
    ∃ F', DirIn w' F' ∧ DirsStep w e w'.server.fs.content ∧
      Grown K F w.server.fs.content F' w'.server.fs.content := by
  have hquiet : ∀ e, DirsStep w e w.server.fs.content ∧
      Grown K F w.server.fs.content F w.server.fs.content := by
    intro e
    have hq := Quiet.refl (K := K) hw.wf
    exact ⟨hw.dirsStep_same hq e, hq.all_grown⟩
  cases hstep with
  | request data writable hidle hreply =>
    refine ⟨F, hw.of_same rfl rfl rfl (Nat.le_succ _) (fun _ hp => hp) (fun p hp => .inl ?_), hquiet _⟩
    exact (Function.update_of_ne (Nat.ne_of_lt hp) _ w.server.mapped).le
  | @requestFd h writable hidle hreply hh =>
    refine ⟨F, hw.of_same rfl rfl rfl le_rfl (fun _ hp => hp) (fun p _ => ?_), hquiet _⟩
    by_cases hp : p = h.2
    · exact .inr (.inl ⟨h.1, hp ▸ hh⟩)
    · exact .inl (map_mapped w.server p h.2 hp).le
  | serve hreply hpage hrun => exact hw.serve hpage hg hk hrun
  | @taken r p hreply =>
    obtain ⟨hfs, hopentab, hpages, hfresh⟩ := release_rest (w.server.map p)
    refine ⟨F, hw.of_same (congrArg Fs.content hfs) hopentab hpages hfresh.ge ?_ (fun p' _ => ?_), ?_⟩
    · rintro p' (⟨id, hid⟩ | ⟨r', hr'⟩)
      · rcases List.mem_cons.mp hid with hnew | hold
        · obtain ⟨-, rfl⟩ := Prod.mk.inj hnew
          exact .inr ⟨r, hreply⟩
        · exact .inl ⟨id, hold⟩
      · cases hr'
    · by_cases hp : p' = p
      · exact .inr (.inr ⟨r, by rw [hp]; exact hreply⟩)
      · exact .inl ((release_mapped_le _ p').trans (map_mapped w.server p' p hp).le)
    · dsimp only
      rw [hfs]
      exact hquiet _
  | refused hreply =>
    obtain ⟨hfs, hopentab, hpages, hfresh⟩ := release_rest w.server
    refine ⟨F, hw.of_same (congrArg Fs.content hfs) hopentab hpages hfresh.ge ?_
      (fun p' _ => .inl (release_mapped_le _ p')), ?_⟩
    · rintro p' (hid | ⟨r', hr'⟩)
      · exact .inl hid
      · cases hr'
    · dsimp only
      rw [hfs]
      exact hquiet _
  | @share h hh =>
    refine ⟨F, hw.of_same rfl rfl rfl le_rfl ?_ (fun p _ => ?_), hquiet _⟩
    · rintro p (⟨id, hid⟩ | hr)
      · rcases List.mem_cons.mp hid with rfl | hold
        · exact .inl ⟨id, hh⟩
        · exact .inl ⟨id, hold⟩
      · exact .inr hr
    · by_cases hp : p = h.2
      · exact .inr (.inl ⟨h.1, hp ▸ hh⟩)
      · exact .inl (map_mapped w.server p h.2 hp).le
  | @drop h hh =>
    refine ⟨F, hw.of_same rfl rfl rfl le_rfl ?_ (fun p _ => .inl ?_), hquiet _⟩
    · rintro p (⟨id, hid⟩ | hr)
      · exact .inl ⟨id, List.mem_of_mem_erase hid⟩
      · exact .inr hr
    · change Function.update w.server.mapped h.2 (w.server.mapped h.2 - 1) p ≤ _
      by_cases hp : p = h.2
      · rw [hp, Function.update_self]
        exact Nat.sub_le _ _
      · rw [Function.update_of_ne hp]
  | write a x hh => exact ⟨F, hw.of_same rfl rfl rfl le_rfl (fun _ hp => hp) (fun _ _ => .inl le_rfl), hquiet _⟩

lemma step (hw : DirIn w F) (hg : DirGuard w e) (hstep : WorldStep w e w') :
    ∃ F', DirIn w' F' ∧ DirsStep w e w'.server.fs.content := by
  obtain ⟨F', hw', hchange, -⟩ := hw.step_grown hg (growGuard_univ w e) hstep
  exact ⟨F', hw', hchange⟩

end DirIn

/-- A request to create and open the file of `bPath`. -/
def bRequest : ℕ → Byte := putWord (fun a => if a = 0 then 0x62 else 0) reqOmode oCreat

/-- The server with this request. -/
def bServer : Server := startWorld.server.receive bRequest true

lemma content_startWorld : startWorld.server.fs.content = smallDisk := content_cached smallDisk

lemma startWorld_dirStart : DirStart startWorld :=
  ⟨startWorld_start, smallFiles, by rw [content_startWorld]; exact wf_smallDisk⟩

lemma bPath_nameSound : NameSound smallDisk bPath := by
  refine ⟨bPath_sound, fun r d name hwalk => ?_⟩
  have herr := Except.error.inj (bPath_walk.symm.trans hwalk)
  obtain ⟨rfl, rfl⟩ := Prod.mk.inj (Option.some.inj (Prod.mk.inj herr).2)
  have hfree : freeEntry smallDisk rootAddr = some 12544 := by decide +kernel
  constructor
  · unfold newEntry IsDir
    rw [hfree]
    decide +kernel
  · unfold strayEntries
    rw [hfree]
    exact fun e he => absurd he List.not_mem_nil

/-- The server when the root directory has been opened, with a request to give it the size 1. -/
def rootServer : Server :=
  ((after (serveRequest 1) (startWorld.server.receive (fun _ => 0) true)).map 1).release.receive
    (putWord (putWord (fun _ => 0) reqFileid 1024) reqSize 1) true

end SistemasOperativos.Fs
