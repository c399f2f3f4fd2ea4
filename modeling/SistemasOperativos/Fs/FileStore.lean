import SistemasOperativos.Library.FileStore
import SistemasOperativos.Fs.Contents

/-!
# The file system as a store of files

Whatever clients have learned from the results of their calls stays true: where a path leads, how long
a file is, and which bytes stand in it. The file server refines a store of named files.
-/

namespace SistemasOperativos.Fs

open Library Kern

/-- What is known of the files: a path counts by its elements. -/
abbrev Files := Store (List CString) ℕ Byte

/-- What is known after a call that returns. -/
def Files.after (A : Files) : FileEvent → Files
  | .create path (.ok f) => A.setName (elements path) f
  | .find path (.ok f) => A.setName (elements path) f
  | .read f _ offset (.ok bs) => A.setFile f ((A.file f).learn offset.toNat bs)
  | .write f buf offset (.ok _) =>
    A.setFile f (((A.file f).learn offset.toNat buf).extend (offset.toNat + buf.length))
  | .write f buf offset (.error _) =>
    A.setFile f (((A.file f).forget offset.toNat (offset.toNat + buf.length)).extend
      (offset.toNat + buf.length))
  | .resize f size => A.setFile f ((A.file f).resize size.toNat)
  | _ => A

/-- What is known after a run, when `A` is known to begin with. -/
def told (A : Files) (h : List (Move Fs FileEvent)) : Files := (h.map Move.label).foldl Files.after A

/-- What a read of a file returns, by what is known of the file. -/
structure ReadAnswer (v : View Byte) (count offset : Word) (r : Except ℤ (List Byte)) : Prop where
  length : ∀ n bs, v.size = some n → r = .ok bs → bs.length = min count.toNat (n - offset.toNat)
  bytes : ∀ bs, r = .ok bs → ∀ k (hk : k < bs.length) x, v.byte (offset.toNat + k) = some x → bs[k] = x
  found : ∀ n, v.size = some n →
    (∀ p, offset.toNat ≤ p → p < min (offset.toNat + count.toNat) n → v.byte p ≠ none) → ∃ bs, r = .ok bs

/-- The result of a call agrees with what is known. A new file is none that is known. -/
def Files.Answers (A : Files) : FileEvent → Prop
  | .create path r => (∀ f, A.name (elements path) = some f → r = .error (-eFileExists)) ∧
      ∀ f, r = .ok f → (∀ p, A.name (elements p) ≠ some f) ∧ A.file f = .unknown
  | .find path r => ∀ f, A.name (elements path) = some f → r = .ok f
  | .read f count offset r => ReadAnswer (A.file f) count offset r
  | .write _ buf _ r => ∀ n, r = .ok n → n = buf.length
  | _ => True

/-- The condition on a call: offsets and sizes are not too large for a file. -/
def StoreGuard (s : Fs) : FileEvent → Prop
  | .create path _ => CreateSound s.content path
  | .read f _ offset _ => (fileSize s.content f).toNat ≤ maxFileSize ∧ offset.toNat < 2 ^ 31
  | .write f buf offset _ =>
    (fileSize s.content f).toNat ≤ maxFileSize ∧ offset.toNat + buf.length ≤ maxFileSize
  | .resize _ size => size.toNat ≤ maxFileSize
  | _ => True

/-- What is known is so. -/
structure Describes (A : Files) (c : ℕ → Byte) : Prop where
  name : ∀ path f, A.name (elements path) = some f → Leads c path f
  size : ∀ f n, (A.file f).size = some n → Regular c f ∧ (fileSize c f).toNat = n
  byte : ∀ f p x, (A.file f).byte p = some x → Regular c f ∧ HasByte c f p x

/-- A well-formed disk of which `A` is known. -/
def StoreStart (A : Files) (s : Fs) : Prop := FileStart s ∧ Describes A s.content

variable {A : Files} {c c' : ℕ → Byte} {K : Set Word} {E F : Set ℕ} {len : ℕ → ℕ} {s t : Fs}
  {d e f g i j k m n p w₀ w₁ lo hi : ℕ} {data : ℕ → Byte} {count offset stop w : Word} {x : Byte}
  {bs buf : List Byte} {name path q : CString} {v : View Byte}

/-! ### What stays known -/

lemma Spares.isRegular (h : Spares E c c') (hf : Regular c f) : Regular c' f := by
  obtain ⟨path, hl⟩ := hf.1
  exact ⟨(h.leads path f hl).reachable, h.regular f hf⟩

/-- A call that leaves the directories alone. -/
lemma Quiet.spares (hq : Quiet K F c c') (h : Wf c F)
    (hsizes : ∀ g ∈ F, g ∉ E → fileSize c' g = fileSize c g)
    (hbytes : ∀ g ∈ F, ¬IsDir c g → g ∉ E → ∀ p x, HasByte c g p x → HasByte c' g p x) :
    Spares E c c' where
  leads _ _ hl := hq.leads h hl
  regular _ hf hdir := hf.2 ((hq.kept.isDir (h.reachable_mem hf.1)).mp hdir)
  size f hf hE := hsizes f (h.reachable_mem hf.1) hE
  byte f hf hE p x hb := hbytes f (h.reachable_mem hf.1) hf.2 hE p x hb

namespace Describes

lemma unknown (c : ℕ → Byte) : Describes .unknown c :=
  ⟨fun _ _ h => (by cases h), fun _ _ h => (by cases h), fun _ _ _ h => (by cases h)⟩

lemma spared (h : Describes A c) (hs : Spares ∅ c c') : Describes A c' where
  name path f hf := hs.leads path f (h.name path f hf)
  size f n hn := by
    obtain ⟨hf, hsize⟩ := h.size f n hn
    refine ⟨hs.isRegular hf, ?_⟩
    rw [hs.size f hf (Set.notMem_empty f)]
    exact hsize
  byte f p x hx := by
    obtain ⟨hf, hb⟩ := h.byte f p x hx
    exact ⟨hs.isRegular hf, hs.byte f hf (Set.notMem_empty f) p x hb⟩

lemma setName (h : Describes A c) (hl : Leads c path f) : Describes (A.setName (elements path) f) c where
  name q g hg := by
    rcases Store.setName_name hg with ⟨heq, rfl⟩ | hold
    · unfold Leads
      rw [heq]
      exact hl
    · exact h.name q g hold
  size := h.size
  byte := h.byte

/-- One file changes, and what is to be known of it is so. -/
lemma setFile (h : Describes A c) (hs : Spares {f} c c') (hf : Regular c f)
    (hsize : ∀ n, v.size = some n → (fileSize c' f).toNat = n)
    (hbyte : ∀ p x, v.byte p = some x → HasByte c' f p x) : Describes (A.setFile f v) c' where
  name path g hg := hs.leads path g (h.name path g hg)
  size g n hn := by
    by_cases hgf : g = f
    · subst hgf
      rw [Store.setFile_self] at hn
      exact ⟨hs.isRegular hf, hsize n hn⟩
    · rw [Store.setFile_ne hgf] at hn
      obtain ⟨hg, hold⟩ := h.size g n hn
      refine ⟨hs.isRegular hg, ?_⟩
      rw [hs.size g hg hgf]
      exact hold
  byte g p x hx := by
    by_cases hgf : g = f
    · subst hgf
      rw [Store.setFile_self] at hx
      exact ⟨hs.isRegular hf, hbyte p x hx⟩
    · rw [Store.setFile_ne hgf] at hx
      obtain ⟨hg, hb⟩ := h.byte g p x hx
      exact ⟨hs.isRegular hg, hs.byte g hg hgf p x hb⟩

/-- Two paths that are known to lead to one file are the same. -/
lemma inj (h : Describes A c) (hw : Wf c F) (hp : A.name (elements path) = some f)
    (hq : A.name (elements q) = some f) : elements path = elements q := by
  obtain ⟨d, hr⟩ := h.name path f hp
  obtain ⟨d', hr'⟩ := h.name q f hq
  exact hw.reaches_unique (fun _ hx => ne_nil_of_mem_elements hx) (fun _ hx => ne_nil_of_mem_elements hx) hr hr'

end Describes

/-! ### Reads -/

section Steps

variable (h : Wf s.content F) (hd : Describes A s.content)
include h hd

lemma Describes.read {r : Except ℤ (List Byte)} (hf : Regular s.content f)
    (hsize : (fileSize s.content f).toNat ≤ maxFileSize) (ho : offset.toNat < 2 ^ 31)
    (hrun : fileRead f count offset s = .ok r t) :
    Describes (A.after (.read f count offset r)) t.content ∧ ReadAnswer (A.file f) count offset r := by
  have hmem := h.reachable_mem hf.1
  have hsmall := small_of_le_maxFileSize hsize
  have hq := (fileRead_keepsQuiet (K := Set.univ) hmem count offset s.content s (.refl h)).of_ok hrun
  have hread := (h.toTree.fileRead_sat hmem count offset (fun hdir => absurd hdir hf.2) ho (by omega)
    rfl).of_ok hrun
  have hspares : ∀ {m : ℕ}, Passed F (dirLen s.content) f (offset.toNat / 4096) m 0 0 (fun _ => 0)
      (fileSize s.content f) s.content t.content → Spares ∅ s.content t.content := by
    intro m hp
    apply hq.spares h
    · intro g hg _
      by_cases hgf : g = f
      · rw [hgf, hp.size]
      · exact hp.sizes g hg hgf
    · exact fun g hg hreg _ p x hb => hp.hasByte hmem (Nat.zero_le _) hg hreg
        (fun hand => absurd hand.2.2 (Nat.not_lt_zero p)) hb
  rcases hread with ⟨bs, rfl, hbs, hp⟩ | ⟨r', j, rfl, hj, hlt, hrefused, hp⟩
  · have hs := hspares hp
    have hlen : bs.length = readStop s.content f count offset - offset.toNat := hbs.1
    have hkeep := hd.spared hs
    have hall : Spares {f} s.content t.content :=
      ⟨hs.leads, hs.regular, fun g hg _ => hs.size g hg (Set.notMem_empty g),
        fun g hg _ => hs.byte g hg (Set.notMem_empty g)⟩
    refine ⟨hd.setFile hall hf ?_ ?_, ?_, ?_, ?_⟩
    · exact fun n hn => (hkeep.size f n hn).2
    · intro p x hx
      rcases View.learn_byte hx with ⟨i, hi, rfl, rfl⟩ | ⟨-, hold⟩
      · exact hp.hasByte_read hmem hf.2 hbs hi
      · exact (hkeep.byte f p x hold).2
    · rintro n bs' hn ⟨⟩
      have hn := (hd.size f n hn).2
      unfold readStop at hlen
      omega
    · rintro bs' ⟨⟩ k hk x hx
      have hnew := hp.hasByte_read hmem hf.2 hbs hk
      have hold := (hkeep.byte f _ x hx).2
      exact hnew.byte.symm.trans hold.byte
    · exact fun _ _ _ => ⟨bs, rfl⟩
  · refine ⟨hd.spared (hspares hp), ?_, ?_, ?_⟩
    · intro n bs _ hr
      cases hr
    · intro bs hr
      cases hr
    · intro n hn hall
      have hn := (hd.size f n hn).2
      -- the first position of the block that has been refused
      have hstop : max offset.toNat (4096 * j) < readStop s.content f count offset := by
        unfold passedTo ceilBlocks at hlt
        split at hlt
        · omega
        · omega
      obtain ⟨x, hx⟩ := Option.ne_none_iff_exists'.mp (hall (max offset.toNat (4096 * j)) (by omega) (by
        unfold readStop at hstop
        omega))
      have hb := (hd.byte f _ x hx).2
      exact absurd hrefused (not_refused_of_hasByte hb (by omega))

lemma Describes.write {r : Except ℤ ℕ} (hf : Regular s.content f)
    (hsize : (fileSize s.content f).toNat ≤ maxFileSize) (hstop : offset.toNat + buf.length ≤ maxFileSize)
    (hrun : fileWrite f buf offset s = .ok r t) :
    Describes (A.after (.write f buf offset r)) t.content ∧ ∀ n, r = .ok n → n = buf.length := by
  have hmem := h.reachable_mem hf.1
  have hsmall := small_of_le_maxFileSize hsize
  have hsmall' := small_of_le_maxFileSize hstop
  have hto : (BitVec.ofNat 32 (offset.toNat + buf.length)).toNat = offset.toNat + buf.length := by
    rw [BitVec.toNat_ofNat, Nat.mod_eq_of_lt (by omega)]
  have hguard : ¬Underruns offset (writeStop buf offset) := fun hu => by
    have hlarge := hu.1
    omega
  have hq := (h.fileWrite_quiet (K := Set.univ) hmem hf.2 (by omega) hguard (fun _ => Set.mem_univ _)).of_ok
    hrun
  have hwrite := (h.toTree.fileWrite_sat hmem (fun hdir => absurd hdir hf.2) buf offset _ rfl hto
    (by omega) (by omega) rfl).of_ok hrun
  rw [hto] at hwrite
  -- the size and the bytes that are not written, wherever the loop has ended
  have hcommon : ∀ {m hi : ℕ}, hi ≤ offset.toNat + buf.length →
      Passed F (dirLen s.content) f (offset.toNat / 4096) m offset.toNat hi
        (fun p => buf.getD (p - offset.toNat) 0)
        (sizeAfter s.content f (BitVec.ofNat 32 (offset.toNat + buf.length))) s.content t.content →
      Spares {f} s.content t.content ∧
        (fileSize t.content f).toNat = max (fileSize s.content f).toNat (offset.toNat + buf.length) ∧
        ∀ p x, ¬(offset.toNat ≤ p ∧ p < offset.toNat + buf.length) → HasByte s.content f p x →
          HasByte t.content f p x := by
    intro m hi hhi hp
    refine ⟨hq.spares h ?_ ?_, ?_, ?_⟩
    · exact fun g hg hne => hp.sizes g hg hne
    · exact fun g hg hreg hne p x hb => hp.hasByte hmem (by omega) hg hreg (fun hand => hne hand.1) hb
    · rw [hp.size]
      unfold sizeAfter
      split
      · rename_i hlt
        have hlt : (fileSize s.content f).toNat <
          (BitVec.ofNat 32 (offset.toNat + buf.length)).toNat := hlt
        omega
      · rename_i hge
        have hge : ¬(fileSize s.content f).toNat <
          (BitVec.ofNat 32 (offset.toNat + buf.length)).toNat := hge
        omega
    · exact fun p x hout hb => hp.hasByte hmem (by omega) hmem hf.2
        (fun hand => hout ⟨hand.2.1, by omega⟩) hb
  have hsizes : ∀ (v : View Byte), v.size = (A.file f).size →
      (fileSize t.content f).toNat = max (fileSize s.content f).toNat (offset.toNat + buf.length) →
      ∀ n, (v.extend (offset.toNat + buf.length)).size = some n → (fileSize t.content f).toNat = n := by
    intro v hv hmax n hn
    obtain ⟨m, hm, rfl⟩ := View.extend_size hn
    rw [hv] at hm
    rw [hmax, (hd.size f m hm).2]
  rcases hwrite with ⟨rfl, hp⟩ | ⟨r', j, hi, rfl, -, -, -, hhi, hp⟩
  · obtain ⟨hs, hmax, hrest⟩ := hcommon le_rfl hp
    refine ⟨hd.setFile hs hf (hsizes _ rfl hmax) ?_, fun n hn => (Except.ok.inj hn).symm⟩
    intro p x hx
    rcases View.learn_byte hx with ⟨i, hi, rfl, rfl⟩ | ⟨hout, hold⟩
    · have hnew := hp.hasByte_written (Nat.le_add_right offset.toNat i) (by omega)
      rw [Nat.add_sub_cancel_left, List.getD_eq_getElem?_getD, List.getElem?_eq_getElem hi] at hnew
      exact hnew
    · exact hrest p x hout (hd.byte f p x hold).2
  · obtain ⟨hs, hmax, hrest⟩ := hcommon hhi hp
    refine ⟨hd.setFile hs hf (hsizes _ rfl hmax) ?_, fun n hn => by cases hn⟩
    intro p x hx
    obtain ⟨hout, hold⟩ := View.forget_byte hx
    exact hrest p x hout (hd.byte f p x hold).2

lemma Describes.resize (hf : Regular s.content f) (hsize : w.toNat ≤ maxFileSize)
    (hrun : fileSetSize f w s = .ok () t) : Describes (A.after (.resize f w)) t.content := by
  have hmem := h.reachable_mem hf.1
  have hq := (h.fileSetSize_quiet (K := Set.univ) hmem hf.2 (Set.mem_univ w)).of_ok hrun
  have ht := (h.toTree.fileSetSize_sat hmem (noEntries_of_reg hf.2) w rfl).of_ok hrun
  have hsized := h.toTree.sized hmem (noEntries_of_reg hf.2) w
  rw [ht] at hq ⊢
  have hs : Spares {f} s.content (Fs.sized s.content f w) := by
    apply hq.spares h
    · exact fun g hg hne => hsized.sizes g hg hne
    · exact fun g hg hreg hne p x hb => h.toTree.hasByte_sized hmem (noEntries_of_reg hf.2) hsize hg hreg
        (fun heq => absurd heq hne) hb
  apply hd.setFile hs hf
  · rintro n ⟨⟩
    rw [hsized.size]
  · intro p x hx
    obtain ⟨hlt, hold⟩ := View.resize_byte hx
    exact h.toTree.hasByte_sized hmem (noEntries_of_reg hf.2) hsize hmem hf.2 (fun _ => hlt) (hd.byte f p x hold).2

end Steps

/-! ### New files -/

/-- No path has led to the file that is created. -/
lemma Chosen.not_reachable (hc : Chosen F c d e c') (h : Wf c F) (hd : d ∈ F) (hdir : IsDir c d) :
    ¬Reachable c e := by
  rintro ⟨path, g, hr⟩
  have hnames : ∀ x ∈ elements path, x ≠ [] := fun _ hx => ne_nil_of_mem_elements hx
  rcases List.eq_nil_or_concat (elements path) with hnil | ⟨front, y, heq⟩
  · rw [hnil] at hr
    cases hr
    have hbehind := hc.behind
    unfold rootAddr at hbehind
    omega
  · rw [List.concat_eq_append] at heq
    rw [heq] at hr hnames
    obtain ⟨dir, hreach, hisDir, hnamed⟩ := hr.snoc
    have hg := h.reaches_mem h.root (fun x hx => hnames x (List.mem_append_left _ hx)) hreach
    obtain ⟨hentry, hname⟩ := named_entry hnamed
    rcases hc.entry_ne hd hdir hg hisDir hentry with hne | ⟨-, hfree⟩
    · exact hne rfl
    · -- a free entry has no name
      have hzero := (freeEntry_entry hfree).2
      have hy := hnames y (List.mem_append_right _ List.mem_cons_self)
      cases y with
      | nil => exact hy rfl
      | cons z zs =>
        unfold nameIs at hname
        rw [hzero, Bool.and_eq_true, decide_eq_true_eq] at hname
        exact z.2 hname.1.symm

/-- What `dir_alloc_file` leaves of the regular files. -/
lemma Wf.hasByte_allocates (h : Wf c F) (hd : d ∈ F) (halloc : Allocates F c d (.ok e) c')
    (hg : g ∈ F) (hreg : ¬IsDir c g) (hb : HasByte c g p x) : HasByte c' g p x := by
  cases halloc with
  | found => exact hb
  | grown hfree hlen hgets =>
    have hr : Resized F (dirLen c) d (fileSize c d + 4096) c (lengthened c d) :=
      h.toTree.resized hd (fileSize c d + 4096)
    have hreg' : ¬IsDir (lengthened c d) g := fun hdir => hreg ((hr.kept.isDir hg).mp hdir)
    cases hgets with
    | got _ _ hfilled => exact hfilled.hasByte hg hreg' (hr.hasByte h.toTree hd hg hreg hb)

lemma Wf.spares_lengthened (h : Wf c F) (hd : d ∈ F) (hlen : dirLen c d = maxLen) (hdir : IsDir c d) :
    Spares ∅ c (lengthened c d) := by
  have hr : Resized F (dirLen c) d (fileSize c d + 4096) c (lengthened c d) :=
    h.toTree.resized hd (fileSize c d + 4096)
  have hne : ∀ {g : ℕ}, Regular c g → g ≠ d := by
    rintro g hg rfl
    exact hg.2 hdir
  constructor
  · exact fun path f hl => h.leads_lengthened hd hlen hdir hl
  · exact fun g hg hdir' => hg.2 ((hr.kept.isDir (h.reachable_mem hg.1)).mp hdir')
  · exact fun g hg _ => hr.sizes g (h.reachable_mem hg.1) (hne hg)
  · exact fun g hg _ p x hb => hr.hasByte h.toTree hd (h.reachable_mem hg.1) hg.2 hb

lemma Wf.spares_created (h : Wf c F) (hd : d ∈ F) (hdir : IsDir c d) (hname : name.length < maxnamelen)
    (hmissing : Missing c d name) (halloc : Allocates F c d (.ok e) c') :
    Spares ∅ c (withName c' e name) := by
  have hc := h.chosen hd hdir halloc
  have hne : ∀ {g : ℕ}, Regular c g → g ≠ d := by
    rintro g hg rfl
    exact hg.2 hdir
  constructor
  · intro path f hl
    apply h.leads_of_named _ _ hl
    · exact fun g hg hdir' => (hc.isDir_named hname hg).mpr hdir'
    · exact fun g hg hdir' y i hy hnil hnamed =>
        hc.named_named h hname hd hdir hmissing hg hdir' hy hnil hnamed
  · exact fun g hg hdir' => hg.2 ((hc.isDir_named hname (h.reachable_mem hg.1)).mp hdir')
  · intro g hg _
    have hmem := h.reachable_mem hg.1
    rw [hc.size_named hname hmem, hc.sizes g hmem (hne hg)]
  · intro g hg _ p x hb
    have hmem := h.reachable_mem hg.1
    exact hc.hasByte hd hdir hname hmem hg.2 (h.hasByte_allocates hd halloc hmem hg.2 hb)

lemma Describes.create {r : Except ℤ ℕ} (hd : Describes A c) (h : Wf c F) (hsound : CreateSound c path)
    (hc : Creates F c path r c') :
    Describes (A.after (.create path r)) c' ∧ A.Answers (.create path r) := by
  have hknown : ∀ {q : ℤ × Option (ℕ × CString)},
      walkAt c 0 rootAddr (components (skipSlash path)) = .error q →
        ∀ f, A.name (elements path) = some f → r = .error (-eFileExists) := by
    intro q hwalk f hf
    obtain ⟨d, hok⟩ := (hd.name path f hf).walkAt
    rw [hok] at hwalk
    cases hwalk
  cases hc with
  | present hwalk => exact ⟨hd, fun _ _ => rfl, fun _ hr => by cases hr⟩
  | unreached hwalk => exact ⟨hd, hknown hwalk, fun _ hr => by cases hr⟩
  | refused hwalk halloc =>
    refine ⟨?_, hknown hwalk, fun _ hr => by cases hr⟩
    obtain ⟨hmem, hdir, -, -⟩ := h.walkAt_parent 0 h.root
      (ne_nil_of_mem_components (noSlash_skipSlash path)) hwalk
    cases halloc with
    | large => exact hd
    | grown hfree hlen hgets =>
      cases hgets with
      | inval hmax => exact hd.spared (h.spares_lengthened hmem (Nat.le_antisymm hlen hmax) hdir)
      | full hmax hextra hfull =>
        rename_i d _
        have hroom := (hsound _ _ _ hwalk).2 hfree hmax
        have hr := h.toTree.resized hmem (fileSize c d + 4096)
        have hextra' := hr.extra_eq hmem (m := dirLen c d)
        have hfull' := hr.freeCount_eq
        unfold lengthened at hextra hfull
        omega
  | @created r₀ d e name c' hwalk halloc =>
    obtain ⟨-, front, dir, hnames, hreach, hdir, hshort, hlook⟩ := walkAt_missing hwalk
    have hne := ne_nil_of_mem_components (noSlash_skipSlash path)
    have hfront : ∀ y ∈ front, y ≠ [] := fun y hy => hne y (by
      rw [hnames]
      exact List.mem_append_left _ hy)
    have hmem := h.reaches_mem h.root hfront hreach
    have hmissing := missing_of_lookupAt hlook
    have hchosen := h.chosen hmem hdir halloc
    have hnew := hchosen.not_reachable h hmem hdir
    have hleads : Leads (withName c' e name) path e := by
      apply leads_of_walkAt (d := d)
      rw [hnames, hchosen.walk_new h hshort hmem hdir hmissing hfront hreach []]
      rfl
    refine ⟨(hd.spared (h.spares_created hmem hdir hshort hmissing halloc)).setName hleads, hknown hwalk, ?_⟩
    rintro f ⟨⟩
    constructor
    · exact fun q hq => hnew (hd.name q e hq).reachable
    · apply View.ext
      · exact Option.eq_none_iff_forall_ne_some.mpr (fun n hn => hnew (hd.size e n hn).1.1)
      · funext p
        exact Option.eq_none_iff_forall_ne_some.mpr (fun y hy => hnew (hd.byte e p y hy).1.1)

/-! ### Runs -/

/-- `file_open` finds the file that the path leads to. -/
lemma Describes.find {r : Except ℤ ℕ} (hd : Describes A s.content) (h : Wf s.content F)
    (hrun : fileOpen path s = .ok r t) :
    Describes (A.after (.find path r)) t.content ∧ A.Answers (.find path r) := by
  have hsat : Sat (fileOpen path) s (fun r t => t.content = s.content ∧
      r = outcome (walkAt s.content 0 rootAddr (components (skipSlash path)))) Anyhow := by
    unfold fileOpen
    rw [sat_bind]
    refine (h.walkPath_sat path rfl).mono ?_ (fun _ _ _ => trivial)
    rintro r u ⟨rfl, hu⟩
    rcases walkAt s.content 0 rootAddr (components (skipSlash path)) with ⟨r, p⟩ | ⟨d, f⟩
    · exact sat_pure.mpr ⟨hu, rfl⟩
    · exact sat_pure.mpr ⟨hu, rfl⟩
  obtain ⟨ht, hr⟩ := hsat.of_ok hrun
  rw [ht]
  have hanswer : A.Answers (.find path r) := by
    intro f hf
    obtain ⟨d, hwalk⟩ := (hd.name path f hf).walkAt
    rw [hr, hwalk]
    rfl
  refine ⟨?_, hanswer⟩
  cases hwalk : walkAt s.content 0 rootAddr (components (skipSlash path)) with
  | error q =>
    rw [hwalk] at hr
    obtain rfl : r = .error q.1 := hr
    exact hd
  | ok q =>
    rw [hwalk] at hr
    obtain rfl : r = .ok q.2 := hr
    exact hd.setName (leads_of_walkAt hwalk)

/-- One call: what is known stays true, and the result agrees with it. -/
lemma Describes.step {ev : FileEvent} (hd : Describes A s.content) (h : Wf s.content F)
    (hg : StoreGuard s ev) (hstep : FileStep s ev t) :
    Describes (A.after ev) t.content ∧ A.Answers ev := by
  cases hstep with
  | create hrun => exact hd.create h hg ((h.fileCreate_sat _ rfl).of_ok hrun)
  | find hrun => exact hd.find h hrun
  | read hf hrun => exact hd.read h hf hg.1 hg.2 hrun
  | write hf hbuf hrun => exact hd.write h hf hg.1 hg.2 hrun
  | resize hf hrun => exact ⟨hd.resize h hf hg hrun, trivial⟩
  | flush hf hrun =>
    refine ⟨?_, trivial⟩
    rw [(h.fileFlush_looks (h.reachable_mem hf.1)).of_ok hrun]
    exact hd

/-- The condition keeps the disk well-formed, too. -/
lemma StoreGuard.blocks {ev : FileEvent} (hg : StoreGuard s ev) : BlocksGuard s ev := by
  cases ev with
  | create path r => exact hg
  | write f buf offset r =>
    rintro ⟨hlarge, -⟩
    have hsmall := small_of_le_maxFileSize hg.2
    omega
  | find | read | resize | flush => trivial

lemma told_concat (A : Files) (h : List (Move Fs FileEvent)) (m : Move Fs FileEvent) :
    told A (h ++ [m]) = (told A h).after m.label := by
  unfold told
  rw [List.map_append, List.foldl_append]
  rfl

lemma describes_of_run {h : List (Move Fs FileEvent)} (hr : Run (StoreStart A) FileStep h s)
    (hg : ∀ m ∈ h, StoreGuard m.pre m.label) : StoreStart (told A h) s := by
  refine hr.induct hg (fun h s => StoreStart (told A h) s) (fun _ hs => hs) ?_
  rintro h s ev t ⟨⟨F, hw⟩, hd⟩ hguard hstep
  obtain ⟨F', -, hw'⟩ := hw.step hguard.blocks hstep
  rw [told_concat]
  exact ⟨⟨F', hw'⟩, (hd.step hw hguard hstep).1⟩

/-- In every run, what has been known of the files and what the calls have told of them is so at the end,
no two paths have led to one file, and every result agrees with what was known before the call. -/
theorem store_of_run {h : List (Move Fs FileEvent)} (hr : Run (StoreStart A) FileStep h s)
    (hg : ∀ m ∈ h, StoreGuard m.pre m.label) : Describes (told A h) s.content ∧
      (∀ p q f, (told A h).name (elements p) = some f → (told A h).name (elements q) = some f →
        elements p = elements q) ∧
      ∀ h₁ m h₂, h = h₁ ++ m :: h₂ → (told A h₁).Answers m.label := by
  obtain ⟨⟨F, hw⟩, hd⟩ := describes_of_run hr hg
  refine ⟨hd, fun p q f hp hq => hd.inj hw hp hq, ?_⟩
  rintro h₁ m h₂ rfl
  obtain ⟨hpre, hstep⟩ := hr.split
  obtain ⟨⟨F, hw⟩, hd⟩ := describes_of_run hpre (fun x hx => hg x (List.mem_append_left _ hx))
  exact (hd.step hw (hg m (List.mem_append_right _ List.mem_cons_self)) hstep).2

/-- The path of the regular file on the small disk. -/
def aPath : CString := [⟨0x61, by decide⟩]

lemma regular_small (hdir : IsDir c rootAddr) (hnamed : Named c rootAddr aPath 12288)
    (hreg : ¬IsDir c 12288) : Regular c 12288 := by
  have helements : elements aPath = [aPath] := by decide
  refine ⟨⟨aPath, rootAddr, ?_⟩, hreg⟩
  rw [helements]
  exact .down (by decide) hdir hnamed (.here _ _)

/-- A write to the file of the small disk and a read around it. -/
theorem store_of_write_run : ∃ h s, Run (StoreStart .unknown) FileStep h s ∧ h.length = 2 ∧
    ((told .unknown h).file 12288).byte 10 = some 7 ∧ Describes (told .unknown h) s.content ∧
      (∀ p q f, (told .unknown h).name (elements p) = some f →
        (told .unknown h).name (elements q) = some f → elements p = elements q) ∧
      ∀ h₁ m h₂, h = h₁ ++ m :: h₂ → (told .unknown h₁).Answers m.label := by
  have hwrite : fileWrite 12288 [7] 10 (onDisk smallDisk 20) =
      .ok (.ok 1) (after (fileWrite 12288 [7] 10) (onDisk smallDisk 20)) :=
    eq_ok_of_resultOf (by decide +kernel)
  have hread : fileRead 12288 3 9 (after (fileWrite 12288 [7] 10) (onDisk smallDisk 20)) =
      .ok (.ok [0, 7, 0]) (after (fileRead 12288 3 9)
        (after (fileWrite 12288 [7] 10) (onDisk smallDisk 20))) :=
    eq_ok_of_resultOf (by decide +kernel)
  have hstart : StoreStart .unknown (onDisk smallDisk 20) :=
    ⟨⟨smallFiles, by rw [content_onDisk]; exact wf_smallDisk⟩, .unknown _⟩
  have hreg : Regular (onDisk smallDisk 20).content 12288 := by
    rw [content_onDisk]
    refine regular_small ?_ ?_ ?_
    · unfold IsDir
      decide +kernel
    · unfold Named
      decide +kernel
    · unfold IsDir
      decide +kernel
  have hreg' : Regular (after (fileWrite 12288 [7] 10) (onDisk smallDisk 20)).content 12288 := by
    refine regular_small ?_ ?_ ?_
    · unfold IsDir
      decide +kernel
    · unfold Named
      decide +kernel
    · unfold IsDir
      decide +kernel
  have hr := ((Run.start hstart).next (FileStep.write hreg (by decide) hwrite)).next
    (FileStep.read hreg' hread)
  refine ⟨_, _, hr, rfl, by decide, store_of_run hr ?_⟩
  intro m hm
  rcases List.mem_append.mp hm with hm | hm
  · obtain rfl := List.mem_singleton.mp hm
    refine ⟨?_, by decide⟩
    change (fileSize (onDisk smallDisk 20).content 12288).toNat ≤ maxFileSize
    decide +kernel
  · obtain rfl := List.mem_singleton.mp hm
    refine ⟨?_, by decide⟩
    change (fileSize (after (fileWrite 12288 [7] 10) (onDisk smallDisk 20)).content 12288).toNat ≤ maxFileSize
    decide +kernel

end SistemasOperativos.Fs
