import SistemasOperativos.Fs.NewEntry

/-!
# A disk with a new file

A well-formed disk stays well-formed when `file_create` finds no blocks in the entry of the new file,
and none in the entries that come with it.
-/

namespace SistemasOperativos.Fs

open Library Kern

/-- An entry without blocks, which is no directory with a size. -/
structure Bare (c : ℕ → Byte) (e : ℕ) : Prop where
  direct : ∀ i < ndirect, ptr c e (.direct i) = 0
  indirect : indirectOf c e = 0
  size : IsDir c e → fileSize c e = 0

/-- What comes with a new entry of the directory `d` can be a file. -/
structure Harmless (c : ℕ → Byte) (d : ℕ) : Prop where
  new : Bare c (newEntry c d)
  stray : ∀ e ∈ strayEntries c d, c e ≠ 0 → Bare c e ∧ ∃ i < maxnamelen, c (e + i) = 0

/-- The new file, and the files that come with it. -/
def newFiles (c : ℕ → Byte) (d : ℕ) : Set ℕ :=
  {e | e = newEntry c d ∨ (e ∈ strayEntries c d ∧ c e ≠ 0)}

variable {c c' : ℕ → Byte} {F : Set ℕ} {d e f g i n : ℕ} {name : CString} {p q : Slot}

lemma Bare.congr (h : Bare c e) (hsame : ∀ k, 128 ≤ k → k < 180 → c' (e + k) = c (e + k)) : Bare c' e := by
  have hword : ∀ k, 128 ≤ k → k + 4 ≤ 180 → wordAt c' (e + k) = wordAt c (e + k) := by
    intro k hlo hhi
    apply wordAt_congr
    intro i hi hi'
    obtain ⟨m, rfl⟩ := Nat.exists_eq_add_of_le (Nat.le_trans (Nat.le_add_right e k) hi)
    exact hsame m (by omega) (by omega)
  have htype : fileType c' e = fileType c e := hword 132 (by decide) (by decide)
  have hsize : fileSize c' e = fileSize c e := hword 128 (by decide) (by decide)
  constructor
  · intro i hi
    have hzero := h.direct i hi
    unfold ndirect at hi
    unfold ptr at hzero ⊢
    rw [slotAddr_direct, Nat.add_assoc] at hzero ⊢
    rw [hword _ (by omega) (by omega)]
    exact hzero
  · have hzero := h.indirect
    unfold indirectOf fIndirect at hzero ⊢
    rw [hword 176 (by decide) (by decide)]
    exact hzero
  · intro hdir
    rw [hsize]
    apply h.size
    unfold IsDir at hdir ⊢
    rw [← htype]
    exact hdir

/-- No slot of such an entry holds a block. -/
lemma Bare.ptr_eq_zero (h : Bare c e) (hp : p.Valid c e) : ptr c e p = 0 := by
  cases p with
  | direct i => exact h.direct i hp
  | indirect => exact h.indirect
  | entry i => exact absurd h.indirect hp.2

lemma Bare.dirLen (h : Bare c e) (hdir : IsDir c e) : dirLen c e = 0 := by
  unfold Fs.dirLen
  rw [h.size hdir]
  rfl

namespace Chosen

variable (h : Chosen F c d e c') (hw : Wf c F) (hname : name.length < maxnamelen) (hd : d ∈ F)
  (hdir : IsDir c d)
include h hname

/-- The fields of the new files. -/
lemma same_newFile (hi : i ∈ newFiles c d) (hlo : 128 ≤ n) (hhi : n < 180) :
    withName c' e name (i + n) = c (i + n) := by
  rcases hi with heq | ⟨hi, -⟩
  · obtain rfl : i = e := heq.trans h.new.symm
    rw [withName_of_not hname, h.same n (by omega)]
    unfold NameOf maxnamelen
    omega
  · exact h.same_stray hname hi (by omega)

lemma bare_newFile (hharmless : Harmless c d) (hi : i ∈ newFiles c d) : Bare (withName c' e name) i := by
  have hbare : Bare c i := by
    rcases hi with rfl | ⟨hi, hne⟩
    · exact hharmless.new
    · exact (hharmless.stray i hi hne).1
  exact hbare.congr fun k hlo hhi => h.same_newFile hname hi hlo hhi

omit h in
lemma terminated_new : ∃ i < maxnamelen, withName c' e name (e + i) = 0 := by
  refine ⟨name.length, hname, ?_⟩
  have hlen : (name.map (fun y : CChar => y.val) ++ [0]).length = name.length + 1 := by
    rw [List.length_append, List.length_map, List.length_singleton]
  have hlt : name.length < (name.map (fun y : CChar => y.val) ++ [0]).length := by omega
  have hbyte := putBytes_of_lt (c := c') (a := e) hlt
  refine hbyte.trans ?_
  rw [List.getElem_append_right (by rw [List.length_map])]
  simp

/-- The directories are those that there were, and empty ones. -/
lemma dir_cases (hharmless : Harmless c d) (hg : g ∈ F ∪ newFiles c d)
    (hdir' : IsDir (withName c' e name) g) :
    (g ∈ F ∧ IsDir c g) ∨ dirLen (withName c' e name) g = 0 := by
  rcases hg with hg | hg
  · exact .inl ⟨hg, (h.isDir_named hname hg).mp hdir'⟩
  · exact .inr ((h.bare_newFile hname hharmless hg).dirLen hdir')

lemma ptr_cases (hharmless : Harmless c d) (hf : f ∈ F ∪ newFiles c d)
    (hp : p.Valid (withName c' e name) f) (hpos : ptr (withName c' e name) f p ≠ 0) :
    f ∈ F ∧ p.Valid c' f ∧ ptr (withName c' e name) f p = ptr c' f p := by
  by_cases hnew : f ∈ newFiles c d
  · exact absurd ((h.bare_newFile hname hharmless hnew).ptr_eq_zero hp) hpos
  · have hf := hf.resolve_right hnew
    have hvalid := (valid_of_indirectOf (h.indirectOf_named hname hf)).mp hp
    exact ⟨hf, hvalid, h.ptr_named hname hf hvalid⟩

include hw hd hdir

/-- The disk stays well-formed, with the new files. -/
lemma wf_named (hharmless : Harmless c d) : Wf (withName c' e name) (F ∪ newFiles c d) := by
  have hsuper := h.sameSuper hname
  have hcases := fun g => h.dir_cases hname hharmless (g := g)
  have hok : ∀ g ∈ F, IsDir c g → DirOk (withName c' e name) g := fun g hg hdir' =>
    h.dirOk_named hw hname hg hdir'
  have hdir'' := (h.isDir_named hname hd).mpr hdir
  constructor
  · constructor
    · exact hsuper.superOk h.tree.super
    · exact .inl hw.root
    · exact (h.isDir_named hname hw.root).mpr hw.rootDir
    · rintro f (hf | hf)
      · rcases hw.home f hf with rfl | ⟨g, hg, hdir', he⟩
        · exact .inl rfl
        · exact .inr ⟨g, .inl hg, (h.isDir_named hname hg).mpr hdir',
            (h.entry_named hw hname hd hdir hg hdir').mpr (.inl he)⟩
      · refine .inr ⟨d, .inl hd, hdir'', (h.entry_named hw hname hd hdir hd hdir).mpr (.inr ⟨rfl, ?_⟩)⟩
        rcases hf with heq | ⟨hf, -⟩
        · exact .inl (heq.trans h.new.symm)
        · exact .inr hf
    · intro g hg hdir' i hi hne
      rcases hcases g hg hdir' with ⟨hg, hdir'⟩ | hzero
      · rcases (h.entry_named hw hname hd hdir hg hdir').mp hi with hi | ⟨-, rfl | hi⟩
        · by_cases hie : i = e
          · exact .inr (.inl (hie.trans h.new))
          · left
            have hbyte := h.names i (h.kept.place.mpr (.inr ⟨g, hg, hdir', hi⟩)) hie 0 (by decide)
            have hbyte' := h.kept.names i (.inr ⟨g, hg, hdir', hi⟩) 0 (by decide)
            rw [Nat.add_zero] at hbyte hbyte'
            rw [withName_of_not hname hbyte, hbyte'] at hne
            exact hw.named g hg hdir' i hi hne
        · exact .inr (.inl h.new)
        · have hbyte := h.same_stray hname hi (n := 0) (by decide)
          rw [Nat.add_zero] at hbyte
          rw [hbyte] at hne
          exact .inr (.inr ⟨hi, hne⟩)
      · obtain ⟨n, hn, -⟩ := hi
        rw [hzero] at hn
        exact absurd hn (Nat.not_lt_zero n)
    · intro f hf
      by_cases hfe : f = e
      · rw [hfe]
        exact terminated_new hname
      · rcases hf with hf | heq | ⟨hf, hne⟩
        · obtain ⟨i, hi, hzero⟩ := hw.terminated f hf
          refine ⟨i, hi, ?_⟩
          rw [withName_of_not hname (h.names f (h.kept.place.mpr (hw.home f hf)) hfe i hi),
            h.kept.names f (hw.home f hf) i hi, hzero]
        · exact absurd (heq.trans h.new.symm) hfe
        · obtain ⟨i, hi, hzero⟩ := (hharmless.stray f hf hne).2
          unfold maxnamelen at hi
          exact ⟨i, hi, by rw [h.same_stray hname hf (by omega), hzero]⟩
    · intro f hf p hp hpos
      obtain ⟨hf, hvalid, heq⟩ := h.ptr_cases hname hharmless hf hp hpos
      rw [heq] at hpos ⊢
      rw [hsuper.nbitmap, hsuper.inUse]
      exact h.tree.slots f hf p hvalid hpos
    · intro f hf g hg p q hp hq hpos heq
      obtain ⟨hf, hvalid, hsame⟩ := h.ptr_cases hname hharmless hf hp hpos
      obtain ⟨hg, hvalid', hsame'⟩ := h.ptr_cases hname hharmless hg hq (heq ▸ hpos)
      rw [hsame] at hpos
      rw [hsame, hsame'] at heq
      exact h.tree.inj f hf g hg p q hvalid hvalid' hpos heq
    · intro g hg hdir' hlt
      rcases hcases g hg hdir' with ⟨hg, hdir'⟩ | hzero
      · have hbound := (hok g hg hdir').bound
        rcases (hok g hg hdir').has ndirect hlt (by decide) with hbad | hpos
        · exact absurd hbad (Nat.lt_irrefl _)
        · exact hpos
      · rw [hzero] at hlt
        exact absurd hlt (Nat.not_lt_zero _)
    · intro g hg hdir' n hn hmax
      rcases hcases g hg hdir' with ⟨hg, hdir'⟩ | hzero
      · exact (hok g hg hdir').present n hn hmax
      · rw [hzero] at hn
        exact absurd hn (Nat.not_lt_zero n)
  · intro g hg hdir'
    rcases hg with hg | hg
    · exact (hok g hg ((h.isDir_named hname hg).mp hdir')).whole
    · rw [(h.bare_newFile hname hharmless hg).size hdir']
      rfl
  · intro g hg hdir'
    rcases hcases g hg hdir' with ⟨hg, hdir'⟩ | hzero
    · exact (hok g hg hdir').bound
    · rw [hzero]
      exact Nat.zero_le _

end Chosen

end SistemasOperativos.Fs
