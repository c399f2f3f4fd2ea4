import SistemasOperativos.Fs.Full

/-!
# Calls that leave the directories alone

Reads, writes and new sizes of regular files keep the disk well-formed, with every directory as it
was.
-/

namespace SistemasOperativos.Fs

open Library Kern

/-- Bytes are moved at a negative offset for which there is a block, in front of that block. -/
def Underruns (offset stop : Word) : Prop :=
  2 ^ 31 ≤ offset.toNat ∧ offset < stop ∧ firstBlock offset = 0

/-- The disk is well-formed with the same files, its directories are the same, and a new size of a
file is one of `K`. -/
structure Quiet (K : Set Word) (F : Set ℕ) (c c' : ℕ → Byte) : Prop where
  wf : Wf c' F
  kept : Kept F (dirLen c) c c'
  sizes : ∀ d ∈ F, IsDir c d → fileSize c' d = fileSize c d
  grown : ∀ f ∈ F, fileSize c' f = fileSize c f ∨ fileSize c' f ∈ K

variable {c c' c'' : ℕ → Byte} {K : Set Word} {F : Set ℕ} {len len' : ℕ → ℕ} {s t : Fs} {a b d f g n : ℕ}
  {count offset stop pos w : Word} {buf : List Byte}

/-! ### Steps of the content -/

lemma Kept.len_congr (hk : Kept F len c c') (hlen : ∀ d ∈ F, IsDir c d → len' d = len d) :
    Kept F len' c c' where
  types := hk.types
  blocks d hd hdir n hn := hk.blocks d hd hdir n (by
    rw [← hlen d hd hdir]
    exact hn)
  names f hf := hk.names f (hf.imp id (fun ⟨d, hd, hdir, he⟩ => ⟨d, hd, hdir, by
    rw [← hlen d hd hdir]
    exact he⟩))

namespace Quiet

lemma of_tree (h : Wf c F) (ht : Tree c' F (dirLen c)) (hk : Kept F (dirLen c) c c')
    (hsizes : ∀ d ∈ F, IsDir c d → fileSize c' d = fileSize c d)
    (hgrown : ∀ f ∈ F, fileSize c' f = fileSize c f ∨ fileSize c' f ∈ K) : Quiet K F c c' :=
  ⟨h.of_tree ht hk hsizes, hk, hsizes, hgrown⟩

lemma refl (h : Wf c F) : Quiet K F c c := ⟨h, .refl F _ c, fun _ _ _ => rfl, fun _ _ => .inl rfl⟩

lemma dirLen_eq (h : Quiet K F c c') (hd : d ∈ F) (hdir : IsDir c d) : dirLen c' d = dirLen c d := by
  unfold dirLen
  rw [h.sizes d hd hdir]

lemma trans (h : Quiet K F c c') (h' : Quiet K F c' c'') : Quiet K F c c'' where
  wf := h'.wf
  kept := h.kept.trans (h'.kept.len_congr (fun d hd hdir =>
    (h.dirLen_eq hd ((h.kept.isDir hd).mp hdir)).symm))
  sizes d hd hdir := (h'.sizes d hd ((h.kept.isDir hd).mpr hdir)).trans (h.sizes d hd hdir)
  grown f hf := by
    rcases h'.grown f hf with heq | hmem
    · rw [heq]
      exact h.grown f hf
    · exact .inr hmem

lemma grown_mem (h : Quiet K F c c') (hf : f ∈ F) (hK : fileSize c f ∈ K) : fileSize c' f ∈ K := by
  rcases h.grown f hf with heq | hmem
  · rw [heq]
    exact hK
  · exact hmem

lemma grown_of (h : Quiet K F c' c'') (hf : f ∈ F) (hK : fileSize c' f = fileSize c f ∨ fileSize c' f ∈ K) :
    fileSize c'' f = fileSize c f ∨ fileSize c'' f ∈ K := by
  rcases h.grown f hf with heq | hmem
  · rw [heq]
    exact hK
  · exact .inr hmem

end Quiet

lemma Steady.quiet (h : Steady F (dirLen c) c c') (hw : Wf c F) : Quiet K F c c' :=
  .of_tree hw h.tree h.kept (fun d hd _ => h.sizes d hd) (fun f hf => .inl (h.sizes f hf))

/-- A step that gives a new size to a regular file only. -/
lemma Quiet.of_other (hw : Wf c F) (hreg : ¬IsDir c f) (ht : Tree c' F (dirLen c))
    (hk : Kept F (dirLen c) c c') (hsizes : ∀ g ∈ F, g ≠ f → fileSize c' g = fileSize c g)
    (hgrown : fileSize c' f = fileSize c f ∨ fileSize c' f ∈ K) : Quiet K F c c' := by
  apply Quiet.of_tree hw ht hk
  · intro d hd hdir
    apply hsizes d hd
    rintro rfl
    exact hreg hdir
  · intro g hg
    by_cases hgf : g = f
    · rw [hgf]
      exact hgrown
    · exact .inl (hsizes g hg hgf)

lemma Sized.quiet (h : Sized F (dirLen c) f w c c') (hw : Wf c F) (hreg : ¬IsDir c f) (hK : w ∈ K) :
    Quiet K F c c' :=
  .of_other hw hreg h.tree h.kept h.sizes (.inr (by rw [h.size]; exact hK))

/-! ### Calls that only look -/

/-- Nothing is asked of a call that stops the server. -/
abbrev Anyhow (_ : FsExit) (_ : Fs) : Prop := True

/-- A call that leaves the content as it is. -/
abbrev Looks {α : Type} (m : FsM α) : Prop := ∀ c, Keeps (fun s => s.content = c) Anyhow m

lemma bcRead_looks (b : ℕ) (h : (s.cache.pages b).isNone) :
    Sat (bcRead b) s (fun _ t => t.content = s.content) Anyhow := by
  unfold bcRead
  simp only [sat_bind, sat_get, sat_ite, sat_throw, sat_set]
  refine ⟨fun _ => trivial, fun _ => ⟨fun _ => trivial, fun _ => ⟨fun _ => trivial, fun _ => ?_⟩⟩⟩
  exact content_load (Option.isNone_iff_eq_none.mp h) _

lemma touchWith_looks (fuel b : ℕ) : Looks (touchWith fuel b) := by
  intro c
  induction fuel generalizing b with
  | zero =>
    intro s hs
    unfold touchWith
    simp only [sat_bind, sat_get, sat_ite, sat_throw, sat_pure]
    exact ⟨fun _ => trivial, fun _ => hs⟩
  | succ fuel ih =>
    intro s hs
    unfold touchWith
    simp only [sat_bind, sat_get, sat_ite, sat_throw, sat_pure]
    refine ⟨fun hnone => ?_, fun _ => hs⟩
    refine (bcRead_looks b hnone).post ?_
    intro _ t ht
    refine (ih (2 + b / 32768) t (ht.trans hs)).post ?_
    exact fun _ u hu => ⟨fun _ => trivial, fun _ => hu⟩

lemma get_looks : Looks (get : FsM Fs) := fun _ _ hs => sat_get.mpr hs

lemma loadByte_looks (a : ℕ) : Looks (loadByte a) := fun c =>
  (touchWith_looks 3 _ c).bind fun _ => (get_looks c).bind fun _ => .pure _

lemma loadBytes_looks (a n : ℕ) : Looks (loadBytes a n) := by
  intro c
  induction n generalizing a with
  | zero =>
    unfold loadBytes
    exact .pure _
  | succ n ih =>
    unfold loadBytes
    exact (loadByte_looks a c).bind fun _ => (ih (a + 1)).bind fun _ => .pure _

lemma loadWord_looks (a : ℕ) : Looks (loadWord a) := fun c =>
  (touchWith_looks 3 _ c).bind fun _ => (get_looks c).bind fun _ => .pure _

lemma flushBlock_looks (a : ℕ) : Looks (flushBlock a) := by
  intro c s hs
  unfold flushBlock
  simp only [sat_bind, sat_ite, sat_throw, sat_modify]
  exact ⟨fun _ => trivial, fun _ => (content_flush s _ _).trans hs⟩

lemma diskaddr_looks (b : ℕ) : Looks (diskaddr b) := by
  intro c s hs
  unfold diskaddr
  simp only [sat_bind, sat_get, sat_ite, sat_throw, sat_pure]
  exact ⟨fun _ => trivial, fun _ => hs⟩

lemma fsSync_looks : Looks fsSync := by
  intro c
  unfold fsSync
  apply (get_looks c).bind
  intro s
  apply Keeps.forM
  intro b _
  exact (diskaddr_looks b c).bind (fun a => flushBlock_looks a c)

/-! ### Calls that leave the directories alone -/

/-- A call that is quiet. -/
abbrev KeepsQuiet {α : Type} (K : Set Word) (F : Set ℕ) (m : FsM α) : Prop :=
  ∀ c, Keeps (fun s => Quiet K F c s.content) Anyhow m

section KeepsQuiet

variable {α β : Type}

lemma keepsQuiet_of {m : FsM α}
    (h : ∀ s, Wf s.content F → Sat m s (fun _ t => Quiet K F s.content t.content) Anyhow) :
    KeepsQuiet K F m := by
  intro c s hs
  refine (h s hs.wf).post ?_
  exact fun _ t ht => hs.trans ht

lemma Looks.keepsQuiet {m : FsM α} (h : Looks m) (K : Set Word) (F : Set ℕ) : KeepsQuiet K F m := by
  apply keepsQuiet_of
  intro s hs
  refine (h s.content s rfl).post ?_
  intro _ t ht
  rw [ht]
  exact .refl hs

lemma pure_keepsQuiet (x : α) : KeepsQuiet K F (pure x : FsM α) := fun _ => .pure x

lemma bind_keepsQuiet {m : FsM α} {g : α → FsM β} (h : KeepsQuiet K F m) (hg : ∀ x, KeepsQuiet K F (g x)) :
    KeepsQuiet K F (m >>= g) := fun c => (h c).bind (fun x => hg x c)

lemma ite_keepsQuiet {p : Prop} [Decidable p] {m m' : FsM α} (h : KeepsQuiet K F m)
    (h' : KeepsQuiet K F m') : KeepsQuiet K F (if p then m else m') := by
  split
  · exact h
  · exact h'

end KeepsQuiet

lemma Gets.quiet (h : Wf c F) {r : Except ℤ ℕ} (hgets : Gets F (dirLen c) f n c r c') : Quiet K F c c' := by
  cases hgets with
  | inval => exact .refl h
  | full => exact .refl h
  | got _ _ hq => exact hq.toSteady.quiet h

lemma getBlock_keepsQuiet (hf : f ∈ F) (n : ℕ) : KeepsQuiet K F (fileGetBlock f n) := by
  apply keepsQuiet_of
  intro s hs
  refine (hs.toTree.getBlock_sat hf n rfl).mono ?_ (fun _ _ _ => trivial)
  exact fun r t hgets => hgets.quiet hs

lemma readLoop_keepsQuiet (hf : f ∈ F) (stop : Word) (fuel : ℕ) (pos : Word) :
    KeepsQuiet K F (readLoop f stop fuel pos) := by
  induction fuel generalizing pos with
  | zero =>
    unfold readLoop
    exact pure_keepsQuiet _
  | succ fuel ih =>
    unfold readLoop
    apply ite_keepsQuiet
    · apply bind_keepsQuiet (getBlock_keepsQuiet hf _)
      rintro (r | blk)
      · exact pure_keepsQuiet _
      · apply bind_keepsQuiet ((loadBytes_looks _ _).keepsQuiet K F)
        intro bs
        apply bind_keepsQuiet (ih _)
        rintro (r | rest)
        · exact pure_keepsQuiet _
        · exact pure_keepsQuiet _
    · exact pure_keepsQuiet _

/-- `file_read` of any file, at any offset. -/
lemma fileRead_keepsQuiet (hf : f ∈ F) (count offset : Word) :
    KeepsQuiet K F (fileRead f count offset) := by
  unfold fileRead
  apply bind_keepsQuiet ((loadWord_looks _).keepsQuiet K F)
  intro size
  apply ite_keepsQuiet (pure_keepsQuiet _)
  exact readLoop_keepsQuiet hf _ _ _

lemma Wf.fileSetSize_quiet (h : Wf s.content F) (hf : f ∈ F) (hreg : ¬IsDir s.content f) (hK : w ∈ K) :
    Sat (fileSetSize f w) s (fun _ t => Quiet K F s.content t.content) Anyhow := by
  refine (h.toTree.fileSetSize_sat hf (noEntries_of_reg hreg) w rfl).mono ?_ (fun _ _ _ => trivial)
  intro _ t ht
  rw [ht]
  exact (h.toTree.sized hf (noEntries_of_reg hreg) w).quiet h hreg hK

lemma Wf.quiet_begun (h : Wf c F) (hf : f ∈ F) (hreg : ¬IsDir c f)
    (hK : fileSize c f < stop → stop ∈ K) : Quiet K F c (begun c f stop) := by
  obtain ⟨htree, hkept, hsizes⟩ := h.toTree.tree_begun hf (noEntries_of_reg hreg) stop
  refine .of_other h hreg htree hkept hsizes ?_
  unfold begun
  split
  · rename_i hlt
    right
    rw [(h.toTree.sized hf (noEntries_of_reg hreg) stop).size]
    exact hK hlt
  · exact .inl rfl

lemma Wf.fileFlush_looks (h : Wf s.content F) (hf : f ∈ F) :
    Sat (fileFlush f) s (fun _ t => t.content = s.content) Anyhow := by
  refine (fileFlush_sat h.super (fun n => h.blocksAt hf n)).mono ?_ (fun _ _ _ => trivial)
  exact fun _ t ht => ht

/-- A loop that has nothing to do. -/
lemma writeLoop_idle (h : ¬pos < stop) (f fuel : ℕ) (buf : List Byte) (s : Fs) :
    Sat (writeLoop f stop fuel pos buf) s (fun r t => r = .ok () ∧ t = s) NoMem := by
  cases fuel with
  | zero =>
    unfold writeLoop
    exact sat_pure.mpr ⟨rfl, rfl⟩
  | succ fuel =>
    unfold writeLoop
    rw [if_neg h]
    exact sat_pure.mpr ⟨rfl, rfl⟩

/-- A loop that asks for a block that no file has. -/
lemma writeLoop_inval (h : pos < stop) (hmax : maxLen ≤ firstBlock pos) {fuel : ℕ} (hfuel : fuel ≠ 0)
    (f : ℕ) (buf : List Byte) (s : Fs) :
    Sat (writeLoop f stop fuel pos buf) s (fun r t => r = .error (-eInval) ∧ t = s) NoMem := by
  obtain ⟨fuel, rfl⟩ := Nat.exists_eq_succ_of_ne_zero hfuel
  unfold writeLoop
  rw [if_pos h, sat_bind]
  refine (fileGetBlock_inval f hmax).post ?_
  rintro r t ⟨rfl, rfl⟩
  exact sat_pure.mpr ⟨rfl, rfl⟩

/-- The end of `file_write`. -/
lemma writeEnd_sat (r : Except ℤ Unit) (n : ℕ) (s : Fs) :
    Sat (match r with
      | .error r => return .error r
      | .ok _ => return .ok n : FsM (Except ℤ ℕ)) s (fun _ t => t = s) NoMem := by
  cases r with
  | error r => exact sat_pure.mpr rfl
  | ok u => exact sat_pure.mpr rfl

/-- `file_write`, at an offset that does not lead in front of a block. -/
lemma Wf.fileWrite_quiet (h : Wf s.content F) (hf : f ∈ F) (hreg : ¬IsDir s.content f)
    (hbuf : buf.length < 2 ^ 32) (hoffset : ¬Underruns offset (writeStop buf offset))
    (hK : fileSize s.content f < writeStop buf offset → writeStop buf offset ∈ K) :
    Sat (fileWrite f buf offset) s (fun _ t => Quiet K F s.content t.content) Anyhow := by
  have hbegun := h.quiet_begun hf hreg hK
  have hreg' : ¬IsDir (begun s.content f (writeStop buf offset)) f :=
    fun hdir => hreg ((hbegun.kept.isDir hf).mp hdir)
  apply h.toTree.fileWrite_begun hf (noEntries_of_reg hreg) rfl rfl (fun _ _ _ => trivial)
  intro u hu
  change u.content = begun s.content f (writeStop buf offset) at hu
  generalize begun s.content f (writeStop buf offset) = c at hbegun hreg' hu
  have hw := hbegun.wf
  have hstay : ∀ t : Fs, t = u → Quiet K F s.content t.content := by
    rintro t rfl
    rw [hu]
    exact hbegun
  by_cases hlt : offset < writeStop buf offset
  · have hstop := toNat_writeStop hbuf hlt
    by_cases hsmall : offset.toNat < 2 ^ 31
    · refine (hw.toTree.writeTail_sat hf (fun hdir => absurd hdir hreg') buf offset
        (writeStop buf offset) rfl hstop hsmall hu).mono ?_ (fun _ _ _ => trivial)
      have hpassed : ∀ {m lo hi : ℕ} {data : ℕ → Byte} {c' : ℕ → Byte},
          Passed F (dirLen c) f (offset.toNat / 4096) m lo hi data (fileSize c f) c c' →
            Quiet K F s.content c' :=
        fun hp => hbegun.trans (.of_other hw hreg' hp.tree hp.kept hp.sizes (.inl hp.size))
      rintro r t (⟨-, hp⟩ | ⟨r', j, hi, -, -, -, -, -, hp⟩)
      · exact hpassed hp
      · exact hpassed hp
    · have hlarge := Nat.not_lt.mp hsmall
      rcases firstBlock_of_large hlarge with hzero | hmax
      · exact absurd ⟨hlarge, hlt, hzero⟩ hoffset
      · have hne : buf.length ≠ 0 := by
          intro hnil
          have hlt : offset.toNat < (writeStop buf offset).toNat := hlt
          omega
        rw [sat_bind]
        refine (writeLoop_inval hlt hmax hne f buf u).mono ?_ (fun _ _ _ => trivial)
        rintro r t ⟨-, ht⟩
        refine (writeEnd_sat r buf.length t).mono ?_ (fun _ _ _ => trivial)
        exact fun _ v hv => hstay v (hv.trans ht)
  · rw [sat_bind]
    refine (writeLoop_idle hlt f buf.length buf u).mono ?_ (fun _ _ _ => trivial)
    rintro r t ⟨-, ht⟩
    refine (writeEnd_sat r buf.length t).mono ?_ (fun _ _ _ => trivial)
    exact fun _ v hv => hstay v (hv.trans ht)

end SistemasOperativos.Fs
