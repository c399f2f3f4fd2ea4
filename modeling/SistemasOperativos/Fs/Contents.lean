import SistemasOperativos.Fs.FileRuns

/-!
# The bytes that files hold

A position of a file whose block is there holds a byte. Reads, writes, new sizes and new files leave
the bytes of other positions, and every path leads where it has led.
-/

namespace SistemasOperativos.Fs

open Library Kern

/-- The path leads to `f`. -/
def Leads (c : ℕ → Byte) (path : CString) (f : ℕ) : Prop := ∃ d, Reaches c 0 rootAddr (elements path) d f

/-- Every path leads where it has led, and the regular files that are not in `E` have their sizes and
their bytes. -/
structure Spares (E : Set ℕ) (c c' : ℕ → Byte) : Prop where
  leads : ∀ path f, Leads c path f → Leads c' path f
  regular : ∀ f, Regular c f → ¬IsDir c' f
  size : ∀ f, Regular c f → f ∉ E → fileSize c' f = fileSize c f
  byte : ∀ f, Regular c f → f ∉ E → ∀ p x, HasByte c f p x → HasByte c' f p x

variable {c c' : ℕ → Byte} {K : Set Word} {E F : Set ℕ} {len : ℕ → ℕ} {s t : Fs}
  {d dir e f g i j m n p w₀ w₁ lo hi : ℕ} {data : ℕ → Byte} {w : Word} {x : Byte} {name path : CString}
  {names : List CString}

/-! ### Paths -/

lemma Leads.reachable (h : Leads c path f) : Reachable c f := ⟨path, h⟩

/-- What is named stays reachable when every directory keeps its names. -/
lemma Wf.reaches_of_named (h : Wf c F) (hdirs : ∀ d ∈ F, IsDir c d → IsDir c' d)
    (hnamed : ∀ d ∈ F, IsDir c d → ∀ x e, x.length < maxnamelen → x ≠ [] → Named c d x e → Named c' d x e)
    (hf : f ∈ F) (hnames : ∀ x ∈ names, x ≠ []) (hr : Reaches c dir f names d g) :
    Reaches c' dir f names d g := by
  induction hr with
  | here dir f => exact .here dir f
  | down hx hdir he hrest ih =>
    have hnil := hnames _ List.mem_cons_self
    have hmem := h.lookupAt_mem hf hdir hnil (lookupAt_ok.mpr he)
    refine .down hx (hdirs _ hf hdir) (hnamed _ hf hdir _ _ hx hnil he) (ih hmem ?_)
    exact fun x hx => hnames x (List.mem_cons_of_mem _ hx)

lemma Wf.leads_of_named (h : Wf c F) (hdirs : ∀ d ∈ F, IsDir c d → IsDir c' d)
    (hnamed : ∀ d ∈ F, IsDir c d → ∀ x e, x.length < maxnamelen → x ≠ [] → Named c d x e → Named c' d x e)
    (hl : Leads c path f) : Leads c' path f := by
  obtain ⟨d, hr⟩ := hl
  exact ⟨d, h.reaches_of_named hdirs hnamed h.root (fun _ hx => ne_nil_of_mem_elements hx) hr⟩

/-- A walk that ends at a file has been led there. -/
lemma reaches_of_walkAt (h : walkAt c dir f names = .ok (d, g)) : Reaches c dir f names d g := by
  induction names generalizing dir f with
  | nil =>
    obtain ⟨rfl, rfl⟩ := Prod.mk.inj (Except.ok.inj h)
    exact .here dir f
  | cons x rest ih =>
    by_cases hlong : maxnamelen ≤ x.length
    · rw [walkAt_long hlong] at h
      cases h
    have hshort := Nat.not_le.mp hlong
    by_cases hdir : IsDir c f
    · rw [walkAt_dir hshort hdir] at h
      cases hlook : lookupAt c f x with
      | error r =>
        rw [hlook] at h
        cases h
      | ok e =>
        rw [hlook] at h
        exact .down hshort hdir (lookupAt_ok.mp hlook) (ih h)
    · rw [walkAt_regular hshort hdir] at h
      cases h

lemma Leads.walkAt (h : Leads c path f) :
    ∃ d, walkAt c 0 rootAddr (components (skipSlash path)) = .ok (d, f) := by
  obtain ⟨d, hr⟩ := h
  refine ⟨d, ?_⟩
  rw [components_eq_elements (noSlash_skipSlash path), elements_skipSlash]
  have hwalk := walkAt_reaches hr []
  rw [List.append_nil] at hwalk
  exact hwalk

lemma leads_of_walkAt (h : walkAt c 0 rootAddr (components (skipSlash path)) = .ok (d, f)) :
    Leads c path f := by
  rw [components_eq_elements (noSlash_skipSlash path), elements_skipSlash] at h
  exact ⟨d, reaches_of_walkAt h⟩

lemma Quiet.leads (hq : Quiet K F c c') (h : Wf c F) (hl : Leads c path f) : Leads c' path f := by
  apply h.leads_of_named _ _ hl
  · exact fun d hd hdir => (hq.kept.isDir hd).mpr hdir
  · intro d hd hdir x e hx _ he
    rw [← lookupAt_ok] at he ⊢
    rw [hq.kept.lookupAt hd hdir (hq.sizes d hd hdir) hx]
    exact he

/-- The names of a directory of the greatest size stay when it gets a new size. -/
lemma Wf.leads_lengthened (h : Wf c F) (hd : d ∈ F) (hlen : dirLen c d = maxLen) (hdir : IsDir c d)
    (hl : Leads c path f) : Leads (lengthened c d) path f := by
  have hr : Resized F (dirLen c) d (fileSize c d + 4096) c (lengthened c d) :=
    h.toTree.resized hd (fileSize c d + 4096)
  have hnew := (h.dirLen_lengthened hd hlen hdir).1
  apply h.leads_of_named _ _ hl
  · exact fun g hg hdir => (hr.kept.isDir hg).mpr hdir
  · intro g hg hdir' x e hx _ he
    by_cases hgd : g = d
    · subst hgd
      have hentries : entries (lengthened c g) g = entries c g := by
        have hmin : min (dirLen (lengthened c g) g) maxLen = min (dirLen c g) maxLen := by omega
        unfold entries
        rw [hmin]
        apply entriesFrom_congr
        exact fun n _ hn => hr.kept.blocks g hg hdir n (by omega) (by omega)
      have hfind : (entries c g).find? (fun i => nameIs (lengthened c g) i x) =
          (entries c g).find? (fun i => nameIs c i x) := by
        apply List.find?_congr
        intro i hi
        exact hr.kept.nameIs (.inr ⟨g, hg, hdir, mem_entries.mp hi⟩) hx
      unfold Named at he ⊢
      rw [hentries, hfind]
      exact he
    · rw [← lookupAt_ok] at he ⊢
      rw [hr.kept.lookupAt hg hdir' (hr.sizes g hg hgd) hx]
      exact he

/-! ### What stands in the blocks -/

lemma Filled.hasByte (hq : Filled F len f n c c') (hg : g ∈ F) (hreg : ¬IsDir c g)
    (h : HasByte c g p x) : HasByte c' g p x := by
  by_cases hfn : g = f ∧ p / 4096 = n
  · obtain ⟨rfl, rfl⟩ := hfn
    rw [hq.idle h.present]
    exact h
  · exact h.congr (hq.others g hg _ h.lt hfn) (hq.data _ (h.dataBlock hg hreg))

/-- The blocks that a new size leaves. -/
lemma Tree.blockOf_sized (h : Tree c F len) (hf : f ∈ F) (hno : NoEntries c len f) (hw : w.toNat ≤ maxFileSize)
    (hg : g ∈ F) (hm : m < maxLen) (hin : g = f → m < ceilBlocks w.toNat) :
    blockOf (Fs.sized c f w) g m = blockOf c g m := by
  unfold Fs.sized
  by_cases hlt : w.slt (fileSize c f) = true
  · rw [if_pos hlt]
    unfold truncated
    have hlo := toNat_blocksFor (small_of_le_maxFileSize hw)
    have hcut := h.cut_min hf hno (blocksFor w).toNat
      ((blocksFor (fileSize c f)).toNat - (blocksFor w).toNat)
    generalize cutAt c f (blocksFor w).toNat (min ((blocksFor (fileSize c f)).toNat -
      (blocksFor w).toNat) (maxLen - (blocksFor w).toNat)) = c₁ at hcut ⊢
    have hdrop := hcut.tree.dropped hf (hcut.kept.noEntries hf hno) (blocksFor w).toNat
    have hr := hdrop.tree.resized hf w
    rw [hlo] at hcut hdrop
    rw [hlo] at hr ⊢
    rw [hr.toInert.blockOf_same hg hm, hdrop.blocks g hg m hm, hcut.blocks g hg m hm, if_neg, if_neg]
    · rintro ⟨hgf, hle, -⟩
      exact absurd (hin hgf) (Nat.not_lt.mpr hle)
    · rintro ⟨hgf, hle, hle'⟩
      have hlt := hin hgf
      omega
  · rw [if_neg hlt]
    exact (h.resized hf w).toInert.blockOf_same hg hm

lemma Tree.hasByte_sized (h : Tree c F len) (hf : f ∈ F) (hno : NoEntries c len f) (hw : w.toNat ≤ maxFileSize)
    (hg : g ∈ F) (hreg' : ¬IsDir c g) (hin : g = f → p < w.toNat) (hb : HasByte c g p x) :
    HasByte (Fs.sized c f w) g p x := by
  apply hb.congr
  · apply h.blockOf_sized hf hno hw hg hb.lt
    intro hgf
    have hlt := hin hgf
    unfold ceilBlocks
    omega
  · exact (h.sized hf hno w).same _ (.inl (hb.dataBlock hg hreg'))

lemma Resized.hasByte (hr : Resized F len f w c c') (h : Tree c F len) (hf : f ∈ F) (hg : g ∈ F)
    (hreg : ¬IsDir c g) (hb : HasByte c g p x) : HasByte c' g p x :=
  hb.congr (hr.toInert.blockOf_same hg hb.lt) (hr.same _ (h.region_size hf (.inl (hb.dataBlock hg hreg))))

/-- The name of a new file is in no block of a regular file. -/
lemma Chosen.hasByte (h : Chosen F c d e c') (hd : d ∈ F) (hdir : IsDir c d) (hname : name.length < maxnamelen)
    (hg : g ∈ F) (hreg : ¬IsDir c g) (hb : HasByte c' g p x) : HasByte (withName c' e name) g p x := by
  have hreg' : ¬IsDir c' g := fun hdir' => hreg ((h.kept.isDir hg).mp hdir')
  have hblock : blockOf (withName c' e name) g (p / 4096) = blockOf c' g (p / 4096) := by
    have hhas := has_of_blockOf hb.present
    unfold blockOf
    rw [h.indirectOf_named hname hg, if_pos hhas, if_pos hhas, h.ptr_named hname hg (valid_blockSlot hb.lt hhas)]
  have hne : e / 4096 ≠ blockOf c' g (p / 4096) := by
    rcases h.found with ⟨hfree, rfl⟩ | ⟨-, -, hmax, rfl, hpos, -⟩
    · exact h.tree.place_ne_blockOf hg hb.lt hb.present (fun hdir' => absurd hdir' hreg')
        (.inr ⟨d, hd, hdir, (freeEntry_entry hfree).1⟩)
    · intro heq
      rw [Nat.mul_div_cancel_left _ (by decide)] at heq
      obtain ⟨rfl, -⟩ := h.tree.blockOf_inj hd hg hmax hb.lt hpos heq
      exact hreg hdir
  apply hb.congr hblock
  apply withName_of_not hname
  have hmod := h.mod
  have hdiv := Passed.posOf_div c' g p
  unfold NameOf maxnamelen
  omega

end SistemasOperativos.Fs
