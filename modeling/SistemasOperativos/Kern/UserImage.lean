import SistemasOperativos.Library.X86
import SistemasOperativos.Kern.UserMem

/-!
# The memory of a program

What a program may write, as a memory of its own, and the stores of the kernel as stores to it.
-/

namespace SistemasOperativos.Kern

open Library

/-- The frame behind `va`, if a program may write there. -/
def frameAt (mem : ℕ → ℕ → Word) (d : ℕ) (va : Word) : Option ℕ :=
  if userWritable mem d va then (walk mem d va).map (fun w => pgnum w.2) else none

/-- The memory that a program with page directory `d` may write. -/
def userMem (mem : ℕ → ℕ → Word) (d : ℕ) : UserMem where
  frames page := frameAt mem d (BitVec.ofNat 32 (4096 * page))
  byte := getByte mem

/-! ### Bytes of a frame -/

lemma pgoff_eq_mod (w : Word) : pgoff w = w.toNat % 4096 := by
  unfold pgoff
  rw [BitVec.toNat_and]
  have h : (0xfff : Word).toNat = 2 ^ 12 - 1 := by decide
  rw [h, Nat.and_two_pow_sub_one_eq_mod]

/-- The byte `j` of a word after its byte `k` has been replaced. -/
lemma byte_replace (w : Word) (b : Byte) {j k : ℕ} (hj : j < 4) (hk : k < 4) :
    ((w &&& ~~~((0xff : Word) <<< (8 * k)) ||| b.zeroExtend 32 <<< (8 * k)) >>> (8 * j)).truncate 8 =
      if j = k then b else (w >>> (8 * j)).truncate 8 := by
  apply BitVec.eq_of_getLsbD_eq
  intro i hi
  have hff : ∀ q : ℕ, (0xff : Word).getLsbD q = decide (q < 8) := by
    intro q
    by_cases hq : q < 32
    · interval_cases q <;> decide
    · have hge : ¬q < 8 := by omega
      rw [BitVec.getLsbD_of_ge _ _ (by omega), decide_eq_false hge]
  have hp : 8 * j + i < 32 := by omega
  simp only [BitVec.truncate_eq_setWidth, BitVec.getLsbD_setWidth, BitVec.getLsbD_ushiftRight,
    BitVec.getLsbD_or, BitVec.getLsbD_and, BitVec.getLsbD_not, BitVec.getLsbD_shiftLeft, hff, hp, hi,
    decide_true, Bool.true_and]
  by_cases hjk : j = k
  · subst hjk
    have hlt : ¬8 * j + i < 8 * j := by omega
    have hsub : 8 * j + i - 8 * j = i := by omega
    have hi' : i < 32 := by omega
    simp [hlt, hsub, hi, hi']
  · rw [if_neg hjk]
    by_cases hlt : 8 * j + i < 8 * k
    · simp [hlt, hi]
    · have hge : ¬8 * j + i - 8 * k < 8 := by omega
      have hb : b.getLsbD (8 * j + i - 8 * k) = false := BitVec.getLsbD_of_ge b _ (by omega)
      simp [hge, hi, hb]

lemma getByte_setByte (mem : ℕ → ℕ → Word) (f off : ℕ) (b : Byte) (g o : ℕ) :
    getByte (setByte mem f off b) g o = if g = f ∧ o = off then b else getByte mem g o := by
  unfold getByte setByte
  rw [setWord_apply]
  by_cases hword : g = f ∧ o / 4 = off / 4
  · rw [if_pos hword, hword.1, byte_replace _ _ (Nat.mod_lt o (by decide)) (Nat.mod_lt off (by decide)),
      ← hword.2]
    by_cases hbyte : o % 4 = off % 4
    · have hoff : o = off := by omega
      rw [if_pos hbyte, if_pos ⟨rfl, hoff⟩]
    · have hoff : o ≠ off := fun h => hbyte (h ▸ rfl)
      rw [if_neg hbyte, if_neg (fun h => hoff h.2)]
  · have hne : ¬(g = f ∧ o = off) := fun h => hword ⟨h.1, h.2 ▸ rfl⟩
    rw [if_neg hword, if_neg hne]

/-! ### The frames -/

lemma walk_congr {mem : ℕ → ℕ → Word} {d : ℕ} {va va' : Word}
    (h : va.toNat / 4096 = va'.toNat / 4096) : walk mem d va = walk mem d va' := by
  have hx : pdx va = pdx va' := by
    rw [pdx_eq_div, pdx_eq_div]
    omega
  have hy : ptx va = ptx va' := by
    rw [ptx_eq_mod, ptx_eq_mod]
    omega
  unfold walk
  rw [hx, hy]

lemma frameAt_page {mem : ℕ → ℕ → Word} {d : ℕ} (va : Word) :
    frameAt mem d (BitVec.ofNat 32 (4096 * (va.toNat / 4096))) = frameAt mem d va := by
  have hlt := va.isLt
  have hwalk : walk mem d (BitVec.ofNat 32 (4096 * (va.toNat / 4096))) = walk mem d va := by
    apply walk_congr
    rw [BitVec.toNat_ofNat]
    omega
  unfold frameAt userWritable
  rw [hwalk]

lemma frameAt_some {mem : ℕ → ℕ → Word} {d f : ℕ} {va : Word} (h : frameAt mem d va = some f) :
    userWritable mem d va = true ∧ ∃ pde pte, walk mem d va = some (pde, pte) ∧ pgnum pte = f ∧
      has pde pteW = true ∧ has pte pteW = true := by
  unfold frameAt at h
  split at h
  · rename_i hw
    obtain ⟨⟨pde, pte⟩, hwalk, hf⟩ := Option.map_eq_some_iff.mp h
    have hflags := hw
    unfold userWritable at hflags
    rw [hwalk] at hflags
    simp only [Bool.and_eq_true] at hflags
    exact ⟨hw, pde, pte, hwalk, hf, hflags.1.1.2, hflags.2⟩
  · cases h

section Frames

variable {ι : Type} {B : Boot} {dirs : ι → Option ℕ} {mem mem' : ℕ → ℕ → Word} {i : ι} {d : ℕ}
  {va : Word}

/-- What a program may write is in its address space. -/
lemma TablesOk.frameAt_eq (h : TablesOk B dirs mem) (hd : dirs i = some d) (hva : va < utop) :
    frameAt mem d va = (let pte := spaces dirs mem i (pageNo va hva)
      if has pte pteP && has pte pteU && has pte pteW then some (pgnum pte) else none) := by
  unfold frameAt userWritable
  cases hw : walk mem d va with
  | none => simp [TablesOk.walk_none hd hva hw]
  | some w =>
    obtain ⟨pde, pte⟩ := w
    obtain ⟨hpte, hP, hdW, hdU, -⟩ := h.walk_some hd hva hw
    simp only [← hpte, hP, hdW, hdU, Bool.true_and, Option.map_some]

lemma TablesOk.frameAt_congr (h : TablesOk B dirs mem) (h' : TablesOk B dirs mem')
    (hd : dirs i = some d) (hsp : spaces dirs mem' = spaces dirs mem) (va : Word) :
    frameAt mem' d va = frameAt mem d va := by
  by_cases hva : va < utop
  · rw [h.frameAt_eq hd hva, h'.frameAt_eq hd hva, hsp]
  · have hnot : ∀ {mem : ℕ → ℕ → Word}, TablesOk B dirs mem → frameAt mem d va = none := by
      intro mem h
      unfold frameAt
      exact if_neg (fun hw => hva (h.userWritable_lt hd hw))
    rw [hnot h, hnot h']

end Frames

/-! ### Stores -/

section Stores

variable {ι : Type} [Fintype ι] {B : Boot} {dirs : ι → Option ℕ} {ext : ℕ → ℕ}
  {hand : Finset ℕ} {s : Pmap} {i : ι} {d : ℕ} {va u w : Word} {m : UserMem}
  {f f' : PmapM Unit} {g g' : UserMem → Option UserMem}

/-- Where `g` is defined, `f` does to physical memory what `g` does to the memory of the program
with page directory `d`. -/
def Simulates (B : Boot) (dirs : ι → Option ℕ) (ext : ℕ → ℕ) (hand : Finset ℕ) (d : ℕ)
    (f : PmapM Unit) (g : UserMem → Option UserMem) : Prop :=
  ∀ s m, PmapIn B dirs ext hand s → g (userMem s.mem d) = some m →
    ∃ t, f s = .ok () t ∧ PmapIn B dirs ext hand t ∧ userMem t.mem d = m

lemma Simulates.bind (h : Simulates B dirs ext hand d f g) (h' : Simulates B dirs ext hand d f' g') :
    Simulates B dirs ext hand d (do f; f') (fun m => (g m).bind g') := by
  intro s m hs hm
  obtain ⟨m₁, h₁, h₂⟩ := Option.bind_eq_some_iff.mp hm
  obtain ⟨t₁, ht₁, hok₁, rfl⟩ := h s m₁ hs h₁
  obtain ⟨t, ht, hok, hmem⟩ := h' t₁ m hok₁ h₂
  refine ⟨t, ?_, hok, hmem⟩
  change EStateM.bind f (fun _ => f') s = _
  unfold EStateM.bind
  rw [ht₁]
  exact ht

lemma storeByte_simulates (hd : dirs i = some d) (va : Word) (b : Byte) :
    Simulates B dirs ext hand d (storeByte d va b) (fun m => m.store8 va b) := by
  intro s m hs hm
  obtain ⟨c, hc, rfl⟩ := Option.map_eq_some_iff.mp hm
  obtain ⟨frame, hframe, rfl⟩ := Option.map_eq_some_iff.mp hc
  obtain ⟨hw, pde, pte, hwalk, rfl, hdW, hW⟩ := frameAt_some ((frameAt_page va).symm.trans hframe)
  have hva := hs.tables.userWritable_lt hd hw
  obtain ⟨hok, hsp⟩ := hs.setByte hd hva hwalk (pgoff va) b
  refine ⟨{ s with mem := setByte s.mem (pgnum pte) (pgoff va) b }, ?_, hok, ?_⟩
  · have hsat : Sat (storeByte d va b) s
        (fun _ t => t = { s with mem := setByte s.mem (pgnum pte) (pgoff va) b })
        (fun _ _ => False) := by
      unfold storeByte
      simp [hwalk, hdW, hW]
    obtain ⟨⟨⟩, t, ht, rfl⟩ := hsat.exists_ok
    exact ht
  · unfold userMem UserMem.set
    congr 1
    · funext page
      exact hs.tables.frameAt_congr hok.tables hd hsp _
    · funext g o
      change getByte (setByte s.mem (pgnum pte) (pgoff va) b) g o = _
      rw [getByte_setByte, pgoff_eq_mod, Function.update_apply]
      by_cases hg : g = pgnum pte
      · rw [hg, if_pos rfl, Function.update_apply]
        simp
      · rw [if_neg hg, if_neg (fun h => hg h.1)]

lemma store32_simulates (hd : dirs i = some d) (va w : Word) :
    Simulates B dirs ext hand d (store32 d va w) (fun m => m.store32 va w) :=
  (storeByte_simulates hd va _).bind ((storeByte_simulates hd (va + 1) _).bind
    ((storeByte_simulates hd (va + 2) _).bind (storeByte_simulates hd (va + 3) _)))

/-- The stores of words at offsets of `u`. -/
lemma storeWords_simulates (hd : dirs i = some d) (u : Word) (words : List (ℕ × Word)) :
    Simulates B dirs ext hand d
      (words.forM (fun x => store32 d (u + BitVec.ofNat 32 x.1) x.2))
      (fun m => m.storeWords u words) := by
  induction words with
  | nil =>
    intro s m hs hm
    obtain rfl := Option.some_inj.mp hm
    exact ⟨s, rfl, hs, rfl⟩
  | cons x xs ih => exact (store32_simulates hd _ x.2).bind ih

end Stores

end SistemasOperativos.Kern
