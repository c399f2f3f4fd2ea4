import SistemasOperativos.Fs.Requests
import SistemasOperativos.Fs.OpenRuns
import SistemasOperativos.Library.Durability

/-!
# The cache and its disk

What every use of the block cache keeps, every request keeps, also one that stops the server. So a clean page
holds what the disk holds, and the disk is made by the writes of `flush_block`.
-/

namespace SistemasOperativos.Fs

open Library Kern
open WriteBack (Stable)

/-- A call that keeps `P` of the cache, also when it stops the server. -/
abbrev Always {α : Type} (P : WriteBack Byte → Prop) (m : FsM α) : Prop :=
  Keeps (fun s => P s.cache) (fun _ s => P s.cache) m

/-- The same for a part of the server. -/
abbrev AlwaysServes {α : Type} (P : WriteBack Byte → Prop) (m : ServM α) : Prop :=
  Keeps (fun s => P s.fs.cache) (fun _ s => P s.fs.cache) m

variable {P : WriteBack Byte → Prop} {α β : Type} {a b f n : ℕ} {w : Word}

/-! ### Accesses -/

lemma get_always : Always P (get : FsM Fs) := fun _ h => sat_get.mpr h

lemma throw_always (e : FsExit) : Always P (throw e : FsM α) := fun _ h => sat_throw.mpr h

lemma ite_always {c : Prop} [Decidable c] {m m' : FsM α} (h : Always P m) (h' : Always P m') :
    Always P (if c then m else m') := by
  split
  · exact h
  · exact h'

section Calls

variable (hP : Stable P)

include hP

lemma bcRead_always (b : ℕ) : Always P (bcRead b) := by
  intro s hs
  unfold bcRead
  simp only [sat_bind, sat_get, sat_ite, sat_throw, sat_set]
  exact ⟨fun _ => hs, fun _ => ⟨fun _ => hs, fun _ => ⟨fun _ => hs, fun _ => hP.load _ b hs⟩⟩⟩

lemma touchWith_always (fuel b : ℕ) : Always P (touchWith fuel b) := by
  induction fuel generalizing b with
  | zero =>
    intro s hs
    unfold touchWith
    simp only [sat_bind, sat_get, sat_ite, sat_throw, sat_pure]
    exact ⟨fun _ => hs, fun _ => hs⟩
  | succ fuel ih =>
    intro s hs
    unfold touchWith
    simp only [sat_bind, sat_get, sat_ite, sat_throw, sat_pure]
    refine ⟨fun _ => ?_, fun _ => hs⟩
    refine (bcRead_always hP b s hs).post (fun _ t ht => ?_)
    exact (ih _ t ht).post (fun _ u hu => ⟨fun _ => hu, fun _ => hu⟩)

lemma loadByte_always (a : ℕ) : Always P (loadByte a) :=
  (touchWith_always hP 3 _).bind fun _ => get_always.bind fun _ => .pure _

lemma loadWord_always (a : ℕ) : Always P (loadWord a) :=
  (touchWith_always hP 3 _).bind fun _ => get_always.bind fun _ => .pure _

lemma change_always (b : ℕ) (g : (ℕ → Byte) → ℕ → Byte) :
    Always P (modify fun s => { s with cache := s.cache.change b g } : FsM PUnit) :=
  fun _ hs => sat_modify.mpr (hP.change _ b g hs)

lemma storeByte_always (a : ℕ) (x : Byte) : Always P (storeByte a x) :=
  (touchWith_always hP 3 _).bind fun _ => change_always hP _ _

lemma storeWord_always (a : ℕ) (w : Word) : Always P (storeWord a w) :=
  (touchWith_always hP 3 _).bind fun _ => change_always hP _ _

lemma storeBytes_always (bs : List Byte) (a : ℕ) : Always P (storeBytes a bs) := by
  induction bs generalizing a with
  | nil =>
    unfold storeBytes
    exact .pure _
  | cons x bs ih =>
    unfold storeBytes
    exact (storeByte_always hP a x).bind fun _ => ih (a + 1)

lemma flushBlock_always (a : ℕ) : Always P (flushBlock a) := by
  intro s hs
  unfold flushBlock
  simp only [sat_bind, sat_ite, sat_throw, sat_modify]
  exact ⟨fun _ => hs, fun _ => hP.flush _ _ hs⟩

omit hP in
lemma diskaddr_always (b : ℕ) : Always P (diskaddr b) := by
  intro s hs
  unfold diskaddr
  simp only [sat_bind, sat_get, sat_ite, sat_throw, sat_pure]
  exact ⟨fun _ => hs, fun _ => hs⟩

/-- A page that is allocated for a block is cleared before anything else is done. -/
lemma newBlock_always (b : ℕ) {m : FsM α} (hm : Always P m) :
    Always P (do
      pageAllocAt b
      clearBlock b
      m) := by
  intro s hs
  unfold pageAllocAt clearBlock
  simp only [sat_bind, sat_get, sat_ite, sat_throw, sat_set]
  refine ⟨fun _ => hs, fun _ => ?_⟩
  refine (touchWith_mapped 3 (WriteBack.isSome_map.mpr (.inl rfl))).post (fun _ t ht => ?_)
  rw [sat_modify, ht]
  exact hm _ (hP.renew s.cache b (fun _ => 0) (fun _ _ => 0) hs)

/-! ### Blocks -/

lemma blockIsFree_always (b : ℕ) : Always P (blockIsFree b) := by
  unfold blockIsFree
  exact get_always.bind fun _ => ite_always (.pure _) ((loadWord_always hP _).bind fun _ => .pure _)

lemma freeBlock_always (b : ℕ) : Always P (freeBlock b) := by
  unfold freeBlock
  apply ite_always
  · exact (throw_always _).bind fun _ => (loadWord_always hP _).bind fun _ => storeWord_always hP _ _
  · exact (loadWord_always hP _).bind fun _ => storeWord_always hP _ _

lemma allocFrom_always (n nb : ℕ) : Always P (allocFrom n nb) := by
  induction n generalizing nb with
  | zero =>
    unfold allocFrom
    exact .pure _
  | succ n ih =>
    unfold allocFrom
    apply (blockIsFree_always hP nb).bind
    intro _
    apply ite_always
    · exact (loadWord_always hP _).bind fun _ => (storeWord_always hP _ _).bind fun _ =>
        (flushBlock_always hP _).bind fun _ => .pure _
    · exact ih (nb + 1)

lemma allocBlock_always : Always P allocBlock := get_always.bind fun _ => allocFrom_always hP _ _

lemma allocIndirect_always (f : ℕ) : Always P (allocIndirect f) := by
  unfold allocIndirect
  apply (allocBlock_always hP).bind
  rintro (r | blockno)
  · exact .pure _
  · exact (storeWord_always hP _ _).bind fun _ => (diskaddr_always _).bind fun _ =>
      newBlock_always hP _ ((flushBlock_always hP _).bind fun _ => .pure _)

lemma indirectSlot_always (f n : ℕ) : Always P (indirectSlot f n) :=
  (loadWord_always hP _).bind fun _ => (diskaddr_always _).bind fun _ => .pure _

lemma fileBlockWalk_always (f n : ℕ) (alloc : Bool) : Always P (fileBlockWalk f n alloc) := by
  unfold fileBlockWalk
  apply ite_always (.pure _)
  apply ite_always (.pure _)
  apply (loadWord_always hP _).bind
  intro _
  apply ite_always
  · apply ite_always (.pure _)
    apply (allocIndirect_always hP f).bind
    rintro (r | _)
    · exact .pure _
    · exact indirectSlot_always hP f n
  · exact indirectSlot_always hP f n

lemma fillSlot_always (a : ℕ) : Always P (fillSlot a) := by
  unfold fillSlot
  apply (loadWord_always hP _).bind
  intro _
  apply ite_always
  · exact (allocBlock_always hP).bind fun _ => storeWord_always hP _ _
  · exact .pure _

lemma fileGetBlock_always (f n : ℕ) : Always P (fileGetBlock f n) := by
  unfold fileGetBlock
  apply (fileBlockWalk_always hP f n true).bind
  rintro (r | blkno)
  · exact .pure _
  · exact (fillSlot_always hP _).bind fun _ => (loadWord_always hP _).bind fun _ =>
      (diskaddr_always _).bind fun _ => (flushBlock_always hP _).bind fun _ => .pure _

/-! ### Paths -/

lemma strcmpEq_always (a : ℕ) (name : CString) : Always P (strcmpEq a name) := by
  induction name generalizing a with
  | nil =>
    unfold strcmpEq
    exact (loadByte_always hP _).bind fun _ => .pure _
  | cons x xs ih =>
    unfold strcmpEq
    apply (loadByte_always hP _).bind
    intro _
    exact ite_always (ih _) (.pure _)

omit hP in
lemma searchBlock_always {p : ℕ → FsM Bool} (hp : ∀ f, Always P (p f)) (n f : ℕ) :
    Always P (searchBlock p n f) := by
  induction n generalizing f with
  | zero =>
    unfold searchBlock
    exact .pure _
  | succ n ih =>
    unfold searchBlock
    apply (hp f).bind
    intro _
    exact ite_always (.pure _) (ih _)

lemma searchDir_always {p : ℕ → FsM Bool} (hp : ∀ f, Always P (p f)) (dir n i : ℕ) :
    Always P (searchDir p dir n i) := by
  induction n generalizing i with
  | zero =>
    unfold searchDir
    exact .pure _
  | succ n ih =>
    unfold searchDir
    apply (fileGetBlock_always hP _ _).bind
    rintro (r | blk)
    · exact .pure _
    · apply (searchBlock_always hp _ _).bind
      rintro (_ | f)
      · exact ih _
      · exact .pure _

lemma dirBlocks_always (dir : ℕ) : Always P (dirBlocks dir) := by
  unfold dirBlocks
  apply (loadWord_always hP _).bind
  intro _
  apply ite_always
  · exact (throw_always _).bind fun _ => .pure _
  · exact .pure _

lemma dirLookup_always (dir : ℕ) (name : CString) : Always P (dirLookup dir name) := by
  unfold dirLookup
  apply (dirBlocks_always hP dir).bind
  intro n
  apply (searchDir_always hP (fun _ => strcmpEq_always hP _ _) dir n 0).bind
  rintro (r | _ | f)
  · exact .pure _
  · exact .pure _
  · exact .pure _

lemma dirAllocFile_always (dir : ℕ) : Always P (dirAllocFile dir) := by
  unfold dirAllocFile
  apply (dirBlocks_always hP dir).bind
  intro n
  apply (searchDir_always hP (fun _ => (loadByte_always hP _).bind fun _ => .pure _) dir n 0).bind
  rintro (r | _ | f)
  · exact .pure _
  · exact (loadWord_always hP _).bind fun _ => (storeWord_always hP _ _).bind fun _ => fileGetBlock_always hP _ _
  · exact .pure _

lemma walkFrom_always (dir f : ℕ) (path : CString) : Always P (walkFrom dir f path) := by
  induction hlen : path.length using Nat.strong_induction_on generalizing path dir f with
  | _ n ih =>
    unfold walkFrom
    by_cases hnil : path = []
    · rw [dif_pos hnil]
      exact .pure _
    · rw [dif_neg hnil]
      apply ite_always (.pure _)
      apply (loadWord_always hP _).bind
      intro _
      apply ite_always (.pure _)
      apply (dirLookup_always hP _ _).bind
      rintro (r | g)
      · exact .pure _
      · exact ih _ (hlen ▸ length_nextElem hnil) _ _ _ rfl

lemma fileOpen_always (path : CString) : Always P (fileOpen path) := by
  unfold fileOpen walkPath
  apply (walkFrom_always hP _ _ _).bind
  rintro (⟨r, p⟩ | ⟨d, f⟩)
  · exact .pure _
  · exact .pure _

/-! ### File operations -/

lemma flushFileBlock_always (f i : ℕ) : Always P (flushFileBlock f i) := by
  unfold flushFileBlock
  apply (fileBlockWalk_always hP f i false).bind
  rintro (r | pdiskbno)
  · exact .pure _
  · apply (loadWord_always hP _).bind
    intro w
    apply ite_always
    · exact (diskaddr_always _).bind fun _ => flushBlock_always hP _
    · exact .pure _

lemma fileFlush_always (f : ℕ) : Always P (fileFlush f) := by
  unfold fileFlush
  apply (loadWord_always hP _).bind
  intro size
  apply (Keeps.forM fun i _ => flushFileBlock_always hP f i).bind
  intro _
  apply (flushBlock_always hP f).bind
  intro _
  apply (loadWord_always hP _).bind
  intro ind
  apply ite_always
  · exact (diskaddr_always _).bind fun _ => flushBlock_always hP _
  · exact .pure _

lemma fileCreate_always (path : CString) : Always P (fileCreate path) := by
  unfold fileCreate walkPath
  apply (walkFrom_always hP _ _ _).bind
  rintro (⟨r, _ | ⟨dir, name⟩⟩ | ⟨d, f⟩)
  · exact .pure _
  · apply (dirAllocFile_always hP dir).bind
    rintro (r | f)
    · exact .pure _
    · exact (storeBytes_always hP _ _).bind fun _ => (fileFlush_always hP dir).bind fun _ => .pure _
  · exact .pure _

lemma fileFreeBlock_always (f n : ℕ) : Always P (fileFreeBlock f n) := by
  unfold fileFreeBlock
  apply (fileBlockWalk_always hP f n false).bind
  rintro (r | ptr)
  · exact .pure _
  · apply (loadWord_always hP _).bind
    intro w
    apply ite_always
    · exact (freeBlock_always hP _).bind fun _ => (storeWord_always hP _ _).bind fun _ => .pure _
    · exact .pure _

lemma fileTruncateBlocks_always (f : ℕ) (w : Word) : Always P (fileTruncateBlocks f w) := by
  unfold fileTruncateBlocks
  apply (loadWord_always hP _).bind
  intro size
  apply (Keeps.forM fun i _ => (fileFreeBlock_always hP f i).bind fun _ => .pure _).bind
  intro _
  apply (loadWord_always hP _).bind
  intro ind
  apply ite_always
  · exact (freeBlock_always hP _).bind fun _ => storeWord_always hP _ _
  · exact .pure _

lemma fileSetSize_always (f : ℕ) (w : Word) : Always P (fileSetSize f w) := by
  unfold fileSetSize
  apply (loadWord_always hP _).bind
  intro size
  apply ite_always
  · exact (fileTruncateBlocks_always hP f w).bind fun _ => (storeWord_always hP _ _).bind fun _ =>
      flushBlock_always hP _
  · exact (storeWord_always hP _ _).bind fun _ => flushBlock_always hP _

lemma fsSync_always : Always P fsSync := by
  unfold fsSync
  apply get_always.bind
  intro s
  exact Keeps.forM fun b _ => (diskaddr_always b).bind fun _ => flushBlock_always hP _

lemma openFile_always (path : CString) (omode : Word) : Always P (openFile path omode) := by
  unfold openFile openOrCreate
  apply Keeps.bind
  · apply ite_always
    · apply (fileCreate_always hP path).bind
      rintro (r | f)
      · exact ite_always (fileOpen_always hP path) (.pure _)
      · exact .pure _
    · exact fileOpen_always hP path
  · rintro (r | f)
    · exact .pure _
    · apply ite_always
      · exact (fileSetSize_always hP f 0).bind fun _ => fileOpen_always hP path
      · exact fileOpen_always hP path

/-! ### Requests -/

omit hP in
lemma getServer_always : AlwaysServes P (get : ServM Server) := fun _ h => sat_get.mpr h

omit hP in
lemma throwServe_always (e : ServeExit) : AlwaysServes P (throw e : ServM α) := fun _ h => sat_throw.mpr h

omit hP in
lemma iteServe_always {c : Prop} [Decidable c] {m m' : ServM α} (h : AlwaysServes P m) (h' : AlwaysServes P m') :
    AlwaysServes P (if c then m else m') := by
  split
  · exact h
  · exact h'

omit hP in
/-- A step of the server that leaves the file system alone. -/
lemma modifyServe_always {g : Server → Server} (hg : ∀ s, (g s).fs.cache = s.fs.cache) :
    AlwaysServes P (modify g : ServM PUnit) := by
  intro s hs
  apply sat_modify.mpr
  change P (g s).fs.cache
  rw [hg]
  exact hs

omit hP in
lemma onFs_always {m : FsM α} (hm : Always P m) : AlwaysServes P (onFs m) :=
  fun s hs => sat_onFs.mpr (hm s.fs hs)

omit hP in
lemma loadPage_always (p a : ℕ) : AlwaysServes P (loadPage p a) := getServer_always.bind fun _ => .pure _

omit hP in
lemma storePage_always (p a : ℕ) (w : Word) : AlwaysServes P (storePage p a w) :=
  modifyServe_always fun _ => rfl

omit hP in
lemma reqPage_always : AlwaysServes P reqPage := by
  unfold reqPage
  apply getServer_always.bind
  intro s
  cases s.fsreq with
  | some q => exact .pure _
  | none => exact throwServe_always _

omit hP in
lemma fdOf_always (i : ℕ) : AlwaysServes P (fdOf i) := by
  unfold fdOf
  apply getServer_always.bind
  intro s
  cases s.fdPage i with
  | some q => exact .pure _
  | none => exact throwServe_always _

omit hP in
lemma fdAlloc_always (i : ℕ) : AlwaysServes P (fdAlloc i) := by
  intro s hs
  unfold fdAlloc
  simp only [sat_bind, sat_get, sat_ite, sat_set, sat_pure]
  exact ⟨fun _ => hs, fun _ => hs⟩

omit hP in
lemma takeSlot_always (i : ℕ) : AlwaysServes P (takeSlot i) := by
  unfold takeSlot
  apply getServer_always.bind
  intro s
  apply (modifyServe_always ?_).bind
  · intro _
    apply (fdOf_always i).bind
    intro p
    apply (modifyServe_always ?_).bind
    · exact fun _ => .pure _
    · exact fun _ => rfl
  · exact fun _ => rfl

omit hP in
lemma allocSlot_always (n i : ℕ) : AlwaysServes P (allocSlot n i) := by
  induction n generalizing i with
  | zero =>
    unfold allocSlot
    exact .pure _
  | succ n ih =>
    unfold allocSlot
    apply getServer_always.bind
    intro s
    split
    · apply (fdAlloc_always i).bind
      intro ok
      cases ok with
      | true => exact takeSlot_always i
      | false => exact .pure _
    · exact takeSlot_always i
    · exact ih (i + 1)

omit hP in
lemma openfileLookup_always (fileid : Word) : AlwaysServes P (openfileLookup fileid) := by
  intro s hs
  unfold openfileLookup
  simp only [sat_bind, sat_get, sat_ite, sat_pure]
  exact ⟨fun _ => hs, fun _ => hs⟩

lemma serveOpen_always : AlwaysServes P serveOpen := by
  unfold serveOpen openfileAlloc
  apply reqPage_always.bind
  intro q
  apply getServer_always.bind
  intro s
  apply (loadPage_always q reqOmode).bind
  intro omode
  apply (allocSlot_always _ _).bind
  rintro (r | ⟨i, fileid⟩)
  · exact .pure _
  · apply iteServe_always (.pure _)
    apply (onFs_always (openFile_always hP _ omode)).bind
    rintro (r | f)
    · exact .pure _
    · apply (fdOf_always i).bind
      intro p
      apply (modifyServe_always ?_).bind
      · intro _
        apply getServer_always.bind
        intro t
        apply (storePage_always _ _ _).bind
        intro _
        apply (storePage_always _ _ _).bind
        intro _
        apply (storePage_always _ _ _).bind
        intro _
        apply (modifyServe_always ?_).bind
        · exact fun _ => .pure _
        · exact fun _ => rfl
      · exact fun _ => rfl

omit hP in
/-- A request with a file id. -/
lemma lookup_always {g : ℕ → ℕ → ServM ℤ} (hg : ∀ q i, AlwaysServes P (g q i)) :
    AlwaysServes P (do
      let q ← reqPage
      match ← openfileLookup (← loadPage q reqFileid) with
      | .error r => return r
      | .ok i => g q i) := by
  apply reqPage_always.bind
  intro q
  apply (loadPage_always q reqFileid).bind
  intro fileid
  apply (openfileLookup_always fileid).bind
  rintro (r | i)
  · exact .pure _
  · exact hg q i

omit hP in
lemma storeReply_always (q k : ℕ) (x : Byte) : AlwaysServes P (storeReply q k x) := by
  intro s hs
  unfold storeReply
  simp only [sat_bind, sat_get, sat_ite, sat_throw, sat_modify]
  exact ⟨fun _ => hs, fun _ => ⟨fun _ => hs, fun _ => hs⟩⟩

lemma copyOut_always (q n a k : ℕ) : AlwaysServes P (copyOut q n a k) := by
  induction n generalizing a k with
  | zero =>
    unfold copyOut
    exact .pure _
  | succ n ih =>
    unfold copyOut
    exact (onFs_always (loadByte_always hP a)).bind fun _ => (storeReply_always q k _).bind fun _ => ih _ _

omit hP in
lemma loadData_always (q k : ℕ) : AlwaysServes P (loadData q k) := by
  intro s hs
  unfold loadData
  simp only [sat_bind, sat_get, sat_ite, sat_throw, sat_pure]
  exact ⟨fun _ => hs, fun _ => hs⟩

lemma copyIn_always (q n a k : ℕ) : AlwaysServes P (copyIn q n a k) := by
  induction n generalizing a k with
  | zero =>
    unfold copyIn
    exact .pure _
  | succ n ih =>
    unfold copyIn
    exact (loadData_always q k).bind fun _ => (onFs_always (storeByte_always hP a _)).bind fun _ => ih _ _

lemma moveLoop_always {move : ℕ → ℕ → ℕ → ServM Unit} (hmove : ∀ n a k, AlwaysServes P (move n a k)) (f : ℕ)
    (stop : Word) (fuel : ℕ) (pos : Word) (k : ℕ) : AlwaysServes P (moveLoop move f stop fuel pos k) := by
  induction fuel generalizing pos k with
  | zero =>
    unfold moveLoop
    exact .pure _
  | succ fuel ih =>
    unfold moveLoop
    apply iteServe_always
    · apply (onFs_always (fileGetBlock_always hP f _)).bind
      rintro (r | blk)
      · exact .pure _
      · exact (hmove _ _ _).bind fun _ => ih _ _
    · exact .pure _

lemma fileReadTo_always (q f : ℕ) (count offset : Word) : AlwaysServes P (fileReadTo q f count offset) := by
  unfold fileReadTo
  apply (onFs_always (loadWord_always hP _)).bind
  intro size
  apply iteServe_always (.pure _)
  apply (moveLoop_always hP (copyOut_always hP q) f _ _ _ _).bind
  rintro (r | _)
  · exact .pure _
  · exact .pure _

/-- The end of `file_write`. -/
lemma writeTail_always (q f : ℕ) (stop count pos : Word) : AlwaysServes P (do
    match ← moveLoop (copyIn q) f stop count.toNat pos 0 with
    | .error r => return .error r
    | .ok _ => return .ok count : ServM (Except ℤ Word)) := by
  apply (moveLoop_always hP (copyIn_always hP q) f _ _ _ _).bind
  rintro (r | _)
  · exact .pure _
  · exact .pure _

lemma fileWriteFrom_always (q f : ℕ) (count offset : Word) : AlwaysServes P (fileWriteFrom q f count offset) := by
  unfold fileWriteFrom
  apply (onFs_always (loadWord_always hP _)).bind
  intro size
  apply iteServe_always
  · exact (onFs_always (fileSetSize_always hP f _)).bind fun _ => writeTail_always hP _ _ _ _ _
  · exact writeTail_always hP _ _ _ _ _

omit hP in
lemma serveData_always {transfer : ℕ → ℕ → Word → Word → ServM (Except ℤ Word)}
    (h : ∀ q f n o, AlwaysServes P (transfer q f n o)) : AlwaysServes P (serveData transfer) := by
  unfold serveData
  apply lookup_always
  intro q i
  apply (fdOf_always i).bind
  intro p
  apply getServer_always.bind
  intro s
  apply (loadPage_always _ _).bind
  intro n
  apply (loadPage_always _ _).bind
  intro o
  apply (h _ _ _ _).bind
  rintro (r | m)
  · exact .pure _
  · apply iteServe_always (.pure _)
    exact (loadPage_always _ _).bind fun _ => (storePage_always _ _ _).bind fun _ => .pure _

lemma copyName_always (q n a k : ℕ) : AlwaysServes P (copyName q n a k) := by
  induction n generalizing a k with
  | zero =>
    unfold copyName
    exact throwServe_always _
  | succ n ih =>
    unfold copyName
    exact (onFs_always (loadByte_always hP a)).bind fun _ => (storeReply_always q k _).bind fun _ =>
      iteServe_always (ih _ _) (.pure _)

lemma serveStat_always : AlwaysServes P serveStat := by
  unfold serveStat
  apply lookup_always
  intro q i
  apply getServer_always.bind
  intro s
  apply (copyName_always hP _ _ _ _).bind
  intro _
  apply (onFs_always (loadWord_always hP _)).bind
  intro size
  apply (storePage_always _ _ _).bind
  intro _
  apply (onFs_always (loadWord_always hP _)).bind
  intro type
  exact (storePage_always _ _ _).bind fun _ => .pure _

/-- Every request keeps `P`, whatever it asks for and however it ends. -/
lemma serveRequest_always (req : Word) : AlwaysServes P (serveRequest req) := by
  have hwrap : ∀ {m : ServM ℤ}, AlwaysServes P m → AlwaysServes P (do return (← m, none) : ServM (ℤ × Option ℕ)) :=
    fun h => h.bind fun _ => .pure _
  unfold serveRequest
  apply iteServe_always (serveOpen_always hP)
  apply iteServe_always
  · apply hwrap
    unfold serveSetSize
    apply lookup_always
    intro q i
    exact getServer_always.bind fun _ => (loadPage_always _ _).bind fun _ =>
      (onFs_always (fileSetSize_always hP _ _)).bind fun _ => .pure _
  apply iteServe_always (hwrap (serveData_always (fileReadTo_always hP)))
  apply iteServe_always (hwrap (serveData_always (fileWriteFrom_always hP)))
  apply iteServe_always (hwrap (serveStat_always hP))
  apply iteServe_always
  · apply hwrap
    unfold serveFlush
    apply lookup_always
    intro q i
    exact getServer_always.bind fun _ => (onFs_always (fileFlush_always hP _)).bind fun _ => .pure _
  apply iteServe_always
  · apply hwrap
    unfold serveSync
    exact (onFs_always (fsSync_always hP)).bind fun _ => .pure _
  · exact .pure _

end Calls

end SistemasOperativos.Fs
