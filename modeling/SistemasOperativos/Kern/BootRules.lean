import SistemasOperativos.Kern.BootInv

/-!
# The first environments

What `env_create` does to the array `envs`: it takes a slot and fills it. Loading the program
only touches memory and the page directory register.
-/

namespace SistemasOperativos.Kern

open Library

/-- The environment `env_create` makes in slot `e`. -/
def createdEnv (env : Env) (e : EnvIdx) (d : ℕ) (entry : Word) (type : EnvType) : Env :=
  let fresh := freshEnv env e 0 d
  { fresh with
    envTf := { fresh.envTf with
      tfEip := entry
      tfEflags := if type = .fs then fresh.envTf.tfEflags ||| flIopl3 else fresh.envTf.tfEflags }
    envParentId := 0
    envType := type }

/-- `env_create` has made environment `e`. -/
structure Created (s t : Kernel) (e : EnvIdx) : Prop where
  list : s.envFreeList = some e
  list' : t.envFreeList = (s.envs e).envLink
  envs : ∃ d entry type, t.envs = Function.update s.envs e (createdEnv (s.envs e) e d entry type)
  current : ∀ k, (t.cpus k).cpuEnv = (s.cpus k).cpuEnv

variable {B : Boot} {s t : Kernel} {cpu : Cpu} {e : EnvIdx}

/-- The environments are those of `s`, and every processor runs what it ran in `s`. -/
def SameEnvs (s t : Kernel) : Prop :=
  t.envs = s.envs ∧ t.envFreeList = s.envFreeList ∧ ∀ k, (t.cpus k).cpuEnv = (s.cpus k).cpuEnv

lemma Quiet.sameEnvs {α : Type} {f : PmapM α} (hf : Quiet f) (s : Kernel) :
    Keeps (SameEnvs s) (fun _ _ => True) (liftPm f) := by
  rintro t ⟨henvs, hlist, hcur⟩
  exact hf.lift (fun _ pm => ⟨henvs, hlist, hcur⟩) (fun _ _ _ => trivial)

lemma lcr3_sameEnvs (s : Kernel) (d : ℕ) : Keeps (SameEnvs s) (fun _ _ => True) (lcr3 cpu d) := by
  rintro t ⟨henvs, hlist, hcur⟩
  unfold lcr3
  rw [sat_modify]
  refine ⟨henvs, hlist, fun k => ?_⟩
  rw [← hcur k]
  unfold Kernel.setCpu
  dsimp only
  by_cases hk : k = cpu
  · subst hk
    rw [Function.update_self]
  · rw [Function.update_of_ne hk]

lemma regionAllocLoop_sameEnvs (s : Kernel) (e : EnvIdx) (vaLen : Word) (fuel : ℕ) (va : Word) :
    Keeps (SameEnvs s) (fun _ _ => True) (regionAllocLoop e vaLen fuel va) := by
  induction fuel generalizing va with
  | zero => exact Keeps.pure _
  | succ fuel ih =>
    unfold regionAllocLoop
    split
    · apply Keeps.bind ((Quiet.pageAlloc true).sameEnvs s)
      rintro (_ | page)
      · exact fun t _ => sat_throw.mpr trivial
      · intro t ht
        rw [sat_bind, sat_get, sat_bind]
        refine ((Quiet.pageInsert _ _ _ _).sameEnvs s t ht).post (fun r u hu => ?_)
        rw [sat_ite]
        exact ⟨fun _ => sat_bind.mpr (sat_throw.mpr trivial), fun _ => ih _ u hu⟩
    · exact Keeps.pure _

lemma loadSegment_sameEnvs (s : Kernel) (e : EnvIdx) (binary : Binary) (cr3 i : ℕ) :
    Keeps (SameEnvs s) (fun _ _ => True) (loadSegment e binary cr3 i) := by
  have hcopy : ∀ (n : ℕ) (f : ℕ → Word) (b : ℕ → Byte),
      Keeps (SameEnvs s) (fun _ _ => True)
        (forM (List.range n) fun k => liftPm (storeByte cr3 (f k) (b k))) := by
    intro n f b
    exact Keeps.forM (fun k _ => (Quiet.storeByte _ _ _).sameEnvs s)
  intro t ht
  unfold loadSegment
  rw [sat_ite]
  refine ⟨fun _ => ?_, fun _ => sat_pure.mpr ht⟩
  rw [sat_ite]
  refine ⟨fun _ => sat_bind.mpr (sat_throw.mpr trivial), fun _ => ?_⟩
  rw [sat_bind]
  refine (regionAllocLoop_sameEnvs s e _ _ _ t ht).post (fun _ u hu => ?_)
  rw [sat_bind]
  refine (hcopy _ _ _ u hu).post (fun _ v hv => ?_)
  exact hcopy _ _ _ v hv

/-- `env_create` takes the first free slot. -/
lemma envCreate_rule (s : Kernel) (cpu : Cpu) (binary : Binary) (type : EnvType) :
    Sat (envCreate cpu binary type) s (fun _ t => ∃ e, Created s t e) (fun _ _ => True) := by
  unfold envCreate
  rw [sat_bind]
  refine (envAlloc_rule s 0).mono ?_ (fun _ _ _ => trivial)
  rintro (code | e) t
  · exact fun _ => sat_throw.mpr trivial
  rintro ⟨hfl, pm, d, rfl⟩
  have hpg : ((s.allocated e 0 d pm).envs e).envPgdir = some d := by
    unfold Kernel.allocated freshEnv
    simp only [Function.update_self]
  have hself : (s.allocated e 0 d pm).envs e = freshEnv (s.envs e) e 0 d := Function.update_self ..
  dsimp only
  rw [sat_bind]
  unfold loadIcode paddr
  rw [sat_ite]
  refine ⟨fun _ => sat_bind.mpr (sat_throw.mpr trivial), fun _ => ?_⟩
  simp only [sat_bind, sat_get, hpg, sat_pure]
  have h₀ : SameEnvs (s.allocated e 0 d pm) (s.allocated e 0 d pm) := ⟨rfl, rfl, fun _ => rfl⟩
  refine (lcr3_sameEnvs _ d _ h₀).post (fun _ t₁ h₁ => ?_)
  refine (Keeps.forM (fun i _ => loadSegment_sameEnvs _ e binary d i) t₁ h₁).post
    (fun _ t₂ h₂ => ?_)
  refine (lcr3_sameEnvs _ _ t₂ h₂).post (fun _ t₃ h₃ => ?_)
  unfold modifyEnv
  rw [sat_modify]
  have h₄ : SameEnvs (t₃.setEnv e { t₃.envs e with
      envTf := { (t₃.envs e).envTf with tfEip := binary.eEntry } }) (t₃.setEnv e { t₃.envs e with
      envTf := { (t₃.envs e).envTf with tfEip := binary.eEntry } }) := ⟨rfl, rfl, fun _ => rfl⟩
  refine (regionAllocLoop_sameEnvs _ e _ _ _ _ h₄).post (fun _ t₅ h₅ => ?_)
  obtain ⟨henvs₃, hlist₃, hcur₃⟩ := h₃
  obtain ⟨henvs₅, hlist₅, hcur₅⟩ := h₅
  have hcur : ∀ k, (t₅.cpus k).cpuEnv = (s.cpus k).cpuEnv := fun k => (hcur₅ k).trans (hcur₃ k)
  have hlist : t₅.envFreeList = (s.envs e).envLink := hlist₅.trans hlist₃
  have henvs : t₅.envs = Function.update s.envs e { freshEnv (s.envs e) e 0 d with
      envTf := { (freshEnv (s.envs e) e 0 d).envTf with tfEip := binary.eEntry } } := by
    rw [henvs₅]
    unfold Kernel.setEnv
    dsimp only
    rw [henvs₃, hself]
    unfold Kernel.allocated
    rw [Function.update_idem]
  have hself₅ := congrFun henvs e
  rw [Function.update_self] at hself₅
  rw [sat_modify, sat_ite]
  constructor
  · intro htype
    rw [sat_modify]
    refine ⟨e, hfl, hlist, ⟨d, binary.eEntry, type, ?_⟩, hcur⟩
    unfold createdEnv Kernel.setEnv
    simp only [Function.update_self, Function.update_idem, hself₅, if_pos htype]
    rw [henvs, Function.update_idem]
  · intro htype
    rw [sat_pure]
    refine ⟨e, hfl, hlist, ⟨d, binary.eEntry, type, ?_⟩, hcur⟩
    unfold createdEnv Kernel.setEnv
    simp only [hself₅, if_neg htype]
    rw [henvs, Function.update_idem]

/-- A property of the environments that holds at first and that every new environment keeps
holds when the processors enter the scheduler. -/
lemma Booted.induct (h : Booted B s) (P : Kernel → Prop) (h0 : P (Kernel.boot B))
    (hnext : ∀ s t e, BootOk B s → P s → Created s t e → P t) : P s := by
  induction h with
  | memInit => exact h0
  | envCreate hs hb ht ih =>
    obtain ⟨e, hcreated⟩ := (envCreate_rule _ _ _ _).of_ok ht
    exact hnext _ _ e hs.ok ih hcreated

end SistemasOperativos.Kern
