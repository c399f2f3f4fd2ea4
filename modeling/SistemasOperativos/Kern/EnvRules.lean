import SistemasOperativos.Kern.Boot

/-!
# What the environment functions do to the environments

The functions of `kern/env.c` and `kern/sched.c` change the array `envs`, its free list and
the processors in few ways, whatever the state of the memory: the page functions they call
only touch the page state. Each function gets one rule that lists its outcomes.
-/

namespace SistemasOperativos.Kern

open Library

/-! ### Page functions do not dispatch -/

/-- `f` returns or stops the machine. -/
def Quiet {α : Type} (f : PmapM α) : Prop := Keeps (fun _ => True) (fun e _ => e ≠ .leave) f

namespace Quiet

variable {α β : Type}

lemma pure (a : α) : Quiet (pure a) := fun _ _ => sat_pure.mpr trivial

lemma bind {f : PmapM α} {g : α → PmapM β} (hf : Quiet f) (hg : ∀ a, Quiet (g a)) :
    Quiet (f >>= g) := Keeps.bind hf hg

lemma ite {c : Prop} [Decidable c] {f g : PmapM α} (hf : Quiet f) (hg : Quiet g) :
    Quiet (if c then f else g) := by
  split
  · exact hf
  · exact hg

lemma get : Quiet (get : PmapM Pmap) := fun _ _ => sat_get.mpr trivial

lemma modify (f : Pmap → Pmap) : Quiet (modify f) := fun _ _ => sat_modify.mpr trivial

lemma throw {e : Exit} (he : e ≠ .leave) : Quiet (throw e : PmapM α) :=
  fun _ _ => sat_throw.mpr he

lemma kaddr (pa : Word) : Quiet (kaddr pa) := by
  unfold Kern.kaddr
  apply bind get
  intro s
  apply ite
  · exact bind (throw (by decide)) (fun _ => bind get (fun _ => pure _))
  · exact bind (pure _) (fun _ => pure _)

lemma pa2page (pa : Word) : Quiet (pa2page pa) := kaddr pa

lemma readPte (p : PtePtr) : Quiet (readPte p) := bind get (fun _ => pure _)

lemma writePte (p : PtePtr) (w : Word) : Quiet (writePte p w) := modify _

lemma incRef (p : ℕ) : Quiet (incRef p) := modify _

lemma pageAlloc (zero : Bool) : Quiet (pageAlloc zero) := by
  unfold Kern.pageAlloc
  apply bind get
  intro s
  cases s.pageFreeList with
  | none => exact pure _
  | some p =>
    apply bind (modify _)
    intro _
    apply ite
    · exact bind (kaddr _) (fun _ => bind (modify _) (fun _ => pure _))
    · exact pure _

lemma pageFree (p : ℕ) : Quiet (pageFree p) := by
  unfold Kern.pageFree
  apply bind get
  intro s
  apply ite
  · exact bind (throw (by decide)) (fun _ => modify _)
  · exact modify _

lemma pageDecref (p : ℕ) : Quiet (pageDecref p) := by
  unfold Kern.pageDecref
  apply bind (modify _)
  intro _
  apply bind get
  intro s
  apply ite
  · exact pageFree p
  · exact pure _

lemma pgdirWalk (pgdir : Option ℕ) (va : Word) (create : Bool) :
    Quiet (pgdirWalk pgdir va create) := by
  have hwalk : ∀ d, Quiet (do
      let pageTable ← Kern.kaddr (pteAddr (← Kern.readPte ⟨d, pdx va⟩))
      return some (⟨pageTable, ptx va⟩ : PtePtr)) :=
    fun d => bind (readPte _) (fun _ => bind (kaddr _) (fun _ => pure _))
  have hcreate : ∀ d, Quiet (createPageTable d) := by
    intro d
    apply bind (pageAlloc true)
    intro r
    cases r with
    | none => exact pure _
    | some p => exact bind (incRef p) (fun _ => bind (writePte _ _) (fun _ => pure _))
  unfold Kern.pgdirWalk
  cases pgdir with
  | none => exact throw (by decide)
  | some d =>
    apply bind (readPte _)
    intro w
    apply ite
    · apply ite
      · exact pure _
      · apply bind (hcreate _)
        intro b
        apply ite
        · exact pure _
        · exact hwalk d
    · exact hwalk d

lemma pageLookup (pgdir : Option ℕ) (va : Word) : Quiet (pageLookup pgdir va) := by
  unfold Kern.pageLookup
  apply bind (pgdirWalk _ _ _)
  intro r
  cases r with
  | none => exact pure _
  | some p =>
    apply bind (readPte _)
    intro w
    apply ite
    · exact pure _
    · exact bind (pa2page _) (fun _ => pure _)

lemma pageRemove (pgdir : Option ℕ) (va : Word) : Quiet (pageRemove pgdir va) := by
  unfold Kern.pageRemove
  apply bind (pageLookup _ _)
  intro r
  cases r with
  | none => exact pure _
  | some p =>
    apply bind (pageDecref _)
    intro _
    apply bind (readPte _)
    intro w
    apply ite
    · exact writePte _ _
    · exact pure _

lemma pageInsert (pgdir : Option ℕ) (pp : ℕ) (va perm : Word) :
    Quiet (pageInsert pgdir pp va perm) := by
  unfold Kern.pageInsert
  apply bind (pgdirWalk _ _ _)
  intro r
  cases r with
  | none => exact pure _
  | some p =>
    apply bind (incRef _)
    intro _
    apply bind (readPte _)
    intro w
    apply ite
    · exact bind (pageRemove _ _) (fun _ => bind (writePte _ _) (fun _ => pure _))
    · exact bind (writePte _ _) (fun _ => pure _)

end Quiet

lemma sat_liftPm {α : Type} {f : PmapM α} {s : Kernel} {Q : α → Kernel → Prop}
    {E : Exit → Kernel → Prop} :
    Sat (liftPm f) s Q E ↔ Sat f s.pm (fun a pm => Q a { s with pm := pm })
      (fun e pm => E e { s with pm := pm }) := sat_zoom

/-- The rule for a page function whose effect on the page state does not matter. -/
lemma Quiet.lift {α : Type} {f : PmapM α} (hf : Quiet f) {s : Kernel} {Q : α → Kernel → Prop}
    {E : Exit → Kernel → Prop} (hQ : ∀ a pm, Q a { s with pm := pm })
    (hE : ∀ e pm, e ≠ .leave → E e { s with pm := pm }) : Sat (liftPm f) s Q E := by
  rw [sat_liftPm]
  exact (hf s.pm trivial).mono (fun a pm _ => hQ a pm) (fun e pm he => hE e pm he)

/-- `f` keeps everything but the page state. -/
lemma Quiet.keeps {α : Type} {f : PmapM α} (hf : Quiet f) (s : Kernel) :
    Keeps (fun t => ∃ pm, t = { s with pm := pm }) (fun e _ => e ≠ .leave) (liftPm f) := by
  rintro t ⟨pm, rfl⟩
  exact hf.lift (fun _ pm' => ⟨pm', rfl⟩) (fun e _ he => he)

/-! ### `envid2env` -/

/-- The environment `envid` names for the caller `c`. -/
def envOf (s : Kernel) (c : EnvIdx) (envid : Word) (checkperm : Bool) : Option EnvIdx :=
  if envid = 0 then some c
  else if (s.envs (envx envid)).envStatus = .free ∨ (s.envs (envx envid)).envId ≠ envid then none
  else if checkperm ∧ envx envid ≠ c ∧ (s.envs (envx envid)).envParentId ≠ (s.envs c).envId then
    none
  else some (envx envid)

variable {s : Kernel} {cpu : Cpu} {c e : EnvIdx}

lemma sat_curenv (hc : (s.cpus cpu).cpuEnv = some c) {Q : EnvIdx → Kernel → Prop}
    {E : Exit → Kernel → Prop} : Sat (curenv cpu) s Q E ↔ Q c s := by
  unfold curenv
  simp only [sat_bind, sat_get, hc, sat_pure]

lemma sat_envid2env (hc : (s.cpus cpu).cpuEnv = some c) {envid : Word} {checkperm : Bool}
    {Q : Option EnvIdx → Kernel → Prop} {E : Exit → Kernel → Prop} :
    Sat (envid2env cpu envid checkperm) s Q E ↔ Q (envOf s c envid checkperm) s := by
  unfold envid2env envOf
  by_cases h0 : envid = 0
  · simp only [h0, if_true, sat_bind, sat_curenv hc, sat_pure]
  · simp only [if_neg h0, sat_bind, sat_get]
    by_cases hbad : (s.envs (envx envid)).envStatus = .free ∨ (s.envs (envx envid)).envId ≠ envid
    · simp only [if_pos hbad, sat_pure]
    · simp only [if_neg hbad]
      cases checkperm with
      | false => simp
      | true =>
        simp only [if_true, sat_bind, sat_curenv hc, true_and]
        split <;> simp

/-- A nonzero id names the slot in its low bits. -/
lemma envOf_envx {envid : Word} {checkperm : Bool} (h0 : envid ≠ 0)
    (he : envOf s c envid checkperm = some e) : e = envx envid := by
  unfold envOf at he
  rw [if_neg h0] at he
  split at he
  · cases he
  · split at he
    · cases he
    · exact (Option.some.inj he).symm

/-- An environment named by a caller that is alive is alive. -/
lemma envOf_ne_free (hc : (s.envs c).envStatus ≠ .free) {envid : Word} {checkperm : Bool}
    (h : envOf s c envid checkperm = some e) : (s.envs e).envStatus ≠ .free := by
  unfold envOf at h
  split at h
  · obtain rfl := Option.some.inj h
    exact hc
  · split at h
    · cases h
    · rename_i hn
      split at h
      · cases h
      · obtain rfl := Option.some.inj h
        exact fun hf => hn (Or.inl hf)

/-- With `checkperm` it is the caller or one of its children. -/
lemma envOf_perm {envid : Word} (h : envOf s c envid true = some e) :
    e = c ∨ (s.envs e).envParentId = (s.envs c).envId := by
  unfold envOf at h
  split at h
  · exact Or.inl (Option.some.inj h).symm
  · split at h
    · cases h
    · split at h
      · cases h
      · rename_i hperm
        obtain rfl := Option.some.inj h
        by_cases hec : envx envid = c
        · exact Or.inl hec
        · right
          by_contra hp
          exact hperm ⟨rfl, hec, hp⟩

/-! ### Making and freeing environments -/

/-- The environment `env_alloc` builds in slot `e` with page directory `d`. -/
def freshEnv (env : Env) (e : EnvIdx) (parentId : Word) (d : ℕ) : Env :=
  { env with
    envPgdir := some d
    envId := nextEnvId env.envId e
    envParentId := parentId
    envType := .user
    envStatus := .runnable
    envRuns := 0
    envTf := { Trapframe.zero with
      tfDs := gdUd ||| 3
      tfEs := gdUd ||| 3
      tfSs := gdUd ||| 3
      tfEsp := ustacktop
      tfCs := gdUt ||| 3
      tfEflags := flIf }
    envPgfaultUpcall := 0
    envIpcRecving := false }

def freedEnv (env : Env) (link : Option EnvIdx) : Env :=
  { env with envPgdir := none, envStatus := .free, envLink := link }

/-- The state after `env_alloc`. -/
def Kernel.allocated (s : Kernel) (e : EnvIdx) (parentId : Word) (d : ℕ) (pm : Pmap) : Kernel :=
  { s with
    pm := pm
    envs := Function.update s.envs e (freshEnv (s.envs e) e parentId d)
    envFreeList := (s.envs e).envLink }

/-- `env_free` leaves the page directory it is about to free. -/
def Kernel.freedCpus (s : Kernel) (cpu : Cpu) (e : EnvIdx) : Cpu → CpuInfo :=
  if (s.cpus cpu).cpuEnv = some e then
    Function.update s.cpus cpu { s.cpus cpu with cr3 := s.pm.kernPgdir }
  else s.cpus

/-- The state after `env_free`. -/
def Kernel.freed (s : Kernel) (cpu : Cpu) (e : EnvIdx) (pm : Pmap) : Kernel :=
  { pm := pm
    envs := Function.update s.envs e (freedEnv (s.envs e) s.envFreeList)
    envFreeList := some e
    cpus := s.freedCpus cpu e }

lemma envSetupVm_rule (s : Kernel) (e : EnvIdx) :
    Sat (envSetupVm e) s
      (fun r t => (r = -eNoMem ∧ ∃ pm, t = { s with pm := pm }) ∨
        (r = 0 ∧ ∃ pm d, t = { s with
          pm := pm
          envs := Function.update s.envs e { s.envs e with envPgdir := some d } }))
      (fun ex _ => ex ≠ .leave) := by
  unfold envSetupVm
  rw [sat_bind]
  refine (Quiet.pageAlloc true).lift ?_ (fun _ _ h => h)
  rintro (_ | p) pm
  · exact sat_pure.mpr (Or.inl ⟨rfl, pm, rfl⟩)
  · dsimp only
    rw [sat_bind]
    refine (Quiet.incRef p).lift (fun _ pm => ?_) (fun _ _ h => h)
    rw [sat_bind]
    refine (Quiet.kaddr _).lift (fun d pm => ?_) (fun _ _ h => h)
    rw [sat_bind]
    unfold modifyEnv
    rw [sat_modify, sat_bind]
    refine (Quiet.modify _).lift (fun _ pm => ?_) (fun _ _ h => h)
    rw [sat_bind]
    refine (Quiet.writePte _ _).lift (fun _ pm => ?_) (fun _ _ h => h)
    exact sat_pure.mpr (Or.inr ⟨rfl, pm, d, rfl⟩)

lemma envAlloc_rule (s : Kernel) (parentId : Word) :
    Sat (envAlloc parentId) s
      (fun r t => match r with
        | .error code => (code = -eNoFreeEnv ∨ code = -eNoMem) ∧ ∃ pm, t = { s with pm := pm }
        | .ok e => s.envFreeList = some e ∧ ∃ pm d, t = s.allocated e parentId d pm)
      (fun ex _ => ex ≠ .leave) := by
  unfold envAlloc
  rw [sat_bind, sat_get]
  split
  · exact sat_pure.mpr ⟨Or.inl rfl, s.pm, rfl⟩
  · rename_i e hfl
    rw [sat_bind]
    refine (envSetupVm_rule s e).mono ?_ (fun _ _ h => h)
    rintro r t (⟨rfl, pm, rfl⟩ | ⟨rfl, pm, d, rfl⟩)
    · rw [if_pos (by decide)]
      exact sat_pure.mpr ⟨Or.inr rfl, pm, rfl⟩
    · rw [if_neg (by decide)]
      unfold modifyEnv
      simp only [sat_bind, sat_modify, sat_pure]
      refine ⟨hfl, pm, d, ?_⟩
      unfold Kernel.allocated Kernel.setEnv freshEnv
      simp only [Function.update_self, Function.update_idem]

lemma envFree_rule (s : Kernel) (cpu : Cpu) (e : EnvIdx) :
    Sat (envFree cpu e) s (fun _ t => (s.envs e).envPgdir ≠ none ∧ ∃ pm, t = s.freed cpu e pm)
      (fun ex _ => ex ≠ .leave) := by
  let s₁ : Kernel := { s with cpus := s.freedCpus cpu e }
  have htable : ∀ x, Keeps (fun t => ∃ pm, t = { s₁ with pm := pm }) (fun ex _ => ex ≠ .leave)
      (envFreeTable e x) := by
    intro x t ht
    unfold envFreeTable
    generalize List.range nptentries = l
    rw [sat_bind, sat_get]
    cases (t.envs e).envPgdir with
    | none => exact sat_throw.mpr (by decide)
    | some d =>
      revert t
      apply Keeps.bind ((Quiet.readPte _).keeps s₁)
      intro pde
      split
      · apply Keeps.bind ((Quiet.kaddr _).keeps s₁)
        intro pt
        apply Keeps.bind
        · apply Keeps.forM
          intro y _
          apply Keeps.bind ((Quiet.readPte _).keeps s₁)
          intro pte
          split
          · exact (Quiet.pageRemove _ _).keeps s₁
          · exact Keeps.pure _
        · intro _
          apply Keeps.bind ((Quiet.writePte _ _).keeps s₁)
          intro _
          exact (Quiet.bind (Quiet.pa2page _) (fun _ => Quiet.pageDecref _)).keeps s₁
      · exact Keeps.pure _
  have htail : ∀ l : List ℕ, Sat (do
      forM l (envFreeTable e)
      let d ← paddr ((← get).envs e).envPgdir
      modifyEnv e fun env => { env with envPgdir := none }
      liftPm (do pageDecref (← pa2page (page2pa d)))
      modify fun s => { s.setEnv e { s.envs e with envStatus := .free, envLink := s.envFreeList } with
        envFreeList := some e }) s₁
        (fun _ t => (s.envs e).envPgdir ≠ none ∧ ∃ pm, t = s.freed cpu e pm)
      (fun ex _ => ex ≠ .leave) := by
    intro l
    rw [sat_bind]
    refine (Keeps.forM (fun x _ => htable x) s₁ ⟨s.pm, rfl⟩).mono ?_ (fun _ _ h => h)
    rintro - t ⟨pm, rfl⟩
    rw [sat_bind, sat_get, sat_bind]
    unfold paddr
    cases (s.envs e).envPgdir with
    | none => exact sat_throw.mpr (by decide)
    | some d =>
      unfold modifyEnv
      simp only [sat_pure, sat_bind, sat_modify]
      refine (Quiet.bind (Quiet.pa2page _) (fun _ => Quiet.pageDecref _)).lift (fun _ pm => ?_)
        (fun _ _ h => h)
      refine ⟨by simp, pm, ?_⟩
      unfold Kernel.freed Kernel.setEnv freedEnv
      simp only [Function.update_self, Function.update_idem]
      rfl
  unfold envFree curenv?
  generalize List.range pdxUtop = l
  have hl := htail l
  simp only [sat_bind, sat_get, sat_pure]
  by_cases hcur : (s.cpus cpu).cpuEnv = some e
  · rw [if_pos hcur]
    unfold lcr3
    rw [sat_bind, sat_get, sat_bind, sat_modify]
    have hs : s.setCpu cpu { s.cpus cpu with cr3 := s.pm.kernPgdir } = s₁ := by
      show _ = ({ s with cpus := s.freedCpus cpu e } : Kernel)
      unfold Kernel.freedCpus
      rw [if_pos hcur]
      rfl
    rw [hs]
    simpa only [sat_bind, sat_get] using hl
  · rw [if_neg hcur]
    have hs : s = s₁ := by
      show s = ({ s with cpus := s.freedCpus cpu e } : Kernel)
      unfold Kernel.freedCpus
      rw [if_neg hcur]
    rw [← hs] at hl
    simpa only [sat_bind, sat_get] using hl

/-! ### Running and scheduling -/

/-- Putting an environment back in line changes its status only. -/
lemma preempted_eq (s : Kernel) (cpu : Cpu) (e : EnvIdx) :
    s.preempted cpu e = { s.envs e with
      envStatus := if (s.cpus cpu).cpuEnv = some e ∧ (s.envs e).envStatus = .running then .runnable
        else (s.envs e).envStatus } := by
  unfold Kernel.preempted
  cases hcur : (s.cpus cpu).cpuEnv with
  | none => simp
  | some c =>
    by_cases hec : e = c
    · subst hec
      by_cases hrun : (s.envs e).envStatus = .running
      · simp [hrun]
      · simp [hrun]
    · have hce : ¬ c = e := fun h => hec h.symm
      by_cases hrun : (s.envs c).envStatus = .running
      · simp [hrun, hec, hce]
      · simp [hrun, hce]

/-- The state in which `env_run` leaves. -/
def Kernel.ran (s : Kernel) (cpu : Cpu) (e : EnvIdx) (d : ℕ) : Kernel :=
  { s with
    envs := Function.update (s.preempted cpu) e { s.preempted cpu e with
      envStatus := .running
      envRuns := (s.preempted cpu e).envRuns + 1
      envCpunum := cpu }
    cpus := Function.update s.cpus cpu ⟨some e, d⟩ }

/-- The state in which `sched_halt` leaves. -/
def Kernel.halted (s : Kernel) (cpu : Cpu) : Kernel :=
  { s with cpus := Function.update s.cpus cpu ⟨none, s.pm.kernPgdir⟩ }

/-- What `sched_yield` may do. -/
inductive Dispatch (s : Kernel) (cpu : Cpu) : Kernel → Prop
  | next (j : EnvIdx) (d : ℕ) (hj : firstRunnable s.envs (s.yieldFrom cpu) = some j)
      (hst : (s.envs j).envStatus = .runnable) (hd : (s.envs j).envPgdir = some d) :
      Dispatch s cpu (s.ran cpu j d)
  | again (j : EnvIdx) (d : ℕ) (hnone : firstRunnable s.envs (s.yieldFrom cpu) = none)
      (hj : (s.cpus cpu).cpuEnv = some j) (hst : (s.envs j).envStatus = .running)
      (hd : (s.envs j).envPgdir = some d) : Dispatch s cpu (s.ran cpu j d)
  | halt (hnone : firstRunnable s.envs (s.yieldFrom cpu) = none)
      (hcur : ∀ j, (s.cpus cpu).cpuEnv = some j → (s.envs j).envStatus ≠ .running) :
      Dispatch s cpu (s.halted cpu)

lemma envRun_rule {α : Type} (s : Kernel) (cpu : Cpu) (e : EnvIdx) :
    Sat (envRun (α := α) cpu e) s (fun _ _ => False)
      (fun ex t => (ex = .leave ∧ ∃ d, (s.envs e).envPgdir = some d ∧ t = s.ran cpu e d) ∨
        (ex = .panic ∧ (s.envs e).envPgdir = none)) := by
  have hpg : (s.preempted cpu e).envPgdir = (s.envs e).envPgdir := by
    rw [preempted_eq]
  unfold envRun setCurenv modifyEnv lcr3 paddr
  simp only [sat_bind, sat_modify, sat_get, Kernel.setEnv, Kernel.setCpu, Function.update_self]
  rw [hpg]
  cases hd : (s.envs e).envPgdir with
  | none => exact sat_throw.mpr (Or.inr ⟨rfl, rfl⟩)
  | some d =>
    simp only [sat_pure, sat_throw, Function.update_self, Function.update_idem]
    refine Or.inl ⟨trivial, d, rfl, ?_⟩
    unfold Kernel.ran
    simp only [hpg, hd]

lemma firstRunnable_some {envs : EnvIdx → Env} {k : ℕ} {j : EnvIdx}
    (h : firstRunnable envs k = some j) : (envs j).envStatus = .runnable := by
  unfold firstRunnable at h
  have := List.find?_some h
  simpa using this

lemma schedHalt_rule {α : Type} (s : Kernel) (cpu : Cpu) :
    Sat (schedHalt (α := α) cpu) s (fun _ _ => False)
      (fun ex t => (ex = .leave ∧ t = s.halted cpu) ∨ ex = .monitor) := by
  unfold schedHalt
  generalize List.finRange 1024 = l
  rw [sat_bind, sat_get]
  split
  · exact sat_bind.mpr (sat_throw.mpr (Or.inr rfl))
  · unfold setCurenv lcr3
    simp only [sat_bind, sat_get, sat_modify, sat_throw, Kernel.setCpu, Function.update_self,
      Function.update_idem]
    exact Or.inl ⟨trivial, rfl⟩

/-- `sched_yield` runs the first runnable environment after the current one, else the current
one, else halts. -/
lemma schedYield_rule {α : Type} (s : Kernel) (cpu : Cpu) :
    Sat (schedYield (α := α) cpu) s (fun _ _ => False)
      (fun ex t => (ex = .leave ∧ Dispatch s cpu t) ∨ ex = .monitor ∨
        (ex = .panic ∧ ∃ j, (s.envs j).envStatus ≠ .free ∧ (s.envs j).envPgdir = none)) := by
  have hrun : ∀ j, (s.envs j).envStatus ≠ .free →
      (∀ d, (s.envs j).envPgdir = some d → Dispatch s cpu (s.ran cpu j d)) →
      Sat (envRun (α := α) cpu j) s (fun _ _ => False)
        (fun ex t => (ex = .leave ∧ Dispatch s cpu t) ∨ ex = .monitor ∨
          (ex = .panic ∧ ∃ j, (s.envs j).envStatus ≠ .free ∧ (s.envs j).envPgdir = none)) := by
    intro j hj hdisp
    refine (envRun_rule s cpu j).mono (fun _ _ h => h) ?_
    rintro ex t (⟨rfl, d, hd, rfl⟩ | ⟨rfl, hd⟩)
    · exact Or.inl ⟨rfl, hdisp d hd⟩
    · exact Or.inr (Or.inr ⟨rfl, j, hj, hd⟩)
  unfold schedYield
  rw [sat_bind, sat_get]
  split
  · rename_i j hfirst
    have hst := firstRunnable_some hfirst
    have hne : (s.envs j).envStatus ≠ .free := by
      rw [hst]
      exact fun h => by cases h
    exact hrun j hne (fun d hd => .next j d hfirst hst hd)
  · rename_i hfirst
    have hhalt : (∀ j, (s.cpus cpu).cpuEnv = some j → (s.envs j).envStatus ≠ .running) →
        Sat (schedHalt (α := α) cpu) s (fun _ _ => False)
        (fun ex t => (ex = .leave ∧ Dispatch s cpu t) ∨ ex = .monitor ∨
          (ex = .panic ∧ ∃ j, (s.envs j).envStatus ≠ .free ∧ (s.envs j).envPgdir = none)) := by
      intro hnr
      refine (schedHalt_rule s cpu).mono (fun _ _ h => h) ?_
      rintro ex t (⟨rfl, rfl⟩ | rfl)
      · exact Or.inl ⟨rfl, .halt hfirst hnr⟩
      · exact Or.inr (Or.inl rfl)
    split
    · rename_i j hcur
      split
      · rename_i hst
        have hne : (s.envs j).envStatus ≠ .free := by
          rw [hst]
          exact fun h => by cases h
        exact hrun j hne (fun d hd => .again j d hfirst hcur hst hd)
      · rename_i hst
        refine hhalt (fun k hk => ?_)
        rw [hcur] at hk
        exact Option.some.inj hk ▸ hst
    · rename_i hcur
      refine hhalt (fun j hj => ?_)
      rw [hcur] at hj
      cases hj

/-- The processor gives up its environment. -/
def Kernel.vacated (s : Kernel) (cpu : Cpu) : Kernel :=
  s.setCpu cpu { s.cpus cpu with cpuEnv := none }

/-- `env_destroy` marks an environment that runs elsewhere, frees any other one, and does not
return when it frees its caller. -/
lemma envDestroy_rule (s : Kernel) (cpu : Cpu) (e : EnvIdx) :
    Sat (envDestroy cpu e) s
      (fun _ t => (s.cpus cpu).cpuEnv ≠ some e ∧
        (((s.envs e).envStatus = .running ∧
            t = s.setEnv e { s.envs e with envStatus := .dying }) ∨
          ((s.envs e).envStatus ≠ .running ∧ ∃ pm, t = s.freed cpu e pm)))
      (fun ex t => ex = .leave → (s.cpus cpu).cpuEnv = some e ∧
        ∃ pm, Dispatch ((s.freed cpu e pm).vacated cpu) cpu t) := by
  unfold envDestroy
  rw [sat_bind, sat_get]
  split
  · rename_i h
    unfold modifyEnv
    simp only [sat_bind, sat_modify, sat_pure]
    exact ⟨h.2, Or.inl ⟨h.1, trivial⟩⟩
  · rename_i h
    rw [sat_bind]
    refine (envFree_rule s cpu e).mono ?_ (fun ex _ hex hl => absurd hl hex)
    rintro - t ⟨-, pm, rfl⟩
    have hcpu : ((s.freed cpu e pm).cpus cpu).cpuEnv = (s.cpus cpu).cpuEnv := by
      show (s.freedCpus cpu e cpu).cpuEnv = _
      unfold Kernel.freedCpus
      split
      · rw [Function.update_self]
      · rfl
    unfold curenv?
    simp only [sat_bind, sat_get, sat_pure, hcpu]
    split
    · rename_i hcur
      unfold setCurenv
      rw [sat_bind, sat_modify]
      refine (schedYield_rule _ cpu).mono (fun _ _ h => h.elim) ?_
      rintro ex t (⟨-, hd⟩ | rfl | ⟨rfl, -⟩) hl
      · exact ⟨hcur, pm, hd⟩
      · cases hl
      · cases hl
    · rename_i hcur
      exact sat_pure.mpr ⟨hcur, Or.inr ⟨fun hr => h ⟨hr, hcur⟩, pm, rfl⟩⟩

end SistemasOperativos.Kern
