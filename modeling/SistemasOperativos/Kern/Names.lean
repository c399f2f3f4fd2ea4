import SistemasOperativos.Kern.BootRules
import SistemasOperativos.Kern.Incarnations
import SistemasOperativos.Kern.Ipc

/-!
# Who is who

The id, the parent and the type of an environment do not change while it lives, and a slot that
becomes free keeps them. The id of a live environment leads back to its slot.
-/

namespace SistemasOperativos.Kern

open Library

/-- What tells an environment from the others. -/
def Env.names (env : Env) : Word × Word × EnvType := (env.envId, env.envParentId, env.envType)

/-- Every live environment has an id that leads to its slot. -/
def IdsIn (s : Kernel) : Prop :=
  ∀ e, (s.envs e).envStatus ≠ .free → envx (s.envs e).envId = e ∧ (s.envs e).envId ≠ 0

/-- The environment in slot `fs`, with id `id`, is the only file server there has been. -/
def ServerIn (fs : EnvIdx) (id : Word) (s : Kernel) : Prop :=
  ∀ e, (s.envs e).envType = .fs → e = fs ∧ (s.envs e).envId = id

variable {B : Boot} {s t u : Kernel} {cpu : Cpu} {c e fs : EnvIdx} {tf : Trapframe} {ev : Event}
  {id : Word}

lemma nextEnvId_slot (w : Word) (e : EnvIdx) : envx (nextEnvId w e) = e ∧ nextEnvId w e ≠ 0 := by
  have he := e.isLt
  have hslot : ∀ g : Word, g.toNat % 1024 = 0 → g ≠ 0 →
      envx (g ||| BitVec.ofNat 32 e) = e ∧ g ||| BitVec.ofNat 32 e ≠ 0 := by
    intro g hg hne
    have hor := or_index g e hg
    constructor
    · apply Fin.ext
      show (g ||| BitVec.ofNat 32 e).toNat % 1024 = e
      omega
    · intro h0
      rw [h0] at hor
      have hg0 : g.toNat = 0 := by
        have : (0 : Word).toNat = 0 := rfl
        omega
      exact hne (BitVec.eq_of_toNat_eq hg0)
  unfold nextEnvId
  dsimp only
  split
  · exact hslot _ (by decide) (by decide)
  · rename_i hle
    apply hslot
    · rw [and_not_index]
      omega
    · intro h0
      rw [h0] at hle
      exact hle (by decide)

/-- A trap changes no names but those of a new environment. -/
lemma Effect.names (hE : EnvsIn none s) (heff : Effect s cpu c tf u) (e : EnvIdx) :
    (u.envs e).names = (s.envs e).names ∨
      ((s.envs e).envStatus = .free ∧ ∃ parent,
        (u.envs e).names = (nextEnvId (s.envs e).envId e, parent, .user)) := by
  have hent : ((s.entered c tf).envs e).names = (s.envs e).names :=
    Kernel.setEnv_proj Env.names (by rfl) e
  have hset : ∀ {j : EnvIdx} {v : Env} (pm : Pmap), v.names = ((s.entered c tf).envs j).names →
      ((({ s.entered c tf with pm := pm } : Kernel).setEnv j v).envs e).names =
        (s.envs e).names :=
    fun pm hv => (Kernel.setEnv_proj Env.names hv e).trans hent
  have hfreed : ∀ (v : Kernel) (j : EnvIdx) (k : Cpu) (pm : Pmap),
      ((v.freed k j pm).envs e).names = (v.envs e).names := by
    intro v j k pm
    show (Function.update v.envs j _ e).names = _
    by_cases hej : e = j
    · subst hej
      rw [Function.update_self]
      rfl
    · rw [Function.update_of_ne hej]
  cases heff with
  | reaped pm => exact Or.inl (hfreed s c cpu pm)
  | destroyed pm₀ pm => exact Or.inl ((hfreed { s.entered c tf with pm := pm₀ } c cpu pm).trans hent)
  | entered => exact Or.inl hent
  | upcalled pm => exact Or.inl (hset pm rfl)
  | blocked => exact Or.inl (hset (s.entered c tf).pm rfl)
  | returned r u hd htrap hu =>
    have heax : ((u.setEax c r).envs e).names = (u.envs e).names :=
      Kernel.setEnv_proj Env.names (by rfl) e
    rw [heax]
    cases hu with
    | memory pm => exact Or.inl hent
    | marked j => exact Or.inl (hset (s.entered c tf).pm rfl)
    | freed j pm => exact Or.inl ((hfreed (s.entered c tf) j cpu pm).trans hent)
    | forked j d pm _ hfl =>
      have hjfree := ((hE.entered tf).allocated hfl 0 0 pm).1
      have hjst : ((s.entered c tf).envs j).envStatus = (s.envs j).envStatus :=
        Kernel.setEnv_proj Env.envStatus (by rfl) j
      rw [hjst] at hjfree
      by_cases hej : e = j
      · subst hej
        have hid : ((s.entered c tf).envs e).envId = (s.envs e).envId := congrArg Prod.fst hent
        right
        refine ⟨hjfree, ((s.entered c tf).envs c).envId, ?_⟩
        rw [Kernel.setEnv_envs_self, ← hid]
        rfl
      · left
        rw [Kernel.setEnv_envs_of_ne hej]
        have hsame : ((s.entered c tf).allocated j ((s.entered c tf).envs c).envId d pm).envs e =
            (s.entered c tf).envs e := Function.update_of_ne hej _ _
        rw [hsame]
        exact hent
    | status j => exact Or.inl (hset (s.entered c tf).pm rfl)
    | frame j tf' pm => exact Or.inl (hset pm rfl)
    | upcall j => exact Or.inl (hset (s.entered c tf).pm rfl)
    | sent j pm => exact Or.inl (hset pm rfl)
    | unsent j pm => exact Or.inl (hset pm rfl)

/-- A step changes no names but those of a new environment. -/
lemma Outcome.names (hE : EnvsIn none s) (ho : Outcome s ev t) (e : EnvIdx) :
    (t.envs e).names = (s.envs e).names ∨
      ((s.envs e).envStatus = .free ∧ ∃ parent,
        (t.envs e).names = (nextEnvId (s.envs e).envId e, parent, .user)) := by
  cases ho with
  | user pm hev => exact Or.inl rfl
  | wake hidle hs => exact Or.inl (hs.proj Env.names (fun _ _ _ _ => rfl) e)
  | trap hc hcs heff hs =>
    rw [hs.proj Env.names (fun _ _ _ _ => rfl) e]
    exact heff.names hE e

lemma IdsIn.step (hs : IdsIn s) (hE : EnvsIn none s) (ho : Outcome s ev t) : IdsIn t := by
  intro e hlive'
  by_cases hfree : (s.envs e).envStatus = .free
  · obtain ⟨cpu, c, tf, cr2, cons, d, -, -, -, -, -, st, runs, cpunum, henv, -⟩ :=
      ho.born hE hfree hlive'
    have hid : (t.envs e).envId = nextEnvId (s.envs e).envId e := by
      rw [henv]
      rfl
    rw [hid]
    exact nextEnvId_slot _ _
  · rw [(ho.mailed hE hfree hlive').2]
    exact hs e hfree

lemma Booted.ids (hs : Booted B s) : IdsIn s := by
  apply hs.induct IdsIn
  · exact fun e hlive => absurd rfl hlive
  intro s t j _ hs hcreated e hlive
  obtain ⟨d, entry, type, henvs⟩ := hcreated.envs
  rw [henvs] at hlive ⊢
  by_cases hej : e = j
  · subst hej
    rw [Function.update_self]
    exact nextEnvId_slot _ _
  · rw [Function.update_of_ne hej] at hlive ⊢
    exact hs e hlive

/-- Two live environments have different ids. -/
lemma IdsIn.inj (hs : IdsIn s) (hc : (s.envs c).envStatus ≠ .free)
    (he : (s.envs e).envStatus ≠ .free) (hid : (s.envs c).envId = (s.envs e).envId) : c = e := by
  rw [← (hs c hc).1, hid]
  exact (hs e he).1

lemma ServerIn.step (hs : ServerIn fs id s) (hE : EnvsIn none s) (ho : Outcome s ev t) :
    ServerIn fs id t := by
  intro e hty
  rcases ho.names hE e with h | ⟨-, parent, h⟩
  · have hid : (t.envs e).envId = (s.envs e).envId := congrArg Prod.fst h
    have hty' : (t.envs e).envType = (s.envs e).envType := congrArg (fun n => n.2.2) h
    rw [hid]
    exact hs e (hty'.symm.trans hty)
  · have hty' : (t.envs e).envType = .user := congrArg (fun n => n.2.2) h
    rw [hty] at hty'
    cases hty'

end SistemasOperativos.Kern
