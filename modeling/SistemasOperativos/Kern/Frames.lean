import SistemasOperativos.Kern.Ipc
import SistemasOperativos.Kern.BootRules

/-!
# Saved trap frames

An environment is resumed from `env_tf`. Its selectors and flags are those of a user program,
except for the file server and its descendants, which have the I/O privilege level. The code
selector `sys_env_set_trapframe` stores is only made to look like one of a user program, so
`FrameGuard` asks for the right one.
-/

namespace SistemasOperativos.Kern

open Library

/-- The data and stack selectors have the privilege level of user programs. -/
structure DataSelectors (tf : Trapframe) : Prop where
  ds : tf.tfDs &&& 3 = 3
  es : tf.tfEs &&& 3 = 3
  ss : tf.tfSs &&& 3 = 3

/-- A trap frame from which `env_pop_tf` may return to user mode. -/
structure FrameOk (tf : Trapframe) : Prop where
  cs : tf.tfCs = gdUt ||| 3
  data : DataSelectors tf
  interrupts : tf.tfEflags &&& flIf = flIf
  iopl : tf.tfEflags &&& flIopl3 = 0

/-- What user mode can do between a return to `f` and a trap with frame `tf`. The only code
segment of its privilege level is `GD_UT`. -/
structure UserMode (f tf : Trapframe) : Prop where
  cs : tf.tfCs = f.tfCs ∨ tf.tfCs = gdUt ||| 3
  flags : f.tfEflags &&& flIopl3 = 0 →
    tf.tfEflags &&& flIopl3 = 0 ∧ tf.tfEflags &&& flIf = f.tfEflags &&& flIf

/-- `e` is the file server or a descendant it has made with `sys_exofork`. -/
inductive FsKin : List (Move Kernel Event) → Kernel → EnvIdx → Prop
  | server {h : List (Move Kernel Event)} {s : Kernel} {e : EnvIdx}
      (hst : (s.envs e).envStatus ≠ .free) (htype : (s.envs e).envType = .fs) : FsKin h s e
  | kept {h : List (Move Kernel Event)} {s t : Kernel} {ev : Event} {e : EnvIdx}
      (hk : FsKin h s e) (hst : (t.envs e).envStatus ≠ .free) : FsKin (h ++ [⟨s, ev, t⟩]) t e
  | forked {h : List (Move Kernel Event)} {s s' t : Kernel} {ev : Event} {c e : EnvIdx}
      {call : Call} (hk : FsKin h s c) (hcall : Calls s ev s' c call) (hno : call.no.toNat = 7)
      (hfree : (s.envs e).envStatus = .free) (hst : (t.envs e).envStatus ≠ .free) :
      FsKin (h ++ [⟨s, ev, t⟩]) t e

/-- What user mode can do, in one step. -/
def UserStep (s : Kernel) (ev : Event) : Prop :=
  ∀ cpu tf cr2 cons c, ev = .trap cpu tf cr2 cons → (s.cpus cpu).cpuEnv = some c →
    UserMode (s.envs c).envTf tf

/-- The condition on one step: a program that is not of the file server keeps data and stack
selectors of its privilege level, and is given a frame with the code selector of user
programs. -/
structure FrameGuard (h : List (Move Kernel Event)) (s : Kernel) (ev : Event) : Prop where
  cpus : CpuEvent s ev
  user : UserStep s ev
  data : ∀ cpu tf cr2 cons c, ev = .trap cpu tf cr2 cons → (s.cpus cpu).cpuEnv = some c →
    ¬ FsKin h s c → DataSelectors tf
  set : ∀ cpu tf cr2 cons c e t pm, ev = .trap cpu tf cr2 cons →
    (s.cpus cpu).cpuEnv = some c → tf.tfTrapno = tSyscall → tf.call.no.toNat = 9 →
    envOf (s.entered c tf) c tf.call.a1 true = some e → ¬ FsKin h s e →
    loadTrapframe (s.cpus cpu).cr3 tf.call.a2 s.pm = .ok t pm → t.tfCs ||| 3 = gdUt ||| 3

/-- The two frames have the same selectors and flags. -/
structure SameMode (a b : Trapframe) : Prop where
  cs : a.tfCs = b.tfCs
  ds : a.tfDs = b.tfDs
  es : a.tfEs = b.tfEs
  ss : a.tfSs = b.tfSs
  eflags : a.tfEflags = b.tfEflags

/-- Where the frame of a live environment comes from after the step `ev`. -/
inductive Framed (s : Kernel) (ev : Event) (e : EnvIdx) (f : Trapframe) : Prop
  | kept (hother : ∀ cpu tf cr2 cons, ev = .trap cpu tf cr2 cons → (s.cpus cpu).cpuEnv ≠ some e)
      (hf : f = (s.envs e).envTf)
  | trapped {cpu : Cpu} {tf : Trapframe} {cr2 cons : Word} (hev : ev = .trap cpu tf cr2 cons)
      (hc : (s.cpus cpu).cpuEnv = some e) (hf : SameMode f tf)
  | set {cpu : Cpu} {tf t : Trapframe} {cr2 cons : Word} {c : EnvIdx} {pm : Pmap}
      (hev : ev = .trap cpu tf cr2 cons) (hc : (s.cpus cpu).cpuEnv = some c)
      (hst : (s.envs c).envStatus ≠ .dying) (htrap : tf.tfTrapno = tSyscall) (hno : tf.call.no.toNat = 9)
      (he : envOf (s.entered c tf) c tf.call.a1 true = some e)
      (hload : loadTrapframe (s.cpus cpu).cr3 tf.call.a2 s.pm = .ok t pm)
      (hf : SameMode f t.userMode)

variable {B : Boot} {s t u : Kernel} {cpu : Cpu} {c e : EnvIdx} {tf : Trapframe} {ev : Event}
  {h : List (Move Kernel Event)}

lemma SameMode.refl (a : Trapframe) : SameMode a a := ⟨rfl, rfl, rfl, rfl, rfl⟩

lemma SameMode.trans {a b c : Trapframe} (h : SameMode a b) (h' : SameMode b c) : SameMode a c :=
  ⟨h.cs.trans h'.cs, h.ds.trans h'.ds, h.es.trans h'.es, h.ss.trans h'.ss,
    h.eflags.trans h'.eflags⟩

lemma SameMode.frameOk {a b : Trapframe} (h : SameMode a b) (hb : FrameOk b) : FrameOk a := by
  obtain ⟨hcs, ⟨hds, hes, hss⟩, hif, hiopl⟩ := hb
  exact ⟨h.cs ▸ hcs, ⟨h.ds ▸ hds, h.es ▸ hes, h.ss ▸ hss⟩, h.eflags ▸ hif, h.eflags ▸ hiopl⟩

/-- The frame of the caller keeps its mode. -/
lemma Framed.own {f g : Trapframe} {cr2 cons : Word} (h : Framed s (.trap cpu tf cr2 cons) e f)
    (hc : (s.cpus cpu).cpuEnv = some e) (hfg : SameMode g f) :
    Framed s (.trap cpu tf cr2 cons) e g := by
  cases h with
  | kept hother hf => exact absurd hc (hother _ _ _ _ rfl)
  | trapped hev hc hf => exact .trapped hev hc (hfg.trans hf)
  | set hev hc hst htrap hno he hload hf => exact .set hev hc hst htrap hno he hload (hfg.trans hf)

lemma entered_envTf (s : Kernel) (c : EnvIdx) (tf : Trapframe) (e : EnvIdx) :
    ((s.entered c tf).envs e).envTf = if e = c then tf else (s.envs e).envTf := by
  unfold Kernel.entered
  rw [Kernel.setEnv_envs]
  split <;> rfl

lemma Effect.framed {cr2 cons : Word} (hE : EnvsIn none s) (hc : (s.cpus cpu).cpuEnv = some c)
    (he : Effect s cpu c tf u) (hlive : (s.envs e).envStatus ≠ .free)
    (hlive' : (u.envs e).envStatus ≠ .free) :
    Framed s (.trap cpu tf cr2 cons) e (u.envs e).envTf := by
  have hne : e ≠ c → ∀ k tf' cr2' cons', Event.trap cpu tf cr2 cons = .trap k tf' cr2' cons' →
      (s.cpus k).cpuEnv ≠ some e := by
    rintro hec k tf' cr2' cons' ⟨⟩ hk
    exact hec (Option.some.inj (hk.symm.trans hc))
  have hent : Framed s (.trap cpu tf cr2 cons) e ((s.entered c tf).envs e).envTf := by
    rw [entered_envTf]
    split
    · rename_i hec
      exact .trapped rfl (hec ▸ hc) (.refl _)
    · rename_i hec
      exact .kept (hne hec) rfl
  have hset : ∀ {j : EnvIdx} {v : Env} (pm : Pmap),
      v.envTf = ((s.entered c tf).envs j).envTf → Framed s (.trap cpu tf cr2 cons) e
        ((({ s.entered c tf with pm := pm } : Kernel).setEnv j v).envs e).envTf := by
    intro j v pm hv
    have hsame := Kernel.setEnv_proj (s := { s.entered c tf with pm := pm }) Env.envTf hv e
    rw [hsame]
    exact hent
  have hown : ∀ {v : Env} (pm : Pmap), SameMode v.envTf ((s.entered c tf).envs c).envTf →
      Framed s (.trap cpu tf cr2 cons) e
        ((({ s.entered c tf with pm := pm } : Kernel).setEnv c v).envs e).envTf := by
    intro v pm hv
    rw [Kernel.setEnv_envs]
    split
    · rename_i hec
      rw [entered_envTf, if_pos rfl] at hv
      exact .trapped rfl (hec ▸ hc) hv
    · exact hent
  have hfreed : ∀ (v : Kernel) (j : EnvIdx) (k : Cpu) (pm : Pmap),
      ((v.freed k j pm).envs e).envStatus ≠ .free → (v.freed k j pm).envs e = v.envs e := by
    intro v j k pm hne
    by_cases hej : e = j
    · subst hej
      refine absurd ?_ hne
      show (Function.update v.envs e _ e).envStatus = .free
      rw [Function.update_self]
      rfl
    · exact Function.update_of_ne hej _ _
  cases he with
  | reaped pm hd =>
    have hsame : ((s.freed cpu c pm).vacated cpu).envs e = s.envs e := hfreed s c cpu pm hlive'
    have hec : e ≠ c := by
      rintro rfl
      refine hlive' ?_
      show (Function.update s.envs e _ e).envStatus = .free
      rw [Function.update_self]
      rfl
    rw [hsame]
    exact .kept (hne hec) rfl
  | destroyed pm₀ pm hd =>
    have hsame : ((({ s.entered c tf with pm := pm₀ } : Kernel).freed cpu c pm).vacated cpu).envs e =
        (s.entered c tf).envs e := hfreed { s.entered c tf with pm := pm₀ } c cpu pm hlive'
    rw [hsame]
    exact hent
  | entered hd => exact hent
  | upcalled pm hd => exact hown pm ⟨rfl, rfl, rfl, rfl, rfl⟩
  | blocked hd => exact hown (s.entered c tf).pm ⟨rfl, rfl, rfl, rfl, rfl⟩
  | returned r u hd htrap hu =>
    have heaxst : ((u.setEax c r).envs e).envStatus = (u.envs e).envStatus :=
      Kernel.setEnv_proj Env.envStatus (by rfl) e
    rw [heaxst] at hlive'
    have hu' : Framed s (.trap cpu tf cr2 cons) e (u.envs e).envTf := by
      cases hu with
      | memory pm => exact hent
      | marked j => exact hset (s.entered c tf).pm rfl
      | freed j pm =>
        rw [hfreed (s.entered c tf) j cpu pm hlive']
        exact hent
      | forked j d pm hno hfl =>
        have hej : e ≠ j := by
          rintro rfl
          have hfree := ((hE.entered tf).allocated hfl 0 0 pm).1
          exact hlive ((Kernel.setEnv_proj Env.envStatus (by rfl) e).symm.trans hfree)
        rw [Kernel.setEnv_envs_of_ne hej]
        have hsame : ((s.entered c tf).allocated j ((s.entered c tf).envs c).envId d pm).envs e =
            (s.entered c tf).envs e := Function.update_of_ne hej _ _
        rw [hsame]
        exact hent
      | status j => exact hset (s.entered c tf).pm rfl
      | frame j t pm hno hj htf hload =>
        rw [Kernel.setEnv_envs]
        split
        · rename_i hej
          subst hej
          exact .set rfl hc hd htrap hno hj hload (.refl _)
        · exact hent
      | upcall j => exact hset (s.entered c tf).pm rfl
      | sent j pm => exact hset pm rfl
      | unsent j pm => exact hset pm rfl
    by_cases hec : e = c
    · subst hec
      unfold Kernel.setEax
      rw [Kernel.setEnv_envs_self]
      exact hu'.own hc ⟨rfl, rfl, rfl, rfl, rfl⟩
    · unfold Kernel.setEax
      rw [Kernel.setEnv_envs_of_ne hec]
      exact hu'

/-- The frame of an environment that lives through a step. -/
lemma Outcome.framed (hE : EnvsIn none s) (ho : Outcome s ev t)
    (hlive : (s.envs e).envStatus ≠ .free) (hlive' : (t.envs e).envStatus ≠ .free) :
    Framed s ev e (t.envs e).envTf := by
  cases ho with
  | user pm hev => exact .kept (fun _ _ _ _ h => absurd h (hev _ _ _ _)) rfl
  | wake hidle hs =>
    rw [hs.proj Env.envTf (fun _ _ _ _ => rfl) e]
    exact .kept (fun _ _ _ _ h => by cases h) rfl
  | trap hc hcs heff hs =>
    rw [hs.proj Env.envTf (fun _ _ _ _ => rfl) e]
    exact heff.framed hE hc hlive (fun hf => hlive' ((hs.envs e).free_iff.mpr hf))

/-! ### Runs -/

lemma UserMode.frameOk {f : Trapframe} (h : UserMode f tf) (hf : FrameOk f)
    (hd : DataSelectors tf) : FrameOk tf := by
  obtain ⟨hiopl, hif⟩ := h.flags hf.iopl
  refine ⟨?_, hd, hif.trans hf.interrupts, hiopl⟩
  rcases h.cs with hcs | hcs
  · exact hcs.trans hf.cs
  · exact hcs

/-- What `sys_env_set_trapframe` sees to. -/
lemma userMode_frameOk {f : Trapframe} (hcs : f.tfCs ||| 3 = gdUt ||| 3) : FrameOk f.userMode := by
  have hrpl : ∀ w : BitVec 16, (w ||| 3) &&& 3 = 3 := by
    intro w
    ext i hi
    simp only [BitVec.getElem_and, BitVec.getElem_or]
    cases (3 : BitVec 16)[i] <;> simp
  refine ⟨hcs, ⟨hrpl _, hrpl _, hrpl _⟩, ?_, ?_⟩
  · show (f.tfEflags ||| flIf) &&& ~~~flIopl3 &&& flIf = flIf
    rw [BitVec.and_assoc, show ~~~flIopl3 &&& flIf = flIf by decide]
    ext i hi
    simp only [BitVec.getElem_and, BitVec.getElem_or]
    cases flIf[i] <;> simp
  · show (f.tfEflags ||| flIf) &&& ~~~flIopl3 &&& flIopl3 = 0
    rw [BitVec.and_assoc, show ~~~flIopl3 &&& flIopl3 = 0#32 by decide, BitVec.and_zero]
    rfl

/-- The frames of the live environments that have nothing to do with the file server. -/
def FramesOk (h : List (Move Kernel Event)) (s : Kernel) : Prop :=
  ∀ e, (s.envs e).envStatus ≠ .free → ¬ FsKin h s e → FrameOk (s.envs e).envTf

lemma FramesOk.step (hs : FramesOk h s) (hE : EnvsIn none s) (hg : FrameGuard h s ev)
    (ho : Outcome s ev t) : FramesOk (h ++ [⟨s, ev, t⟩]) t := by
  intro e hlive' hkin
  have htrapped : ∀ cpu tf cr2 cons c, ev = .trap cpu tf cr2 cons →
      (s.cpus cpu).cpuEnv = some c → ¬ FsKin h s c → FrameOk tf := by
    intro cpu tf cr2 cons c hev hc hck
    exact (hg.user _ _ _ _ _ hev hc).frameOk (hs c (hE.ne_free hc) hck)
      (hg.data _ _ _ _ _ hev hc hck)
  by_cases hlive : (s.envs e).envStatus = .free
  · obtain ⟨cpu, c, tf, cr2, cons, d, rfl, hc, hst, htrap, hno, st, runs, cpunum, henv, -⟩ :=
      ho.born hE hlive hlive'
    have hck : ¬ FsKin h s c := by
      intro hck
      exact hkin (.forked hck (.trap hc hst htrap) hno hlive hlive')
    have htf := htrapped _ _ _ _ _ rfl hc hck
    have hmode : SameMode (t.envs e).envTf tf := by
      rw [henv]
      exact ⟨rfl, rfl, rfl, rfl, rfl⟩
    exact hmode.frameOk htf
  · have hek : ¬ FsKin h s e := fun hek => hkin (.kept hek hlive')
    cases ho.framed hE hlive hlive' with
    | kept hother hf =>
      rw [hf]
      exact hs e hlive hek
    | trapped hev hc hf => exact hf.frameOk (htrapped _ _ _ _ _ hev hc hek)
    | set hev hc hst htrap hno he hload hf =>
      exact hf.frameOk (userMode_frameOk
        (hg.set _ _ _ _ _ _ _ _ hev hc htrap hno he hek hload))

lemma createdEnv_frameOk (env : Env) (e : EnvIdx) (d : ℕ) (entry : Word) {type : EnvType}
    (htype : type ≠ .fs) : FrameOk (createdEnv env e d entry type).envTf := by
  unfold createdEnv freshEnv
  dsimp only
  rw [if_neg htype]
  have hdata : (gdUd ||| 3) &&& 3 = 3 := by decide
  have hflags : flIf &&& flIf = flIf ∧ flIf &&& flIopl3 = 0 := by decide
  exact ⟨rfl, ⟨hdata, hdata, hdata⟩, hflags.1, hflags.2⟩

lemma Booted.framesOk (hs : Booted B s) : FramesOk [] s := by
  apply hs.induct (FramesOk [])
  · exact fun e hlive => absurd rfl hlive
  intro s t j _ hs hcreated e hlive hkin
  obtain ⟨d, entry, type, henvs⟩ := hcreated.envs
  have hnot : (t.envs e).envType ≠ .fs := fun htype => hkin (.server hlive htype)
  rw [henvs] at hlive hnot ⊢
  by_cases hej : e = j
  · subst hej
    rw [Function.update_self] at hnot ⊢
    exact createdEnv_frameOk _ _ _ _ hnot
  · rw [Function.update_of_ne hej] at hlive hnot ⊢
    apply hs e hlive
    intro hk
    generalize hnil : ([] : List (Move Kernel Event)) = h at hk
    cases hk with
    | server _ htype => exact hnot htype
    | kept => simp at hnil
    | forked => simp at hnil

/-- In a run whose programs keep their selectors, and load frames with the code selector of user
programs, every environment outside the family of the file server has such a frame. -/
theorem frames_of_run (hr : Runs B h s) (hg : Along FrameGuard h) : FramesOk h s := by
  have hrun : EnvsIn none s ∧ FramesOk h s := by
    apply hr.induct_prefix hg (fun h s => EnvsIn none s ∧ FramesOk h s)
    · exact fun s hs => ⟨hs.ok.envs, hs.framesOk⟩
    · intro h s ev t hs hg hst
      exact ⟨hs.1.step hst hg.cpus, hs.2.step hs.1 hg (hst.outcome hs.1)⟩
  exact hrun.2

/-! ### A frame with another code selector -/

/-- The frame of a system call by a program that has left its selectors alone. -/
def userFrame (no a1 a2 : Word) : Trapframe :=
  { callFrame no a1 a2 0 0 0 with
    tfDs := gdUd ||| 3
    tfEs := gdUd ||| 3
    tfSs := gdUd ||| 3
    tfEflags := flIf }

/-- The small machine after `sys_getenvid`. -/
def smallAsk : Kernel := after (trap 0 (userFrame 2 0 0) 0 0) smallStart

/-- The small machine after `sys_env_set_trapframe(0, 0xeebfd000)`, a page of zeros. -/
def smallZeroed : Kernel := after (trap 0 (userFrame 9 0 0xeebfd000) 0 0) smallStart

lemma smallZeroed_calls : ((smallStart.cpus 0).cpuEnv ≠ none ∧
      exitOf (trap 0 (userFrame 2 0 0) 0 0) smallStart = some .leave ∧
      exitOf (trap 0 (userFrame 9 0 0xeebfd000) 0 0) smallStart = some .leave) ∧
    (flIf &&& flIopl3 = 0 ∧ flIf &&& flIf = (smallStart.envs 0).envTf.tfEflags &&& flIf) ∧
    ((∀ i, (smallBooted.envs i).envType ≠ .fs) ∧ (∀ i, (smallStart.envs i).envType ≠ .fs) ∧
      ∀ i, (smallZeroed.envs i).envType ≠ .fs) ∧
    (smallZeroed.envs 0).envStatus ≠ .free ∧ (smallZeroed.envs 0).envTf.tfCs ≠ gdUt ||| 3 := by
  decide +kernel

lemma smallStart_userStep (no a1 a2 : Word) :
    UserStep smallStart (.trap 0 (userFrame no a1 a2) 0 0) := by
  rintro cpu tf cr2 cons c ⟨⟩ hc
  obtain ⟨-, hflags, -⟩ := smallZeroed_calls
  obtain rfl := Option.some.inj (smallStart_calls.2.2.symm.trans hc)
  exact ⟨Or.inr rfl, fun _ => hflags⟩

lemma wake_frameGuard : Along FrameGuard [⟨smallBooted, .wake 0, smallStart⟩] := by
  have hnil : Along FrameGuard [] := fun h₁ m h₂ heq => by simp at heq
  apply hnil.concat (s := smallBooted) (i := .wake 0)
  refine ⟨trivial, ?_, ?_, ?_⟩
  · rintro cpu tf cr2 cons c ⟨⟩
  · rintro cpu tf cr2 cons c ⟨⟩
  · rintro cpu tf cr2 cons c e t pm ⟨⟩

theorem frames_of_run_getenvid : ∃ h, Runs smallBoot h smallAsk ∧ FramesOk h smallAsk := by
  obtain ⟨⟨hcur, hexit, -⟩, -⟩ := smallZeroed_calls
  have hr : Runs smallBoot _ smallAsk :=
    .next smallStart_run (.trap hcur (by decide) (eq_error_of_exitOf hexit))
  refine ⟨_, hr, frames_of_run hr (wake_frameGuard.concat ⟨?_, ?_, ?_, ?_⟩ _)⟩
  · exact (eventGuard_of_no (by decide)).cpuEvent
  · exact smallStart_userStep 2 0 0
  · rintro cpu tf cr2 cons c ⟨⟩ - -
    exact ⟨by decide, by decide, by decide⟩
  · rintro cpu tf cr2 cons c e t pm ⟨⟩ - - h9
    exact absurd h9 (by decide)

lemma FsKin.origin (hk : FsKin h s e) : (∃ i, (s.envs i).envType = .fs) ∨
    ∃ m ∈ h, ∃ i, (m.pre.envs i).envType = .fs := by
  induction hk with
  | @server h s e hst htype => exact Or.inl ⟨e, htype⟩
  | kept hk hst ih => 
    right
    rcases ih with ih | ⟨m, hm, ih⟩
    · exact ⟨_, List.mem_append_right _ (List.mem_singleton.mpr rfl), ih⟩
    · exact ⟨m, List.mem_append_left _ hm, ih⟩
  | forked hk hcall hno hfree hst ih =>
    right
    rcases ih with ih | ⟨m, hm, ih⟩
    · exact ⟨_, List.mem_append_right _ (List.mem_singleton.mpr rfl), ih⟩
    · exact ⟨m, List.mem_append_left _ hm, ih⟩

/-- Without a file server every environment has the code selector of user programs. -/
lemma FramesOk.code (hs : FramesOk h s) (hlive : (s.envs e).envStatus ≠ .free)
    (hfs : ∀ i, (s.envs i).envType ≠ .fs) (hfs' : ∀ m ∈ h, ∀ i, (m.pre.envs i).envType ≠ .fs) :
    (s.envs e).envTf.tfCs = gdUt ||| 3 := by
  apply FrameOk.cs
  apply hs e hlive
  intro hk
  cases hk.origin with
  | inl h =>
    obtain ⟨i, hi⟩ := h
    exact hfs i hi
  | inr h =>
    obtain ⟨m, hm, i, hi⟩ := h
    exact hfs' m hm i hi

lemma forall_moves {Q : Kernel → Event → Prop} {s s' t t' : Kernel} {ev ev' : Event} (hs : Q s ev)
    (hs' : Q s' ev') :
    ∀ m ∈ ([⟨s, ev, t⟩] ++ [⟨s', ev', t'⟩] : List (Move Kernel Event)), Q m.pre m.label := by
  intro m hm
  rw [List.mem_append, List.mem_singleton, List.mem_singleton] at hm
  rcases hm with rfl | rfl
  · exact hs
  · exact hs'

/-- An environment runs with a code selector that is none. -/
theorem frames_fail : ∃ h, Runs smallBoot h smallZeroed ∧
    (∀ m ∈ h, UserStep m.pre m.label) ∧ ¬ FramesOk h smallZeroed := by
  obtain ⟨⟨hcur, -, hexit⟩, -, ⟨hbooted, hstart, hzeroed⟩, hlive, hcs⟩ := smallZeroed_calls
  have hr : Runs smallBoot _ smallZeroed :=
    .next smallStart_run (.trap hcur (by decide) (eq_error_of_exitOf hexit))
  have hwake : UserStep smallBooted (.wake 0) := by rintro cpu tf cr2 cons c ⟨⟩
  have huser := smallStart_userStep 9 0 0xeebfd000
  refine ⟨_, hr, forall_moves hwake huser, fun hs => ?_⟩
  exact hcs (hs.code hlive hzeroed
    (forall_moves (Q := fun s _ => ∀ i, (s.envs i).envType ≠ .fs) hbooted hstart))

end SistemasOperativos.Kern
