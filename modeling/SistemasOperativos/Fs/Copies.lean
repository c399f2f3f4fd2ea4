import SistemasOperativos.Fs.Bounds
import SistemasOperativos.Fs.FirstBlock

/-!
# Copies between a request and a file

When a copy stays in the buffer of the request, when it leaves it, and which bytes it puts into a reply.
-/

namespace SistemasOperativos.Fs

open Library Kern

/-- The server after bytes have been put into the reply. -/
def withReply (s : Server) (x : Fs) (q k : ℕ) (bs : List Byte) : Server :=
  { s with fs := x, page := Function.update s.page q (putBytes (s.page q) k bs) }

variable {s t u : Server} {call : DataCall} {f q p k m n a b : ℕ} {offset stop pos w : Word}
  {x y : Fs} {bs buf : List Byte}

/-! ### Replies -/

lemma withReply_nil (s : Server) (q k : ℕ) : withReply s s.fs q k [] = s := by
  unfold withReply putBytes
  rw [Function.update_eq_self]

lemma withReply_withReply (h : k + bs.length = m) :
    withReply (withReply s x q k bs) y q m buf = withReply s y q k (bs ++ buf) := by
  unfold withReply
  dsimp only
  rw [Function.update_self, Function.update_idem, putBytes_append, h]

lemma withReply_moved (s : Server) (x : Fs) (q k : ℕ) (bs : List Byte) :
    Moved (fun p => p = q) s (withReply s x q k bs) :=
  ⟨rfl, fun _ hp => Function.update_of_ne hp _ _⟩

/-! ### Copies that leave the buffer -/

lemma copyOut_sat (hk : k ≤ 4096) (hw : s.writable = true) (q : ℕ) (h : Ready s.fs b)
    (ha : n = 0 ∨ a / 4096 = b) (hfits : a % 4096 + n ≤ 4096) :
    Sat (copyOut q n a k) s
      (fun _ t => k + n ≤ 4096 ∧ Moved (fun p => p = q) s t ∧ t.fs.content = s.fs.content)
      (fun e _ => e = .fs .noMem ∨ (e = .overrun ∧ 4096 < k + n)) := by
  induction n generalizing a k s with
  | zero =>
    unfold copyOut
    exact sat_pure.mpr ⟨hk, .refl _ s, rfl⟩
  | succ n ih =>
    have ha : a / 4096 = b := ha.resolve_left (Nat.succ_ne_zero n)
    subst ha
    unfold copyOut
    rw [sat_bind, sat_onFs]
    refine (loadByte_ready h).mono ?_ (fun e _ he => .inl (congrArg _ he.1))
    rintro x t ⟨-, ht, hready⟩
    unfold storeReply
    simp only [sat_bind, sat_ite, sat_throw, sat_get, sat_modify]
    refine ⟨fun hle => .inr ⟨trivial, by omega⟩, fun hlt => ⟨fun hno => ?_, fun _ => ?_⟩⟩
    · rw [hw] at hno
      exact absurd hno (by decide)
    have hmoved := withReply_moved s t q k [x]
    refine (ih (k := k + 1) (a := a + 1) (s := withReply s t q k [x]) (by omega) hw hready (by omega)
      (by omega)).mono ?_ ?_
    · rintro - u ⟨hle, hu, hcu⟩
      exact ⟨by omega, hmoved.trans hu, hcu.trans ht.content⟩
    · rintro e - (hmem | ⟨hover, hlt'⟩)
      · exact .inl hmem
      · exact .inr ⟨hover, by omega⟩

lemma copyIn_sat (hk : k ≤ reqBufSize) (q : ℕ) (h : Ready s.fs b) (ha : n = 0 ∨ a / 4096 = b)
    (hfits : a % 4096 + n ≤ 4096) :
    Sat (copyIn q n a k) s
      (fun _ t => k + n ≤ reqBufSize ∧ Moved (fun _ => False) s t ∧
        ∀ i, i / 4096 ≠ b → t.fs.content i = s.fs.content i)
      (fun e _ => e = .fs .noMem ∨ (e = .overrun ∧ reqBufSize < k + n)) := by
  induction n generalizing a k s with
  | zero =>
    unfold copyIn
    exact sat_pure.mpr ⟨hk, .refl _ s, fun _ _ => rfl⟩
  | succ n ih =>
    have ha : a / 4096 = b := ha.resolve_left (Nat.succ_ne_zero n)
    subst ha
    unfold copyIn loadData
    simp only [sat_bind, sat_ite, sat_throw, sat_get, sat_pure]
    refine ⟨fun hle => .inr ⟨trivial, by omega⟩, fun hlt => ?_⟩
    rw [sat_onFs]
    refine (storeByte_ready h (s.page q (reqBuf + k))).mono ?_ (fun e _ he => .inl (congrArg _ he.1))
    rintro - t ⟨ht, hready⟩
    refine (ih (k := k + 1) (a := a + 1) (s := { s with fs := t }) (by omega) hready (by omega)
      (by omega)).mono ?_ ?_
    · rintro - u ⟨hle, hu, hcu⟩
      refine ⟨by omega, (moved_fs _ s t).trans hu, fun i hi => (hcu i hi).trans ?_⟩
      dsimp only
      rw [ht.content, Function.update_of_ne]
      rintro rfl
      exact hi rfl
    · rintro e - (hmem | ⟨hover, hlt'⟩)
      · exact .inl hmem
      · exact .inr ⟨hover, by omega⟩

/-- What a copy leaves of the disk. -/
def DataCall.Leaves (call : DataCall) (b : ℕ) (c c' : ℕ → Byte) : Prop :=
  match call with
  | .read => c' = c
  | .write => ∀ i, i / 4096 ≠ b → c' i = c i

lemma move_sat (hk : k ≤ call.bound) (hw : call = .read → s.writable = true) (q : ℕ) (h : Ready s.fs b)
    (ha : a / 4096 = b) (hfits : a % 4096 + n ≤ 4096) :
    Sat (call.move q n a k) s
      (fun _ t => k + n ≤ call.bound ∧ Moved (call.Writes q) s t ∧
        call.Leaves b s.fs.content t.fs.content)
      (fun e _ => e = .fs .noMem ∨ (e = .overrun ∧ call.bound < k + n)) := by
  cases call with
  | read =>
    refine (copyOut_sat hk (hw rfl) q h (.inr ha) hfits).post ?_
    rintro - t ⟨hle, ht, hct⟩
    exact ⟨hle, ht.mono (fun _ hp => ⟨rfl, hp⟩), hct⟩
  | write =>
    refine (copyIn_sat hk q h (.inr ha) hfits).post ?_
    rintro - t ⟨hle, ht, hct⟩
    exact ⟨hle, ht.mono (fun _ hp => hp.elim), hct⟩

/-- The first store into a free block that is not in the cache stops the server. -/
lemma copyIn_free (hk : k < reqBufSize) (q n : ℕ) (hfree : IsFree s.fs.content (a / 4096))
    (hnone : s.fs.cache.pages (a / 4096) = none) :
    Sat (copyIn q (n + 1) a k) s (fun _ _ => False) (fun e _ => e ≠ .overrun) := by
  unfold copyIn loadData storeByte
  simp only [sat_bind, sat_ite, sat_throw, sat_get, sat_pure]
  refine ⟨fun hle => absurd hk (Nat.not_lt.mpr hle), fun _ => ?_⟩
  rw [sat_onFs, sat_bind]
  exact (touch_free hfree hnone).mono (fun _ _ hfalse => hfalse.elim) (fun _ _ _ => ServeExit.noConfusion)

/-- A page that cannot be written stops the server at the first byte. -/
lemma copyOut_readonly (hk : k < 4096) (hw : ¬s.writable = true) (hn : 0 < n) (q a : ℕ) :
    Sat (copyOut q n a k) s (fun _ _ => False) (fun e _ => e ≠ .overrun) := by
  cases n with
  | zero => exact absurd hn (Nat.lt_irrefl 0)
  | succ n =>
    unfold copyOut
    rw [sat_bind, sat_onFs]
    refine (sat_self (loadByte a) s.fs).mono (fun x t _ => ?_) (fun _ _ _ => ServeExit.noConfusion)
    unfold storeReply
    simp only [sat_bind, sat_ite, sat_throw, sat_get, sat_modify]
    refine ⟨fun hle => absurd hk (Nat.not_lt.mpr hle), fun _ => ⟨fun _ => ServeExit.noConfusion, ?_⟩⟩
    intro hyes
    rw [Bool.not_eq_true', Bool.not_eq_false] at hyes
    exact absurd hyes hw

/-! ### What a reply holds -/

lemma loadBytes_length (a n : ℕ) (s : Fs) : Sat (loadBytes a n) s (fun bs _ => bs.length = n) Anyhow := by
  induction n generalizing a s with
  | zero =>
    unfold loadBytes
    exact sat_pure.mpr rfl
  | succ n ih =>
    unfold loadBytes
    rw [sat_bind]
    refine (sat_self (loadByte a) s).mono (fun x t _ => ?_) (fun _ _ _ => trivial)
    rw [sat_bind]
    refine (ih (a + 1) t).post (fun bs u hlen => ?_)
    exact sat_pure.mpr (congrArg Nat.succ hlen)

section Reads

variable (hw : s.writable = true) {E : FsExit → Fs → Prop}
include hw

/-- A copy to a reply that can be written puts there what `loadBytes` returns. -/
lemma copyOut_loads {Q : List Byte → Fs → Prop} (q : ℕ) (h : k + n ≤ 4096)
    (hload : Sat (loadBytes a n) s.fs Q E) :
    Sat (copyOut q n a k) s (fun _ t => ∃ bs, Q bs t.fs ∧ t = withReply s t.fs q k bs)
      (fun e t => ∃ e', e = .fs e' ∧ E e' t.fs) := by
  induction n generalizing a k s Q with
  | zero =>
    unfold loadBytes at hload
    unfold copyOut
    exact sat_pure.mpr ⟨[], sat_pure.mp hload, (withReply_nil s q k).symm⟩
  | succ n ih =>
    unfold loadBytes at hload
    rw [sat_bind] at hload
    unfold copyOut
    rw [sat_bind, sat_onFs]
    refine hload.mono ?_ (fun e t he => ⟨e, rfl, he⟩)
    intro x t ht
    rw [sat_bind] at ht
    unfold storeReply
    simp only [sat_bind, sat_ite, sat_throw, sat_get, sat_modify]
    refine ⟨fun hle => by omega, fun _ => ⟨fun hno => ?_, fun _ => ?_⟩⟩
    · rw [hw] at hno
      exact absurd hno (by decide)
    · refine (ih (s := withReply s t q k [x]) (k := k + 1) hw (by omega) ht).post ?_
      rintro - u ⟨bs, hbs, hu⟩
      refine ⟨x :: bs, sat_pure.mp hbs, hu.trans ?_⟩
      exact withReply_withReply (show k + [x].length = k + 1 from rfl)

/-- A loop whose bytes fit into a reply that can be written puts there what `file_read` returns. -/
lemma moveLoop_reads {Q : Except ℤ (List Byte) → Fs → Prop} (q f fuel : ℕ)
    (h : k + (stop.toNat - pos.toNat) ≤ 4096) (hread : Sat (readLoop f stop fuel pos) s.fs Q E) :
    Sat (moveLoop (copyOut q) f stop fuel pos k) s
      (fun r t => (∃ e, r = .error e ∧ Q (.error e) t.fs ∧ Moved (fun p => p = q) s t) ∨
        (∃ bs, r = .ok () ∧ Q (.ok bs) t.fs ∧ t = withReply s t.fs q k bs))
      (fun e t => ∃ e', e = .fs e' ∧ E e' t.fs) := by
  induction fuel generalizing pos k s Q with
  | zero =>
    unfold readLoop at hread
    unfold moveLoop
    exact sat_pure.mpr (.inr ⟨[], rfl, sat_pure.mp hread, (withReply_nil s q k).symm⟩)
  | succ fuel ih =>
    unfold readLoop at hread
    unfold moveLoop
    by_cases hlt : pos < stop
    · have hlt' : pos.toNat < stop.toNat := hlt
      have hle := toNat_chunk_le hlt'
      have hnext := toNat_add_chunk hlt'
      rw [if_pos hlt, sat_bind] at hread
      rw [if_pos hlt, sat_bind, sat_onFs]
      refine hread.mono ?_ (fun e t he => ⟨e, rfl, he⟩)
      rintro (r | blk) x hx
      · exact sat_pure.mpr (.inl ⟨r, rfl, sat_pure.mp hx, moved_fs _ s x⟩)
      · dsimp only at hx ⊢
        rw [sat_bind] at hx ⊢
        have hload := (loadBytes_length (posAddr blk pos) (chunk pos stop).toNat x).and hx
        refine (copyOut_loads (s := { s with fs := x }) hw q (by omega) hload).mono ?_ ?_
        · rintro - t ⟨bs, ⟨hlen, hrest⟩, ht⟩
          rw [sat_bind] at hrest
          have hwt : t.writable = true := by
            rw [ht]
            exact hw
          have hmoved : Moved (fun p => p = q) s t := by
            rw [ht]
            exact (moved_fs _ s x).trans (withReply_moved _ _ q k bs)
          refine (ih (k := k + (chunk pos stop).toNat) hwt (by omega) hrest).mono ?_ (fun _ _ he => he)
          rintro r v (⟨e, rfl, he, hv⟩ | ⟨rest, rfl, hrest, hv⟩)
          · exact .inl ⟨e, rfl, sat_pure.mp he, hmoved.trans hv⟩
          · refine .inr ⟨bs ++ rest, rfl, sat_pure.mp hrest, ?_⟩
            rw [hv, ht]
            exact withReply_withReply (by rw [hlen])
        · rintro e t ⟨e', rfl, -, he⟩
          exact ⟨e', rfl, he⟩
    · rw [if_neg hlt] at hread ⊢
      exact sat_pure.mpr (.inr ⟨[], rfl, sat_pure.mp hread, (withReply_nil s q k).symm⟩)

end Reads

end SistemasOperativos.Fs
