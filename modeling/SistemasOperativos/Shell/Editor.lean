import SistemasOperativos.Shell.Readline

/-!
# Editing a line

What `read_line` does with the keys: the buffer, the cursor and the line on the terminal, each
changed by different functions. A character takes one place on the terminal, and what is printed is
there when the next key is pressed.
-/

namespace SistemasOperativos.Shell

open Library

def buflen : ℕ := 1024

/-- How large the buffer is that `getline` allocates for a line: it has to hold a null character
too. -/
structure LineSize where
  size : List Char → ℕ
  fits : ∀ l, l.length < size l

/-- `count_lines` and `get_lines`: the commands of the history file; `none` when memory outside of a
line or of the array is touched. `strncpy` fills as many places as the buffer of the line has. -/
def getLines (size : LineSize) : Option (List Char) → Option (List (List Char))
  | none => some []
  | some file => (fileLines file).mapM fun l =>
    if size.size l ≤ buflen then stripLast (l ++ [endString]) else none

/-- The variables of `read_line` and what stands behind the prompt. -/
structure Editor where
  buffer : List Char
  i : ℕ
  mostrados : ℕ
  shown : List Char

/-- After `limpiar_buffer`. -/
def emptyBuffer : List Char := List.replicate buflen endString

def Editor.start : Editor := ⟨emptyBuffer, 0, 0, []⟩

/-- `clear_terminal`. -/
def clearTerminal (largo : ℕ) (shown : List Char) : List Char := shown.take (shown.length - largo)

/-- `desplazar`. -/
def desplazar (comando : List Char) (e : Editor) : Option Editor :=
  (memcpy emptyBuffer comando).map fun buffer =>
    { e with buffer := buffer, i := comando.length, shown := clearTerminal e.i e.shown ++ comando }

/-- `manejar_desplazamiento`. -/
def manejarDesplazamiento (comandos : List (List Char)) (c : Option Char) (e : Editor) :
    Option Editor :=
  if comandos.length = 0 then some { e with buffer := emptyBuffer, i := 0 }
  else if c = some up then
    let mostrados := (if e.mostrados = comandos.length then 0 else e.mostrados) + 1
    comandos[comandos.length - mostrados]?.bind fun comando =>
      desplazar comando { e with mostrados := mostrados }
  else if c = some down then
    if 1 < e.mostrados then
      comandos[comandos.length - (e.mostrados - 1)]?.bind fun comando =>
        desplazar comando { e with mostrados := e.mostrados - 1 }
    else
      some { e with buffer := e.buffer.set 0 endString, i := 0, shown := clearTerminal e.i e.shown }
  else some e

def esImprimible : Option Char → Bool
  | none => false
  | some c => 31 < c.toNat

/-- `buffer[k] = c`; `none` outside of the buffer. -/
def store (buffer : List Char) (k : ℕ) (c : Char) : Option (List Char) :=
  if k < buffer.length then some (buffer.set k c) else none

/-- The body of the loop of `read_line`. -/
def edit (comandos : List (List Char)) (e : Editor) : Key → Option Editor
  | .ignored => some e
  | .move c => manejarDesplazamiento comandos c e
  | .plain c =>
    if c = some backspace then
      if e.i = 0 then some e
      else do
        let buffer ← store e.buffer e.i endString
        let buffer ← store buffer (e.i - 1) endString
        return { e with buffer := buffer, i := e.i - 1, shown := clearTerminal 1 e.shown }
    else
      match c with
      | none => some e
      | some c =>
        if esImprimible (some c) then
          (store e.buffer e.i c).map fun buffer =>
            { e with buffer := buffer, i := e.i + 1, shown := e.shown ++ [c] }
        else some e

/-- `read_line` after these keys. -/
def session (size : LineSize) (history : Option (List Char)) (keys : List Key) : Option Editor := do
  let comandos ← getLines size history
  keys.foldlM (edit comandos) Editor.start

/-! ### The contract -/

/-- The texts of the lines of the history. -/
def historyLines : Option (List Char) → List (List Char)
  | none => []
  | some file => (fileLines file).map (lineText endLine)

/-- How far back in a history of `cant` lines the keys have gone: from the oldest line to the newest
again, and not below 0, the empty line. -/
def moved (cant n : ℕ) : Key → ℕ
  | .move c =>
    if c = some up then if cant = 0 then 0 else if n = cant then 1 else n + 1
    else if c = some down then n - 1
    else n
  | _ => n

def movedBy (cant : ℕ) (keys : List Key) : ℕ := keys.foldl (moved cant) 0

def selected (lines : List (List Char)) (n : ℕ) : List Char :=
  if n = 0 then [] else (lines[lines.length - n]?).getD []

def Key.isArrow : Key → Bool
  | .move c => c = some up || c = some down
  | _ => false

/-- The buffer holds what is shown, and nothing else; behind an arrow key that is the line that the
keys have come to. -/
structure InStep (lines : List (List Char)) (keys : List Key) (e : Editor) : Prop where
  bound : e.i < buflen
  text : e.buffer.take e.i = e.shown
  zero : ∀ k c, e.i ≤ k → e.buffer[k]? = some c → c = endString
  line : ∀ key ∈ keys.getLast?, key.isArrow = true → e.shown = selected lines (movedBy lines.length keys)

/-- The lines of the history fit, have their newlines and no null characters. -/
def Loadable (size : LineSize) : Option (List Char) → Prop
  | none => True
  | some file => ∀ l ∈ fileLines file, size.size l ≤ buflen ∧ l.getLast? = some endLine ∧ endString ∉ l

/-- There is room for a character; without history a sequence finds the line empty; up does not come
after a down from the newest line, unless there is no other; and a down from there leaves one
character at most. -/
def Allowed (cant n : ℕ) (e : Editor) : Key → Prop
  | .ignored => True
  | .plain c => c ≠ some backspace → esImprimible c = true → e.i + 1 < buflen
  | .move c => (cant = 0 → e.i = 0) ∧
    (cant ≠ 0 → c = some up → e.mostrados = n ∨ cant = 1) ∧
    (cant ≠ 0 → c = some down → e.mostrados ≤ 1 → e.i ≤ 1)

/-- Every key of the session is allowed. -/
def AllAllowed (size : LineSize) (history : Option (List Char)) (keys : List Key) : Prop :=
  ∀ pre key, pre ++ [key] <+: keys → ∀ e, session size history pre = some e →
    Allowed (historyLines history).length (movedBy (historyLines history).length pre) e key

/-! ### One key -/

/-- What the keys keep, when they have gone `n` lines back. -/
structure Kept (cant n : ℕ) (e : Editor) : Prop where
  length : e.buffer.length = buflen
  bound : e.i < buflen
  text : e.buffer.take e.i = e.shown
  zero : ∀ k c, e.i ≤ k → e.buffer[k]? = some c → c = endString
  le : n ≤ cant
  -- a down from the newest line leaves the counter
  count : e.mostrados = n ∨ e.mostrados = 1 ∧ n = 0 ∧ cant ≠ 0

variable {size : LineSize} {history : Option (List Char)} {comandos : List (List Char)} {cant n : ℕ}
  {e : Editor} {key : Key}

lemma Kept.length_shown (h : Kept cant n e) : e.shown.length = e.i := by
  rw [← h.text, List.length_take, h.length]
  exact min_eq_left (Nat.le_of_lt h.bound)

lemma Kept.clear (h : Kept cant n e) : clearTerminal e.i e.shown = [] := by
  unfold clearTerminal
  rw [h.length_shown, Nat.sub_self, List.take_zero]

lemma kept_start (cant : ℕ) : Kept cant 0 Editor.start := by
  refine ⟨List.length_replicate, by decide, rfl, ?_, Nat.zero_le _, .inl rfl⟩
  intro k c _ hk
  exact List.eq_of_mem_replicate (List.mem_of_getElem? hk)

lemma memcpy_empty {comando : List Char} (h : comando.length < buflen) :
    memcpy emptyBuffer comando = some (comando ++ emptyBuffer.drop comando.length) := by
  unfold memcpy
  rw [if_pos]
  unfold emptyBuffer
  rw [List.length_replicate]
  exact Nat.le_of_lt h

/-- A command that is shown takes the place of the line. -/
lemma desplazar_kept {comando : List Char} {m : ℕ} (h : Kept cant n e) (hlen : comando.length < buflen)
    (hm : m ≤ cant) : ∃ e', desplazar comando { e with mostrados := m } = some e' ∧ Kept cant m e' ∧
      e'.shown = comando := by
  have hshown : clearTerminal e.i e.shown ++ comando = comando := by
    rw [h.clear, List.nil_append]
  refine ⟨⟨comando ++ emptyBuffer.drop comando.length, comando.length, m, comando⟩, ?_, ?_, rfl⟩
  · unfold desplazar
    rw [memcpy_empty hlen, Option.map_some]
    dsimp only
    rw [hshown]
  · refine ⟨?_, hlen, List.take_left, ?_, hm, .inl rfl⟩
    · unfold emptyBuffer
      rw [List.length_append, List.length_drop, List.length_replicate]
      omega
    · intro k c hk hc
      rw [List.getElem?_append_right hk] at hc
      exact List.eq_of_mem_replicate (List.mem_of_mem_drop (List.mem_of_getElem? hc))

lemma selected_of_pos {lines : List (List Char)} (h : n ≠ 0) {l : List Char}
    (hl : lines[lines.length - n]? = some l) : selected lines n = l := by
  unfold selected
  rw [if_neg h, hl]
  rfl

/-- What a key does when it is allowed. -/
def KeepsTo (comandos : List (List Char)) (n : ℕ) (key : Key) (out : Option Editor) : Prop :=
  ∃ e', out = some e' ∧ Kept comandos.length (moved comandos.length n key) e' ∧
    (key.isArrow = true → e'.shown = selected comandos (moved comandos.length n key))

/-- Without history the buffer is emptied, and the line has to be empty before. -/
lemma move_empty {c : Option Char} (h : Kept comandos.length n e) (hcant : comandos.length = 0)
    (hi : e.i = 0) : KeepsTo comandos n (.move c) (manejarDesplazamiento comandos c e) := by
  have hn : n = 0 := by
    have hle := h.le
    omega
  have hmoved : moved comandos.length n (.move c) = 0 := by
    unfold moved
    dsimp only
    rw [hcant, hn, if_pos rfl]
    split
    · rfl
    · split <;> rfl
  have hshown : e.shown = [] := by
    rw [← h.text, hi, List.take_zero]
  have hbound : 0 < buflen := by decide
  unfold manejarDesplazamiento KeepsTo
  rw [if_pos hcant, hmoved]
  refine ⟨_, rfl, ⟨List.length_replicate, hbound, hshown.symm, ?_, Nat.zero_le _, ?_⟩, fun _ => hshown⟩
  · intro k c _ hc
    exact List.eq_of_mem_replicate (List.mem_of_getElem? hc)
  · have hcount := h.count
    rwa [hn] at hcount

/-- The command `m` lines back is shown. -/
lemma show_comando {c : Option Char} {m : ℕ} (hfit : ∀ l ∈ comandos, l.length < buflen)
    (h : Kept comandos.length n e) (hmoved : moved comandos.length n (.move c) = m) (hpos : m ≠ 0)
    (hm : m ≤ comandos.length) :
    KeepsTo comandos n (.move c) (comandos[comandos.length - m]?.bind fun comando =>
      desplazar comando { e with mostrados := m }) := by
  have hlt : comandos.length - m < comandos.length := by omega
  have hl : comandos[comandos.length - m]? = some comandos[comandos.length - m] :=
    List.getElem?_eq_getElem hlt
  obtain ⟨e', hrun, hkept, hshown⟩ := desplazar_kept h (hfit _ (List.getElem_mem hlt)) hm
  unfold KeepsTo
  rw [hmoved, hl]
  exact ⟨e', hrun, hkept, fun _ => hshown.trans (selected_of_pos hpos hl).symm⟩

/-- Up: the counter is right, or there is one line only. -/
lemma move_up (hfit : ∀ l ∈ comandos, l.length < buflen) (h : Kept comandos.length n e)
    (hcant : comandos.length ≠ 0) (hup : e.mostrados = n ∨ comandos.length = 1) :
    KeepsTo comandos n (.move (some up)) (manejarDesplazamiento comandos (some up) e) := by
  have hmoved : moved comandos.length n (.move (some up)) = if n = comandos.length then 1 else n + 1 := by
    unfold moved
    dsimp only
    rw [if_pos rfl, if_neg hcant]
  have hm : (if e.mostrados = comandos.length then 0 else e.mostrados) + 1 =
      moved comandos.length n (.move (some up)) := by
    rw [hmoved]
    rcases h.count with hcount | ⟨hcount, hn, -⟩
    · rw [hcount]
      split <;> rfl
    · rcases hup with hcount' | hone
      · omega
      · rw [hcount, hn, hone]
        rfl
  have hle : moved comandos.length n (.move (some up)) ≤ comandos.length := by
    have hle := h.le
    rw [hmoved]
    split
    · omega
    · omega
  unfold manejarDesplazamiento
  rw [if_neg hcant, if_pos rfl, hm]
  exact show_comando hfit h rfl (by omega) hle

/-- Down: from the newest line or below it one character at most can be taken off. -/
lemma move_down (hfit : ∀ l ∈ comandos, l.length < buflen) (h : Kept comandos.length n e)
    (hcant : comandos.length ≠ 0) (hdown : e.mostrados ≤ 1 → e.i ≤ 1) :
    KeepsTo comandos n (.move (some down)) (manejarDesplazamiento comandos (some down) e) := by
  have hup : ¬ some down = some up := by decide
  have hmoved : moved comandos.length n (.move (some down)) = n - 1 := by
    unfold moved
    dsimp only
    rw [if_neg hup, if_pos rfl]
  have hle := h.le
  unfold manejarDesplazamiento
  rw [if_neg hcant, if_neg hup, if_pos rfl]
  by_cases hmost : 1 < e.mostrados
  · have hcount : e.mostrados = n := by
      rcases h.count with hcount | ⟨hcount, -⟩
      · exact hcount
      · omega
    rw [if_pos hmost, hcount]
    exact show_comando hfit h hmoved (by omega) (by omega)
  · have hi := hdown (by omega)
    have hbound : 0 < buflen := by decide
    have hn : n - 1 = 0 := by
      rcases h.count with hcount | ⟨-, hcount, -⟩
      · omega
      · omega
    unfold KeepsTo
    rw [if_neg hmost, h.clear, hmoved, hn]
    refine ⟨_, rfl, ⟨?_, hbound, rfl, ?_, Nat.zero_le _, ?_⟩, fun _ => rfl⟩
    · rw [List.length_set]
      exact h.length
    · intro k c _ hk
      dsimp only at hk
      by_cases hk0 : k = 0
      · rw [hk0, List.getElem?_set_self (by rw [h.length]; exact hbound)] at hk
        exact (Option.some.inj hk).symm
      · rw [List.getElem?_set_ne (Ne.symm hk0)] at hk
        exact h.zero k c (by omega) hk
    · dsimp only
      by_cases hmost0 : e.mostrados = 0
      · exact .inl hmost0
      · exact .inr ⟨by omega, rfl, hcant⟩

/-- An escape sequence. -/
lemma move_kept {c : Option Char} (hfit : ∀ l ∈ comandos, l.length < buflen)
    (h : Kept comandos.length n e) (hok : Allowed comandos.length n e (.move c)) :
    KeepsTo comandos n (.move c) (manejarDesplazamiento comandos c e) := by
  obtain ⟨hempty, hup, hdown⟩ := hok
  by_cases hcant : comandos.length = 0
  · exact move_empty h hcant (hempty hcant)
  by_cases hcup : c = some up
  · have hup' := hup hcant hcup
    rw [hcup]
    exact move_up hfit h hcant hup'
  by_cases hcdown : c = some down
  · have hdown' := hdown hcant hcdown
    rw [hcdown]
    exact move_down hfit h hcant hdown'
  · have hmoved : moved comandos.length n (.move c) = n := by
      unfold moved
      dsimp only
      rw [if_neg hcup, if_neg hcdown]
    unfold manejarDesplazamiento KeepsTo
    rw [if_neg hcant, if_neg hcup, if_neg hcdown, hmoved]
    refine ⟨e, rfl, h, fun harrow => ?_⟩
    unfold Key.isArrow at harrow
    rcases Bool.or_eq_true_iff.mp harrow with harrow | harrow
    · exact absurd (of_decide_eq_true harrow) hcup
    · exact absurd (of_decide_eq_true harrow) hcdown

/-- The backspace key. -/
lemma backspace_kept (h : Kept cant n e) : ∃ buffer buffer',
    store e.buffer e.i endString = some buffer ∧ store buffer (e.i - 1) endString = some buffer' ∧
      Kept cant n { e with buffer := buffer', i := e.i - 1, shown := clearTerminal 1 e.shown } := by
  have hlen := h.length
  have hbound := h.bound
  refine ⟨e.buffer.set e.i endString, (e.buffer.set e.i endString).set (e.i - 1) endString, ?_, ?_, ?_⟩
  · unfold store
    rw [if_pos (by omega)]
  · unfold store
    rw [List.length_set, if_pos (by omega)]
  refine ⟨?_, by dsimp only; omega, ?_, ?_, h.le, h.count⟩
  · dsimp only
    rw [List.length_set, List.length_set, hlen]
  · dsimp only
    unfold clearTerminal
    rw [List.take_set_of_le (Nat.le_refl _), List.take_set_of_le (by omega), h.length_shown, ← h.text,
      List.take_take]
    congr 1
    omega
  · intro k c hk hc
    dsimp only at hk hc
    by_cases hk1 : k = e.i - 1
    · rw [hk1, List.getElem?_set_self (by rw [List.length_set]; omega)] at hc
      exact (Option.some.inj hc).symm
    rw [List.getElem?_set_ne (Ne.symm hk1)] at hc
    by_cases hk0 : k = e.i
    · rw [hk0, List.getElem?_set_self (by omega)] at hc
      exact (Option.some.inj hc).symm
    · rw [List.getElem?_set_ne (Ne.symm hk0)] at hc
      exact h.zero k c (by omega) hc

/-- A character that is shown. -/
lemma character_kept {c : Char} (h : Kept cant n e) (hi : e.i + 1 < buflen) : ∃ buffer,
    store e.buffer e.i c = some buffer ∧
      Kept cant n { e with buffer := buffer, i := e.i + 1, shown := e.shown ++ [c] } := by
  have hlen := h.length
  refine ⟨e.buffer.set e.i c, ?_, ?_⟩
  · unfold store
    rw [if_pos (by omega)]
  refine ⟨?_, hi, ?_, ?_, h.le, h.count⟩
  · dsimp only
    rw [List.length_set, hlen]
  · dsimp only
    rw [List.take_add_one, List.take_set_of_le (Nat.le_refl _),
      List.getElem?_set_self (by omega), h.text]
    rfl
  · intro k d hk hd
    dsimp only at hk hd
    rw [List.getElem?_set_ne (by omega)] at hd
    exact h.zero k d (by omega) hd

/-- Every allowed key keeps the line. -/
lemma edit_kept (hfit : ∀ l ∈ comandos, l.length < buflen) (h : Kept comandos.length n e)
    (hok : Allowed comandos.length n e key) : KeepsTo comandos n key (edit comandos e key) := by
  cases key with
  | ignored => exact ⟨e, rfl, h, nofun⟩
  | move c => exact move_kept hfit h hok
  | plain c =>
    unfold edit
    dsimp only
    by_cases hback : c = some backspace
    · rw [if_pos hback]
      by_cases hi : e.i = 0
      · rw [if_pos hi]
        exact ⟨e, rfl, h, nofun⟩
      · obtain ⟨buffer, buffer', hstore, hstore', hkept⟩ := backspace_kept h
        rw [if_neg hi, hstore]
        refine ⟨_, ?_, hkept, nofun⟩
        simp only [Option.bind_eq_bind, Option.bind_some, hstore']
        rfl
    · rw [if_neg hback]
      cases c with
      | none => exact ⟨e, rfl, h, nofun⟩
      | some c =>
        dsimp only
        by_cases hprint : esImprimible (some c) = true
        · obtain ⟨buffer, hstore, hkept⟩ := character_kept h (hok hback hprint)
          rw [if_pos hprint, hstore]
          exact ⟨_, rfl, hkept, nofun⟩
        · rw [if_neg hprint]
          exact ⟨e, rfl, h, nofun⟩

/-! ### Results -/

lemma mapM_eq_map {α β : Type} {f : α → Option β} {g : α → β} {ls : List α}
    (h : ∀ l ∈ ls, f l = some (g l)) : ls.mapM f = some (ls.map g) := by
  induction ls with
  | nil => rfl
  | cons l ls ih =>
    rw [List.mapM_cons, h l List.mem_cons_self, ih fun l' hl' => h l' (List.mem_cons_of_mem l hl')]
    rfl

/-- A history that can be loaded is loaded as it is. -/
lemma getLines_eq (h : Loadable size history) : getLines size history = some (historyLines history) ∧
    ∀ l ∈ historyLines history, l.length < buflen := by
  cases history with
  | none => exact ⟨rfl, nofun⟩
  | some file =>
    constructor
    · refine mapM_eq_map fun l hl => ?_
      obtain ⟨hsize, hlast, hnul⟩ := h l hl
      unfold lineText
      rw [if_pos hsize, if_pos hlast]
      exact stripLast_line (rawLines_ne_nil hl) hnul
    · intro t ht
      obtain ⟨l, hl, rfl⟩ := List.mem_map.mp ht
      obtain ⟨hsize, hlast, -⟩ := h l hl
      have hfits := size.fits l
      unfold lineText
      rw [if_pos hlast, List.length_dropLast]
      omega

lemma movedBy_append (cant : ℕ) (keys : List Key) (key : Key) :
    movedBy cant (keys ++ [key]) = moved cant (movedBy cant keys) key := by
  unfold movedBy
  rw [List.foldl_append]
  rfl

lemma session_append (keys : List Key) (key : Key) : session size history (keys ++ [key]) =
    (getLines size history).bind fun comandos =>
      (session size history keys).bind fun e => edit comandos e key := by
  unfold session
  cases getLines size history with
  | none => rfl
  | some comandos =>
    simp only [Option.bind_eq_bind, Option.bind_some, List.foldlM_append, List.foldlM_cons,
      List.foldlM_nil]
    cases keys.foldlM (edit comandos) Editor.start with
    | none => rfl
    | some e =>
      dsimp only [Option.bind_some]
      cases edit comandos e key <;> rfl

/-- By induction on the keys. -/
lemma session_kept (hload : Loadable size history) (keys : List Key) :
    AllAllowed size history keys → ∃ e, session size history keys = some e ∧
      Kept (historyLines history).length (movedBy (historyLines history).length keys) e ∧
      InStep (historyLines history) keys e := by
  obtain ⟨hlines, hfit⟩ := getLines_eq hload
  induction keys using List.reverseRecOn with
  | nil =>
    intro _
    have hkept := kept_start (historyLines history).length
    refine ⟨Editor.start, ?_, hkept, hkept.bound, hkept.text, hkept.zero, nofun⟩
    unfold session
    rw [hlines]
    rfl
  | append_singleton keys key ih =>
    intro hall
    obtain ⟨e, hrun, hkept, -⟩ := ih fun pre key' hpre =>
      hall pre key' (hpre.trans (List.prefix_append keys [key]))
    have hok := hall keys key (List.prefix_refl _) e hrun
    obtain ⟨e', hedit, hkept', hline⟩ := edit_kept hfit hkept hok
    rw [← movedBy_append] at hkept' hline
    refine ⟨e', ?_, hkept', hkept'.bound, hkept'.text, hkept'.zero, ?_⟩
    · rw [session_append, hlines, Option.bind_some, hrun]
      exact hedit
    · intro key' hkey'
      rw [List.getLast?_concat] at hkey'
      cases hkey'
      exact hline

/-- While every key is allowed, the buffer, the cursor and the terminal show the same line after each
key. -/
theorem shows_of_session (size : LineSize) (history : Option (List Char)) (keys : List Key)
    (hload : Loadable size history) (hkeys : AllAllowed size history keys) (pre : List Key)
    (hpre : pre <+: keys) :
    ∃ e, session size history pre = some e ∧ InStep (historyLines history) pre e := by
  obtain ⟨e, hrun, -, hshows⟩ := session_kept hload pre fun pre' key hpre' =>
    hkeys pre' key (hpre'.trans hpre)
  exact ⟨e, hrun, hshows⟩

/-- `getline` begins with 120 places. -/
def smallSize : LineSize := ⟨fun l => max 120 (l.length + 1), fun l => by omega⟩

instance (cant n : ℕ) (e : Editor) : (key : Key) → Decidable (Allowed cant n e key)
  | .ignored => inferInstanceAs (Decidable True)
  | .plain c => inferInstanceAs (Decidable (c ≠ some backspace → esImprimible c = true → e.i + 1 < buflen))
  | .move c => inferInstanceAs (Decidable ((cant = 0 → e.i = 0) ∧
    (cant ≠ 0 → c = some up → e.mostrados = n ∨ cant = 1) ∧
    (cant ≠ 0 → c = some down → e.mostrados ≤ 1 → e.i ≤ 1)))

/-- The keys are allowed one by one. -/
lemma allAllowed_of_take {keys : List Key} (h : ∀ k (hk : k < keys.length),
    (session size history (keys.take k)).all (fun e => Allowed (historyLines history).length
      (movedBy (historyLines history).length (keys.take k)) e keys[k])) : AllAllowed size history keys := by
  rintro pre key ⟨t, rfl⟩ e hrun
  have hlen : pre.length < (pre ++ [key] ++ t).length := by simp
  have hall := h pre.length hlen
  have htake : (pre ++ [key] ++ t).take pre.length = pre := by rw [List.append_assoc, List.take_left]
  have hkey : (pre ++ [key] ++ t)[pre.length] = key := by simp
  rw [htake, hkey, hrun] at hall
  simpa using hall

/-- `x` and its deletion, the newest line, `s` behind it and its deletion, the line before and the newest one
again. -/
def smallKeys : List Key := [.plain (some 'x'), .plain (some backspace), .move (some up), .plain (some 's'),
  .plain (some backspace), .move (some up), .move (some down)]

theorem shows_smallKeys : ∃ e, session smallSize (some "ls\npwd\n".toList) smallKeys = some e ∧
    InStep (historyLines (some "ls\npwd\n".toList)) smallKeys e ∧ e.shown = "pwd".toList := by
  have hload : Loadable smallSize (some "ls\npwd\n".toList) := by
    unfold Loadable
    decide +kernel
  have hkeys : AllAllowed smallSize (some "ls\npwd\n".toList) smallKeys := allAllowed_of_take (by decide +kernel)
  obtain ⟨e, hrun, hshows⟩ := shows_of_session smallSize _ smallKeys hload hkeys _ (List.prefix_refl _)
  refine ⟨e, hrun, hshows, (hshows.line _ rfl rfl).trans ?_⟩
  decide +kernel

lemma edit_up_first {l : List Char} {e : Editor} (hlen : l.length < buflen) (hm : e.mostrados = 0)
    (hi : e.i = 0) (hs : e.shown = []) : edit [l] e (.move (some up)) =
      some ⟨l ++ emptyBuffer.drop l.length, l.length, 1, l⟩ := by
  have hone : [l].length ≠ 0 := Nat.one_ne_zero
  unfold edit manejarDesplazamiento desplazar
  dsimp only
  rw [if_neg hone, if_pos rfl, hm, hi, hs]
  simp only [List.length_singleton, Nat.zero_ne_one, if_false, Nat.zero_add, Nat.sub_self,
    List.getElem?_cons_zero, Option.bind_some, memcpy_empty hlen, Option.map_some]
  rfl

/-- Up and down with one line: all but the first character of the line stay in the buffer. -/
theorem shows_fails : ¬ ∀ (size : LineSize) (history : Option (List Char)) (keys : List Key),
    ∃ e, session size history keys = some e ∧ InStep (historyLines history) keys e := by
  intro h
  obtain ⟨e, hrun, hshows⟩ :=
    h smallSize (some ['l', 's', '\n']) [.move (some up), .move (some down)]
  have hlines : getLines smallSize (some ['l', 's', '\n']) = some [['l', 's']] := by decide
  have hdown (tail : List Char) : edit [['l', 's']] ⟨['l', 's'] ++ tail, 2, 1, ['l', 's']⟩
      (.move (some down)) = some ⟨[endString, 's'] ++ tail, 0, 1, []⟩ := rfl
  have hup : edit [['l', 's']] Editor.start (.move (some up)) =
      some ⟨['l', 's'] ++ emptyBuffer.drop 2, 2, 1, ['l', 's']⟩ :=
    edit_up_first (by decide) rfl rfl rfl
  unfold session at hrun
  rw [hlines] at hrun
  simp only [Option.bind_eq_bind, Option.bind_some, List.foldlM_cons, List.foldlM_nil, hup, hdown] at hrun
  cases hrun
  have hnul := hshows.zero 1 's' (by decide) rfl
  exact absurd hnul (by decide)

end SistemasOperativos.Shell
