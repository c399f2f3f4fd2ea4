import SistemasOperativos.Library.Strings
import SistemasOperativos.Shell.Parsing

/-!
# Expansion in place

`expand_environ_var` on the block of the token. The block is resized when the value is shorter
than the token only, and the value is copied without a terminator.
-/

namespace SistemasOperativos.Shell

open Library

/-- `ARGSIZE`, the size of the block of a token. -/
def argsize : ℕ := 1024

/-- What `get_token` leaves in a block. -/
structure Token where
  chars : List Char
  noEnd : endString ∉ chars
  fits : chars.length < argsize

/-- The block, filled with zeros. -/
def Token.block (tok : Token) : List Char :=
  tok.chars ++ List.replicate (argsize - tok.chars.length) endString

/-- The environment of the shell, its status, and what `realloc` leaves in new cells. -/
structure Vars where
  getenv : List Char → Option (List Char)
  noEnd : ∀ name value, getenv name = some value → endString ∉ value
  status : ℤ
  fresh : ℕ → Char

/-- The decimal text of the status. -/
def Vars.text (v : Vars) : List Char := (toString v.status).toList

/-- `expand_environ_var`; `none` for an access outside the block. -/
def expandBlock (v : Vars) (arg : List Char) : Option (List Char) := do
  let first ← arg[0]?
  if first = '$' then
    let second ← arg[1]?
    if second = '?' then
      -- the buffer `str` has room for every `int`
      strcpy endString (realloc v.fresh arg (v.text.length + 1)) v.text
    else
      let name ← strAt? endString arg 1
      match v.getenv name with
      | some value =>
        let len := (← strAt? endString arg 0).length
        let arg := if len > value.length then realloc v.fresh arg (value.length + 1) else arg
        memcpy arg value
      | none => some (arg.set 0 endString)
  else some arg

/-- What a token stands for. -/
def expansion (v : Vars) (tok : List Char) : List Char :=
  match tok with
  | ['$', '?'] => v.text
  | '$' :: name => (v.getenv name).getD []
  | _ => tok

/-- The result is a terminated string inside the block, and the right one. -/
def ExpandOk (v : Vars) (tok : Token) : Prop :=
  ∃ block, expandBlock v tok.block = some block ∧
    strAt? endString block 0 = some (expansion v tok.chars)

/-- When it is: a name that starts with `?` has the text of the status as its value, and any other
value is at least as long as the token and leaves room for the terminator. -/
def Expandable (v : Vars) (tok : Token) : Prop :=
  match tok.chars with
  | ['$', '?'] => True
  | '$' :: '?' :: rest => v.getenv ('?' :: rest) = some v.text
  | '$' :: name => ∀ value, v.getenv name = some value →
      tok.chars.length ≤ value.length ∧ value.length < argsize
  | _ => True

instance (v : Vars) (tok : Token) : Decidable (ExpandOk v tok) :=
  match h : expandBlock v tok.block with
  | some block => decidable_of_iff (strAt? endString block 0 = some (expansion v tok.chars))
      ⟨fun hs => ⟨block, h, hs⟩, fun ⟨_, hb, hs⟩ => Option.some.inj (h.symm.trans hb) ▸ hs⟩
  | none => isFalse (by
      rintro ⟨_, hb, -⟩
      rw [h] at hb
      cases hb)

variable {v : Vars} {tok : Token}

lemma text_digits {v : Vars} {a : Char} (h : a ∈ v.text) : a.isDigit = true ∨ a = '-' := by
  have hdigits : ∀ n : ℕ, a ∈ (Nat.repr n).toList → a.isDigit = true := by
    intro n hmem
    rw [Nat.toList_repr] at hmem
    exact Nat.isDigit_of_mem_toDigits (by decide) (by decide) hmem
  unfold Vars.text at h
  rw [Int.toString_eq_repr] at h
  cases hs : v.status with
  | ofNat n =>
    rw [hs] at h
    exact .inl (hdigits n h)
  | negSucc n =>
    rw [hs] at h
    have hlist : (Int.negSucc n).repr.toList = '-' :: (Nat.repr (n + 1)).toList :=
      String.toList_append
    rw [hlist] at h
    rcases List.mem_cons.mp h with hdash | hmem
    · exact .inr hdash
    · exact .inl (hdigits (n + 1) hmem)

lemma endString_not_mem_text (v : Vars) : endString ∉ v.text := by
  intro h
  rcases text_digits h with hdigit | hdash
  · revert hdigit
    decide
  · revert hdash
    decide

lemma text_ne_nil (v : Vars) : v.text ≠ [] := by
  have hrepr : ∀ n : ℕ, (Nat.repr n).toList ≠ [] := by
    intro n
    rw [Nat.toList_repr]
    exact Nat.toDigits_ne_nil
  unfold Vars.text
  rw [Int.toString_eq_repr]
  cases v.status with
  | ofNat n => exact hrepr n
  | negSucc n =>
    have hlist : (Int.negSucc n).repr.toList = '-' :: (Nat.repr (n + 1)).toList :=
      String.toList_append
    rw [hlist]
    exact List.cons_ne_nil _ _

/-! ### The block -/

lemma Token.block_eq (tok : Token) : tok.block =
    tok.chars ++ endString :: List.replicate (argsize - tok.chars.length - 1) endString := by
  have hfits := tok.fits
  have hpos : argsize - tok.chars.length = argsize - tok.chars.length - 1 + 1 := by omega
  unfold Token.block
  conv_lhs => rw [hpos, List.replicate_succ]

@[simp] lemma Token.length_block (tok : Token) : tok.block.length = argsize := by
  have hfits := tok.fits
  unfold Token.block
  rw [List.length_append, List.length_replicate]
  omega

lemma Token.drop_block {n : ℕ} (h : tok.chars.length ≤ n) :
    tok.block.drop n = List.replicate (argsize - n) endString := by
  have hcount : argsize - tok.chars.length - (n - tok.chars.length) = argsize - n := by omega
  unfold Token.block
  rw [List.drop_append, List.drop_of_length_le h, List.drop_replicate, hcount, List.nil_append]

lemma expandBlock_status {rest : List Char} (h : tok.chars = '$' :: '?' :: rest) :
    expandBlock v tok.block = some (v.text ++ [endString]) := by
  have hcopy := strcpy_realloc endString v.fresh tok.block v.text
  unfold expandBlock
  rw [tok.block_eq, h] at hcopy ⊢
  simpa using hcopy

lemma expandBlock_other (h : ∀ name, tok.chars ≠ '$' :: name) :
    expandBlock v tok.block = some tok.block := by
  have hfirst : ∃ a, tok.block[0]? = some a ∧ a ≠ '$' := by
    rw [tok.block_eq]
    cases hc : tok.chars with
    | nil => exact ⟨endString, rfl, by decide⟩
    | cons a rest => exact ⟨a, rfl, fun ha => h rest (ha ▸ hc)⟩
  obtain ⟨a, ha, hne⟩ := hfirst
  unfold expandBlock
  simp [ha, hne]

/-- A variable, by the length of its value. -/
lemma expandBlock_name {name : List Char} (h : tok.chars = '$' :: name)
    (hname : ∀ rest, name ≠ '?' :: rest) : expandBlock v tok.block =
      match v.getenv name with
      | some value =>
        memcpy (if tok.chars.length > value.length then tok.block.take (value.length + 1)
          else tok.block) value
      | none => some (tok.block.set 0 endString) := by
  have hsecond : ∃ a, tok.block[1]? = some a ∧ a ≠ '?' := by
    rw [tok.block_eq, h]
    cases name with
    | nil => exact ⟨endString, rfl, by decide⟩
    | cons a rest => exact ⟨a, rfl, fun ha => hname rest (ha ▸ rfl)⟩
  have hfirst : tok.block[0]? = some '$' := by
    rw [tok.block_eq, h]
    rfl
  have hnoEnd : endString ∉ name := fun hmem => tok.noEnd (h ▸ List.mem_cons_of_mem _ hmem)
  have hstr : strAt? endString tok.block 1 = some name := by
    rw [tok.block_eq, h]
    exact strAt?_cons '$' hnoEnd _
  have hlen : strAt? endString tok.block 0 = some tok.chars := by
    rw [tok.block_eq]
    exact strAt?_zero tok.noEnd _
  obtain ⟨a, ha, hne⟩ := hsecond
  unfold expandBlock
  simp only [hfirst, ha, hstr, hlen, Option.bind_eq_bind, Option.bind_some, if_true, if_neg hne]
  cases hv : v.getenv name with
  | none => rfl
  | some value =>
    have hfits := tok.fits
    have hlength := tok.length_block
    dsimp only
    split
    · rw [realloc_of_le v.fresh (by omega)]
    · rfl

/-- A shorter value leaves a character of the token behind it and no terminator in the block. -/
lemma memcpy_short {value : List Char} (hlt : value.length < tok.chars.length) :
    memcpy (tok.block.take (value.length + 1)) value =
      some (value ++ (tok.chars.drop value.length).take 1) := by
  have hfits := tok.fits
  have hlength := tok.length_block
  rw [memcpy_of_le (by rw [List.length_take]; omega), List.drop_take, Nat.add_sub_cancel_left]
  unfold Token.block
  rw [List.drop_append_of_le_length (by omega), List.take_append_of_le_length]
  rw [List.length_drop]
  omega

lemma memcpy_long {value : List Char} (hle : tok.chars.length ≤ value.length)
    (hfits : value.length ≤ argsize) : memcpy tok.block value =
      some (value ++ List.replicate (argsize - value.length) endString) := by
  rw [memcpy_of_le (by rwa [tok.length_block]), tok.drop_block hle]

/-- The string in the result, with what follows the block, is what the parser takes for the
argument, as long as no value fills the block. -/
lemma cstr_expandBlock {block : List Char} (behind : List Char)
    (hvalue : ∀ name value, tok.chars = '$' :: name → v.getenv name = some value →
      value.length < argsize) (h : expandBlock v tok.block = some block) :
    cstr endString (block ++ behind) =
      expandEnvironVar ⟨v.getenv, v.status, fun _ _ => cstr endString behind⟩ tok.chars := by
  by_cases hvar : ∃ name, tok.chars = '$' :: name
  · obtain ⟨name, hchars⟩ := hvar
    by_cases hstatus : ∃ rest, name = '?' :: rest
    · obtain ⟨rest, rfl⟩ := hstatus
      rw [expandBlock_status hchars] at h
      cases h
      rw [List.append_assoc, List.singleton_append, cstr_append (endString_not_mem_text v), hchars]
      rfl
    · have hname : ∀ rest, name ≠ '?' :: rest := fun rest h => hstatus ⟨rest, h⟩
      rw [expandBlock_name hchars hname] at h
      have hexp : ∀ env, expandEnvironVar env tok.chars = match env.getenv name with
          | some value =>
            if tok.chars.length > value.length then
              value ++ (tok.chars.drop value.length).take 1 ++ env.heap tok.chars value
            else value
          | none => [] := by
        intro env
        unfold expandEnvironVar
        rw [hchars]
        split
        · rename_i heq
          cases heq
          exact absurd rfl (hname _)
        · rename_i heq
          cases heq
          rfl
        · rename_i heq
          exact absurd rfl (heq _)
      rw [hexp]
      dsimp only
      cases hv : v.getenv name with
      | none =>
        rw [hv] at h
        cases h
        rw [tok.block_eq, hchars]
        simp [cstr]
      | some value =>
        have hnoEnd := v.noEnd name value hv
        have hfits := hvalue name value hchars hv
        rw [hv] at h
        dsimp only at h ⊢
        rcases Nat.lt_or_ge value.length tok.chars.length with hlt | hge
        · rw [if_pos hlt, memcpy_short hlt, Option.some.injEq] at h
          have hleft : endString ∉ (tok.chars.drop value.length).take 1 := by
            intro hmem
            exact tok.noEnd (List.mem_of_mem_drop (List.mem_of_mem_take hmem))
          rw [if_pos hlt, ← h, List.append_assoc, cstr_append_of_not_mem hnoEnd,
            cstr_append_of_not_mem hleft, List.append_assoc]
        · rw [if_neg (by omega), memcpy_long hge (by omega), Option.some.injEq] at h
          have hpos : argsize - value.length = argsize - value.length - 1 + 1 := by omega
          rw [if_neg (by omega), ← h, hpos, List.replicate_succ, List.append_assoc, List.cons_append,
            cstr_append hnoEnd]
  · have hother : ∀ name, tok.chars ≠ '$' :: name := fun name h => hvar ⟨name, h⟩
    rw [expandBlock_other hother] at h
    cases h
    rw [tok.block_eq, List.append_assoc, List.cons_append, cstr_append tok.noEnd]
    unfold expandEnvironVar
    split
    · rename_i heq
      exact absurd heq (hother _)
    · rename_i heq
      exact absurd heq (hother _)
    · rfl

/-! ### Results -/

/-- The expansion is right, and inside the block, exactly for the expandable tokens. -/
theorem expandOk_iff (v : Vars) (tok : Token) : ExpandOk v tok ↔ Expandable v tok := by
  have hunfold : ∀ block, expandBlock v tok.block = some block → (ExpandOk v tok ↔
      strAt? endString block 0 = some (expansion v tok.chars)) := by
    intro block hblock
    constructor
    · rintro ⟨block', hblock', hstr⟩
      rw [hblock] at hblock'
      cases hblock'
      exact hstr
    · exact fun hstr => ⟨block, hblock, hstr⟩
  by_cases hvar : ∃ name, tok.chars = '$' :: name
  · obtain ⟨name, hchars⟩ := hvar
    by_cases hstatus : ∃ rest, name = '?' :: rest
    · obtain ⟨rest, rfl⟩ := hstatus
      rw [hunfold _ (expandBlock_status hchars), strAt?_zero (endString_not_mem_text v)]
      unfold Expandable expansion
      rw [hchars]
      cases rest with
      | nil => simp
      | cons a rest =>
        simp only [Option.some.injEq]
        cases v.getenv ('?' :: a :: rest) with
        | none => simpa using text_ne_nil v
        | some value => simp [eq_comm]
    · have hname : ∀ rest, name ≠ '?' :: rest := fun rest h => hstatus ⟨rest, h⟩
      have hcond : Expandable v tok ↔ ∀ value, v.getenv name = some value →
          tok.chars.length ≤ value.length ∧ value.length < argsize := by
        unfold Expandable
        split
        · rename_i h
          cases hchars.symm.trans h
          exact absurd rfl (hname _)
        · rename_i h
          cases hchars.symm.trans h
          exact absurd rfl (hname _)
        · rename_i h
          cases hchars.symm.trans h
          rfl
        · rename_i h
          exact absurd hchars (h _)
      have hexp : expansion v tok.chars = (v.getenv name).getD [] := by
        unfold expansion
        rw [hchars]
        split
        · rename_i h
          cases h
          exact absurd rfl (hname _)
        · rename_i h
          cases h
          rfl
        · rename_i h
          exact absurd rfl (h _)
      have hblock := expandBlock_name (v := v) hchars hname
      rw [hcond]
      cases hv : v.getenv name with
      | none =>
        rw [hv] at hblock hexp
        rw [hunfold _ hblock, hexp, tok.block_eq, hchars]
        simp [strAt?, cstr]
      | some value =>
        have hnoEnd := v.noEnd name value hv
        rw [hv] at hblock hexp
        dsimp only at hblock
        rcases Nat.lt_or_ge value.length tok.chars.length with hlt | hge
        · rw [if_pos hlt, memcpy_short hlt] at hblock
          have hnone : endString ∉ value ++ (tok.chars.drop value.length).take 1 := by
            intro hmem
            rcases List.mem_append.mp hmem with hin | hin
            · exact hnoEnd hin
            · exact tok.noEnd (List.mem_of_mem_drop (List.mem_of_mem_take hin))
          rw [hunfold _ hblock]
          unfold strAt?
          rw [List.drop_zero, if_neg hnone]
          constructor
          · intro h
            cases h
          · intro h
            have hle := (h value rfl).1
            omega
        · rw [if_neg (by omega)] at hblock
          rcases Nat.lt_or_ge value.length argsize with hfits | hfull
          · rw [memcpy_long hge (by omega)] at hblock
            have hpos : argsize - value.length = argsize - value.length - 1 + 1 := by omega
            rw [hunfold _ hblock, hpos, List.replicate_succ, strAt?_zero hnoEnd, hexp]
            constructor
            · rintro - value' h
              cases h
              exact ⟨hge, hfits⟩
            · intro _
              rfl
          · constructor
            · rintro ⟨block, hok, hstr⟩
              rcases Nat.eq_or_lt_of_le hfull with heq | hlt
              · -- a value of the size of the block leaves no terminator
                rw [hblock, memcpy_long hge (by omega), ← heq, Nat.sub_self, List.replicate_zero,
                  List.append_nil, Option.some.injEq] at hok
                subst hok
                unfold strAt? at hstr
                rw [List.drop_zero, if_neg hnoEnd] at hstr
                cases hstr
              · rw [hblock, memcpy_of_lt (by rwa [tok.length_block])] at hok
                cases hok
            · intro h
              have hlt := (h value rfl).2
              omega
  · have hother : ∀ name, tok.chars ≠ '$' :: name := fun name h => hvar ⟨name, h⟩
    have hcond : Expandable v tok := by
      unfold Expandable
      split
      · trivial
      · rename_i h
        exact absurd h (hother _)
      · rename_i h
        exact absurd h (hother _)
      · trivial
    have hexp : expansion v tok.chars = tok.chars := by
      unfold expansion
      split
      · rename_i h
        exact absurd h (hother _)
      · rename_i h
        exact absurd h (hother _)
      · rfl
    rw [hunfold _ (expandBlock_other hother), hexp, tok.block_eq, strAt?_zero tok.noEnd]
    exact iff_of_true rfl hcond

/-- `HOME=/r` and nothing else. -/
def shortHome : Vars where
  getenv name := if name = ['H', 'O', 'M', 'E'] then some ['/', 'r'] else none
  noEnd name value h := by
    split at h
    · cases h
      decide
    · cases h
  status := 0
  fresh _ := endString

/-- Nothing ends the value of `HOME` in the block of `$HOME`. -/
theorem expandOk_fails : ¬ (∀ (v : Vars) (tok : Token), ExpandOk v tok) := by
  intro h
  have hok := h shortHome ⟨['$', 'H', 'O', 'M', 'E'], by decide, by decide⟩
  revert hok
  decide +kernel

end SistemasOperativos.Shell
