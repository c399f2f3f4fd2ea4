import SistemasOperativos.Lib.InitStack

/-!
# Spawning a program

`spawn` of `lib/spawn.c` opens a file, creates an environment, and maps the arguments and the
segments of the file into it. What the system calls and the file server answer is an input, and
the state says what the call holds: the environment, the descriptors, the page at `UTEMP`.
-/

namespace SistemasOperativos.Lib.Spawn

open Library Kern

def eMaxOpen : ℤ := 10
def eBadPath : ℤ := 12
def eNotExec : ℤ := 14
def maxfd : ℕ := 32
def maxpathlen : ℕ := 1024
def elfMagic : Word := 0x464C457F
def elfProgLoad : Word := 1
def elfProgFlagWrite : Word := 2
def pteShare : Word := 0x400
/-- `sizeof(elf_buf)`. -/
def elfBufSize : ℕ := 512

/-- The answers to the calls that `map_segment` makes for one page, by their arguments. -/
structure PageCalls where
  allocChild : Word → Word → ℤ
  allocTemp : ℤ
  seek : Word → ℤ
  readn : Word → ℤ
  map : Word → Word → ℤ

structure SpawnInput where
  prog : List Byte
  argv : Argv
  /-- The open descriptors of the caller. -/
  fds : ℕ → Bool
  own : ℕ → Byte
  /-- The answer of the file server to `FSREQ_OPEN`. -/
  openAnswer : ℤ
  header : ℤ
  /-- What `elf_buf` holds after the header has been read. -/
  elf : ℕ → Byte
  exofork : ℤ
  stack : StackCalls
  /-- The answers for the pages of each program header, as far as the call has come. -/
  pages : ℕ → List PageCalls
  uvpd : ℕ → Word
  uvpt : ℕ → Word
  /-- The answers of `sys_page_map` in `copy_shared_pages`. -/
  share : Word → Word → ℤ
  trapframe : Word → Word → ℤ
  status : ℤ

/-- `child`: the environment that was created is allocated. `scratch`: a page that was mapped at
`UTEMP` is still there. -/
structure SpawnState where
  child : Bool
  fds : ℕ → Bool
  scratch : Bool

/-- The ends of a call that do not return: a panic, no end so far, a program header that is not in
`elf_buf`, a store of `init_stack` outside its page. -/
inductive Stop
  | panicked
  | running
  | outside
  | lost
deriving DecidableEq

/-! ### Descriptors -/

def fdAlloc (fds : ℕ → Bool) : Option ℕ := (List.range maxfd).find? fun i => !fds i

/-- `open`. A refused request leaves nothing at the new descriptor. -/
def openFile (prog : List Byte) (answer : ℤ) (fds : ℕ → Bool) : ℤ × (ℕ → Bool) :=
  if maxpathlen ≤ prog.length then (-eBadPath, fds)
  else
    match fdAlloc fds with
    | none => (-eMaxOpen, fds)
    | some fd => if answer < 0 then (answer, fds) else (fd, Function.update fds fd true)

/-- `close` unmaps the descriptor, whatever the flush of the file returns. -/
def close (fds : ℕ → Bool) (fd : ℕ) : ℕ → Bool := Function.update fds fd false

/-! ### Segments -/

/-- The arguments of `map_segment`. -/
structure Segment where
  va : Word
  memsz : Word
  filesz : Word
  fileoffset : Word
  perm : Word

/-- The start of `map_segment`: a segment starts on a page. -/
def Segment.round (s : Segment) : Segment :=
  let i := s.va &&& 0xfff
  ⟨s.va - i, s.memsz + i, s.filesz + i, s.fileoffset - i, s.perm⟩

/-- The loop of `map_segment` from `i` on; `scratch` as in `SpawnState`. -/
def mapPages (s : Segment) : List PageCalls → Word → Bool → Except Stop (ℤ × Bool)
  | calls, i, scratch =>
    if s.memsz ≤ i then .ok (0, scratch)
    else
      match calls with
      | [] => .error .running
      | k :: rest =>
        if s.filesz ≤ i then
          if k.allocChild (s.va + i) s.perm < 0 then .ok (k.allocChild (s.va + i) s.perm, scratch)
          else mapPages s rest (i + 0x1000) scratch
        else if k.allocTemp < 0 then .ok (k.allocTemp, scratch)
        else if k.seek (s.fileoffset + i) < 0 then .ok (k.seek (s.fileoffset + i), true)
        else
          let n := if 0x1000 ≤ s.filesz - i then 0x1000 else s.filesz - i
          if k.readn n < 0 then .ok (k.readn n, true)
          else if k.map (s.va + i) s.perm < 0 then .error .panicked
          -- `sys_page_unmap` of a page of one's own below `UTOP` does not fail
          else mapPages s rest (i + 0x1000) false

def mapSegment (s : Segment) (calls : List PageCalls) (scratch : Bool) : Except Stop (ℤ × Bool) :=
  mapPages s.round calls 0 scratch

def ePhoff (elf : ℕ → Byte) : ℕ := (wordAt elf 28).toNat
def ePhnum (elf : ℕ → Byte) : ℕ := (elf 45 ++ elf 44).toNat

/-- The offset of a program header in `elf_buf`. One that wraps in 32 bits is outside too. -/
def phAt (elf : ℕ → Byte) (i : ℕ) : ℕ := ePhoff elf + 32 * i

/-- The arguments that are read from the program header at `ph`. -/
def segmentAt (elf : ℕ → Byte) (ph : ℕ) : Segment where
  va := wordAt elf (ph + 8)
  memsz := wordAt elf (ph + 20)
  filesz := wordAt elf (ph + 16)
  fileoffset := wordAt elf (ph + 4)
  perm :=
    if wordAt elf (ph + 24) &&& elfProgFlagWrite ≠ 0 then pteP ||| pteU ||| pteW else pteP ||| pteU

/-- The loop over the program headers, with `n` of them left and `i` the next. -/
def mapHeaders (elf : ℕ → Byte) (pages : ℕ → List PageCalls) :
    ℕ → ℕ → Bool → Except Stop (ℤ × Bool)
  | 0, _, scratch => .ok (0, scratch)
  | n + 1, i, scratch =>
    if elfBufSize < phAt elf i + 4 then .error .outside
    else if wordAt elf (phAt elf i) ≠ elfProgLoad then mapHeaders elf pages n (i + 1) scratch
    -- the last word that is read is `p_flags`
    else if elfBufSize < phAt elf i + 28 then .error .outside
    else
      match mapSegment (segmentAt elf (phAt elf i)) (pages i) scratch with
      | .error x => .error x
      | .ok (r, scratch) =>
        if r < 0 then .ok (r, scratch) else mapHeaders elf pages n (i + 1) scratch

/-! ### `spawn` -/

/-- `copy_shared_pages` over the page numbers that are left. -/
def copySharedPages (uvpd uvpt : ℕ → Word) (share : Word → Word → ℤ) : List ℕ → ℤ
  | [] => 0
  | n :: rest =>
    if has (uvpd (n / nptentries)) pteP && has (uvpt n) pteShare && has (uvpt n) pteP then
      let va := BitVec.ofNat 32 (n * pgsize)
      if share va (uvpt n &&& pteSyscall) < 0 then share va (uvpt n &&& pteSyscall)
      else copySharedPages uvpd uvpt share rest
    else copySharedPages uvpd uvpt share rest

/-- What comes after the last segment. -/
def startChild (inp : SpawnInput) (esp : Word) (t : SpawnState) : Except Stop (ℤ × SpawnState) :=
  if copySharedPages inp.uvpd inp.uvpt inp.share (List.range (pdx ustacktop * nptentries)) < 0 then
    .error .panicked
  else if inp.trapframe (wordAt inp.elf 24) esp < 0 then .error .panicked
  else if inp.status < 0 then .error .panicked
  else .ok (inp.exofork, t)

/-- What comes after `init_stack`, by its result, with the descriptors `fds` and the file at `fd`. -/
def loadChild (inp : SpawnInput) (fd : ℕ) (fds : ℕ → Bool) :
    Option (ℤ × StackState) → Except Stop (ℤ × SpawnState)
  | none => .error .lost
  | some (r, stack) =>
    if r < 0 then .ok (r, ⟨true, fds, stack.scratch⟩)
    else
      match mapHeaders inp.elf inp.pages (ePhnum inp.elf) 0 stack.scratch with
      | .error x => .error x
      | .ok (r, scratch) =>
        -- `sys_env_destroy` of one's own child does not fail
        if r < 0 then .ok (r, ⟨false, close fds fd, scratch⟩)
        else startChild inp stack.esp ⟨true, close fds fd, scratch⟩

def spawn (inp : SpawnInput) : Except Stop (ℤ × SpawnState) :=
  let (r, fds) := openFile inp.prog inp.openAnswer inp.fds
  if r < 0 then .ok (r, ⟨false, fds, false⟩)
  else if inp.header ≠ elfBufSize ∨ wordAt inp.elf 0 ≠ elfMagic then
    .ok (-eNotExec, ⟨false, close fds r.toNat, false⟩)
  else if inp.exofork < 0 then .ok (inp.exofork, ⟨false, fds, false⟩)
  else
    loadChild inp r.toNat fds
      (initStack inp.argv.strings inp.stack ⟨inp.own, false, fun _ => 0, 0⟩)

/-! ### The contract -/

/-- After an error no environment, no new descriptor and no page at `UTEMP` is left; in any case the
program headers are read in `elf_buf` and the stores of `init_stack` go to its page. `fds` are the
descriptors before the call. -/
structure CallOk (fds : ℕ → Bool) (x : Except Stop (ℤ × SpawnState)) : Prop where
  clean : ∀ r t, x = .ok (r, t) → r < 0 → t.child = false ∧ t.fds = fds ∧ t.scratch = false
  inside : x ≠ .error .outside
  stored : x ≠ .error .lost

def SpawnOk (inp : SpawnInput) : Prop := CallOk inp.fds (spawn inp)

/-- The value of `i` in turn `j` of `map_segment`. -/
def pageAt (j : ℕ) : Word := BitVec.ofNat 32 (4096 * j)

/-- The part of a page that is in the file. -/
def readSize (s : Segment) (j : ℕ) : Word :=
  if 0x1000 ≤ s.filesz - pageAt j then 0x1000 else s.filesz - pageAt j

/-- All calls for page `j` succeed. -/
def PageMapped (s : Segment) (j : ℕ) (k : PageCalls) : Prop :=
  if s.filesz ≤ pageAt j then 0 ≤ k.allocChild (s.va + pageAt j) s.perm
  else 0 ≤ k.allocTemp ∧ 0 ≤ k.seek (s.fileoffset + pageAt j) ∧ 0 ≤ k.readn (readSize s j) ∧
    0 ≤ k.map (s.va + pageAt j) s.perm

/-- A page of the file is allocated and cannot be read. -/
def PageUnread (s : Segment) (j : ℕ) (k : PageCalls) : Prop :=
  pageAt j < s.filesz ∧ 0 ≤ k.allocTemp ∧
    (k.seek (s.fileoffset + pageAt j) < 0 ∨ k.readn (readSize s j) < 0)

/-- The `n` pages from `j` on are mapped. -/
def PagesMapped (s : Segment) (j : ℕ) (calls : List PageCalls) (n : ℕ) : Prop :=
  ∀ i < n, pageAt (j + i) < s.memsz ∧ ∃ k, calls[i]? = some k ∧ PageMapped s (j + i) k

/-- All pages from `j` on are mapped. -/
def Completed (s : Segment) (j : ℕ) (calls : List PageCalls) : Prop :=
  ∃ n, PagesMapped s j calls n ∧ s.memsz ≤ pageAt (j + n)

/-- After some pages from `j` on there comes one that cannot be read. -/
def Unread (s : Segment) (j : ℕ) (calls : List PageCalls) : Prop :=
  ∃ n k, PagesMapped s j calls n ∧ pageAt (j + n) < s.memsz ∧ calls[n]? = some k ∧
    PageUnread s (j + n) k

/-- The loop gets past program header `i`. -/
def Passed (elf : ℕ → Byte) (pages : ℕ → List PageCalls) (i : ℕ) : Prop :=
  wordAt elf (phAt elf i) ≠ elfProgLoad ∨
    Completed (segmentAt elf (phAt elf i)).round 0 (pages i)

/-- Program header `i` is in `elf_buf`, and none of its pages fails to be read. -/
def HeaderSafe (elf : ℕ → Byte) (pages : ℕ → List PageCalls) (i : ℕ) : Prop :=
  phAt elf i + 4 ≤ elfBufSize ∧
    (wordAt elf (phAt elf i) = elfProgLoad → phAt elf i + 28 ≤ elfBufSize ∧
      ¬ Unread (segmentAt elf (phAt elf i)).round 0 (pages i))

/-- Those of the `n` headers from `i` on that are reached are safe. -/
def HeadersSafe (elf : ℕ → Byte) (pages : ℕ → List PageCalls) (n i : ℕ) : Prop :=
  ∀ m < n, (∀ m' < m, Passed elf pages (i + m')) → HeaderSafe elf pages (i + m)

/-- The file cannot be opened or is not a program; or there is an environment for it, the arguments
fit and are mapped, and every program header that is reached is safe. -/
def SpawnSafe (inp : SpawnInput) : Prop :=
  (maxpathlen ≤ inp.prog.length ∨ (∀ i < maxfd, inp.fds i = true) ∨ inp.openAnswer < 0) ∨
  (inp.header ≠ elfBufSize ∨ wordAt inp.elf 0 ≠ elfMagic) ∨
  (0 ≤ inp.exofork ∧ argRoom inp.argv.strings ≤ 4096 ∧
    (0 ≤ inp.stack.alloc ∧ 0 ≤ inp.stack.map ∧ 0 ≤ inp.stack.unmap) ∧
    HeadersSafe inp.elf inp.pages (ePhnum inp.elf) 0)

variable {s : Segment} {j n : ℕ} {k : PageCalls} {rest calls : List PageCalls}

/-! ### Pages -/

lemma pageAt_succ (j : ℕ) : pageAt (j + 1) = pageAt j + 0x1000 := by
  unfold pageAt
  rw [Nat.mul_add, BitVec.ofNat_add]
  rfl

lemma pagesMapped_zero : PagesMapped s j calls 0 := fun i hi => absurd hi (Nat.not_lt_zero i)

lemma pagesMapped_succ : PagesMapped s j (k :: rest) (n + 1) ↔
    (pageAt j < s.memsz ∧ PageMapped s j k) ∧ PagesMapped s (j + 1) rest n := by
  have hadd : ∀ i, j + (i + 1) = j + 1 + i := fun i => by omega
  constructor
  · intro h
    constructor
    · obtain ⟨hlt, k', hk', hmapped⟩ := h 0 (by omega)
      cases hk'
      exact ⟨hlt, hmapped⟩
    · intro i hi
      have hnext := h (i + 1) (by omega)
      rwa [hadd, List.getElem?_cons_succ] at hnext
  · rintro ⟨⟨hlt, hmapped⟩, h⟩ i hi
    cases i with
    | zero => exact ⟨hlt, k, rfl, hmapped⟩
    | succ i =>
      rw [hadd, List.getElem?_cons_succ]
      exact h i (by omega)

lemma pagesMapped_nil (h : PagesMapped s j [] n) : n = 0 := by
  cases n with
  | zero => rfl
  | succ n =>
    obtain ⟨-, k, hk, -⟩ := h 0 (by omega)
    cases hk

lemma completed_of_le (h : s.memsz ≤ pageAt j) : Completed s j calls := ⟨0, pagesMapped_zero, h⟩

lemma not_unread_of_le (h : s.memsz ≤ pageAt j) : ¬ Unread s j calls := by
  rintro ⟨n, k, hmapped, hlt, -⟩
  cases n with
  | zero => exact absurd hlt (BitVec.not_lt.mpr h)
  | succ n => exact absurd (hmapped 0 (by omega)).1 (BitVec.not_lt.mpr h)

lemma not_completed_nil (h : pageAt j < s.memsz) : ¬ Completed s j [] := by
  rintro ⟨n, hmapped, hle⟩
  rw [pagesMapped_nil hmapped] at hle
  exact absurd h (BitVec.not_lt.mpr hle)

lemma not_unread_nil : ¬ Unread s j [] := by
  rintro ⟨n, k, -, -, hk, -⟩
  cases hk

lemma completed_cons (h : pageAt j < s.memsz) :
    Completed s j (k :: rest) ↔ PageMapped s j k ∧ Completed s (j + 1) rest := by
  have hadd : ∀ n, j + (n + 1) = j + 1 + n := fun n => by omega
  constructor
  · rintro ⟨n, hmapped, hle⟩
    cases n with
    | zero => exact absurd h (BitVec.not_lt.mpr hle)
    | succ n =>
      obtain ⟨⟨-, hpage⟩, hrest⟩ := pagesMapped_succ.mp hmapped
      rw [hadd] at hle
      exact ⟨hpage, n, hrest, hle⟩
  · rintro ⟨hpage, n, hrest, hle⟩
    refine ⟨n + 1, pagesMapped_succ.mpr ⟨⟨h, hpage⟩, hrest⟩, ?_⟩
    rwa [hadd]

lemma unread_cons (h : pageAt j < s.memsz) :
    Unread s j (k :: rest) ↔ PageUnread s j k ∨ PageMapped s j k ∧ Unread s (j + 1) rest := by
  have hadd : ∀ n, j + (n + 1) = j + 1 + n := fun n => by omega
  constructor
  · rintro ⟨n, k', hmapped, hlt, hk', hunread⟩
    cases n with
    | zero =>
      cases hk'
      exact .inl hunread
    | succ n =>
      obtain ⟨⟨-, hpage⟩, hrest⟩ := pagesMapped_succ.mp hmapped
      rw [hadd] at hlt hunread
      rw [List.getElem?_cons_succ] at hk'
      exact .inr ⟨hpage, n, k', hrest, hlt, hk', hunread⟩
  · rintro (hunread | ⟨hpage, n, k', hrest, hlt, hk', hunread⟩)
    · exact ⟨0, k, pagesMapped_zero, h, rfl, hunread⟩
    · rw [← hadd] at hlt hunread
      refine ⟨n + 1, k', pagesMapped_succ.mpr ⟨⟨h, hpage⟩, hrest⟩, hlt, ?_, hunread⟩
      rwa [List.getElem?_cons_succ]

/-- One turn for a page that is mapped. -/
lemma mapPages_mapped (hlt : pageAt j < s.memsz) (h : PageMapped s j k) :
    mapPages s (k :: rest) (pageAt j) false = mapPages s rest (pageAt (j + 1)) false := by
  rw [pageAt_succ]
  conv_lhs => unfold mapPages
  rw [if_neg (BitVec.not_le.mpr hlt)]
  dsimp only
  unfold PageMapped at h
  by_cases hfile : s.filesz ≤ pageAt j
  · rw [if_pos hfile] at h ⊢
    rw [if_neg (Int.not_lt.mpr h)]
  · rw [if_neg hfile] at h ⊢
    obtain ⟨halloc, hseek, hreadn, hmap⟩ := h
    rw [if_neg (Int.not_lt.mpr halloc), if_neg (Int.not_lt.mpr hseek)]
    unfold readSize at hreadn
    rw [if_neg (Int.not_lt.mpr hreadn), if_neg (Int.not_lt.mpr hmap)]

/-- The last turn: the page at `UTEMP` is left there when it could not be filled. -/
lemma mapPages_failed (rest : List PageCalls) (hlt : pageAt j < s.memsz)
    (h : ¬ PageMapped s j k) :
    (∃ r < 0, ∃ scratch, mapPages s (k :: rest) (pageAt j) false = .ok (r, scratch) ∧
      (scratch = true ↔ PageUnread s j k)) ∨
    mapPages s (k :: rest) (pageAt j) false = .error .panicked ∧ ¬ PageUnread s j k := by
  unfold mapPages
  rw [if_neg (BitVec.not_le.mpr hlt)]
  dsimp only
  unfold PageMapped at h
  unfold PageUnread
  by_cases hfile : s.filesz ≤ pageAt j
  · rw [if_pos hfile] at h ⊢
    refine .inl ⟨_, Int.not_le.mp h, false, if_pos (Int.not_le.mp h), ?_⟩
    exact iff_of_false Bool.false_ne_true fun hunread => BitVec.not_le.mpr hunread.1 hfile
  · rw [if_neg hfile] at h ⊢
    have hin : pageAt j < s.filesz := BitVec.not_le.mp hfile
    by_cases halloc : k.allocTemp < 0
    · rw [if_pos halloc]
      refine .inl ⟨_, halloc, false, rfl, iff_of_false Bool.false_ne_true fun hunread => ?_⟩
      exact Int.not_lt.mpr hunread.2.1 halloc
    rw [if_neg halloc]
    by_cases hseek : k.seek (s.fileoffset + pageAt j) < 0
    · rw [if_pos hseek]
      exact .inl ⟨_, hseek, true, rfl, iff_of_true rfl ⟨hin, Int.not_lt.mp halloc, .inl hseek⟩⟩
    rw [if_neg hseek]
    by_cases hreadn : k.readn (readSize s j) < 0
    · refine .inl ⟨_, hreadn, true, if_pos hreadn, ?_⟩
      exact iff_of_true rfl ⟨hin, Int.not_lt.mp halloc, .inr hreadn⟩
    · right
      have hmap : k.map (s.va + pageAt j) s.perm < 0 := by
        by_contra hmap
        exact h ⟨Int.not_lt.mp halloc, Int.not_lt.mp hseek, Int.not_lt.mp hreadn, Int.not_lt.mp hmap⟩
      refine ⟨(if_neg hreadn).trans (if_pos hmap), ?_⟩
      rintro ⟨-, -, hbad | hbad⟩
      · exact hseek hbad
      · exact hreadn hbad

/-- What the loop of `map_segment` leaves: every page mapped and nothing at `UTEMP`; or an error,
with the page at `UTEMP` if it could not be read; or no return. -/
lemma mapPages_cases : ∀ (calls : List PageCalls) (j : ℕ),
    (Completed s j calls ∧ ¬ Unread s j calls ∧ mapPages s calls (pageAt j) false = .ok (0, false)) ∨
    (¬ Completed s j calls ∧ ∃ r < 0, ∃ scratch,
      mapPages s calls (pageAt j) false = .ok (r, scratch) ∧ (scratch = true ↔ Unread s j calls)) ∨
    (¬ Completed s j calls ∧ ¬ Unread s j calls ∧
      ∃ x, mapPages s calls (pageAt j) false = .error x ∧ x ≠ .outside ∧ x ≠ .lost) := by
  intro calls
  induction calls with
  | nil =>
    intro j
    by_cases hle : s.memsz ≤ pageAt j
    · refine .inl ⟨completed_of_le hle, not_unread_of_le hle, ?_⟩
      unfold mapPages
      exact if_pos hle
    · refine .inr (.inr ⟨not_completed_nil (BitVec.not_le.mp hle), not_unread_nil, .running, ?_⟩)
      unfold mapPages
      rw [if_neg hle]
      exact ⟨rfl, by decide, by decide⟩
  | cons k rest ih =>
    intro j
    by_cases hle : s.memsz ≤ pageAt j
    · refine .inl ⟨completed_of_le hle, not_unread_of_le hle, ?_⟩
      unfold mapPages
      exact if_pos hle
    have hlt : pageAt j < s.memsz := BitVec.not_le.mp hle
    rw [completed_cons hlt, unread_cons hlt]
    by_cases hmapped : PageMapped s j k
    · have hread : ¬ PageUnread s j k := by
        rintro ⟨hfile, -, hbad⟩
        unfold PageMapped at hmapped
        rw [if_neg (BitVec.not_le.mpr hfile)] at hmapped
        obtain ⟨-, hseek, hreadn, -⟩ := hmapped
        rcases hbad with hbad | hbad
        · exact Int.not_lt.mpr hseek hbad
        · exact Int.not_lt.mpr hreadn hbad
      rw [mapPages_mapped hlt hmapped]
      simpa only [hmapped, hread, true_and, false_or] using ih (j + 1)
    · right
      rcases mapPages_failed rest hlt hmapped with ⟨r, hr, scratch, hrun, hiff⟩ | ⟨hrun, hread⟩
      · refine .inl ⟨fun h => hmapped h.1, r, hr, scratch, hrun, hiff.trans ?_⟩
        simp only [hmapped, false_and, or_false]
      · refine .inr ⟨fun h => hmapped h.1, ?_, .panicked, hrun, by decide, by decide⟩
        rintro (h | h)
        · exact hread h
        · exact hmapped h.1

lemma mapSegment_cases (s : Segment) (calls : List PageCalls) :
    (Completed s.round 0 calls ∧ ¬ Unread s.round 0 calls ∧
      mapSegment s calls false = .ok (0, false)) ∨
    (¬ Completed s.round 0 calls ∧ ∃ r < 0, ∃ scratch,
      mapSegment s calls false = .ok (r, scratch) ∧ (scratch = true ↔ Unread s.round 0 calls)) ∨
    (¬ Completed s.round 0 calls ∧ ¬ Unread s.round 0 calls ∧
      ∃ x, mapSegment s calls false = .error x ∧ x ≠ .outside ∧ x ≠ .lost) :=
  mapPages_cases calls 0

/-! ### Program headers -/

variable {elf : ℕ → Byte} {pages : ℕ → List PageCalls}

lemma headersSafe_succ {i : ℕ} : HeadersSafe elf pages (n + 1) i ↔
    HeaderSafe elf pages i ∧ (Passed elf pages i → HeadersSafe elf pages n (i + 1)) := by
  have hadd : ∀ m, i + (m + 1) = i + 1 + m := fun m => by omega
  constructor
  · intro h
    refine ⟨h 0 (by omega) (fun m' hm' => absurd hm' (Nat.not_lt_zero m')), ?_⟩
    intro hpassed m hm hbefore
    rw [← hadd]
    refine h (m + 1) (by omega) fun m' hm' => ?_
    cases m' with
    | zero => exact hpassed
    | succ m' =>
      rw [hadd]
      exact hbefore m' (by omega)
  · rintro ⟨hfirst, hrest⟩ m hm hbefore
    cases m with
    | zero => exact hfirst
    | succ m =>
      rw [hadd]
      refine hrest (hbefore 0 (by omega)) m (by omega) fun m' hm' => ?_
      rw [← hadd]
      exact hbefore (m' + 1) (by omega)

/-- The loop over the program headers is right: it stays in `elf_buf`, and an error leaves nothing
at `UTEMP`. -/
def HeadersOk (x : Except Stop (ℤ × Bool)) : Prop :=
  x ≠ .error .outside ∧ ∀ r scratch, x = .ok (r, scratch) → r < 0 → scratch = false

lemma headersOk_error {x : Stop} (h : x ≠ .outside) : HeadersOk (.error x) := by
  refine ⟨fun heq => h (Except.error.inj heq), ?_⟩
  rintro r scratch ⟨⟩

lemma headersOk_ok {r : ℤ} {scratch : Bool} (hr : r < 0) :
    HeadersOk (.ok (r, scratch)) ↔ scratch = false := by
  constructor
  · intro h
    exact h.2 r scratch rfl hr
  · intro h
    refine ⟨nofun, ?_⟩
    rintro r' scratch' heq -
    cases heq
    exact h

/-- The loop is right if the headers that are reached are safe, and then only. -/
lemma mapHeaders_iff : ∀ n i : ℕ,
    HeadersOk (mapHeaders elf pages n i false) ↔ HeadersSafe elf pages n i := by
  intro n
  induction n with
  | zero =>
    intro i
    refine iff_of_true ⟨nofun, ?_⟩ fun m hm => absurd hm (Nat.not_lt_zero m)
    intro r scratch heq hr
    cases heq
    rfl
  | succ n ih =>
    intro i
    have hoverrun : ¬ HeadersOk (.error .outside) := fun h => h.1 rfl
    rw [headersSafe_succ]
    unfold mapHeaders HeaderSafe Passed
    by_cases hin : elfBufSize < phAt elf i + 4
    · rw [if_pos hin]
      exact iff_of_false hoverrun fun h => Nat.not_le.mpr hin h.1.1
    have hin' : phAt elf i + 4 ≤ elfBufSize := Nat.not_lt.mp hin
    rw [if_neg hin]
    by_cases hload : wordAt elf (phAt elf i) = elfProgLoad
    swap
    · rw [if_pos hload, ih (i + 1)]
      simp only [hin', hload, ne_eq, not_false_eq_true, true_or, true_and, false_implies,
        forall_const]
    rw [if_neg (not_not_intro hload)]
    by_cases hend : elfBufSize < phAt elf i + 28
    · rw [if_pos hend]
      exact iff_of_false hoverrun fun h => Nat.not_le.mpr hend (h.1.2 hload).1
    have hend' : phAt elf i + 28 ≤ elfBufSize := Nat.not_lt.mp hend
    rw [if_neg hend]
    simp only [hin', hload, hend', ne_eq, not_true_eq_false, false_or, true_and, forall_const]
    rcases mapSegment_cases (segmentAt elf (phAt elf i)) (pages i) with
      ⟨hdone, hread, hrun⟩ | ⟨hnot, r, hr, scratch, hrun, hiff⟩ | ⟨hnot, hread, x, hrun, hx, -⟩
    · rw [hrun]
      dsimp only
      rw [if_neg (by decide), ih (i + 1)]
      simp only [hdone, hread, not_false_eq_true, true_and, forall_const]
    · rw [hrun]
      dsimp only
      rw [if_pos hr, headersOk_ok hr, ← hiff]
      simp only [hnot, false_implies, and_true, Bool.not_eq_true]
    · rw [hrun]
      exact iff_of_true (headersOk_error hx) ⟨hread, fun h => absurd h hnot⟩

lemma mapHeaders_ne_lost (elf : ℕ → Byte) (pages : ℕ → List PageCalls) :
    ∀ n i : ℕ, mapHeaders elf pages n i false ≠ .error .lost := by
  intro n
  induction n with
  | zero =>
    intro i
    nofun
  | succ n ih =>
    intro i
    unfold mapHeaders
    split
    · nofun
    split
    · exact ih (i + 1)
    split
    · nofun
    rcases mapSegment_cases (segmentAt elf (phAt elf i)) (pages i) with
      ⟨-, -, hrun⟩ | ⟨-, r, hr, scratch, hrun, -⟩ | ⟨-, -, x, hrun, -, hx⟩
    · rw [hrun]
      dsimp only
      rw [if_neg (by decide)]
      exact ih (i + 1)
    · rw [hrun]
      dsimp only
      rw [if_pos hr]
      nofun
    · rw [hrun]
      exact fun heq => hx (Except.error.inj heq)

/-! ### Results -/

lemma fdAlloc_none {fds : ℕ → Bool} : fdAlloc fds = none ↔ ∀ i < maxfd, fds i = true := by
  unfold fdAlloc
  rw [List.find?_eq_none]
  simp only [List.mem_range, Bool.not_eq_true, Bool.not_eq_false']

lemma fdAlloc_some {fds : ℕ → Bool} {fd : ℕ} (h : fdAlloc fds = some fd) : fds fd = false := by
  have hfree := List.find?_some h
  simpa using hfree

/-- `open` fails and changes nothing, or opens a descriptor that was closed. -/
lemma openFile_cases (prog : List Byte) (answer : ℤ) (fds : ℕ → Bool) :
    ((maxpathlen ≤ prog.length ∨ (∀ i < maxfd, fds i = true) ∨ answer < 0) ∧
      ∃ r < 0, openFile prog answer fds = (r, fds)) ∨
    (¬ (maxpathlen ≤ prog.length ∨ (∀ i < maxfd, fds i = true) ∨ answer < 0) ∧
      ∃ fd : ℕ, fds fd = false ∧ openFile prog answer fds = (↑fd, Function.update fds fd true)) := by
  unfold openFile
  by_cases hlong : maxpathlen ≤ prog.length
  · rw [if_pos hlong]
    exact .inl ⟨.inl hlong, -eBadPath, by decide, rfl⟩
  rw [if_neg hlong]
  cases hfree : fdAlloc fds with
  | none => exact .inl ⟨.inr (.inl (fdAlloc_none.mp hfree)), -eMaxOpen, by decide, rfl⟩
  | some fd =>
    dsimp only
    by_cases hanswer : answer < 0
    · rw [if_pos hanswer]
      exact .inl ⟨.inr (.inr hanswer), answer, hanswer, rfl⟩
    · rw [if_neg hanswer]
      refine .inr ⟨?_, fd, fdAlloc_some hfree, rfl⟩
      rintro (h | h | h)
      · exact hlong h
      · rw [fdAlloc_none.mpr h] at hfree
        cases hfree
      · exact hanswer h

variable {fds : ℕ → Bool} {t : SpawnState} {r : ℤ} {inp : SpawnInput}

lemma callOk_error {x : Stop} : CallOk fds (.error x) ↔ x ≠ .outside ∧ x ≠ .lost := by
  constructor
  · intro h
    exact ⟨fun heq => h.inside (congrArg _ heq), fun heq => h.stored (congrArg _ heq)⟩
  · rintro ⟨hin, hlost⟩
    exact ⟨nofun, fun heq => hin (Except.error.inj heq), fun heq => hlost (Except.error.inj heq)⟩

lemma callOk_ok (hr : r < 0) :
    CallOk fds (.ok (r, t)) ↔ t.child = false ∧ t.fds = fds ∧ t.scratch = false := by
  constructor
  · intro h
    exact h.clean r t rfl hr
  · intro h
    refine ⟨?_, nofun, nofun⟩
    rintro r' t' heq -
    cases heq
    exact h

lemma callOk_nonneg (hr : 0 ≤ r) : CallOk fds (.ok (r, t)) := by
  refine ⟨?_, nofun, nofun⟩
  intro r' t' heq hr'
  cases heq
  omega

lemma callOk_startChild (h : 0 ≤ inp.exofork) (esp : Word) :
    CallOk fds (startChild inp esp t) := by
  have hpanic : CallOk fds (.error .panicked) := callOk_error.mpr (by decide)
  unfold startChild
  split
  · exact hpanic
  split
  · exact hpanic
  split
  · exact hpanic
  · exact callOk_nonneg h

/-- The descriptor that is closed is the one that was opened. -/
lemma close_update (fds : ℕ → Bool) {fd : ℕ} (h : fds fd = false) :
    close (Function.update fds fd true) fd = fds := by
  unfold close
  rw [Function.update_idem, ← h, Function.update_eq_self]

/-- With a child, the call is right if the arguments are passed and the headers are safe. -/
lemma loadChild_iff {fd : ℕ} (hfd : fds fd = false) (hexo : 0 ≤ inp.exofork) :
    CallOk fds (loadChild inp fd (Function.update fds fd true)
        (initStack inp.argv.strings inp.stack ⟨inp.own, false, fun _ => 0, 0⟩)) ↔
      argRoom inp.argv.strings ≤ 4096 ∧
        (0 ≤ inp.stack.alloc ∧ 0 ≤ inp.stack.map ∧ 0 ≤ inp.stack.unmap) ∧
        HeadersSafe inp.elf inp.pages (ePhnum inp.elf) 0 := by
  cases hstack : initStack inp.argv.strings inp.stack ⟨inp.own, false, fun _ => 0, 0⟩ with
  | none =>
    refine iff_of_false (fun h => (callOk_error.mp h).2 rfl) ?_
    rintro ⟨hfit, -, -⟩
    obtain ⟨r, t, hrun, -⟩ := initStack_fits hfit inp.argv.noNul inp.stack
      ⟨inp.own, false, fun _ => 0, 0⟩
    rw [hstack] at hrun
    cases hrun
  | some x =>
    obtain ⟨r, stack⟩ := x
    unfold loadChild
    dsimp only
    rcases initStack_result hstack with hr | ⟨rfl, hdone⟩
    · rw [if_pos hr]
      refine iff_of_false (fun h => Bool.false_ne_true ((callOk_ok hr).mp h).1.symm) ?_
      rintro ⟨hfit, ⟨halloc, hmap, hunmap⟩, -⟩
      obtain ⟨t, hrun⟩ := initStack_succeeds hfit inp.argv.noNul halloc hmap hunmap
        ⟨inp.own, false, fun _ => 0, 0⟩
      rw [hstack] at hrun
      cases hrun
      exact absurd hr (by decide)
    rw [if_neg (by decide), hdone.scratch, ← mapHeaders_iff]
    simp only [hdone.fits, hdone.alloc, hdone.map, hdone.unmap, true_and]
    have hlost := mapHeaders_ne_lost inp.elf inp.pages (ePhnum inp.elf) 0
    cases hrun : mapHeaders inp.elf inp.pages (ePhnum inp.elf) 0 false with
    | error x =>
      rw [hrun] at hlost
      have hx : x ≠ .lost := fun heq => hlost (congrArg _ heq)
      dsimp only
      rw [callOk_error]
      exact ⟨fun h => headersOk_error h.1, fun h => ⟨fun heq => h.1 (congrArg _ heq), hx⟩⟩
    | ok y =>
      obtain ⟨r, scratch⟩ := y
      dsimp only
      by_cases hr : r < 0
      · rw [if_pos hr, callOk_ok hr, headersOk_ok hr]
        simp only [close_update fds hfd, true_and]
      · rw [if_neg hr]
        refine iff_of_true (callOk_startChild hexo _) ⟨nofun, ?_⟩
        intro r' scratch' heq hr'
        cases heq
        exact absurd hr' hr

/-- A call cleans up after every error, and reads the program headers in `elf_buf`, in the safe
cases and in no others. -/
theorem spawnOk_iff (inp : SpawnInput) : SpawnOk inp ↔ SpawnSafe inp := by
  unfold SpawnOk spawn SpawnSafe
  rcases openFile_cases inp.prog inp.openAnswer inp.fds with ⟨hfails, r, hr, hopen⟩ | ⟨hopens, fd, hfd, hopen⟩
  · rw [hopen]
    dsimp only
    rw [if_pos hr, callOk_ok hr]
    exact iff_of_true ⟨rfl, rfl, rfl⟩ (.inl hfails)
  rw [hopen]
  dsimp only
  have hneg : ¬ (↑fd : ℤ) < 0 := by omega
  rw [if_neg hneg, Int.toNat_natCast]
  by_cases hheader : inp.header ≠ elfBufSize ∨ wordAt inp.elf 0 ≠ elfMagic
  · rw [if_pos hheader, callOk_ok (by decide)]
    exact iff_of_true ⟨rfl, close_update inp.fds hfd, rfl⟩ (.inr (.inl hheader))
  rw [if_neg hheader]
  by_cases hexo : inp.exofork < 0
  · rw [if_pos hexo, callOk_ok hexo]
    constructor
    · rintro ⟨-, hfds, -⟩
      have hopened : Function.update inp.fds fd true fd = true := Function.update_self _ _ _
      dsimp only at hfds
      rw [hfds, hfd] at hopened
      cases hopened
    · rintro (h | h | ⟨h, -⟩)
      · exact absurd h hopens
      · exact absurd h hheader
      · exact absurd hexo (Int.not_lt.mpr h)
  rw [if_neg hexo, loadChild_iff hfd (Int.not_lt.mp hexo)]
  simp only [hopens, hheader, Int.not_lt.mp hexo, false_or, true_and]

/-- A program without segments, when there is no environment left for it. -/
def noFreeEnv : SpawnInput where
  prog := []
  argv := ⟨[], fun _ h => absurd h List.not_mem_nil⟩
  fds _ := false
  own _ := 0
  openAnswer := 0
  header := 512
  elf := putWord (fun _ => 0) 0 elfMagic
  exofork := -5
  stack := ⟨0, 0, 0⟩
  pages _ := []
  uvpd _ := 0
  uvpt _ := 0
  share _ _ := 0
  trapframe _ _ := 0
  status := 0

/-- The file stays open. -/
theorem spawnOk_fails : ¬ ∀ inp, SpawnOk inp := by
  intro h
  have hmagic : wordAt noFreeEnv.elf 0 = elfMagic := wordAt_putWord
  have hheader : ¬ (noFreeEnv.header ≠ elfBufSize ∨ wordAt noFreeEnv.elf 0 ≠ elfMagic) := by
    rintro (hsize | hother)
    · exact hsize rfl
    · exact hother hmagic
  have hopen : openFile noFreeEnv.prog noFreeEnv.openAnswer noFreeEnv.fds =
      (0, Function.update (fun _ => false) 0 true) := rfl
  have hrun : spawn noFreeEnv = .ok (-5, ⟨false, Function.update (fun _ => false) 0 true, false⟩) := by
    unfold spawn
    rw [hopen]
    dsimp only
    have hexo : noFreeEnv.exofork < 0 := by decide
    rw [if_neg (by decide), if_neg hheader, if_pos hexo]
    rfl
  obtain ⟨-, hfds, -⟩ := (h noFreeEnv).clean _ _ hrun (by decide)
  have hopened := congrFun hfds 0
  dsimp only at hopened
  rw [Function.update_self] at hopened
  cases hopened

end SistemasOperativos.Lib.Spawn
