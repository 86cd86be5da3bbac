import MeJournal.Python

/-!
# The SSE parser of the mobile client

`mobile/lib/api/sse-parser.ts`, on lists of characters, and the frames that `sse-starlette` sends.

* `splitSseBlocks_append` — parsing a text in two chunks is parsing it whole, when no carriage
  return in the first chunk is followed by anything but a line feed.
* `splitSseBlocks_take` — what has been parsed of the server's text, cut anywhere: the events of the
  frames that lie before the cut.
-/

namespace MeJournal

/-! ## The parser -/

/-- `SseEvent`. -/
structure SseEvent where
  event : Text
  data : Text
  deriving DecidableEq

/-- `.replace(/\r\n/g, "\n")`. -/
def normalizeCrlf : Text → Text
  | '\r' :: '\n' :: t => '\n' :: normalizeCrlf t
  | c :: t => c :: normalizeCrlf t
  | [] => []

/-- `c` before the first block, or before the rest. -/
def consBlock (c : Char) : List Text × Text → List Text × Text
  | ([], rest) => ([], c :: rest)
  | (block :: blocks, rest) => ((c :: block) :: blocks, rest)

/-- The blocks that a blank line ends, and what follows the last one. -/
def splitBlocks : Text → List Text × Text
  | '\n' :: '\n' :: t => ([] :: (splitBlocks t).1, (splitBlocks t).2)
  | c :: t => consBlock c (splitBlocks t)
  | [] => ([], [])

/-- `block.split("\n")`. -/
def splitLines : Text → List Text
  | [] => [[]]
  | c :: t =>
    if c = '\n' then [] :: splitLines t
    else
      match splitLines t with
      | [] => [[c]]
      | line :: lines => (c :: line) :: lines

/-- White space and line terminators of ECMAScript. -/
def isJsSpace (c : Char) : Bool :=
  let n := c.toNat
  (0x09 ≤ n && n ≤ 0x0D) || n == 0x20 || n == 0xA0 || n == 0x1680 ||
    (0x2000 ≤ n && n ≤ 0x200A) || n == 0x2028 || n == 0x2029 || n == 0x202F || n == 0x205F ||
    n == 0x3000 || n == 0xFEFF

/-- `String.prototype.trim`. -/
def jsTrim (t : Text) : Text := (t.dropWhile isJsSpace).rdropWhile isJsSpace

def eventPrefix : Text := "event: ".toList

def dataPrefix : Text := "data: ".toList

/-- One line of `parseBlock`, with the `event` and `data` found so far. -/
def parseLine (found : Option Text × Option Text) (line : Text) : Option Text × Option Text :=
  if line = [] then found
  else if line.head? = some ':' then found
  else
    match eventPrefix.isPrefixOf? line with
    | some rest => (some (jsTrim rest), found.2)
    | none =>
      match dataPrefix.isPrefixOf? line with
      | some rest => (found.1, some rest)
      | none => found

def parseBlock (block : Text) : Option SseEvent :=
  match (splitLines block).foldl parseLine (none, none) with
  | (some event, some data) => some ⟨event, data⟩
  | _ => none

/-- `splitSseBlocks`: the events and the new leftover. -/
def splitSseBlocks (chunk leftover : Text) : List SseEvent × Text :=
  let (blocks, rest) := splitBlocks (normalizeCrlf (leftover ++ chunk))
  (blocks.filterMap parseBlock, rest)

/-! ## Frames -/

def crlf : Text := ['\r', '\n']

/-- How a line ends on the wire: a proxy may strip the carriage return. -/
inductive LineEnd where
  | crlf
  | lf
  deriving DecidableEq

def LineEnd.text : LineEnd → Text
  | .crlf => MeJournal.crlf
  | .lf => ['\n']

/-- A block on the wire: an event, or a comment line and the blank line after it. -/
inductive WireBlock where
  | event (e : SseEvent) (lineEnd : LineEnd)
  | comment (t : Text) (lineEnd blankEnd : LineEnd)
  deriving DecidableEq

namespace WireBlock

def text : WireBlock → Text
  | .event e le => eventPrefix ++ e.event ++ le.text ++ (dataPrefix ++ e.data ++ le.text ++ le.text)
  | .comment t le be => ':' :: t ++ le.text ++ be.text

def event? : WireBlock → Option SseEvent
  | .event e _ => some e
  | .comment _ _ _ => none

end WireBlock

/-- What the server writes: an event, or a keep-alive comment. -/
inductive SseFrame where
  | event (e : SseEvent)
  | comment (t : Text)
  deriving DecidableEq

namespace SseFrame

/-- The frame on the wire. -/
def text : SseFrame → Text
  | .event e => eventPrefix ++ e.event ++ crlf ++ (dataPrefix ++ e.data ++ crlf ++ crlf)
  | .comment t => ':' :: ' ' :: t ++ crlf ++ crlf

def event? : SseFrame → Option SseEvent
  | .event e => some e
  | .comment _ => none

/-- The frame as a block. -/
def toBlock : SseFrame → WireBlock
  | .event e => .event e .crlf
  | .comment t => .comment (' ' :: t) .crlf .crlf

@[simp] theorem toBlock_text (f : SseFrame) : f.toBlock.text = f.text := by
  cases f <;> rfl

@[simp] theorem toBlock_event? (f : SseFrame) : f.toBlock.event? = f.event? := by
  cases f <;> rfl

end SseFrame

def wireText (fs : List SseFrame) : Text := fs.flatMap SseFrame.text

/-- The frames that lie within the first `n` characters. -/
def framesWithin : Nat → List SseFrame → List SseFrame
  | _, [] => []
  | n, f :: fs => if f.text.length ≤ n then f :: framesWithin (n - f.text.length) fs else []

/-- Neither carriage return nor line feed. -/
def OneLine (t : Text) : Prop := '\r' ∉ t ∧ '\n' ∉ t

instance (t : Text) : Decidable (OneLine t) := inferInstanceAs (Decidable (_ ∧ _))

/-- Fields of one line; the event's name has no space around it. -/
def SseFrame.WellFormed : SseFrame → Prop
  | .event e => OneLine e.event ∧ jsTrim e.event = e.event ∧ OneLine e.data
  | .comment t => OneLine t

/-- Fields of one line; the event's name has no space around it. -/
def WireBlock.WellFormed : WireBlock → Prop
  | .event e _ => OneLine e.event ∧ jsTrim e.event = e.event ∧ OneLine e.data
  | .comment t _ _ => OneLine t

instance : DecidablePred WireBlock.WellFormed
  | .event _ _ => inferInstanceAs (Decidable (_ ∧ _ ∧ _))
  | .comment _ _ _ => inferInstanceAs (Decidable (OneLine _))

/-! ## Line ends -/

/-- A carriage return is followed by a line feed, or ends the text. -/
def Paired : Text → Prop
  | '\r' :: '\n' :: t => Paired t
  | '\r' :: _ :: _ => False
  | _ :: t => Paired t
  | [] => True

@[simp] theorem normalizeCrlf_crlf (t : Text) :
    normalizeCrlf ('\r' :: '\n' :: t) = '\n' :: normalizeCrlf t := by
  rw [normalizeCrlf]

theorem normalizeCrlf_cons {c : Char} {t : Text} (h : c ≠ '\r' ∨ t.head? ≠ some '\n') :
    normalizeCrlf (c :: t) = c :: normalizeCrlf t := by
  rw [normalizeCrlf]
  rintro t' rfl rfl
  simp at h

theorem normalizeCrlf_eq_nil {t : Text} : normalizeCrlf t = [] ↔ t = [] := by
  cases t with
  | nil => simp [normalizeCrlf]
  | cons c t =>
    refine iff_of_false ?_ nofun
    rw [normalizeCrlf.eq_def]
    split <;> simp_all

theorem normalizeCrlf_append {a : Text} (h : '\r' ∉ a) (t : Text) :
    normalizeCrlf (a ++ t) = a ++ normalizeCrlf t := by
  induction a with
  | nil => rfl
  | cons c a ih =>
    have hc : c ≠ '\r' := fun hc => h (hc ▸ List.mem_cons_self)
    rw [List.cons_append, normalizeCrlf_cons (Or.inl hc),
      ih fun hmem => h (List.mem_cons_of_mem _ hmem), List.cons_append]

/-- The last carriage return of the text may be half a line end. -/
def EndsCr (t : Text) : Prop := t.getLast? = some '\r'

/-- Normalising goes piece by piece, unless the cut is in a line end. -/
theorem normalizeCrlf_append_of {a t : Text} (h : EndsCr a → t.head? ≠ some '\n') :
    normalizeCrlf (a ++ t) = normalizeCrlf a ++ normalizeCrlf t := by
  induction a using normalizeCrlf.induct with
  | case1 a ih =>
    have ha : EndsCr a → t.head? ≠ some '\n' := fun ha => h (by
      cases a with
      | nil => cases ha
      | cons c a => exact ha)
    rw [List.cons_append, List.cons_append, normalizeCrlf_crlf, ih ha, normalizeCrlf_crlf,
      List.cons_append]
  | case2 c a hne ih =>
    cases a with
    | nil =>
      have hc : c ≠ '\r' ∨ t.head? ≠ some '\n' := by
        by_cases hc : c = '\r'
        · exact Or.inr (h (by rw [hc]; rfl))
        · exact Or.inl hc
      rw [List.singleton_append, normalizeCrlf_cons hc, normalizeCrlf_cons (Or.inr (by simp))]
      rfl
    | cons d a =>
      have hc : c ≠ '\r' ∨ (d :: a).head? ≠ some '\n' := by
        by_cases hc : c = '\r'
        · exact Or.inr fun hd => hne a hc (by rw [Option.some.inj hd])
        · exact Or.inl hc
      rw [List.cons_append, normalizeCrlf_cons hc, normalizeCrlf_cons (by exact hc),
        ih fun ha => h (by rwa [EndsCr, List.getLast?_cons_cons]), List.cons_append]
  | case3 => rfl

theorem endsCr_cons {c : Char} {t : Text} (h : t ≠ []) : EndsCr (c :: t) ↔ EndsCr t := by
  rw [EndsCr, EndsCr, List.getLast?_cons_of_ne_nil h]

theorem endsCr_normalizeCrlf {t : Text} : EndsCr (normalizeCrlf t) ↔ EndsCr t := by
  induction t using normalizeCrlf.induct with
  | case1 t ih =>
    rw [normalizeCrlf_crlf, endsCr_cons (List.cons_ne_nil _ _)]
    cases t with
    | nil => rfl
    | cons d t =>
      rw [endsCr_cons (mt normalizeCrlf_eq_nil.1 (List.cons_ne_nil _ _)),
        endsCr_cons (List.cons_ne_nil _ _), ih]
  | case2 c t hne ih =>
    rw [normalizeCrlf.eq_2 _ _ hne]
    cases t with
    | nil => rfl
    | cons d t =>
      rw [endsCr_cons (mt normalizeCrlf_eq_nil.1 (List.cons_ne_nil _ _)),
        endsCr_cons (List.cons_ne_nil _ _), ih]
  | case3 => rfl

/-- Normalising a second time changes the text where a line end is left. -/
theorem normalizeCrlf_eq_self_iff {t : Text} :
    normalizeCrlf t = t ↔ ¬['\r', '\n'] <:+: t := by
  induction t using normalizeCrlf.induct with
  | case1 t ih =>
    refine iff_of_false (fun h => ?_) (not_not_intro (List.prefix_append _ t).isInfix)
    rw [normalizeCrlf_crlf] at h
    exact absurd (List.cons.inj h).1 (by decide)
  | case2 c t hne ih =>
    have hbeg : ¬['\r', '\n'] <+: c :: t := by
      rintro ⟨t', ht⟩
      obtain ⟨hc, htail⟩ := List.cons.inj ht
      exact hne t' hc.symm htail.symm
    rw [normalizeCrlf.eq_2 _ _ hne, List.cons_inj_right, ih, List.infix_cons_iff]
    simp [hbeg]
  | case3 => simp [normalizeCrlf]

/-- Where line ends are paired, normalising leaves none. -/
theorem Paired.crlf_not_infix {t : Text} (h : Paired t) :
    ¬['\r', '\n'] <:+: normalizeCrlf t := by
  induction t using normalizeCrlf.induct with
  | case1 t ih =>
    rw [normalizeCrlf_crlf, List.infix_cons_iff]
    rintro (hbeg | hocc)
    · exact absurd (List.cons_prefix_cons.1 hbeg).1 (by decide)
    · exact ih h hocc
  | case2 c t hne ih =>
    by_cases hc : c = '\r'
    · subst hc
      cases t with
      | nil => decide
      | cons d t =>
        by_cases hd : d = '\n'
        · exact (hne t rfl (hd ▸ rfl)).elim
        · simp [Paired] at h
    · rw [normalizeCrlf_cons (Or.inl hc), List.infix_cons_iff]
      rintro (hbeg | hocc)
      · exact hc (List.cons_prefix_cons.1 hbeg).1.symm
      · exact ih (by simpa [Paired, hc] using h) hocc
  | case3 => decide

/-! ## Blocks -/

theorem splitBlocks_cons_of_not {c : Char} {t : Text}
    (h : ∀ t', c = '\n' → t = '\n' :: t' → False) :
    splitBlocks (c :: t) = consBlock c (splitBlocks t) := by
  rw [splitBlocks]
  exact h

theorem splitBlocks_cons {c : Char} {t : Text} (h : c ≠ '\n' ∨ t.head? ≠ some '\n') :
    splitBlocks (c :: t) = consBlock c (splitBlocks t) := by
  refine splitBlocks_cons_of_not ?_
  rintro t' rfl rfl
  simp at h

theorem consBlock_fst_eq_nil {c : Char} {r : List Text × Text} :
    (consBlock c r).1 = [] ↔ r.1 = [] := by
  obtain ⟨blocks, rest⟩ := r
  cases blocks <;> simp [consBlock]

/-- Without a block everything is left over. -/
theorem splitBlocks_rest {t : Text} (h : (splitBlocks t).1 = []) : (splitBlocks t).2 = t := by
  induction t using splitBlocks.induct with
  | case1 t ih => simp [splitBlocks] at h
  | case2 c t hne ih =>
    have hcons := splitBlocks_cons_of_not hne
    rw [hcons, consBlock_fst_eq_nil] at h
    rw [hcons, ← Prod.eta (splitBlocks t), h, ih h]
    rfl
  | case3 => rfl

/-- Splitting a longer text goes on from the rest. -/
theorem splitBlocks_append (a t : Text) :
    splitBlocks (a ++ t) = ((splitBlocks a).1 ++ (splitBlocks ((splitBlocks a).2 ++ t)).1,
      (splitBlocks ((splitBlocks a).2 ++ t)).2) := by
  induction a using splitBlocks.induct with
  | case1 a ih => simp only [List.cons_append, splitBlocks, ih]
  | case2 c a hne ih =>
    have hcons := splitBlocks_cons_of_not hne
    cases hblocks : (splitBlocks a).1 with
    | nil =>
      have hnil : (splitBlocks (c :: a)).1 = [] := by
        rw [hcons, consBlock_fst_eq_nil, hblocks]
      rw [hnil, splitBlocks_rest hnil]
      rfl
    | cons block blocks =>
      obtain ⟨y, a', rfl⟩ : ∃ y a', a = y :: a' :=
        List.exists_cons_of_ne_nil fun h => by simp [h, splitBlocks] at hblocks
      have hhead : c ≠ '\n' ∨ (y :: a' ++ t).head? ≠ some '\n' := by
        by_cases hc : c = '\n'
        · exact Or.inr fun hy => hne a' hc (by rw [Option.some.inj hy])
        · exact Or.inl hc
      rw [List.cons_append, splitBlocks_cons hhead, hcons, ih, ← Prod.eta (splitBlocks (y :: a')),
        hblocks]
      rfl
  | case3 => simp [splitBlocks]

/-- What is left over is the end of the text. -/
theorem splitBlocks_rest_suffix (t : Text) : (splitBlocks t).2 <:+ t := by
  induction t using splitBlocks.induct with
  | case1 t ih => exact (ih.trans (List.suffix_cons _ _)).trans (List.suffix_cons _ _)
  | case2 x t hne ih =>
    have hcons := splitBlocks_cons_of_not hne
    cases hblocks : (splitBlocks t).1 with
    | nil =>
      have hnil : (splitBlocks (x :: t)).1 = [] := by
        rw [hcons, consBlock_fst_eq_nil, hblocks]
      simp only [splitBlocks_rest hnil, List.suffix_rfl]
    | cons block blocks =>
      have hrest : (splitBlocks (x :: t)).2 = (splitBlocks t).2 := by
        rw [hcons, ← Prod.eta (splitBlocks t), hblocks]
        rfl
      rw [hrest]
      exact ih.trans (List.suffix_cons _ _)
  | case3 => exact List.suffix_rfl

/-- The rest has no block. -/
theorem splitBlocks_rest_blocks (t : Text) : (splitBlocks (splitBlocks t).2).1 = [] := by
  have happend := splitBlocks_append t []
  rw [List.append_nil, List.append_nil] at happend
  have hfst := congrArg (fun r => r.1) happend
  simpa using hfst

/-- A character that is no line feed ends no block. -/
theorem splitBlocks_append_cons {t u : Text} {c : Char} (hc : c ≠ '\n')
    (h : (splitBlocks t).1 = []) (hu : (splitBlocks u).1 = []) :
    (splitBlocks (t ++ c :: u)).1 = [] := by
  induction t using splitBlocks.induct with
  | case1 t ih => simp [splitBlocks] at h
  | case2 x t hne ih =>
    have hcons := splitBlocks_cons_of_not hne
    rw [hcons, consBlock_fst_eq_nil] at h
    have hhead : x ≠ '\n' ∨ (t ++ c :: u).head? ≠ some '\n' := by
      by_cases hx : x = '\n'
      · right
        cases t with
        | nil => simpa using hc
        | cons y t => exact fun hy => hne t hx (by rw [Option.some.inj hy])
      · exact Or.inl hx
    rw [List.cons_append, splitBlocks_cons hhead, consBlock_fst_eq_nil]
    exact ih h
  | case3 => rwa [List.nil_append, splitBlocks_cons (Or.inl hc), consBlock_fst_eq_nil]

/-! ## Two chunks -/

/-- The blocks of a text as it came over the wire. -/
def wireBlocks (t : Text) : List Text × Text := splitBlocks (normalizeCrlf t)

theorem splitSseBlocks_eq (chunk leftover : Text) :
    splitSseBlocks chunk leftover = ((wireBlocks (leftover ++ chunk)).1.filterMap parseBlock,
      (wireBlocks (leftover ++ chunk)).2) := rfl

theorem wireBlocks_rest {t : Text} (h : (wireBlocks t).1 = []) :
    (wireBlocks t).2 = normalizeCrlf t := splitBlocks_rest h

/-- A text up to a line end that may go on, and the half of it that is there. -/
def Cut (a tail : Text) : Prop := tail = ['\r'] ∨ tail = [] ∧ ¬EndsCr a

theorem exists_cut (t : Text) : ∃ a tail, t = a ++ tail ∧ Cut a tail := by
  by_cases h : EndsCr t
  · obtain ⟨a, rfl⟩ := List.getLast?_eq_some_iff.1 h
    exact ⟨a, ['\r'], rfl, Or.inl rfl⟩
  · exact ⟨t, [], (List.append_nil t).symm, Or.inr ⟨rfl, h⟩⟩

namespace Cut

variable {a tail : Text}

theorem tail_eq (h : Cut a tail) : tail = [] ∨ tail = ['\r'] := by
  rcases h with h | ⟨h, _⟩
  · exact Or.inr h
  · exact Or.inl h

theorem normalize (h : Cut a tail) (t : Text) :
    normalizeCrlf (a ++ tail ++ t) = normalizeCrlf a ++ normalizeCrlf (tail ++ t) := by
  rw [List.append_assoc]
  apply normalizeCrlf_append_of
  intro ha
  rcases h with rfl | ⟨_, h⟩
  · simp
  · exact (h ha).elim

theorem normalize_self (h : Cut a tail) :
    normalizeCrlf (a ++ tail) = normalizeCrlf a ++ tail := by
  have happend := h.normalize []
  rw [List.append_nil, List.append_nil] at happend
  rw [happend]
  rcases h.tail_eq with rfl | rfl <;> rfl

theorem rest (h : Cut a tail) : Cut (splitBlocks (normalizeCrlf a)).2 tail := by
  refine h.imp_right fun ⟨htail, ha⟩ => ⟨htail, fun hrest => ha ?_⟩
  obtain ⟨done, hdone⟩ := splitBlocks_rest_suffix (normalizeCrlf a)
  rw [← endsCr_normalizeCrlf, ← hdone, EndsCr, List.getLast?_append, hrest]
  rfl

/-- The half of a line end is left over. -/
theorem wireBlocks (h : Cut a tail) :
    wireBlocks (a ++ tail) =
      ((splitBlocks (normalizeCrlf a)).1, (splitBlocks (normalizeCrlf a)).2 ++ tail) := by
  have hnone : (splitBlocks ((splitBlocks (normalizeCrlf a)).2 ++ tail)).1 = [] := by
    rcases h.tail_eq with rfl | rfl
    · rw [List.append_nil]
      exact splitBlocks_rest_blocks _
    · exact splitBlocks_append_cons (by decide) (splitBlocks_rest_blocks _) rfl
  rw [MeJournal.wireBlocks, h.normalize_self, splitBlocks_append, hnone, splitBlocks_rest hnone,
    List.append_nil]

end Cut

/-- Splitting in two chunks is splitting the whole, when normalising what was left over a second
time changes nothing. -/
theorem wireBlocks_append_of {r : Text}
    (h : normalizeCrlf (wireBlocks r).2 = (wireBlocks r).2) (c : Text) :
    wireBlocks (r ++ c) = ((wireBlocks r).1 ++ (wireBlocks ((wireBlocks r).2 ++ c)).1,
      (wireBlocks ((wireBlocks r).2 ++ c)).2) := by
  obtain ⟨a, tail, rfl, hcut⟩ := exists_cut r
  rw [hcut.wireBlocks] at h ⊢
  rw [hcut.rest.normalize_self, List.append_cancel_right_eq] at h
  simp only [wireBlocks, hcut.normalize, hcut.rest.normalize, h]
  exact splitBlocks_append _ _

theorem Paired.normalizeCrlf_rest {r : Text} (h : Paired r) :
    normalizeCrlf (wireBlocks r).2 = (wireBlocks r).2 :=
  normalizeCrlf_eq_self_iff.2 fun hocc =>
    h.crlf_not_infix (hocc.trans (splitBlocks_rest_suffix _).isInfix)

/-- Splitting in two chunks is splitting the whole. -/
theorem wireBlocks_append {r : Text} (h : Paired r) (c : Text) :
    wireBlocks (r ++ c) = ((wireBlocks r).1 ++ (wireBlocks ((wireBlocks r).2 ++ c)).1,
      (wireBlocks ((wireBlocks r).2 ++ c)).2) :=
  wireBlocks_append_of h.normalizeCrlf_rest c

/-- **Parsing in two chunks is parsing the whole.** -/
theorem splitSseBlocks_append {r : Text} (h : Paired r) (c : Text) :
    splitSseBlocks (r ++ c) [] =
      ((splitSseBlocks r []).1 ++ (splitSseBlocks c (splitSseBlocks r []).2).1,
        (splitSseBlocks c (splitSseBlocks r []).2).2) := by
  simp only [splitSseBlocks_eq, List.nil_append, wireBlocks_append h c, List.filterMap_append]

/-! ## Whole frames -/

theorem paired_append {a : Text} (h : '\r' ∉ a) {t : Text} (ht : Paired t) : Paired (a ++ t) := by
  induction a with
  | nil => exact ht
  | cons c a ih =>
    have hc : c ≠ '\r' := fun hc => h (hc ▸ List.mem_cons_self)
    have hrest := ih fun hmem => h (List.mem_cons_of_mem _ hmem)
    simpa [Paired, hc] using hrest

/-- A cut keeps the line ends paired. -/
theorem Paired.take {t : Text} (h : Paired t) (n : Nat) : Paired (t.take n) := by
  induction t using normalizeCrlf.induct generalizing n with
  | case1 t ih =>
    match n with
    | 0 => trivial
    | 1 => trivial
    | n + 2 => exact ih h n
  | case2 c t hne ih =>
    cases n with
    | zero => trivial
    | succ n =>
      by_cases hc : c = '\r'
      · subst hc
        cases t with
        | nil => simpa using h
        | cons y t =>
          by_cases hy : y = '\n'
          · exact (hne t rfl (hy ▸ rfl)).elim
          · simp [Paired] at h
      · have hrest := ih (by simpa [Paired, hc] using h) n
        simpa [Paired, hc] using hrest
  | case3 => simpa using h

theorem oneLine_append {a b : Text} (ha : OneLine a) (hb : OneLine b) : OneLine (a ++ b) :=
  ⟨by simp [ha.1, hb.1], by simp [ha.2, hb.2]⟩

theorem SseFrame.WellFormed.toBlock {f : SseFrame} (h : f.WellFormed) : f.toBlock.WellFormed := by
  cases f with
  | event e => exact h
  | comment t => exact oneLine_append (a := [' ']) (by decide) h

namespace LineEnd

theorem normalizeCrlf_append (le : LineEnd) (t : Text) :
    normalizeCrlf (le.text ++ t) = '\n' :: normalizeCrlf t := by
  cases le with
  | crlf => exact normalizeCrlf_crlf t
  | lf => exact normalizeCrlf_cons (Or.inl (by decide))

theorem paired_append (le : LineEnd) {t : Text} (h : Paired t) : Paired (le.text ++ t) := by
  cases le with
  | crlf => exact h
  | lf => exact MeJournal.paired_append (a := ['\n']) (by decide) h

end LineEnd

namespace WireBlock

/-- The lines of the block, without the blank one. -/
def block : WireBlock → Text
  | .event e _ => eventPrefix ++ e.event ++ '\n' :: (dataPrefix ++ e.data)
  | .comment t _ _ => ':' :: t

theorem event_append (e : SseEvent) (le : LineEnd) (t : Text) :
    (WireBlock.event e le).text ++ t = (eventPrefix ++ e.event) ++
      (le.text ++ ((dataPrefix ++ e.data) ++ (le.text ++ (le.text ++ t)))) := by
  simp [text]

theorem comment_append (c : Text) (le be : LineEnd) (t : Text) :
    (WireBlock.comment c le be).text ++ t = (':' :: c) ++ (le.text ++ (be.text ++ t)) := by
  simp [text]

theorem WellFormed.eventLine {e : SseEvent} {le : LineEnd} (h : WellFormed (.event e le)) :
    OneLine (eventPrefix ++ e.event) := oneLine_append (by decide) h.1

theorem WellFormed.dataLine {e : SseEvent} {le : LineEnd} (h : WellFormed (.event e le)) :
    OneLine (dataPrefix ++ e.data) := oneLine_append (by decide) h.2.2

theorem WellFormed.commentLine {t : Text} {le be : LineEnd} (h : WellFormed (.comment t le be)) :
    OneLine (':' :: t) := oneLine_append (a := [':']) (by decide) h

theorem WellFormed.paired_append {b : WireBlock} (h : b.WellFormed) {t : Text} (ht : Paired t) :
    Paired (b.text ++ t) := by
  cases b with
  | event e le =>
    rw [event_append]
    exact MeJournal.paired_append h.eventLine.1 (le.paired_append
      (MeJournal.paired_append h.dataLine.1 (le.paired_append (le.paired_append ht))))
  | comment c le be =>
    rw [comment_append]
    exact MeJournal.paired_append h.commentLine.1 (le.paired_append (be.paired_append ht))

theorem paired_flatMap {bs : List WireBlock} (h : ∀ b ∈ bs, b.WellFormed) :
    Paired (bs.flatMap text) := by
  induction bs with
  | nil => trivial
  | cons b bs ih =>
    rw [List.flatMap_cons]
    exact (h b List.mem_cons_self).paired_append (ih fun c hc => h c (List.mem_cons_of_mem _ hc))

end WireBlock

/-- The frames of the server as blocks. -/
theorem wireText_eq (fs : List SseFrame) :
    wireText fs = (fs.map SseFrame.toBlock).flatMap WireBlock.text := by
  simp [wireText, List.flatMap_map]

theorem paired_wireText {fs : List SseFrame} (h : ∀ f ∈ fs, f.WellFormed) :
    Paired (wireText fs) := by
  rw [wireText_eq]
  exact WireBlock.paired_flatMap (List.forall_mem_map.2 fun f hf => (h f hf).toBlock)

/-- Characters before the first block. -/
theorem splitBlocks_append_of_not_mem {a t block : Text} {blocks : List Text} (ha : '\n' ∉ a)
    (h : (splitBlocks t).1 = block :: blocks) :
    splitBlocks (a ++ t) = ((a ++ block) :: blocks, (splitBlocks t).2) := by
  induction a with
  | nil => rw [List.nil_append, List.nil_append, ← h]
  | cons c a ih =>
    have hc : c ≠ '\n' := fun hc => ha (hc ▸ List.mem_cons_self)
    rw [List.cons_append, splitBlocks_cons (Or.inl hc),
      ih fun hmem => ha (List.mem_cons_of_mem _ hmem)]
    rfl

/-- A line, and the blank line after it. -/
theorem splitBlocks_line {a : Text} (ha : '\n' ∉ a) (t : Text) :
    splitBlocks (a ++ '\n' :: '\n' :: t) = (a :: (splitBlocks t).1, (splitBlocks t).2) := by
  rw [splitBlocks_append_of_not_mem ha (by rw [splitBlocks]), List.append_nil, splitBlocks]

/-- Two lines, and the blank line after them. -/
theorem splitBlocks_lines {a b : Text} (ha : '\n' ∉ a) (hb : '\n' ∉ b) (hne : b ≠ []) (t : Text) :
    splitBlocks (a ++ '\n' :: (b ++ '\n' :: '\n' :: t)) =
      ((a ++ '\n' :: b) :: (splitBlocks t).1, (splitBlocks t).2) := by
  have hhead : (b ++ '\n' :: '\n' :: t).head? ≠ some '\n' := by
    obtain ⟨c, b', rfl⟩ := List.exists_cons_of_ne_nil hne
    intro hc
    exact hb (by rw [Option.some.inj hc]; exact List.mem_cons_self)
  have hline : splitBlocks ('\n' :: (b ++ '\n' :: '\n' :: t)) =
      (('\n' :: b) :: (splitBlocks t).1, (splitBlocks t).2) := by
    rw [splitBlocks_cons (Or.inr hhead), splitBlocks_line hb]
    rfl
  rw [splitBlocks_append_of_not_mem ha (by rw [hline]), hline]

/-- A block at the front is split off. -/
theorem wireBlocks_block {b : WireBlock} (h : b.WellFormed) (t : Text) :
    wireBlocks (b.text ++ t) = (b.block :: (wireBlocks t).1, (wireBlocks t).2) := by
  cases b with
  | event e le =>
    have hdata : dataPrefix ++ e.data ≠ [] := List.append_ne_nil_of_left_ne_nil (by decide) _
    rw [wireBlocks, WireBlock.event_append, normalizeCrlf_append h.eventLine.1,
      le.normalizeCrlf_append, normalizeCrlf_append h.dataLine.1, le.normalizeCrlf_append,
      le.normalizeCrlf_append, splitBlocks_lines h.eventLine.2 h.dataLine.2 hdata]
    rfl
  | comment c le be =>
    rw [wireBlocks, WireBlock.comment_append, normalizeCrlf_append h.commentLine.1,
      le.normalizeCrlf_append, be.normalizeCrlf_append, splitBlocks_line h.commentLine.2]
    rfl

/-- A whole wire text is split in its blocks. -/
theorem wireBlocks_flatMap {bs : List WireBlock} (h : ∀ b ∈ bs, b.WellFormed) :
    wireBlocks (bs.flatMap WireBlock.text) = (bs.map WireBlock.block, []) := by
  induction bs with
  | nil => rfl
  | cons b bs ih =>
    rw [List.flatMap_cons, wireBlocks_block (h b List.mem_cons_self),
      ih fun c hc => h c (List.mem_cons_of_mem _ hc), List.map_cons]

theorem splitLines_of_not_mem {a : Text} (h : '\n' ∉ a) : splitLines a = [a] := by
  induction a with
  | nil => rfl
  | cons c a ih =>
    have hc : c ≠ '\n' := fun hc => h (hc ▸ List.mem_cons_self)
    rw [splitLines, if_neg hc, ih fun hmem => h (List.mem_cons_of_mem _ hmem)]

theorem splitLines_append {a : Text} (h : '\n' ∉ a) (t : Text) :
    splitLines (a ++ '\n' :: t) = a :: splitLines t := by
  induction a with
  | nil => rfl
  | cons c a ih =>
    have hc : c ≠ '\n' := fun hc => h (hc ▸ List.mem_cons_self)
    rw [List.cons_append, splitLines, if_neg hc, ih fun hmem => h (List.mem_cons_of_mem _ hmem)]

theorem parseLine_event (found : Option Text × Option Text) (t : Text) :
    parseLine found (eventPrefix ++ t) = (some (jsTrim t), found.2) := rfl

theorem parseLine_data (found : Option Text × Option Text) (t : Text) :
    parseLine found (dataPrefix ++ t) = (found.1, some t) := rfl

theorem parseBlock_block {b : WireBlock} (h : b.WellFormed) : parseBlock b.block = b.event? := by
  cases b with
  | event e le =>
    rw [WireBlock.block, parseBlock, splitLines_append h.eventLine.2,
      splitLines_of_not_mem h.dataLine.2, List.foldl_cons, List.foldl_cons, List.foldl_nil,
      parseLine_event, parseLine_data, h.2.1]
    rfl
  | comment c le be =>
    rw [WireBlock.block, parseBlock, splitLines_of_not_mem h.commentLine.2]
    rfl

/-- A frame at the front is one block. -/
theorem wireBlocks_frame {f : SseFrame} (h : f.WellFormed) (t : Text) :
    wireBlocks (f.text ++ t) = (f.toBlock.block :: (wireBlocks t).1, (wireBlocks t).2) := by
  rw [← f.toBlock_text, wireBlocks_block h.toBlock]

/-! ## Cut frames -/

/-- A frame that is not all there is no block. -/
theorem wireBlocks_take_frame {f : SseFrame} (h : f.WellFormed) {n : Nat}
    (hn : n < f.text.length) : (wireBlocks (f.text.take n)).1 = [] := by
  have hpaired : Paired (f.text.take n) := by
    have hone : ∀ g ∈ [f], g.WellFormed := by simpa using h
    have hframe := paired_wireText hone
    rw [wireText, List.flatMap_singleton] at hframe
    exact hframe.take n
  have hwhole : wireBlocks (f.text.take n ++ f.text.drop n) = ([f.toBlock.block], []) := by
    have hframe := wireBlocks_frame h []
    rwa [List.append_nil, ← List.take_append_drop n f.text] at hframe
  rw [wireBlocks_append hpaired, Prod.mk.injEq, List.append_eq_singleton_iff] at hwhole
  obtain ⟨hblocks, hover⟩ := hwhole
  rcases hblocks with ⟨hnone, _⟩ | ⟨_, hlater⟩
  · exact hnone
  · -- with the block before the cut, what follows the cut would be left over
    rw [wireBlocks_rest hlater, normalizeCrlf_eq_nil, List.append_eq_nil_iff,
      List.drop_eq_nil_iff] at hover
    omega

/-- **What has been parsed of a cut wire text: the frames before the cut.** -/
theorem splitSseBlocks_take {fs : List SseFrame} (h : ∀ f ∈ fs, f.WellFormed) (n : Nat) :
    (splitSseBlocks ((wireText fs).take n) []).1 =
      (framesWithin n fs).filterMap SseFrame.event? := by
  induction fs generalizing n with
  | nil => simp [wireText, framesWithin, splitSseBlocks_eq, wireBlocks, normalizeCrlf, splitBlocks]
  | cons f fs ih =>
    have hf := h f List.mem_cons_self
    have hrest := ih (fun g hg => h g (List.mem_cons_of_mem _ hg)) (n - f.text.length)
    rw [wireText, List.flatMap_cons, ← wireText, framesWithin]
    simp only [splitSseBlocks_eq, List.nil_append] at hrest ⊢
    split
    · rename_i hn
      rw [List.take_append, List.take_of_length_le hn, wireBlocks_frame hf, List.filterMap_cons,
        parseBlock_block hf.toBlock, SseFrame.toBlock_event?, List.filterMap_cons, hrest]
    · rename_i hn
      rw [List.take_append_of_le_length (by omega), wireBlocks_take_frame hf (by omega)]
      rfl

theorem prefix_framesWithin (n : Nat) (fs : List SseFrame) : framesWithin n fs <+: fs := by
  induction fs generalizing n with
  | nil => exact List.prefix_rfl
  | cons f fs ih =>
    rw [framesWithin]
    split
    · exact List.cons_prefix_cons.2 ⟨rfl, ih _⟩
    · exact List.nil_prefix

theorem framesWithin_all {n : Nat} {fs : List SseFrame} (h : (wireText fs).length ≤ n) :
    framesWithin n fs = fs := by
  induction fs generalizing n with
  | nil => rfl
  | cons f fs ih =>
    rw [wireText, List.flatMap_cons, ← wireText, List.length_append] at h
    rw [framesWithin, if_pos (by omega), ih (by omega)]

end MeJournal
