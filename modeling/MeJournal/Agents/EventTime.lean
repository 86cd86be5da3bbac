import MeJournal.Isoformat

/-!
# The text of an event time

The `event_time` of the `manage_memory` tool, from the text the model gives to a `datetime.time`:
the substitution of `_strip_event_time_tz_suffix` and pydantic's parser behind it.  The parser reads
`HH:MM`, seconds and a fraction optional, then `Z`, `z` or an offset, `HH:MM` or `HHMM` after `+`,
`-` or U+2212; and it reads a number of seconds, as a time in UTC.

* `stripTz` — `re.sub` of one suffix at the end; `stripTz_cases` — what it took off.
* `parseTime` — the parser; `readClock_spec`, `zoneOf_spec` — the two halves of what it reads.
* `naive_iff_not_zoned` — it gives a time without an offset exactly if the text is no number and has
  no suffix.
* `naive_iff_oneSuffix` — after the substitution, exactly if the text had one suffix at most, a
  number counting as one.
-/

namespace MeJournal

/-- A `datetime.time`. -/
structure PyTime where
  clock : TimeOfDay
  offset : Option UtcOffset
  deriving DecidableEq

/-- What `\d` matches: the decimal digits of Unicode. -/
structure RegexDigits where
  isDigit : Char → Bool
  ascii : ∀ c, c.toNat < 128 → isDigit c = c.isDigit

namespace EventTime

/-! ## The substitution -/

section

variable (dg : RegexDigits)

/-- `\d{2}`, and the text after it. -/
def twoDigits : Text → Option Text
  | a :: b :: rest => if dg.isDigit a && dg.isDigit b then some rest else none
  | _ => none

/-- `:?`. -/
def optColon : Text → Text
  | ':' :: rest => rest
  | cs => cs

/-- `$`: at the end, or before the newline there. -/
def atEnd (cs : Text) : Bool := cs.isEmpty || cs == ['\n']

/-- `\d{2}:?\d{2}(:?\d{2})?$`. -/
def offsetDigits (cs : Text) : Option Text :=
  match (twoDigits dg cs).bind fun rest => twoDigits dg (optColon rest) with
  | none => none
  | some rest =>
    let rest := (twoDigits dg (optColon rest)).getD rest
    if atEnd rest then some rest else none

/-- `(Z|[+-]\d{2}:?\d{2}(:?\d{2})?)$` at the front of a text, and the text after the match. -/
def tzSuffix : Text → Option Text
  | [] => none
  | c :: cs =>
    if c = 'Z' then (if atEnd cs then some cs else none)
    else if c = '+' ∨ c = '-' then offsetDigits dg cs
    else none

/-- `re.sub(…, "", v)`: there is no second match after one at the end. -/
def stripTz : Text → Text
  | [] => []
  | c :: cs =>
    match tzSuffix dg (c :: cs) with
    | some rest => rest
    | none => c :: stripTz cs

end

/-! ## The parser -/

/-- A field of two digits. -/
def readTwo : Text → Option (Nat × Text)
  | a :: b :: rest => (readInt [a, b]).map (·, rest)
  | _ => none

/-- Microseconds; six digits of the fraction count. -/
def readFraction : Text → Option (Nat × Text)
  | [] => some (0, [])
  | c :: cs =>
    if c = '.' ∨ c = ',' then
      let digits := (cs.takeWhile Char.isDigit).take 6
      (readInt digits).map fun us => (us * 10 ^ (6 - digits.length), cs.dropWhile Char.isDigit)
    else some (0, c :: cs)

/-- Seconds and microseconds, where they are given. -/
def readSeconds : Text → Option (Nat × Nat × Text)
  | ':' :: cs => do
    let (s, rest) ← readTwo cs
    let (us, rest) ← readFraction rest
    return (s, us, rest)
  | cs => some (0, 0, cs)

/-- The clock, and the text after it. -/
def readClock (cs : Text) : Option (TimeOfDay × Text) := do
  let (h, rest) ← readTwo cs
  match rest with
  | ':' :: rest =>
    let (m, rest) ← readTwo rest
    let (s, us, rest) ← readSeconds rest
    let clock ← timeOf? h m s us
    return (clock, rest)
  | _ => none

/-- `:MM` or `MM`. -/
def zoneMinutes : Text → Option Nat
  | [':', m₁, m₂] => readInt [m₁, m₂]
  | [m₁, m₂] => readInt [m₁, m₂]
  | _ => none

/-- `HH:MM` or `HHMM` of an offset, in microseconds. -/
def zoneMicros : Text → Option Nat
  | h₁ :: h₂ :: rest =>
    match readInt [h₁, h₂], zoneMinutes rest with
    | some h, some m => if m < 60 then some (h * 3600000000 + m * 60000000) else none
    | _, _ => none
  | _ => none

/-- The suffix: none, `Z`, `z` or an offset. -/
def zoneOf : Text → Option (Option UtcOffset)
  | [] => some none
  | c :: cs =>
    if (c = 'Z' ∨ c = 'z') ∧ cs = [] then some (some .utc)
    else if c = '+' then
      (zoneMicros cs).bind fun micros => (UtcOffset.of? micros).map some
    else if c = '-' ∨ c = '\u2212' then
      (zoneMicros cs).bind fun micros => (UtcOffset.of? (-micros)).map some
    else none

def readTime (cs : Text) : Option PyTime := do
  let (clock, rest) ← readClock cs
  let offset ← zoneOf rest
  return ⟨clock, offset⟩

/-- Digits, and more of them behind a point. -/
def isDecimal (cs : Text) : Bool :=
  !(cs.takeWhile Char.isDigit).isEmpty &&
    match cs.dropWhile Char.isDigit with
    | [] => true
    | c :: rest => c == '.' && rest.all Char.isDigit

/-- A number, with a sign or without. -/
def isNumber : Text → Bool
  | [] => false
  | c :: cs => if c = '+' ∨ c = '-' then isDecimal cs else isDecimal (c :: cs)

/-- A time from its text; `none` is a validation error.  `seconds` reads the clock off a number of
seconds. -/
def parseTime (seconds : Text → Option TimeOfDay) (cs : Text) : Option PyTime :=
  match readTime cs with
  | some t => some t
  | none => if isNumber cs then (seconds cs).map fun clock => ⟨clock, some .utc⟩ else none

/-- The time as `model_dump(mode="json")` writes it. -/
def dumpTime (t : PyTime) : Text :=
  clockText t.clock ++
    match t.offset with
    | none => []
    | some o => if o.micros = 0 then ['Z'] else o.text

/-! ## Texts of digits -/

/-- Digits and marks, a digit last. -/
structure Digital (digit mark : Char → Bool) (u : Text) : Prop where
  chars : ∀ c ∈ u, digit c = true ∨ mark c = true
  last : ∃ d, u.getLast? = some d ∧ digit d = true

section

variable {digit mark : Char → Bool}

theorem Digital.append {u v : Text} (hu : ∀ c ∈ u, digit c = true ∨ mark c = true)
    (hv : Digital digit mark v) : Digital digit mark (u ++ v) := by
  refine ⟨fun c hc => ?_, ?_⟩
  · rcases List.mem_append.1 hc with hc | hc
    · exact hu c hc
    · exact hv.chars c hc
  · obtain ⟨d, hd, hdigit⟩ := hv.last
    exact ⟨d, by rw [List.getLast?_append, hd, Option.some_or], hdigit⟩

theorem Digital.cons {c : Char} {v : Text} (hc : digit c = true ∨ mark c = true)
    (hv : Digital digit mark v) : Digital digit mark (c :: v) :=
  Digital.append (u := [c]) (fun _ h => List.mem_singleton.1 h ▸ hc) hv

theorem Digital.pair {a b : Char} (ha : digit a = true) (hb : digit b = true) :
    Digital digit mark [a, b] :=
  ⟨by simp [ha, hb], b, rfl, hb⟩

end

theorem isDigit_of_readInt {a b : Char} {n : Nat} (h : readInt [a, b] = some n) :
    a.isDigit = true ∧ b.isDigit = true := by
  rw [readInt] at h
  split at h
  · cases h
  · rename_i hall
    simpa using hall

/-! ## What the substitution takes off -/

/-- The marks that begin a suffix. -/
def isMark (c : Char) : Bool := c = 'Z' || c = '+' || c = '-'

theorem isMark_iff {c : Char} : isMark c = true ↔ c = 'Z' ∨ c = '+' ∨ c = '-' := by
  simp [isMark, or_assoc]

def isColon (c : Char) : Bool := c = ':'

section

variable {dg : RegexDigits}

theorem twoDigits_spec {cs rest : Text} (h : twoDigits dg cs = some rest) :
    ∃ u, cs = u ++ rest ∧ Digital dg.isDigit isColon u := by
  match cs, h with
  | a :: b :: rest', h =>
    rw [twoDigits] at h
    split at h
    · rename_i hdigits
      cases h
      rw [Bool.and_eq_true] at hdigits
      exact ⟨[a, b], rfl, .pair hdigits.1 hdigits.2⟩
    · cases h

theorem twoDigits_optColon_spec {cs rest : Text} (h : twoDigits dg (optColon cs) = some rest) :
    ∃ u, cs = u ++ rest ∧ Digital dg.isDigit isColon u := by
  unfold optColon at h
  split at h
  · obtain ⟨u, rfl, hu⟩ := twoDigits_spec h
    exact ⟨':' :: u, rfl, hu.cons (Or.inr rfl)⟩
  · exact twoDigits_spec h

theorem offsetDigits_spec {cs rest : Text} (h : offsetDigits dg cs = some rest) :
    (rest = [] ∨ rest = ['\n']) ∧ ∃ u, cs = u ++ rest ∧ Digital dg.isDigit isColon u := by
  rw [offsetDigits] at h
  split at h
  · cases h
  rename_i rest' hrest'
  obtain ⟨rest'', hhours, hminutes⟩ := Option.bind_eq_some_iff.1 hrest'
  obtain ⟨u, rfl, hu⟩ := twoDigits_spec hhours
  obtain ⟨v, rfl, hv⟩ := twoDigits_optColon_spec hminutes
  dsimp only at h
  split at h
  · rename_i hend
    cases h
    refine ⟨by simpa [atEnd] using hend, ?_⟩
    cases hseconds : twoDigits dg (optColon rest') with
    | none => exact ⟨u ++ v, (List.append_assoc u v rest').symm, hv.append hu.chars⟩
    | some rest =>
      obtain ⟨w, rfl, hw⟩ := twoDigits_optColon_spec hseconds
      refine ⟨u ++ (v ++ w), by simp, Digital.append hu.chars (Digital.append hv.chars hw)⟩
  · cases h

/-- A match: a mark, then nothing after `Z`, digits and colons after a sign. -/
theorem tzSuffix_spec {t rest : Text} (h : tzSuffix dg t = some rest) :
    (rest = [] ∨ rest = ['\n']) ∧ ∃ c u, t = c :: (u ++ rest) ∧ isMark c = true ∧
      (c = 'Z' ∧ u = [] ∨ Digital dg.isDigit isColon u) := by
  cases t with
  | nil => cases h
  | cons c cs =>
    rw [tzSuffix] at h
    split at h
    · rename_i hz
      split at h
      · rename_i hend
        cases h
        exact ⟨by simpa [atEnd] using hend, c, [], rfl, by simp [isMark, hz], Or.inl ⟨hz, rfl⟩⟩
      · cases h
    split at h
    · rename_i hsign
      obtain ⟨hrest, u, rfl, hu⟩ := offsetDigits_spec h
      refine ⟨hrest, c, u, rfl, ?_, Or.inr hu⟩
      rcases hsign with rfl | rfl <;> rfl
    · cases h

theorem stripTz_cases (dg : RegexDigits) (v : Text) :
    (stripTz dg v = v ∧ ∀ w t, v = w ++ t → tzSuffix dg t = none) ∨
      ∃ w t rest, v = w ++ t ∧ tzSuffix dg t = some rest ∧ stripTz dg v = w ++ rest := by
  induction v with
  | nil =>
    refine Or.inl ⟨rfl, fun w t h => ?_⟩
    rw [(List.append_eq_nil_iff.1 h.symm).2]
    rfl
  | cons c cs ih =>
    rw [stripTz]
    cases hmatch : tzSuffix dg (c :: cs) with
    | some rest => exact Or.inr ⟨[], c :: cs, rest, rfl, hmatch, rfl⟩
    | none =>
      rcases ih with ⟨heq, hnone⟩ | ⟨w, t, rest, rfl, ht, heq⟩
      · refine Or.inl ⟨congrArg (c :: ·) heq, fun w t h => ?_⟩
        cases w with
        | nil => rwa [← List.nil_append t, ← h]
        | cons d w =>
          rw [List.cons_append, List.cons.injEq] at h
          exact hnone w t h.2
      · exact Or.inr ⟨c :: w, t, rest, rfl, ht, congrArg (c :: ·) heq⟩

/-- A text without marks is left alone. -/
theorem stripTz_of_no_mark {v : Text} (h : ∀ c ∈ v, isMark c = false) : stripTz dg v = v := by
  rcases stripTz_cases dg v with ⟨heq, -⟩ | ⟨w, t, rest, rfl, ht, -⟩
  · exact heq
  · obtain ⟨-, c, u, rfl, hmark, -⟩ := tzSuffix_spec ht
    rw [h c (by simp)] at hmark
    cases hmark

/-- The digits and colons of a match hold no mark. -/
theorem not_isMark_of_digital {u : Text} (hu : Digital dg.isDigit isColon u) :
    ∀ c ∈ u, isMark c = false := by
  intro c hc
  by_contra hmark
  have hcases := isMark_iff.1 (Bool.eq_true_of_not_eq_false hmark)
  have hdigit : dg.isDigit c = false := by
    rcases hcases with rfl | rfl | rfl <;> exact dg.ascii _ (by decide)
  have hcolon : isColon c = false := by rcases hcases with rfl | rfl | rfl <;> rfl
  rcases hu.chars c hc with h | h
  · rw [hdigit] at h
    cases h
  · rw [hcolon] at h
    cases h

/-- After its mark a match holds no other. -/
theorem tzSuffix_tail {t : Text} (ht : tzSuffix dg t = some []) :
    ∃ c u, t = c :: u ∧ isMark c = true ∧ ∀ d ∈ u, isMark d = false := by
  obtain ⟨-, c, u, rfl, hmark, ⟨-, rfl⟩ | hu⟩ := tzSuffix_spec ht
  · exact ⟨c, [], rfl, hmark, fun d hd => absurd hd List.not_mem_nil⟩
  · exact ⟨c, u, by rw [List.append_nil], hmark, not_isMark_of_digital hu⟩

/-- A text ends in one suffix at most. -/
theorem tzSuffix_unique {w w' t t' : Text} (heq : w ++ t = w' ++ t')
    (ht : tzSuffix dg t = some []) (ht' : tzSuffix dg t' = some []) : w = w' := by
  obtain ⟨c, u, rfl, hmark, hu⟩ := tzSuffix_tail ht
  obtain ⟨c', u', rfl, hmark', hu'⟩ := tzSuffix_tail ht'
  rcases List.append_eq_append_iff.1 heq with ⟨x, rfl, hx⟩ | ⟨x, rfl, hx⟩
  · cases x with
    | nil => rw [List.append_nil]
    | cons d x =>
      rw [List.cons_append, List.cons.injEq] at hx
      rw [hu c' (by simp [hx.2])] at hmark'
      cases hmark'
  · cases x with
    | nil => rw [List.append_nil]
    | cons d x =>
      rw [List.cons_append, List.cons.injEq] at hx
      rw [hu' c (by simp [hx.2])] at hmark
      cases hmark

end

/-! ## What the parser reads -/

def isPoint (c : Char) : Bool := c = ':' || c = '.' || c = ','

/-- A clock, or a part of it. -/
abbrev ClockText : Text → Prop := Digital Char.isDigit isPoint

theorem readTwo_spec {cs rest : Text} {n : Nat} (h : readTwo cs = some (n, rest)) :
    ∃ u, cs = u ++ rest ∧ ClockText u := by
  match cs, h with
  | a :: b :: rest', h =>
    obtain ⟨m, hm, heq⟩ := Option.map_eq_some_iff.1 h
    cases heq
    obtain ⟨ha, hb⟩ := isDigit_of_readInt hm
    exact ⟨[a, b], rfl, .pair ha hb⟩

theorem readFraction_spec {cs rest : Text} {us : Nat} (h : readFraction cs = some (us, rest)) :
    ∃ u, cs = u ++ rest ∧ (u = [] ∨ ClockText u) := by
  cases cs with
  | nil =>
    cases h
    exact ⟨[], rfl, Or.inl rfl⟩
  | cons c cs =>
    rw [readFraction] at h
    split at h
    · rename_i hc
      obtain ⟨m, hm, heq⟩ := Option.map_eq_some_iff.1 h
      cases heq
      refine ⟨c :: cs.takeWhile Char.isDigit, ?_, Or.inr ?_⟩
      · rw [List.cons_append, List.takeWhile_append_dropWhile]
      · have hdigits : ∀ d ∈ cs.takeWhile Char.isDigit, d.isDigit = true :=
          fun d hd => List.mem_takeWhile_imp hd
        have hne : cs.takeWhile Char.isDigit ≠ [] := by
          intro hnil
          rw [hnil] at hm
          cases hm
        have hpoint : isPoint c = true := by rcases hc with rfl | rfl <;> rfl
        refine Digital.cons (Or.inr hpoint) ⟨fun d hd => Or.inl (hdigits d hd), ?_⟩
        exact ⟨_, List.getLast?_eq_some_getLast hne, hdigits _ (List.getLast_mem hne)⟩
    · cases h
      exact ⟨[], rfl, Or.inl rfl⟩

theorem readSeconds_spec {cs rest : Text} {s us : Nat} (h : readSeconds cs = some (s, us, rest)) :
    ∃ u, cs = u ++ rest ∧ (u = [] ∨ ClockText u) := by
  unfold readSeconds at h
  split at h
  · obtain ⟨⟨s', rest'⟩, htwo, h⟩ := Option.bind_eq_some_iff.1 h
    obtain ⟨⟨us', rest''⟩, hfraction, h⟩ := Option.bind_eq_some_iff.1 h
    cases h
    obtain ⟨u, rfl, hu⟩ := readTwo_spec htwo
    obtain ⟨v, rfl, hv⟩ := readFraction_spec hfraction
    refine ⟨':' :: (u ++ v), by simp, Or.inr (Digital.cons (Or.inr rfl) ?_)⟩
    rcases hv with rfl | hv
    · rwa [List.append_nil]
    · exact Digital.append hu.chars hv
  · cases h
    exact ⟨[], rfl, Or.inl rfl⟩

/-- **The clock is digits, colons and a point, a digit last,** and there is a colon. -/
theorem readClock_spec {cs rest : Text} {t : TimeOfDay} (h : readClock cs = some (t, rest)) :
    ∃ u, cs = u ++ rest ∧ ClockText u ∧ ':' ∈ u := by
  obtain ⟨⟨hour, rest₁⟩, hhour, h⟩ := Option.bind_eq_some_iff.1 h
  dsimp only at h
  split at h
  · obtain ⟨⟨minute, rest₂⟩, hminute, h⟩ := Option.bind_eq_some_iff.1 h
    obtain ⟨⟨s, us, rest₃⟩, hseconds, h⟩ := Option.bind_eq_some_iff.1 h
    obtain ⟨clock, -, h⟩ := Option.bind_eq_some_iff.1 h
    cases h
    obtain ⟨u, rfl, hu⟩ := readTwo_spec hhour
    obtain ⟨v, rfl, hv⟩ := readTwo_spec hminute
    obtain ⟨w, rfl, hw⟩ := readSeconds_spec hseconds
    refine ⟨u ++ ':' :: (v ++ w), by simp,
      Digital.append hu.chars (Digital.cons (Or.inr rfl) ?_), by simp⟩
    rcases hw with rfl | hw
    · rwa [List.append_nil]
    · exact Digital.append hv.chars hw
  · cases h

theorem digital_of_zoneMicros {cs : Text} {micros : Nat} (h : zoneMicros cs = some micros) :
    ∀ c ∈ cs, c.isDigit = true ∨ isColon c = true := by
  have hminutes : ∀ cs m, zoneMinutes cs = some m →
      ∀ c ∈ cs, c.isDigit = true ∨ isColon c = true := by
    intro cs m h
    unfold zoneMinutes at h
    split at h
    · obtain ⟨h₁, h₂⟩ := isDigit_of_readInt h
      simp [h₁, h₂, isColon]
    · obtain ⟨h₁, h₂⟩ := isDigit_of_readInt h
      simp [h₁, h₂]
    · cases h
  match cs, h with
  | h₁ :: h₂ :: rest, h =>
    rw [zoneMicros] at h
    split at h
    · rename_i hour minute hhour hminute
      obtain ⟨hd₁, hd₂⟩ := isDigit_of_readInt hhour
      intro c hc
      rcases List.mem_cons.1 hc with rfl | hc
      · exact Or.inl hd₁
      rcases List.mem_cons.1 hc with rfl | hc
      · exact Or.inl hd₂
      · exact hminutes rest minute hminute c hc
    · cases h

/-- The marks that begin a suffix of the parser. -/
def isZone (c : Char) : Bool := c = 'Z' || c = 'z' || c = '+' || c = '-' || c = '\u2212'

/-- **A suffix is none, or a mark with digits and colons.** -/
theorem zoneOf_spec {cs : Text} {offset : Option UtcOffset} (h : zoneOf cs = some offset) :
    (cs = [] ∧ offset = none) ∨ (offset.isSome = true ∧ ∃ c u, cs = c :: u ∧ isZone c = true ∧
      ∀ d ∈ u, d.isDigit = true ∨ isColon d = true) := by
  cases cs with
  | nil =>
    cases h
    exact Or.inl ⟨rfl, rfl⟩
  | cons c cs =>
    refine Or.inr ?_
    rw [zoneOf] at h
    split at h
    · rename_i hz
      cases h
      obtain ⟨hmark, rfl⟩ := hz
      refine ⟨rfl, c, [], rfl, ?_, fun d hd => absurd hd List.not_mem_nil⟩
      rcases hmark with rfl | rfl <;> rfl
    split at h
    · rename_i hsign
      obtain ⟨micros, hmicros, h⟩ := Option.bind_eq_some_iff.1 h
      obtain ⟨o, -, rfl⟩ := Option.map_eq_some_iff.1 h
      exact ⟨rfl, c, cs, rfl, by rw [hsign]; rfl, digital_of_zoneMicros hmicros⟩
    split at h
    · rename_i hsign
      obtain ⟨micros, hmicros, h⟩ := Option.bind_eq_some_iff.1 h
      obtain ⟨o, -, rfl⟩ := Option.map_eq_some_iff.1 h
      refine ⟨rfl, c, cs, rfl, ?_, digital_of_zoneMicros hmicros⟩
      rcases hsign with rfl | rfl <;> rfl
    · cases h

theorem isDecimal_spec {cs : Text} (h : isDecimal cs = true) :
    ∀ c ∈ cs, c.isDigit = true ∨ c = '.' := by
  rw [isDecimal, Bool.and_eq_true] at h
  intro c hc
  rw [← List.takeWhile_append_dropWhile (p := Char.isDigit) (l := cs)] at hc
  rcases List.mem_append.1 hc with hc | hc
  · exact Or.inl (List.mem_takeWhile_imp hc)
  have hrest := h.2
  cases hdrop : cs.dropWhile Char.isDigit with
  | nil =>
    rw [hdrop] at hc
    cases hc
  | cons d rest =>
    rw [hdrop] at hc hrest
    simp only [Bool.and_eq_true, beq_iff_eq, List.all_eq_true] at hrest
    rcases List.mem_cons.1 hc with rfl | hc
    · exact Or.inr hrest.1
    · exact Or.inl (hrest.2 c hc)

/-- A number is digits, a point and a sign. -/
theorem isNumber_spec {cs : Text} (h : isNumber cs = true) :
    ∀ c ∈ cs, c.isDigit = true ∨ c = '.' ∨ c = '+' ∨ c = '-' := by
  cases cs with
  | nil => cases h
  | cons c cs =>
    rw [isNumber] at h
    intro d hd
    split at h
    · rename_i hsign
      rcases List.mem_cons.1 hd with rfl | hd
      · exact Or.inr (Or.inr hsign)
      · exact (isDecimal_spec h d hd).imp_right Or.inl
    · exact (isDecimal_spec h d hd).imp_right Or.inl

/-! ## One suffix -/

/-- The text ends in a suffix that the parser reads. -/
def EndsInZone (w : Text) : Prop := ∃ u z, w = u ++ z ∧ z ≠ [] ∧ (zoneOf z).isSome = true

/-- The parser finds an offset in the text: a suffix, or that of a number. -/
def Zoned (w : Text) : Prop := EndsInZone w ∨ isNumber w = true

/-- The text has one suffix at most, and it is one that the substitution takes off: what stands
before that is not `Zoned`, nor is the text where there is none. -/
structure OneSuffix (dg : RegexDigits) (v : Text) : Prop where
  taken : ∀ w t, v = w ++ t → tzSuffix dg t = some [] → ¬ Zoned w
  left : (∀ w t, v = w ++ t → tzSuffix dg t = none) → ¬ Zoned v

theorem clockText_not_endsInZone {u : Text} (hu : ClockText u) : ¬ EndsInZone u := by
  rintro ⟨x, z, rfl, hne, hzone⟩
  obtain ⟨offset, hzone⟩ := Option.isSome_iff_exists.1 hzone
  rcases zoneOf_spec hzone with ⟨rfl, -⟩ | ⟨-, c, cs, rfl, hmark, -⟩
  · exact hne rfl
  -- the first character of the suffix is none of the clock's
  have hfirst : c.isDigit = false ∧ isPoint c = false := by
    have hcases : c = 'Z' ∨ c = 'z' ∨ c = '+' ∨ c = '-' ∨ c = '\u2212' := by
      simpa [isZone, or_assoc] using hmark
    rcases hcases with rfl | rfl | rfl | rfl | rfl <;> exact ⟨rfl, rfl⟩
  rcases hu.chars c (by simp) with h | h
  · rw [hfirst.1] at h
    cases h
  · rw [hfirst.2] at h
    cases h

/-- An accepted text is a clock with a suffix, or a number. -/
theorem parseTime_cases {seconds : Text → Option TimeOfDay} {cs : Text} {t : PyTime}
    (h : parseTime seconds cs = some t) :
    (∃ u rest, cs = u ++ rest ∧ ClockText u ∧ ':' ∈ u ∧ zoneOf rest = some t.offset) ∨
      (isNumber cs = true ∧ t.offset = some .utc) := by
  unfold parseTime at h
  split at h
  · rename_i t' hread
    cases h
    obtain ⟨⟨clock, rest⟩, hclock, h⟩ := Option.bind_eq_some_iff.1 hread
    obtain ⟨offset, hzone, h⟩ := Option.bind_eq_some_iff.1 h
    cases h
    obtain ⟨u, rfl, hu, hcolon⟩ := readClock_spec hclock
    exact Or.inl ⟨u, rest, rfl, hu, hcolon, hzone⟩
  split at h
  · rename_i hnumber
    obtain ⟨clock, -, rfl⟩ := Option.map_eq_some_iff.1 h
    exact Or.inr ⟨hnumber, rfl⟩
  · cases h

/-- **The parser gives a naive time exactly if the text has no offset in it.** -/
theorem naive_iff_not_zoned {seconds : Text → Option TimeOfDay} {cs : Text} {t : PyTime}
    (h : parseTime seconds cs = some t) : t.offset = none ↔ ¬ Zoned cs := by
  rcases parseTime_cases h with ⟨u, rest, rfl, hu, hcolon, hzone⟩ | ⟨hnumber, hutc⟩
  · rcases zoneOf_spec hzone with ⟨rfl, hnone⟩ | ⟨hsome, c, z, rfl, -⟩
    · rw [List.append_nil]
      refine iff_of_true hnone ?_
      rintro (hends | hnumber)
      · exact clockText_not_endsInZone hu hends
      · exact absurd (isNumber_spec hnumber ':' hcolon) (by decide)
    · refine iff_of_false (fun hnaive => ?_) fun hnot =>
        hnot (Or.inl ⟨u, c :: z, rfl, List.cons_ne_nil c z, by rw [hzone]; rfl⟩)
      rw [hnaive] at hsome
      cases hsome
  · refine iff_of_false (fun hnaive => ?_) fun hnot => hnot (Or.inr hnumber)
    rw [hnaive] at hutc
    cases hutc

/-- The parser takes no newline. -/
theorem not_mem_newline_of_parseTime {seconds : Text → Option TimeOfDay} {cs : Text} {t : PyTime}
    (h : parseTime seconds cs = some t) : '\n' ∉ cs := by
  intro hmem
  rcases parseTime_cases h with ⟨u, rest, rfl, hu, -, hzone⟩ | ⟨hnumber, -⟩
  · rcases List.mem_append.1 hmem with hmem | hmem
    · exact absurd (hu.chars '\n' hmem) (by decide)
    rcases zoneOf_spec hzone with ⟨rfl, -⟩ | ⟨-, c, z, rfl, hmark, hz⟩
    · cases hmem
    rcases List.mem_cons.1 hmem with heq | hmem
    · rw [← heq] at hmark
      cases hmark
    · exact absurd (hz '\n' hmem) (by decide)
  · exact absurd (isNumber_spec hnumber '\n' hmem) (by decide)

/-- **After the substitution an accepted text gives a naive time exactly if it had one suffix at
most,** and one that the substitution knows. -/
theorem naive_iff_oneSuffix {dg : RegexDigits} {seconds : Text → Option TimeOfDay} {v : Text}
    {t : PyTime} (h : parseTime seconds (stripTz dg v) = some t) :
    t.offset = none ↔ OneSuffix dg v := by
  rw [naive_iff_not_zoned h]
  rcases stripTz_cases dg v with ⟨hsame, hnone⟩ | ⟨w, s, rest, rfl, hmatch, hstrip⟩
  · -- nothing is taken off
    rw [hsame]
    refine ⟨fun hleft => ⟨fun w s hws hmatch => ?_, fun _ => hleft⟩, fun hone => hone.left hnone⟩
    rw [hnone w s hws] at hmatch
    cases hmatch
  · rcases (tzSuffix_spec hmatch).1 with rfl | rfl
    · -- `w` is left
      rw [hstrip, List.append_nil]
      constructor
      · refine fun hw => ⟨fun w' s' hws hmatch' => ?_, fun hnone => ?_⟩
        · rwa [← tzSuffix_unique hws hmatch hmatch']
        · rw [hnone w s rfl] at hmatch
          cases hmatch
      · exact fun hone => hone.taken w s rfl hmatch
    · -- a newline is left, which the parser refuses
      rw [hstrip] at h
      exact absurd (List.mem_append_right w (List.mem_singleton_self _))
        (not_mem_newline_of_parseTime h)

/-! ## Naive times are read back -/

theorem readTwo_padded {n : Nat} (hn : n < 100) (rest : Text) :
    readTwo (padded 2 n ++ rest) = some (n, rest) := by
  have hread := @readInt_padded 2 (by decide) n hn
  obtain ⟨a, b, hab⟩ := List.length_eq_two.1 (padded_length 2 n)
  rw [hab] at hread ⊢
  show (readInt [a, b]).map (·, rest) = _
  rw [hread]
  rfl

theorem readFraction_padded {us : Nat} (h : us < 1000000) :
    readFraction (if us = 0 then [] else '.' :: padded 6 us) = some (us, []) := by
  split
  · rename_i hz
    rw [hz]
    rfl
  · have hread := @readInt_padded 6 (by decide) us h
    have hlen := padded_length 6 us
    have htake : (padded 6 us).takeWhile Char.isDigit = padded 6 us :=
      List.takeWhile_eq_self_iff.2 (padded_isDigit 6 us)
    have hdrop : (padded 6 us).dropWhile Char.isDigit = [] :=
      List.dropWhile_eq_nil_iff.2 (padded_isDigit 6 us)
    rw [readFraction, if_pos (Or.inl rfl)]
    simp only [htake, hdrop, List.take_of_length_le hlen.le, hread, hlen, Nat.sub_self, pow_zero,
      mul_one, Option.map_some]

theorem readClock_clockText (t : TimeOfDay) : readClock (clockText t) = some (t, []) := by
  have ht := t.isLt
  have hhour := @readTwo_padded ((t : Nat) / 3600000000) (by omega)
  have hminute := @readTwo_padded ((t : Nat) / 60000000 % 60) (by omega)
  have hsecond := @readTwo_padded ((t : Nat) / 1000000 % 60) (by omega)
  have hfraction := @readFraction_padded ((t : Nat) % 1000000) (by omega)
  simp only [readClock, clockText, List.append_assoc, List.cons_append, hhour, hminute, readSeconds,
    hsecond, hfraction, Option.bind_eq_bind, Option.bind_some, timeOf?_clock, Option.pure_def]

theorem parseTime_clockText (seconds : Text → Option TimeOfDay) (t : TimeOfDay) :
    parseTime seconds (clockText t) = some ⟨t, none⟩ := by
  have hread : readTime (clockText t) = some ⟨t, none⟩ := by
    rw [readTime, readClock_clockText]
    rfl
  rw [parseTime, hread]

theorem stripTz_clockText (dg : RegexDigits) (us : Nat) :
    stripTz dg (clockText us) = clockText us := by
  refine stripTz_of_no_mark fun c hc => ?_
  by_contra hmark
  refine absurd hc ?_
  rcases isMark_iff.1 (Bool.eq_true_of_not_eq_false hmark) with rfl | rfl | rfl <;>
    exact not_mem_clockText (by decide) (by decide) (by decide) us

end EventTime

end MeJournal
