import MeJournal.Python
import MeJournal.Lib.Json
import Mathlib.Data.Nat.Find

/-!
# Dates, timestamps and UUIDs as text

`isoformat`, `fromisoformat`, `str(uuid)` and `UUID(text)`, by the algorithms of CPython 3.12.

* `Date.toordinal`, `Date.fromordinal` — days since 0001-01-01; `toordinal_fromordinal` and
  `fromordinal_eq_some`: each undoes the other.
* `Date.fromisoformat_isoformat` — a date is read back from its text.
* `uuidOf_uuidText` — a UUID is read back from its text.
* `DateTime.fromisoformat_isoformat` — when a timestamp is; `DateTime.isoformat_injective`.
* `DateTime` — a `datetime` with an optional fixed offset; `DateTime.instant` is the point in
  time, `DateTime.ofTime` the UTC `datetime` of a point in time.
* `ofTime_instant` — a point in time in range is the instant of its `datetime`.
-/

namespace MeJournal

/-! ## Decimal and hexadecimal fields -/

/-- `int(text)` of a field of ASCII digits. -/
def readInt (cs : Text) : Option Nat :=
  if cs.isEmpty || !cs.all Char.isDigit then none
  else some (Json.digitsValue cs)

@[simp] theorem padded_length (width n : Nat) : (padded width n).length = width := by
  induction width generalizing n with
  | zero => rfl
  | succ width ih => simp [padded, ih]

theorem padded_isDigit (width n : Nat) : ∀ c ∈ padded width n, c.isDigit = true := by
  induction width generalizing n with
  | zero => simp [padded]
  | succ width ih =>
    simp only [padded, List.forall_mem_append, List.forall_mem_singleton]
    exact ⟨ih (n / 10), Json.digitChar_isDigit (Nat.mod_lt _ (by decide))⟩

theorem digitsValue_padded (width n : Nat) :
    Json.digitsValue (padded width n) = n % 10 ^ width := by
  induction width generalizing n with
  | zero => simp [padded, Json.digitsValue, Nat.mod_one]
  | succ width ih =>
    rw [padded, Json.digitsValue_append_singleton, ih,
      Json.digitChar_value (Nat.mod_lt _ (by decide)), Nat.pow_succ', Nat.mod_mul]
    omega

theorem readInt_padded {width : Nat} (hw : 0 < width) {n : Nat} (hn : n < 10 ^ width) :
    readInt (padded width n) = some n := by
  have hlen := padded_length width n
  have hne : padded width n ≠ [] := by
    intro hnil
    rw [hnil, List.length_nil] at hlen
    omega
  have hall : (padded width n).all Char.isDigit = true := by
    rw [List.all_eq_true]
    exact padded_isDigit width n
  rw [readInt, digitsValue_padded, Nat.mod_eq_of_lt hn, hall]
  simp [hne]

/-! ## Dates -/

/-- `date(year, month, day)`; `none` where it raises. -/
def Date.of? (year month day : Nat) : Option Date :=
  if h : (1 ≤ year ∧ year ≤ 9999) ∧ (1 ≤ month ∧ month ≤ 12) ∧
      (1 ≤ day ∧ day ≤ daysInMonth year month) then
    some ⟨year, month, day, h.1, h.2.1, h.2.2⟩
  else none

theorem Date.of?_self (d : Date) : Date.of? d.year d.month d.day = some d :=
  dif_pos ⟨d.year_range, d.month_range, d.day_range⟩

/-- `_days_before_year`. -/
def daysBeforeYear (y : Nat) : Nat := (y - 1) * 365 + (y - 1) / 4 - (y - 1) / 100 + (y - 1) / 400

/-- `_days_before_month`. -/
def daysBeforeMonth (y : Nat) : Nat → Nat
  | 0 => 0
  | 1 => 0
  | m + 1 => daysBeforeMonth y m + daysInMonth y m

def Date.toordinal (d : Date) : Nat :=
  daysBeforeYear d.year + daysBeforeMonth d.year d.month + d.day

def daysInYear (y : Nat) : Nat := if isLeap y then 366 else 365

/-- The day counted from the first of month `m`, as a month and a day. -/
def splitMonth (y : Nat) : Nat → Nat → Nat → Nat × Nat
  | 0, m, day => (m, day)
  | fuel + 1, m, day =>
    if day ≤ daysInMonth y m then (m, day)
    else splitMonth y fuel (m + 1) (day - daysInMonth y m)

/-- `date.fromordinal`; `none` where it raises. -/
def Date.fromordinal (n : Nat) : Option Date :=
  let year := Nat.findGreatest (fun y => daysBeforeYear y < n) 9999
  let (month, day) := splitMonth year 11 1 (n - daysBeforeYear year)
  Date.of? year month day

/-- `_isoweek1monday`. -/
def isoweek1monday (year : Nat) : Nat :=
  let firstday := daysBeforeYear year + 1
  let firstweekday := (firstday + 6) % 7
  if 3 < firstweekday then firstday - firstweekday + 7 else firstday - firstweekday

/-- `_isoweek_to_gregorian`. -/
def isoweekToGregorian (year week day : Nat) : Option Date :=
  let firstWeekday := (daysBeforeYear year + 1) % 7
  let long := firstWeekday == 4 || (firstWeekday == 3 && isLeap year)
  if (0 < week && week < 53 || week == 53 && long) && 0 < day && day < 8 then
    Date.fromordinal (isoweek1monday year + (week - 1) * 7 + (day - 1))
  else none

/-- `parse_digits`: the number in the next `n` characters, and what follows. -/
def parseDigits (n : Nat) (cs : Text) : Option (Nat × Text) :=
  if cs.length < n then none else (readInt (cs.take n)).map fun v => (v, cs.drop n)

/-- The text after a dash where the date is written with dashes. -/
def afterDash (dashed : Bool) (cs : Text) : Option Text :=
  if dashed then (if cs.head? = some '-' then some (cs.drop 1) else none) else some cs

/-- The length of the UTF-8 text. -/
def utf8Length (cs : Text) : Nat := (cs.map Char.utf8Size).sum

/-- `parse_isoformat_date` on a week: the day is the Monday where none is given. -/
def parseWeek (dashed : Bool) (year : Nat) (cs : Text) : Option Date :=
  (parseDigits 2 cs).bind fun (week, rest) =>
    if rest.isEmpty then isoweekToGregorian year week 1
    else ((afterDash dashed rest).bind (parseDigits 1)).bind fun (day, _) =>
      isoweekToGregorian year week day

/-- `parse_isoformat_date` on a month and a day. -/
def parseMonthDay (dashed : Bool) (year : Nat) (cs : Text) : Option Date :=
  (parseDigits 2 cs).bind fun (month, rest) =>
    ((afterDash dashed rest).bind (parseDigits 2)).bind fun (day, _) => Date.of? year month day

/-- `date.fromisoformat`; `none` where it raises `ValueError`. -/
def Date.fromisoformat (cs : Text) : Option Date :=
  if utf8Length cs ≠ 7 ∧ utf8Length cs ≠ 8 ∧ utf8Length cs ≠ 10 then none
  else (parseDigits 4 cs).bind fun (year, rest) =>
    let dashed := rest.head? == some '-'
    let body := if dashed then rest.drop 1 else rest
    if body.head? = some 'W' then parseWeek dashed year (body.drop 1)
    else parseMonthDay dashed year body

theorem Date.day_lt (d : Date) : d.day < 100 := by
  have h := d.day_range.2
  unfold daysInMonth at h
  split at h
  · split at h <;> omega
  · split at h <;> omega

theorem parseDigits_padded {width n : Nat} (hw : 0 < width) (hn : n < 10 ^ width) (rest : Text) :
    parseDigits width (padded width n ++ rest) = some (n, rest) := by
  have hlen := padded_length width n
  have hlong : ¬ (padded width n ++ rest).length < width := by
    rw [List.length_append]
    omega
  rw [parseDigits, if_neg hlong, List.take_append_of_le_length hlen.ge,
    List.take_of_length_le hlen.le, List.drop_append_of_le_length hlen.ge,
    List.drop_of_length_le hlen.le, readInt_padded hw hn]
  rfl

theorem utf8Length_append (cs ds : Text) :
    utf8Length (cs ++ ds) = utf8Length cs + utf8Length ds := by
  simp [utf8Length]

theorem utf8Length_padded (width n : Nat) : utf8Length (padded width n) = width := by
  have hsize : ∀ d < 10, (Nat.digitChar d).utf8Size = 1 := by decide
  induction width generalizing n with
  | zero => rfl
  | succ width ih =>
    rw [padded, utf8Length_append, ih]
    simp [utf8Length, hsize (n % 10) (Nat.mod_lt _ (by decide))]

theorem utf8Length_isoformat (d : Date) : utf8Length d.isoformat = 10 := by
  have hdash : ∀ cs, utf8Length ('-' :: cs) = 1 + utf8Length cs := by
    intro cs
    rw [utf8Length, List.map_cons, List.sum_cons]
    rfl
  rw [Date.isoformat]
  simp only [List.append_assoc, List.cons_append, utf8Length_append, hdash, utf8Length_padded]

/-- **A date is read back from its text.** -/
theorem Date.fromisoformat_isoformat (d : Date) : Date.fromisoformat d.isoformat = some d := by
  have hlen := utf8Length_isoformat d
  have hm := @parseDigits_padded 2 d.month (by decide) (by have := d.month_range; omega)
    ('-' :: padded 2 d.day)
  have hd := @parseDigits_padded 2 d.day (by decide) (by have := d.day_lt; omega) []
  have hhead : (padded 2 d.month ++ '-' :: padded 2 d.day).head? ≠ some 'W' := by
    obtain ⟨m1, m2, hmonth⟩ := List.length_eq_two.1 (padded_length 2 d.month)
    intro hW
    have hmem : 'W' ∈ padded 2 d.month := by
      rw [hmonth] at hW ⊢
      cases hW
      exact List.mem_cons_self
    exact absurd (padded_isDigit 2 d.month 'W' hmem) (by decide)
  rw [List.append_nil] at hd
  rw [Date.fromisoformat, if_neg (by omega), Date.isoformat, List.append_assoc, List.cons_append,
    parseDigits_padded (by decide) (by have := d.year_range; omega), Option.bind_some]
  simp only [List.head?_cons, BEq.rfl, if_true, List.drop_succ_cons, List.drop_zero, if_neg hhead,
    parseMonthDay, hm, Option.bind_some, afterDash, hd, Date.of?_self]

/-! ## UUIDs -/

/-- The last `width` hexadecimal digits of `n`, zero padded. -/
def hexPadded : Nat → Nat → Text
  | 0, _ => []
  | width + 1, n => hexPadded width (n / 16) ++ [Nat.digitChar (n % 16)]

/-- `str(uuid)`. -/
def uuidText (u : UUID) : Text :=
  let h := hexPadded 32 u.toNat
  h.take 8 ++ '-' :: (h.drop 8).take 4 ++ '-' :: (h.drop 12).take 4 ++ '-' :: (h.drop 16).take 4 ++
    '-' :: h.drop 20

/-- `text.replace(pat, "")`; `skip` characters are still part of a match. -/
def removeAll (pat : Text) : Nat → Text → Text
  | _, [] => []
  | skip + 1, _ :: cs => removeAll pat skip cs
  | 0, c :: cs =>
    if pat.isPrefixOf (c :: cs) then removeAll pat (pat.length - 1) cs
    else c :: removeAll pat 0 cs

/-! ### `int(text, 16)` -/

/-- Where the ten decimal digits of a script start (Unicode 15.0, as in CPython 3.12). -/
def decimalZeros : List Nat :=
  [0x30, 0x660, 0x6F0, 0x7C0, 0x966, 0x9E6, 0xA66, 0xAE6, 0xB66, 0xBE6, 0xC66, 0xCE6, 0xD66, 0xDE6,
    0xE50, 0xED0, 0xF20, 0x1040, 0x1090, 0x17E0, 0x1810, 0x1946, 0x19D0, 0x1A80, 0x1A90, 0x1B50,
    0x1BB0, 0x1C40, 0x1C50, 0xA620, 0xA8D0, 0xA900, 0xA9D0, 0xA9F0, 0xAA50, 0xABF0, 0xFF10,
    0x104A0, 0x10D30, 0x11066, 0x110F0, 0x11136, 0x111D0, 0x112F0, 0x11450, 0x114D0, 0x11650,
    0x116C0, 0x11730, 0x118E0, 0x11950, 0x11C50, 0x11D50, 0x11DA0, 0x11F50, 0x16A60, 0x16AC0,
    0x16B50, 0x1D7CE, 0x1D7D8, 0x1D7E2, 0x1D7EC, 0x1D7F6, 0x1E140, 0x1E2F0, 0x1E4F0, 0x1E950,
    0x1FBF0]

/-- `unicodedata.decimal(c)`. -/
def unicodeDecimal (c : Char) : Option Nat :=
  decimalZeros.findSome? fun first =>
    if first ≤ c.toNat ∧ c.toNat < first + 10 then some (c.toNat - first) else none

/-- Blanks and digits of other scripts, as `int` reads them in a text that is not ASCII; what
stands for `?` here is refused. -/
def toAsciiDigit (c : Char) : Char :=
  if c.toNat < 127 then c
  else if isPySpace c then ' '
  else match unicodeDecimal c with
    | some d => Nat.digitChar d
    | none => '?'

/-- `Py_ISSPACE`. -/
def isAsciiSpace (c : Char) : Bool := (0x09 ≤ c.toNat && c.toNat ≤ 0x0D) || c == ' '

/-- The text without an `0x` in front, after which one underscore may stand. -/
def dropHexMark : Text → Text
  | '0' :: x :: cs =>
    if x = 'x' || x = 'X' then (if cs.head? = some '_' then cs.drop 1 else cs) else '0' :: x :: cs
  | cs => cs

/-- `long_from_binary_base`: hexadecimal digits with single underscores between them; `start` says
that a digit has to come next. -/
def readDigits16 : Nat → Bool → Text → Option Nat
  | n, start, [] => if start then none else some n
  | n, start, c :: cs =>
    if c = '_' then (if start then none else readDigits16 n true cs)
    else (Json.hexValue c).bind fun d => readDigits16 (n * 16 + d) false cs

/-- `int(text, 16)` of a text without a minus sign; `none` where it raises `ValueError`. -/
def readInt16 (cs : Text) : Option Nat :=
  let ascii := if cs.all (·.toNat < 128) then cs else cs.map toAsciiDigit
  let body := (ascii.dropWhile isAsciiSpace).rdropWhile isAsciiSpace
  readDigits16 0 true (dropHexMark (if body.head? = some '+' then body.drop 1 else body))

def isBrace (c : Char) : Bool := c = '{' || c = '}'

/-- `UUID(text)`: dashes, braces and the URN prefix are dropped, and `int` reads the 32 characters
that are left.  `none` where it raises `ValueError`. -/
def uuidOf (cs : Text) : Option UUID :=
  let body := removeAll "uuid:".toList 0 (removeAll "urn:".toList 0 cs)
  let hex := ((body.dropWhile isBrace).rdropWhile isBrace).filter (· != '-')
  if hex.length ≠ 32 then none
  else (readInt16 hex).map (BitVec.ofNat 128)

theorem hexPadded_hex (width n : Nat) :
    ∀ c ∈ hexPadded width n, ∃ d < 16, c = Nat.digitChar d := by
  induction width generalizing n with
  | zero => simp [hexPadded]
  | succ width ih =>
    simp only [hexPadded, List.forall_mem_append, List.forall_mem_singleton]
    exact ⟨ih (n / 16), _, Nat.mod_lt _ (by decide), rfl⟩

theorem hexPadded_length (width n : Nat) : (hexPadded width n).length = width := by
  induction width generalizing n with
  | zero => rfl
  | succ width ih => simp [hexPadded, ih]

theorem mem_hexPadded_ne {width n : Nat} {c : Char} (h : c ∈ hexPadded width n) :
    c.toNat < 128 ∧ isAsciiSpace c = false ∧ c ≠ '_' ∧ c ≠ '+' ∧ c ≠ 'x' ∧ c ≠ 'X' := by
  obtain ⟨d, hd, rfl⟩ := hexPadded_hex width n c h
  have hall : ∀ d < 16, (Nat.digitChar d).toNat < 128 ∧ isAsciiSpace (Nat.digitChar d) = false ∧
      Nat.digitChar d ≠ '_' ∧ Nat.digitChar d ≠ '+' ∧ Nat.digitChar d ≠ 'x' ∧
      Nat.digitChar d ≠ 'X' := by decide
  exact hall d hd

/-- A digit at the end of a number. -/
theorem readDigits16_concat {cs : Text} {n m d : Nat} {start : Bool}
    (h : readDigits16 n start cs = some m) (hd : d < 16) :
    readDigits16 n start (cs ++ [Nat.digitChar d]) = some (m * 16 + d) := by
  induction cs generalizing n start with
  | nil =>
    rw [readDigits16] at h
    split at h
    · cases h
    cases h
    have hne : Nat.digitChar d ≠ '_' := by
      have hall : ∀ d < 16, Nat.digitChar d ≠ '_' := by decide
      exact hall d hd
    simp [readDigits16, hne, Json.hexValue_digitChar hd]
  | cons c cs ih =>
    rw [List.cons_append]
    rw [readDigits16] at h ⊢
    split at h
    · split at h
      · cases h
      rename_i hc hstart
      rw [if_pos hc, if_neg hstart]
      exact ih h
    · rename_i hc
      rw [if_neg hc]
      cases hv : Json.hexValue c with
      | none =>
        rw [hv] at h
        cases h
      | some v =>
        rw [hv, Option.bind_some] at h
        exact ih h

theorem readDigits16_hexPadded (width n : Nat) :
    readDigits16 0 true (hexPadded (width + 1) n) = some (n % 16 ^ (width + 1)) := by
  induction width generalizing n with
  | zero =>
    have hd : n % 16 < 16 := Nat.mod_lt _ (by decide)
    have hne : Nat.digitChar (n % 16) ≠ '_' :=
      (@mem_hexPadded_ne 1 n _ (List.mem_singleton_self _)).2.2.1
    simp [hexPadded, readDigits16, hne, Json.hexValue_digitChar hd]
  | succ width ih =>
    rw [hexPadded, readDigits16_concat (ih (n / 16)) (Nat.mod_lt _ (by decide)),
      Nat.pow_succ' (n := width + 1), Nat.mod_mul]
    congr 1
    omega

theorem removeAll_of_not_mem {p : Char} {pat cs : Text} (h : p ∉ cs) :
    removeAll (p :: pat) 0 cs = cs := by
  induction cs with
  | nil => rfl
  | cons c cs ih =>
    have hne : p ≠ c := fun heq => h (heq ▸ List.mem_cons_self)
    have hrest : p ∉ cs := fun hmem => h (List.mem_cons_of_mem _ hmem)
    simp [removeAll, hne, ih hrest]

theorem strip_of_all {p : Char → Bool} {cs : Text} (h : ∀ c ∈ cs, p c = false) :
    (cs.dropWhile p).rdropWhile p = cs := by
  have hdrop : ∀ cs : Text, (∀ c ∈ cs, p c = false) → cs.dropWhile p = cs := by
    intro cs h
    cases cs with
    | nil => rfl
    | cons c cs => simp [h c List.mem_cons_self]
  rw [hdrop cs h, List.rdropWhile, hdrop _ (fun c hc => h c (List.mem_reverse.1 hc)),
    List.reverse_reverse]

theorem uuidText_mem {u : UUID} {c : Char} (h : c ∈ uuidText u) :
    c = '-' ∨ ∃ d < 16, c = Nat.digitChar d := by
  have hhex := hexPadded_hex 32 u.toNat
  unfold uuidText at h
  generalize hexPadded 32 u.toNat = digits at h hhex
  simp only [List.mem_append, List.mem_cons] at h
  rcases h with (((h | rfl | h) | rfl | h) | rfl | h) | rfl | h
  all_goals first
    | exact Or.inl rfl
    | exact Or.inr (hhex c (List.mem_of_mem_take h))
    | exact Or.inr (hhex c (List.mem_of_mem_drop (List.mem_of_mem_take h)))
    | exact Or.inr (hhex c (List.mem_of_mem_drop h))

theorem uuidText_filter (u : UUID) : (uuidText u).filter (· != '-') = hexPadded 32 u.toNat := by
  have hkeep : ∀ cs : Text, (∀ c ∈ cs, c ∈ hexPadded 32 u.toNat) → cs.filter (· != '-') = cs := by
    intro cs hcs
    refine List.filter_eq_self.2 fun c hc => ?_
    obtain ⟨d, hd, rfl⟩ := hexPadded_hex 32 u.toNat c (hcs c hc)
    have hall : ∀ d < 16, (Nat.digitChar d != '-') = true := by decide
    exact hall d hd
  have htake : ∀ k n, ∀ c ∈ ((hexPadded 32 u.toNat).drop k).take n, c ∈ hexPadded 32 u.toNat :=
    fun k n c hc => List.mem_of_mem_drop (List.mem_of_mem_take hc)
  have hjoin : ∀ k n, ((hexPadded 32 u.toNat).drop k).take n ++
      (hexPadded 32 u.toNat).drop (k + n) = (hexPadded 32 u.toNat).drop k := by
    intro k n
    rw [← List.drop_drop, List.take_append_drop]
  simp only [uuidText, List.filter_append, List.filter_cons, bne_self_eq_false, Bool.false_eq_true,
    if_false]
  rw [hkeep _ (fun c hc => List.mem_of_mem_take hc), hkeep _ (htake 8 4), hkeep _ (htake 12 4),
    hkeep _ (htake 16 4), hkeep _ (fun c hc => List.mem_of_mem_drop hc)]
  simp only [List.append_assoc]
  rw [hjoin 16 4, hjoin 12 4, hjoin 8 4, List.take_append_drop]

theorem dropHexMark_of_not_mem {cs : Text} (h : 'x' ∉ cs) (h' : 'X' ∉ cs) :
    dropHexMark cs = cs := by
  unfold dropHexMark
  split
  · rename_i x cs
    have hne : ¬ (x = 'x' || x = 'X') := by
      intro heq
      simp only [Bool.or_eq_true, decide_eq_true_eq] at heq
      rcases heq with rfl | rfl
      · exact h (by simp)
      · exact h' (by simp)
    rw [if_neg hne]
  · rfl

theorem readInt16_hexPadded (width n : Nat) :
    readInt16 (hexPadded (width + 1) n) = some (n % 16 ^ (width + 1)) := by
  have hmem := @mem_hexPadded_ne (width + 1) n
  have hall : (hexPadded (width + 1) n).all (·.toNat < 128) = true := by
    rw [List.all_eq_true]
    exact fun c hc => decide_eq_true (hmem hc).1
  have hstrip := strip_of_all fun c hc => (@hmem c hc).2.1
  have hsign : (hexPadded (width + 1) n).head? ≠ some '+' :=
    fun hhead => (hmem (List.mem_of_mem_head? hhead)).2.2.2.1 rfl
  have hx : 'x' ∉ hexPadded (width + 1) n := fun hx => (hmem hx).2.2.2.2.1 rfl
  have hX : 'X' ∉ hexPadded (width + 1) n := fun hX => (hmem hX).2.2.2.2.2 rfl
  rw [readInt16, if_pos hall, hstrip, if_neg hsign, dropHexMark_of_not_mem hx hX,
    readDigits16_hexPadded]

/-- **A UUID is read back from its text.** -/
theorem uuidOf_uuidText (u : UUID) : uuidOf (uuidText u) = some u := by
  have hnot : ∀ c, c ≠ '-' → (∀ d < 16, c ≠ Nat.digitChar d) → c ∉ uuidText u := by
    intro c hdash hdigit hc
    rcases uuidText_mem hc with h | ⟨d, hd, h⟩
    · exact hdash h
    · exact hdigit d hd h
  have hu : 'u' ∉ uuidText u := hnot 'u' (by decide) (by decide)
  have hbrace : ∀ c ∈ uuidText u, isBrace c = false := by
    intro c hc
    have hopen : c ≠ '{' := fun h => hnot '{' (by decide) (by decide) (h ▸ hc)
    have hclose : c ≠ '}' := fun h => hnot '}' (by decide) (by decide) (h ▸ hc)
    simp [isBrace, hopen, hclose]
  have hbody :
      removeAll "uuid:".toList 0 (removeAll "urn:".toList 0 (uuidText u)) = uuidText u := by
    rw [show "urn:".toList = 'u' :: "rn:".toList from rfl, removeAll_of_not_mem hu,
      show "uuid:".toList = 'u' :: "uid:".toList from rfl, removeAll_of_not_mem hu]
  have hlen : u.toNat % 16 ^ 32 = u.toNat := Nat.mod_eq_of_lt u.isLt
  simp only [uuidOf, hbody, strip_of_all hbrace, uuidText_filter, hexPadded_length, ne_eq,
    not_true_eq_false, if_false, readInt16_hexPadded 31, hlen, Option.map_some, BitVec.ofNat_toNat,
    BitVec.setWidth_eq]

/-! ## Timestamps -/

/-- A fixed UTC offset in microseconds, less than a day either way. -/
structure UtcOffset where
  micros : Int
  range : -86400000000 < micros ∧ micros < 86400000000
  deriving DecidableEq

def UtcOffset.utc : UtcOffset := ⟨0, by decide⟩

/-- A `datetime`; without an offset it is naive. -/
structure DateTime where
  date : Date
  time : TimeOfDay
  offset : Option UtcOffset
  deriving DecidableEq

/-- `HH:MM:SS`, then the microseconds unless they are zero. -/
def clockText (micros : Nat) : Text :=
  padded 2 (micros / 3600000000) ++ ':' :: padded 2 (micros / 60000000 % 60) ++
    ':' :: padded 2 (micros / 1000000 % 60) ++
    if micros % 1000000 = 0 then [] else '.' :: padded 6 (micros % 1000000)

/-- `_format_offset`: the seconds only where they are not zero. -/
def UtcOffset.text (o : UtcOffset) : Text :=
  let abs := o.micros.natAbs
  (if o.micros < 0 then '-' else '+') ::
    if abs % 60000000 = 0 then padded 2 (abs / 3600000000) ++ ':' :: padded 2 (abs / 60000000 % 60)
    else clockText abs

def offsetText : Option UtcOffset → Text
  | none => []
  | some o => o.text

/-- `datetime.isoformat()`. -/
def DateTime.isoformat (dt : DateTime) : Text :=
  dt.date.isoformat ++ 'T' :: clockText dt.time ++ offsetText dt.offset

/-- A clock as `parse_hh_mm_ss_ff` reads it; `more` says that it stopped before the end of the
text. -/
structure Clock where
  hour : Nat
  minute : Nat
  second : Nat
  micros : Nat
  more : Bool
  deriving DecidableEq

/-- Where the loop of `parse_hh_mm_ss_ff` ends: behind a field, or before a fraction. -/
inductive ClockEnd where
  | stopped (more : Bool)
  | fraction (digits : Text)

/-- The loop of `parse_hh_mm_ss_ff` with `n` fields to go; `colons` is set by the first field, and
`next` is the character behind the clock, NUL at the end of the text. -/
def clockFields (next : Char) : Nat → Option Bool → Text → Option (List Nat × ClockEnd)
  | 0, _, cs => some ([], .fraction cs)
  | n + 1, colons, cs =>
    (parseDigits 2 cs).bind fun (v, rest) =>
      let c := rest.headD next
      let colons := colons.getD (c == ':')
      if rest.length ≤ 1 ∧ c.toNat < 128 then some ([v], .stopped (c != '\x00'))
      else if colons && c == ':' then
        (clockFields next n (some true) (rest.drop 1)).map fun p => (v :: p.1, p.2)
      else if c = '.' ∨ c = ',' then some ([v], .fraction (rest.drop 1))
      else if colons then none
      else (clockFields next n (some false) rest).map fun p => (v :: p.1, p.2)

/-- The fraction: six digits count, further digits are skipped. -/
def fractionMicros (next : Char) (cs : Text) : Option (Nat × Bool) :=
  (readInt (cs.take 6)).map fun v =>
    (v * 10 ^ (6 - (cs.take 6).length), ((cs.drop 6).dropWhile Char.isDigit).headD next != '\x00')

/-- `parse_hh_mm_ss_ff`. -/
def parseClock (next : Char) (cs : Text) : Option Clock :=
  match clockFields next 3 none cs with
  | none => none
  | some (fields, .stopped more) =>
    some ⟨fields.getD 0 0, fields.getD 1 0, fields.getD 2 0, 0, more⟩
  | some (fields, .fraction digits) =>
    (fractionMicros next digits).map fun (micros, more) =>
      ⟨fields.getD 0 0, fields.getD 1 0, fields.getD 2 0, micros, more⟩

def isZoneMark (c : Char) : Bool := c = '+' || c = '-' || c = 'Z'

/-- `timezone(offset)`; `none` where it raises. -/
def UtcOffset.of? (micros : Int) : Option UtcOffset :=
  if h : -86400000000 < micros ∧ micros < 86400000000 then some ⟨micros, h⟩ else none

/-- The offset behind a mark, in microseconds; nothing follows `Z`. -/
def parseZone (mark : Char) (zone : Text) : Option Int :=
  if mark = 'Z' then (if zone.headD '\x00' = '\x00' then some 0 else none)
  else (parseClock '\x00' zone).bind fun t =>
    if t.more then none
    else
      let micros := t.hour * 3600000000 + t.minute * 60000000 + t.second * 1000000 + t.micros
      some (if mark = '-' then -(micros : Int) else micros)

/-- `tzinfo_from_isoformat_results`: an offset of no whole second is UTC. -/
def tzinfoOf (micros : Int) : Option UtcOffset :=
  if micros.natAbs < 1000000 then some .utc else UtcOffset.of? micros

/-- `time(hour, minute, second, microsecond)`; `none` where it raises. -/
def timeOf? (hour minute second micros : Nat) : Option TimeOfDay :=
  if hr : hour < 24 ∧ minute < 60 ∧ second < 60 ∧ micros < 1000000 then
    some ⟨hour * 3600000000 + minute * 60000000 + second * 1000000 + micros, by omega⟩
  else none

def Clock.time? (t : Clock) : Option TimeOfDay := timeOf? t.hour t.minute t.second t.micros

/-- `parse_isoformat_time`, with the offset in microseconds. -/
def parseIsoTime (cs : Text) : Option (TimeOfDay × Option Int) :=
  let clock := cs.takeWhile fun c => !isZoneMark c
  match cs.dropWhile fun c => !isZoneMark c with
  | [] => (parseClock '\x00' clock).bind fun t =>
    if t.more then none else t.time?.map fun time => (time, none)
  | mark :: zone => (parseClock mark clock).bind fun t =>
    t.time?.bind fun time => (parseZone mark zone).map fun micros => (time, some micros)

/-- `find_isoformat_datetime_separator`: where the date ends; `none` where it raises. -/
def separatorIndex (cs : Text) : Option Nat :=
  let digit (i : Nat) : Bool := cs[i]?.any Char.isDigit
  if cs.length = 7 then some 7
  else if cs[4]? = some '-' then
    if cs[5]? = some 'W' then
      if cs.length < 8 then none
      else if cs[8]? = some '-' then
        if cs.length = 9 then none
        else if 10 < cs.length && digit 10 then some 8 else some 10
      else some 8
    else some 10
  else if cs[4]? = some 'W' then
    let idx := 7 + ((cs.drop 7).takeWhile Char.isDigit).length
    if idx < 9 then some idx else if idx % 2 = 0 then some 7 else some 8
  else some 8

/-- What `datetime.fromisoformat` reads: the date, the time and the offset.  After a separator there
must be a time. -/
def readIsoformat (cs : Text) : Option (Date × TimeOfDay × Option Int) :=
  if cs.length < 7 then none
  else (separatorIndex cs).bind fun sep =>
    (Date.fromisoformat (cs.take sep)).bind fun date =>
      (if cs.length ≤ sep then some (0, none) else parseIsoTime (cs.drop (sep + 1))).map
        fun time => (date, time)

/-- `datetime.fromisoformat`; `none` where it raises `ValueError`. -/
def DateTime.fromisoformat (cs : Text) : Option DateTime :=
  (readIsoformat cs).bind fun
    | (date, time, none) => some ⟨date, time, none⟩
    | (date, time, some micros) => (tzinfoOf micros).map fun offset => ⟨date, time, some offset⟩

/-! ## Timestamps are read back -/

/-- A field that a colon follows. -/
theorem clockFields_colon {next : Char} {n v : Nat} {colons : Option Bool} (hv : v < 100)
    (hcolons : colons.getD true = true) {rest : Text} (hrest : rest ≠ []) :
    clockFields next (n + 1) colons (padded 2 v ++ ':' :: rest) =
      (clockFields next n (some true) rest).map fun p => (v :: p.1, p.2) := by
  have hmore : ¬ ((':' :: rest).length ≤ 1 ∧ ':'.toNat < 128) := by
    rw [List.length_cons]
    have hpos := List.length_pos_of_ne_nil hrest
    omega
  rw [clockFields, parseDigits_padded (by decide) (by omega)]
  simp only [Option.bind_some, List.headD_cons, if_neg hmore, BEq.rfl, hcolons, Bool.and_self,
    if_true, List.drop_succ_cons, List.drop_zero]

/-- A field at the end of the clock. -/
theorem clockFields_last {next : Char} {n v : Nat} {colons : Option Bool} (hv : v < 100)
    (hnext : next.toNat < 128) :
    clockFields next (n + 1) colons (padded 2 v) = some ([v], .stopped (next != '\x00')) := by
  have hread := @parseDigits_padded 2 v (by decide) (by omega) []
  rw [List.append_nil] at hread
  rw [clockFields, hread, Option.bind_some]
  exact if_pos ⟨Nat.zero_le 1, hnext⟩

/-- A field that a fraction follows. -/
theorem clockFields_dot {next : Char} {n v : Nat} {colons : Option Bool} (hv : v < 100)
    {rest : Text} (hrest : rest ≠ []) :
    clockFields next (n + 1) colons (padded 2 v ++ '.' :: rest) =
      some ([v], .fraction rest) := by
  have hmore : ¬ (('.' :: rest).length ≤ 1 ∧ '.'.toNat < 128) := by
    rw [List.length_cons]
    have hpos := List.length_pos_of_ne_nil hrest
    omega
  have hcolon : ('.' == ':') = false := rfl
  rw [clockFields, parseDigits_padded (by decide) (by omega)]
  simp only [Option.bind_some, List.headD_cons, if_neg hmore, hcolon, Bool.and_false,
    Bool.false_eq_true, if_false, true_or, if_true, List.drop_succ_cons, List.drop_zero]

theorem padded_ne_nil {width : Nat} (hw : 0 < width) (n : Nat) : padded width n ≠ [] := by
  intro hnil
  have hlen := padded_length width n
  rw [hnil, List.length_nil] at hlen
  omega

theorem fractionMicros_padded {next : Char} {us : Nat} (h : us < 1000000) :
    fractionMicros next (padded 6 us) = some (us, next != '\x00') := by
  have hread := @readInt_padded 6 (by decide) _ h
  have hlen := padded_length 6 us
  simp [fractionMicros, List.take_of_length_le hlen.le, List.drop_of_length_le hlen.le, hread]

theorem parseClock_clockText {next : Char} (hnext : next.toNat < 128) {us : Nat}
    (h : us < 86400000000) :
    parseClock next (clockText us) = some ⟨us / 3600000000, us / 60000000 % 60,
      us / 1000000 % 60, us % 1000000, next != '\x00'⟩ := by
  have hsec : us / 1000000 % 60 < 100 := by omega
  have hmin : us / 60000000 % 60 < 100 := by omega
  have hhour : us / 3600000000 < 100 := by omega
  by_cases hz : us % 1000000 = 0
  · rw [parseClock, clockText, if_pos hz, List.append_nil, List.append_assoc, List.cons_append,
      clockFields_colon hhour rfl (by simp [padded_ne_nil]),
      clockFields_colon hmin rfl (padded_ne_nil (by decide) _), clockFields_last hsec hnext, hz]
    rfl
  · rw [parseClock, clockText, if_neg hz, List.append_assoc, List.append_assoc, List.cons_append,
      List.cons_append, clockFields_colon hhour rfl (by simp),
      clockFields_colon hmin rfl (by simp),
      clockFields_dot hsec (padded_ne_nil (by decide) _)]
    simp only [Option.map_some, fractionMicros_padded (Nat.mod_lt us (by decide : 1000000 > 0))]
    rfl

theorem parseClock_two {next : Char} (hnext : next.toNat < 128) {h m : Nat} (hh : h < 100)
    (hm : m < 100) :
    parseClock next (padded 2 h ++ ':' :: padded 2 m) = some ⟨h, m, 0, 0, next != '\x00'⟩ := by
  rw [parseClock, clockFields_colon hh rfl (padded_ne_nil (by decide) _),
    clockFields_last hm hnext]
  rfl

/-- The text of a clock has no mark of a zone in it. -/
theorem not_mem_clockText {c : Char} (hdigit : c.isDigit = false) (hcolon : c ≠ ':')
    (hdot : c ≠ '.') (us : Nat) : c ∉ clockText us := by
  have hpad : ∀ width n, c ∉ padded width n := by
    intro width n hc
    rw [padded_isDigit width n c hc] at hdigit
    cases hdigit
  intro hc
  simp only [clockText, List.mem_append, List.mem_cons] at hc
  rcases hc with ((hc | hc | hc) | hc | hc) | hc
  · exact hpad _ _ hc
  · exact hcolon hc
  · exact hpad _ _ hc
  · exact hcolon hc
  · exact hpad _ _ hc
  · split at hc
    · cases hc
    · rcases List.mem_cons.1 hc with hc | hc
      · exact hdot hc
      · exact hpad _ _ hc

/-- The text of an offset, without its sign, is read as the size of the offset. -/
theorem parseClock_offset (o : UtcOffset) :
    ∃ body, o.text = (if o.micros < 0 then '-' else '+') :: body ∧
      ∃ t, parseClock '\x00' body = some t ∧ t.more = false ∧
        t.hour * 3600000000 + t.minute * 60000000 + t.second * 1000000 + t.micros =
          o.micros.natAbs := by
  have hrange := o.range
  by_cases hshort : o.micros.natAbs % 60000000 = 0
  · refine ⟨padded 2 (o.micros.natAbs / 3600000000) ++
      ':' :: padded 2 (o.micros.natAbs / 60000000 % 60), ?_, _,
      parseClock_two (by decide) (by omega) (by omega), rfl, ?_⟩
    · simp only [UtcOffset.text, if_pos hshort]
    · simp only
      omega
  · refine ⟨clockText o.micros.natAbs, ?_, _, parseClock_clockText (by decide) (by omega), rfl, ?_⟩
    · simp only [UtcOffset.text, if_neg hshort]
    · simp only
      omega

theorem timeOf?_clock (t : TimeOfDay) :
    timeOf? (t / 3600000000) (t / 60000000 % 60) (t / 1000000 % 60) (t % 1000000) = some t := by
  have ht := t.isLt
  have hr : (t : Nat) / 3600000000 < 24 ∧ (t : Nat) / 60000000 % 60 < 60 ∧
      (t : Nat) / 1000000 % 60 < 60 ∧ (t : Nat) % 1000000 < 1000000 := by omega
  rw [timeOf?, dif_pos hr]
  congr 1
  apply Fin.ext
  show (t : Nat) / 3600000000 * 3600000000 + (t : Nat) / 60000000 % 60 * 60000000 +
    (t : Nat) / 1000000 % 60 * 1000000 + (t : Nat) % 1000000 = t
  omega

theorem parseZone_text (o : UtcOffset) : ∃ mark body, o.text = mark :: body ∧
    (mark = '-' ∨ mark = '+') ∧ parseZone mark body = some o.micros := by
  obtain ⟨body, htext, t, hclock, hmore, hsum⟩ := parseClock_offset o
  refine ⟨_, body, htext, ?_, ?_⟩
  · split
    · exact Or.inl rfl
    · exact Or.inr rfl
  have hZ : ¬ (if o.micros < 0 then '-' else '+') = 'Z' := by split <;> decide
  simp only [parseZone, if_neg hZ, hclock, Option.bind_some, hmore, Bool.false_eq_true, if_false,
    hsum, Option.some.injEq]
  split
  · rw [if_pos rfl]
    omega
  · rw [if_neg (by decide)]
    omega

theorem parseIsoTime_text (t : TimeOfDay) (o : Option UtcOffset) :
    parseIsoTime (clockText t ++ offsetText o) = some (t, o.map UtcOffset.micros) := by
  have hmark : ∀ c ∈ clockText t, (!isZoneMark c) = true := by
    intro c hc
    have hno : ∀ mark, mark.isDigit = false → mark ≠ ':' → mark ≠ '.' → c ≠ mark :=
      fun mark hdigit hcolon hdot heq => not_mem_clockText hdigit hcolon hdot t (heq ▸ hc)
    simp [isZoneMark, hno '+' (by decide) (by decide) (by decide),
      hno '-' (by decide) (by decide) (by decide), hno 'Z' (by decide) (by decide) (by decide)]
  cases o with
  | none =>
    rw [offsetText, List.append_nil, parseIsoTime, List.dropWhile_eq_nil_iff.2 hmark,
      List.takeWhile_eq_self_iff.2 hmark]
    simp only [@parseClock_clockText '\x00' (by decide) _ t.isLt, Option.bind_some,
      Clock.time?, timeOf?_clock]
    rfl
  | some o =>
    obtain ⟨mark, body, htext, hsign, hparse⟩ := parseZone_text o
    have hascii : mark.toNat < 128 := by rcases hsign with rfl | rfl <;> decide
    have hzone : isZoneMark mark = true := by rcases hsign with rfl | rfl <;> rfl
    have hdrop : (clockText t ++ mark :: body).dropWhile (fun c => !isZoneMark c) =
        mark :: body := by
      rw [List.dropWhile_append_of_pos hmark, List.dropWhile_cons_of_neg (by simp [hzone])]
    have htake : (clockText t ++ mark :: body).takeWhile (fun c => !isZoneMark c) =
        clockText t := by
      rw [List.takeWhile_append_of_pos hmark, List.takeWhile_cons_of_neg (by simp [hzone]),
        List.append_nil]
    rw [offsetText, htext, parseIsoTime, hdrop, htake]
    simp only [parseClock_clockText hascii t.isLt, Option.bind_some, Clock.time?, timeOf?_clock,
      hparse, Option.map_some]

/-- **The fields of a timestamp are read back from its text.** -/
theorem readIsoformat_isoformat (dt : DateTime) : readIsoformat dt.isoformat =
    some (dt.date, dt.time, dt.offset.map UtcOffset.micros) := by
  obtain ⟨date, time, offset⟩ := dt
  have hlen : date.isoformat.length = 10 := by simp [Date.isoformat]
  have hdash : date.isoformat[4]? = some '-' := by
    obtain ⟨y1, y2, y3, y4, hyear⟩ := List.length_eq_four.1 (padded_length 4 date.year)
    simp [Date.isoformat, hyear]
  have hweek : date.isoformat[5]? ≠ some 'W' := by
    obtain ⟨y1, y2, y3, y4, hyear⟩ := List.length_eq_four.1 (padded_length 4 date.year)
    obtain ⟨m1, m2, hmonth⟩ := List.length_eq_two.1 (padded_length 2 date.month)
    have hm1 : m1 ≠ 'W' := by
      rintro rfl
      exact absurd (padded_isDigit 2 date.month 'W' (by simp [hmonth])) (by decide)
    simpa [Date.isoformat, hyear, hmonth] using hm1
  generalize hclock : clockText time ++ offsetText offset = rest
  have htext : (DateTime.mk date time offset).isoformat = date.isoformat ++ 'T' :: rest := by
    rw [← hclock, DateTime.isoformat, List.append_assoc, List.cons_append]
  have htextlen : (date.isoformat ++ 'T' :: rest).length = rest.length + 11 := by
    rw [List.length_append, hlen, List.length_cons]
    omega
  have hsep : separatorIndex (date.isoformat ++ 'T' :: rest) = some 10 := by
    have hseven : (date.isoformat ++ 'T' :: rest).length ≠ 7 := by omega
    have hfour : (date.isoformat ++ 'T' :: rest)[4]? = some '-' := by
      rw [List.getElem?_append_left (by omega), hdash]
    have hfive : (date.isoformat ++ 'T' :: rest)[5]? ≠ some 'W' := by
      rw [List.getElem?_append_left (by omega)]
      exact hweek
    simp only [separatorIndex, if_neg hseven, if_pos hfour, if_neg hfive]
  have hshort : ¬ (date.isoformat ++ 'T' :: rest).length < 7 := by omega
  have htimed : ¬ (date.isoformat ++ 'T' :: rest).length ≤ 10 := by omega
  have htake : (date.isoformat ++ 'T' :: rest).take 10 = date.isoformat := by
    rw [List.take_append_of_le_length hlen.ge, List.take_of_length_le hlen.le]
  have hdrop : (date.isoformat ++ 'T' :: rest).drop 11 = rest := by
    rw [List.drop_append, List.drop_of_length_le (by omega), hlen]
    rfl
  have htime : parseIsoTime rest = some (time, offset.map UtcOffset.micros) := by
    rw [← hclock, parseIsoTime_text]
  rw [htext, readIsoformat, if_neg hshort, hsep, Option.bind_some, htake,
    Date.fromisoformat_isoformat, Option.bind_some, if_neg htimed, hdrop, htime]
  rfl

/-- **Two timestamps have two texts.** -/
theorem DateTime.isoformat_injective : Function.Injective DateTime.isoformat := by
  intro dt dt' h
  have hfields := readIsoformat_isoformat dt
  rw [h, readIsoformat_isoformat] at hfields
  obtain ⟨date, time, offset⟩ := dt
  obtain ⟨date', time', offset'⟩ := dt'
  simp only [Option.some.injEq, Prod.mk.injEq] at hfields
  obtain ⟨rfl, rfl, hmicros⟩ := hfields
  have hinj : Function.Injective UtcOffset.micros := by
    rintro ⟨micros, _⟩ ⟨_, _⟩ rfl
    rfl
  rw [Option.map_injective hinj hmicros]

/-- No offset, or one of no seconds or of at least one. -/
def DateTime.WholeOffset (dt : DateTime) : Prop :=
  ∀ o, dt.offset = some o → o.micros = 0 ∨ 1000000 ≤ o.micros.natAbs

theorem tzinfoOf_micros (o : UtcOffset) :
    tzinfoOf o.micros = some o ↔ o.micros = 0 ∨ 1000000 ≤ o.micros.natAbs := by
  unfold tzinfoOf
  split
  · rename_i hshort
    constructor
    · intro h
      cases h
      exact Or.inl rfl
    · rintro (hzero | hlong)
      · obtain ⟨micros, hrange⟩ := o
        obtain rfl : micros = 0 := hzero
        rfl
      · omega
  · rename_i hlong
    rw [UtcOffset.of?, dif_pos o.range]
    exact ⟨fun _ => Or.inr (Nat.le_of_not_lt hlong), fun _ => rfl⟩

/-- An offset that is a part of a second is read as UTC. -/
theorem DateTime.fromisoformat_short {date : Date} {time : TimeOfDay} {o : UtcOffset}
    (h : o.micros.natAbs < 1000000) :
    DateTime.fromisoformat (DateTime.isoformat ⟨date, time, some o⟩) =
      some ⟨date, time, some .utc⟩ := by
  rw [DateTime.fromisoformat, readIsoformat_isoformat]
  simp only [Option.map_some, Option.bind_some, tzinfoOf, if_pos h]

/-- **A timestamp is read back from its text,** unless its offset is a part of a second. -/
theorem DateTime.fromisoformat_isoformat (dt : DateTime) :
    DateTime.fromisoformat dt.isoformat = some dt ↔ dt.WholeOffset := by
  rw [DateTime.fromisoformat, readIsoformat_isoformat]
  obtain ⟨date, time, offset⟩ := dt
  cases offset with
  | none => exact ⟨fun _ _ h => (by cases h), fun _ => rfl⟩
  | some o =>
    have hmap : (tzinfoOf o.micros).map (DateTime.mk date time ∘ some) =
        some ⟨date, time, some o⟩ ↔ tzinfoOf o.micros = some o := by
      rw [Option.map_eq_some_iff]
      constructor
      · rintro ⟨o', ho', heq⟩
        cases heq
        exact ho'
      · exact fun h => ⟨o, h, rfl⟩
    refine hmap.trans ((tzinfoOf_micros o).trans ⟨fun h o' ho' => ?_, fun h => h o rfl⟩)
    cases ho'
    exact h

/-! ## Points in time -/

/-- The point in time; a naive `datetime` is read as UTC. -/
def DateTime.instant (dt : DateTime) : Time :=
  ((dt.date.toordinal : Int) - 719163) * 86400000000 + (dt.time : Nat) -
    (dt.offset.elim 0 UtcOffset.micros)

/-- The UTC `datetime` of a point in time; `none` outside the range of `datetime`. -/
def DateTime.ofTime (t : Time) : Option DateTime :=
  (Date.fromordinal (t / 86400000000 + 719163).toNat).map fun date =>
    ⟨date, ⟨(t % 86400000000).toNat, by omega⟩, some .utc⟩

theorem ofTime_wholeOffset {t : Time} {dt : DateTime} (h : DateTime.ofTime t = some dt) :
    dt.WholeOffset := by
  obtain ⟨date, -, rfl⟩ := Option.map_eq_some_iff.1 h
  intro o ho
  cases ho
  exact Or.inl rfl

/-- The points in time from `datetime.min` to `datetime.max`, in UTC. -/
def inDatetimeRange (t : Int) : Prop := -62135596800000000 ≤ t ∧ t < 253402300800000000

instance (t : Int) : Decidable (inDatetimeRange t) := inferInstanceAs (Decidable (_ ∧ _))

theorem isLeap_iff {y : Nat} : isLeap y = true ↔ 4 ∣ y ∧ (¬ 100 ∣ y ∨ 400 ∣ y) := by
  simp [isLeap, Nat.dvd_iff_mod_eq_zero]

theorem daysBeforeYear_succ {y : Nat} (h : 1 ≤ y) :
    daysBeforeYear (y + 1) = daysBeforeYear y + daysInYear y := by
  obtain ⟨k, rfl⟩ : ∃ k, y = k + 1 := ⟨y - 1, by omega⟩
  have hhundred : 100 ∣ k + 1 → 4 ∣ k + 1 := Nat.dvd_trans (by decide)
  have hfour : 400 ∣ k + 1 → 100 ∣ k + 1 := Nat.dvd_trans (by decide)
  have hle : k / 100 ≤ k / 4 := Nat.div_le_div_left (by decide) (by decide)
  simp only [daysBeforeYear, daysInYear, isLeap_iff, Nat.add_sub_cancel,
    Nat.succ_div (a := k)]
  by_cases h400 : 400 ∣ k + 1
  · have h100 := hfour h400
    simp only [h400, h100, hhundred h100, if_true, or_true, and_self]
    omega
  by_cases h100 : 100 ∣ k + 1
  · simp only [h400, h100, hhundred h100, if_true, if_false, not_true_eq_false, or_self, and_false]
    omega
  by_cases h4 : 4 ∣ k + 1
  · simp only [h400, h100, h4, if_true, if_false, not_false_eq_true, or_false, and_self]
    omega
  · simp only [h400, h100, h4, if_false, false_and]
    omega

theorem daysBeforeMonth_succ (y : Nat) {m : Nat} (h : 1 ≤ m) :
    daysBeforeMonth y (m + 1) = daysBeforeMonth y m + daysInMonth y m := by
  obtain ⟨k, rfl⟩ : ∃ k, m = k + 1 := ⟨m - 1, by omega⟩
  rfl

theorem daysBeforeMonth_end (y : Nat) : daysBeforeMonth y 13 = daysInYear y := by
  unfold daysInYear
  split <;> simp_all [daysBeforeMonth, daysInMonth]

/-- Months are split off one by one: the day stays the same day. -/
theorem splitMonth_spec (y : Nat) : ∀ fuel m day, 1 ≤ m → m + fuel = 12 → 1 ≤ day →
    daysBeforeMonth y m + day ≤ daysBeforeMonth y 13 →
    ∃ m' day', splitMonth y fuel m day = (m', day') ∧ (1 ≤ m' ∧ m' ≤ 12) ∧
      (1 ≤ day' ∧ day' ≤ daysInMonth y m') ∧
      daysBeforeMonth y m' + day' = daysBeforeMonth y m + day
  | 0, m, day, hm, hfuel, hday, hle => by
    obtain rfl : m = 12 := by omega
    have hlast : daysBeforeMonth y 13 = daysBeforeMonth y 12 + daysInMonth y 12 := rfl
    exact ⟨12, day, rfl, by decide, ⟨hday, by omega⟩, rfl⟩
  | fuel + 1, m, day, hm, hfuel, hday, hle => by
    rw [splitMonth]
    split
    · rename_i hin
      exact ⟨m, day, rfl, ⟨hm, by omega⟩, ⟨hday, hin⟩, rfl⟩
    · rename_i hout
      have hnext := daysBeforeMonth_succ y hm
      obtain ⟨m', day', heq, hm', hday', hsum⟩ :=
        splitMonth_spec y fuel (m + 1) (day - daysInMonth y m) (by omega) (by omega) (by omega)
          (by omega)
      exact ⟨m', day', heq, hm', hday', by omega⟩

/-- **A day number names one date.** -/
theorem toordinal_fromordinal {n : Nat} (hpos : 1 ≤ n) (hmax : n ≤ 3652059) :
    ∃ d, Date.fromordinal n = some d ∧ d.toordinal = n := by
  have hfirst : daysBeforeYear 1 < n := hpos
  have hyear : 1 ≤ Nat.findGreatest (fun y => daysBeforeYear y < n) 9999 :=
    Nat.le_findGreatest (by decide) hfirst
  have hlt : daysBeforeYear (Nat.findGreatest (fun y => daysBeforeYear y < n) 9999) < n :=
    Nat.findGreatest_spec (P := fun y => daysBeforeYear y < n) (by decide : 1 ≤ 9999) hfirst
  have hle := Nat.findGreatest_le (P := fun y => daysBeforeYear y < n) 9999
  have hnext : n ≤ daysBeforeYear
      (Nat.findGreatest (fun y => daysBeforeYear y < n) 9999 + 1) := by
    by_cases hlast : Nat.findGreatest (fun y => daysBeforeYear y < n) 9999 = 9999
    · rw [hlast]
      exact hmax
    · exact Nat.le_of_not_lt (Nat.findGreatest_is_greatest (P := fun y => daysBeforeYear y < n)
        (Nat.lt_succ_self _) (by omega))
  generalize hy : Nat.findGreatest (fun y => daysBeforeYear y < n) 9999 = y at *
  rw [daysBeforeYear_succ hyear] at hnext
  obtain ⟨m, day, hsplit, hm, hday, hsum⟩ :=
    splitMonth_spec y 11 1 (n - daysBeforeYear y) (by decide) (by decide) (by omega)
      (by rw [daysBeforeMonth_end]; show 0 + _ ≤ _; omega)
  refine ⟨⟨y, m, day, ⟨hyear, hle⟩, hm, hday⟩, ?_, ?_⟩
  · rw [Date.fromordinal]
    simp only [hy, hsplit]
    exact dif_pos ⟨⟨hyear, hle⟩, hm, hday⟩
  · have hzero : daysBeforeMonth y 1 = 0 := rfl
    simp only [Date.toordinal]
    omega

theorem daysBeforeYear_mono {y y' : Nat} (hy : 1 ≤ y) (h : y ≤ y') :
    daysBeforeYear y ≤ daysBeforeYear y' := by
  induction h with
  | refl => exact le_rfl
  | @step z hz ih =>
    have hsucc := daysBeforeYear_succ (hy.trans hz)
    have hpos : 0 < daysInYear z := by
      unfold daysInYear
      split <;> decide
    exact ih.trans (by simp only [Nat.succ_eq_add_one]; omega)

theorem daysBeforeMonth_mono (y : Nat) {m m' : Nat} (hm : 1 ≤ m) (h : m ≤ m') :
    daysBeforeMonth y m ≤ daysBeforeMonth y m' := by
  induction h with
  | refl => exact le_rfl
  | @step k hk ih =>
    have hsucc := daysBeforeMonth_succ y (hm.trans hk)
    exact ih.trans (by simp only [Nat.succ_eq_add_one]; omega)

/-- The days of a year end before the next year. -/
theorem Date.toordinal_bounds (d : Date) :
    daysBeforeYear d.year < d.toordinal ∧ d.toordinal ≤ daysBeforeYear (d.year + 1) := by
  have hday := d.day_range
  have hmonth := daysBeforeMonth_succ d.year d.month_range.1
  have hend := daysBeforeMonth_mono d.year (Nat.le_add_left 1 d.month)
    (Nat.add_le_add_right d.month_range.2 1)
  have hyear := daysBeforeYear_succ d.year_range.1
  rw [daysBeforeMonth_end] at hend
  unfold Date.toordinal
  omega

theorem Date.toordinal_le (d : Date) : d.toordinal ≤ 3652059 :=
  d.toordinal_bounds.2.trans
    (daysBeforeYear_mono (Nat.le_add_left 1 _) (Nat.add_le_add_right d.year_range.2 1))

/-- **A date has its day number to itself.** -/
theorem Date.toordinal_inj {d d' : Date} (h : d.toordinal = d'.toordinal) : d = d' := by
  have hyear : ∀ {e e' : Date}, e.toordinal = e'.toordinal → ¬ e.year < e'.year := by
    intro e e' he hlt
    have hend := e.toordinal_bounds.2
    have hstart := e'.toordinal_bounds.1
    have hmono := daysBeforeYear_mono (Nat.le_add_left 1 e.year) hlt
    omega
  have heq : d.year = d'.year := by
    have h1 := hyear h
    have h2 := hyear h.symm
    omega
  have hmonth : ∀ {e e' : Date}, e.year = e'.year → e.toordinal = e'.toordinal →
      ¬ e.month < e'.month := by
    intro e e' hy he hlt
    have hsucc := daysBeforeMonth_succ e.year e.month_range.1
    have hmono := daysBeforeMonth_mono e.year (Nat.le_add_left 1 e.month) hlt
    have hday := e.day_range.2
    have hday' := e'.day_range.1
    simp only [Date.toordinal, ← hy] at he
    omega
  have heq' : d.month = d'.month := by
    have h1 := hmonth heq h
    have h2 := hmonth heq.symm h.symm
    omega
  obtain ⟨y, m, day, _, _, _⟩ := d
  obtain ⟨y', m', day', _, _, _⟩ := d'
  obtain rfl : y = y' := heq
  obtain rfl : m = m' := heq'
  obtain rfl : day = day' := by
    simp only [Date.toordinal] at h
    omega
  rfl

theorem splitMonth_sum (y : Nat) : ∀ fuel m day, 1 ≤ m →
    daysBeforeMonth y (splitMonth y fuel m day).1 + (splitMonth y fuel m day).2 =
      daysBeforeMonth y m + day
  | 0, m, day, _ => rfl
  | fuel + 1, m, day, hm => by
    rw [splitMonth]
    split
    · rfl
    · rename_i hout
      have hnext := daysBeforeMonth_succ y hm
      rw [splitMonth_sum y fuel (m + 1) (day - daysInMonth y m) (by omega)]
      omega

theorem Date.of?_eq_some {y m day : Nat} {d : Date} (h : Date.of? y m day = some d) :
    d.year = y ∧ d.month = m ∧ d.day = day := by
  unfold Date.of? at h
  split at h
  · cases h
    exact ⟨rfl, rfl, rfl⟩
  · cases h

/-- **A date is found by its day number,** and by no other number. -/
theorem fromordinal_eq_some {n : Nat} {d : Date} :
    Date.fromordinal n = some d ↔ d.toordinal = n := by
  constructor
  · intro h
    rw [Date.fromordinal] at h
    generalize hy : Nat.findGreatest (fun y => daysBeforeYear y < n) 9999 = y at h
    have hsum := splitMonth_sum y 11 1 (n - daysBeforeYear y) le_rfl
    generalize splitMonth y 11 1 (n - daysBeforeYear y) = split at h hsum
    obtain ⟨hyear, hmonth, hday⟩ := Date.of?_eq_some h
    have hpos := d.year_range.1
    have hlt : daysBeforeYear y < n := by
      rw [← hy]
      exact Nat.findGreatest_of_ne_zero (P := fun y => daysBeforeYear y < n) rfl (by omega)
    have hzero : daysBeforeMonth y 1 = 0 := rfl
    rw [Date.toordinal, hyear, hmonth, hday]
    omega
  · rintro rfl
    have hpos : 1 ≤ d.toordinal := Nat.succ_le_of_lt (Nat.zero_lt_of_lt d.toordinal_bounds.1)
    obtain ⟨d', hd', heq⟩ := toordinal_fromordinal hpos d.toordinal_le
    rw [hd', Date.toordinal_inj heq]

/-- A point in time in range is the instant of its `datetime`. -/
theorem ofTime_instant {t : Time} (h : inDatetimeRange t) :
    ∃ dt, DateTime.ofTime t = some dt ∧ dt.instant = t := by
  unfold inDatetimeRange at h
  obtain ⟨d, hd, hord⟩ :=
    toordinal_fromordinal (n := (t / 86400000000 + 719163).toNat) (by omega) (by omega)
  refine ⟨⟨d, ⟨(t % 86400000000).toNat, by omega⟩, some .utc⟩, ?_, ?_⟩
  · rw [DateTime.ofTime, hd]
    rfl
  · show ((d.toordinal : Int) - 719163) * 86400000000 + ((t % 86400000000).toNat : Int) - 0 = t
    rw [hord]
    omega

end MeJournal
