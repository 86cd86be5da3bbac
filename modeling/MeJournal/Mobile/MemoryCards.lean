import MeJournal.Isoformat

/-!
# The day on a memory card

`toMemoryCard` of `lib/chat/tool-renderers.ts` and `adaptServerMemoryCard` of
`lib/memories/adapter.ts`, the cards' dates as JavaScript time values.  The first hands the
server's `event_date` to `new Date`, the second the same day with a clock time.

* `Device.parse` — `new Date(text)`: a date alone is midnight UTC, with a clock time it is local.
* `localDay_midnight_iff`, `localDay_local` — the local day of the two time values.
* `same_day_iff` — both cards show the event's day exactly on devices not west of UTC.
-/

namespace MeJournal

namespace MemoryCards

abbrev JsonObject := List (Text × Json.Value PyFloat)

/-- A JavaScript string, in UTF-16 code units. -/
abbrev JsString := List UInt16

def utf16 (t : Text) : JsString :=
  t.flatMap fun c =>
    if c.toNat < 0x10000 then [UInt16.ofNat c.toNat]
    else [UInt16.ofNat (0xD800 + (c.toNat - 0x10000) / 1024),
      UInt16.ofNat (0xDC00 + (c.toNat - 0x10000) % 1024)]

/-! ## Time values -/

def msPerDay : Int := 86400000

/-- A device: its offset from UTC in milliseconds, and what `Date.parse` does with the texts that
are not read below. -/
structure Device where
  offset : Int
  range : -msPerDay < offset ∧ offset < msPerDay
  other : Text → Option Int

/-- `YYYY-MM-DD`, and the text after it. -/
def isoDay : Text → Option (Date × Text)
  | y₁ :: y₂ :: y₃ :: y₄ :: '-' :: m₁ :: m₂ :: '-' :: d₁ :: d₂ :: rest =>
    match readInt [y₁, y₂, y₃, y₄], readInt [m₁, m₂], readInt [d₁, d₂] with
    | some year, some month, some day => (Date.of? year month day).map (·, rest)
    | _, _, _ => none
  | _ => none

/-- `THH:mm:ss`, in milliseconds. -/
def isoClock : Text → Option Int
  | ['T', h₁, h₂, ':', m₁, m₂, ':', s₁, s₂] =>
    match readInt [h₁, h₂], readInt [m₁, m₂], readInt [s₁, s₂] with
    | some hour, some minute, some second =>
      if hour < 24 ∧ minute < 60 ∧ second < 60 then
        some ((hour * 3600 + minute * 60 + second) * 1000 : Nat)
      else none
    | _, _, _ => none
  | _ => none

/-- Midnight UTC of a day. -/
def midnight (d : Date) : Int := ((d.toordinal : Int) - 719163) * msPerDay

/-- `new Date(text).getTime()`; `none` is NaN. -/
def Device.parse (dev : Device) (text : Text) : Option Int :=
  match isoDay text with
  | some (day, []) => some (midnight day)
  | some (day, rest) =>
    match isoClock rest with
    | some clock => some (midnight day + clock - dev.offset)
    | none => dev.other text
  | none => dev.other text

/-- The calendar day that `toLocaleDateString` shows. -/
def Device.localDay (dev : Device) (t : Int) : Option Date :=
  Date.fromordinal ((t + dev.offset) / msPerDay + 719163).toNat

/-! ## Cards -/

/-- `MemoryCard`; neither adapter sets `image` or `images`. -/
structure MemoryCard where
  id : Text
  date : Option Int
  title : JsString
  excerpt : Text
  tags : List String
  location : Option Text

/-- `ServerMemoryCard`. -/
structure ServerMemoryCard where
  id : Text
  eventDate : Text
  locationLabel : Option Text
  textPreview : Text

/-- `stringField`. -/
def stringField (obj : JsonObject) (key : String) : Option Text :=
  match Json.get obj key.toList with
  | some (.str v) => some v
  | _ => none

/-- `deriveTitle`. -/
def deriveTitle (text : Text) : JsString :=
  let head := utf16 (text.takeWhile fun c => !(['.', '?', '!'].contains c))
  if head.length > 30 then head.take 30 ++ utf16 "...".toList else head

/-- `toMemoryCard`. -/
def toMemoryCard (dev : Device) (memory : JsonObject) : Option MemoryCard :=
  let id := stringField memory "id"
  let text := (stringField memory "text").getD []
  let eventDate := stringField memory "event_date"
  match id, eventDate with
  | some id, some eventDate =>
    if id.isEmpty || eventDate.isEmpty then none
    else
      match dev.parse eventDate with
      | none => none
      | some date =>
        some
          { id := id
            date := some date
            title := deriveTitle text
            excerpt := text
            tags := ["journal"]
            location := stringField memory "location_label" }
  | _, _ => none

/-- `adaptServerMemoryCard`. -/
def adaptServerMemoryCard (dev : Device) (c : ServerMemoryCard) : MemoryCard where
  id := c.id
  date := dev.parse (c.eventDate ++ "T00:00:00".toList)
  title := []
  excerpt := c.textPreview
  location := c.locationLabel
  tags := []

/-- The day a card shows. -/
def Device.cardDay (dev : Device) (card : MemoryCard) : Option Date :=
  card.date.bind dev.localDay

/-! ## Reading the event's day -/

theorem isoDay_isoformat (d : Date) (rest : Text) :
    isoDay (d.isoformat ++ rest) = some (d, rest) := by
  have hy := @readInt_padded 4 (by decide) d.year (by have := d.year_range; omega)
  have hm := @readInt_padded 2 (by decide) d.month (by have := d.month_range; omega)
  have hd := @readInt_padded 2 (by decide) d.day (by have := d.day_lt; omega)
  obtain ⟨y₁, y₂, y₃, y₄, hyear⟩ := List.length_eq_four.1 (padded_length 4 d.year)
  obtain ⟨m₁, m₂, hmonth⟩ := List.length_eq_two.1 (padded_length 2 d.month)
  obtain ⟨d₁, d₂, hday⟩ := List.length_eq_two.1 (padded_length 2 d.day)
  rw [hyear] at hy
  rw [hmonth] at hm
  rw [hday] at hd
  simp [isoDay, Date.isoformat, hyear, hmonth, hday, hy, hm, hd, Date.of?_self]

theorem isoformat_ne_nil (d : Date) : d.isoformat ≠ [] := by
  obtain ⟨y₁, y₂, y₃, y₄, hyear⟩ := List.length_eq_four.1 (padded_length 4 d.year)
  simp [Date.isoformat, hyear]

/-- A date alone is midnight UTC. -/
theorem parse_date (dev : Device) (d : Date) : dev.parse d.isoformat = some (midnight d) := by
  have hday := isoDay_isoformat d []
  rw [List.append_nil] at hday
  rw [Device.parse, hday]

/-- With a clock time it is local. -/
theorem parse_clock (dev : Device) {text rest : Text} {day : Date} {clock : Int}
    (hday : isoDay text = some (day, rest)) (hclock : isoClock rest = some clock) :
    dev.parse text = some (midnight day + clock - dev.offset) := by
  cases rest with
  | nil => cases hclock
  | cons c rest => simp only [Device.parse, hday, hclock]

theorem parse_midnight (dev : Device) (d : Date) :
    dev.parse (d.isoformat ++ "T00:00:00".toList) = some (midnight d - dev.offset) := by
  have hclock : isoClock "T00:00:00".toList = some 0 := by decide
  rw [parse_clock dev (isoDay_isoformat d _) hclock, Int.add_zero]

/-! ## The day shown -/

theorem localDay_eq_iff (dev : Device) (d : Date) (t : Int) :
    dev.localDay t = some d ↔ (t + dev.offset) / msPerDay = (d.toordinal : Int) - 719163 := by
  have hpos := d.toordinal_bounds.1
  rw [Device.localDay, fromordinal_eq_some]
  omega

/-- Midnight UTC is on that day east of UTC and there only. -/
theorem localDay_midnight_iff (dev : Device) (d : Date) :
    dev.localDay (midnight d) = some d ↔ 0 ≤ dev.offset := by
  have hrange := dev.range
  rw [localDay_eq_iff]
  simp only [midnight, msPerDay] at *
  omega

theorem localDay_local (dev : Device) (d : Date) :
    dev.localDay (midnight d - dev.offset) = some d := by
  rw [localDay_eq_iff]
  simp only [midnight, msPerDay]
  omega

/-! ## Both cards -/

/-- The chat card of a memory with an id. -/
theorem toMemoryCard_date (dev : Device) (d : Date) {memory : JsonObject} {id : Text}
    (hid : stringField memory "id" = some id) (hne : id ≠ [])
    (hdate : stringField memory "event_date" = some d.isoformat) :
    ∃ card, toMemoryCard dev memory = some card ∧ card.date = some (midnight d) := by
  have hempty : (id.isEmpty || d.isoformat.isEmpty) = false := by
    simp [hne, isoformat_ne_nil]
  simp only [toMemoryCard, hid, hdate, hempty, parse_date, Bool.false_eq_true, if_false]
  exact ⟨_, rfl, rfl⟩

theorem cardDay_adapt (dev : Device) (d : Date) {c : ServerMemoryCard}
    (hc : c.eventDate = d.isoformat) :
    dev.cardDay (adaptServerMemoryCard dev c) = some d := by
  rw [Device.cardDay, adaptServerMemoryCard, hc, parse_midnight]
  exact localDay_local dev d

/-- Both cards are built and show the day. -/
def SameDay (dev : Device) (memory : JsonObject) (c : ServerMemoryCard) (d : Date) : Prop :=
  ∃ card, toMemoryCard dev memory = some card ∧ dev.cardDay card = some d ∧
    dev.cardDay (adaptServerMemoryCard dev c) = some d

theorem sameDay_iff_localDay (dev : Device) (d : Date) {memory : JsonObject} {id : Text}
    (hid : stringField memory "id" = some id) (hne : id ≠ [])
    (hdate : stringField memory "event_date" = some d.isoformat) {c : ServerMemoryCard}
    (hc : c.eventDate = d.isoformat) :
    SameDay dev memory c d ↔ dev.localDay (midnight d) = some d := by
  obtain ⟨card, hcard, hmidnight⟩ := toMemoryCard_date dev d hid hne hdate
  have hday : dev.cardDay card = dev.localDay (midnight d) := by
    rw [Device.cardDay, hmidnight]
    rfl
  constructor
  · rintro ⟨card', hcard', hday', -⟩
    obtain rfl : card = card' := Option.some_inj.1 (hcard.symm.trans hcard')
    rw [← hday, hday']
  · intro h
    exact ⟨card, hcard, hday.trans h, cardDay_adapt dev d hc⟩

/-- **Both cards show the event's day exactly where the offset is not negative.** -/
theorem same_day_iff (dev : Device) (d : Date) {memory : JsonObject} {id : Text}
    (hid : stringField memory "id" = some id) (hne : id ≠ [])
    (hdate : stringField memory "event_date" = some d.isoformat) {c : ServerMemoryCard}
    (hc : c.eventDate = d.isoformat) :
    SameDay dev memory c d ↔ 0 ≤ dev.offset :=
  (sameDay_iff_localDay dev d hid hne hdate hc).trans (localDay_midnight_iff dev d)

/-- A memory as the two endpoints send it. -/
def dinner : JsonObject :=
  [("id".toList, .str "m1".toList), ("text".toList, .str "Dinner. Late.".toList),
    ("event_date".toList, .str sampleDate.isoformat)]

def dinnerCard : ServerMemoryCard := ⟨"m1".toList, sampleDate.isoformat, none, "Dinner".toList⟩

/-- A device `hours` hours east of UTC. -/
def deviceAt (hours : Int) (h : -24 < hours ∧ hours < 24) : Device where
  offset := hours * 3600000
  range := by simp only [msPerDay]; omega
  other := fun _ => none

theorem dinner_id : stringField dinner "id" = some "m1".toList := by decide

theorem dinner_date : stringField dinner "event_date" = some sampleDate.isoformat := by decide

theorem same_day_iff_dinner :
    SameDay (deviceAt 1 (by decide)) dinner dinnerCard sampleDate ↔
      0 ≤ (deviceAt 1 (by decide)).offset :=
  same_day_iff (deviceAt 1 (by decide)) sampleDate dinner_id (by decide) dinner_date rfl

/-- Five hours west of UTC. -/
theorem dinner_west : ¬ SameDay (deviceAt (-5) (by decide)) dinner dinnerCard sampleDate := by
  rw [sameDay_iff_localDay _ sampleDate dinner_id (by decide) dinner_date rfl,
    localDay_midnight_iff]
  decide

end MemoryCards

end MeJournal
