import Mathlib.Data.Nat.Digits.Lemmas

/-!
# JSON text

* `loads` — `json.loads` on text: values over any type `F` of floats, read by `toFloat`; objects
  keep their members in order, and `Value.get` reads the last one with a key.
* `decodeUtf8` — the bytes `json.loads` is given, as text.  UTF-16 and UTF-32 input, which it
  detects as well, is left out.
* `dumps` — `json.dumps` of a dict of numbers and strings, with `separators=(",", ":")`.
* `loadsText_dumps`, `loads_dumps` — such a dict is read back as it was written, for all strings.
-/

namespace Json

/-! ## Values -/

inductive Value (F : Type) where
  | null
  | bool (b : Bool)
  | int (n : Int)
  | float (x : F)
  | str (s : List Char)
  | arr (items : List (Value F))
  | obj (members : List (List Char × Value F))

variable {F : Type}

/-- `dict.get(key)`: of the members with one key the last counts. -/
def get (members : List (List Char × Value F)) (key : List Char) : Option (Value F) :=
  (members.reverse.find? fun m => m.1 = key).map Prod.snd

/-! ## Bytes -/

def continuation (b : UInt8) : Bool := 0x80 ≤ b.toNat && b.toNat < 0xC0

/-- A surrogate has no character of its own here. -/
def charOf (n : Nat) : Char := if n.isValidChar then Char.ofNat n else '\uFFFD'

/-- `bytes.decode("utf-8", "surrogatepass")`. -/
def decodeUtf8 : List UInt8 → Option (List Char)
  | [] => some []
  | a :: rest =>
    if a.toNat < 0x80 then (decodeUtf8 rest).map (charOf a.toNat :: ·)
    else match rest with
      | b :: rest =>
        if 0xC2 ≤ a.toNat && a.toNat < 0xE0 && continuation b then
          (decodeUtf8 rest).map (charOf (a.toNat % 32 * 64 + b.toNat % 64) :: ·)
        else match rest with
          | c :: rest =>
            if 0xE0 ≤ a.toNat && a.toNat < 0xF0 && continuation b && continuation c &&
                0x800 ≤ a.toNat % 16 * 4096 + b.toNat % 64 * 64 then
              (decodeUtf8 rest).map
                (charOf (a.toNat % 16 * 4096 + b.toNat % 64 * 64 + c.toNat % 64) :: ·)
            else match rest with
              | d :: rest =>
                let n := a.toNat % 8 * 262144 + b.toNat % 64 * 4096 + c.toNat % 64 * 64 +
                  d.toNat % 64
                if 0xF0 ≤ a.toNat && a.toNat < 0xF5 && continuation b && continuation c &&
                    continuation d && 0x10000 ≤ n && n < 0x110000 then
                  (decodeUtf8 rest).map (charOf n :: ·)
                else none
              | [] => none
          | [] => none
      | [] => none

/-- `str.encode("utf-8")` of ASCII text. -/
def asciiBytes (cs : List Char) : List UInt8 := cs.map fun c => UInt8.ofNat c.toNat

/-! ## Reading -/

def skipSpace (cs : List Char) : List Char :=
  cs.dropWhile fun c => c = ' ' || c = '\t' || c = '\n' || c = '\r'

def hexValue (c : Char) : Option Nat :=
  if '0' ≤ c ∧ c ≤ '9' then some (c.toNat - 48)
  else if 'a' ≤ c ∧ c ≤ 'f' then some (c.toNat - 87)
  else if 'A' ≤ c ∧ c ≤ 'F' then some (c.toNat - 55)
  else none

def hex4 (a b c d : Char) : Option Nat :=
  match hexValue a, hexValue b, hexValue c, hexValue d with
  | some a, some b, some c, some d => some (a * 4096 + b * 256 + c * 16 + d)
  | _, _, _, _ => none

/-- The one-character escapes. -/
def escaped : Char → Option Nat
  | '"' => some 0x22
  | '\\' => some 0x5C
  | '/' => some 0x2F
  | 'b' => some 0x08
  | 'f' => some 0x0C
  | 'n' => some 0x0A
  | 'r' => some 0x0D
  | 't' => some 0x09
  | _ => none

/-- A string after its opening quote: its code points, escapes still as UTF-16 units, and the
text after the closing quote. -/
def scanString : List Char → Option (List Nat × List Char)
  | [] => none
  | '"' :: rest => some ([], rest)
  | '\\' :: 'u' :: a :: b :: c :: d :: rest =>
    match hex4 a b c d, scanString rest with
    | some n, some (ns, rest) => some (n :: ns, rest)
    | _, _ => none
  | '\\' :: c :: rest =>
    match escaped c, scanString rest with
    | some n, some (ns, rest) => some (n :: ns, rest)
    | _, _ => none
  | c :: rest =>
    -- strict mode refuses control characters
    if c.toNat < 0x20 then none
    else match scanString rest with
      | some (ns, rest) => some (c.toNat :: ns, rest)
      | none => none

def isHigh (n : Nat) : Bool := 0xD800 ≤ n && n < 0xDC00

def isLow (n : Nat) : Bool := 0xDC00 ≤ n && n < 0xE000

/-- Surrogate pairs joined. -/
def joinUnits : List Nat → List Char
  | [] => []
  | [n] => [charOf n]
  | hi :: lo :: ns =>
    if isHigh hi && isLow lo then
      charOf (0x10000 + (hi - 0xD800) * 0x400 + (lo - 0xDC00)) :: joinUnits ns
    else charOf hi :: joinUnits (lo :: ns)

def parseString (cs : List Char) : Option (List Char × List Char) :=
  (scanString cs).map fun p => (joinUnits p.1, p.2)

def digitsValue (ds : List Char) : Nat := ds.foldl (fun n c => n * 10 + (c.toNat - 48)) 0

/-- `(\.\d+)?` -/
def scanFraction : List Char → List Char × List Char
  | '.' :: rest =>
    match rest.span Char.isDigit with
    | ([], _) => ([], '.' :: rest)
    | (ds, rest) => ('.' :: ds, rest)
  | cs => ([], cs)

/-- `([eE][-+]?\d+)?` -/
def scanExponent : List Char → List Char × List Char
  | e :: rest =>
    if e = 'e' || e = 'E' then
      let (sign, digits) := match rest with
        | '+' :: digits => (['+'], digits)
        | '-' :: digits => (['-'], digits)
        | digits => ([], digits)
      match digits.span Char.isDigit with
      | ([], _) => ([], e :: rest)
      | (ds, rest) => (e :: sign ++ ds, rest)
    else ([], e :: rest)
  | [] => ([], [])

/-- `0|[1-9]\d*` -/
def scanInteger : List Char → Option (List Char × List Char)
  | '0' :: rest => some (['0'], rest)
  | cs =>
    match cs.span Char.isDigit with
    | ([], _) => none
    | (ds, rest) => some (ds, rest)

/-- A number, an `int` unless it has a fraction or an exponent. -/
def parseNumber (toFloat : List Char → F) (cs : List Char) : Option (Value F × List Char) :=
  let (sign, body) := match cs with
    | '-' :: body => (['-'], body)
    | body => ([], body)
  match scanInteger body with
  | none => none
  | some (ds, rest) =>
    let (frac, rest) := scanFraction rest
    let (expo, rest) := scanExponent rest
    if frac.isEmpty && expo.isEmpty then
      some (.int (if sign.isEmpty then digitsValue ds else -(digitsValue ds : Int)), rest)
    else some (.float (toFloat (sign ++ ds ++ frac ++ expo)), rest)

/-- The literal at the head of the text. -/
def literal (cs lit : List Char) : Option (List Char) :=
  if lit.isPrefixOf cs then some (cs.drop lit.length) else none

/-- A literal or a number. -/
def parseAtom (toFloat : List Char → F) (cs : List Char) : Option (Value F × List Char) :=
  match literal cs "null".toList, literal cs "true".toList, literal cs "false".toList,
    literal cs "NaN".toList, literal cs "Infinity".toList, literal cs "-Infinity".toList with
  | some rest, _, _, _, _, _ => some (.null, rest)
  | _, some rest, _, _, _, _ => some (.bool true, rest)
  | _, _, some rest, _, _, _ => some (.bool false, rest)
  | _, _, _, some rest, _, _ => some (.float (toFloat "NaN".toList), rest)
  | _, _, _, _, some rest, _ => some (.float (toFloat "Infinity".toList), rest)
  | _, _, _, _, _, some rest => some (.float (toFloat "-Infinity".toList), rest)
  | _, _, _, _, _, _ => parseNumber toFloat cs

mutual

/-- The value at the head of the text.  A level of nesting costs two calls and has two brackets,
so that the length of the text is fuel enough. -/
def parseValue (toFloat : List Char → F) : Nat → List Char → Option (Value F × List Char)
  | 0, _ => none
  | _ + 1, '"' :: rest => (parseString rest).map fun p => (.str p.1, p.2)
  | fuel + 1, '{' :: rest =>
    match skipSpace rest with
    | '}' :: rest => some (.obj [], rest)
    | rest => (parseMembers toFloat fuel rest).map fun p => (.obj p.1, p.2)
  | fuel + 1, '[' :: rest =>
    match skipSpace rest with
    | ']' :: rest => some (.arr [], rest)
    | rest => (parseItems toFloat fuel rest).map fun p => (.arr p.1, p.2)
  | _ + 1, cs => parseAtom toFloat cs

def parseMembers (toFloat : List Char → F) :
    Nat → List Char → Option (List (List Char × Value F) × List Char)
  | 0, _ => none
  | fuel + 1, '"' :: rest =>
    match parseString rest with
    | none => none
    | some (key, rest) =>
      match skipSpace rest with
      | ':' :: rest =>
        match parseValue toFloat fuel (skipSpace rest) with
        | none => none
        | some (v, rest) =>
          match skipSpace rest with
          | '}' :: rest => some ([(key, v)], rest)
          | ',' :: rest =>
            (parseMembers toFloat fuel (skipSpace rest)).map fun p => ((key, v) :: p.1, p.2)
          | _ => none
      | _ => none
  | _ + 1, _ => none

def parseItems (toFloat : List Char → F) :
    Nat → List Char → Option (List (Value F) × List Char)
  | 0, _ => none
  | fuel + 1, cs =>
    match parseValue toFloat fuel cs with
    | none => none
    | some (v, rest) =>
      match skipSpace rest with
      | ']' :: rest => some ([v], rest)
      | ',' :: rest => (parseItems toFloat fuel (skipSpace rest)).map fun p => (v :: p.1, p.2)
      | _ => none

end

/-- `json.loads` of text; `none` where it raises `JSONDecodeError`. -/
def loadsText (toFloat : List Char → F) (cs : List Char) : Option (Value F) :=
  match parseValue toFloat (cs.length + 1) (skipSpace cs) with
  | none => none
  | some (v, rest) => if (skipSpace rest).isEmpty then some v else none

/-- `json.loads` of bytes, a byte-order mark skipped. -/
def loads (toFloat : List Char → F) (bytes : List UInt8) : Option (Value F) :=
  let body := if [0xEF, 0xBB, 0xBF].isPrefixOf bytes then bytes.drop 3 else bytes
  match decodeUtf8 body with
  | none => none
  | some cs => loadsText toFloat cs

/-! ## Writing -/

/-- A value of the dicts that are written. -/
inductive Scalar where
  | num (n : Nat)
  | str (s : List Char)

def Scalar.value : Scalar → Value F
  | .num n => .int n
  | .str s => .str s

def decimal (n : Nat) : List Char :=
  if n = 0 then ['0'] else (Nat.digits 10 n).reverse.map Nat.digitChar

def unitEscape (n : Nat) : List Char :=
  ['\\', 'u', Nat.digitChar (n / 4096 % 16), Nat.digitChar (n / 256 % 16),
    Nat.digitChar (n / 16 % 16), Nat.digitChar (n % 16)]

/-- The UTF-16 units of a character. -/
def units (c : Char) : List Nat :=
  if c.toNat < 0x10000 then [c.toNat]
  else [0xD800 + (c.toNat - 0x10000) / 0x400, 0xDC00 + (c.toNat - 0x10000) % 0x400]

/-- One character of a string, with `ensure_ascii`. -/
def escapeChar : Char → List Char
  | '"' => ['\\', '"']
  | '\\' => ['\\', '\\']
  | '\n' => ['\\', 'n']
  | '\r' => ['\\', 'r']
  | '\t' => ['\\', 't']
  | '\x0C' => ['\\', 'f']
  | '\x08' => ['\\', 'b']
  | c =>
    if 0x20 ≤ c.toNat && c.toNat ≤ 0x7E then [c] else (units c).flatMap unitEscape

def dumpString (s : List Char) : List Char := '"' :: s.flatMap escapeChar ++ ['"']

def dumpScalar : Scalar → List Char
  | .num n => decimal n
  | .str s => dumpString s

def dumpMember (m : List Char × Scalar) : List Char := dumpString m.1 ++ ':' :: dumpScalar m.2

def dumpMembers : List (List Char × Scalar) → List Char
  | [] => []
  | [m] => dumpMember m
  | m :: ms => dumpMember m ++ ',' :: dumpMembers ms

def dumps (members : List (List Char × Scalar)) : List Char := '{' :: dumpMembers members ++ ['}']

/-! ## Strings are read back -/

theorem charOf_toNat (c : Char) : charOf c.toNat = c := by
  have hvalid : c.toNat.isValidChar := c.valid
  rw [charOf, if_pos hvalid, Char.ofNat_toNat]

theorem hexValue_digitChar {d : Nat} (h : d < 16) : hexValue (Nat.digitChar d) = some d := by
  have hall : ∀ d < 16, hexValue (Nat.digitChar d) = some d := by decide
  exact hall d h

theorem scanString_unitEscape {n : Nat} (h : n < 65536) (rest : List Char) :
    scanString (unitEscape n ++ rest) =
      (scanString rest).map fun p => (n :: p.1, p.2) := by
  have hhex : hex4 (Nat.digitChar (n / 4096 % 16)) (Nat.digitChar (n / 256 % 16))
      (Nat.digitChar (n / 16 % 16)) (Nat.digitChar (n % 16)) = some n := by
    simp only [hex4, hexValue_digitChar (Nat.mod_lt _ (by decide : 16 > 0))]
    congr 1
    omega
  simp only [unitEscape, List.cons_append, List.nil_append, scanString, hhex]
  cases scanString rest <;> rfl

theorem units_lt (c : Char) : ∀ n ∈ units c, n < 65536 := by
  have hvalid : c.toNat.isValidChar := c.valid
  simp only [Nat.isValidChar] at hvalid
  unfold units
  split
  · rename_i h
    simpa using h
  · simp only [List.forall_mem_cons]
    exact ⟨by omega, by omega, by simp⟩

theorem scanString_units {ns : List Nat} (h : ∀ n ∈ ns, n < 65536) (rest : List Char) :
    scanString (ns.flatMap unitEscape ++ rest) =
      (scanString rest).map fun p => (ns ++ p.1, p.2) := by
  induction ns with
  | nil => simp
  | cons n ns ih =>
    rw [List.forall_mem_cons] at h
    rw [List.flatMap_cons, List.append_assoc, scanString_unitEscape h.1, ih h.2, Option.map_map]
    rfl

/-- A character with an escape of its own is read as its code point. -/
theorem scanString_escaped {c : Char} {n : Nat} (hc : c ≠ 'u') (h : escaped c = some n)
    (rest : List Char) :
    scanString ('\\' :: c :: rest) = (scanString rest).map fun p => (n :: p.1, p.2) := by
  rw [scanString, h]
  · cases scanString rest <;> rfl
  · simp [hc]

theorem scanString_plain {c : Char} (hquote : c ≠ '"') (hslash : c ≠ '\\') (h : 0x20 ≤ c.toNat)
    (rest : List Char) :
    scanString (c :: rest) = (scanString rest).map fun p => (c.toNat :: p.1, p.2) := by
  rw [scanString, if_neg (by omega)]
  · cases scanString rest <;> rfl
  · simpa using hquote
  · simp [hslash]
  · simp [hslash]

theorem scanString_escapeChar (c : Char) (rest : List Char) :
    scanString (escapeChar c ++ rest) =
      (scanString rest).map fun p => (units c ++ p.1, p.2) := by
  unfold escapeChar
  split
  · exact scanString_escaped (by decide) rfl rest
  · exact scanString_escaped (by decide) rfl rest
  · exact scanString_escaped (by decide) rfl rest
  · exact scanString_escaped (by decide) rfl rest
  · exact scanString_escaped (by decide) rfl rest
  · exact scanString_escaped (by decide) rfl rest
  · exact scanString_escaped (by decide) rfl rest
  · rename_i hquote hslash _ _ _ _ _
    split
    · rename_i h
      simp only [Bool.and_eq_true, decide_eq_true_eq] at h
      have hunits : units c = [c.toNat] := if_pos (by omega)
      rw [hunits]
      exact scanString_plain hquote hslash h.1 rest
    · exact scanString_units (units_lt c) rest

theorem joinUnits_units (c : Char) (ns : List Nat) :
    joinUnits (units c ++ ns) = c :: joinUnits ns := by
  have hvalid : c.toNat.isValidChar := c.valid
  simp only [Nat.isValidChar] at hvalid
  unfold units
  split
  · have hhigh : isHigh c.toNat = false := by
      simp only [isHigh, Bool.and_eq_false_iff, decide_eq_false_iff_not]
      omega
    cases ns with
    | nil => simp [joinUnits, charOf_toNat]
    | cons n ns => simp [joinUnits, hhigh, charOf_toNat]
  · have hhigh : isHigh (0xD800 + (c.toNat - 0x10000) / 0x400) = true := by
      simp only [isHigh, Bool.and_eq_true, decide_eq_true_eq]
      omega
    have hlow : isLow (0xDC00 + (c.toNat - 0x10000) % 0x400) = true := by
      simp only [isLow, Bool.and_eq_true, decide_eq_true_eq]
      omega
    have hjoin : 0x10000 + (0xD800 + (c.toNat - 0x10000) / 0x400 - 0xD800) * 0x400 +
        (0xDC00 + (c.toNat - 0x10000) % 0x400 - 0xDC00) = c.toNat := by omega
    simp only [List.cons_append, List.nil_append, joinUnits, hhigh, hlow, Bool.and_true, if_true,
      hjoin, charOf_toNat]

theorem scanString_flatMap (s rest : List Char) :
    scanString (s.flatMap escapeChar ++ '"' :: rest) = some (s.flatMap units, rest) := by
  induction s with
  | nil => simp [scanString]
  | cons c s ih =>
    rw [List.flatMap_cons, List.append_assoc, scanString_escapeChar, ih]
    rfl

theorem joinUnits_flatMap (s : List Char) : joinUnits (s.flatMap units) = s := by
  induction s with
  | nil => rfl
  | cons c s ih => rw [List.flatMap_cons, joinUnits_units, ih]

theorem parseString_dumped (s rest : List Char) :
    parseString (s.flatMap escapeChar ++ '"' :: rest) = some (s, rest) := by
  rw [parseString, scanString_flatMap, Option.map_some, joinUnits_flatMap]

/-! ## Numbers are read back -/

/-- What stands after a member: a comma or the closing brace. -/
def Ends (rest : List Char) : Prop := ∃ tail, rest = ',' :: tail ∨ rest = '}' :: tail

theorem digitChar_isDigit {d : Nat} (h : d < 10) : (Nat.digitChar d).isDigit = true := by
  have hall : ∀ d < 10, (Nat.digitChar d).isDigit = true := by decide
  exact hall d h

theorem digitChar_value {d : Nat} (h : d < 10) : (Nat.digitChar d).toNat - 48 = d := by
  have hall : ∀ d < 10, (Nat.digitChar d).toNat - 48 = d := by decide
  exact hall d h

theorem digitChar_ne_zero {d : Nat} (h : d < 10) (hd : d ≠ 0) : Nat.digitChar d ≠ '0' := by
  have hall : ∀ d < 10, d ≠ 0 → Nat.digitChar d ≠ '0' := by decide
  exact hall d h hd

theorem digitsValue_append_singleton (cs : List Char) (c : Char) :
    digitsValue (cs ++ [c]) = digitsValue cs * 10 + (c.toNat - 48) := by
  simp [digitsValue]

theorem digitsValue_digits {ds : List Nat} (h : ∀ d ∈ ds, d < 10) :
    digitsValue (ds.reverse.map Nat.digitChar) = Nat.ofDigits 10 ds := by
  induction ds with
  | nil => rfl
  | cons d ds ih =>
    rw [List.forall_mem_cons] at h
    rw [List.reverse_cons, List.map_append, List.map_singleton, digitsValue_append_singleton,
      ih h.2, digitChar_value h.1, Nat.ofDigits_cons]
    omega

/-- The digits of a number: the single `0`, or digits of which the first is not `0`. -/
theorem decimal_shape (n : Nat) : decimal n = ['0'] ∧ n = 0 ∨
    ∃ d ds, decimal n = d :: ds ∧ d ≠ '0' ∧ (∀ c ∈ d :: ds, c.isDigit = true) ∧
      digitsValue (d :: ds) = n := by
  unfold decimal
  split
  · rename_i h
    exact Or.inl ⟨rfl, h⟩
  rename_i hn
  right
  have hlt : ∀ d ∈ Nat.digits 10 n, d < 10 := fun d hd => Nat.digits_lt_base (by decide) hd
  have hvalue := digitsValue_digits hlt
  rw [Nat.ofDigits_digits] at hvalue
  have hdigit : ∀ c ∈ (Nat.digits 10 n).reverse.map Nat.digitChar, c.isDigit = true := by
    intro c hc
    obtain ⟨d, hd, rfl⟩ := List.mem_map.1 hc
    exact digitChar_isDigit (hlt d (List.mem_reverse.1 hd))
  have hne : Nat.digits 10 n ≠ [] := Nat.digits_ne_nil_iff_ne_zero.2 hn
  obtain ⟨d, ds, hds⟩ := List.exists_cons_of_ne_nil (List.reverse_ne_nil_iff.2 hne)
  have hfirst : d ≠ 0 := by
    have hlast := Nat.getLast_digit_ne_zero 10 hn
    rw [← List.head_reverse (List.reverse_ne_nil_iff.2 hne)] at hlast
    simp only [hds, List.head_cons] at hlast
    exact hlast
  have hd10 : d < 10 := hlt d (List.mem_reverse.1 (hds ▸ List.mem_cons_self))
  rw [hds, List.map_cons] at hvalue hdigit ⊢
  exact ⟨_, _, rfl, digitChar_ne_zero hd10 hfirst, hdigit, hvalue⟩

theorem span_digits {ds rest : List Char} (h : ∀ c ∈ ds, c.isDigit = true) (hrest : Ends rest) :
    (ds ++ rest).span Char.isDigit = (ds, rest) := by
  obtain ⟨tail, rfl | rfl⟩ := hrest
  · rw [List.span_eq_takeWhile_dropWhile, List.takeWhile_append_of_pos h,
      List.dropWhile_append_of_pos h]
    simp
  · rw [List.span_eq_takeWhile_dropWhile, List.takeWhile_append_of_pos h,
      List.dropWhile_append_of_pos h]
    simp

theorem scanInteger_decimal (n : Nat) {rest : List Char} (hrest : Ends rest) :
    ∃ ds, scanInteger (decimal n ++ rest) = some (ds, rest) ∧ digitsValue ds = n := by
  rcases decimal_shape n with ⟨hds, rfl⟩ | ⟨d, ds, hds, hd, hdigit, hvalue⟩
  · rw [hds]
    exact ⟨['0'], rfl, rfl⟩
  · refine ⟨d :: ds, ?_, hvalue⟩
    have hspan := span_digits hdigit hrest
    rw [hds]
    rw [scanInteger.eq_def]
    split
    · simp_all
    · rw [hspan]

theorem decimal_head (n : Nat) (rest : List Char) :
    ∃ d tail, decimal n ++ rest = d :: tail ∧ d.isDigit = true := by
  rcases decimal_shape n with ⟨hds, _⟩ | ⟨d, ds, hds, _, hdigit, _⟩
  · exact ⟨'0', rest, by rw [hds]; rfl, by decide⟩
  · exact ⟨d, ds ++ rest, by rw [hds]; rfl, hdigit d List.mem_cons_self⟩

theorem parseNumber_decimal (toFloat : List Char → F) (n : Nat) {rest : List Char}
    (hrest : Ends rest) : parseNumber toFloat (decimal n ++ rest) = some (.int n, rest) := by
  obtain ⟨ds, hscan, rfl⟩ := scanInteger_decimal n hrest
  obtain ⟨d, tail, htext, hd⟩ := decimal_head (digitsValue ds) rest
  have hminus : d ≠ '-' := by
    rintro rfl
    cases hd
  have hfrac : scanFraction rest = ([], rest) := by obtain ⟨_, rfl | rfl⟩ := hrest <;> rfl
  have hexpo : scanExponent rest = ([], rest) := by obtain ⟨_, rfl | rfl⟩ := hrest <;> rfl
  rw [htext] at hscan ⊢
  unfold parseNumber
  split
  rename_i sign body hsign
  split at hsign
  · rename_i hcons
    cases hcons
    exact absurd rfl hminus
  · cases hsign
    simp [hscan, hfrac, hexpo]

/-! ## Members are read back -/

theorem literal_of_ne {c d : Char} (h : c ≠ d) (cs lit : List Char) :
    literal (d :: cs) (c :: lit) = none := by
  simp [literal, h]

theorem parseAtom_decimal (toFloat : List Char → F) (n : Nat) {rest : List Char}
    (hrest : Ends rest) : parseAtom toFloat (decimal n ++ rest) = some (.int n, rest) := by
  have hnumber := parseNumber_decimal toFloat n hrest
  obtain ⟨d, tail, htext, hd⟩ := decimal_head n rest
  have hne : ∀ c, c.isDigit = false → c ≠ d := by
    rintro c hc rfl
    rw [hd] at hc
    cases hc
  rw [htext] at hnumber ⊢
  have hlit : ∀ c lit, c.isDigit = false → literal (d :: tail) (c :: lit) = none :=
    fun c lit hc => literal_of_ne (hne c hc) tail lit
  have hnull := hlit 'n' "ull".toList (by decide)
  have htrue := hlit 't' "rue".toList (by decide)
  have hfalse := hlit 'f' "alse".toList (by decide)
  have hnan := hlit 'N' "aN".toList (by decide)
  have hinf := hlit 'I' "nfinity".toList (by decide)
  have hneg := hlit '-' "Infinity".toList (by decide)
  unfold parseAtom
  rw [show "null".toList = 'n' :: "ull".toList from rfl, hnull,
    show "true".toList = 't' :: "rue".toList from rfl, htrue,
    show "false".toList = 'f' :: "alse".toList from rfl, hfalse,
    show "NaN".toList = 'N' :: "aN".toList from rfl, hnan,
    show "Infinity".toList = 'I' :: "nfinity".toList from rfl, hinf,
    show "-Infinity".toList = '-' :: "Infinity".toList from rfl, hneg]
  exact hnumber

theorem parseValue_decimal (toFloat : List Char → F) (n fuel : Nat) {rest : List Char}
    (hrest : Ends rest) :
    parseValue toFloat (fuel + 1) (skipSpace (decimal n ++ rest)) = some (.int n, rest) := by
  have hatom := parseAtom_decimal toFloat n hrest
  obtain ⟨d, tail, htext, hd⟩ := decimal_head n rest
  have hne : ∀ c, c.isDigit = false → d ≠ c := by
    rintro c hc rfl
    rw [hd] at hc
    cases hc
  have hspace : skipSpace (d :: tail) = d :: tail := by
    simp [skipSpace, hne ' ' (by decide), hne '\t' (by decide), hne '\n' (by decide),
      hne '\r' (by decide)]
  rw [htext] at hatom ⊢
  rw [hspace, parseValue, hatom]
  · simp [hne '"' (by decide)]
  · simp [hne '{' (by decide)]
  · simp [hne '[' (by decide)]

theorem skipSpace_quote (rest : List Char) : skipSpace ('"' :: rest) = '"' :: rest := by
  simp [skipSpace]

theorem parseValue_scalar (toFloat : List Char → F) (v : Scalar) (fuel : Nat) {rest : List Char}
    (hrest : Ends rest) :
    parseValue toFloat (fuel + 1) (skipSpace (dumpScalar v ++ rest)) = some (v.value, rest) := by
  cases v with
  | num n => exact parseValue_decimal toFloat n fuel hrest
  | str s =>
    simp only [dumpScalar, dumpString, List.cons_append, List.append_assoc, List.nil_append,
      skipSpace_quote, parseValue, parseString_dumped, Option.map_some]
    rfl

/-- A member at the head of the text is read up to what stands after it. -/
theorem parseMembers_member (toFloat : List Char → F) (m : List Char × Scalar) (fuel : Nat)
    {rest : List Char} (hrest : Ends rest) :
    parseMembers toFloat (fuel + 2) (dumpMember m ++ rest) =
      match skipSpace rest with
      | '}' :: rest => some ([(m.1, m.2.value)], rest)
      | ',' :: rest =>
        (parseMembers toFloat (fuel + 1) (skipSpace rest)).map
          fun p => ((m.1, m.2.value) :: p.1, p.2)
      | _ => none := by
  have hcolon : ∀ tail, skipSpace (':' :: tail) = ':' :: tail := fun tail => by simp [skipSpace]
  have hvalue := parseValue_scalar toFloat m.2 fuel hrest
  simp only [dumpMember, dumpString, List.cons_append, List.append_assoc, List.nil_append,
    parseMembers, parseString_dumped, hcolon, hvalue]

theorem skipSpace_dumpMember (m : List Char × Scalar) (rest : List Char) :
    skipSpace (dumpMember m ++ rest) = dumpMember m ++ rest := skipSpace_quote _

theorem skipSpace_dumpMembers (m : List Char × Scalar) (ms : List (List Char × Scalar))
    (rest : List Char) :
    skipSpace (dumpMembers (m :: ms) ++ rest) = dumpMembers (m :: ms) ++ rest := by
  cases ms with
  | nil => exact skipSpace_dumpMember m rest
  | cons m' ms =>
    rw [dumpMembers, List.append_assoc]
    · exact skipSpace_dumpMember m _
    · simp

theorem parseMembers_dumped (toFloat : List Char → F) (ms : List (List Char × Scalar))
    (m : List Char × Scalar) {fuel : Nat} (hfuel : ms.length < fuel) (rest : List Char) :
    parseMembers toFloat (fuel + 1) (dumpMembers (m :: ms) ++ '}' :: rest) =
      some ((m :: ms).map fun m => (m.1, m.2.value), rest) := by
  induction ms generalizing m fuel with
  | nil =>
    obtain ⟨fuel, rfl⟩ := Nat.exists_eq_add_of_lt hfuel
    have hclose : skipSpace ('}' :: rest) = '}' :: rest := by simp [skipSpace]
    rw [dumpMembers, parseMembers_member toFloat m _ ⟨rest, Or.inr rfl⟩, hclose]
    rfl
  | cons m' ms ih =>
    obtain ⟨fuel, rfl⟩ : ∃ k, fuel = k + 1 := ⟨fuel - 1, by omega⟩
    have hcomma : ∀ tail, skipSpace (',' :: tail) = ',' :: tail := fun tail => by simp [skipSpace]
    have hrest := @ih m' fuel (by simpa using hfuel)
    rw [dumpMembers, List.append_assoc, List.cons_append,
      parseMembers_member toFloat m fuel ⟨_, Or.inl rfl⟩, hcomma]
    · simp only [skipSpace_dumpMembers, hrest]
      rfl
    · simp

/-! ## A dict is read back -/

theorem dumpMembers_length (ms : List (List Char × Scalar)) :
    ms.length ≤ (dumpMembers ms).length := by
  induction ms with
  | nil => simp
  | cons m ms ih =>
    cases ms with
    | nil => simp [dumpMembers, dumpMember, dumpString]
    | cons m' ms =>
      rw [dumpMembers]
      · simp only [List.length_append, List.length_cons] at ih ⊢
        omega
      · simp

theorem dumpMembers_head (m : List Char × Scalar) (ms : List (List Char × Scalar)) :
    ∃ tail, dumpMembers (m :: ms) = '"' :: tail := by
  cases ms with
  | nil => exact ⟨_, rfl⟩
  | cons m' ms => exact ⟨_, rfl⟩

/-- **`json.loads` reads back what `json.dumps` wrote**, for all numbers and strings. -/
theorem loadsText_dumps (toFloat : List Char → F) (ms : List (List Char × Scalar)) :
    loadsText toFloat (dumps ms) = some (.obj (ms.map fun m => (m.1, m.2.value))) := by
  have hopen : skipSpace (dumps ms) = dumps ms := by simp [dumps, skipSpace]
  rw [loadsText, hopen]
  cases ms with
  | nil => rfl
  | cons m ms =>
    have hlen := dumpMembers_length (m :: ms)
    have hfuel : (dumps (m :: ms)).length = (dumpMembers (m :: ms)).length + 1 + 1 := by
      simp [dumps]
    have hread : parseMembers toFloat (dumps (m :: ms)).length (dumpMembers (m :: ms) ++ ['}']) =
        some ((m :: ms).map fun m => (m.1, m.2.value), []) := by
      rw [hfuel]
      refine parseMembers_dumped toFloat ms m ?_ []
      simp only [List.length_cons] at hlen
      omega
    obtain ⟨tail, htail⟩ := dumpMembers_head m ms
    have hspace := skipSpace_dumpMembers m ms ['}']
    have hvalue : parseValue toFloat ((dumps (m :: ms)).length + 1)
        ('{' :: (dumpMembers (m :: ms) ++ ['}'])) =
          some (.obj ((m :: ms).map fun m => (m.1, m.2.value)), []) := by
      rw [parseValue, hspace]
      rw [htail, List.cons_append] at hread ⊢
      exact congrArg (Option.map fun p => (Value.obj p.1, p.2)) hread
    have htext : dumps (m :: ms) = '{' :: (dumpMembers (m :: ms) ++ ['}']) := rfl
    rw [htext] at hvalue ⊢
    rw [hvalue]
    rfl

theorem decodeUtf8_asciiBytes {cs : List Char} (h : ∀ c ∈ cs, c.toNat < 0x80) :
    decodeUtf8 (asciiBytes cs) = some cs := by
  induction cs with
  | nil => rfl
  | cons c cs ih =>
    rw [List.forall_mem_cons] at h
    have hbyte : (UInt8.ofNat c.toNat).toNat = c.toNat := by
      rw [UInt8.toNat_ofNat']
      omega
    have hcons : asciiBytes (c :: cs) = UInt8.ofNat c.toNat :: asciiBytes cs := rfl
    rw [hcons, decodeUtf8.eq_def]
    simp only [hbyte, h.1, if_true, ih h.2, charOf_toNat, Option.map_some]

theorem digitChar_ascii {d : Nat} (h : d < 16) : (Nat.digitChar d).toNat < 0x80 := by
  have hall : ∀ d < 16, (Nat.digitChar d).toNat < 0x80 := by decide
  exact hall d h

theorem unitEscape_ascii (n : Nat) : ∀ c ∈ unitEscape n, c.toNat < 0x80 := by
  simp only [unitEscape, List.forall_mem_cons]
  exact ⟨by decide, by decide, digitChar_ascii (by omega), digitChar_ascii (by omega),
    digitChar_ascii (by omega), digitChar_ascii (by omega), by simp⟩

theorem ascii_of_all {cs : List Char} (h : (cs.all fun c => c.toNat < 0x80) = true) :
    ∀ c ∈ cs, c.toNat < 0x80 := fun c hc => of_decide_eq_true (List.all_eq_true.1 h c hc)

theorem escapeChar_ascii (c : Char) : ∀ d ∈ escapeChar c, d.toNat < 0x80 := by
  unfold escapeChar
  split
  · exact ascii_of_all (by decide)
  · exact ascii_of_all (by decide)
  · exact ascii_of_all (by decide)
  · exact ascii_of_all (by decide)
  · exact ascii_of_all (by decide)
  · exact ascii_of_all (by decide)
  · exact ascii_of_all (by decide)
  · split
    · rename_i h
      simp only [Bool.and_eq_true, decide_eq_true_eq] at h
      simp only [List.forall_mem_singleton]
      omega
    · intro d hd
      obtain ⟨n, _, hd⟩ := List.mem_flatMap.1 hd
      exact unitEscape_ascii n d hd

theorem dumpString_ascii (s : List Char) : ∀ c ∈ dumpString s, c.toNat < 0x80 := by
  intro c hc
  simp only [dumpString, List.cons_append, List.mem_cons, List.mem_append, List.mem_flatMap,
    List.not_mem_nil, or_false] at hc
  rcases hc with rfl | ⟨d, _, hc⟩ | rfl
  · decide
  · exact escapeChar_ascii d c hc
  · decide

theorem decimal_ascii (n : Nat) : ∀ c ∈ decimal n, c.toNat < 0x80 := by
  unfold decimal
  split
  · exact ascii_of_all (by decide)
  · intro c hc
    obtain ⟨d, hd, rfl⟩ := List.mem_map.1 hc
    have hlt : d < 10 := Nat.digits_lt_base (by decide) (List.mem_reverse.1 hd)
    exact digitChar_ascii (by omega)

theorem dumpMember_ascii (m : List Char × Scalar) : ∀ c ∈ dumpMember m, c.toNat < 0x80 := by
  intro c hc
  rcases List.mem_append.1 hc with hc | hc
  · exact dumpString_ascii m.1 c hc
  rcases List.mem_cons.1 hc with rfl | hc
  · decide
  obtain ⟨key, v⟩ := m
  cases v with
  | num n => exact decimal_ascii n c hc
  | str s => exact dumpString_ascii s c hc

theorem dumpMembers_ascii (ms : List (List Char × Scalar)) :
    ∀ c ∈ dumpMembers ms, c.toNat < 0x80 := by
  induction ms with
  | nil => simp [dumpMembers]
  | cons m ms ih =>
    cases ms with
    | nil => exact dumpMember_ascii m
    | cons m' ms =>
      intro c hc
      rw [dumpMembers] at hc
      · rcases List.mem_append.1 hc with hc | hc
        · exact dumpMember_ascii m c hc
        · rcases List.mem_cons.1 hc with rfl | hc
          · decide
          · exact ih c hc
      · simp

theorem dumps_ascii (ms : List (List Char × Scalar)) : ∀ c ∈ dumps ms, c.toNat < 0x80 := by
  intro c hc
  rcases List.mem_cons.1 hc with rfl | hc
  · decide
  rcases List.mem_append.1 hc with hc | hc
  · exact dumpMembers_ascii ms c hc
  · rw [List.mem_singleton.1 hc]
    decide

/-- The same through the bytes. -/
theorem loads_dumps (toFloat : List Char → F) (ms : List (List Char × Scalar)) :
    loads toFloat (asciiBytes (dumps ms)) = some (.obj (ms.map fun m => (m.1, m.2.value))) := by
  have hbytes : asciiBytes (dumps ms) = 0x7B :: asciiBytes (dumpMembers ms ++ ['}']) := rfl
  have hmark : [0xEF, 0xBB, 0xBF].isPrefixOf (asciiBytes (dumps ms)) = false := by
    rw [hbytes]
    rfl
  simp only [loads, hmark, Bool.false_eq_true, if_false,
    decodeUtf8_asciiBytes (dumps_ascii ms), loadsText_dumps]

end Json
