import Mathlib.Data.List.DropRight

/-!
# URL-safe base64

* `encode`, `decode` — `base64.urlsafe_b64encode` and `base64.urlsafe_b64decode`; the decoder is
  the lenient one: characters outside the alphabet are skipped, and what follows the padding of a
  quantum is not read.
* `unpad`, `repad` — stripping the trailing `=` and restoring them from the length alone.
* `repad_unpad_encode` — the stripped padding is restored exactly, for every payload length.
* `decode_encode` — the decoder inverts the encoder.
-/

namespace Base64

def standardAlphabet : List Char :=
  "ABCDEFGHIJKLMNOPQRSTUVWXYZabcdefghijklmnopqrstuvwxyz0123456789+/".toList

/-- The character of a sextet, `+` and `/` replaced by `-` and `_`. -/
def encodeSextet (n : Nat) : Char :=
  match standardAlphabet.getD n 'A' with
  | '+' => '-'
  | '/' => '_'
  | c => c

/-- The sextet of a character; `-` and `_` are replaced first, so both spellings are read. -/
def decodeSextet (c : Char) : Option Nat :=
  let c := match c with
    | '-' => '+'
    | '_' => '/'
    | c => c
  let n := standardAlphabet.idxOf c
  if n < 64 then some n else none

def encode : List UInt8 → List Char
  | [] => []
  | [a] => [encodeSextet (a.toNat / 4), encodeSextet (a.toNat % 4 * 16), '=', '=']
  | [a, b] =>
    [encodeSextet (a.toNat / 4), encodeSextet (a.toNat % 4 * 16 + b.toNat / 16),
      encodeSextet (b.toNat % 16 * 4), '=']
  | a :: b :: c :: rest =>
    encodeSextet (a.toNat / 4) :: encodeSextet (a.toNat % 4 * 16 + b.toNat / 16) ::
      encodeSextet (b.toNat % 16 * 4 + c.toNat / 64) :: encodeSextet (c.toNat % 64) :: encode rest

/-- `binascii.a2b_base64` from inside a quantum: `pos` sextets of it are read, `left` holds the
bits not yet put out, `pads` counts the padding characters since the last sextet. -/
def decodeFrom : Nat → Nat → Nat → List Char → Option (List UInt8)
  | pos, _, _, [] => if pos = 0 then some [] else none
  | pos, left, pads, c :: cs =>
    if c = '=' then
      if 2 ≤ pos then
        if 4 ≤ pos + (pads + 1) then some [] else decodeFrom pos left (pads + 1) cs
      else decodeFrom pos left pads cs
    else match decodeSextet c with
      | none => decodeFrom pos left pads cs
      | some x =>
        match pos with
        | 0 => decodeFrom 1 x 0 cs
        | 1 => (decodeFrom 2 (x % 16) 0 cs).map (UInt8.ofNat (left * 4 + x / 16) :: ·)
        | 2 => (decodeFrom 3 (x % 4) 0 cs).map (UInt8.ofNat (left * 16 + x / 4) :: ·)
        | _ => (decodeFrom 0 0 0 cs).map (UInt8.ofNat (left * 64 + x) :: ·)

/-- `none` where the decoder raises: a non-ASCII character, or an unfinished quantum. -/
def decode (cs : List Char) : Option (List UInt8) :=
  if cs.all fun c => c.toNat < 128 then decodeFrom 0 0 0 cs else none

/-- `.rstrip(b"=")`. -/
def unpad (cs : List Char) : List Char := cs.rdropWhile (· == '=')

/-- The text with `"=" * (-len(text) % 4)` appended. -/
def repad (cs : List Char) : List Char :=
  cs ++ List.replicate ((-(cs.length : Int)) % 4).toNat '='

/-! ## Sextets -/

theorem decodeSextet_encodeSextet {n : Nat} (h : n < 64) :
    decodeSextet (encodeSextet n) = some n := by
  have hall : ∀ n < 64, decodeSextet (encodeSextet n) = some n := by decide +kernel
  exact hall n h

theorem encodeSextet_ne {n : Nat} (h : n < 64) : encodeSextet n ≠ '=' := by
  have hall : ∀ n < 64, encodeSextet n ≠ '=' := by decide +kernel
  exact hall n h

theorem encodeSextet_ascii {n : Nat} (h : n < 64) : (encodeSextet n).toNat < 128 := by
  have hall : ∀ n < 64, (encodeSextet n).toNat < 128 := by decide +kernel
  exact hall n h

theorem decodeFrom_sextet {n : Nat} (h : n < 64) (pos left pads : Nat) (cs : List Char) :
    decodeFrom pos left pads (encodeSextet n :: cs) =
      match pos with
      | 0 => decodeFrom 1 n 0 cs
      | 1 => (decodeFrom 2 (n % 16) 0 cs).map (UInt8.ofNat (left * 4 + n / 16) :: ·)
      | 2 => (decodeFrom 3 (n % 4) 0 cs).map (UInt8.ofNat (left * 16 + n / 4) :: ·)
      | _ => (decodeFrom 0 0 0 cs).map (UInt8.ofNat (left * 64 + n) :: ·) := by
  rw [decodeFrom.eq_def]
  simp only [encodeSextet_ne h, if_false, decodeSextet_encodeSextet h]

theorem ofNat_eq {n : Nat} {b : UInt8} (h : n = b.toNat) : UInt8.ofNat n = b := by
  rw [h, UInt8.ofNat_toNat]

/-! ## Padding -/

/-- An encoding is sextets followed by fewer than three padding characters, four to a quantum. -/
theorem encode_shape : ∀ bs : List UInt8, ∃ body k, encode bs = body ++ List.replicate k '=' ∧
    (∀ c ∈ body, c ≠ '=') ∧ k < 3 ∧ (body.length + k) % 4 = 0
  | [] => ⟨[], 0, by simp [encode]⟩
  | [a] => by
    have ha := a.toNat_lt
    refine ⟨[encodeSextet (a.toNat / 4), encodeSextet (a.toNat % 4 * 16)], 2, rfl, ?_, by simp⟩
    simp only [List.forall_mem_cons]
    exact ⟨encodeSextet_ne (by omega), encodeSextet_ne (by omega), by simp⟩
  | [a, b] => by
    have ha := a.toNat_lt
    have hb := b.toNat_lt
    refine ⟨[encodeSextet (a.toNat / 4), encodeSextet (a.toNat % 4 * 16 + b.toNat / 16),
      encodeSextet (b.toNat % 16 * 4)], 1, rfl, ?_, by simp⟩
    simp only [List.forall_mem_cons]
    exact ⟨encodeSextet_ne (by omega), encodeSextet_ne (by omega), encodeSextet_ne (by omega),
      by simp⟩
  | a :: b :: c :: rest => by
    have ha := a.toNat_lt
    have hb := b.toNat_lt
    have hc := c.toNat_lt
    obtain ⟨body, k, hbody, hne, hk, hmod⟩ := encode_shape rest
    refine ⟨encodeSextet (a.toNat / 4) :: encodeSextet (a.toNat % 4 * 16 + b.toNat / 16) ::
      encodeSextet (b.toNat % 16 * 4 + c.toNat / 64) :: encodeSextet (c.toNat % 64) :: body, k,
      by simp [encode, hbody], ?_, hk, by simp only [List.length_cons]; omega⟩
    simp only [List.forall_mem_cons]
    exact ⟨encodeSextet_ne (by omega), encodeSextet_ne (by omega), encodeSextet_ne (by omega),
      encodeSextet_ne (by omega), hne⟩

theorem unpad_append {body : List Char} (h : ∀ c ∈ body, c ≠ '=') (k : Nat) :
    unpad (body ++ List.replicate k '=') = body := by
  have hrev : ∀ c ∈ body.reverse, c ≠ '=' := fun c hc => h c (List.mem_reverse.1 hc)
  have hdrop : body.reverse.dropWhile (· == '=') = body.reverse := by
    cases hb : body.reverse with
    | nil => rfl
    | cons c cs =>
      have hc : c ≠ '=' := hrev c (by simp [hb])
      simp [hc]
  unfold unpad List.rdropWhile
  rw [List.reverse_append, List.reverse_replicate, List.dropWhile_append_of_pos (by simp), hdrop,
    List.reverse_reverse]

/-- **The padding is a function of the length**: stripping and restoring it changes nothing. -/
theorem repad_unpad_encode (bs : List UInt8) : repad (unpad (encode bs)) = encode bs := by
  obtain ⟨body, k, hbody, hne, hk, hmod⟩ := encode_shape bs
  rw [hbody, unpad_append hne, repad]
  congr 2
  omega

/-! ## The decoder inverts the encoder -/

theorem encode_ascii : ∀ bs : List UInt8, ∀ c ∈ encode bs, c.toNat < 128
  | [] => by simp [encode]
  | [a] => by
    have ha := a.toNat_lt
    simp only [encode, List.forall_mem_cons]
    exact ⟨encodeSextet_ascii (by omega), encodeSextet_ascii (by omega), by decide, by decide,
      by simp⟩
  | [a, b] => by
    have ha := a.toNat_lt
    have hb := b.toNat_lt
    simp only [encode, List.forall_mem_cons]
    exact ⟨encodeSextet_ascii (by omega), encodeSextet_ascii (by omega),
      encodeSextet_ascii (by omega), by decide, by simp⟩
  | a :: b :: c :: rest => by
    have ha := a.toNat_lt
    have hb := b.toNat_lt
    have hc := c.toNat_lt
    simp only [encode, List.forall_mem_cons]
    exact ⟨encodeSextet_ascii (by omega), encodeSextet_ascii (by omega),
      encodeSextet_ascii (by omega), encodeSextet_ascii (by omega), encode_ascii rest⟩

theorem decodeFrom_encode : ∀ bs : List UInt8, decodeFrom 0 0 0 (encode bs) = some bs
  | [] => rfl
  | [a] => by
    have ha := a.toNat_lt
    have hend : decodeFrom 2 (a.toNat % 4 * 16 % 16) 0 ['=', '='] = some [] := rfl
    simp (disch := omega) only [encode, decodeFrom_sextet, hend, Option.map_some]
    rw [ofNat_eq (b := a) (by omega)]
  | [a, b] => by
    have ha := a.toNat_lt
    have hb := b.toNat_lt
    have hend : decodeFrom 3 (b.toNat % 16 * 4 % 4) 0 ['='] = some [] := rfl
    simp (disch := omega) only [encode, decodeFrom_sextet, hend, Option.map_some]
    rw [ofNat_eq (b := a) (by omega), ofNat_eq (b := b) (by omega)]
  | a :: b :: c :: rest => by
    have ha := a.toNat_lt
    have hb := b.toNat_lt
    have hc := c.toNat_lt
    simp (disch := omega) only [encode, decodeFrom_sextet, decodeFrom_encode rest, Option.map_some]
    rw [ofNat_eq (b := a) (by omega), ofNat_eq (b := b) (by omega), ofNat_eq (b := c) (by omega)]

/-- **The decoder inverts the encoder.** -/
theorem decode_encode (bs : List UInt8) : decode (encode bs) = some bs := by
  rw [decode, if_pos (by simpa using encode_ascii bs), decodeFrom_encode]

end Base64
