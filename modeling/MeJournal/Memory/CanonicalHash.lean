import MeJournal.Lib.Pieces
import MeJournal.Lib.Strip
import MeJournal.Memory.Row

/-!
# The canonical form of an entry

`canonical_hash` of `app/services/_memory_helpers.py` normalises to NFC, strips, and lower-cases,
in this order.

* `UnicodeLaws` — what the Unicode data say of `unicodedata.normalize` and `str.lower`.
* `canonicalForm_ends`, `canonicalForm_nfc`, `canonicalForm_nfd` — whitespace and normal forms do
  not show in the canonical form.
* `canonicalForm_lower` — the canonical form of the lower-cased text is normalised once more.
* `letters` — a text letter by letter, each with the marks after it; `commute_iff_letters`.
* `canonical_iff` — all cosmetic variants have one hash, and the canonical form is its own, exactly
  if of no letter of the text the lower case composes further with its marks.
-/

namespace MeJournal

namespace CanonicalHash

/-! ## The Unicode data -/

/-- The two lower cases of the letter sigma taken for one. -/
def foldSigma (c : Char) : Char := if c = 'ς' then 'σ' else c

/-- The laws of `unicodedata.normalize` and `str.lower`, with `nfd` the normal form D and `base` the
characters that compose with nothing before them. -/
structure UnicodeLaws (pf : Platform) (nfd : Text → Text) (base : Char → Bool) : Prop where
  nfc_nfc : ∀ t, pf.nfc (pf.nfc t) = pf.nfc t
  nfc_nfd : ∀ t, pf.nfc (nfd t) = pf.nfc t
  nfd_nfc : ∀ t, nfd (pf.nfc t) = nfd t
  nfd_length : ∀ t u, (nfd (t ++ u)).length = (nfd t).length + (nfd u).length
  nfd_nil : ∀ t, nfd t = [] → t = []
  /-- A space composes with nothing and is in no reordering. -/
  nfc_spaces : SpaceLocal isPySpace pf.nfc
  /-- Nor is anything across the front of a base character. -/
  nfc_base : PieceLocal base pf.nfc
  nfc_start : ∀ t, StartsWith base t → StartsWith base (pf.nfc t)
  /-- A sigma composes with nothing, in either lower case. -/
  nfc_sigma : ∀ t u, t.map foldSigma = u.map foldSigma → pf.nfc t = t → pf.nfc u = u
  base_sigma : ∀ c, base (foldSigma c) = base c
  /-- A space ends the context of a final sigma. -/
  lower_spaces : SpaceLocal isPySpace pf.lower
  lower_space : ∀ c, isPySpace c = true → pf.lower [c] = [c]
  /-- Only a sigma is lower-cased by its context. -/
  lower_append : ∀ t u,
    (pf.lower (t ++ u)).map foldSigma = (pf.lower t ++ pf.lower u).map foldSigma
  lower_start : ∀ t, StartsWith base t → StartsWith base (pf.lower t)
  /-- Lower-casing keeps canonical equivalence. -/
  lower_congr : ∀ t u, pf.nfc t = pf.nfc u → pf.nfc (pf.lower t) = pf.nfc (pf.lower u)
  /-- No composite of lower-case letters has a lower case of its own. -/
  lower_nfc_lower : ∀ t, pf.lower (pf.nfc (pf.lower t)) = pf.nfc (pf.lower t)

/-! ## Canonical forms -/

/-- `normalised` of `canonical_hash`. -/
def canonicalForm (pf : Platform) (t : Text) : Text := pf.lower (pyStrip (pf.nfc t))

theorem canonicalHash_eq (pf : Platform) (t : Text) :
    canonicalHash pf t = pf.sha256 (canonicalForm pf t) := rfl

section

variable {pf : Platform} {nfd : Text → Text} {base : Char → Bool} (laws : UnicodeLaws pf nfd base)

include laws

/-- Stripping may come last, -/
theorem canonicalForm_eq_strip (t : Text) :
    canonicalForm pf t = pyStrip (pf.lower (pf.nfc t)) :=
  (laws.lower_spaces.strip_comm (pf.nfc t)).symm

/-- or first. -/
theorem canonicalForm_eq_of_strip (t : Text) :
    canonicalForm pf t = pf.lower (pf.nfc (pyStrip t)) :=
  congrArg pf.lower (laws.nfc_spaces.strip_comm t)

theorem canonicalForm_ends {s t : Text} (h : pyStrip s = pyStrip t) :
    canonicalForm pf s = canonicalForm pf t := by
  rw [canonicalForm_eq_of_strip laws, h, ← canonicalForm_eq_of_strip laws]

theorem canonicalForm_nfc (t : Text) : canonicalForm pf (pf.nfc t) = canonicalForm pf t := by
  rw [canonicalForm, laws.nfc_nfc, canonicalForm]

theorem canonicalForm_nfd (t : Text) : canonicalForm pf (nfd t) = canonicalForm pf t := by
  rw [canonicalForm, laws.nfc_nfd, canonicalForm]

/-- NFC after lower-casing sees the text or its NFC alike. -/
theorem nfc_lower_nfc (t : Text) : pf.nfc (pf.lower (pf.nfc t)) = pf.nfc (pf.lower t) :=
  laws.lower_congr _ _ (laws.nfc_nfc t)

theorem canonicalForm_lower (t : Text) :
    canonicalForm pf (pf.lower t) = pyStrip (pf.nfc (pf.lower t)) := by
  rw [canonicalForm_eq_strip laws, laws.lower_nfc_lower]

/-- The canonical form of the canonical form. -/
theorem canonicalForm_canonicalForm (t : Text) :
    canonicalForm pf (canonicalForm pf t) = canonicalForm pf (pf.lower t) := by
  have hstrip : pyStrip (canonicalForm pf t) = pyStrip (pf.lower (pf.nfc t)) := by
    rw [canonicalForm_eq_strip laws]
    exact strip_strip isPySpace _
  rw [canonicalForm_ends laws hstrip, canonicalForm_lower laws, canonicalForm_lower laws,
    nfc_lower_nfc laws]

/-- **The lower-cased text has the text's canonical form exactly if NFC and lower-casing
commute on it.** -/
theorem canonicalForm_lower_iff (t : Text) :
    canonicalForm pf (pf.lower t) = canonicalForm pf t ↔
      pf.nfc (pf.lower t) = pf.lower (pf.nfc t) := by
  have hspace : ∀ c, isPySpace c = true →
      pf.nfc (pf.lower (pf.nfc [c])) = pf.lower (pf.nfc [c]) := by
    intro c hc
    obtain ⟨c', hc', heq⟩ := laws.nfc_spaces.space c hc
    rw [heq, laws.lower_space c' hc', ← heq, laws.nfc_nfc]
  have hlower : SpaceLocal isPySpace fun x => pf.lower (pf.nfc x) :=
    laws.lower_spaces.comp laws.nfc_spaces
  have hfixed := laws.nfc_spaces.strip_fixed_iff hlower hspace t
  rw [nfc_lower_nfc laws] at hfixed
  rw [canonicalForm_lower laws, canonicalForm_eq_strip laws]
  exact hfixed

end

/-! ## Letter by letter -/

/-- The letters of a text, each with the marks after it. -/
def letters (base : Char → Bool) (t : Text) : List Text := pieces base t

/-- The letter's lower case composes with the marks that its composed form leaves, or changes places
with them. -/
def ComposesInLowerCase (pf : Platform) (k : Text) : Prop :=
  pf.nfc (pf.lower (pf.nfc k)) ≠ pf.lower (pf.nfc k)

section

variable {pf : Platform} {nfd : Text → Text} {base : Char → Bool} (laws : UnicodeLaws pf nfd base)

include laws

/-- A lower-cased text falls into the lower-cased pieces, up to sigmas. -/
theorem lower_pieces (us : List Text) : ∀ {s : Text},
    s.map foldSigma = (pf.lower us.flatten).map foldSigma →
    ∃ ss : List Text, s = ss.flatten ∧
      List.Forall₂ (fun s u => s.map foldSigma = (pf.lower u).map foldSigma) ss us := by
  induction us with
  | nil =>
    intro s hs
    rw [List.flatten_nil, laws.lower_spaces.nil, List.map_nil, List.map_eq_nil_iff] at hs
    exact ⟨[], hs, .nil⟩
  | cons u us ih =>
    intro s hs
    rw [List.flatten_cons, laws.lower_append, List.map_append, List.map_eq_append_iff] at hs
    obtain ⟨s₁, s₂, rfl, hs₁, hs₂⟩ := hs
    obtain ⟨ss, rfl, hss⟩ := ih hs₂
    exact ⟨s₁ :: ss, rfl, .cons hs₁ hss⟩

/-- What a piece starts with does not show in its sigmas. -/
theorem startsWith_of_foldSigma {s u : Text} (h : s.map foldSigma = u.map foldSigma)
    (hu : StartsWith base u) : StartsWith base s := by
  obtain ⟨c, y, rfl, hc⟩ := hu
  cases s with
  | nil => cases h
  | cons d s =>
    rw [List.map_cons, List.map_cons, List.cons.injEq] at h
    refine ⟨d, s, rfl, ?_⟩
    rw [← laws.base_sigma d, h.1, laws.base_sigma c, hc]

theorem cut_of_forall₂ {ss us : List Text}
    (h : List.Forall₂ (fun s u => s.map foldSigma = (pf.lower u).map foldSigma) ss us)
    (hus : CutAt base us) : CutAt base ss := by
  cases h with
  | nil => exact hus
  | cons _ hrest =>
    rw [CutAt, List.tail_cons] at hus ⊢
    induction hrest with
    | nil => exact fun s hs => absurd hs List.not_mem_nil
    | cons hsu _ ih =>
      rw [List.forall_mem_cons] at hus ⊢
      exact ⟨startsWith_of_foldSigma laws hsu (laws.lower_start _ hus.1), ih hus.2⟩

theorem forall_fixed_iff {ss us : List Text}
    (h : List.Forall₂ (fun s u => s.map foldSigma = (pf.lower u).map foldSigma) ss us) :
    (∀ s ∈ ss, pf.nfc s = s) ↔ ∀ u ∈ us, pf.nfc (pf.lower u) = pf.lower u := by
  induction h with
  | nil => simp
  | cons hsu _ ih =>
    rw [List.forall_mem_cons, List.forall_mem_cons, ih]
    exact and_congr_left' ⟨laws.nfc_sigma _ _ hsu, laws.nfc_sigma _ _ hsu.symm⟩

/-- **The lower-cased composed text is in NFC exactly if it is, letter by letter.** -/
theorem nfc_lower_iff_letters (t : Text) :
    pf.nfc (pf.lower (pf.nfc t)) = pf.lower (pf.nfc t) ↔
      ∀ k ∈ letters base t, ¬ ComposesInLowerCase pf k := by
  have hcut : CutAt base ((letters base t).map pf.nfc) := by
    intro u hu
    rw [← List.map_tail] at hu
    obtain ⟨k, hk, rfl⟩ := List.mem_map.1 hu
    exact laws.nfc_start k (pieces_cut base t k hk)
  have hnfc : pf.nfc t = ((letters base t).map pf.nfc).flatten := by
    rw [letters, ← laws.nfc_base.flatten (pieces_cut base t), pieces_flatten]
  obtain ⟨ss, hflatten, hss⟩ := lower_pieces laws ((letters base t).map pf.nfc) rfl
  have hfixed := laws.nfc_base.fixed_iff (fun t => (nfd t).length) laws.nfd_length
    (fun t h => laws.nfd_nil t (List.length_eq_zero_iff.1 h)) (fun t => by rw [laws.nfd_nfc])
    (cut_of_forall₂ laws hss hcut)
  rw [hnfc, hflatten, hfixed]
  rw [forall_fixed_iff laws hss, List.forall_mem_map]
  exact forall₂_congr fun k _ => (not_not (a := pf.nfc (pf.lower (pf.nfc k)) = _)).symm

/-- **NFC and lower-casing commute exactly on the texts without such letters.** -/
theorem commute_iff_letters (t : Text) :
    pf.nfc (pf.lower t) = pf.lower (pf.nfc t) ↔
      ∀ k ∈ letters base t, ¬ ComposesInLowerCase pf k := by
  rw [← nfc_lower_nfc laws]
  exact nfc_lower_iff_letters laws t

end

/-! ## Cosmetic variants -/

/-- The variants of a text: its lower case, its normal forms, and whatever differs from it in
whitespace at the ends. -/
inductive Variant (pf : Platform) (nfd : Text → Text) (t : Text) : Text → Prop
  | lower : Variant pf nfd t (pf.lower t)
  | ends {s : Text} (h : pyStrip s = pyStrip t) : Variant pf nfd t s
  | nfd : Variant pf nfd t (nfd t)
  | nfc : Variant pf nfd t (pf.nfc t)

/-- All variants have the hash of the text. -/
def Identified (pf : Platform) (nfd : Text → Text) (t : Text) : Prop :=
  ∀ s, Variant pf nfd t s → canonicalHash pf s = canonicalHash pf t

/-- The canonical forms of a text and its variants. -/
def comparedForms (pf : Platform) (nfd : Text → Text) (t : Text) : Set Text :=
  {x | ∃ s, (s = t ∨ Variant pf nfd t s) ∧ x = canonicalForm pf s}

/-- **One hash for all variants, and a canonical form that is its own**: either holds exactly if of
no letter of the text the lower case composes further with the marks after it. -/
theorem canonical_iff {pf : Platform} {nfd : Text → Text} {base : Char → Bool}
    (laws : UnicodeLaws pf nfd base) (t : Text)
    (hsha : Set.InjOn pf.sha256 (comparedForms pf nfd t)) :
    (Identified pf nfd t ↔ ∀ k ∈ letters base t, ¬ ComposesInLowerCase pf k) ∧
      (canonicalForm pf (canonicalForm pf t) = canonicalForm pf t ↔
        ∀ k ∈ letters base t, ¬ ComposesInLowerCase pf k) := by
  rw [← commute_iff_letters laws]
  constructor
  · constructor
    · intro h
      have hlower : canonicalForm pf (pf.lower t) = canonicalForm pf t :=
        hsha ⟨_, Or.inr .lower, rfl⟩ ⟨t, Or.inl rfl, rfl⟩ (h _ .lower)
      exact (canonicalForm_lower_iff laws t).1 hlower
    · intro hcommute s hs
      rw [canonicalHash_eq, canonicalHash_eq]
      congr 1
      cases hs with
      | lower => exact (canonicalForm_lower_iff laws t).2 hcommute
      | ends h => exact canonicalForm_ends laws h
      | nfd => exact canonicalForm_nfd laws t
      | nfc => exact canonicalForm_nfc laws t
  · rw [canonicalForm_canonicalForm laws]
    exact canonicalForm_lower_iff laws t

/-! ## A letter that is precomposed in lower case only -/

/-- U+030C, the combining caron. -/
def caron : Char := '\u030C'

/-- U+01F0, the lower-case j with caron; the upper-case letter has no composite. -/
def jCaron : Char := '\u01F0'

/-- A letter in front of composed text. -/
def compose (c : Char) : Text → Text
  | [] => [c]
  | d :: t => if c = 'j' ∧ d = caron then jCaron :: t else c :: d :: t

/-- NFC of Latin letters and the caron. -/
def composeCaron (t : Text) : Text := t.foldr compose []

@[simp] theorem composeCaron_cons (c : Char) (t : Text) :
    composeCaron (c :: t) = compose c (composeCaron t) := rfl

/-- NFD of a letter. -/
def decompose (c : Char) : Text := if c = jCaron then ['j', caron] else [c]

/-- NFD of the same. -/
def decomposeCaron (t : Text) : Text := t.flatMap decompose

def caronPlatform : Platform := { utcPlatform with nfc := composeCaron }

/-- Only the letters from A to Z have another lower case. -/
theorem toLower_cases (c : Char) :
    c.toLower = c ∨ (65 ≤ c.toNat ∧ c.toNat ≤ 90) ∧ c.toLower.toNat = c.toNat + 32 := by
  unfold Char.toLower
  split
  · rename_i h
    obtain ⟨hlo, hhi⟩ := h
    rw [ge_iff_le, UInt32.le_iff_toNat_le] at hlo
    rw [UInt32.le_iff_toNat_le] at hhi
    have hlo : 65 ≤ c.toNat := hlo
    have hhi : c.toNat ≤ 90 := hhi
    refine Or.inr ⟨⟨hlo, hhi⟩, ?_⟩
    show (c.val + 32).toNat = _
    rw [UInt32.toNat_add]
    show (c.toNat + 32) % _ = _
    omega
  · exact Or.inl rfl

theorem isPySpace_toLower (c : Char) : isPySpace c.toLower = isPySpace c := by
  rcases toLower_cases c with h | ⟨h, h'⟩
  · rw [h]
  · simp only [isPySpace, h']
    grind

theorem toLower_of_isPySpace {c : Char} (hc : isPySpace c = true) : c.toLower = c := by
  rcases toLower_cases c with h | ⟨h, -⟩
  · exact h
  · simp only [isPySpace] at hc
    grind

theorem toLower_toLower (c : Char) : c.toLower.toLower = c.toLower := by
  rcases toLower_cases c.toLower with h | ⟨h, -⟩
  · exact h
  · rcases toLower_cases c with h' | ⟨hc, h'⟩
    · rw [h', h']
    · omega

/-- Composing a letter's NFD is composing the letter. -/
theorem compose_decompose (c : Char) (y : Text) :
    (decompose c).foldr compose y = compose c y := by
  unfold decompose
  split
  · rename_i hc
    subst hc
    have hcaron : compose caron y = caron :: y := by cases y <;> rfl
    have hjCaron : compose jCaron y = jCaron :: y := by cases y <;> rfl
    rw [List.foldr_cons, List.foldr_cons, List.foldr_nil, hcaron, hjCaron]
    rfl
  · rfl

theorem composeCaron_decomposeCaron (t : Text) :
    composeCaron (decomposeCaron t) = composeCaron t := by
  induction t with
  | nil => rfl
  | cons c t ih =>
    rw [decomposeCaron, List.flatMap_cons, composeCaron, List.foldr_append,
      compose_decompose, composeCaron, List.foldr_cons]
    exact congrArg (compose c) ih

theorem decomposeCaron_compose (c : Char) (y : Text) :
    decomposeCaron (compose c y) = decompose c ++ decomposeCaron y := by
  cases y with
  | nil => simp [compose, decomposeCaron]
  | cons d y =>
    rw [compose]
    split
    · rename_i h
      obtain ⟨rfl, rfl⟩ := h
      rfl
    · simp [decomposeCaron]

theorem decomposeCaron_composeCaron (t : Text) :
    decomposeCaron (composeCaron t) = decomposeCaron t := by
  induction t with
  | nil => rfl
  | cons c t ih =>
    rw [composeCaron, List.foldr_cons, decomposeCaron_compose, ← composeCaron, ih]
    rfl

/-- Lower-casing and NFD commute. -/
theorem map_toLower_decomposeCaron (t : Text) :
    (decomposeCaron t).map Char.toLower = decomposeCaron (t.map Char.toLower) := by
  rw [decomposeCaron, decomposeCaron, List.map_flatMap, List.flatMap_map]
  congr 1
  funext c
  unfold decompose
  by_cases hc : c = jCaron
  · subst hc
    rfl
  · have hlower : c.toLower ≠ jCaron := by
      intro heq
      rcases toLower_cases c with h | ⟨h, h'⟩
      · exact hc (h.symm.trans heq)
      · rw [heq] at h'
        have hj : jCaron.toNat = 496 := rfl
        omega
    rw [if_neg hc, if_neg hlower]
    rfl

/-- What a composition is made of. -/
theorem mem_composeCaron {P : Char → Prop} (hj : P jCaron) {t : Text} (ht : ∀ c ∈ t, P c) :
    ∀ c ∈ composeCaron t, P c := by
  induction t with
  | nil => exact ht
  | cons c t ih =>
    have hc : P c := ht c (by simp)
    have htail := ih fun d hd => ht d (by simp [hd])
    rw [composeCaron, List.foldr_cons, ← composeCaron]
    generalize composeCaron t = y at htail
    intro d hd
    cases y with
    | nil =>
      rw [compose, List.mem_singleton] at hd
      rwa [hd]
    | cons e y =>
      rw [compose] at hd
      split at hd
      · rcases List.mem_cons.1 hd with rfl | hd
        · exact hj
        · exact htail d (by simp [hd])
      · rcases List.mem_cons.1 hd with rfl | hd
        · exact hc
        · exact htail d hd

/-- Nothing composes across a letter. -/
theorem foldr_compose_append (x : Text) {c : Char} (hc : c ≠ caron) (y : Text) :
    x.foldr compose (c :: y) = x.foldr compose [] ++ c :: y := by
  induction x with
  | nil => rfl
  | cons d x ih =>
    rw [List.foldr_cons, ih, List.foldr_cons]
    cases x.foldr compose [] with
    | nil => simp [compose, hc]
    | cons e z =>
      rw [List.cons_append, compose, compose]
      split <;> rfl

theorem composeCaron_spaces : SpaceLocal isPySpace composeCaron where
  nil := rfl
  append x c y hc := by
    have hcaron : c ≠ caron := by rintro rfl; cases hc
    have hj : c ≠ 'j' := by rintro rfl; cases hc
    have hcons : compose c (composeCaron y) = c :: composeCaron y := by
      cases composeCaron y <;> simp [compose, hj]
    rw [composeCaron, List.foldr_append, List.foldr_cons, ← composeCaron, hcons,
      foldr_compose_append x hcaron, List.append_assoc]
    rfl
  space c hc := ⟨c, hc, rfl⟩
  word x hne hx := by
    refine ⟨?_, @mem_composeCaron (isPySpace · = false) rfl _ hx⟩
    obtain ⟨c, x, rfl⟩ := List.exists_cons_of_ne_nil hne
    rw [composeCaron, List.foldr_cons]
    cases x.foldr compose [] with
    | nil => exact List.cons_ne_nil _ _
    | cons d y =>
      rw [compose]
      split <;> exact List.cons_ne_nil _ _

/-- A letter of this alphabet. -/
def isLetter (c : Char) : Bool := c != caron

theorem compose_head (c : Char) (y : Text) :
    ∃ d z, compose c y = d :: z ∧ (d = c ∨ d = jCaron) := by
  cases y with
  | nil => exact ⟨c, [], rfl, Or.inl rfl⟩
  | cons e y =>
    rw [compose]
    split
    · exact ⟨_, _, rfl, Or.inr rfl⟩
    · exact ⟨_, _, rfl, Or.inl rfl⟩

theorem startsWith_composeCaron {t : Text} (h : StartsWith isLetter t) :
    StartsWith isLetter (composeCaron t) := by
  obtain ⟨c, y, rfl, hc⟩ := h
  obtain ⟨d, z, heq, hd⟩ := compose_head c (composeCaron y)
  refine ⟨d, z, heq, ?_⟩
  rcases hd with rfl | rfl
  · exact hc
  · rfl

theorem composeCaron_letters : PieceLocal isLetter composeCaron where
  nil := rfl
  append x c y hc := by
    obtain ⟨d, z, heq, hd⟩ := startsWith_composeCaron ⟨c, y, rfl, hc⟩
    have hfoldr : composeCaron (x ++ c :: y) = x.foldr compose (composeCaron (c :: y)) :=
      List.foldr_append
    rw [hfoldr, heq]
    exact foldr_compose_append x (by simpa [isLetter] using hd) z

theorem foldSigma_eq {c d : Char} (h : d ≠ 'ς') (h' : d ≠ 'σ') : foldSigma c = d ↔ c = d := by
  unfold foldSigma
  split
  · rename_i hc
    subst hc
    exact iff_of_false h'.symm h.symm
  · exact Iff.rfl

/-- The sigmas of a text do not show in what composes. -/
theorem composeCaron_map_foldSigma (t : Text) :
    composeCaron (t.map foldSigma) = (composeCaron t).map foldSigma := by
  induction t with
  | nil => rfl
  | cons c t ih =>
    rw [List.map_cons, composeCaron_cons, ih, composeCaron_cons]
    cases composeCaron t with
    | nil => rfl
    | cons d y =>
      have hj := foldSigma_eq (c := c) (d := 'j') (by decide) (by decide)
      have hcaron := foldSigma_eq (c := d) (d := caron) (by decide) (by decide)
      rw [List.map_cons, compose, compose, apply_ite (List.map foldSigma)]
      exact if_congr (and_congr hj hcaron) rfl rfl

/-- Composing makes a text shorter, or leaves it alone. -/
theorem composeCaron_length (t : Text) :
    (composeCaron t).length < t.length ∨ composeCaron t = t := by
  induction t with
  | nil => exact Or.inr rfl
  | cons c t ih =>
    rw [composeCaron_cons]
    cases hy : composeCaron t with
    | nil =>
      rw [hy] at ih
      rcases ih with hlt | heq
      · exact Or.inl (Nat.succ_lt_succ hlt)
      · exact Or.inr (by rw [← heq]; rfl)
    | cons d y =>
      rw [hy] at ih
      rw [compose]
      split
      · refine Or.inl ?_
        rcases ih with hlt | heq
        · exact Nat.lt_succ_of_lt hlt
        · rw [← heq]
          exact Nat.lt_succ_self _
      · rcases ih with hlt | heq
        · exact Or.inl (Nat.succ_lt_succ hlt)
        · exact Or.inr (by rw [heq])

theorem composeCaron_sigma {t u : Text} (h : t.map foldSigma = u.map foldSigma)
    (ht : composeCaron t = t) : composeCaron u = u := by
  have hmap : (composeCaron u).map foldSigma = u.map foldSigma := by
    rw [← composeCaron_map_foldSigma, ← h, composeCaron_map_foldSigma, ht]
  have hlength := congrArg List.length hmap
  rw [List.length_map, List.length_map] at hlength
  rcases composeCaron_length u with hlt | heq
  · omega
  · exact heq

/-- The Unicode laws hold of these. -/
theorem caron_laws : UnicodeLaws caronPlatform decomposeCaron isLetter where
  nfc_nfc t := by
    show composeCaron (composeCaron t) = composeCaron t
    rw [← composeCaron_decomposeCaron (composeCaron t), decomposeCaron_composeCaron,
      composeCaron_decomposeCaron]
  nfc_nfd := composeCaron_decomposeCaron
  nfd_nfc := decomposeCaron_composeCaron
  nfd_length t u := by rw [decomposeCaron, List.flatMap_append, List.length_append]; rfl
  nfd_nil t h := by
    cases t with
    | nil => rfl
    | cons c t =>
      rw [decomposeCaron, List.flatMap_cons, List.append_eq_nil_iff] at h
      have hc := h.1
      unfold decompose at hc
      split at hc <;> cases hc
  nfc_base := composeCaron_letters
  nfc_start t := startsWith_composeCaron
  nfc_sigma t u := composeCaron_sigma
  base_sigma c := by
    have hcaron := foldSigma_eq (c := c) (d := caron) (by decide) (by decide)
    simp only [isLetter, bne, beq_eq_decide, hcaron]
  lower_append t u := congrArg (List.map foldSigma) List.map_append
  lower_start t h := by
    obtain ⟨c, y, rfl, hc⟩ := h
    refine ⟨c.toLower, y.map Char.toLower, rfl, ?_⟩
    have hne : c.toLower ≠ caron := by
      intro heq
      rcases toLower_cases c with hsame | ⟨hrange, hlower⟩
      · rw [← hsame, heq] at hc
        cases hc
      · rw [heq] at hlower
        have hcaron : caron.toNat = 780 := rfl
        omega
    simpa [isLetter] using hne
  nfc_spaces := composeCaron_spaces
  lower_spaces := .map isPySpace_toLower
  lower_space c hc := by
    show [c.toLower] = [c]
    rw [toLower_of_isPySpace hc]
  lower_congr t u h := by
    have hdecompose : decomposeCaron t = decomposeCaron u := by
      rw [← decomposeCaron_composeCaron t, ← decomposeCaron_composeCaron u]
      exact congrArg decomposeCaron h
    show composeCaron (t.map Char.toLower) = composeCaron (u.map Char.toLower)
    rw [← composeCaron_decomposeCaron, ← map_toLower_decomposeCaron, hdecompose,
      map_toLower_decomposeCaron, composeCaron_decomposeCaron]
  lower_nfc_lower t := by
    have hlower : ∀ c ∈ t.map Char.toLower, c.toLower = c := by
      intro c hc
      obtain ⟨d, -, rfl⟩ := List.mem_map.1 hc
      exact toLower_toLower d
    show (composeCaron (t.map Char.toLower)).map Char.toLower = composeCaron (t.map Char.toLower)
    have hcomposed := @mem_composeCaron (fun c => c.toLower = c) rfl _ hlower
    exact (List.map_congr_left hcomposed).trans (List.map_id _)

/-- The text J̌, a capital J and a combining caron. -/
def capitalJ : Text := ['J', caron]

theorem capitalJ_forms {x : Text} (hx : x ∈ comparedForms caronPlatform decomposeCaron capitalJ) :
    x = ['j', caron] ∨ x = [jCaron] := by
  obtain ⟨s, rfl | hs, rfl⟩ := hx
  · exact Or.inl (by decide)
  · cases hs with
    | lower => exact Or.inr (by decide)
    | ends h => exact Or.inl ((canonicalForm_ends caron_laws h).trans (by decide))
    | nfd => exact Or.inl (by decide)
    | nfc => exact Or.inl (by decide)

theorem canonical_iff_capitalJ :
    (Identified caronPlatform decomposeCaron capitalJ ↔
        ∀ k ∈ letters isLetter capitalJ, ¬ ComposesInLowerCase caronPlatform k) ∧
      (canonicalForm caronPlatform (canonicalForm caronPlatform capitalJ) =
          canonicalForm caronPlatform capitalJ ↔
        ∀ k ∈ letters isLetter capitalJ, ¬ ComposesInLowerCase caronPlatform k) := by
  refine canonical_iff caron_laws capitalJ fun x hx y hy h => ?_
  rcases capitalJ_forms hx with rfl | rfl <;> rcases capitalJ_forms hy with rfl | rfl
  · rfl
  · exact absurd h (by decide)
  · exact absurd h (by decide)
  · rfl

/-- The text and its lower case have different hashes. -/
theorem capitalJ_lower :
    UnicodeLaws caronPlatform decomposeCaron isLetter ∧
      ¬ Identified caronPlatform decomposeCaron capitalJ := by
  refine ⟨caron_laws, fun h => absurd (h _ .lower) (by decide)⟩

end CanonicalHash

end MeJournal
