import Mathlib.Data.List.DropRight

/-!
# Maps that respect spaces

A map of texts is local to spaces if it treats a text space by space and word by word.  Such maps
commute with taking the spaces off both ends.

* `SpaceLocal` — the property; `SpaceLocal.comp`, `SpaceLocal.reverse`.
* `SpaceLocal.strip_comm` — the map of the stripped text is the stripped map.
* `SpaceLocal.strip_fixed_iff` — spaces that stay as they are do not decide a fixed point.
-/

namespace MeJournal

variable {α : Type} {p : α → Bool}

/-- The list without the elements of `p` at its ends. -/
def strip (p : α → Bool) (l : List α) : List α := (l.dropWhile p).rdropWhile p

/-- A list is what is stripped around what is left. -/
theorem strip_ends (p : α → Bool) (l : List α) :
    ∃ a b, l = a ++ strip p l ++ b ∧ (∀ c ∈ a, p c = true) ∧ ∀ c ∈ b, p c = true := by
  refine ⟨l.takeWhile p, (l.dropWhile p).rtakeWhile p, ?_, fun c => List.mem_takeWhile_imp,
    fun c => List.mem_rtakeWhile_imp⟩
  rw [strip, List.append_assoc, List.rdropWhile_append_rtakeWhile,
    List.takeWhile_append_dropWhile]

/-- Stripping a stripped list changes nothing. -/
theorem strip_strip (p : α → Bool) (l : List α) : strip p (strip p l) = strip p l := by
  have hfront : (strip p l).dropWhile p = strip p l := by
    rw [strip]
    cases htrim : l.dropWhile p with
    | nil => rfl
    | cons c rest =>
      have hc : p c = false := by
        have hhead := List.head?_dropWhile_not p l
        rw [htrim] at hhead
        simpa using hhead
      cases hend : (c :: rest).rdropWhile p with
      | nil => rfl
      | cons d rest' =>
        obtain ⟨tail, htail⟩ := List.rdropWhile_prefix p (c :: rest)
        rw [hend] at htail
        rw [List.dropWhile_cons, (List.cons.inj htail).1, hc]
        rfl
  rw [strip, hfront]
  exact List.rdropWhile_idempotent _ _

/-- `f` maps spaces to spaces, words to words, and a text piece by piece. -/
structure SpaceLocal (p : α → Bool) (f : List α → List α) : Prop where
  nil : f [] = []
  append : ∀ x c y, p c = true → f (x ++ c :: y) = f x ++ f [c] ++ f y
  space : ∀ c, p c = true → ∃ c', p c' = true ∧ f [c] = [c']
  word : ∀ x, x ≠ [] → (∀ c ∈ x, p c = false) → f x ≠ [] ∧ ∀ c ∈ f x, p c = false

namespace SpaceLocal

variable {f g : List α → List α}

theorem cons (h : SpaceLocal p f) {c : α} (hc : p c = true) (y : List α) :
    f (c :: y) = f [c] ++ f y := by
  have happend := h.append [] c y hc
  rwa [List.nil_append, h.nil, List.nil_append] at happend

theorem append_left (h : SpaceLocal p f) {a : List α} (ha : ∀ c ∈ a, p c = true) (y : List α) :
    f (a ++ y) = f a ++ f y := by
  induction a with
  | nil => rw [List.nil_append, h.nil, List.nil_append]
  | cons c a ih =>
    have hc : p c = true := ha c (by simp)
    rw [List.cons_append, h.cons hc, h.cons hc a, ih fun d hd => ha d (by simp [hd]),
      List.append_assoc]

theorem append_right (h : SpaceLocal p f) (y : List α) {b : List α} (hb : ∀ c ∈ b, p c = true) :
    f (y ++ b) = f y ++ f b := by
  cases b with
  | nil => rw [List.append_nil, h.nil, List.append_nil]
  | cons c b =>
    have hc : p c = true := hb c (by simp)
    rw [h.append y c b hc, h.cons hc b, List.append_assoc]

/-- Spaces stay spaces. -/
theorem spaces (h : SpaceLocal p f) {a : List α} (ha : ∀ c ∈ a, p c = true) :
    ∀ c ∈ f a, p c = true := by
  induction a with
  | nil =>
    rw [h.nil]
    exact fun c hc => absurd hc List.not_mem_nil
  | cons c a ih =>
    have hc : p c = true := ha c (by simp)
    obtain ⟨c', hc', heq⟩ := h.space c hc
    rw [h.cons hc, heq]
    intro d hd
    rcases List.mem_cons.1 hd with rfl | hd
    · exact hc'
    · exact ih (fun d hd => ha d (by simp [hd])) d hd

/-- A text that starts with a word is mapped to one. -/
theorem head (h : SpaceLocal p f) {c : α} (hc : p c = false) (y : List α) :
    ∃ d l, f (c :: y) = d :: l ∧ p d = false := by
  have hword : ∀ d ∈ c :: y.takeWhile (!p ·), p d = false := by
    intro d hd
    rcases List.mem_cons.1 hd with rfl | hd
    · exact hc
    · simpa using List.mem_takeWhile_imp hd
  obtain ⟨hne, hall⟩ := h.word _ (by simp) hword
  obtain ⟨d, l, hdl⟩ := List.exists_cons_of_ne_nil hne
  have hd : p d = false := hall d (by rw [hdl]; simp)
  have hsplit : c :: y = (c :: y.takeWhile (!p ·)) ++ y.dropWhile (!p ·) := by
    rw [List.cons_append, List.takeWhile_append_dropWhile]
  cases hrest : y.dropWhile (!p ·) with
  | nil => exact ⟨d, l, by rw [hsplit, hrest, List.append_nil, hdl], hd⟩
  | cons s rest =>
    have hs : p s = true := by
      have hhead := List.head?_dropWhile_not (!p ·) y
      rw [hrest] at hhead
      simpa using hhead
    refine ⟨d, l ++ f [s] ++ f rest, ?_, hd⟩
    rw [hsplit, hrest, h.append _ s rest hs, hdl, List.cons_append, List.cons_append]

theorem dropWhile_comm (h : SpaceLocal p f) (x : List α) :
    (f x).dropWhile p = f (x.dropWhile p) := by
  induction x with
  | nil => rw [List.dropWhile_nil, h.nil, List.dropWhile_nil]
  | cons c x ih =>
    cases hc : p c with
    | true =>
      obtain ⟨c', hc', heq⟩ := h.space c hc
      rw [h.cons hc, heq, List.singleton_append, List.dropWhile_cons_of_pos hc', ih,
        List.dropWhile_cons_of_pos hc]
    | false =>
      obtain ⟨d, l, heq, hd⟩ := h.head hc x
      rw [List.dropWhile_cons_of_neg (by simp [hc]), heq,
        List.dropWhile_cons_of_neg (by simp [hd])]

theorem reverse (h : SpaceLocal p f) : SpaceLocal p fun x => (f x.reverse).reverse where
  nil := by simp [h.nil]
  append x c y hc := by
    rw [List.reverse_append, List.reverse_cons, List.append_assoc, List.singleton_append,
      h.append _ c _ hc]
    simp
  space c hc := by
    obtain ⟨c', hc', heq⟩ := h.space c hc
    exact ⟨c', hc', by simp [heq]⟩
  word x hne hx := by
    obtain ⟨hne', hx'⟩ := h.word x.reverse (by simpa using hne) (by simpa using hx)
    exact ⟨by simpa using hne', by simpa using hx'⟩

theorem rdropWhile_comm (h : SpaceLocal p f) (x : List α) :
    (f x).rdropWhile p = f (x.rdropWhile p) := by
  have hreverse := h.reverse.dropWhile_comm x.reverse
  rw [List.reverse_reverse] at hreverse
  rw [List.rdropWhile, hreverse, List.reverse_reverse, List.rdropWhile]

/-- **Mapping and stripping commute.** -/
theorem strip_comm (h : SpaceLocal p f) (x : List α) : strip p (f x) = f (strip p x) := by
  rw [strip, h.dropWhile_comm, h.rdropWhile_comm, strip]

theorem comp (hf : SpaceLocal p f) (hg : SpaceLocal p g) : SpaceLocal p fun x => f (g x) where
  nil := by rw [hg.nil, hf.nil]
  append x c y hc := by
    obtain ⟨c', hc', heq⟩ := hg.space c hc
    rw [hg.append x c y hc, heq, List.append_assoc, List.singleton_append, hf.append _ c' _ hc']
  space c hc := by
    obtain ⟨c', hc', heq⟩ := hg.space c hc
    rw [heq]
    exact hf.space c' hc'
  word x hne hx := by
    obtain ⟨hne', hx'⟩ := hg.word x hne hx
    exact hf.word (g x) hne' hx'

/-- Character by character. -/
theorem map {k : α → α} (hk : ∀ c, p (k c) = p c) : SpaceLocal p (List.map k) where
  nil := rfl
  append x c y _ := by simp
  space c hc := ⟨k c, (hk c).trans hc, rfl⟩
  word x hne hx := by
    refine ⟨by simpa using hne, fun c hc => ?_⟩
    obtain ⟨d, hd, rfl⟩ := List.mem_map.1 hc
    rw [hk, hx d hd]

/-- Spaces that `f` leaves as `g` made them. -/
theorem fixed_spaces (hf : SpaceLocal p f) (hg : SpaceLocal p g)
    (hfix : ∀ c, p c = true → f (g [c]) = g [c]) {a : List α} (ha : ∀ c ∈ a, p c = true) :
    f (g a) = g a := by
  induction a with
  | nil => rw [hg.nil, hf.nil]
  | cons c a ih =>
    have hc : p c = true := ha c (by simp)
    obtain ⟨c', hc', heq⟩ := hg.space c hc
    have hkeep := hfix c hc
    rw [heq] at hkeep
    rw [hg.cons hc, heq, List.singleton_append, hf.cons hc', hkeep,
      ih fun d hd => ha d (by simp [hd]), List.singleton_append]

/-- **Whether `f` fixes `g x` is decided between its spaces**, if it leaves those. -/
theorem strip_fixed_iff (hf : SpaceLocal p f) (hg : SpaceLocal p g)
    (hfix : ∀ c, p c = true → f (g [c]) = g [c]) (x : List α) :
    strip p (f (g x)) = strip p (g x) ↔ f (g x) = g x := by
  refine ⟨fun h => ?_, fun h => by rw [h]⟩
  rw [hf.strip_comm, hg.strip_comm] at h
  obtain ⟨a, b, hx, ha, hb⟩ := strip_ends p x
  have hsplit : g x = g a ++ g (strip p x) ++ g b := by
    conv_lhs => rw [hx]
    rw [hg.append_right _ hb, hg.append_left ha]
  rw [hsplit, hf.append_right _ (hg.spaces hb), hf.append_left (hg.spaces ha), h,
    hf.fixed_spaces hg hfix ha, hf.fixed_spaces hg hfix hb]

end SpaceLocal

end MeJournal
