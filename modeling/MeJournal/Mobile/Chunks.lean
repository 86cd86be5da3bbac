import MeJournal.Mobile.SseParser

/-!
# Chunks

The read loop of `streamChat` in `mobile/lib/api/chat-stream.ts`: the stream arrives in chunks, cut
anywhere, and what `splitSseBlocks` leaves over of one chunk goes before the next one. The parser
normalises what was left over a second time, and a second time turns the `CR LF` that was
`CR CR LF` into a line feed.

* `feed_chunks` — the events of the chunks are those of the whole text when each `CR CR LF` that was
  received before a chunk has a blank line behind it.
* `feedBlocks_eq_iff` — the blocks that the events are read off, and the leftover, are those of the
  whole text in no other case.
* `feed_blocks` — a wire of frames and comments is decoded to its frames, however it is cut.
-/

namespace MeJournal

/-! ## The read loop -/

/-- The loop of `streamChat`: the events routed so far, and `leftover`. -/
def feed (chunks : List Text) : List SseEvent × Text :=
  chunks.foldl
    (fun s chunk =>
      (s.1 ++ (splitSseBlocks chunk s.2).1, (splitSseBlocks chunk s.2).2))
    ([], [])

/-- The same loop, with the blocks that `parseBlock` is given. -/
def feedBlocks (chunks : List Text) : List Text × Text :=
  chunks.foldl
    (fun s chunk => (s.1 ++ (wireBlocks (s.2 ++ chunk)).1, (wireBlocks (s.2 ++ chunk)).2))
    ([], [])

theorem feedBlocks_concat (chunks : List Text) (chunk : Text) :
    feedBlocks (chunks ++ [chunk]) =
      ((feedBlocks chunks).1 ++ (wireBlocks ((feedBlocks chunks).2 ++ chunk)).1,
        (wireBlocks ((feedBlocks chunks).2 ++ chunk)).2) := by
  rw [feedBlocks, List.foldl_append, ← feedBlocks]
  rfl

/-- The events are read off the blocks. -/
theorem feed_eq_feedBlocks (chunks : List Text) :
    feed chunks = ((feedBlocks chunks).1.filterMap parseBlock, (feedBlocks chunks).2) := by
  induction chunks using List.reverseRecOn with
  | nil => rfl
  | append_singleton chunks chunk ih =>
    rw [feedBlocks_concat, feed, List.foldl_append, ← feed, ih, List.filterMap_append]
    rfl

/-- Each `CR CR LF` of the text has a blank line behind it. -/
def Settled (t : Text) : Prop :=
  ∀ a b, t = a ++ '\r' :: '\r' :: '\n' :: b → ['\n', '\n'] <:+: normalizeCrlf ('\n' :: b)

/-- What was received is settled whenever one more chunk arrives. -/
def SettledCuts (chunks : List Text) : Prop :=
  ∀ n < chunks.length, Settled (chunks.take n).flatten

theorem settledCuts_concat {chunks : List Text} {chunk : Text} :
    SettledCuts (chunks ++ [chunk]) ↔ SettledCuts chunks ∧ Settled chunks.flatten := by
  constructor
  · intro h
    refine ⟨fun n hn => ?_, ?_⟩
    · have hcut := h n (by simp; omega)
      rwa [List.take_append_of_le_length (Nat.le_of_lt hn)] at hcut
    · simpa using h chunks.length (by simp)
  · rintro ⟨hcuts, hall⟩ n hn
    rw [List.length_append, List.length_singleton] at hn
    rw [List.take_append_of_le_length (by omega)]
    by_cases hlast : n = chunks.length
    · rwa [hlast, List.take_length]
    · exact hcuts n (by omega)

/-! ## When a second pass changes nothing -/

theorem splitBlocks_eq_nil_iff {t : Text} :
    (splitBlocks t).1 = [] ↔ ¬['\n', '\n'] <:+: t := by
  induction t using splitBlocks.induct with
  | case1 t ih =>
    refine iff_of_false (by simp [splitBlocks]) (not_not_intro ?_)
    exact (List.prefix_append ['\n', '\n'] t).isInfix
  | case2 c t hne ih =>
    have hbeg : ¬['\n', '\n'] <+: c :: t := by
      rintro ⟨t', ht⟩
      obtain ⟨hc, htail⟩ := List.cons.inj ht
      exact hne t' hc.symm htail.symm
    rw [splitBlocks_cons_of_not hne, consBlock_fst_eq_nil, ih, List.infix_cons_iff]
    simp [hbeg]
  | case3 => simp [splitBlocks]

/-- A line end after normalising was one with a second carriage return before. -/
theorem normalizeCrlf_eq_append {t a' b' : Text}
    (h : normalizeCrlf t = a' ++ '\r' :: '\n' :: b') :
    ∃ a b, t = a ++ '\r' :: '\r' :: '\n' :: b ∧ normalizeCrlf ('\n' :: b) = '\n' :: b' := by
  induction t using normalizeCrlf.induct generalizing a' with
  | case1 t ih =>
    rw [normalizeCrlf_crlf] at h
    cases a' with
    | nil => exact absurd (List.cons.inj h).1 (by decide)
    | cons d a' =>
      obtain ⟨a, b, rfl, hb⟩ := ih (List.cons.inj h).2
      exact ⟨'\r' :: '\n' :: a, b, rfl, hb⟩
  | case2 c t hne ih =>
    rw [normalizeCrlf.eq_2 _ _ hne] at h
    cases a' with
    | nil =>
      obtain ⟨hc, ht⟩ := List.cons.inj h
      rw [normalizeCrlf.eq_def] at ht
      split at ht
      · rename_i b
        refine ⟨[], b, by rw [hc]; rfl, ?_⟩
        rw [normalizeCrlf_cons (Or.inl (by decide)), (List.cons.inj ht).2]
      · rename_i d b _
        exact (hne b hc (by rw [(List.cons.inj ht).1])).elim
      · cases ht
    | cons d a' =>
      obtain ⟨a, b, rfl, hb⟩ := ih (List.cons.inj h).2
      exact ⟨c :: a, b, rfl, hb⟩
  | case3 => simp [normalizeCrlf] at h

/-- A text is settled when what is left over of it has no line end that was not normalised. -/
theorem settled_iff {t : Text} :
    Settled t ↔ normalizeCrlf (wireBlocks t).2 = (wireBlocks t).2 := by
  rw [normalizeCrlf_eq_self_iff]
  constructor
  · rintro h ⟨p, q, hrest⟩
    obtain ⟨done, hdone⟩ := splitBlocks_rest_suffix (normalizeCrlf t)
    have hwhole : normalizeCrlf t = (done ++ p) ++ '\r' :: '\n' :: q := by
      rw [← hdone, ← wireBlocks, ← hrest]
      simp
    obtain ⟨a, b, ht, hb⟩ := normalizeCrlf_eq_append hwhole
    have hblank := h a b ht
    rw [hb] at hblank
    refine splitBlocks_eq_nil_iff.1 (splitBlocks_rest_blocks (normalizeCrlf t)) ?_
    rw [← wireBlocks, ← hrest]
    exact hblank.trans ⟨p ++ ['\r'], [], by simp⟩
  · intro h a b ht
    by_contra hblank
    have hend : normalizeCrlf ('\n' :: b) = '\n' :: normalizeCrlf b :=
      normalizeCrlf_cons (Or.inl (by decide))
    have hwhole : normalizeCrlf t = normalizeCrlf a ++ '\r' :: normalizeCrlf ('\n' :: b) := by
      rw [ht, normalizeCrlf_append_of fun _ => by simp, normalizeCrlf_cons (Or.inr (by simp)),
        normalizeCrlf_crlf, hend]
    have hnone : (splitBlocks ((splitBlocks (normalizeCrlf a)).2 ++
        '\r' :: normalizeCrlf ('\n' :: b))).1 = [] :=
      splitBlocks_append_cons (by decide) (splitBlocks_rest_blocks _)
        (splitBlocks_eq_nil_iff.2 hblank)
    refine h ⟨(splitBlocks (normalizeCrlf a)).2, normalizeCrlf b, ?_⟩
    rw [wireBlocks, hwhole, splitBlocks_append, splitBlocks_rest hnone, hend]
    simp

/-! ## Chunks and the whole text -/

/-- **The blocks of the chunks are those of the whole text when the cuts are settled.** -/
theorem feedBlocks_eq {chunks : List Text} (h : SettledCuts chunks) :
    feedBlocks chunks = wireBlocks chunks.flatten := by
  induction chunks using List.reverseRecOn with
  | nil => rfl
  | append_singleton chunks chunk ih =>
    obtain ⟨hcuts, hall⟩ := settledCuts_concat.1 h
    rw [feedBlocks_concat, ih hcuts, List.flatten_append, List.flatten_singleton,
      wireBlocks_append_of (settled_iff.1 hall)]

/-! ## Cuts that are not settled -/

theorem count_normalizeCrlf_le (t : Text) : (normalizeCrlf t).count '\r' ≤ t.count '\r' := by
  induction t using normalizeCrlf.induct with
  | case1 t ih =>
    rw [normalizeCrlf_crlf]
    simp
    omega
  | case2 c t hne ih =>
    rw [normalizeCrlf.eq_2 _ _ hne, List.count_cons, List.count_cons]
    omega
  | case3 => rfl

/-- Normalising that changes the text takes a carriage return out of it. -/
theorem count_normalizeCrlf_lt {t : Text} (h : normalizeCrlf t ≠ t) :
    (normalizeCrlf t).count '\r' < t.count '\r' := by
  induction t using normalizeCrlf.induct with
  | case1 t ih =>
    have hle := count_normalizeCrlf_le t
    rw [normalizeCrlf_crlf]
    simp
    omega
  | case2 c t hne ih =>
    rw [normalizeCrlf.eq_2 _ _ hne] at h ⊢
    have hlt := ih fun heq => h (by rw [heq])
    rw [List.count_cons, List.count_cons]
    omega
  | case3 => exact (h rfl).elim

/-- The carriage returns that are still there. -/
def crs (s : List Text × Text) : Nat := (s.1.flatten ++ s.2).count '\r'

theorem crs_splitBlocks (t : Text) : crs (splitBlocks t) = t.count '\r' := by
  induction t using splitBlocks.induct with
  | case1 t ih => simpa [splitBlocks, crs] using ih
  | case2 c t hne ih =>
    rw [splitBlocks_cons_of_not hne, List.count_cons, ← ih]
    obtain ⟨blocks, rest⟩ := splitBlocks t
    cases blocks <;> simp [consBlock, crs, List.count_cons]
  | case3 => rfl

theorem crs_wireBlocks (t : Text) : crs (wireBlocks t) = (normalizeCrlf t).count '\r' :=
  crs_splitBlocks _

theorem Cut.endsCr {a tail : Text} (h : Cut a tail) : EndsCr (a ++ tail) ↔ tail = ['\r'] := by
  rcases h with rfl | ⟨rfl, ha⟩
  · simp [EndsCr]
  · simpa using ha

theorem endsCr_wireBlocks {t : Text} : EndsCr (wireBlocks t).2 ↔ EndsCr t := by
  obtain ⟨a, tail, rfl, hcut⟩ := exists_cut t
  rw [hcut.wireBlocks, hcut.rest.endsCr, hcut.endsCr]

theorem endsCr_append {a b t : Text} (h : EndsCr a ↔ EndsCr b) :
    EndsCr (a ++ t) ↔ EndsCr (b ++ t) := by
  rw [EndsCr, EndsCr, List.getLast?_append, List.getLast?_append]
  cases t.getLast? with
  | none => exact h
  | some c => rfl

/-- A chunk takes no fewer carriage returns from a leftover than from the text received. -/
theorem count_normalizeCrlf_append {l r : Text} (h : EndsCr l ↔ EndsCr r) (chunk : Text) :
    (normalizeCrlf (l ++ chunk)).count '\r' + (normalizeCrlf r).count '\r' +
        (l.count '\r' - (normalizeCrlf l).count '\r') =
      l.count '\r' + (normalizeCrlf (r ++ chunk)).count '\r' := by
  obtain ⟨a, tail, rfl, hcut⟩ := exists_cut r
  obtain ⟨b, tail', rfl, hcut'⟩ := exists_cut l
  obtain rfl : tail' = tail := by
    rw [hcut.endsCr, hcut'.endsCr] at h
    rcases hcut.tail_eq with rfl | rfl <;> rcases hcut'.tail_eq with rfl | rfl <;> simp_all
  have hle := count_normalizeCrlf_le b
  rw [hcut.normalize, hcut'.normalize, hcut.normalize_self, hcut'.normalize_self]
  simp only [List.count_append]
  omega

/-- What the chunks leave ends in a carriage return when the text does, and holds no more carriage
returns than what the whole text leaves; less when a cut was not settled. -/
theorem crs_feedBlocks (chunks : List Text) :
    (EndsCr (feedBlocks chunks).2 ↔ EndsCr chunks.flatten) ∧
      crs (feedBlocks chunks) ≤ crs (wireBlocks chunks.flatten) ∧
      (¬SettledCuts chunks → crs (feedBlocks chunks) < crs (wireBlocks chunks.flatten)) := by
  induction chunks using List.reverseRecOn with
  | nil =>
    refine ⟨Iff.rfl, le_rfl, fun h => (h fun n hn => ?_).elim⟩
    cases hn
  | append_singleton chunks chunk ih =>
    obtain ⟨hends, hle, hlt⟩ := ih
    have hchunk := count_normalizeCrlf_append hends chunk
    have hpass := count_normalizeCrlf_le (feedBlocks chunks).2
    have hcrs : crs (feedBlocks (chunks ++ [chunk])) =
        (feedBlocks chunks).1.flatten.count '\r' +
          (normalizeCrlf ((feedBlocks chunks).2 ++ chunk)).count '\r' := by
      rw [feedBlocks_concat, ← crs_wireBlocks]
      simp [crs]
    have hbefore : crs (feedBlocks chunks) =
        (feedBlocks chunks).1.flatten.count '\r' + (feedBlocks chunks).2.count '\r' := by
      rw [crs, List.count_append]
    rw [List.flatten_append, List.flatten_singleton]
    rw [crs_wireBlocks] at hle hlt ⊢
    refine ⟨?_, by omega, fun hcuts => ?_⟩
    · rw [feedBlocks_concat, endsCr_wireBlocks]
      exact endsCr_append hends
    · by_cases hprev : SettledCuts chunks
      · have hnot : ¬Settled chunks.flatten := fun hall =>
          hcuts (settledCuts_concat.2 ⟨hprev, hall⟩)
        rw [settled_iff, ← feedBlocks_eq hprev] at hnot
        have hless := count_normalizeCrlf_lt hnot
        omega
      · have hless := hlt hprev
        omega

/-- **In no other case are the blocks and the leftover those of the whole text.** -/
theorem feedBlocks_eq_iff {chunks : List Text} :
    feedBlocks chunks = wireBlocks chunks.flatten ↔ SettledCuts chunks := by
  refine ⟨fun h => ?_, feedBlocks_eq⟩
  by_contra hcuts
  have hlt := (crs_feedBlocks chunks).2.2 hcuts
  rw [h] at hlt
  exact lt_irrefl _ hlt

/-- **The events of the chunks are those of the whole text, however it is cut, as long as each
`CR CR LF` has a blank line behind it when the next chunk arrives; and the blocks that the events
are read off, with the leftover, are those of the whole text in no other case.** -/
theorem feed_chunks (chunks : List Text) :
    (SettledCuts chunks → (feed chunks).1 = (splitSseBlocks chunks.flatten []).1) ∧
      (feedBlocks chunks = wireBlocks chunks.flatten ↔ SettledCuts chunks) := by
  refine ⟨fun h => ?_, feedBlocks_eq_iff⟩
  rw [feed_eq_feedBlocks, feedBlocks_eq h]
  rfl

/-- A chunk that ends in `CR CR LF` after a line of data, and the line feed that ends the block:
the data lost its carriage return. -/
theorem feed_chunks_cr :
    let wire := ["event: a\ndata: x\r\r\n".toList, "\n".toList]
    (feed wire).1 = [⟨"a".toList, "x".toList⟩] ∧
      (splitSseBlocks wire.flatten []).1 = [⟨"a".toList, "x\r".toList⟩] ∧
      ¬∀ chunks, (feed chunks).1 = (splitSseBlocks chunks.flatten []).1 := by
  refine ⟨by decide +kernel, by decide +kernel, fun h => ?_⟩
  exact absurd (h ["event: a\ndata: x\r\r\n".toList, "\n".toList]) (by decide +kernel)

/-! ## Frames in chunks -/

theorem Paired.settled {t : Text} (h : Paired t) : Settled t := settled_iff.2 h.normalizeCrlf_rest

/-- Where line ends are paired, any cut is settled. -/
theorem Paired.settledCuts {chunks : List Text} (h : Paired chunks.flatten) :
    SettledCuts chunks := by
  intro n _
  have hbeg : (chunks.take n).flatten <+: chunks.flatten := by
    conv_rhs => rw [← List.take_append_drop n chunks, List.flatten_append]
    exact List.prefix_append _ _
  rw [List.prefix_iff_eq_take.1 hbeg]
  exact (h.take _).settled

/-- **Decoding undoes encoding: the events of any wire of frames and comments, ended by `CR LF` or
by `LF` and cut anywhere, are the frames in order, and nothing is left over.** -/
theorem feed_blocks {bs : List WireBlock} (h : ∀ b ∈ bs, b.WellFormed) {chunks : List Text}
    (hwire : chunks.flatten = bs.flatMap WireBlock.text) :
    feed chunks = (bs.filterMap WireBlock.event?, []) := by
  have hcuts : SettledCuts chunks := by
    apply Paired.settledCuts
    rw [hwire]
    exact WireBlock.paired_flatMap h
  rw [feed_eq_feedBlocks, feedBlocks_eq hcuts, hwire, wireBlocks_flatMap h, List.filterMap_map]
  congr 1
  exact List.filterMap_congr fun b hb => parseBlock_block (h b hb)

/-- A comment, a frame that ends in `CR LF` and one that ends in `LF`, cut in a line end. -/
theorem feed_blocks_two :
    feed [": ping\r".toList, "\n\nevent: a\r\ndata: x\r\n\r".toList, [],
        "\nevent: b\ndata: y\n\n".toList] =
      ([⟨"a".toList, "x".toList⟩, ⟨"b".toList, "y".toList⟩], []) :=
  @feed_blocks
    [.comment " ping".toList .crlf .lf, .event ⟨"a".toList, "x".toList⟩ .crlf,
      .event ⟨"b".toList, "y".toList⟩ .lf]
    (by decide) _ (by decide)

end MeJournal
