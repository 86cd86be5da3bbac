import MeJournal.Memory.OwnRows

/-!
# Hits and the rows they name

`search_memories` on the backend's path.  The query selects a row for a hit by
`external_id = doc_id` or `id = UUID(doc_id)` (`Memory.selected`); the dictionary gives a hit the
row whose `str(id)` or non-empty `external_id` is the document id (`Memory.keyed`), the last one
the database returned if there are several.

* `byDocId_get?_eq` — the dictionary is a search from the back of the rows.
* `Hydrated` — what a search over the backend should return.
* `Unambiguous` — the condition on rows and hits.
* `hydrated_iff` — the first holds exactly under the second.
-/

namespace MeJournal

variable {R : Type}

namespace Hydration

/-! ## Two predicates -/

/-- A live row of the user. -/
def Mine (memories : MemoryTable) (userId : UUID) (m : Memory) : Prop :=
  m ∈ memories.rows ∧ m.userId = userId ∧ m.live

theorem mine_congr {userId : UUID} {t u : MemoryTable} (h : SameOwn userId t u) {m : Memory} :
    Mine t userId m ↔ Mine u userId m := by
  constructor
  · rintro ⟨hm, huser, hlive⟩
    exact ⟨(h m huser).1 hm, huser, hlive⟩
  · rintro ⟨hm, huser, hlive⟩
    exact ⟨(h m huser).2 hm, huser, hlive⟩

/-- The predicate of the query. -/
def selected (m : Memory) (docId : String) : Prop :=
  m.externalId = some docId ∨ uuidOf docId.toList = some m.id

/-- The keys of a row in the dictionary. -/
def keyed (docId : String) (m : Memory) : Bool :=
  docId = m.idText || (m.externalId = some docId && !docId.isEmpty)

/-- A document id is a key of one of the user's live rows at most. -/
def OneRow (memories : MemoryTable) (userId : UUID) (docId : String) : Prop :=
  ∀ m m', Mine memories userId m → Mine memories userId m' →
    keyed docId m = true → keyed docId m' = true → m = m'

theorem keyed_iff {docId : String} {m : Memory} :
    keyed docId m = true ↔
      docId = m.idText ∨ (m.externalId = some docId ∧ docId.isEmpty = false) := by
  simp [keyed]

theorem selected_of_keyed {docId : String} {m : Memory} (h : keyed docId m = true) :
    selected m docId := by
  rcases keyed_iff.1 h with rfl | ⟨hext, -⟩
  · refine Or.inr ?_
    rw [Memory.idText, String.toList_ofList]
    exact uuidOf_uuidText m.id
  · exact Or.inl hext

/-- The query selects the rows with the predicate for one of the hits. -/
theorem mem_candidates_iff {memories : MemoryTable} {userId : UUID} {docIds : List String}
    {m : Memory} : m ∈ candidates memories userId docIds ↔
      Mine memories userId m ∧ ∃ d ∈ docIds, selected m d := by
  have hselected : ((docIds.filterMap fun d => uuidOf d.toList).contains m.id ||
      m.externalId.any docIds.contains) = true ↔ ∃ d ∈ docIds, selected m d := by
    cases hext : m.externalId with
    | none => simp [selected, hext]
    | some x =>
      simp only [selected, hext, Option.any_some, Bool.or_eq_true, List.contains_iff_mem,
        List.mem_filterMap, Option.some_inj]
      constructor
      · rintro (⟨d, hd, huuid⟩ | hx)
        · exact ⟨d, hd, Or.inr huuid⟩
        · exact ⟨x, hx, Or.inl rfl⟩
      · rintro ⟨d, hd, rfl | huuid⟩
        · exact Or.inr hd
        · exact Or.inl ⟨d, hd, huuid⟩
  rw [candidates, List.mem_filter, Bool.and_eq_true, Bool.and_eq_true, hselected]
  simp only [Mine, Memory.live, decide_eq_true_eq, Option.isNone_iff_eq_none]
  tauto

/-! ## The dictionary -/

theorem get?_indexRow (byDoc : Dict String Memory) (r : Memory) (docId : String) :
    (indexRow byDoc r).get? docId = if keyed docId r then some r else byDoc.get? docId := by
  have hid : (byDoc.set r.idText r).get? docId =
      if docId = r.idText then some r else byDoc.get? docId := by
    split
    · rename_i heq
      rw [heq, Dict.get?_set]
    · rename_i hne
      exact Dict.get?_set_of_ne _ _ hne
  rw [indexRow]
  cases hext : r.externalId with
  | none => simp [hid, keyed, hext]
  | some x =>
    dsimp only
    split
    · rename_i hempty
      have hkeyed : keyed docId r = decide (docId = r.idText) := by
        by_cases hx : x = docId
        · subst hx
          simp [keyed, hempty]
        · simp [keyed, hext, hx]
      rw [hid, hkeyed]
      simp only [decide_eq_true_eq]
    · rename_i hne
      by_cases hx : docId = x
      · subst hx
        have hkeyed : keyed docId r = true := keyed_iff.2 (Or.inr ⟨hext, by simpa using hne⟩)
        rw [Dict.get?_set, if_pos hkeyed]
      · have hkeyed : keyed docId r = decide (docId = r.idText) := by
          simp [keyed, hext, Ne.symm hx]
        rw [Dict.get?_set_of_ne _ _ hx, hid, hkeyed]
        simp only [decide_eq_true_eq]

/-- **The dictionary gives a document id the last row with that key.** -/
theorem byDocId_get?_eq (rows : List Memory) (docId : String) :
    (byDocId rows).get? docId = rows.reverse.find? (keyed docId) := by
  rw [byDocId]
  induction rows using List.reverseRecOn with
  | nil => rfl
  | append_singleton rows r ih =>
    rw [List.foldl_append, List.foldl_cons, List.foldl_nil, get?_indexRow, ih, List.reverse_append,
      List.reverse_singleton, List.singleton_append, List.find?_cons]
    cases keyed docId r with
    | true => rfl
    | false => rfl

/-- The row a hit gets, when the candidates come back in the order `o`. -/
def attachedRow (o : RowOrder) (memories : MemoryTable) (userId : UUID)
    (smHits : List SearchHit) (h : SearchHit) : Option Memory :=
  (o.order (candidates memories userId (smHits.map SearchHit.docId))).reverse.find?
    (keyed h.docId)

section

variable {o : RowOrder} {memories : MemoryTable} {userId : UUID} {smHits : List SearchHit}

theorem mem_order_candidates (o : RowOrder) {h : SearchHit} (hh : h ∈ smHits) {m : Memory}
    (hkeyed : keyed h.docId m = true) :
    m ∈ o.order (candidates memories userId (smHits.map SearchHit.docId)) ↔
      Mine memories userId m := by
  rw [(o.order_perm _).mem_iff, mem_candidates_iff]
  constructor
  · exact And.left
  · intro hmine
    exact ⟨hmine, h.docId, List.mem_map_of_mem hh, selected_of_keyed hkeyed⟩

/-- A hit gets one of the user's live rows with its key. -/
theorem attachedRow_some {h : SearchHit} (hh : h ∈ smHits) {m : Memory}
    (hm : attachedRow o memories userId smHits h = some m) :
    Mine memories userId m ∧ keyed h.docId m = true := by
  have hkeyed := List.find?_some hm
  have hmem := List.mem_reverse.1 (List.mem_of_find?_eq_some hm)
  exact ⟨(mem_order_candidates o hh hkeyed).1 hmem, hkeyed⟩

/-- It gets none only if there is none. -/
theorem attachedRow_none {h : SearchHit} (hh : h ∈ smHits)
    (hnone : attachedRow o memories userId smHits h = none) {m : Memory}
    (hmine : Mine memories userId m) : keyed h.docId m = false := by
  by_contra hkeyed
  have hkeyed' : keyed h.docId m = true := by simpa using hkeyed
  have hmem := (mem_order_candidates o hh hkeyed').2 hmine
  exact List.find?_eq_none.1 hnone m (List.mem_reverse.2 hmem) hkeyed'

end

/-- The hits, each with the row it gets. -/
theorem lookupHits_eq (sp : SearchPlatform) (memories : MemoryTable) (userId : UUID)
    (smHits : List SearchHit) : lookupHits sp memories userId smHits =
      if (smHits.map SearchHit.docId).any fun d => d.toList.contains '\x00' then
        .error (.raised nulDataError.exc)
      else .ok ⟨smHits.filterMap fun h =>
        (attachedRow sp.toRowOrder memories userId smHits h).map (·, some h.similarity),
          .supermemory⟩ := by
  rw [lookupHits]
  cases smHits with
  | nil => rfl
  | cons h hs =>
    simp only [List.isEmpty_cons, Bool.false_eq_true, if_false, hydrate, byDocId_get?_eq]
    rfl

theorem searchMemories_hits {sp : SearchPlatform} {client : SearchClient R} {userId : UUID}
    {q : Text} {limit : Int} {w : World R} {smHits : List SearchHit}
    (hanswer : (client.search w.remote (searchCall userId q limit)).1 = .ok smHits) :
    (searchMemories sp client userId q limit w).1 = lookupHits sp w.memories userId smHits := by
  rw [searchMemories, hanswer]

/-! ## The property and the condition -/

/-- What the search returns, whatever the order of the candidate rows: the hits in their order with
their similarities, each with a live row of the user, no row twice; a hit is dropped only if the
query's predicate holds of no live row of the user. -/
def Hydrated (client : SearchClient R) (userId : UUID) (q : Text) (limit : Int) (w : World R)
    (smHits : List SearchHit) : Prop :=
  ∃ attached : SearchHit → Option Memory,
    (∀ sp, (searchMemories sp client userId q limit w).1 = .ok
      ⟨smHits.filterMap fun h => (attached h).map (·, some h.similarity), .supermemory⟩) ∧
    (∀ h ∈ smHits, ∀ m, attached h = some m → Mine w.memories userId m) ∧
    (smHits.filterMap attached).Nodup ∧
    ∀ h ∈ smHits, attached h = none → ∀ m, Mine w.memories userId m → ¬ selected m h.docId

/-- The hits name the user's live rows one to one, by the keys of the dictionary. -/
structure Unambiguous (memories : MemoryTable) (userId : UUID) (smHits : List SearchHit) :
    Prop where
  no_nul : ∀ h ∈ smHits, '\x00' ∉ h.docId.toList
  one_row : ∀ h ∈ smHits, ∀ m m', Mine memories userId m → Mine memories userId m' →
    keyed h.docId m = true → keyed h.docId m' = true → m = m'
  one_hit : ∀ h ∈ smHits, ∀ h' ∈ smHits, ∀ m, Mine memories userId m →
    keyed h.docId m = true → keyed h'.docId m = true → h = h'
  /-- A document id that the query takes for a row's is also a key of a row: it is not merely
  another spelling of an id, nor an empty `external_id`. -/
  spelled : ∀ h ∈ smHits, ∀ m, Mine memories userId m → selected m h.docId →
    ∃ m', Mine memories userId m' ∧ keyed h.docId m' = true

/-! ## Rows in any order -/

/-- The database returns `m` after all other rows. -/
def lastOrder (m : Memory) : RowOrder where
  order rows := (rows.filter fun r => r ≠ m) ++ rows.filter fun r => !decide (r ≠ m)
  order_perm rows := List.filter_append_perm _ rows

/-- The row returned last is the one a hit with its key gets. -/
theorem attachedRow_last {memories : MemoryTable} {userId : UUID} {smHits : List SearchHit}
    {h : SearchHit} (hh : h ∈ smHits) {m : Memory} (hmine : Mine memories userId m)
    (hkeyed : keyed h.docId m = true) :
    attachedRow (lastOrder m) memories userId smHits h = some m := by
  have hmem : m ∈ candidates memories userId (smHits.map SearchHit.docId) :=
    mem_candidates_iff.2 ⟨hmine, h.docId, List.mem_map_of_mem hh, selected_of_keyed hkeyed⟩
  rw [attachedRow, lastOrder, List.reverse_append, List.find?_append]
  generalize candidates memories userId (smHits.map SearchHit.docId) = rows at hmem
  have hlast : (rows.filter fun r => !decide (r ≠ m)).reverse.find? (keyed h.docId) = some m := by
    cases hfind : (rows.filter fun r => !decide (r ≠ m)).reverse.find? (keyed h.docId) with
    | none =>
      have hmem' : m ∈ (rows.filter fun r => !decide (r ≠ m)).reverse := by simpa using hmem
      exact absurd hkeyed (List.find?_eq_none.1 hfind m hmem')
    | some r =>
      have hr := List.mem_reverse.1 (List.mem_of_find?_eq_some hfind)
      have heq : r = m := by simpa using (List.mem_filter.1 hr).2
      rw [heq]
  rw [hlast]
  rfl

/-- A hit that keys at most one row of the user gets that one, in every order and whatever other
users store. -/
theorem attachedRow_congr {userId : UUID} {t u : MemoryTable} {smHits : List SearchHit}
    (hown : SameOwn userId t u) {h : SearchHit} (hh : h ∈ smHits)
    (hone : OneRow t userId h.docId) (o o' : RowOrder) :
    attachedRow o t userId smHits h = attachedRow o' u userId smHits h := by
  cases hm : attachedRow o t userId smHits h with
  | none =>
    cases hm' : attachedRow o' u userId smHits h with
    | none => rfl
    | some m' =>
      obtain ⟨hmine', hkeyed'⟩ := attachedRow_some hh hm'
      rw [attachedRow_none hh hm ((mine_congr hown).2 hmine')] at hkeyed'
      cases hkeyed'
  | some m =>
    obtain ⟨hmine, hkeyed⟩ := attachedRow_some hh hm
    cases hm' : attachedRow o' u userId smHits h with
    | none =>
      rw [attachedRow_none hh hm' ((mine_congr hown).1 hmine)] at hkeyed
      cases hkeyed
    | some m' =>
      obtain ⟨hmine', hkeyed'⟩ := attachedRow_some hh hm'
      rw [hone m m' hmine ((mine_congr hown).2 hmine') hkeyed hkeyed']

theorem length_filterMap_le {α β : Type*} {f g : α → Option β} {l : List α}
    (hle : ∀ a ∈ l, g a = none → f a = none) : (l.filterMap f).length ≤ (l.filterMap g).length := by
  induction l with
  | nil => exact le_rfl
  | cons a l ih =>
    have ih' := ih fun a' ha' => hle a' (List.mem_cons_of_mem a ha')
    have ha := hle a List.mem_cons_self
    cases hg : g a with
    | none =>
      rw [List.filterMap_cons_none (ha hg), List.filterMap_cons_none hg]
      exact ih'
    | some b =>
      rw [List.filterMap_cons_some hg, List.length_cons]
      cases hf : f a with
      | none =>
        rw [List.filterMap_cons_none hf]
        omega
      | some b' =>
        rw [List.filterMap_cons_some hf, List.length_cons]
        omega

/-- A selection that drops no less and gives the same list is the same selection. -/
theorem eq_of_filterMap_eq {α β : Type*} {f g : α → Option β} {l : List α}
    (hle : ∀ a ∈ l, g a = none → f a = none) (heq : l.filterMap f = l.filterMap g) :
    ∀ a ∈ l, f a = g a := by
  induction l with
  | nil => exact fun a ha => absurd ha List.not_mem_nil
  | cons a l ih =>
    have hle' : ∀ a' ∈ l, g a' = none → f a' = none :=
      fun a' ha' => hle a' (List.mem_cons_of_mem a ha')
    have ha := hle a List.mem_cons_self
    suffices hboth : f a = g a ∧ l.filterMap f = l.filterMap g by
      intro a' ha'
      rcases List.mem_cons.1 ha' with rfl | ha'
      · exact hboth.1
      · exact ih hle' hboth.2 a' ha'
    cases hg : g a with
    | none =>
      rw [List.filterMap_cons_none (ha hg), List.filterMap_cons_none hg] at heq
      exact ⟨ha hg, heq⟩
    | some b =>
      rw [List.filterMap_cons_some hg] at heq
      cases hf : f a with
      | none =>
        rw [List.filterMap_cons_none hf] at heq
        have hlength := congrArg List.length heq
        have hshort := length_filterMap_le hle'
        rw [List.length_cons] at hlength
        omega
      | some b' =>
        rw [List.filterMap_cons_some hf, List.cons.injEq] at heq
        exact ⟨congrArg some heq.1, heq.2⟩

section

variable {client : SearchClient R} {userId : UUID} {q : Text} {limit : Int} {w : World R}
  {smHits : List SearchHit}
  (hanswer : (client.search w.remote (searchCall userId q limit)).1 = .ok smHits)
include hanswer

/-- What `Hydrated` says of the rows attached in any order: they are always the same ones. -/
theorem Hydrated.attachedRow_eq {attached : SearchHit → Option Memory}
    (hresult : ∀ sp, (searchMemories sp client userId q limit w).1 = .ok
      ⟨smHits.filterMap fun h => (attached h).map (·, some h.similarity), .supermemory⟩)
    (hdropped : ∀ h ∈ smHits, attached h = none →
      ∀ m, Mine w.memories userId m → ¬ selected m h.docId) (sp : SearchPlatform) :
    ∀ h ∈ smHits, attachedRow sp.toRowOrder w.memories userId smHits h = attached h := by
  have hlist := hresult sp
  rw [searchMemories_hits hanswer, lookupHits_eq] at hlist
  split at hlist
  · cases hlist
  simp only [Except.ok.injEq, SearchResult.mk.injEq, and_true] at hlist
  intro h hh
  have heq := eq_of_filterMap_eq (fun h hh hnone => ?_) hlist h hh
  · exact Option.map_injective (fun m m' hm => congrArg Prod.fst hm) heq
  · rw [Option.map_eq_none_iff] at hnone ⊢
    by_contra hsome
    obtain ⟨m, hm⟩ := Option.ne_none_iff_exists'.1 hsome
    obtain ⟨hmine, hkeyed⟩ := attachedRow_some hh hm
    exact hdropped h hh hnone m hmine (selected_of_keyed hkeyed)

theorem Hydrated.unambiguous (h : Hydrated client userId q limit w smHits) :
    Unambiguous w.memories userId smHits := by
  obtain ⟨attached, hresult, hmine, hnodup, hdropped⟩ := h
  have hattached := Hydrated.attachedRow_eq hanswer hresult hdropped
  -- the row that comes back last is attached, so every row with the key is
  have hkeyed : ∀ h ∈ smHits, ∀ m, Mine w.memories userId m → keyed h.docId m = true →
      attached h = some m := fun h hh m hm hkeyed =>
    (hattached (tableOrder.inOrder (lastOrder m)) h hh).symm.trans (attachedRow_last hh hm hkeyed)
  refine ⟨fun h hh hnul => ?_, fun h hh m m' hm hm' hk hk' => ?_, fun h hh h' hh' m hm hk hk' => ?_,
    fun h hh m hm hselected => ?_⟩
  · have hlist := hresult tableOrder
    rw [searchMemories_hits hanswer, lookupHits_eq, if_pos] at hlist
    · cases hlist
    · exact List.any_eq_true.2 ⟨h.docId, List.mem_map_of_mem hh, by simpa using hnul⟩
  · exact Option.some_inj.1 ((hkeyed h hh m hm hk).symm.trans (hkeyed h hh m' hm' hk'))
  · by_contra hne
    have hpair := List.pairwise_filterMap.1 hnodup
    have hsymm : Std.Symm fun a a' : SearchHit => ∀ b, attached a = some b →
        ∀ b', attached a' = some b' → b ≠ b' :=
      ⟨fun _ _ hdiff b hb b' hb' => (hdiff b' hb' b hb).symm⟩
    exact hpair.forall hh hh' hne m (hkeyed h hh m hm hk) m (hkeyed h' hh' m hm hk') rfl
  · by_contra hnone
    have hdrop : attached h = none := by
      rw [← hattached tableOrder h hh]
      by_contra hsome
      obtain ⟨m', hm'⟩ := Option.ne_none_iff_exists'.1 hsome
      exact hnone ⟨m', attachedRow_some hh hm'⟩
    exact hdropped h hh hdrop m hm hselected

theorem Unambiguous.hydrated (hdistinct : (smHits.map SearchHit.docId).Nodup)
    (h : Unambiguous w.memories userId smHits) : Hydrated client userId q limit w smHits := by
  refine ⟨attachedRow tableOrder.toRowOrder w.memories userId smHits, fun sp => ?_,
    fun h' hh' m hm => (attachedRow_some hh' hm).1, ?_, fun h' hh' hnone m hm hselected => ?_⟩
  · have hnul : ¬ ((smHits.map SearchHit.docId).any fun d => d.toList.contains '\x00') = true := by
      rw [List.any_eq_true]
      rintro ⟨d, hd, hcontains⟩
      obtain ⟨h', hh', rfl⟩ := List.mem_map.1 hd
      exact h.no_nul h' hh' (by simpa using hcontains)
    rw [searchMemories_hits hanswer, lookupHits_eq, if_neg hnul]
    congr 2
    exact List.filterMap_congr fun h' hh' => by
      rw [attachedRow_congr (fun _ _ => Iff.rfl) hh' (h.one_row h' hh')]
  · refine List.pairwise_filterMap.2 ((List.pairwise_map.1 hdistinct).imp_of_mem ?_)
    rintro h₁ h₂ hh₁ hh₂ hne m hm m' hm' rfl
    obtain ⟨hmine, hkeyed⟩ := attachedRow_some hh₁ hm
    have heq := h.one_hit h₁ hh₁ h₂ hh₂ m hmine hkeyed (attachedRow_some hh₂ hm').2
    exact hne (congrArg SearchHit.docId heq)
  · obtain ⟨m', hm', hkeyed⟩ := h.spelled h' hh' m hm hselected
    rw [attachedRow_none hh' hnone hm'] at hkeyed
    cases hkeyed

/-- **A search over distinct hits is sound exactly when they are unambiguous.** -/
theorem hydrated_iff (hdistinct : (smHits.map SearchHit.docId).Nodup) :
    Hydrated client userId q limit w smHits ↔ Unambiguous w.memories userId smHits :=
  ⟨fun h => h.unambiguous hanswer, fun h => h.hydrated hanswer hdistinct⟩

end

/-! ## One synced row -/

/-- User 7 has one memory, synced under the id `doc`. -/
def syncedWorld : World Backend :=
  Runs.run (memoryStep utcPlatform backend) (initialWorld ⟨fun _ => none, .ok "doc"⟩) [ranOf 7 1]

/-- A backend that answers every search with the given hits. -/
def answersWith (smHits : List SearchHit) : SearchClient Backend where
  toMemoryClient := backend
  search b _ := (.ok smHits, b)

def docHit : SearchHit := ⟨"doc", .fin 1⟩

/-- The same memory, by its own id. -/
def idHit : SearchHit := ⟨String.ofList (uuidText 1), .fin 1⟩

theorem hydrated_iff_synced :
    Hydrated (answersWith [docHit]) 7 "ran".toList 10 syncedWorld [docHit] ↔
      Unambiguous syncedWorld.memories 7 [docHit] := by
  have hanswer : ((answersWith [docHit]).search syncedWorld.remote
      (searchCall 7 "ran".toList 10)).1 = .ok [docHit] := rfl
  exact hydrated_iff hanswer (by decide)

/-- The memory is found under both ids, and returned twice. -/
theorem both_ids_hydrated :
    ¬ Hydrated (answersWith [docHit, idHit]) 7 "ran".toList 10 syncedWorld [docHit, idHit] := by
  intro h
  have hboth : (syncedWorld.memories.rows.any fun m => decide (m.userId = 7 ∧ m.deletedAt = none ∧
      keyed docHit.docId m = true ∧ keyed idHit.docId m = true)) = true := by decide +kernel
  obtain ⟨m, hmem, hm⟩ := List.any_eq_true.1 hboth
  obtain ⟨huser, hlive, hdoc, hid⟩ := of_decide_eq_true hm
  have heq := (h.unambiguous rfl).one_hit docHit (by simp) idHit (by simp) m ⟨hmem, huser, hlive⟩
    hdoc hid
  exact absurd (congrArg SearchHit.docId heq) (by decide)

end Hydration

end MeJournal
