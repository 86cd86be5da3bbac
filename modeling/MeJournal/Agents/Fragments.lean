import MeJournal.Agents.Turns
import MeJournal.Chat.Timeline
import MeJournal.Lib.Grouping

/-!
# What one model turn is folded to

`_fold_tool_call_deltas` and `_stream_one_turn` of `app/agents/runtime.py`: the provider streams
each tool call in fragments under an index, and the fragments of several calls may come in any
interleaving and any chunks.

* `mergedCall` — the call that a sequence of fragments stands for; `foldl_fold` — the runtime merges
  fragments to it.
* `fragmentsAt` — the fragments of one index; `toolCalls_read` — the calls of a stream.
* `streamOneTurn_folds` — what `_stream_one_turn` yields and returns.
-/

namespace MeJournal

namespace Fragments

open Numbering Grouping

variable {W W' M : Type}

/-! ## What the fragments stand for -/

/-- The last non-empty string, or the empty one. -/
def lastNonEmpty (xs : List (Option String)) : String :=
  ((xs.filterMap id).filter (· ≠ "")).getLast?.getD ""

/-- The call of a sequence of fragments. -/
def mergedCall (fragments : List ToolCallDelta) : PartialToolCall where
  id := lastNonEmpty (fragments.map ToolCallDelta.id)
  name := lastNonEmpty (fragments.map fun tc => tc.function.bind FunctionDelta.name)
  args := (fragments.map fun tc => (tc.function.bind FunctionDelta.arguments).getD []).flatten

/-- The fragments of one index, in the order of the stream. -/
def fragmentsAt (chunks : List Chunk) (index : Int) : List ToolCallDelta :=
  (chunkFragments chunks).filter fun tc => tc.index = index

/-- The content fragments of a stream, empty ones included. -/
def contentFragments (chunks : List Chunk) : List Text :=
  chunks.filterMap fun chunk => chunk.choices.head?.bind Choice.content

theorem lastNonEmpty_concat (xs : List (Option String)) (x : Option String) :
    lastNonEmpty (xs ++ [x]) = (x.filter (· ≠ "")).getD (lastNonEmpty xs) := by
  cases x with
  | none => simp [lastNonEmpty]
  | some x =>
    by_cases hx : x = ""
    · simp [lastNonEmpty, hx, Option.filter_some]
    · simp [lastNonEmpty, hx, Option.filter_some]

/-- **One fragment more.** -/
theorem mergedCall_concat (fragments : List ToolCallDelta) (tc : ToolCallDelta) :
    mergedCall (fragments ++ [tc]) = (mergedCall fragments).fold tc := by
  simp only [mergedCall, List.map_append, List.map_singleton, lastNonEmpty_concat,
    List.flatten_append, List.flatten_singleton, PartialToolCall.fold]
  cases tc.function with
  | none => simp
  | some fn => rfl

/-- **The runtime's merge** of a sequence of fragments. -/
theorem foldl_fold (fragments : List ToolCallDelta) :
    fragments.foldl PartialToolCall.fold .new = mergedCall fragments := by
  induction fragments using List.reverseRecOn with
  | nil => rfl
  | append_singleton fragments tc ih =>
    rw [List.foldl_append, ih, mergedCall_concat]
    rfl

/-! ## The calls of a stream -/

theorem toolCallsByIdx_read (chunks : List Chunk) :
    (AgentTurn.new.read chunks).toolCallsByIdx =
      group ToolCallDelta.index PartialToolCall.fold .new (chunkFragments chunks) := rfl

/-- **The calls**: one for each index, in the order of the first fragments. -/
theorem toolCalls_read (chunks : List Chunk) :
    (AgentTurn.new.read chunks).toolCalls =
      (firsts ((chunkFragments chunks).map ToolCallDelta.index)).map fun index =>
        mergedCall (fragmentsAt chunks index) := by
  rw [AgentTurn.toolCalls, toolCallsByIdx_read, group_rows, List.map_map]
  exact List.map_congr_left fun index _ => foldl_fold _

theorem toolCalls_perm {chunks chunks' : List Chunk}
    (h : ∀ index, fragmentsAt chunks index = fragmentsAt chunks' index) :
    (AgentTurn.new.read chunks).toolCalls.Perm (AgentTurn.new.read chunks').toolCalls := by
  rw [AgentTurn.toolCalls, AgentTurn.toolCalls, toolCallsByIdx_read, toolCallsByIdx_read]
  exact (group_perm h).map Prod.snd

/-! ## The text -/

/-- Empty fragments are not yielded. -/
theorem chunkDeltas_eq (chunks : List Chunk) :
    chunkDeltas chunks = (contentFragments chunks).filter (· ≠ []) := by
  rw [chunkDeltas, contentFragments, List.filter_filterMap]
  refine congrArg (List.filterMap · chunks) (funext fun chunk => ?_)
  cases chunk.choices.head? <;> rfl

/-- **The text** of a stream. -/
theorem text_read (chunks : List Chunk) :
    (AgentTurn.new.read chunks).text = (contentFragments chunks).flatten := by
  change (chunkDeltas chunks).flatten = _
  rw [chunkDeltas_eq]
  simpa only [decide_not, ne_eq] using List.flatten_filter_ne_nil (L := contentFragments chunks)

/-- The text of packets that are all deltas. -/
theorem deltas_map_textDelta (ds : List Text) :
    deltas (ds.map (Packet.textDelta (M := M) none)) = ds.flatten := by
  have hdelta : Packet.delta? ∘ Packet.textDelta (M := M) none = some := rfl
  rw [deltas, List.filterMap_map, hdelta, List.filterMap_some]

/-! ## One turn -/

section Turn

variable {env : AgentEnv W M} {s : RuntimeState W}

/-- A stream that ends by itself. -/
theorem returns_of_ended (h : (env.create s.world s.messages).1.raised = none) :
    (streamOneTurn env s).result =
      .ok (AgentTurn.new.read (env.create s.world s.messages).1.chunks) := by
  rw [streamOneTurn_eq]
  dsimp only
  rw [h]

/-- A turn that is returned has read the whole stream. -/
theorem read_of_ok {turn : AgentTurn} (h : (streamOneTurn env s).result = .ok turn) :
    turn = AgentTurn.new.read (env.create s.world s.messages).1.chunks := by
  rw [streamOneTurn_eq] at h
  dsimp only at h
  split at h
  · exact (Except.ok.inj h).symm
  · cases h

end Turn

/-- **One model turn.**  A stream that ends by itself gives a turn.  Its content fragments are
yielded, but for the empty ones, and are its text.  Its calls are one for each index, in the order
of the first fragments, merged from the fragments of that index alone; so any other stream with the
same fragments under each index gives the same calls. -/
theorem streamOneTurn_folds (env : AgentEnv W M) (s : RuntimeState W) :
    let stream := (env.create s.world s.messages).1
    let run := streamOneTurn env s
    (stream.raised = none → ∃ turn, run.result = .ok turn) ∧
    run.emitted =
      ((contentFragments stream.chunks).filter (· ≠ [])).map (Packet.textDelta none) ∧
    ∀ turn, run.result = .ok turn →
      turn.toolCalls = (firsts ((chunkFragments stream.chunks).map ToolCallDelta.index)).map
        (fun index => mergedCall (fragmentsAt stream.chunks index)) ∧
      turn.text = (contentFragments stream.chunks).flatten ∧
      turn.text = deltas run.emitted ∧
      ∀ (env' : AgentEnv W' M) (s' : RuntimeState W') (turn' : AgentTurn),
        (streamOneTurn env' s').result = .ok turn' →
        (∀ index, fragmentsAt stream.chunks index =
          fragmentsAt (env'.create s'.world s'.messages).1.chunks index) →
        turn.toolCalls.Perm turn'.toolCalls := by
  intro stream run
  have hemitted : run.emitted = (chunkDeltas stream.chunks).map (Packet.textDelta none) :=
    (streamOneTurn_run env s).1
  refine ⟨fun hended => ⟨_, returns_of_ended hended⟩, ?_, fun turn hturn => ?_⟩
  · rw [hemitted, chunkDeltas_eq]
  · obtain rfl := read_of_ok hturn
    refine ⟨toolCalls_read stream.chunks, text_read stream.chunks, ?_, ?_⟩
    · rw [hemitted, deltas_map_textDelta]
      rfl
    · intro env' s' turn' hturn' hsame
      obtain rfl := read_of_ok hturn'
      exact toolCalls_perm hsame

end Fragments

end MeJournal
