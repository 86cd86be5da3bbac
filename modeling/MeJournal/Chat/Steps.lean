import MeJournal.Chat.StreamState
import MeJournal.Lib.Numbering
import Mathlib.Data.List.ReduceOption

/-!
# The steps a `StepAssigner` hands out

The blocks of a turn are its text runs and its tools.  A text delta belongs to the run that
the number of tool packets before it names; a tool packet belongs to its `tool_call_id`.

* `StepAssigner.steps` — what one assigner answers to a sequence of packets.
* `steps_eq_number` — these are the numbers of the blocks, by first use: the assigner's three
  fields `_text_step`, `_tool_steps` and `_last_kind` amount to that numbering (`Assigned`).
* `steps_lawful` — the laws of `Lawful`, read off the numbering.
* `acceptAll_packets` — the steps that `stream_turn` writes into its packets are these.
-/

namespace MeJournal

open Numbering

variable {M J : Type}

/-- The answers of `step_for` to packets fed in turn. -/
def StepAssigner.steps (a : StepAssigner) : List (Packet M) → List (Option Int)
  | [] => []
  | p :: ps => (a.stepFor p).1 :: (a.stepFor p).2.steps ps

/-- `stream_turn` stamps its packets with the steps of its assigner. -/
theorem TurnState.acceptAll_packets (dump : M → J) (t : TurnState J) (ps : List (Packet M)) :
    (t.acceptAll dump ps).1 =
      List.zipWith (fun p step => if step.isSome then p.withStep step else p) ps
        (t.assigner.steps ps) := by
  induction ps generalizing t with
  | nil => rfl
  | cons p ps ih =>
    simp only [TurnState.acceptAll, StepAssigner.steps, List.zipWith_cons_cons, ih]
    rfl

namespace Steps

/-! ## Blocks -/

/-- A block of the timeline: a run of text, or all the packets of one tool call. -/
inductive Block where
  | text (run : ℕ)
  | tool (toolCallId : String)
  deriving DecidableEq

def isTool (p : Packet M) : Bool := p.toolCallId?.isSome

/-- The block of a packet with `run` tool packets before it; an envelope has none. -/
def blockOf (run : ℕ) : Packet M → Option Block
  | .textDelta .. => some (.text run)
  | .toolStart _ id _ => some (.tool id)
  | .toolCall _ id .. => some (.tool id)
  | .toolEnd _ id .. => some (.tool id)
  | _ => none

def runAfter (run : ℕ) (p : Packet M) : ℕ := if isTool p then run + 1 else run

def blocks (run : ℕ) : List (Packet M) → List (Option Block)
  | [] => []
  | p :: ps => blockOf run p :: blocks (runAfter run p) ps

theorem blockOf_tool (run : ℕ) {p : Packet M} {id : String} (h : p.toolCallId? = some id) :
    blockOf run p = some (.tool id) := by
  cases p <;> cases h <;> rfl

theorem blockOf_text (run : ℕ) {p : Packet M} (h : p.delta?.isSome) :
    blockOf run p = some (.text run) := by
  cases p <;> first | rfl | cases h

theorem blockOf_eq_none (run : ℕ) {p : Packet M} : blockOf run p = none ↔ p.isContent = false := by
  cases p <;> simp [blockOf, Packet.isContent, Packet.delta?, Packet.toolCallId?]

@[simp] theorem length_blocks (run : ℕ) (ps : List (Packet M)) :
    (blocks run ps).length = ps.length := by
  induction ps generalizing run with
  | nil => rfl
  | cons p ps ih => simp only [blocks, List.length_cons, ih]

/-- The block of the packet at a place counts the tool packets before it. -/
theorem getElem?_blocks (run : ℕ) {ps : List (Packet M)} {i : ℕ} {p : Packet M}
    (h : ps[i]? = some p) :
    (blocks run ps)[i]? = some (blockOf (run + (ps.take i).countP isTool) p) := by
  induction ps generalizing run i with
  | nil => cases h
  | cons q ps ih =>
    cases i with
    | zero =>
      cases h
      rfl
    | succ i =>
      have hrun : runAfter run q + (ps.take i).countP isTool =
          run + ((q :: ps).take (i + 1)).countP isTool := by
        rw [runAfter, List.take_succ_cons, List.countP_cons]
        split <;> omega
      rw [blocks, List.getElem?_cons_succ, ih (runAfter run q) h, hrun]

/-! ## The assigner numbers the blocks -/

/-- The assigner after packets with the blocks `ks`, `run` of them tool packets. -/
structure Assigned (run : ℕ) (ks : List Block) (a : StepAssigner) : Prop where
  next : a.next = (firsts ks).length + 1
  tool : ∀ id, a.toolSteps.get? id =
    if .tool id ∈ ks then some (number ks (.tool id) : Int) else none
  open_run : a.lastKind = some .text → .text run ∈ ks ∧ a.textStep = some (number ks (.text run))
  closed_run : a.lastKind ≠ some .text → .text run ∉ ks
  old_runs : ∀ n, .text n ∈ ks → n ≤ run

theorem assigned_new : Assigned 0 [] StepAssigner.new where
  next := rfl
  tool _ := rfl
  open_run h := by cases h
  closed_run _ := List.not_mem_nil
  old_runs _ h := absurd h List.not_mem_nil

/-- A tool packet: its block gets the next number unless it has one; the open run ends. -/
theorem Assigned.stepForTool {run : ℕ} {ks : List Block} {a : StepAssigner}
    (h : Assigned run ks a) (id : String) :
    (a.stepForTool id).1 = some (number (ks ++ [.tool id]) (.tool id) : Int) ∧
      Assigned (run + 1) (ks ++ [.tool id]) (a.stepForTool id).2 := by
  have hold : ∀ n, Block.text n ∈ ks ++ [.tool id] → n ≤ run := fun n hn => by
    rw [List.mem_append, List.mem_singleton] at hn
    exact h.old_runs n (hn.resolve_right nofun)
  have hclosed : Block.text (run + 1) ∉ ks ++ [.tool id] := fun hn => by
    have hle := hold _ hn
    omega
  by_cases hmem : Block.tool id ∈ ks
  · have hget : a.toolSteps.get? id = some (number ks (.tool id) : Int) := by
      rw [h.tool, if_pos hmem]
    rw [StepAssigner.stepForTool, hget, number_concat_of_mem hmem]
    refine ⟨rfl, ?_, fun id' => ?_, nofun, fun _ => hclosed,
      fun n hn => (hold n hn).trans (by omega)⟩
    · rw [firsts_concat_of_mem hmem]
      exact h.next
    · rw [number_concat_of_mem hmem]
      have hiff : Block.tool id' ∈ ks ++ [.tool id] ↔ Block.tool id' ∈ ks := by grind
      simp only [hiff]
      exact h.tool id'
  · have hget : a.toolSteps.get? id = none := by rw [h.tool, if_neg hmem]
    have hnumber := number_concat_fresh hmem
    rw [StepAssigner.stepForTool, hget, hnumber]
    refine ⟨by rw [h.next]; rfl, ?_, fun id' => ?_, nofun, fun _ => hclosed,
      fun n hn => (hold n hn).trans (by omega)⟩
    · rw [firsts_concat_fresh hmem, List.length_append, List.length_singleton]
      simp only [h.next]
      push_cast
      rfl
    · by_cases hid : id' = id
      · subst hid
        rw [if_pos (by simp), hnumber, Dict.get?_set, h.next]
        rfl
      · have hiff : Block.tool id' ∈ ks ++ [.tool id] ↔ Block.tool id' ∈ ks := by
          simp [hid]
        simp only [hiff, Dict.get?_set_of_ne _ _ hid, h.tool id']
        split
        · rename_i hmem'
          rw [number_append hmem']
        · rfl

/-- A text delta: it belongs to the open run, or opens the next block. -/
theorem Assigned.stepFor_text {run : ℕ} {ks : List Block} {a : StepAssigner}
    (h : Assigned run ks a) (step : Option Int) (delta : Text) :
    (a.stepFor (.textDelta step delta : Packet M)).1 =
        some (number (ks ++ [.text run]) (.text run) : Int) ∧
      Assigned run (ks ++ [.text run]) (a.stepFor (.textDelta step delta : Packet M)).2 := by
  have hold : ∀ n, Block.text n ∈ ks ++ [.text run] → n ≤ run := fun n hn => by
    rw [List.mem_append, List.mem_singleton] at hn
    rcases hn with hn | hn
    · exact h.old_runs n hn
    · cases hn
      exact le_rfl
  have htool : ∀ id, Block.tool id ∈ ks ++ [.text run] ↔ Block.tool id ∈ ks := fun id => by simp
  by_cases hkind : a.lastKind = some .text
  · obtain ⟨hmem, htext⟩ := h.open_run hkind
    have hstep : a.stepFor (.textDelta step delta : Packet M) =
        (a.textStep, { a with lastKind := some .text }) := by
      rw [StepAssigner.stepFor, if_neg (not_not.2 hkind)]
    rw [hstep, number_concat_of_mem hmem]
    refine ⟨htext, ?_, fun id => ?_, fun _ => ⟨by simp, ?_⟩, fun hne => absurd rfl hne, hold⟩
    · rw [firsts_concat_of_mem hmem]
      exact h.next
    · simp only [htool, number_concat_of_mem hmem, h.tool id]
    · rw [number_concat_of_mem hmem]
      exact htext
  · have hmem := h.closed_run hkind
    have hnumber := number_concat_fresh hmem
    have hstep : a.stepFor (.textDelta step delta : Packet M) = (some a.next,
        { a with next := a.next + 1, textStep := some a.next, lastKind := some .text }) := by
      rw [StepAssigner.stepFor, if_pos hkind]
    rw [hstep, hnumber]
    refine ⟨by rw [h.next]; rfl, ?_, fun id => ?_, fun _ => ⟨by simp, ?_⟩,
      fun hne => absurd rfl hne, hold⟩
    · rw [firsts_concat_fresh hmem, List.length_append, List.length_singleton]
      simp only [h.next]
      push_cast
      rfl
    · simp only [htool, h.tool id]
      split
      · rename_i hmem'
        rw [number_append hmem']
      · rfl
    · rw [hnumber, h.next]
      rfl

/-- **One packet.** -/
theorem Assigned.stepFor {run : ℕ} {ks : List Block} {a : StepAssigner} (h : Assigned run ks a)
    (p : Packet M) :
    (a.stepFor p).1 = (blockOf run p).map (fun k => (number (ks ++ [k]) k : Int)) ∧
      Assigned (runAfter run p) (ks ++ (blockOf run p).toList) (a.stepFor p).2 := by
  have henvelope : Assigned run (ks ++ []) a := by rwa [List.append_nil]
  cases p with
  | textDelta step delta => exact h.stepFor_text step delta
  | toolStart _ id _ => exact h.stepForTool id
  | toolCall _ id _ _ => exact h.stepForTool id
  | toolEnd _ id _ _ _ _ => exact h.stepForTool id
  | start _ _ => exact ⟨rfl, henvelope⟩
  | error _ _ => exact ⟨rfl, henvelope⟩
  | finish _ _ => exact ⟨rfl, henvelope⟩

/-- The blocks of a sequence of packets, without the gaps of the envelopes. -/
def keys (ps : List (Packet M)) : List Block := (blocks 0 ps).reduceOption

/-- **The steps are the numbers of the blocks.** -/
theorem Assigned.steps_eq {run : ℕ} {ks : List Block} {a : StepAssigner} (h : Assigned run ks a)
    (ps : List (Packet M)) :
    a.steps ps = (blocks run ps).map
      (Option.map fun k => (number (ks ++ (blocks run ps).reduceOption) k : Int)) := by
  induction ps generalizing run ks a with
  | nil => rfl
  | cons p ps ih =>
    obtain ⟨hstep, hnext⟩ := h.stepFor p
    rw [StepAssigner.steps, blocks, List.map_cons, hstep, ih hnext]
    cases blockOf run p with
    | none =>
      simp only [Option.toList_none, List.append_nil, List.reduceOption_cons_of_none,
        Option.map_none]
    | some k =>
      have hks : ks ++ (some k :: blocks (runAfter run p) ps).reduceOption =
          (ks ++ [k]) ++ (blocks (runAfter run p) ps).reduceOption := by
        rw [List.reduceOption_cons_of_some, List.append_assoc, List.singleton_append]
      have hmem : k ∈ ks ++ [k] := List.mem_append_right ks List.mem_cons_self
      rw [hks, Option.map_some, Option.map_some, number_append hmem]
      rfl

theorem steps_eq_number (ps : List (Packet M)) :
    StepAssigner.new.steps ps =
      (blocks 0 ps).map (Option.map fun k => (number (keys ps) k : Int)) :=
  assigned_new.steps_eq ps

theorem steps_at {ps : List (Packet M)} {i : ℕ} {p : Packet M} (h : ps[i]? = some p) :
    (StepAssigner.new.steps ps)[i]? =
      some ((blockOf ((ps.take i).countP isTool) p).map fun k => (number (keys ps) k : Int)) := by
  rw [steps_eq_number, List.getElem?_map, getElem?_blocks 0 h, Nat.zero_add]
  rfl

theorem mem_keys {ps : List (Packet M)} {i : ℕ} {k : Block}
    (h : (blocks 0 ps)[i]? = some (some k)) : k ∈ keys ps :=
  List.reduceOption_mem_iff.2 (List.mem_of_getElem? h)

/-- Two packets of one sequence share a step exactly when they share a block. -/
theorem same_step_iff {ps : List (Packet M)} {i j : ℕ} {p q : Packet M} {k l : Block}
    (hp : ps[i]? = some p) (hq : ps[j]? = some q)
    (hk : blockOf ((ps.take i).countP isTool) p = some k)
    (hl : blockOf ((ps.take j).countP isTool) q = some l) :
    (StepAssigner.new.steps ps)[i]? = (StepAssigner.new.steps ps)[j]? ↔ k = l := by
  have hmem : k ∈ keys ps :=
    mem_keys (i := i) (by rw [getElem?_blocks 0 hp, Nat.zero_add, hk])
  rw [steps_at hp, steps_at hq, hk, hl]
  simp only [Option.map_some, Option.some_inj, Int.natCast_inj]
  exact number_inj hmem

/-! ## The laws -/

/-- `s` is handed out at `i` and not before. -/
def FirstUse (steps : List (Option Int)) (i : ℕ) (s : Int) : Prop :=
  steps[i]? = some (some s) ∧ ∀ j < i, steps[j]? ≠ some (some s)

/-- What the answers to a sequence of packets keep to. -/
structure Lawful (answers : List (Packet M) → List (Option Int)) : Prop where
  length : ∀ ps, (answers ps).length = ps.length
  /-- Envelopes, and they alone, get no step. -/
  envelope : ∀ (ps : List (Packet M)) (i : ℕ) (p : Packet M), ps[i]? = some p →
    ((answers ps)[i]? = some none ↔ p.isContent = false)
  /-- Without an envelope the other answers are the same. -/
  envelope_skipped : ∀ (ps qs : List (Packet M)) (p : Packet M), p.isContent = false →
    ∃ before after, before.length = ps.length ∧
      answers (ps ++ p :: qs) = before ++ none :: after ∧ answers (ps ++ qs) = before ++ after
  /-- At every time the steps handed out are `1, …, m`. -/
  range : ∀ (ps : List (Packet M)) (n : ℕ), ∃ m : ℕ, ∀ s : Int,
    some s ∈ (answers ps).take n ↔ 1 ≤ s ∧ s ≤ m
  first_uses : ∀ (ps : List (Packet M)) (i j : ℕ) (s t : Int), i < j →
    FirstUse (answers ps) i s → FirstUse (answers ps) j t → s < t
  tool_steps : ∀ (ps : List (Packet M)) (i j : ℕ) (p q : Packet M) (id id' : String),
    ps[i]? = some p → ps[j]? = some q → p.toolCallId? = some id → q.toolCallId? = some id' →
    ((answers ps)[i]? = (answers ps)[j]? ↔ id = id')
  text_steps : ∀ (ps : List (Packet M)) (i j : ℕ) (p q : Packet M),
    i < j → ps[i]? = some p → ps[j]? = some q → p.delta?.isSome → q.delta?.isSome →
    ((answers ps)[i]? = (answers ps)[j]? ↔
      ∀ l r, i < l → l < j → ps[l]? = some r → r.toolCallId? = none)
  text_tool : ∀ (ps : List (Packet M)) (i j : ℕ) (p q : Packet M),
    ps[i]? = some p → ps[j]? = some q → p.delta?.isSome → q.toolCallId?.isSome →
    (answers ps)[i]? ≠ (answers ps)[j]?

theorem length_steps (a : StepAssigner) (ps : List (Packet M)) :
    (a.steps ps).length = ps.length := by
  induction ps generalizing a with
  | nil => rfl
  | cons p ps ih => simp only [StepAssigner.steps, List.length_cons, ih]

/-- The assigner after packets. -/
def assigner (a : StepAssigner) (ps : List (Packet M)) : StepAssigner :=
  ps.foldl (fun a p => (a.stepFor p).2) a

theorem steps_append (a : StepAssigner) (ps qs : List (Packet M)) :
    a.steps (ps ++ qs) = a.steps ps ++ (assigner a ps).steps qs := by
  induction ps generalizing a with
  | nil => rfl
  | cons p ps ih =>
    rw [List.cons_append, StepAssigner.steps, ih, StepAssigner.steps, List.cons_append]
    rfl

theorem stepFor_envelope (a : StepAssigner) {p : Packet M} (h : p.isContent = false) :
    a.stepFor p = (none, a) := by
  cases p <;> first | rfl | cases h

theorem take_steps (a : StepAssigner) (ps : List (Packet M)) (n : ℕ) :
    (a.steps ps).take n = a.steps (ps.take n) := by
  induction ps generalizing a n with
  | nil => simp [StepAssigner.steps]
  | cons p ps ih =>
    cases n with
    | zero => rfl
    | succ n => simp only [StepAssigner.steps, List.take_succ_cons, ih]

theorem mem_steps {ps : List (Packet M)} {s : Int} :
    some s ∈ StepAssigner.new.steps ps ↔ ∃ n ∈ (keys ps).map (number (keys ps)), (n : Int) = s := by
  simp only [steps_eq_number, List.mem_map, Option.map_eq_some_iff, keys,
    List.reduceOption_mem_iff]
  constructor
  · rintro ⟨_, hmem, k, rfl, rfl⟩
    exact ⟨_, ⟨k, hmem, rfl⟩, rfl⟩
  · rintro ⟨_, ⟨k, hmem, rfl⟩, rfl⟩
    exact ⟨some k, hmem, k, rfl, rfl⟩

/-- The step at a place is the number of a block there. -/
theorem block_at {ps : List (Packet M)} {i : ℕ} {s : Int}
    (h : (StepAssigner.new.steps ps)[i]? = some (some s)) :
    ∃ k, (blocks 0 ps)[i]? = some (some k) ∧ (number (keys ps) k : Int) = s := by
  rw [steps_eq_number, List.getElem?_map, Option.map_eq_some_iff] at h
  obtain ⟨b, hb, hs⟩ := h
  obtain ⟨k, rfl, hk⟩ := Option.map_eq_some_iff.1 hs
  exact ⟨k, hb, hk⟩

theorem step_of_block {ps : List (Packet M)} {i : ℕ} {k : Block}
    (h : (blocks 0 ps)[i]? = some (some k)) :
    (StepAssigner.new.steps ps)[i]? = some (some (number (keys ps) k : Int)) := by
  rw [steps_eq_number, List.getElem?_map, h]
  rfl

/-- The blocks used before a place. -/
theorem mem_keys_before {ps : List (Packet M)} {j : ℕ} {k : Block} :
    k ∈ ((blocks 0 ps).take j).reduceOption ↔ ∃ i < j, (blocks 0 ps)[i]? = some (some k) := by
  rw [List.reduceOption_mem_iff, List.mem_iff_getElem?]
  constructor
  · rintro ⟨i, hi⟩
    rw [List.getElem?_take] at hi
    split at hi
    · exact ⟨i, ‹_›, hi⟩
    · cases hi
  · rintro ⟨i, hlt, hget⟩
    exact ⟨i, by rw [List.getElem?_take_of_lt hlt, hget]⟩

theorem FirstUse.lt {ps : List (Packet M)} {i j : ℕ} {s t : Int} (hij : i < j)
    (hs : FirstUse (StepAssigner.new.steps ps) i s)
    (ht : FirstUse (StepAssigner.new.steps ps) j t) : s < t := by
  obtain ⟨k, hk, rfl⟩ := block_at hs.1
  obtain ⟨l, hl, rfl⟩ := block_at ht.1
  have hsplit : keys ps =
      ((blocks 0 ps).take j).reduceOption ++ ((blocks 0 ps).drop j).reduceOption := by
    rw [← List.reduceOption_append, List.take_append_drop, keys]
  have hbefore : k ∈ ((blocks 0 ps).take j).reduceOption := mem_keys_before.2 ⟨i, hij, hk⟩
  have hfresh : l ∉ ((blocks 0 ps).take j).reduceOption := fun hmem => by
    obtain ⟨i', hi', hget⟩ := mem_keys_before.1 hmem
    exact ht.2 i' hi' (step_of_block hget)
  have hlt : number (keys ps) k < number (keys ps) l := by
    rw [hsplit]
    exact number_lt hbefore hfresh
  exact Int.ofNat_lt.2 hlt

/-- No tool packet between two places: the same number of them before both. -/
theorem countP_take_eq_iff {α : Type} (f : α → Bool) (l : List α) {i j : ℕ} (hij : i ≤ j) :
    (l.take i).countP f = (l.take j).countP f ↔
      ∀ k x, i ≤ k → k < j → l[k]? = some x → f x = false := by
  have hsplit : (l.take j).countP f = (l.take i).countP f + ((l.drop i).take (j - i)).countP f := by
    rw [← List.countP_append, ← List.take_add, Nat.add_sub_cancel' hij]
  rw [hsplit, Nat.left_eq_add, List.countP_eq_zero]
  constructor
  · intro h k x hik hkj hx
    refine Bool.eq_false_iff.2 (h x (List.mem_of_getElem? (i := k - i) ?_))
    rw [List.getElem?_take_of_lt (by omega), List.getElem?_drop, Nat.add_sub_cancel' hik, hx]
  · intro h x hx
    obtain ⟨k, hk⟩ := List.mem_iff_getElem?.1 hx
    have hlt : k < j - i := by
      by_contra hge
      rw [List.getElem?_take_eq_none (by omega)] at hk
      cases hk
    rw [List.getElem?_take_of_lt hlt, List.getElem?_drop] at hk
    exact Bool.eq_false_iff.1 (h (i + k) x (by omega) (by omega) hk)

/-- **Every sequence of packets fed to one assigner.** -/
theorem steps_lawful : Lawful fun ps : List (Packet M) => StepAssigner.new.steps ps where
  length ps := length_steps _ ps
  envelope ps i p hp := by
    rw [steps_at hp, ← blockOf_eq_none ((ps.take i).countP isTool), Option.some_inj,
      Option.map_eq_none_iff]
  envelope_skipped ps qs p hp := by
    refine ⟨StepAssigner.new.steps ps, (assigner .new ps).steps qs, length_steps _ ps, ?_,
      steps_append _ ps qs⟩
    rw [steps_append, StepAssigner.steps, stepFor_envelope _ hp]
  range ps n := by
    refine ⟨(firsts (keys (ps.take n))).length, fun s => ?_⟩
    rw [take_steps, mem_steps]
    simp only [mem_numbers]
    constructor
    · rintro ⟨m, ⟨hpos, hle⟩, rfl⟩
      omega
    · rintro ⟨hpos, hle⟩
      exact ⟨s.toNat, by omega, by omega⟩
  first_uses _ _ _ _ _ hij hs ht := hs.lt hij ht
  tool_steps ps i j p q id id' hp hq hid hid' := by
    rw [same_step_iff hp hq (blockOf_tool _ hid) (blockOf_tool _ hid'), Block.tool.injEq]
  text_steps ps i j p q hij hp hq htext htext' := by
    rw [same_step_iff hp hq (blockOf_text _ htext) (blockOf_text _ htext'), Block.text.injEq,
      countP_take_eq_iff isTool ps hij.le]
    simp only [isTool, Option.isSome_eq_false_iff, Option.isNone_iff_eq_none]
    constructor
    · intro h l r hil hlj hr
      exact h l r hil.le hlj hr
    · intro h l r hil hlj hr
      rcases Nat.eq_or_lt_of_le hil with rfl | hlt
      · cases hp.symm.trans hr
        cases p <;> first | rfl | cases htext
      · exact h l r hlt hlj hr
  text_tool ps i j p q hp hq htext htool := by
    obtain ⟨id, hid⟩ := Option.isSome_iff_exists.1 htool
    rw [Ne, same_step_iff hp hq (blockOf_text _ htext) (blockOf_tool _ hid)]
    nofun

end Steps

end MeJournal
