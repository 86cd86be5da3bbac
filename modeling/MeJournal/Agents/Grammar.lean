import MeJournal.Agents.Conversation

/-!
# The grammar of the agent's packets

Past the prompt, a run yields text deltas and whole tool blocks, then at most one error packet.

* `executeTool_arguments` — a block has its call packet unless the arguments are invalid.
* `capReached_recording`, `agentLoop_calls_of_cap` — a run that reaches the cap has made all of its
  calls to the model.
* `runAgentStream_grammar` — packets, model calls and the cap of a run.
-/

namespace MeJournal

variable {W M : Type}

/-- The error packet that closes a run of the `try` block, if any. -/
def closingError (env : AgentEnv W M) (s : RuntimeState W) : Option (Packet M) :=
  if capReached env maxToolTurns s then some maxTurnsPacket
  else
    match (agentLoop env maxToolTurns s).result with
    | .ok _ => none
    | .error exc => some (.error "agent_failed".toList exc.cls.toList)

/-! ## Tool blocks -/

/-- **The call packet is left out exactly when the arguments are invalid.** -/
theorem executeTool_arguments {env : AgentEnv W M} {w : W} {tc : PartialToolCall}
    {e : ExecutedCall M} (h : executeTool env w tc = some e) :
    e.call.name ∈ toolClassByName ∧
      (e.arguments = none ↔
        ∃ exc, env.validate e.call.name (rawArguments e.call) = .error exc) := by
  have hcall := executeTool_call h
  unfold executeTool at h
  rw [hcall]
  split at h
  · rename_i hknown
    refine ⟨hknown, ?_⟩
    split at h
    · rename_i exc hinvalid
      split at h <;> cases h
      exact iff_of_true rfl ⟨exc, hinvalid⟩
    · rename_i args hvalid
      rw [hvalid]
      split at h <;> cases h <;> simp
  · cases h

theorem mem_executedCalls {env : AgentEnv W M} {tcs : List PartialToolCall} {s : RuntimeState W}
    {e : ExecutedCall M} (h : e ∈ executedCalls env tcs s) :
    ∃ w tc, executeTool env w tc = some e := by
  induction tcs generalizing s with
  | nil => cases h
  | cons tc tcs ih =>
    rw [executedCalls_cons, List.mem_append] at h
    rcases h with h | h
    · exact ⟨s.world, tc, Option.mem_toList.1 h⟩
    · split at h
      · exact ih h
      · cases h

theorem mem_turnSegments {env : AgentEnv W M} {s : RuntimeState W} {e : ExecutedCall M}
    (h : .tool e ∈ turnSegments env s) : ∃ w tc, executeTool env w tc = some e := by
  have hcall : e ∈ turnCalls env s := by
    simpa [turnSegments] using h
  unfold turnCalls at hcall
  simp only at hcall
  split at hcall
  · cases hcall
  · split at hcall
    · exact mem_executedCalls hcall
    · cases hcall

theorem mem_loopSegments {env : AgentEnv W M} {n : Nat} {s : RuntimeState W} {e : ExecutedCall M}
    (h : .tool e ∈ loopSegments env n s) : ∃ w tc, executeTool env w tc = some e := by
  induction n generalizing s with
  | zero => cases h
  | succ n ih =>
    rw [loopSegments, List.mem_append] at h
    rcases h with h | h
    · exact mem_turnSegments h
    · split at h
      · exact ih h
      · cases h

/-! ## The cap -/

theorem agentLoop_result_of_cap {env : AgentEnv W M} {n : Nat} {s : RuntimeState W}
    (h : capReached env n s = true) : (agentLoop env n s).result = .ok () := by
  induction n generalizing s with
  | zero => rfl
  | succ n ih =>
    rw [capReached] at h
    split at h
    · rename_i hturn
      rw [agentLoop_succ, Gen.bind_of_ok hturn]
      exact ih h
    · cases h

theorem capReached_recording (env : AgentEnv W M) (n : Nat)
    (s : RuntimeState (W × List (List ChatMessage))) :
    capReached env.recording n s = capReached env n s.plain := by
  induction n generalizing s with
  | zero => rfl
  | succ n ih =>
    obtain ⟨_, hresult, hstate⟩ := agentTurn_transparent env s
    rw [capReached, capReached, hresult, ih, hstate]

/-- **A loop that reaches the cap has made all of its calls.** -/
theorem agentLoop_calls_of_cap {env : AgentEnv W M} {n : Nat}
    {s : RuntimeState (W × List (List ChatMessage))} (h : capReached env.recording n s = true) :
    (agentLoop env.recording n s).state.calls.length = s.calls.length + n := by
  induction n generalizing s with
  | zero => rfl
  | succ n ih =>
    rw [capReached] at h
    split at h
    · rename_i hturn
      have hrest := ih h
      have hone := congrArg List.length (agentTurn_calls env s)
      rw [List.length_append, List.length_singleton] at hone
      rw [agentLoop_succ, Gen.bind_of_ok hturn]
      simp only [if_true]
      omega
    · cases h

/-! ## The whole run -/

/-- The `try` block closes with the error packet of the cap or of the exception. -/
theorem guarded_emitted (env : AgentEnv W M) (s : RuntimeState W) :
    ((agentLoop env maxToolTurns).handle agentFailed s).emitted =
      (loopSegments env maxToolTurns s).flatMap Segment.packets ++ (closingError env s).toList := by
  have hloop := agentLoop_emitted env maxToolTurns s
  rw [closingError]
  by_cases hcap : capReached env maxToolTurns s = true
  · rw [Gen.handle_of_ok (agentLoop_result_of_cap hcap), hloop, if_pos hcap, if_pos hcap]
    rfl
  · rw [if_neg hcap] at hloop ⊢
    obtain ⟨_, _, _, _, _, hraise⟩ := agentLoop_terminal env maxToolTurns s
    cases hresult : (agentLoop env maxToolTurns s).result with
    | ok _ =>
      rw [Gen.handle_of_ok hresult, hloop]
      rfl
    | error exc =>
      rw [Gen.handle_of_error hresult, agentFailed_eq (hraise exc hresult), hloop, List.append_nil]
      rfl

theorem closingError_isError {env : AgentEnv W M} {s : RuntimeState W} {p : Packet M}
    (h : closingError env s = some p) : p.isError = true := by
  unfold closingError at h
  split at h
  · cases h
    rfl
  · split at h <;> cases h
    rfl

/-- Only the cap gives its error packet. -/
theorem closingError_eq_maxTurns {env : AgentEnv W M} {s : RuntimeState W} :
    closingError env s = some maxTurnsPacket ↔ capReached env maxToolTurns s = true := by
  unfold closingError
  by_cases hcap : capReached env maxToolTurns s = true
  · simp [hcap]
  · rw [if_neg hcap]
    refine iff_of_false (fun h => ?_) hcap
    split at h
    · cases h
    · have hcode : "agent_failed".toList = "agent_max_turns".toList := by
        injection Option.some.inj h
      exact absurd hcode (by decide)

/-- **The packets of a run past the prompt** are text deltas and whole tool blocks, then at most
one error packet.  A block has its call packet exactly when its arguments are valid.  The model is
called at most `maxToolTurns` times; if that many turns request tools and none raises, the run
ends with the error packet of the cap, after all of their tools. -/
theorem runAgentStream_grammar {pf : Platform} (env : AgentEnv W M) {input : AgentInput}
    (s : RuntimeState W) {messages : List ChatMessage}
    (hprompt : buildMessages pf input = .ok messages) :
    (runAgentStream pf env input s).emitted =
        (loopSegments env maxToolTurns { s with messages := messages }).flatMap Segment.packets ++
          (closingError env { s with messages := messages }).toList ∧
      (∀ p, closingError env { s with messages := messages } = some p → p.isError = true) ∧
      (∀ e, .tool e ∈ loopSegments env maxToolTurns { s with messages := messages } →
        e.call.name ∈ toolClassByName ∧ (e.arguments = none ↔
          ∃ exc, env.validate e.call.name (rawArguments e.call) = .error exc)) ∧
      (createCalls pf env input s).length ≤ maxToolTurns ∧
      (closingError env { s with messages := messages } = some maxTurnsPacket ↔
        capReached env maxToolTurns { s with messages := messages } = true) ∧
      (capReached env maxToolTurns { s with messages := messages } = true →
        (createCalls pf env input s).length = maxToolTurns) := by
  refine ⟨?_, fun p => closingError_isError, fun e he => ?_, ?_, closingError_eq_maxTurns,
    fun hcap => ?_⟩
  · rw [runAgentStream_eq, hprompt]
    exact guarded_emitted env _
  · obtain ⟨w, tc, hexecuted⟩ := mem_loopSegments he
    exact executeTool_arguments hexecuted
  · obtain ⟨k, exchanges, hk, _, hcalls⟩ := createCalls_eq pf env input s
    rwa [hcalls, List.length_map, List.length_range]
  · rw [createCalls, runAgentStream_eq, hprompt]
    simp only [guarded_calls]
    have hrecorded := (capReached_recording env maxToolTurns ⟨messages, s.world, []⟩).trans hcap
    exact (agentLoop_calls_of_cap hrecorded).trans (Nat.zero_add _)

/-! ## A scripted model -/

def invalidArguments : PyException :=
  ⟨⟨"ValidationError", ["ValueError", "Exception"], "1 validation error".toList⟩,
    by simp [PyExc.isException, PyExc.isinstance]⟩

/-- A model that streams the script, one stream a turn, and tools without data, whose arguments
must be empty. -/
def scriptedEnv : AgentEnv (List ModelStream) Unit where
  create := fun script _ => (script.headD ⟨[], none⟩, script.tail)
  validate := fun _ raw =>
    if raw = "\x7b\x7d".toList then .ok () else .error invalidArguments
  runTool := fun script _ _ _ => (.ok (), script)
  dumpJson := fun _ => .ok "\x7b\x7d".toList

def contentChunk (content : Text) : Chunk := ⟨[⟨some content, none, none⟩]⟩

def toolCallsChunk (toolCalls : List ToolCallDelta) : Chunk :=
  ⟨[⟨none, some toolCalls, some "tool_calls"⟩]⟩

/-- A turn with text and a call with invalid arguments, then one that ends. -/
def invalidCallScript : List ModelStream :=
  [⟨[contentChunk ['a'], toolCallsChunk
    [⟨0, some "call_1", some ⟨some "manage_memory", some ['x']⟩⟩]], none⟩]

theorem runAgentStream_grammar_invalid_call :
    (runAgentStream utcPlatform scriptedEnv (sampleAgentInput "UTC".toList)
        ⟨[], invalidCallScript⟩).emitted =
      [.textDelta none ['a'], .toolStart none "call_1" "manage_memory",
        .toolEnd none "call_1" "manage_memory" .error none
          (some "ValidationError: 1 validation error".toList)] := by
  have hprompt : buildMessages utcPlatform (sampleAgentInput "UTC".toList) =
      .ok (promptMessages utcPlatform (sampleAgentInput "UTC".toList)) := by decide
  refine (runAgentStream_grammar scriptedEnv ⟨[], invalidCallScript⟩ hprompt).1.trans ?_
  decide

end MeJournal
