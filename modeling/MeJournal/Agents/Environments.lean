import MeJournal.Lib.Lockstep
import MeJournal.Agents.Runtime

/-!
# The runtime in two environments

`run_agent_stream` sees the database, the remote side and the chat-completions client only through
its environment.  Two environments that answer alike from related worlds give the same turn: the
same packets, the same messages to the model, the same end.

* `EnvLockstep P F` — the environments answer alike and keep the worlds related by `P`; a tool that
  fails and ends the turn may leave them related by `F` only.
* `runAgentStream_lockstep` — then whole turns run in lockstep.
-/

namespace MeJournal

variable {W W' M : Type}

/-- The same messages, and related worlds. -/
def Abreast (P : W → W' → Prop) (s : RuntimeState W) (s' : RuntimeState W') : Prop :=
  s.messages = s'.messages ∧ P s.world s'.world

/-- The worlds after a call of a tool: an exception that the model does not see ends the turn. -/
def CallSettles (P F : W → W' → Prop) (w : W) (w' : W') : Except PyException M → Prop
  | .ok _ => P w w'
  | .error exc => if exc.val.isinstance modelRecoverableToolErrors then P w w' else F w w'

structure EnvLockstep (P F : W → W' → Prop) (env : AgentEnv W M) (env' : AgentEnv W' M) :
    Prop where
  create : ∀ w w' messages, P w w' →
    (env.create w messages).1 = (env'.create w' messages).1 ∧
      P (env.create w messages).2 (env'.create w' messages).2
  validate : env.validate = env'.validate
  runTool : ∀ w w' name id args, P w w' →
    (env.runTool w name id args).1 = (env'.runTool w' name id args).1 ∧
      CallSettles P F (env.runTool w name id args).2 (env'.runTool w' name id args).2
        (env.runTool w name id args).1
  dumpJson : env.dumpJson = env'.dumpJson
  lost : ∀ w w', P w w' → F w w'

/-- A part of the turn that keeps the worlds related. -/
abbrev Steady {α : Type} (P F : W → W' → Prop) (g : RuntimeGen W M α)
    (g' : RuntimeGen W' M α) : Prop :=
  Gen.Lockstep (Abreast P) g g' (fun _ => Abreast P) fun _ => Abreast F

section

variable {P F : W → W' → Prop} {env : AgentEnv W M} {env' : AgentEnv W' M}

/-! ## One turn of the model -/

theorem steady_pure {α : Type} (a : α) :
    Steady P F (pure a : RuntimeGen W M α) (pure a : RuntimeGen W' M α) :=
  Gen.lockstep_pure fun _ _ hs => hs

theorem steady_emit (p : Packet M) :
    Steady P F (Gen.emit p : RuntimeGen W M Unit) (Gen.emit p : RuntimeGen W' M Unit) :=
  Gen.lockstep_emit fun _ _ hs => hs

theorem appendMessage_steady (message : ChatMessage) :
    Steady P F (appendMessage message : RuntimeGen W M Unit)
      (appendMessage message : RuntimeGen W' M Unit) := by
  refine Gen.lockstep_modify fun s s' ⟨hmessages, hworld⟩ => ?_
  exact ⟨congrArg (· ++ [message]) hmessages, hworld⟩

theorem EnvLockstep.raise {α : Type} (h : EnvLockstep P F env env') (exc : PyExc) :
    Steady P F (Gen.raise exc : RuntimeGen W M α) (Gen.raise exc : RuntimeGen W' M α) :=
  Gen.lockstep_raise fun _ _ hs => ⟨hs.1, h.lost _ _ hs.2⟩

theorem readChunk_steady (turn : AgentTurn) (chunk : Chunk) :
    Steady P F (readChunk turn chunk : RuntimeGen W M AgentTurn)
      (readChunk turn chunk : RuntimeGen W' M AgentTurn) := by
  unfold readChunk
  split
  · exact steady_pure _
  · refine Gen.Lockstep.bind ?_ fun _ => steady_pure _
    unfold emitContent
    split
    · exact steady_pure ()
    · exact steady_emit _

theorem readChunks_steady (turn : AgentTurn) (chunks : List Chunk) :
    Steady P F (readChunks turn chunks : RuntimeGen W M AgentTurn)
      (readChunks turn chunks : RuntimeGen W' M AgentTurn) := by
  induction chunks generalizing turn with
  | nil => exact steady_pure turn
  | cons chunk chunks ih => exact (readChunk_steady turn chunk).bind ih

theorem openStream_steady (h : EnvLockstep P F env env') :
    Steady P F (openStream env) (openStream env') := by
  rintro ⟨messages, w⟩ ⟨messages', w'⟩ ⟨hmessages, hw⟩
  obtain rfl : messages = messages' := hmessages
  obtain ⟨hstream, hw'⟩ := h.create w w' messages hw
  exact ⟨rfl, congrArg Except.ok hstream, rfl, hw'⟩

theorem streamOneTurn_steady (h : EnvLockstep P F env env') :
    Steady P F (streamOneTurn env) (streamOneTurn env') := by
  refine (openStream_steady h).bind fun stream => (readChunks_steady _ _).bind fun turn =>
    Gen.Lockstep.bind ?_ fun _ => steady_pure turn
  unfold raiseIf
  split
  · exact steady_pure ()
  · exact h.raise _

/-! ## One tool -/

theorem surfaceToolError_steady (tc : PartialToolCall) (exc : PyExc) (startEmitted : Bool) :
    Steady P F (surfaceToolError tc exc startEmitted : RuntimeGen W M Unit)
      (surfaceToolError tc exc startEmitted : RuntimeGen W' M Unit) := by
  refine Gen.Lockstep.bind ?_ fun _ => (steady_emit _).bind fun _ => appendMessage_steady _
  split
  · exact steady_pure ()
  · exact steady_emit _

theorem callTool_lockstep (h : EnvLockstep P F env env') (tc : PartialToolCall) (args : M) :
    Gen.Lockstep (Abreast P) (callTool env tc args) (callTool env' tc args)
      (fun outcome s s' => s.messages = s'.messages ∧ CallSettles P F s.world s'.world outcome)
      fun _ => Abreast F := by
  rintro ⟨messages, w⟩ ⟨messages', w'⟩ ⟨hmessages, hw⟩
  obtain rfl : messages = messages' := hmessages
  obtain ⟨houtcome, hsettles⟩ := h.runTool w w' tc.name tc.id args hw
  exact ⟨rfl, congrArg Except.ok houtcome, rfl, hsettles⟩

theorem finishTool_lockstep (h : EnvLockstep P F env env') (tc : PartialToolCall)
    (outcome : Except PyException M) :
    Gen.Lockstep
      (fun s s' => s.messages = s'.messages ∧ CallSettles P F s.world s'.world outcome)
      (finishTool env tc outcome) (finishTool env' tc outcome) (fun _ => Abreast P)
      fun _ => Abreast F := by
  cases outcome with
  | ok result =>
    refine (steady_emit _).bind fun _ => Gen.Lockstep.bind ?_ fun _ => appendMessage_steady _
    rw [h.dumpJson]
    unfold orRaise
    split
    · exact h.raise _
    · exact steady_pure _
  | error exc =>
    dsimp only [finishTool, CallSettles]
    -- after an error that the model sees the turn goes on, after another it ends
    split
    · exact surfaceToolError_steady tc exc true
    · exact Gen.Lockstep.bind (S := fun _ => Abreast F) (Gen.lockstep_emit fun _ _ hs => hs)
        fun _ => Gen.lockstep_raise fun _ _ hs => hs

theorem runOneTool_steady (h : EnvLockstep P F env env') (tc : PartialToolCall) :
    Steady P F (runOneTool env tc) (runOneTool env' tc) := by
  unfold runOneTool
  rw [h.validate]
  split
  · split
    · split
      · exact surfaceToolError_steady tc _ false
      · exact h.raise _
    · refine (steady_emit _).bind fun _ => (steady_emit _).bind fun _ => ?_
      exact (callTool_lockstep h tc _).bind fun outcome => finishTool_lockstep h tc outcome
  · exact h.raise _

theorem runTools_steady (h : EnvLockstep P F env env') (tcs : List PartialToolCall) :
    Steady P F (runTools env tcs) (runTools env' tcs) := by
  induction tcs with
  | nil => exact steady_pure ()
  | cons tc tcs ih => exact (runOneTool_steady h tc).bind fun _ => ih

/-! ## The loop -/

theorem agentLoop_steady (h : EnvLockstep P F env env') (n : Nat) :
    Steady P F (agentLoop env n) (agentLoop env' n) := by
  induction n with
  | zero => exact steady_emit _
  | succ n ih =>
    refine (streamOneTurn_steady h).bind fun turn => (appendMessage_steady _).bind fun _ => ?_
    split
    · exact steady_pure ()
    · exact (runTools_steady h _).bind fun _ => ih

theorem agentFailed_lockstep (exc : PyExc) :
    Gen.Lockstep (Abreast F) (agentFailed exc : RuntimeGen W M Unit)
      (agentFailed exc : RuntimeGen W' M Unit) (fun _ => Abreast F) fun _ => Abreast F := by
  unfold agentFailed
  split
  · exact Gen.lockstep_emit fun _ _ hs => hs
  · exact Gen.lockstep_raise fun _ _ hs => hs

/-- **Whole turns in lockstep.** -/
theorem runAgentStream_lockstep (h : EnvLockstep P F env env') (pf : Platform)
    (input : AgentInput) :
    Gen.Lockstep (Abreast P) (runAgentStream pf env input) (runAgentStream pf env' input)
      (fun _ => Abreast F) fun _ => Abreast F := by
  have hlost : ∀ s s', Abreast P s s' → Abreast F s s' :=
    fun _ _ hs => ⟨hs.1, h.lost _ _ hs.2⟩
  refine Gen.Lockstep.bind (S := fun _ => Abreast P)
    (Gen.lockstep_ofExcept (fun _ _ _ _ hs => hs) fun _ _ => hlost) fun messages => ?_
  refine Gen.Lockstep.bind (S := fun _ => Abreast P)
    (Gen.lockstep_modify fun _ _ hs => ⟨rfl, hs.2⟩) fun _ => ?_
  have hloop := (agentLoop_steady h maxToolTurns).mono (fun _ _ hs => hs) (fun _ => hlost)
    fun _ _ _ hs => hs
  exact hloop.handle agentFailed_lockstep

/-- What two turns in lockstep have in common. -/
theorem runAgentStream_alike (h : EnvLockstep P F env env') (pf : Platform) (input : AgentInput)
    {w : W} {w' : W'} (hw : P w w') (messages : List ChatMessage) :
    let run := runAgentStream pf env input ⟨messages, w⟩
    let run' := runAgentStream pf env' input ⟨messages, w'⟩
    run.emitted = run'.emitted ∧ run.result = run'.result ∧
      run.state.messages = run'.state.messages ∧ F run.state.world run'.state.world := by
  intro run run'
  obtain ⟨hemitted, hresult, hends⟩ :=
    runAgentStream_lockstep h pf input ⟨messages, w⟩ ⟨messages, w'⟩ ⟨rfl, hw⟩
  refine ⟨hemitted, hresult, ?_⟩
  cases hr : (runAgentStream pf env input ⟨messages, w⟩).result with
  | ok a =>
    rw [hr] at hends
    exact hends
  | error e =>
    rw [hr] at hends
    exact hends

end

end MeJournal
