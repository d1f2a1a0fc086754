import OpenBlade.Assistant.Tools

/-!
# The session of the assistant

`assistant/session.py` and the REPL of `cli/assist.py`: the bounded loop of rounds, the confirmation in front of setup and media
tools, the refusals a session remembers, and the transcript, which is rewound when a question fails.
-/

namespace OpenBlade

open Effects Codec Proc

/-- What a session is built with. -/
structure AssistConfig where
  builtins : TextBuiltins
  maxRounds : Nat
  /-- There is a setup registry, a facade for it and somebody to ask. -/
  setupEnabled : Bool
  /-- There is a media registry, a facade for it and somebody to ask. -/
  mediaParts : Bool
  systemMessage : String
  /-- The names of the read-only tools, sorted and joined. -/
  readNames : String

/-- `media_enabled`: the setup tools are required too. -/
def AssistConfig.mediaEnabled (cfg : AssistConfig) : Bool := cfg.setupEnabled && cfg.mediaParts

/-- `render_result`. -/
def renderResult (fields : List (String × Json)) : String := dumps false (.obj fields)

/-! ### Reports for the model -/

/-- `_refusal`. -/
def refusal (code message : String) (candidates : List String) (confirmed : Bool) : String :=
  renderResult
    [("executed", .bool false), ("status", .str "refused"), ("code", .str code), ("error", .str message),
      ("candidates", .arr (candidates.map Json.str)), ("confirmedByOperator", .bool confirmed),
      ("guidance", .str ("Nothing was changed. Ask the operator which of the candidates they meant; " ++
        "do not pick one for them."))]

/-- `_unavailable`. -/
def unavailable (tool what : String) (e : AssistantExn) : String :=
  renderResult
    [("executed", .bool false), ("status", .str "unavailable"), ("action", .str tool),
      ("error", .str (tool ++ " " ++ what ++ " (" ++ e.className ++ "); nothing was changed and the operator was not asked. " ++
        "Report the failure and suggest they check the catalog."))]

/-- The report of an action that was executed. -/
def executedReport (tool : String) (outcome : Json) : String :=
  renderResult [("executed", .bool true), ("action", .str tool), ("result", outcome)]

def declinedReport (action : PendingAction) (reason : String) (repeated : Bool) : String :=
  renderResult
    [("executed", .bool false), ("status", .str "declined_by_operator"), ("action", .str action.tool.name),
      ("preview", .str action.preview), ("reason", .str reason), ("repeatedProposal", .bool repeated),
      ("guidance", .str ("The operator declined. Do not propose this same action again: acknowledge it, ask what they would " ++
        "prefer, or continue with something else."))]

def declinedMediaReport (action : PendingMediaAction) (reason : String) : String :=
  renderResult
    [("executed", .bool false), ("status", .str "declined_by_operator"), ("action", .str action.tool.name),
      ("preview", .str action.preview), ("reason", .str reason), ("confirmationGrade", .str action.grade.value),
      ("repeatedProposal", .bool false),
      ("guidance", .str ("The operator declined. Nothing was moved, written or erased. Do not propose this same action again: " ++
        "acknowledge it, ask what they would prefer, or continue with something else."))]

def repeatedReport (tool : String) : String :=
  renderResult
    [("executed", .bool false), ("status", .str "declined_by_operator"), ("action", .str tool),
      ("reason", .str "the operator already declined this exact action"), ("repeatedProposal", .bool true),
      ("guidance", .str ("The operator declined this already and was not asked again. Nothing was changed. " ++
        "Do not propose it a third time."))]

def partialReport (tool message : String) (applied : List String) : String :=
  renderResult
    [("executed", .bool false), ("status", .str "partially_applied"), ("action", .str tool),
      ("applied", .arr (applied.map Json.str)), ("error", .str message),
      ("guidance", .str "Tell the operator exactly what did land and that the rest did not. Do not retry it yourself.")]

def setupErrorReport (tool : String) (e : AssistantExn) : String :=
  renderResult
    [("executed", .bool false), ("status", .str "error"), ("action", .str tool),
      ("error", .str (tool ++ " was confirmed but could not be completed (" ++ e.className ++ "). Nothing was changed."))]

def failedReport (action : PendingMediaAction) (message : String) : String :=
  renderResult
    [("executed", .bool false), ("status", .str "failed"), ("action", .str action.tool.name), ("preview", .str action.preview),
      ("error", .str message), ("possiblyPartial", .bool action.tool.longRunning),
      ("guidance", .str ("The operator confirmed and it failed. Report the error text as given. " ++
        (if action.tool.longRunning then "Say explicitly that part of it may already have been written and that they should " ++
          "check `openblade jobs` and the catalog before retrying. " else "") ++ "Do not retry it yourself."))]

def mediaErrorReport (tool : String) (e : AssistantExn) : String :=
  renderResult
    [("executed", .bool false), ("status", .str "error"), ("action", .str tool),
      ("error", .str (tool ++ " was confirmed but could not be completed (" ++ e.className ++
        "). Check `openblade jobs` and the library inventory before assuming nothing happened."))]

/-- What is truthy of the values of a report. -/
def truthy : Json → Bool
  | .null => false
  | .bool b => b
  | .int i => i ≠ 0
  | .str s => s ≠ ""
  | .arr items => !items.isEmpty
  | .obj fields => !fields.isEmpty

/-- `_completion_line`. -/
def completionLine (b : TextBuiltins) (tool : String) (outcome : Arguments) : String :=
  let value := fun name => (outcome.get? name).getD .null
  let isGiven := fun name => ((outcome.get? name).filter fun value => match value with | .null => false | _ => true).isSome
  let job := if truthy (value "jobId") then
    [strip ("job " ++ b.text (value "jobId") ++ " " ++ b.text ((outcome.get? "state").getD (.str "")))] else []
  let archived := if isGiven "filesArchived" then
    [b.text (value "filesArchived") ++ "/" ++ b.text (value "filesExpected") ++ " files, " ++ b.text (value "bytesArchived") ++
      " bytes in the catalog"] else []
  let restored := if isGiven "bytesRestored" then
    [b.text (value "bytesRestored") ++ " bytes restored, " ++
      (if truthy (value "checksumVerified") then "checksum verified" else "NOT verified")] else []
  let message := if truthy (value "message") then [b.text (value "message")] else []
  " — ".intercalate ([tool ++ ": done"] ++ job ++ archived ++ restored ++ message)

/-! ### Setup tools -/

/-- `_declined[key] += 1`. -/
def countDecline (key : String) : AssistM Unit :=
  assign fun s => { s with declined := s.declined.set key ((s.declined.get? key).getD 0 + 1) }

def appendExecuted (tool : String) : AssistM Unit := assign fun s => { s with executed := s.executed ++ [tool] }

/-- The operator has declined the action before. -/
def SessionState.isDeclined (s : SessionState) (key : String) : Bool := 1 ≤ (s.declined.get? key).getD 0

/-- `_decline`. -/
def decline (action : PendingAction) (reason : String) (repeated : Bool) : AssistM String := do
  countDecline action.key
  pure (declinedReport action reason repeated)

/-- `except (EOFError, KeyboardInterrupt)`. -/
def AssistantExn.isInterrupt : AssistantExn → Bool
  | .eof | .keyboardInterrupt => true
  | _ => false

/-- An exception that a tool lets through: an `AssistantError` that nothing before took, or no `Exception` at all. -/
def AssistantExn.isLoud (e : AssistantExn) : Bool := e.isAssistantError || !e.isException

/-- `_confirm_action`. -/
def confirmAction (b : TextBuiltins) (action : PendingAction) : AssistM Bool :=
  handle
    (do
      let answer ← assistCall (.askSetup action)
      pure (decide (b.lower (strip answer) ∈ yesAnswers)))
    fun e => if e.isInterrupt then pure false else raise e

/-- What became of a setup action. -/
def settleSetup (action : PendingAction) : Except AssistantExn Json → AssistM String
  | .ok outcome => do
    appendExecuted action.tool.name
    pure (executedReport action.tool.name outcome)
  | .error (.setupRefused message code candidates) => pure (refusal code message candidates true)
  | .error (.setupPartialWrite message applied _) => do
    appendExecuted action.tool.name
    pure (partialReport action.tool.name message applied)
  | .error e => if e.isLoud then raise e else pure (setupErrorReport action.tool.name e)

/-- A setup action that was approved. -/
def applySetup (action : PendingAction) : AssistM String := do
  let outcome ← attempt (assistCall (.applySetup action))
  settleSetup action outcome

/-- A setup action that is planned: it is asked about, unless it was declined before. -/
def gateSetup (b : TextBuiltins) (action : PendingAction) : AssistM String := do
  let s ← locals
  if s.isDeclined action.key then decline action "the operator already declined this exact action" true
  else do
    match ← attempt (confirmAction b action) with
    | .ok true => applySetup action
    | .ok false => decline action "the operator answered no" false
    | .error e =>
      if e.isInterrupt then decline action "the operator answered no" false
      else if e.isException then decline action "the confirmation prompt failed" false
      else raise e

/-- A setup action that was not planned. -/
def setupUnplanned (call : ToolCall) : AssistantExn → AssistM String
  | .setupRefused message code candidates => pure (refusal code message candidates false)
  | e => if e.isLoud then raise e else pure (unavailable call.name "could not be checked" e)

/-- `_run_setup_tool`. -/
def runSetupTool (b : TextBuiltins) (tool : SetupTool) (call : ToolCall) : AssistM String := do
  match ← attempt (planSetup b tool call.arguments) with
  | .ok action => gateSetup b action
  | .error e => setupUnplanned call e

/-! ### Media tools -/

/-- `_decline_media`. -/
def declineMedia (action : PendingMediaAction) (reason : String) : AssistM String := do
  countDecline action.key
  pure (declinedMediaReport action reason)

/-- `_decline_repeat`. -/
def declineRepeat (tool key : String) : AssistM String := do
  countDecline key
  pure (repeatedReport tool)

/-- `_announce`. -/
def announce (line : String) : AssistM Unit :=
  handle (assistCall (.progress line)) fun e => if e.isException then pure () else raise e

/-- `_confirm_media_action`. -/
def confirmMediaAction (action : PendingMediaAction) : AssistM (Option String) :=
  handle
    (do
      let answer ← assistCall (.askMedia action)
      pure (some answer))
    fun e => if e.isInterrupt then pure none else raise e

/-- `if tool.long_running:`. -/
def whenLong (tool : MediaTool) (m : AssistM Unit) : AssistM Unit := if tool.longRunning then m else pure ()

def appendPossiblyPartial (tool : String) : AssistM Unit :=
  assign fun s => { s with possiblyPartial := s.possiblyPartial ++ [tool] }

/-- What became of a media action. -/
def settleMedia (b : TextBuiltins) (action : PendingMediaAction) : Except AssistantExn Json → AssistM String
  | .ok outcome => do
    appendExecuted action.tool.name
    announce (completionLine b action.tool.name (match outcome with | .obj fields => fields | _ => []))
    pure (executedReport action.tool.name outcome)
  | .error (.mediaRefused message code candidates) => do
    announce (action.tool.name ++ ": refused — nothing was changed.")
    pure (refusal code message candidates true)
  | .error (.mediaOperationFailed message) => do
    whenLong action.tool (appendPossiblyPartial action.tool.name)
    announce (action.tool.name ++ ": failed — " ++ message)
    pure (failedReport action message)
  | .error e => if e.isLoud then raise e else pure (mediaErrorReport action.tool.name e)

/-- A media action that was authorised. -/
def applyMedia (b : TextBuiltins) (action : PendingMediaAction) (authorization : MediaAuthorization) : AssistM String := do
  whenLong action.tool (announce (action.tool.name ++ ": running now — this can take minutes."))
  let outcome ← attempt (performMedia b action authorization)
  settleMedia b action outcome

/-- What the operator answered, if anything, is held against the grade of the action. -/
def answerMedia (b : TextBuiltins) (action : PendingMediaAction) (response : Option String) : AssistM String :=
  match authorize b action response with
  | none =>
    declineMedia action
      (match action.grade with
        | .typed => "the operator did not type the exact confirmation this action requires"
        | .yesNo => "the operator answered no")
  | some authorization => applyMedia b action authorization

/-- A media action that is planned is asked about. -/
def gateMedia (b : TextBuiltins) (action : PendingMediaAction) : AssistM String := do
  match ← attempt (confirmMediaAction action) with
  | .ok response => answerMedia b action response
  | .error e =>
    if e.isInterrupt then answerMedia b action none
    else if e.isException then declineMedia action "the confirmation prompt failed"
    else raise e

/-- A media action that was not planned. -/
def mediaUnplanned (call : ToolCall) (what : String) : AssistantExn → AssistM String
  | .mediaRefused message code candidates => pure (refusal code message candidates false)
  | e => if e.isLoud then raise e else pure (unavailable call.name what e)

/-- A media tool that is not known to be declined. -/
def proposeMedia (b : TextBuiltins) (tool : MediaTool) (call : ToolCall) : AssistM String := do
  match ← attempt (tool.plan b call.arguments) with
  | .ok action => gateMedia b action
  | .error e => mediaUnplanned call "could not be checked" e

/-- `_run_media_tool`: whether the action was declined is asked before it is planned. -/
def runMediaTool (b : TextBuiltins) (tool : MediaTool) (call : ToolCall) : AssistM String := do
  match ← attempt (tool.actionKey b call.arguments) with
  | .ok key => do
    let s ← locals
    if s.isDeclined key then declineRepeat call.name key else proposeMedia b tool call
  | .error e => mediaUnplanned call "could not be read" e

/-! ### Rounds -/

/-- What a read-only tool tells the model. -/
def settleRead (cfg : AssistConfig) (call : ToolCall) : Except AssistantExn Json → AssistM String
  | .ok outcome => pure (dumps false outcome)
  | .error (.toolNotFound _) =>
    pure (renderResult [("error", .str ("There is no tool named " ++ cfg.builtins.quote (.str call.name) ++
      ". The assistant is read-only; available tools are: " ++ cfg.readNames))])
  | .error e =>
    if e.isLoud then raise e
    else pure (renderResult [("error", .str (call.name ++ " could not be completed (" ++ e.className ++ ")."))])

/-- `_run_tool`. -/
def runReadTool (cfg : AssistConfig) (call : ToolCall) : AssistM String := do
  let outcome ← attempt (assistCall (.readTool call))
  settleRead cfg call outcome

/-- The tool a name stands for in this session. -/
inductive Dispatch where
  | setup (tool : SetupTool)
  | media (tool : MediaTool)
  | read
  deriving Repr, DecidableEq

def dispatchTool (cfg : AssistConfig) (name : String) : Dispatch :=
  match if cfg.setupEnabled then SetupTool.ofName? name else none with
  | some tool => .setup tool
  | none =>
    match if cfg.mediaEnabled then MediaTool.ofName? name else none with
    | some tool => .media tool
    | none => .read

def runTool (cfg : AssistConfig) (call : ToolCall) : AssistM String :=
  match dispatchTool cfg call.name with
  | .setup tool => runSetupTool cfg.builtins tool call
  | .media tool => runMediaTool cfg.builtins tool call
  | .read => runReadTool cfg call

def appendMessage (message : Message) : AssistM Unit := assign fun s => { s with messages := s.messages ++ [message] }

/-- One call of a round. -/
def runCall (cfg : AssistConfig) (call : ToolCall) : AssistM Unit := do
  assistCall (.observe call)
  let content ← runTool cfg call
  appendMessage (.tool call.name content)

/-- `_append_tool_round`. -/
def appendToolRound (cfg : AssistConfig) (reply : ChatReply) : AssistM Unit := do
  appendMessage (.assistant reply.content reply.toolCalls)
  forEach (runCall cfg) reply.toolCalls

/-- `MAX_CALLS_PER_ROUND`. -/
def maxCallsPerRound : Nat := 8

/-- `_cap_tool_calls`. -/
def capToolCalls (reply : ChatReply) : ChatReply :=
  if reply.toolCalls.length ≤ maxCallsPerRound then reply
  else { reply with toolCalls := reply.toolCalls.take maxCallsPerRound }

/-- `AssistantTurn`. -/
structure AssistantTurn where
  reply : String
  toolCalls : List String
  rounds : Nat
  executedActions : List String
  deriving Repr, DecidableEq

/-- The rounds from `number` on, of which `left` are left. -/
def askRounds (cfg : AssistConfig) (used : List String) (number : Nat) : Nat → AssistM AssistantTurn
  | 0 => raise (.assistant "AssistantLoopLimitError"
      ("The assistant kept requesting tools past " ++ toString cfg.maxRounds ++ " rounds without producing an answer. " ++
        "Try a narrower question, or raise OPENBLADE_ASSISTANT_MAX_ROUNDS."))
  | left + 1 => do
    let s ← locals
    let reply ← assistCall (.chat s.messages)
    if reply.toolCalls.isEmpty then do
      appendMessage (.assistant reply.content [])
      let s ← locals
      pure { reply := reply.content, toolCalls := used, rounds := number, executedActions := s.executed }
    else do
      let reply := capToolCalls reply
      appendToolRound cfg reply
      askRounds cfg (used ++ reply.toolCalls.map ToolCall.name) (number + 1) left

/-- `_ask`. -/
def askQuestion (cfg : AssistConfig) (question : String) : AssistM AssistantTurn := do
  assistCall .refresh
  appendMessage (.user question)
  assign fun s => { s with executed := [], possiblyPartial := [] }
  askRounds cfg [] 1 cfg.maxRounds

/-- The message of a tool that says something was executed, or may have been in part. -/
def Message.isMarked : Message → Bool
  | .tool _ content =>
    isIn "\"executed\": true" content.toList || isIn "\"possiblyPartial\": true" content.toList
  | _ => false

/-- `_rewind_floor`. -/
def rewindFloor (s : SessionState) (checkpoint : Nat) : Nat :=
  if s.executed = [] ∧ s.possiblyPartial = [] then checkpoint
  else
    match (s.messages.drop checkpoint).reverse.findIdx? Message.isMarked with
    | some after => s.messages.length - after
    | none => checkpoint

/-- `del self.messages[floor:]`, after an `AssistantError`. -/
def rewind (checkpoint : Nat) (e : AssistantExn) : AssistM Unit :=
  if e.isAssistantError then assign fun s => { s with messages := s.messages.take (rewindFloor s checkpoint) } else pure ()

/-- `ask`. -/
def ask (cfg : AssistConfig) (question : String) : AssistM AssistantTurn := do
  let s ← locals
  handle (askQuestion cfg question) fun e => do
    rewind s.messages.length e
    raise e

/-! ### The REPL -/

/-- `reset`. -/
def resetSession (cfg : AssistConfig) : AssistM Unit :=
  assign fun s => { s with messages := [.system cfg.systemMessage], declined := [] }

/-- A question of the REPL: it survives every `Exception`. -/
def askLine (cfg : AssistConfig) (line : String) : AssistM Unit :=
  handle
    (do
      let _ ← ask cfg line
      pure ())
    fun e => if e.isException then pure () else raise e

/-- `_repl`, for so many lines. -/
def repl (cfg : AssistConfig) : Nat → AssistM Unit
  | 0 => pure ()
  | lines + 1 => do
    match ← attempt (assistCall .readLine) with
    | .error e => if e.isInterrupt then pure () else raise e
    | .ok line =>
      if strip line = "" then repl cfg lines
      else if strip line ∈ ["/quit", "/exit", "/q"] then pure ()
      else if strip line = "/reset" then do
        resetSession cfg
        repl cfg lines
      else if strip line ∈ ["/help", "/?"] then repl cfg lines
      else do
        askLine cfg (strip line)
        repl cfg lines

/-- A session as it is built. -/
def AssistConfig.session (cfg : AssistConfig) : SessionState := { messages := [.system cfg.systemMessage] }

/-- Answers of a session whose model replies with `calls`: every operation that is told a text is told `text`. -/
def scriptedAnswer (calls : List ToolCall) (text : String) : (o : AssistOp) → Except AssistantExn o.Ans
  | .chat _ => .ok { content := "", toolCalls := calls }
  | .readLine | .resolve _ | .askSetup _ | .askMedia _ | .planSetup .. => .ok text
  | .refresh | .observe _ | .progress _ => .ok ()
  | .readTool _ | .applySetup _ | .applyMedia _ => .ok (.obj [])
  | .planMedia .. => .ok { preview := text, barcode := text }

def asciiAssistant : AssistConfig :=
  { builtins := .ascii, maxRounds := 2, setupEnabled := true, mediaParts := true, systemMessage := "", readNames := "" }

end OpenBlade
