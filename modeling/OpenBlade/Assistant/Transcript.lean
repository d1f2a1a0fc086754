import OpenBlade.Assistant.Session
import OpenBlade.Effects.Protocol

/-!
# What a failed question leaves of the transcript

A question that ends with an `AssistantError` rewinds the transcript to the last message that says something was executed, or may
have been in part. What is left is well formed and remembers every action that may have changed something exactly if that message
belongs to the last call of its round, and no such action is without one or comes after it.
-/

namespace OpenBlade

open Effects Codec Proc

/-! ### Well-formed transcripts -/

/-- The names of the calls still to be answered after the messages, where the transcript is well formed so far. -/
def pendingCalls : List String → List Message → Option (List String)
  | pending, [] => some pending
  | [], .system _ :: messages => pendingCalls [] messages
  | [], .user _ :: messages => pendingCalls [] messages
  | [], .assistant _ calls :: messages => pendingCalls (calls.map ToolCall.name) messages
  | name :: pending, .tool name' _ :: messages => if name' = name then pendingCalls pending messages else none
  | _, _ => none

/-- Every assistant message with tool calls is followed by one tool message for each. -/
def WellFormedTranscript (messages : List Message) : Prop := pendingCalls [] messages = some []

instance (messages : List Message) : Decidable (WellFormedTranscript messages) := inferInstanceAs (Decidable (_ = _))

theorem pendingCalls_append (pending : List String) (before after : List Message) :
    pendingCalls pending (before ++ after) = (pendingCalls pending before).bind fun left => pendingCalls left after := by
  induction before generalizing pending with
  | nil => rfl
  | cons message before ih =>
    cases pending with
    | nil =>
      cases message with
      | tool name content => rfl
      | system content => exact ih []
      | user content => exact ih []
      | assistant content calls => exact ih (calls.map ToolCall.name)
    | cons name pending =>
      cases message with
      | tool name' content =>
        simp only [List.cons_append, pendingCalls]
        by_cases h : name' = name
        · rw [if_pos h, if_pos h]
          exact ih pending
        · rw [if_neg h, if_neg h]
          rfl
      | system content => rfl
      | user content => rfl
      | assistant content calls => rfl

/-- The tool a message reports on. -/
def Message.toolName? : Message → Option String
  | .tool name _ => some name
  | _ => none

/-! ### The calls of a turn -/

/-- One call of a turn. -/
structure CallRecord where
  name : String
  /-- The calls of the same round after it. -/
  left : Nat
  /-- Its action changed something, or may have. -/
  acted : Bool := false
  /-- Its message says so in the words that are looked for. -/
  marked : Bool := false
  /-- The session lists it. -/
  flagged : Bool := false
  deriving Repr, DecidableEq

/-- What an operation of a setup tool did: what it refuses it has not done, and another failure has changed nothing. -/
def CallRecord.afterSetup (call : CallRecord) : Except AssistantExn Json → CallRecord
  | .ok _ => { call with acted := true, marked := true, flagged := true }
  | .error (.setupPartialWrite ..) => { call with acted := true, flagged := true }
  | .error _ => call

/-- What an operation of a media tool did: a long one that fails may have been done in part, and so may one that breaks off. -/
def CallRecord.afterMedia (call : CallRecord) (tool : MediaTool) : Except AssistantExn Json → CallRecord
  | .ok _ => { call with acted := true, marked := true, flagged := true }
  | .error (.mediaOperationFailed _) =>
    { call with acted := tool.longRunning, marked := tool.longRunning, flagged := tool.longRunning }
  | .error e => { call with acted := e.isException && !e.isAssistantError }

/-- A text with the words that are looked for. -/
def showsAction (text : List Char) : Bool := isIn "\"executed\": true" text || isIn "\"possiblyPartial\": true" text

/-- What a read-only tool told. -/
def CallRecord.afterRead (call : CallRecord) : Except AssistantExn Json → CallRecord
  | .ok outcome => { call with marked := showsAction (dumps false outcome).toList }
  | .error _ => call

/-- The calls of a turn so far, and how many of the round are still to begin. -/
structure TurnLog where
  calls : List CallRecord := []
  todo : Nat := 0
  deriving Repr, DecidableEq

namespace TurnLog

/-- The last call of the log. -/
def onLast (log : TurnLog) (f : CallRecord → CallRecord) : TurnLog :=
  { log with calls := log.calls.dropLast ++ (log.calls.getLast?.map f).toList }

/-- What is noted of an operation and its answer. -/
def note (log : TurnLog) : (o : AssistOp) → Except AssistantExn o.Ans → TurnLog
  | .chat _, .ok (reply : ChatReply) => { log with todo := min reply.toolCalls.length maxCallsPerRound }
  | .observe call, _ => { calls := log.calls ++ [{ name := call.name, left := log.todo - 1 }], todo := log.todo - 1 }
  | .applySetup _, outcome => log.onLast fun call => call.afterSetup outcome
  | .applyMedia action, outcome => log.onLast fun call => call.afterMedia action.tool outcome
  | .readTool _, outcome => log.onLast fun call => call.afterRead outcome
  | _, _ => log

end TurnLog

/-- The transcript that is kept goes on from the one before the turn, and has the message of every call that acted: the messages of
tools stand in the order of the calls. -/
def Remembers (before kept : List Message) (calls : List CallRecord) : Prop :=
  ∃ later, kept = before ++ later ∧
    ∀ (i : Nat) (call : CallRecord), calls[i]? = some call → call.acted = true → (later.filterMap Message.toolName?)[i]? = some call.name

/-- Nothing acted; or the session lists an action, and the last message that is looked for ends its round, with nothing that acted
after it. -/
def Recoverable (calls : List CallRecord) : Prop :=
  (∀ call ∈ calls, call.acted = false) ∨
    (∃ call ∈ calls, call.flagged = true) ∧ ∃ before last after, calls = before ++ last :: after ∧ last.marked = true ∧
      last.left = 0 ∧ ∀ call ∈ after, call.marked = false ∧ call.acted = false

namespace TranscriptAux

/-! ### The reports and the words that are looked for -/

theorem isWord_executed : IsWord "executed".toList := by decide

theorem isWord_possiblyPartial : IsWord "possiblyPartial".toList := by decide

/-- The keys of the reports. -/
def reportKeys : List String :=
  ["executed", "status", "code", "error", "candidates", "confirmedByOperator", "guidance", "action", "preview", "reason",
    "repeatedProposal", "confirmationGrade", "applied", "possiblyPartial"]

theorem isWord_of_mem_reportKeys : ∀ key ∈ reportKeys, IsWord key.toList := by decide

theorem showsAction_iff {text : List Char} :
    showsAction text = true ↔ trueField "executed".toList <:+: text ∨ trueField "possiblyPartial".toList <:+: text := by
  have hexecuted : "\"executed\": true".toList = trueField "executed".toList := by decide
  have hpart : "\"possiblyPartial\": true".toList = trueField "possiblyPartial".toList := by decide
  simp only [showsAction, isIn, hexecuted, hpart, Bool.or_eq_true, decide_eq_true_eq]

theorem toList_renderResult (fields : List (String × Json)) : (renderResult fields).toList = dumpsChars false (.obj fields) := by
  simp [renderResult, dumps]

/-- A report shows an action exactly if one of the two flags is set. -/
theorem showsAction_renderResult {fields : List (String × Json)} (hkeys : ∀ field ∈ fields, field.1 ∈ reportKeys)
    (hflat : ∀ field ∈ fields, field.2.isFlat = true) : showsAction (renderResult fields).toList = true ↔
      ("executed", .bool true) ∈ fields ∨ ("possiblyPartial", .bool true) ∈ fields := by
  have hwords : ∀ field ∈ fields, IsWord field.1.toList ∧ field.2.isFlat = true :=
    fun field hfield => ⟨isWord_of_mem_reportKeys _ (hkeys field hfield), hflat field hfield⟩
  rw [showsAction_iff, toList_renderResult, trueField_infix_iff isWord_executed hwords,
    trueField_infix_iff isWord_possiblyPartial hwords]

/-- A report of flags, texts and lists of texts without those flags shows nothing. -/
theorem unmarked_of_fields {fields : List (String × Json)} (hkeys : ∀ field ∈ fields, field.1 ∈ reportKeys)
    (hflat : ∀ field ∈ fields, field.2.isFlat = true) (hexecuted : ("executed", .bool true) ∉ fields)
    (hpart : ("possiblyPartial", .bool true) ∉ fields) : showsAction (renderResult fields).toList = false := by
  rw [← Bool.not_eq_true, showsAction_renderResult hkeys hflat, not_or]
  exact ⟨hexecuted, hpart⟩

theorem unmarked_refusal (code message : String) (candidates : List String) (confirmed : Bool) :
    showsAction (refusal code message candidates confirmed).toList = false :=
  unmarked_of_fields (by simp [reportKeys]) (by simp [Json.isFlat]) (by simp) (by simp)

theorem unmarked_unavailable (tool what : String) (e : AssistantExn) : showsAction (unavailable tool what e).toList = false :=
  unmarked_of_fields (by simp [reportKeys]) (by simp [Json.isFlat]) (by simp) (by simp)

theorem marked_executedReport (tool : String) (outcome : Json) : showsAction (executedReport tool outcome).toList = true := by
  rw [showsAction_iff, executedReport, toList_renderResult]
  exact .inl (trueField_infix_of_mem isWord_executed List.mem_cons_self)

theorem unmarked_declinedReport (action : PendingAction) (reason : String) (repeated : Bool) :
    showsAction (declinedReport action reason repeated).toList = false :=
  unmarked_of_fields (by simp [reportKeys]) (by simp [Json.isFlat]) (by simp) (by simp)

theorem unmarked_declinedMediaReport (action : PendingMediaAction) (reason : String) :
    showsAction (declinedMediaReport action reason).toList = false :=
  unmarked_of_fields (by simp [reportKeys]) (by simp [Json.isFlat]) (by simp) (by simp)

theorem unmarked_repeatedReport (tool : String) : showsAction (repeatedReport tool).toList = false :=
  unmarked_of_fields (by simp [reportKeys]) (by simp [Json.isFlat]) (by simp) (by simp)

theorem unmarked_partialReport (tool message : String) (applied : List String) :
    showsAction (partialReport tool message applied).toList = false :=
  unmarked_of_fields (by simp [reportKeys]) (by simp [Json.isFlat]) (by simp) (by simp)

theorem unmarked_setupErrorReport (tool : String) (e : AssistantExn) : showsAction (setupErrorReport tool e).toList = false :=
  unmarked_of_fields (by simp [reportKeys]) (by simp [Json.isFlat]) (by simp) (by simp)

/-- A failure shows that it may be partial exactly if the action was a long one. -/
theorem showsAction_failedReport (action : PendingMediaAction) (message : String) :
    showsAction (failedReport action message).toList = action.tool.longRunning := by
  have hfields : ∀ guidance : String, showsAction (renderResult
      [("executed", .bool false), ("status", .str "failed"), ("action", .str action.tool.name), ("preview", .str action.preview),
        ("error", .str message), ("possiblyPartial", .bool action.tool.longRunning), ("guidance", .str guidance)]).toList =
      action.tool.longRunning := by
    intro guidance
    rw [Bool.eq_iff_iff, showsAction_renderResult (by simp [reportKeys]) (by simp [Json.isFlat])]
    cases action.tool.longRunning <;> simp
  exact hfields _

theorem unmarked_mediaErrorReport (tool : String) (e : AssistantExn) : showsAction (mediaErrorReport tool e).toList = false :=
  unmarked_of_fields (by simp [reportKeys]) (by simp [Json.isFlat]) (by simp) (by simp)

/-! ### What one call leaves -/

variable {cfg : AssistConfig} {b : TextBuiltins} {s s' : SessionState} {log log' : TurnLog} {done : List CallRecord} {call : CallRecord}
  {todo : Nat} {messages : List Message} {α : Type}

abbrev machine : Machine TurnLog AssistOp (fun o => Except AssistantExn o.Ans) (∀ o : AssistOp, Except AssistantExn o.Ans) :=
  havoc TurnLog.note

/-- Nothing is asked of the operations. -/
abbrev free : Contract TurnLog AssistOp fun o => Except AssistantExn o.Ans := .protocol fun _ _ => True

/-- The session lists an action exactly if the log has one that it lists. -/
def Listed (s : SessionState) (calls : List CallRecord) : Prop :=
  (s.executed = [] ∧ s.possiblyPartial = []) ↔ ∀ call ∈ calls, call.flagged = false

/-- The last call of the log is `call`, and nothing was written to the transcript since it began. -/
structure Calling (done : List CallRecord) (todo : Nat) (messages : List Message) (call : CallRecord) (s : SessionState)
    (log : TurnLog) : Prop where
  log : log = { calls := done ++ [call], todo := todo }
  messages : s.messages = messages
  listed : Listed s (done ++ [call])
  sound : call.flagged = true → call.acted = true

/-- `m` gives the content of the message of the call; an `AssistantError` leaves the call as it was. -/
abbrev Reports (done : List CallRecord) (todo : Nat) (messages : List Message) (call : CallRecord) (m : AssistM String)
    (s : SessionState) (log : TurnLog) : Prop :=
  wp machine free m
    (fun content s' log' => ∃ call', Calling done todo messages call' s' log' ∧ call'.name = call.name ∧ call'.left = call.left ∧
      showsAction content.toList = call'.marked)
    (fun e s' log' => e.isAssistantError = true → Calling done todo messages call s' log') s log

/-- Operations that are not noted. -/
def isUnnoted : AssistOp → Bool
  | .resolve _ | .planSetup .. | .askSetup _ | .planMedia .. | .askMedia _ | .progress _ => true
  | _ => false

theorem note_unnoted {o : AssistOp} (h : isUnnoted o = true) (x : Except AssistantExn o.Ans) : log.note o x = log := by
  cases o <;> first | rfl | cases h

/-- Operations that are not noted leave everything as it is. -/
theorem wp_unnoted {m : AssistM α} (h : Reads (fun o => isUnnoted o = true) m) :
    wp machine free m (fun _ s' log' => s' = s ∧ log' = log) (fun _ s' log' => s' = s ∧ log' = log) s log := by
  have hstable : Stable machine free (fun o => isUnnoted o = true) fun log' => log' = log := by
    refine stable_follows fun o ho log' hlog => ⟨trivial, fun x => ?_⟩
    rw [note_unnoted ho x]
    exact hlog
  exact wp_mono (h.keeps hstable rfl) (fun _ _ _ h => ⟨h.1.symm, h.2⟩) fun _ _ _ h => ⟨h.1.symm, h.2⟩

theorem reads_cleanPath (raw : Option Json) (what : String) : Reads (fun o => isUnnoted o = true) (cleanPath b raw what) :=
  only_bind (only_ofExcept _) fun _ => only_perform rfl

theorem reads_normalize (tool : MediaTool) (arguments : Arguments) :
    Reads (fun o => isUnnoted o = true) (tool.normalize b arguments) := by
  cases tool with
  | archivePath => exact only_bind (reads_cleanPath _ _) fun _ => only_pure _
  | restorePath => exact only_bind (only_ofExcept _) fun _ => only_bind (reads_cleanPath _ _) fun _ => only_pure _
  | loadTape | unloadDrive | moveTape | formatTape => exact only_ofExcept _

theorem reads_plan (tool : MediaTool) (arguments : Arguments) : Reads (fun o => isUnnoted o = true) (tool.plan b arguments) :=
  only_bind (reads_normalize tool arguments) fun _ => only_bind (only_perform rfl) fun _ => only_pure _

theorem reads_actionKey (tool : MediaTool) (arguments : Arguments) :
    Reads (fun o => isUnnoted o = true) (tool.actionKey b arguments) :=
  only_bind (reads_normalize tool arguments) fun _ => only_pure _

theorem reads_planSetup (tool : SetupTool) (arguments : Arguments) :
    Reads (fun o => isUnnoted o = true) (planSetup b tool arguments) :=
  only_bind (only_ofExcept _) fun _ => only_bind (only_perform rfl) fun _ => only_pure _

theorem reads_confirmAction (action : PendingAction) : Reads (fun o => isUnnoted o = true) (confirmAction b action) :=
  only_handle (only_bind (only_perform rfl) fun _ => only_pure _)
    fun _ => only_ite (fun _ => only_pure _) fun _ => only_raise _

theorem reads_confirmMediaAction (action : PendingMediaAction) :
    Reads (fun o => isUnnoted o = true) (confirmMediaAction action) :=
  only_handle (only_bind (only_perform rfl) fun _ => only_pure _)
    fun _ => only_ite (fun _ => only_pure _) fun _ => only_raise _

/-- A report without the words, of a call that has none. -/
theorem reports_pure {content : String} (h : Calling done todo messages call s log)
    (hshows : showsAction content.toList = call.marked) : Reports done todo messages call (pure content) s log :=
  ⟨call, h, rfl, rfl, hshows⟩

/-- An exception that is let through, or reported. -/
theorem reports_unless {c : Bool} {e : AssistantExn} {content : String} (h : Calling done todo messages call s log)
    (hshows : showsAction content.toList = call.marked) :
    Reports done todo messages call (if c then raise e else pure content) s log := by
  cases c with
  | true => exact fun _ => h
  | false => exact reports_pure h hshows

/-- Other refusals do not matter. -/
theorem Calling.declined (h : Calling done todo messages call s log) (key : String) :
    Calling done todo messages call { s with declined := s.declined.set key ((s.declined.get? key).getD 0 + 1) } log :=
  ⟨h.log, h.messages, h.listed, h.sound⟩

/-- A call that has just begun. -/
structure Fresh (call : CallRecord) : Prop where
  acted : call.acted = false
  marked : call.marked = false
  flagged : call.flagged = false

theorem onLast_append (f : CallRecord → CallRecord) :
    TurnLog.onLast { calls := done ++ [call], todo := todo } f = { calls := done ++ [f call], todo := todo } := by
  simp [TurnLog.onLast]

/-- What the session lists, the log lists. -/
theorem listed_flagged (hflag : call.flagged = true) (hs : s.executed ≠ [] ∨ s.possiblyPartial ≠ []) : Listed s (done ++ [call]) := by
  constructor
  · rintro ⟨hexecuted, hpart⟩
    exact (hs.elim (fun h => h hexecuted) fun h => h hpart).elim
  · intro h
    have hcall := h call (by simp)
    rw [hflag] at hcall
    cases hcall

/-- Two calls that are not listed. -/
theorem Listed.congr {call' : CallRecord} (h : Listed s (done ++ [call])) (hflag : call.flagged = false)
    (hflag' : call'.flagged = false) (hexecuted : s'.executed = s.executed) (hpart : s'.possiblyPartial = s.possiblyPartial) :
    Listed s' (done ++ [call']) := by
  unfold Listed at h ⊢
  rw [hexecuted, hpart, h]
  simp only [List.forall_mem_append, List.forall_mem_singleton, hflag, hflag']

/-- A line for the operator, after what has to be reported. -/
theorem reports_told {line content : String} (call' : CallRecord) (h : Calling done todo messages call' s log)
    (hname : call'.name = call.name) (hleft : call'.left = call.left) (hshows : showsAction content.toList = call'.marked) :
    Reports done todo messages call (do
      announce line
      pure content) s log := by
  unfold Reports announce
  rw [wp_bind, wp_handle]
  refine wp_follows trivial (fun _ => ⟨call', h, hname, hleft, hshows⟩) fun e => ?_
  by_cases he : e.isException = true
  · rw [if_pos he]
    exact ⟨call', h, hname, hleft, hshows⟩
  · rw [if_neg he]
    refine fun hassistant => absurd ?_ he
    cases e with
    | base cls => cases hassistant
    | keyboardInterrupt => cases hassistant
    | _ => rfl

theorem reports_settleSetup {action : PendingAction} (h : Calling done todo messages call s log) (hfresh : Fresh call)
    (outcome : Except AssistantExn Json) :
    Reports done todo messages call (settleSetup action outcome) s { calls := done ++ [call.afterSetup outcome], todo := todo } := by
  have hflagged : ∀ (call' : CallRecord) (tool content : String), call'.flagged = true → call'.acted = true →
      call'.name = call.name → call'.left = call.left → showsAction content.toList = call'.marked →
      Reports done todo messages call (do
        appendExecuted tool
        pure content) s { calls := done ++ [call'], todo := todo } := by
    intro call' tool content hflag hacted hname hleft hshows
    exact ⟨call', ⟨rfl, h.messages, listed_flagged hflag (.inl (by simp)), fun _ => hacted⟩, hname, hleft, hshows⟩
  have hsame : Calling done todo messages call s { calls := done ++ [call], todo := todo } :=
    ⟨rfl, h.messages, h.listed, h.sound⟩
  cases outcome with
  | ok outcome => exact hflagged _ _ _ rfl rfl rfl rfl (marked_executedReport _ _)
  | error e =>
    cases e with
    | setupRefused message code candidates =>
      exact reports_pure hsame ((unmarked_refusal code message candidates true).trans hfresh.marked.symm)
    | setupPartialWrite message applied cause =>
      exact hflagged _ _ _ rfl rfl rfl rfl ((unmarked_partialReport _ message applied).trans hfresh.marked.symm)
    | _ =>
      simp only [settleSetup]
      exact reports_unless hsame ((unmarked_setupErrorReport _ _).trans hfresh.marked.symm)

theorem reports_settleMedia {action : PendingMediaAction} (h : Calling done todo messages call s log) (hfresh : Fresh call)
    (outcome : Except AssistantExn Json) :
    Reports done todo messages call (settleMedia b action outcome) s
      { calls := done ++ [call.afterMedia action.tool outcome], todo := todo } := by
  have hsame : Calling done todo messages call s { calls := done ++ [{ call with acted := false }], todo := todo } := by
    rw [← hfresh.acted]
    exact ⟨rfl, h.messages, h.listed, h.sound⟩
  have hbroken : Calling done todo messages { call with acted := true } s
      { calls := done ++ [{ call with acted := true }], todo := todo } :=
    ⟨rfl, h.messages, h.listed.congr hfresh.flagged hfresh.flagged rfl rfl, fun _ => rfl⟩
  cases outcome with
  | ok outcome =>
    unfold Reports settleMedia appendExecuted
    rw [wp_bind, wp_assign]
    exact reports_told { call with acted := true, marked := true, flagged := true }
      ⟨rfl, h.messages, listed_flagged rfl (.inl (by simp)), fun _ => rfl⟩ rfl rfl (marked_executedReport _ _)
  | error e =>
    cases e with
    | mediaRefused message code candidates =>
      exact reports_told _ hsame rfl rfl ((unmarked_refusal code message candidates true).trans hfresh.marked.symm)
    | mediaOperationFailed message =>
      unfold Reports settleMedia whenLong appendPossiblyPartial
      simp only [CallRecord.afterMedia]
      have hshows := showsAction_failedReport action message
      rw [wp_bind]
      cases hlong : action.tool.longRunning with
      | true =>
        rw [hlong] at hshows
        rw [if_pos rfl, wp_assign]
        exact reports_told { call with acted := true, marked := true, flagged := true }
          ⟨rfl, h.messages, listed_flagged rfl (.inr (by simp)), fun _ => rfl⟩ rfl rfl hshows
      | false =>
        rw [hlong] at hshows
        rw [if_neg Bool.false_ne_true, wp_pure]
        exact reports_told { call with acted := false, marked := false, flagged := false }
          ⟨rfl, h.messages, h.listed.congr hfresh.flagged rfl rfl rfl, nofun⟩ rfl rfl hshows
    | eof =>
      simp only [settleMedia]
      exact ⟨_, hbroken, rfl, rfl, (unmarked_mediaErrorReport _ _).trans hfresh.marked.symm⟩
    | exception cls =>
      simp only [settleMedia]
      exact ⟨_, hbroken, rfl, rfl, (unmarked_mediaErrorReport _ _).trans hfresh.marked.symm⟩
    | _ =>
      simp only [settleMedia]
      exact reports_unless hsame ((unmarked_mediaErrorReport _ _).trans hfresh.marked.symm)

theorem reports_applySetup {action : PendingAction} (h : Calling done todo messages call s log) (hfresh : Fresh call) :
    Reports done todo messages call (applySetup action) s log := by
  unfold Reports applySetup
  rw [wp_bind, wp_attempt]
  have hnote : ∀ outcome, log.note (.applySetup action) outcome = { calls := done ++ [call.afterSetup outcome], todo := todo } := by
    intro outcome
    rw [h.log]
    exact onLast_append _
  refine wp_follows trivial (fun outcome => ?_) fun e => ?_
  · rw [hnote]
    exact reports_settleSetup h hfresh (.ok outcome)
  · rw [hnote]
    exact reports_settleSetup h hfresh (.error e)

theorem reports_decline {action : PendingAction} {reason : String} {repeated : Bool} (h : Calling done todo messages call s log)
    (hfresh : Fresh call) : Reports done todo messages call (decline action reason repeated) s log :=
  ⟨call, h.declined _, rfl, rfl, (unmarked_declinedReport _ _ _).trans hfresh.marked.symm⟩

theorem reports_gateSetup {action : PendingAction} (h : Calling done todo messages call s log) (hfresh : Fresh call) :
    Reports done todo messages call (gateSetup b action) s log := by
  unfold Reports gateSetup
  rw [wp_bind, wp_locals]
  by_cases hdeclined : s.isDeclined action.key = true
  · rw [if_pos hdeclined]
    exact reports_decline h hfresh
  rw [if_neg hdeclined, wp_bind, wp_attempt]
  refine wp_mono (wp_unnoted (reads_confirmAction action)) ?_ ?_
  · rintro approved _ _ ⟨rfl, rfl⟩
    cases approved with
    | true =>
      show Reports done todo messages call (applySetup action) _ _
      exact reports_applySetup h hfresh
    | false =>
      show Reports done todo messages call (decline action "the operator answered no" false) _ _
      exact reports_decline h hfresh
  · rintro e _ _ ⟨rfl, rfl⟩
    show wp _ _ (ite _ _ (ite _ _ _)) _ _ _ _
    split
    · exact reports_decline h hfresh
    split
    · exact reports_decline h hfresh
    · exact fun _ => h

theorem reports_setupUnplanned {tool : ToolCall} (h : Calling done todo messages call s log) (hfresh : Fresh call)
    (e : AssistantExn) : Reports done todo messages call (setupUnplanned tool e) s log := by
  cases e with
  | setupRefused message code candidates =>
    exact reports_pure h ((unmarked_refusal code message candidates false).trans hfresh.marked.symm)
  | _ =>
    simp only [setupUnplanned]
    exact reports_unless h ((unmarked_unavailable _ _ _).trans hfresh.marked.symm)

theorem reports_runSetupTool {tool : SetupTool} {toolCall : ToolCall} (h : Calling done todo messages call s log)
    (hfresh : Fresh call) : Reports done todo messages call (runSetupTool b tool toolCall) s log := by
  unfold Reports runSetupTool
  rw [wp_bind, wp_attempt]
  refine wp_mono (wp_unnoted (reads_planSetup tool toolCall.arguments)) ?_ ?_
  · rintro action _ _ ⟨rfl, rfl⟩
    exact reports_gateSetup h hfresh
  · rintro e _ _ ⟨rfl, rfl⟩
    exact reports_setupUnplanned h hfresh e

theorem reads_announce (line : String) : Reads (fun o => isUnnoted o = true) (announce line) :=
  only_handle (only_perform rfl) fun _ => only_ite (fun _ => only_pure _) fun _ => only_raise _

theorem reads_whenLong (tool : MediaTool) {m : AssistM Unit} (h : Reads (fun o => isUnnoted o = true) m) :
    Reads (fun o => isUnnoted o = true) (whenLong tool m) :=
  only_ite (fun _ => h) fun _ => only_pure _

/-- The check before a media operation, and the operation. -/
theorem wp_performMedia {action : PendingMediaAction} {authorization : MediaAuthorization}
    (h : Calling done todo messages call s log) (hfresh : Fresh call) :
    wp machine free (attempt (performMedia b action authorization))
      (fun outcome s' log' => s' = s ∧ log' = { calls := done ++ [call.afterMedia action.tool outcome], todo := todo })
      (fun _ _ _ => False) s log := by
  have hrefused : ∀ message, wp machine free (attempt (raise (mediaNotAuthorizedError message) : AssistM Json))
      (fun outcome s' log' => s' = s ∧ log' = { calls := done ++ [call.afterMedia action.tool outcome], todo := todo })
      (fun _ _ _ => False) s log := by
    intro message
    rw [wp_attempt, wp_raise]
    refine ⟨rfl, ?_⟩
    have hsame : call.afterMedia action.tool (.error (mediaNotAuthorizedError message)) = { call with acted := false } := rfl
    rw [hsame, ← hfresh.acted]
    exact h.log
  unfold performMedia
  split
  · exact hrefused _
  split
  · exact hrefused _
  split
  · exact hrefused _
  have hnote : ∀ outcome, log.note (.applyMedia action) outcome =
      { calls := done ++ [call.afterMedia action.tool outcome], todo := todo } := by
    intro outcome
    rw [h.log]
    exact onLast_append _
  rw [wp_attempt]
  exact wp_follows trivial (fun outcome => ⟨rfl, hnote (.ok outcome)⟩) fun e => ⟨rfl, hnote (.error e)⟩

theorem reports_applyMedia {action : PendingMediaAction} {authorization : MediaAuthorization}
    (h : Calling done todo messages call s log) (hfresh : Fresh call) :
    Reports done todo messages call (applyMedia b action authorization) s log := by
  unfold Reports applyMedia
  rw [wp_bind]
  refine wp_mono (wp_unnoted (reads_whenLong action.tool (reads_announce _))) ?_ ?_
  · rintro _ _ _ ⟨rfl, rfl⟩
    rw [wp_bind]
    refine wp_mono (wp_performMedia h hfresh) ?_ fun _ _ _ h => h.elim
    rintro outcome _ _ ⟨rfl, rfl⟩
    exact reports_settleMedia h hfresh outcome
  · rintro e _ _ ⟨rfl, rfl⟩
    exact fun _ => h

theorem reports_declineMedia {action : PendingMediaAction} {reason : String} (h : Calling done todo messages call s log)
    (hfresh : Fresh call) : Reports done todo messages call (declineMedia action reason) s log :=
  ⟨call, h.declined _, rfl, rfl, (unmarked_declinedMediaReport _ _).trans hfresh.marked.symm⟩

theorem reports_answerMedia {action : PendingMediaAction} {response : Option String} (h : Calling done todo messages call s log)
    (hfresh : Fresh call) : Reports done todo messages call (answerMedia b action response) s log := by
  unfold answerMedia
  cases authorize b action response with
  | none => exact reports_declineMedia h hfresh
  | some authorization => exact reports_applyMedia h hfresh

theorem reports_gateMedia {action : PendingMediaAction} (h : Calling done todo messages call s log) (hfresh : Fresh call) :
    Reports done todo messages call (gateMedia b action) s log := by
  unfold Reports gateMedia
  rw [wp_bind, wp_attempt]
  refine wp_mono (wp_unnoted (reads_confirmMediaAction action)) ?_ ?_
  · rintro response _ _ ⟨rfl, rfl⟩
    exact reports_answerMedia h hfresh
  · rintro e _ _ ⟨rfl, rfl⟩
    show wp _ _ (ite _ _ (ite _ _ _)) _ _ _ _
    split
    · exact reports_answerMedia h hfresh
    split
    · exact reports_declineMedia h hfresh
    · exact fun _ => h

theorem reports_mediaUnplanned {toolCall : ToolCall} {what : String} (h : Calling done todo messages call s log)
    (hfresh : Fresh call) (e : AssistantExn) : Reports done todo messages call (mediaUnplanned toolCall what e) s log := by
  cases e with
  | mediaRefused message code candidates =>
    exact reports_pure h ((unmarked_refusal code message candidates false).trans hfresh.marked.symm)
  | _ =>
    simp only [mediaUnplanned]
    exact reports_unless h ((unmarked_unavailable _ _ _).trans hfresh.marked.symm)

theorem reports_proposeMedia {tool : MediaTool} {toolCall : ToolCall} (h : Calling done todo messages call s log)
    (hfresh : Fresh call) : Reports done todo messages call (proposeMedia b tool toolCall) s log := by
  unfold Reports proposeMedia
  rw [wp_bind, wp_attempt]
  refine wp_mono (wp_unnoted (reads_plan tool toolCall.arguments)) ?_ ?_
  · rintro action _ _ ⟨rfl, rfl⟩
    exact reports_gateMedia h hfresh
  · rintro e _ _ ⟨rfl, rfl⟩
    exact reports_mediaUnplanned h hfresh e

theorem reports_runMediaTool {tool : MediaTool} {toolCall : ToolCall} (h : Calling done todo messages call s log)
    (hfresh : Fresh call) : Reports done todo messages call (runMediaTool b tool toolCall) s log := by
  unfold Reports runMediaTool
  rw [wp_bind, wp_attempt]
  refine wp_mono (wp_unnoted (reads_actionKey tool toolCall.arguments)) ?_ ?_
  · rintro key _ _ ⟨rfl, rfl⟩
    show wp _ _ (locals >>= _) _ _ _ _
    rw [wp_bind, wp_locals]
    split
    · exact ⟨call, h.declined _, rfl, rfl, (unmarked_repeatedReport _).trans hfresh.marked.symm⟩
    · exact reports_proposeMedia h hfresh
  · rintro e _ _ ⟨rfl, rfl⟩
    exact reports_mediaUnplanned h hfresh e

theorem unmarked_readError (message : String) : showsAction (renderResult [("error", .str message)]).toList = false :=
  unmarked_of_fields (by simp [reportKeys]) (by simp [Json.isFlat]) (by simp) (by simp)

theorem reports_runReadTool {toolCall : ToolCall} (h : Calling done todo messages call s log) (hfresh : Fresh call) :
    Reports done todo messages call (runReadTool cfg toolCall) s log := by
  unfold Reports runReadTool
  rw [wp_bind, wp_attempt]
  have hnote : ∀ outcome, log.note (.readTool toolCall) outcome = { calls := done ++ [call.afterRead outcome], todo := todo } := by
    intro outcome
    rw [h.log]
    exact onLast_append _
  refine wp_follows trivial (fun outcome => ?_) fun e => ?_
  · rw [hnote]
    exact ⟨call.afterRead (.ok outcome),
      ⟨rfl, h.messages, h.listed.congr hfresh.flagged hfresh.flagged rfl rfl, h.sound⟩, rfl, rfl, rfl⟩
  · rw [hnote]
    have hsame : Calling done todo messages call s { calls := done ++ [call], todo := todo } :=
      ⟨rfl, h.messages, h.listed, h.sound⟩
    show Reports done todo messages call (settleRead cfg toolCall (.error e)) s { calls := done ++ [call], todo := todo }
    cases e with
    | toolNotFound message => exact reports_pure hsame ((unmarked_readError _).trans hfresh.marked.symm)
    | _ =>
      simp only [settleRead]
      exact reports_unless hsame ((unmarked_readError _).trans hfresh.marked.symm)

theorem reports_runTool {toolCall : ToolCall} (h : Calling done todo messages call s log) (hfresh : Fresh call) :
    Reports done todo messages call (runTool cfg toolCall) s log := by
  unfold runTool
  cases dispatchTool cfg toolCall.name with
  | setup tool => exact reports_runSetupTool h hfresh
  | media tool => exact reports_runMediaTool h hfresh
  | read => exact reports_runReadTool h hfresh

/-! ### The messages of a turn -/

/-- The messages a turn has written, for the calls it has made, and the names still to be answered. -/
inductive Told : List Message → List CallRecord → List String → Prop
  | question (text : String) : Told [.user text] [] []
  | round {messages : List Message} {calls : List CallRecord} (content : String) (toolCalls : List ToolCall) :
    Told messages calls [] → Told (messages ++ [.assistant content toolCalls]) calls (toolCalls.map ToolCall.name)
  | answer {messages : List Message} {calls : List CallRecord} {call : CallRecord} {rest : List String} (content : String) :
    Told messages calls (call.name :: rest) → call.left = rest.length → showsAction content.toList = call.marked →
    (call.flagged = true → call.acted = true) → Told (messages ++ [.tool call.name content]) (calls ++ [call]) rest

variable {pending : List String} {calls : List CallRecord}

theorem Told.pendingCalls_eq (h : Told messages calls pending) : pendingCalls [] messages = some pending := by
  induction h with
  | question text => rfl
  | round content toolCalls _ ih =>
    rw [pendingCalls_append, ih]
    rfl
  | answer content _ _ _ _ ih =>
    rw [pendingCalls_append, ih]
    simp [pendingCalls]

theorem Told.names (h : Told messages calls pending) : messages.filterMap Message.toolName? = calls.map CallRecord.name := by
  induction h with
  | question text => rfl
  | round content toolCalls _ ih => simp [ih, Message.toolName?]
  | answer content _ _ _ _ ih => simp [ih, Message.toolName?]

theorem Told.begins (h : Told messages calls pending) : ∃ text rest, messages = .user text :: rest := by
  induction h with
  | question text => exact ⟨text, [], rfl⟩
  | round content toolCalls _ ih =>
    obtain ⟨text, rest, rfl⟩ := ih
    exact ⟨text, _, rfl⟩
  | answer content _ _ _ _ ih =>
    obtain ⟨text, rest, rfl⟩ := ih
    exact ⟨text, _, rfl⟩

theorem Told.sound (h : Told messages calls pending) : ∀ call ∈ calls, call.flagged = true → call.acted = true := by
  induction h with
  | question text => simp
  | round content toolCalls _ ih => exact ih
  | answer content _ _ _ hsound ih =>
    rw [List.forall_mem_append, List.forall_mem_singleton]
    exact ⟨ih, hsound⟩

/-- No message of the turn is one that is looked for, or there is a last one, and it is that of the last marked call. -/
theorem Told.lastMarked (h : Told messages calls pending) :
    ((∀ message ∈ messages, message.isMarked = false) ∧ ∀ call ∈ calls, call.marked = false) ∨
      ∃ before message after calls₁ call calls₂ left, messages = before ++ message :: after ∧ message.isMarked = true ∧
        (∀ message ∈ after, message.isMarked = false) ∧ calls = calls₁ ++ call :: calls₂ ∧ call.marked = true ∧
        (∀ call ∈ calls₂, call.marked = false) ∧ Told (before ++ [message]) (calls₁ ++ [call]) left ∧ call.left = left.length := by
  induction h with
  | question text =>
    refine .inl ⟨?_, ?_⟩
    · simp [Message.isMarked]
    · simp
  | round content toolCalls _ ih =>
    rcases ih with ⟨hmessages, hcalls⟩ | ⟨before, message, after, calls₁, call, calls₂, left, rfl, hmarked, hafter, hcalls⟩
    · refine .inl ⟨?_, hcalls⟩
      rw [List.forall_mem_append, List.forall_mem_singleton]
      exact ⟨hmessages, rfl⟩
    · refine .inr ⟨before, message, after ++ [.assistant content toolCalls], calls₁, call, calls₂, left, by simp, hmarked, ?_, hcalls⟩
      rw [List.forall_mem_append, List.forall_mem_singleton]
      exact ⟨hafter, rfl⟩
  | @answer messages calls call rest content htold hleft hshows hsound ih =>
    have hmessage : (Message.tool call.name content).isMarked = call.marked := hshows
    cases hmark : call.marked with
    | true =>
      exact .inr ⟨messages, .tool call.name content, [], calls, call, [], rest, rfl, hmessage.trans hmark, by simp, rfl, hmark, by simp,
        .answer content htold hleft hshows hsound, hleft⟩
    | false =>
      rcases ih with ⟨hmessages, hcalls⟩ |
        ⟨before, message, after, calls₁, last, calls₂, left, rfl, hmarked, hafter, rfl, hlast, hcalls₂, hbefore⟩
      · refine .inl ⟨?_, ?_⟩
        · rw [List.forall_mem_append, List.forall_mem_singleton]
          exact ⟨hmessages, hmessage.trans hmark⟩
        · rw [List.forall_mem_append, List.forall_mem_singleton]
          exact ⟨hcalls, hmark⟩
      · refine .inr ⟨before, message, after ++ [.tool call.name content], calls₁, last, calls₂ ++ [call], left, by simp, hmarked, ?_,
          by simp, hlast, ?_, hbefore⟩
        · rw [List.forall_mem_append, List.forall_mem_singleton]
          exact ⟨hafter, hmessage.trans hmark⟩
        · rw [List.forall_mem_append, List.forall_mem_singleton]
          exact ⟨hcalls₂, hmark⟩

/-! ### The rewound transcript -/

/-- Where nothing is marked, the turn is forgotten. -/
theorem take_rewindFloor_unmarked {before : List Message} (hs : s.messages = before ++ messages)
    (h : (s.executed = [] ∧ s.possiblyPartial = []) ∨ ∀ message ∈ messages, message.isMarked = false) :
    s.messages.take (rewindFloor s before.length) = before := by
  have hfloor : rewindFloor s before.length = before.length := by
    unfold rewindFloor
    by_cases hnone : s.executed = [] ∧ s.possiblyPartial = []
    · exact if_pos hnone
    · rw [if_neg hnone, hs, List.drop_left]
      have hfind : messages.reverse.findIdx? Message.isMarked = none := by
        rw [List.findIdx?_eq_none_iff]
        exact fun message hmessage => h.resolve_left hnone message (List.mem_reverse.1 hmessage)
      rw [hfind]
  rw [hfloor, hs, List.take_left]

/-- Where an action is listed, everything up to the last marked message is kept. -/
theorem take_rewindFloor_marked {before first after : List Message} {message : Message}
    (hs : s.messages = before ++ (first ++ message :: after)) (hlisted : ¬(s.executed = [] ∧ s.possiblyPartial = []))
    (hmarked : message.isMarked = true) (hafter : ∀ message ∈ after, message.isMarked = false) :
    s.messages.take (rewindFloor s before.length) = before ++ (first ++ [message]) := by
  have hfind : (first ++ message :: after).reverse.findIdx? Message.isMarked = some after.length := by
    rw [List.reverse_append, List.reverse_cons, List.append_assoc, List.findIdx?_append]
    have hnone : after.reverse.findIdx? Message.isMarked = none := by
      rw [List.findIdx?_eq_none_iff]
      exact fun message hmessage => hafter message (List.mem_reverse.1 hmessage)
    rw [hnone]
    simp [List.findIdx?_cons, hmarked]
  have hfloor : rewindFloor s before.length = (before ++ (first ++ [message])).length := by
    unfold rewindFloor
    rw [if_neg hlisted, hs, List.drop_left, hfind]
    simp only [List.length_append, List.length_cons, List.length_nil]
    omega
  have hsplit : before ++ (first ++ message :: after) = before ++ (first ++ [message]) ++ after := by simp
  rw [hfloor, hs, hsplit, List.take_left]

/-- The last element with a property splits a list in one way. -/
theorem split_last_unique {β : Type} {p : β → Prop} {first first' after after' : List β} {x x' : β}
    (h : first ++ x :: after = first' ++ x' :: after') (hx : p x) (hx' : p x') (hafter : ∀ y ∈ after, ¬p y)
    (hafter' : ∀ y ∈ after', ¬p y) : x = x' ∧ after = after' := by
  rcases List.append_eq_append_iff.1 h with ⟨mid, hfirst, hrest⟩ | ⟨mid, hfirst, hrest⟩
  · cases mid with
    | nil => exact List.cons_eq_cons.1 hrest
    | cons y mid =>
      obtain ⟨rfl, rfl⟩ := List.cons_eq_cons.1 hrest
      exact absurd hx' (hafter x' (by simp))
  · cases mid with
    | nil =>
      obtain ⟨rfl, rfl⟩ := List.cons_eq_cons.1 hrest
      exact ⟨rfl, rfl⟩
    | cons y mid =>
      obtain ⟨rfl, rfl⟩ := List.cons_eq_cons.1 hrest
      exact absurd hx (hafter' x (by simp))

/-- The messages of a turn keep a transcript well formed once every call is answered. -/
theorem wellFormed_append {before : List Message} (h : Told messages calls pending) :
    WellFormedTranscript (before ++ messages) ↔ WellFormedTranscript before ∧ pending = [] := by
  unfold WellFormedTranscript
  rw [pendingCalls_append]
  cases hbefore : pendingCalls [] before with
  | none => simp
  | some left =>
    cases left with
    | nil =>
      rw [Option.bind_some, h.pendingCalls_eq]
      simp
    | cons name left =>
      obtain ⟨text, rest, rfl⟩ := h.begins
      simp [pendingCalls]

/-- What is remembered of a turn whose first calls are told. -/
theorem remembers_iff {before later : List Message} {first rest : List CallRecord}
    (h : later.filterMap Message.toolName? = first.map CallRecord.name) :
    Remembers before (before ++ later) (first ++ rest) ↔ ∀ call ∈ rest, call.acted = false := by
  constructor
  · rintro ⟨later', heq, hall⟩ call hcall
    obtain rfl : later = later' := List.append_cancel_left heq
    obtain ⟨j, hj⟩ := List.mem_iff_getElem?.1 hcall
    rw [← Bool.not_eq_true]
    intro hacted
    have hget : (first ++ rest)[first.length + j]? = some call := by
      rw [List.getElem?_append_right (Nat.le_add_right _ _), Nat.add_sub_cancel_left, hj]
    have hname := hall (first.length + j) call hget hacted
    rw [h, List.getElem?_eq_none (by simp)] at hname
    cases hname
  · intro hrest
    refine ⟨later, rfl, fun i call hget hacted => ?_⟩
    rcases Nat.lt_or_ge i first.length with hi | hi
    · rw [List.getElem?_append_left hi] at hget
      rw [h, List.getElem?_map, hget]
      rfl
    · rw [List.getElem?_append_right hi] at hget
      rw [hrest call (List.mem_of_getElem? hget)] at hacted
      cases hacted

/-- The turn has ended: it had written nothing, or its messages, with at most a call that had only begun. -/
def Ended (before : List Message) (s : SessionState) (log : TurnLog) : Prop :=
  s.messages = before ∧ log.calls = [] ∨
    ∃ messages calls pending tail, s.messages = before ++ messages ∧ Told messages calls pending ∧ log.calls = calls ++ tail ∧
      (∀ call ∈ tail, Fresh call) ∧ Listed s log.calls

/-- Where the turn is forgotten, nothing may have acted. -/
theorem forgotten_iff {before : List Message} :
    (WellFormedTranscript before ∧ Remembers before before calls) ↔
      WellFormedTranscript before ∧ ∀ call ∈ calls, call.acted = false := by
  have h : Remembers before (before ++ []) ([] ++ calls) ↔ ∀ call ∈ calls, call.acted = false := remembers_iff rfl
  rw [List.append_nil, List.nil_append] at h
  rw [h]

/-- The rewound transcript is well formed and remembers what acted exactly where it can be recovered. -/
theorem rewound_iff {before : List Message} (h : Ended before s log) :
    (WellFormedTranscript (s.messages.take (rewindFloor s before.length)) ∧
        Remembers before (s.messages.take (rewindFloor s before.length)) log.calls) ↔
      WellFormedTranscript before ∧ Recoverable log.calls := by
  have hforgotten : (∀ call ∈ log.calls, call.flagged = false) ∨ (∀ call ∈ log.calls, call.marked = false) →
      ((WellFormedTranscript before ∧ Remembers before before log.calls) ↔ WellFormedTranscript before ∧ Recoverable log.calls) := by
    intro hnone
    rw [forgotten_iff]
    refine and_congr_right fun _ => ⟨.inl, ?_⟩
    rintro (hacted | ⟨⟨call, hcall, hflag⟩, first, last, after, hsplit, hmark, -⟩)
    · exact hacted
    · rcases hnone with hnone | hnone
      · rw [hnone call hcall] at hflag
        cases hflag
      · rw [hnone last (by simp [hsplit])] at hmark
        cases hmark
  rcases h with ⟨hs, hcalls⟩ | ⟨messages, calls, pending, tail, hs, htold, hcalls, htail, hlisted⟩
  · have hnothing : s.messages = before ++ [] := by rw [hs, List.append_nil]
    rw [take_rewindFloor_unmarked hnothing (.inr (by simp))]
    exact hforgotten (.inl (by simp [hcalls]))
  by_cases hnone : s.executed = [] ∧ s.possiblyPartial = []
  · rw [take_rewindFloor_unmarked hs (.inl hnone)]
    exact hforgotten (.inl (hlisted.1 hnone))
  rcases htold.lastMarked with ⟨hmessages, hmarked⟩ |
    ⟨first, message, after, calls₁, last, calls₂, left, rfl, hmessage, hafter, rfl, hlast, hcalls₂, hbefore, hleft⟩
  · rw [take_rewindFloor_unmarked hs (.inr hmessages)]
    refine hforgotten (.inr ?_)
    rw [hcalls, List.forall_mem_append]
    exact ⟨hmarked, fun call hcall => (htail call hcall).marked⟩
  · rw [take_rewindFloor_marked hs hnone hmessage hafter, wellFormed_append hbefore]
    have hsplit : log.calls = calls₁ ++ [last] ++ (calls₂ ++ tail) := by simp [hcalls]
    rw [hsplit, remembers_iff hbefore.names, and_assoc]
    refine and_congr_right fun _ => ?_
    have hunmarked : ∀ call ∈ calls₂ ++ tail, call.marked = false := by
      rw [List.forall_mem_append]
      exact ⟨hcalls₂, fun call hcall => (htail call hcall).marked⟩
    have hflagged : ∃ call ∈ calls₁ ++ [last] ++ (calls₂ ++ tail), call.flagged = true := by
      rw [← hsplit]
      by_contra hall
      refine hnone (hlisted.2 fun call hcall => ?_)
      rw [← Bool.not_eq_true]
      exact fun hflag => hall ⟨call, hcall, hflag⟩
    constructor
    · rintro ⟨hpending, hacted⟩
      refine .inr ⟨hflagged, calls₁, last, calls₂ ++ tail, by simp, hlast, ?_, fun call hcall => ⟨hunmarked call hcall, hacted call hcall⟩⟩
      rw [hleft, hpending]
      rfl
    · rintro (hnothing | ⟨-, first', last', after', hsplit', hlast', hleft', hafter'⟩)
      · obtain ⟨call, hcall, hflag⟩ := hflagged
        have hacted : call.acted = true := by
          rw [← hsplit, hcalls] at hcall
          rcases List.mem_append.1 hcall with hcall | hcall
          · exact htold.sound call hcall hflag
          · rw [(htail call hcall).flagged] at hflag
            cases hflag
        rw [hnothing call hcall] at hacted
        cases hacted
      · rw [List.append_assoc, List.singleton_append] at hsplit'
        have hsame := split_last_unique (p := fun call => call.marked = true) hsplit' hlast hlast'
          (fun call hcall => by simp [hunmarked call hcall]) fun call hcall => by simp [(hafter' call hcall).1]
        obtain ⟨rfl, rfl⟩ := hsame
        exact ⟨List.length_eq_zero_iff.1 (hleft.symm.trans hleft'), fun call hcall => (hafter' call hcall).2⟩

/-! ### Rounds -/

/-- Between two calls of a round: the calls that are left, and what is told. -/
def Between (before : List Message) (names : List String) (s : SessionState) (log : TurnLog) : Prop :=
  ∃ messages, s.messages = before ++ messages ∧ Told messages log.calls names ∧ log.todo = names.length ∧ Listed s log.calls

theorem Between.ended {before : List Message} {names : List String} (h : Between before names s log) : Ended before s log := by
  obtain ⟨messages, hs, htold, -, hlisted⟩ := h
  exact .inr ⟨messages, log.calls, names, [], hs, htold, by simp, by simp, hlisted⟩

/-- What a part of a turn leaves where it fails. -/
abbrev Fails (before : List Message) (e : AssistantExn) (s : SessionState) (log : TurnLog) : Prop :=
  e.isAssistantError = true → Ended before s log

theorem wp_runCall {before : List Message} {toolCall : ToolCall} {rest : List String}
    (h : Between before (toolCall.name :: rest) s log) :
    wp machine free (runCall cfg toolCall) (fun _ s' log' => Between before rest s' log') (Fails before) s log := by
  obtain ⟨messages, hs, htold, htodo, hlisted⟩ := h
  have hbegun : Calling log.calls rest.length s.messages { name := toolCall.name, left := rest.length } s
      { calls := log.calls ++ [{ name := toolCall.name, left := rest.length }], todo := rest.length } := by
    refine ⟨rfl, rfl, ?_, nofun⟩
    unfold Listed at hlisted ⊢
    rw [hlisted, List.forall_mem_append, List.forall_mem_singleton]
    simp
  have hfresh : Fresh { name := toolCall.name, left := rest.length } := ⟨rfl, rfl, rfl⟩
  have hended : ∀ (s' : SessionState) (log' : TurnLog),
      Calling log.calls rest.length s.messages { name := toolCall.name, left := rest.length } s' log' → Ended before s' log' := by
    rintro s' log' ⟨rfl, hmessages, hlisted', -⟩
    exact .inr ⟨messages, log.calls, _, [_], hmessages.trans hs, htold, rfl, by simpa using hfresh, hlisted'⟩
  have hnote : ∀ x, log.note (.observe toolCall) x =
      { calls := log.calls ++ [{ name := toolCall.name, left := rest.length }], todo := rest.length } := by
    intro x
    simp [TurnLog.note, htodo]
  unfold runCall
  rw [wp_bind]
  refine wp_follows trivial (fun _ => ?_) fun _ => ?_
  · rw [hnote, wp_bind]
    refine wp_mono (reports_runTool hbegun hfresh) ?_ fun e s' log' h hassistant => hended s' log' (h hassistant)
    rintro content s' _ ⟨call, ⟨rfl, hmessages, hlisted', hsound⟩, hname, hleft, hshows⟩
    refine ⟨messages ++ [.tool toolCall.name content], ?_, ?_, rfl, hlisted'⟩
    · simp [hmessages, hs]
    · obtain hname : call.name = toolCall.name := hname
      rw [← hname] at htold ⊢
      exact .answer content htold hleft hshows hsound
  · rw [hnote]
    exact fun _ => hended _ _ hbegun

theorem wp_appendToolRound {before : List Message} {reply : ChatReply} (h : Between before [] s log) :
    wp machine free (appendToolRound cfg reply) (fun _ s' log' => Between before [] s' log') (Fails before) s
      { log with todo := reply.toolCalls.length } := by
  obtain ⟨messages, hs, htold, -, hlisted⟩ := h
  unfold appendToolRound appendMessage
  rw [wp_bind, wp_assign]
  refine wp_forEach (runCall cfg) reply.toolCalls
    (fun pre s' log' => ∃ post, reply.toolCalls = pre ++ post ∧ Between before (post.map ToolCall.name) s' log') ?_ ?_ ?_
  · refine ⟨reply.toolCalls, rfl, messages ++ [.assistant reply.content reply.toolCalls], ?_, .round _ _ htold, by simp, hlisted⟩
    simp [hs]
  · rintro pre toolCall post s' log' hcalls ⟨post', hcalls', hbetween⟩
    obtain rfl : post' = toolCall :: post := List.append_cancel_left (hcalls'.symm.trans hcalls)
    refine wp_mono (wp_runCall hbetween) ?_ fun _ _ _ h => h
    exact fun _ s'' log'' h => ⟨post, by simp [hcalls], h⟩
  · rintro s' log' ⟨post, hcalls, hbetween⟩
    obtain rfl : post = [] := List.append_cancel_left (hcalls.symm.trans (List.append_nil _).symm)
    exact hbetween

theorem length_capToolCalls (reply : ChatReply) :
    (capToolCalls reply).toolCalls.length = min reply.toolCalls.length maxCallsPerRound := by
  unfold capToolCalls
  split
  · omega
  · rw [List.length_take]
    omega

theorem wp_askRounds {before : List Message} {used : List String} {number left : Nat} (h : Between before [] s log) :
    wp machine free (askRounds cfg used number left) (fun _ _ _ => True) (Fails before) s log := by
  induction left generalizing used number s log with
  | zero => exact fun _ => h.ended
  | succ left ih =>
    unfold askRounds
    rw [wp_bind, wp_locals, wp_bind]
    refine wp_follows trivial (fun reply => ?_) fun e => fun _ => h.ended
    by_cases hprose : reply.toolCalls.isEmpty = true
    · rw [if_pos hprose]
      trivial
    rw [if_neg hprose]
    have hnote : log.note (.chat s.messages) (.ok reply) = { log with todo := (capToolCalls reply).toolCalls.length } := by
      rw [length_capToolCalls]
      rfl
    rw [hnote]
    show wp _ _ (appendToolRound cfg (capToolCalls reply) >>= _) _ _ _ _
    rw [wp_bind]
    exact wp_mono (wp_appendToolRound h) (fun _ _ _ h => ih h) fun _ _ _ h => h

/-- What a question leaves where it fails, before the transcript is rewound. -/
theorem wp_askQuestion {question : String} :
    wp machine free (askQuestion cfg question) (fun _ _ _ => True) (Fails s.messages) s {} := by
  unfold askQuestion
  rw [wp_bind]
  refine wp_follows trivial (fun _ => ?_) fun e _ => .inl ⟨rfl, rfl⟩
  unfold appendMessage
  rw [wp_bind, wp_assign, wp_bind, wp_assign]
  exact wp_askRounds ⟨[.user question], rfl, .question question, rfl, by simp [Listed, TurnLog.note]⟩

end TranscriptAux

/-- A question that ends with an `AssistantError`, whatever the model, the operator and the library have answered: the transcript that
is kept is well formed and has the message of every call that changed something, or may have, exactly if the transcript was well
formed before and the turn can be recovered. -/
theorem transcript_kept_iff (cfg : AssistConfig) (question : String) (s s' : SessionState)
    (answers : List (∀ o : AssistOp, Except AssistantExn o.Ans)) (e : AssistantExn) (log : TurnLog)
    (he : e.isAssistantError = true)
    (hrun : (havoc TurnLog.note).run answers (ask cfg question s) {} = (.ret (.error e, s'), log)) :
    (WellFormedTranscript s'.messages ∧ Remembers s.messages s'.messages log.calls) ↔
      WellFormedTranscript s.messages ∧ Recoverable log.calls := by
  have hwp : wp TranscriptAux.machine TranscriptAux.free (ask cfg question) (fun _ _ _ => True)
      (fun e s' log => e.isAssistantError = true → ((WellFormedTranscript s'.messages ∧ Remembers s.messages s'.messages log.calls) ↔
        WellFormedTranscript s.messages ∧ Recoverable log.calls)) s {} := by
    unfold ask
    rw [wp_bind, wp_locals, wp_handle]
    refine wp_mono TranscriptAux.wp_askQuestion (fun _ _ _ _ => trivial) ?_
    intro e s' log hfails
    rw [wp_bind]
    unfold rewind
    cases hassistant : e.isAssistantError with
    | true =>
      rw [if_pos rfl, wp_assign]
      exact fun _ => TranscriptAux.rewound_iff (hfails hassistant)
    | false =>
      rw [if_neg Bool.false_ne_true, wp_pure]
      intro htrue
      rw [hassistant] at htrue
      cases htrue
  exact (run_of_wp hwp answers fun _ _ => trivial).2 _ _ hrun he

/-- The answers of a turn in which the operator says yes to a new volume group and the client fails after the round. -/
def failingTurn (calls : List ToolCall) (reads : List String) : List (∀ o : AssistOp, Except AssistantExn o.Ans) :=
  (["", "", "", "Create volume group 'p'", "y", ""] ++ reads).map (scriptedAnswer calls) ++
    [fun _ => .error (.assistant "AssistantUpstreamError" "")]

def createPool : ToolCall := { name := "create_volume_group", arguments := [("name", .str "p")] }

/-- A volume group is created by the only call of a round: the transcript that is kept has the message of it. -/
theorem transcript_kept_created : WellFormedTranscript asciiAssistant.session.messages ∧
    WellFormedTranscript (asciiAssistant.session.messages ++ [.user "new pool", .assistant "" [createPool],
      .tool "create_volume_group" "\x7b\"executed\": true, \"action\": \"create_volume_group\", \"result\": \x7b\x7d\x7d"]) := by
  have hkept := (transcript_kept_iff asciiAssistant "new pool" asciiAssistant.session
    { messages := asciiAssistant.session.messages ++ [.user "new pool", .assistant "" [createPool],
        .tool "create_volume_group" "\x7b\"executed\": true, \"action\": \"create_volume_group\", \"result\": \x7b\x7d\x7d"]
      executed := ["create_volume_group"] }
    (failingTurn [createPool] []) (.assistant "AssistantUpstreamError" "")
    { calls := [{ name := "create_volume_group", left := 0, acted := true, marked := true, flagged := true }] } rfl
    (Prod.ext (Prog.value?_eq_some.1 (by decide +kernel)) (by decide +kernel))).2
    ⟨by decide, .inr ⟨⟨_, List.mem_cons_self, rfl⟩, [], _, [], rfl, rfl, rfl, by simp⟩⟩
  exact ⟨by decide, hkept.1⟩

/-- The round has a second call: the transcript is cut after the first of its two tool messages. -/
theorem round_cut_after_executed :
    (((havoc TurnLog.note).run (failingTurn [createPool, { name := "get_inventory" }] ["", ""])
      (ask asciiAssistant "new pool" asciiAssistant.session) {}).1.value?).any fun (outcome, kept) =>
        (match outcome with | .error e => e.isAssistantError | .ok _ => false) && !decide (WellFormedTranscript kept.messages) := by
  decide +kernel

end OpenBlade
