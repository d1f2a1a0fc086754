import OpenBlade.Assistant.Session
import OpenBlade.Effects.Protocol

/-!
# The confirmation gate

A session of any length follows a protocol: an operation is started only in the tool call that planned it, after the operator was
shown it and answered what its grade asks for, and what the operator declined is neither asked again nor executed. The last holds
as long as no path is resolved in two ways within one call, since a media tool reads its arguments once to look for a refusal and
once more to plan.
-/

namespace OpenBlade

open Effects Codec Proc

/-- An action that needs the operator. -/
inductive GatedAction where
  | setup (action : PendingAction)
  | media (action : PendingMediaAction)

namespace GatedAction

/-- The tool, and the normalised arguments. -/
def identity : GatedAction → String × Arguments
  | setup action => (action.tool.name, action.arguments)
  | media action => (action.tool.name, action.arguments)

/-- The answer is a yes. -/
def saysYes (b : TextBuiltins) (answer : String) : Bool := b.lower (strip answer) = "y" ∨ b.lower (strip answer) = "yes"

/-- The answer is what has to be typed, up to case and surrounding blanks. -/
def typesOut (b : TextBuiltins) (answer : String) (required : Option String) : Bool :=
  strip answer ≠ "" ∧ some (b.upper (strip answer)) = required.map fun text => b.upper (strip text)

/-- The answer satisfies the grade of the action. -/
def isMetBy (b : TextBuiltins) (answer : String) : GatedAction → Bool
  | setup _ => saysYes b answer
  | media action =>
    match action.grade with
    | .yesNo => saysYes b answer
    | .typed => typesOut b answer action.requiredResponse

end GatedAction

/-- What the plan of a call says: the tool and the normalised arguments, and how the plan is described. -/
inductive Proposal where
  | setup (tool : SetupTool) (arguments : Arguments) (preview : String)
  | media (tool : MediaTool) (arguments : Arguments) (plan : MediaPlan)

/-- The action shows what is planned. The erasing of a cartridge and the overwriting of a file have to be typed. -/
def Proposal.ShownBy : Proposal → GatedAction → Prop
  | .setup tool arguments preview, .setup action =>
    action.tool = tool ∧ action.arguments = arguments ∧ action.preview = preview
  | .media tool arguments plan, .media action =>
    action.tool = tool ∧ action.arguments = arguments ∧ action.preview = plan.preview ∧
      (tool = .formatTape → action.grade = .typed ∧ action.requiredResponse = some plan.barcode) ∧
      (tool = .restorePath → plan.overwrites = true → action.grade = .typed)
  | _, _ => False

/-- What is noted of a session: of the tool call it is in, and of the refusals since it was reset. -/
structure Gate where
  planned : Option Proposal := none
  approved : Option GatedAction := none
  /-- The paths resolved in this call. -/
  resolved : List (String × String) := []
  declined : List (String × Arguments) := []

namespace Gate

/-- What an answer makes of an action. -/
def answered (g : Gate) (b : TextBuiltins) (action : GatedAction) : Except AssistantExn String → Gate
  | .ok answer =>
    if action.isMetBy b answer then { g with approved := some action }
    else { g with declined := action.identity :: g.declined }
  | .error (.base _) => g
  | .error _ => { g with declined := action.identity :: g.declined }

/-- What is noted of an operation and its answer. -/
def note (b : TextBuiltins) (g : Gate) : (o : AssistOp) → Except AssistantExn o.Ans → Gate
  | .readLine, .ok (line : String) => if strip line = "/reset" then { g with declined := [] } else g
  | .observe _, _ => { declined := g.declined }
  | .resolve path, .ok (target : String) => { g with resolved := (path, target) :: g.resolved }
  | .planSetup tool arguments, .ok (preview : String) => { g with planned := some (.setup tool arguments preview) }
  | .planMedia tool arguments, .ok (plan : MediaPlan) => { g with planned := some (.media tool arguments plan) }
  | .askSetup action, answer => g.answered b (.setup action) answer
  | .askMedia action, answer => g.answered b (.media action) answer
  | .applySetup _, _ | .applyMedia _, _ => { g with approved := none }
  | _, _ => g

/-- What was planned in this call is what the action shows. -/
def Planned (g : Gate) (action : GatedAction) : Prop := ∃ proposal, g.planned = some proposal ∧ proposal.ShownBy action

/-- The operator is asked about what was planned in this call, and what is executed was planned and then approved in it. -/
def Confirmed (g : Gate) : AssistOp → Prop
  | .askSetup action => g.Planned (.setup action)
  | .askMedia action => g.Planned (.media action)
  | .applySetup action => g.Planned (.setup action) ∧ g.approved = some (.setup action)
  | .applyMedia action => g.Planned (.media action) ∧ g.approved = some (.media action)
  | _ => True

/-- Nothing the operator declined is asked again or executed. -/
def Obeyed (g : Gate) : AssistOp → Prop
  | .askSetup action | .applySetup action => (GatedAction.setup action).identity ∉ g.declined
  | .askMedia action | .applyMedia action => (GatedAction.media action).identity ∉ g.declined
  | _ => True

instance (g : Gate) : (o : AssistOp) → Decidable (g.Obeyed o)
  | .askSetup action | .applySetup action => inferInstanceAs (Decidable ((GatedAction.setup action).identity ∉ g.declined))
  | .askMedia action | .applyMedia action => inferInstanceAs (Decidable ((GatedAction.media action).identity ∉ g.declined))
  | .readLine | .refresh | .chat _ | .observe _ | .resolve _ | .readTool _ | .planSetup .. | .planMedia .. | .progress _ =>
    isTrue trivial

/-- No path was resolved in two ways in this call. -/
def Settled (g : Gate) : Prop := ∀ entry ∈ g.resolved, ∀ other ∈ g.resolved, entry.1 = other.1 → entry.2 = other.2

instance (g : Gate) : Decidable g.Settled := inferInstanceAs (Decidable (∀ entry ∈ g.resolved, _))

/-- What a session may do next. -/
def Allows (g : Gate) (o : AssistOp) : Prop := g.Confirmed o ∧ (g.Settled → g.Obeyed o)

/-! ### What a session knows of it -/

/-- The key of a refusal. -/
def keyOf (identity : String × Arguments) : String := identity.1 ++ ":" ++ sortedDumps identity.2

/-- The session remembers every refusal. -/
def Known (g : Gate) (s : SessionState) : Prop := ∀ identity ∈ g.declined, s.isDeclined (keyOf identity) = true

end Gate

namespace SessionState

variable {s : SessionState} {key : String}

/-- The state after a refusal is counted. -/
def countDeclined (s : SessionState) (key : String) : SessionState :=
  { s with declined := s.declined.set key ((s.declined.get? key).getD 0 + 1) }

theorem isDeclined_countDeclined : (s.countDeclined key).isDeclined key = true := by
  simp [countDeclined, isDeclined, Dict.get?_set]

theorem isDeclined_mono {other : String} (h : s.isDeclined other = true) : (s.countDeclined key).isDeclined other = true := by
  by_cases heq : other = key
  · rw [heq]
    exact isDeclined_countDeclined
  · simpa [countDeclined, isDeclined, Dict.get?_set, Ne.symm heq] using h

end SessionState

namespace Gate

section rules

variable {cfg : AssistConfig} {b : TextBuiltins} {g : Gate} {s : SessionState}

theorem Known.countDeclined {key : String} (h : g.Known s) : g.Known (s.countDeclined key) :=
  fun identity hmem => SessionState.isDeclined_mono (h identity hmem)

/-- A refusal that is counted is remembered. -/
theorem Known.decline {g' : Gate} {key : String} (h : g.Known s)
    (hg : g'.declined = g.declined ∨ ∃ identity, g'.declined = identity :: g.declined ∧ keyOf identity = key) :
    g'.Known (s.countDeclined key) := by
  intro identity hmem
  rcases hg with hg | ⟨last, hg, rfl⟩
  · exact h.countDeclined identity (hg ▸ hmem)
  · rw [hg] at hmem
    rcases List.mem_cons.1 hmem with rfl | hmem
    · exact SessionState.isDeclined_countDeclined
    · exact h.countDeclined identity hmem

/-- What the session does not remember was not declined. -/
theorem Known.fresh {identity : String × Arguments} {key : String} (h : g.Known s) (hkey : keyOf identity = key)
    (hnot : ¬s.isDeclined key = true) : identity ∉ g.declined := by
  intro hmem
  rw [← hkey] at hnot
  exact hnot (h identity hmem)

/-- Another state with the same refusals. -/
theorem Known.congr {g' : Gate} {s' : SessionState} (h : g.Known s) (hg : g'.declined = g.declined)
    (hs : s'.declined = s.declined) : g'.Known s' := by
  intro identity hmem
  have hknown := h identity (hg ▸ hmem)
  unfold SessionState.isDeclined at hknown ⊢
  rwa [hs]

end rules

end Gate

/-! ### What is read of the arguments -/

namespace MediaTool

/-- The tool may have normalised the arguments so, if paths resolve as noted. -/
def Yields (b : TextBuiltins) (arguments : Arguments) (resolved : List (String × String)) (normalized : Arguments) : MediaTool → Prop
  | loadTape => normalizeLoad b arguments = .ok normalized
  | unloadDrive => normalizeUnload b arguments = .ok normalized
  | moveTape => normalizeMove b arguments = .ok normalized
  | formatTape => normalizeFormat b arguments = .ok normalized
  | archivePath => ∃ text target, cleanPathText b (archiveSource b arguments) "source path" = .ok text ∧
      (text, target) ∈ resolved ∧ normalized = [("path", .str target), ("volume_group", archiveGroup b arguments)]
  | restorePath => ∃ path text target, cleanCatalogPath b (restoreSource b arguments) = .ok path ∧
      cleanPathText b (restoreDest b arguments) "destination path" = .ok text ∧ (text, target) ∈ resolved ∧
      normalized = [("path", .str path), ("dest", .str target)]

variable {b : TextBuiltins} {arguments first second : Arguments} {tool : MediaTool} {g g' : Gate}

theorem Yields.mono {resolved more : List (String × String)} (h : tool.Yields b arguments resolved first)
    (hsub : ∀ entry ∈ resolved, entry ∈ more) : tool.Yields b arguments more first := by
  cases tool with
  | archivePath =>
    obtain ⟨text, target, htext, hmem, heq⟩ := h
    exact ⟨text, target, htext, hsub _ hmem, heq⟩
  | restorePath =>
    obtain ⟨path, text, target, hpath, htext, hmem, heq⟩ := h
    exact ⟨path, text, target, hpath, htext, hsub _ hmem, heq⟩
  | _ => exact h

/-- Two readings of the arguments agree where no path is resolved in two ways. -/
theorem Yields.unique (hsettled : g.Settled) (h : tool.Yields b arguments g.resolved first)
    (h' : tool.Yields b arguments g.resolved second) : first = second := by
  cases tool with
  | archivePath =>
    obtain ⟨text, target, htext, hmem, rfl⟩ := h
    obtain ⟨text', target', htext', hmem', rfl⟩ := h'
    obtain rfl : text = text' := Except.ok.inj (htext.symm.trans htext')
    obtain rfl : target = target' := hsettled _ hmem _ hmem' rfl
    rfl
  | restorePath =>
    obtain ⟨path, text, target, hpath, htext, hmem, rfl⟩ := h
    obtain ⟨path', text', target', hpath', htext', hmem', rfl⟩ := h'
    obtain rfl : path = path' := Except.ok.inj (hpath.symm.trans hpath')
    obtain rfl : text = text' := Except.ok.inj (htext.symm.trans htext')
    obtain rfl : target = target' := hsettled _ hmem _ hmem' rfl
    rfl
  | loadTape | unloadDrive | moveTape | formatTape => exact Except.ok.inj (h.symm.trans h')

end MediaTool

/-! ### The protocol -/

namespace GateAux

variable {cfg : AssistConfig} {b : TextBuiltins} {g : Gate} {s : SessionState} {α : Type}

/-- The machine that answers anything, and notes it at the gate. -/
abbrev machine (b : TextBuiltins) : Machine Gate AssistOp (fun o => Except AssistantExn o.Ans) (∀ o : AssistOp, Except AssistantExn o.Ans) :=
  havoc (Gate.note b)

abbrev protocol : Contract Gate AssistOp fun o => Except AssistantExn o.Ans := .protocol Gate.Allows

/-- Whatever happens, the session remembers every refusal. -/
abbrev Keeps (b : TextBuiltins) (m : AssistM α) (s : SessionState) (g : Gate) : Prop :=
  wp (machine b) protocol m (fun _ s' g' => g'.Known s') (fun _ s' g' => g'.Known s') s g

theorem wp_cleanPath {raw : Option Json} {what : String} :
    wp (machine b) protocol (cleanPath b raw what)
      (fun target s' g' => s' = s ∧ ∃ text, cleanPathText b raw what = .ok text ∧
        g' = { g with resolved := (text, target) :: g.resolved })
      (fun _ s' g' => s' = s ∧ g' = g) s g := by
  unfold cleanPath
  rw [wp_bind, wp_ofExcept]
  cases htext : cleanPathText b raw what with
  | error e => exact ⟨rfl, rfl⟩
  | ok text =>
    refine wp_follows ⟨trivial, fun _ => trivial⟩ (fun target => ⟨rfl, text, rfl, rfl⟩) fun e => ⟨rfl, rfl⟩

/-- The arguments are normalised, and what was resolved for it is noted. -/
theorem wp_normalize {tool : MediaTool} {arguments : Arguments} :
    wp (machine b) protocol (tool.normalize b arguments)
      (fun normalized s' g' => s' = s ∧ ∃ more, g' = { g with resolved := more ++ g.resolved } ∧
        tool.Yields b arguments g'.resolved normalized)
      (fun _ s' g' => s' = s ∧ g' = g) s g := by
  have hplain : ∀ {x : Except AssistantExn Arguments} {P : Arguments → Prop}, (∀ normalized, x = .ok normalized → P normalized) →
      wp (machine b) protocol (ofExcept x : AssistM Arguments)
        (fun normalized s' g' => s' = s ∧ ∃ more, g' = { g with resolved := more ++ g.resolved } ∧ P normalized)
        (fun _ s' g' => s' = s ∧ g' = g) s g := by
    intro x P h
    rw [wp_ofExcept]
    cases hx : x with
    | error e => exact ⟨rfl, rfl⟩
    | ok normalized => exact ⟨rfl, [], rfl, h normalized hx⟩
  cases tool with
  | archivePath =>
    show wp _ _ (MediaTool.normalizeArchive b arguments) _ _ _ _
    unfold MediaTool.normalizeArchive
    rw [wp_bind]
    refine wp_mono wp_cleanPath ?_ fun _ _ _ h => h
    rintro target _ _ ⟨rfl, text, htext, rfl⟩
    exact ⟨rfl, [(text, target)], rfl, text, target, htext, List.mem_cons_self, rfl⟩
  | restorePath =>
    show wp _ _ (MediaTool.normalizeRestore b arguments) _ _ _ _
    unfold MediaTool.normalizeRestore
    rw [wp_bind, wp_ofExcept]
    cases hpath : cleanCatalogPath b (MediaTool.restoreSource b arguments) with
    | error e => exact ⟨rfl, rfl⟩
    | ok path =>
      simp only []
      rw [wp_bind]
      refine wp_mono wp_cleanPath ?_ fun _ _ _ h => h
      rintro target _ _ ⟨rfl, text, htext, rfl⟩
      exact ⟨rfl, [(text, target)], rfl, path, text, target, hpath, htext, List.mem_cons_self, rfl⟩
  | loadTape => exact hplain fun _ h => h
  | unloadDrive => exact hplain fun _ h => h
  | moveTape => exact hplain fun _ h => h
  | formatTape => exact hplain fun _ h => h

/-- A line for the operator changes nothing. -/
theorem wp_announce {line : String} :
    wp (machine b) protocol (announce line) (fun _ s' g' => s' = s ∧ g' = g) (fun _ s' g' => s' = s ∧ g' = g) s g := by
  unfold announce
  rw [wp_handle]
  refine wp_follows ⟨trivial, fun _ => trivial⟩ (fun _ => ⟨rfl, rfl⟩) fun e => ?_
  by_cases he : e.isException = true
  · rw [if_pos he]
    exact ⟨rfl, rfl⟩
  · rw [if_neg he]
    exact ⟨rfl, rfl⟩

/-- An action that was planned and approved, and never declined. -/
structure Cleared (g : Gate) (action : GatedAction) : Prop where
  planned : g.Planned action
  approved : g.approved = some action
  undeclined : g.Settled → action.identity ∉ g.declined

/-- What an exception lets through keeps what is known. -/
theorem keeps_unless {c : Bool} {e : AssistantExn} {report : String} (h : g.Known s) :
    Keeps b (if c then raise e else pure report : AssistM String) s g := by
  cases c <;> exact h

theorem keeps_settleSetup {action : PendingAction} (h : g.Known s) (outcome : Except AssistantExn Json) :
    Keeps b (settleSetup action outcome) s g := by
  cases outcome with
  | ok outcome => exact h.congr rfl rfl
  | error e =>
    cases e with
    | setupRefused message code candidates => exact h
    | setupPartialWrite message applied cause => exact h.congr rfl rfl
    | _ =>
      simp only [settleSetup]
      exact keeps_unless h

theorem keeps_applySetup {action : PendingAction} (hclear : Cleared g (.setup action)) (h : g.Known s) :
    Keeps b (applySetup action) s g := by
  unfold Keeps applySetup
  have hspent : ({ g with approved := none } : Gate).Known s := h.congr rfl rfl
  rw [wp_bind, wp_attempt]
  refine wp_follows ⟨⟨hclear.planned, hclear.approved⟩, hclear.undeclined⟩ (fun outcome => ?_) fun e => ?_
  · exact keeps_settleSetup hspent (.ok outcome)
  · exact keeps_settleSetup hspent (.error e)

/-- A refusal is counted. -/
theorem keeps_decline {action : PendingAction} {reason : String} {repeated : Bool} {g' : Gate} (h : g.Known s)
    (hg : g'.declined = g.declined ∨ g'.declined = (GatedAction.setup action).identity :: g.declined) :
    Keeps b (decline action reason repeated) s g' :=
  h.decline (hg.imp_right fun hg => ⟨_, hg, rfl⟩)

/-- The gate has noted a refusal, or nothing. -/
def Noted (g g' : Gate) (action : GatedAction) : Prop :=
  g'.declined = g.declined ∨ g'.declined = action.identity :: g.declined

theorem noted_answered {action : GatedAction} (x : Except AssistantExn String) : Noted g (g.answered b action x) action := by
  cases x with
  | ok answer =>
    by_cases hmet : action.isMetBy b answer = true
    · refine .inl ?_
      simp only [Gate.answered, hmet, if_true]
    · refine .inr ?_
      simp only [Gate.answered, hmet, if_false, Bool.false_eq_true]
  | error e =>
    cases e with
    | base cls => exact .inl rfl
    | _ => exact .inr rfl

/-- What ends the program is no answer. -/
theorem answered_base {action : GatedAction} {e : AssistantExn} (hint : ¬e.isInterrupt = true) (hexc : ¬e.isException = true) :
    g.answered b action (.error e) = g := by
  cases e with
  | base cls => rfl
  | keyboardInterrupt => exact absurd rfl hint
  | _ => exact absurd rfl hexc

theorem answered_met {action : GatedAction} {answer : String} (h : action.isMetBy b answer = true) :
    g.answered b action (.ok answer) = { g with approved := some action } := if_pos h

/-- What the operator says to a setup action is noted as it is understood. -/
theorem wp_confirmAction {action : PendingAction} (hplanned : g.Planned (.setup action))
    (hfresh : (GatedAction.setup action).identity ∉ g.declined) :
    wp (machine b) protocol (confirmAction b action)
      (fun approved s' g' => s' = s ∧ if approved then g' = { g with approved := some (.setup action) } else Noted g g' (.setup action))
      (fun e s' g' => s' = s ∧ g' = g.answered b (.setup action) (.error e)) s g := by
  unfold confirmAction
  rw [wp_handle, wp_bind]
  refine wp_follows ⟨hplanned, fun _ => hfresh⟩ (fun answer => ?_) fun e => ?_
  · rw [wp_pure]
    refine ⟨rfl, ?_⟩
    by_cases hyes : b.lower (strip answer) ∈ yesAnswers
    · rw [decide_eq_true hyes, if_pos rfl]
      exact answered_met (by simpa [GatedAction.isMetBy, GatedAction.saysYes, yesAnswers] using hyes)
    · rw [decide_eq_false hyes, if_neg Bool.false_ne_true]
      exact noted_answered (.ok answer)
  · by_cases he : e.isInterrupt = true
    · rw [if_pos he, wp_pure, if_neg Bool.false_ne_true]
      exact ⟨rfl, noted_answered (.error e)⟩
    · rw [if_neg he]
      exact ⟨rfl, rfl⟩

theorem keeps_gateSetup {action : PendingAction} (hplanned : g.Planned (.setup action)) (h : g.Known s) :
    Keeps b (gateSetup b action) s g := by
  unfold Keeps gateSetup
  rw [wp_bind, wp_locals]
  by_cases hdeclined : s.isDeclined action.key = true
  · rw [if_pos hdeclined]
    exact keeps_decline h (.inl rfl)
  rw [if_neg hdeclined, wp_bind, wp_attempt]
  have hfresh : (GatedAction.setup action).identity ∉ g.declined := h.fresh rfl hdeclined
  refine wp_mono (wp_confirmAction hplanned hfresh) ?_ ?_
  · rintro approved _ g' ⟨rfl, hnoted⟩
    cases approved with
    | true =>
      obtain rfl : g' = _ := hnoted
      show Keeps b (applySetup action) _ _
      exact keeps_applySetup ⟨hplanned, rfl, fun _ => hfresh⟩ h
    | false =>
      show Keeps b (decline action "the operator answered no" false) _ _
      exact keeps_decline h hnoted
  · rintro e _ _ ⟨rfl, rfl⟩
    show wp _ _ (ite _ _ (ite _ _ _)) _ _ _ _
    by_cases hint : e.isInterrupt = true
    · rw [if_pos hint]
      exact keeps_decline h (noted_answered (.error e))
    rw [if_neg hint]
    by_cases hexc : e.isException = true
    · rw [if_pos hexc]
      exact keeps_decline h (noted_answered (.error e))
    rw [if_neg hexc, answered_base hint hexc]
    exact h

theorem keeps_setupUnplanned {call : ToolCall} (h : g.Known s) (e : AssistantExn) : Keeps b (setupUnplanned call e) s g := by
  cases e with
  | setupRefused message code candidates => exact h
  | _ =>
    simp only [setupUnplanned]
    exact keeps_unless h

theorem keeps_runSetupTool {tool : SetupTool} {call : ToolCall} (h : g.Known s) : Keeps b (runSetupTool b tool call) s g := by
  unfold Keeps runSetupTool planSetup
  rw [wp_bind, wp_attempt, wp_bind, wp_ofExcept]
  cases tool.normalize b call.arguments with
  | error e => exact keeps_setupUnplanned h e
  | ok normalized =>
    simp only []
    rw [wp_bind]
    refine wp_follows ⟨trivial, fun _ => trivial⟩ (fun preview => ?_) fun e => keeps_setupUnplanned (h.congr rfl rfl) e
    rw [wp_pure]
    exact keeps_gateSetup ⟨_, rfl, rfl, rfl, rfl⟩ (h.congr rfl rfl)

/-! ### Media tools at the gate -/

theorem keeps_declineMedia {action : PendingMediaAction} {reason : String} {g' : Gate} (h : g.Known s)
    (hg : Noted g g' (.media action)) : Keeps b (declineMedia action reason) s g' :=
  h.decline (hg.imp_right fun hg => ⟨_, hg, rfl⟩)

/-- What the registry takes for a confirmation meets the grade. -/
theorem isMetBy_of_verifyResponse {action : PendingMediaAction} {answer : String}
    (h : verifyResponse b action (some answer) = true) : (GatedAction.media action).isMetBy b answer = true := by
  unfold verifyResponse at h
  simp only [Option.getD_some] at h
  simp only [GatedAction.isMetBy]
  by_cases hblank : strip answer = ""
  · rw [if_pos hblank] at h
    cases h
  rw [if_neg hblank] at h
  cases hgrade : action.grade with
  | yesNo =>
    rw [hgrade] at h
    simpa [GatedAction.saysYes, yesAnswers] using h
  | typed =>
    rw [hgrade] at h
    simp only [] at h
    split at h
    · cases h
    split at h
    · cases h
    cases hrequired : action.requiredResponse with
    | none =>
      rename_i hsome _
      rw [hrequired] at hsome
      exact absurd rfl hsome
    | some required =>
      rw [hrequired] at h
      simpa [GatedAction.typesOut, hblank, eq_comm] using h

/-- A line for the operator, between what is known and what has to hold. -/
theorem wp_tell {line : String} {N : Unit → SessionState → Gate → Prop} (h : g.Known s) (hN : N () s g) :
    wp (machine b) protocol (announce line) N (fun _ s' g' => g'.Known s') s g := by
  refine wp_mono wp_announce ?_ ?_
  · rintro _ _ _ ⟨rfl, rfl⟩
    exact hN
  · rintro _ _ _ ⟨rfl, rfl⟩
    exact h

theorem keeps_settleMedia {action : PendingMediaAction} (h : g.Known s) (outcome : Except AssistantExn Json) :
    Keeps b (settleMedia b action outcome) s g := by
  unfold Keeps
  cases outcome with
  | ok outcome =>
    unfold settleMedia appendExecuted
    rw [wp_bind, wp_assign, wp_bind]
    exact wp_tell (h.congr rfl rfl) (h.congr rfl rfl)
  | error e =>
    cases e with
    | mediaRefused message code candidates =>
      unfold settleMedia
      rw [wp_bind]
      exact wp_tell h h
    | mediaOperationFailed message =>
      unfold settleMedia whenLong appendPossiblyPartial
      rw [wp_bind]
      cases action.tool.longRunning with
      | true =>
        rw [if_pos rfl, wp_assign, wp_bind]
        exact wp_tell (h.congr rfl rfl) (h.congr rfl rfl)
      | false =>
        rw [if_neg Bool.false_ne_true, wp_pure, wp_bind]
        exact wp_tell h h
    | _ =>
      simp only [settleMedia]
      exact keeps_unless h

theorem keeps_performed {action : PendingMediaAction} {authorization : MediaAuthorization} (hclear : Cleared g (.media action))
    (h : g.Known s) : wp (machine b) protocol (performMedia b action authorization)
      (fun _ s' g' => g'.Known s') (fun _ s' g' => g'.Known s') s g := by
  have happly : wp (machine b) protocol (assistCall (.applyMedia action))
      (fun _ s' g' => g'.Known s') (fun _ s' g' => g'.Known s') s g :=
    wp_follows ⟨⟨hclear.planned, hclear.approved⟩, hclear.undeclined⟩ (fun _ => h.congr rfl rfl) fun _ => h.congr rfl rfl
  unfold performMedia
  by_cases hkey : authorization.actionKey ≠ action.key
  · rw [if_pos hkey]
    exact h
  rw [if_neg hkey]
  by_cases hgrade : authorization.grade ≠ action.grade
  · rw [if_pos hgrade]
    exact h
  rw [if_neg hgrade]
  by_cases hverify : verifyResponse b action (some authorization.response) = false
  · rw [if_pos hverify]
    exact h
  rw [if_neg hverify]
  exact happly

theorem keeps_applyMedia {action : PendingMediaAction} {authorization : MediaAuthorization} (hclear : Cleared g (.media action))
    (h : g.Known s) : Keeps b (applyMedia b action authorization) s g := by
  unfold Keeps applyMedia
  rw [wp_bind]
  have hrest : wp (machine b) protocol
      (do
        let outcome ← attempt (performMedia b action authorization)
        settleMedia b action outcome)
      (fun _ s' g' => g'.Known s') (fun _ s' g' => g'.Known s') s g := by
    rw [wp_bind, wp_attempt]
    refine wp_mono (keeps_performed hclear h) ?_ ?_
    · exact fun outcome _ _ h => keeps_settleMedia h (.ok outcome)
    · exact fun e _ _ h => keeps_settleMedia h (.error e)
  unfold whenLong
  cases action.tool.longRunning with
  | true => exact wp_tell h hrest
  | false => exact hrest

theorem keeps_answerMedia {action : PendingMediaAction} {response : Option String} {g' : Gate} (h : g.Known s)
    (hplanned : g.Planned (.media action)) (hfresh : g.Settled → (GatedAction.media action).identity ∉ g.declined)
    (hnoted : Noted g g' (.media action))
    (hmet : ∀ answer, response = some answer → (GatedAction.media action).isMetBy b answer = true →
      g' = { g with approved := some (.media action) }) :
    Keeps b (answerMedia b action response) s g' := by
  unfold answerMedia authorize
  by_cases hverify : verifyResponse b action response = false
  · rw [if_pos hverify]
    exact keeps_declineMedia h hnoted
  rw [if_neg hverify]
  cases response with
  | none => exact absurd rfl hverify
  | some answer =>
    obtain rfl := hmet answer rfl (isMetBy_of_verifyResponse (Bool.not_eq_false _ ▸ hverify))
    exact keeps_applyMedia ⟨hplanned, rfl, hfresh⟩ h

/-- What the operator says to a media action is noted. -/
theorem wp_confirmMediaAction {action : PendingMediaAction} (hplanned : g.Planned (.media action))
    (hfresh : g.Settled → (GatedAction.media action).identity ∉ g.declined) :
    wp (machine b) protocol (confirmMediaAction action)
      (fun response s' g' => s' = s ∧ Noted g g' (.media action) ∧
        ∀ answer, response = some answer → g' = g.answered b (.media action) (.ok answer))
      (fun e s' g' => s' = s ∧ g' = g.answered b (.media action) (.error e)) s g := by
  unfold confirmMediaAction
  rw [wp_handle, wp_bind]
  refine wp_follows ⟨hplanned, hfresh⟩ (fun answer => ?_) fun e => ?_
  · rw [wp_pure]
    refine ⟨rfl, noted_answered (.ok answer), ?_⟩
    rintro _ ⟨⟩
    rfl
  · by_cases he : e.isInterrupt = true
    · rw [if_pos he, wp_pure]
      exact ⟨rfl, noted_answered (.error e), nofun⟩
    · rw [if_neg he]
      exact ⟨rfl, rfl⟩

theorem keeps_gateMedia {action : PendingMediaAction} (hplanned : g.Planned (.media action))
    (hfresh : g.Settled → (GatedAction.media action).identity ∉ g.declined) (h : g.Known s) :
    Keeps b (gateMedia b action) s g := by
  unfold Keeps gateMedia
  rw [wp_bind, wp_attempt]
  refine wp_mono (wp_confirmMediaAction hplanned hfresh) ?_ ?_
  · rintro response _ g' ⟨rfl, hnoted, hanswer⟩
    refine keeps_answerMedia h hplanned hfresh hnoted fun answer hsome hmet => ?_
    rw [hanswer answer hsome, answered_met hmet]
  · rintro e _ _ ⟨rfl, rfl⟩
    show wp _ _ (ite _ _ (ite _ _ _)) _ _ _ _
    by_cases hint : e.isInterrupt = true
    · rw [if_pos hint]
      exact keeps_answerMedia h hplanned hfresh (noted_answered (.error e)) nofun
    rw [if_neg hint]
    by_cases hexc : e.isException = true
    · rw [if_pos hexc]
      exact keeps_declineMedia h (noted_answered (.error e))
    rw [if_neg hexc, answered_base hint hexc]
    exact h

theorem keeps_mediaUnplanned {call : ToolCall} {what : String} (h : g.Known s) (e : AssistantExn) :
    Keeps b (mediaUnplanned call what e) s g := by
  cases e with
  | mediaRefused message code candidates => exact h
  | _ =>
    simp only [mediaUnplanned]
    exact keeps_unless h

/-- The action of a plan shows the plan. -/
theorem shownBy_pending (tool : MediaTool) (arguments : Arguments) (plan : MediaPlan) :
    (Proposal.media tool arguments plan).ShownBy (.media (tool.pending arguments plan)) := by
  refine ⟨rfl, rfl, rfl, ?_, ?_⟩
  · rintro rfl
    exact ⟨rfl, rfl⟩
  · rintro rfl hoverwrites
    simp [MediaTool.pending, MediaTool.grade, hoverwrites]

/-- The arguments were read once, and what they were read as is not declined; the plan reads them again. -/
theorem keeps_proposeMedia {tool : MediaTool} {call : ToolCall} {normalized : Arguments}
    (hread : tool.Yields b call.arguments g.resolved normalized) (hfresh : (tool.name, normalized) ∉ g.declined) (h : g.Known s) :
    Keeps b (proposeMedia b tool call) s g := by
  unfold Keeps proposeMedia MediaTool.plan
  rw [wp_bind, wp_attempt, wp_bind]
  refine wp_mono wp_normalize ?_ ?_
  · rintro again s' _ ⟨rfl, more, rfl, hyields⟩
    rw [wp_bind]
    have hknown : ∀ planned, ({ g with resolved := more ++ g.resolved, planned := planned } : Gate).Known s' := fun _ => h.congr rfl rfl
    refine wp_follows ⟨trivial, fun _ => trivial⟩ (fun plan => ?_) fun e => keeps_mediaUnplanned (hknown g.planned) e
    rw [wp_pure]
    refine keeps_gateMedia ⟨_, rfl, shownBy_pending tool again plan⟩ (fun hsettled => ?_) (hknown (some (.media tool again plan)))
    have hsame : normalized = again := MediaTool.Yields.unique hsettled
      (hread.mono fun entry hentry => List.mem_append_right _ hentry) hyields
    rw [hsame] at hfresh
    exact hfresh
  · rintro e _ _ ⟨rfl, rfl⟩
    exact keeps_mediaUnplanned h e

theorem keeps_runMediaTool {tool : MediaTool} {call : ToolCall} (h : g.Known s) : Keeps b (runMediaTool b tool call) s g := by
  unfold Keeps runMediaTool MediaTool.actionKey
  rw [wp_bind, wp_attempt, wp_bind]
  refine wp_mono wp_normalize ?_ ?_
  · rintro normalized s' _ ⟨rfl, more, rfl, hyields⟩
    have hknown : ({ g with resolved := more ++ g.resolved } : Gate).Known s' := h.congr rfl rfl
    rw [wp_pure, wp_bind, wp_locals]
    by_cases hdeclined : s'.isDeclined (tool.keyOf normalized) = true
    · rw [if_pos hdeclined]
      exact hknown.countDeclined
    rw [if_neg hdeclined]
    have hfresh : (tool.name, normalized) ∉ g.declined := h.fresh rfl hdeclined
    exact keeps_proposeMedia hyields hfresh hknown
  · rintro e _ _ ⟨rfl, rfl⟩
    exact keeps_mediaUnplanned h e

/-! ### Rounds at the gate -/

theorem keeps_settleRead {call : ToolCall} (h : g.Known s) (outcome : Except AssistantExn Json) :
    Keeps b (settleRead cfg call outcome) s g := by
  cases outcome with
  | ok outcome => exact h
  | error e =>
    cases e with
    | toolNotFound message => exact h
    | _ =>
      simp only [settleRead]
      exact keeps_unless h

theorem keeps_runTool {call : ToolCall} (h : g.Known s) : Keeps cfg.builtins (runTool cfg call) s g := by
  unfold Keeps runTool
  cases dispatchTool cfg call.name with
  | setup tool => exact keeps_runSetupTool h
  | media tool => exact keeps_runMediaTool h
  | read =>
    show wp _ _ (runReadTool cfg call) _ _ _ _
    unfold runReadTool
    rw [wp_bind, wp_attempt]
    exact wp_follows ⟨trivial, fun _ => trivial⟩ (fun outcome => keeps_settleRead h (.ok outcome))
      fun e => keeps_settleRead h (.error e)

/-- Every call of a round begins with nothing planned. -/
theorem keeps_runCall {call : ToolCall} (h : g.Known s) : Keeps cfg.builtins (runCall cfg call) s g := by
  unfold Keeps runCall
  rw [wp_bind]
  have hknown : ({ declined := g.declined } : Gate).Known s := h.congr rfl rfl
  refine wp_follows ⟨trivial, fun _ => trivial⟩ (fun _ => ?_) fun _ => hknown
  rw [wp_bind]
  refine wp_mono (keeps_runTool hknown) ?_ fun _ _ _ h => h
  exact fun content s' g' h => h.congr rfl rfl

theorem keeps_askRounds {used : List String} {number left : Nat} (h : g.Known s) :
    Keeps cfg.builtins (askRounds cfg used number left) s g := by
  induction left generalizing used number s g with
  | zero => exact h
  | succ left ih =>
    unfold Keeps askRounds
    rw [wp_bind, wp_locals, wp_bind]
    refine wp_follows ⟨trivial, fun _ => trivial⟩ (fun reply => ?_) fun _ => h
    by_cases hprose : reply.toolCalls.isEmpty = true
    · rw [if_pos hprose]
      exact h.congr rfl rfl
    rw [if_neg hprose]
    unfold appendToolRound appendMessage
    rw [wp_bind, wp_bind, wp_assign]
    refine wp_forEach (runCall cfg) _ (fun _ s' g' => g'.Known s') (h.congr rfl rfl) ?_ ?_
    · exact fun _ _ _ _ _ _ h => keeps_runCall h
    · exact fun _ _ h => ih h

theorem keeps_ask {question : String} (h : g.Known s) : Keeps cfg.builtins (ask cfg question) s g := by
  unfold Keeps ask askQuestion
  rw [wp_bind, wp_locals, wp_handle]
  have hrewind : ∀ (e : AssistantExn) (s' : SessionState) (g' : Gate), g'.Known s' →
      Keeps cfg.builtins (do
        rewind s.messages.length e
        raise e : AssistM AssistantTurn) s' g' := by
    intro e s' g' h
    unfold Keeps rewind
    rw [wp_bind]
    cases e.isAssistantError with
    | true => exact h.congr rfl rfl
    | false => exact h
  rw [wp_bind]
  refine wp_follows ⟨trivial, fun _ => trivial⟩ (fun _ => ?_) fun e => hrewind e s g h
  unfold appendMessage
  rw [wp_bind, wp_assign, wp_bind, wp_assign]
  exact wp_mono (keeps_askRounds (h.congr rfl rfl)) (fun _ _ _ h => h) fun e s' g' h => hrewind e s' g' h

theorem keeps_askLine {line : String} (h : g.Known s) : Keeps cfg.builtins (askLine cfg line) s g := by
  unfold Keeps askLine
  rw [wp_handle, wp_bind]
  refine wp_mono (keeps_ask h) (fun _ _ _ h => h) ?_
  intro e s' g' h
  by_cases he : e.isException = true
  · rw [if_pos he]
    exact h
  · rw [if_neg he]
    exact h

/-- The session, line by line. -/
theorem keeps_repl {lines : Nat} (h : g.Known s) : Keeps cfg.builtins (repl cfg lines) s g := by
  induction lines generalizing s g with
  | zero => exact h
  | succ lines ih =>
    unfold Keeps repl
    rw [wp_bind, wp_attempt]
    refine wp_follows ⟨trivial, fun _ => trivial⟩ (fun line => ?_) fun e => ?_
    · show wp _ _ (ite _ _ (ite _ _ (ite _ _ (ite _ _ _)))) _ _ _ _
      by_cases hreset : strip line = "/reset"
      · have hnoted : g.note cfg.builtins .readLine (.ok line) = { g with declined := [] } := if_pos hreset
        rw [hnoted, hreset, if_neg (by decide), if_neg (by decide), if_pos rfl, wp_bind]
        unfold resetSession
        rw [wp_assign]
        exact ih (by simp [Gate.Known])
      · have hnoted : g.note cfg.builtins .readLine (.ok line) = g := if_neg hreset
        rw [hnoted, if_neg hreset]
        split
        · exact ih h
        split
        · exact h
        split
        · exact ih h
        rw [wp_bind]
        exact wp_mono (keeps_askLine h) (fun _ _ _ h => ih h) fun _ _ _ h => h
    · show wp _ _ (ite _ _ _) _ _ _ _
      by_cases he : e.isInterrupt = true
      · rw [if_pos he]
        exact h
      · rw [if_neg he]
        exact h

end GateAux

section sessions

variable (cfg : AssistConfig) (lines : Nat) (answers : List (∀ o : AssistOp, Except AssistantExn o.Ans))

/-- The steps of a session of so many lines, with what the gate had noted before each. -/
def AssistConfig.gateTrace : List (Step Gate AssistOp fun o => Except AssistantExn o.Ans) :=
  (havoc (Gate.note cfg.builtins)).trace answers (repl cfg lines cfg.session) {}

/-- Whatever the model, the operator and the library answer, an action is asked about and executed only in the tool call that
planned it, and executed only after an answer that satisfies its grade; and as long as no call resolves a path in two ways, what
was declined is neither asked again nor executed until the session is reset. -/
theorem confirmation_gate :
    (∀ st ∈ cfg.gateTrace lines answers, st.pre.Confirmed st.op) ∧
      ((∀ st ∈ cfg.gateTrace lines answers, st.pre.Settled) →
        ∀ st ∈ cfg.gateTrace lines answers, st.pre.Obeyed st.op) := by
  have hknown : ({} : Gate).Known cfg.session := by simp [Gate.Known]
  have hkeeps : GateAux.Keeps cfg.builtins (repl cfg lines) cfg.session {} := GateAux.keeps_repl hknown
  have hrun := run_of_wp hkeeps answers fun _ _ => trivial
  have hallows : ∀ st ∈ cfg.gateTrace lines answers, st.pre.Allows st.op := hrun.1
  exact ⟨fun st hst => (hallows st hst).1, fun hsettled st hst => (hallows st hst).2 (hsettled st hst)⟩

end sessions

/-- A cartridge is formatted once its barcode is typed. -/
theorem confirmation_gate_format :
    let answers := ["format it", "", "", "", "OB0003L8", " ob0003l8 ", "", "", ""].map
      (scriptedAnswer [{ name := "format_tape", arguments := [("tape", .str "ob0003l8")] }])
    (∃ st ∈ asciiAssistant.gateTrace 1 answers, st.pre.approved.isSome) ∧
      ∀ st ∈ asciiAssistant.gateTrace 1 answers, st.pre.Obeyed st.op :=
  ⟨by decide +kernel, (confirmation_gate asciiAssistant 1 _).2 (by decide +kernel)⟩

/-- The path is a link to `/a`, and archiving it is declined. At the second call it leads to `/b` when the refusals are looked up, and
to `/a` again when the archive is planned: the operator is asked once more, and the answer is taken. -/
theorem retargeted_path_asks_again :
    ∃ st ∈ asciiAssistant.gateTrace 1
      (["archive it", "", "", "", "/a", "/a", "Archive /a", "n", "", "/b", "/a", "Archive /a", "y", "", ""].map
        (scriptedAnswer (List.replicate 2 { name := "archive_path", arguments := [("path", .str "/link"), ("pool", .str "p")] }))),
      ¬st.pre.Obeyed st.op := by decide +kernel

end OpenBlade
