import Mathlib
import OpenBlade.Codec.JsonText
import OpenBlade.Domain.Posix
import OpenBlade.Domain.Text
import OpenBlade.Effects.Dict
import OpenBlade.Effects.Proc

/-!
# The tools of the assistant

The two setup tools of `assistant/setup_tools.py` and the six media tools of `assistant/media_tools.py`: how each normalises the
arguments a model sends, how strongly it has to be confirmed, and what its registry checks before it acts. The facades behind the
tools, the chat endpoint and the operator answer as they like.
-/

namespace OpenBlade

open Effects Codec Proc

abbrev Arguments : Type := Dict String Json

/-- What the interpreter says of texts of any script and of values that are not texts. -/
structure TextBuiltins where
  /-- `str(value)` of what is not a text. -/
  str : Json → String
  /-- `repr(value)`. -/
  quote : Json → String
  upper : String → String
  lower : String → String
  isalnum : String → Bool
  isprintable : String → Bool
  /-- `int(text)`, if it is a number. -/
  int : String → Option Int

/-- `str(value)`. -/
def TextBuiltins.text (b : TextBuiltins) : Json → String
  | .str s => s
  | value => b.str value

/-- Letters of ASCII, and numbers without a sign. -/
def TextBuiltins.ascii : TextBuiltins where
  str := dumps true
  quote := dumps true
  upper text := String.ofList (text.toList.map Char.toUpper)
  lower text := String.ofList (text.toList.map Char.toLower)
  isalnum text := text ≠ "" ∧ text.toList.all Char.isAlphanum
  isprintable text := text.toList.all fun c => 32 ≤ c.toNat ∧ c.toNat < 127
  int text := if text ≠ "" ∧ text.toList.all Char.isDigit then
    some (text.toList.foldl (fun n c => n * 10 + (c.toNat - 48)) 0) else none

/-! ### Exceptions -/

/-- What the assistant's code raises, and what comes through it. -/
inductive AssistantExn where
  | setupRefused (message code : String) (candidates : List String)
  | setupPartialWrite (message : String) (applied : List String) (cause : String)
  | mediaRefused (message code : String) (candidates : List String)
  | mediaOperationFailed (message : String)
  | toolNotFound (message : String)
  /-- Any other `AssistantError`. -/
  | assistant (cls message : String)
  | eof
  | keyboardInterrupt
  /-- Any other `Exception`. -/
  | exception (cls : String)
  /-- Any other `BaseException`. -/
  | base (cls : String)
  deriving Repr, DecidableEq

namespace AssistantExn

def isAssistantError : AssistantExn → Bool
  | .setupRefused .. | .setupPartialWrite .. | .mediaRefused .. | .mediaOperationFailed _ | .toolNotFound _ | .assistant .. => true
  | _ => false

def isException : AssistantExn → Bool
  | .keyboardInterrupt | .base _ => false
  | _ => true

/-- `type(exc).__name__`. -/
def className : AssistantExn → String
  | .setupRefused .. => "SetupRefusedError"
  | .setupPartialWrite .. => "SetupPartialWriteError"
  | .mediaRefused .. => "MediaRefusedError"
  | .mediaOperationFailed _ => "MediaOperationFailedError"
  | .toolNotFound _ => "ToolNotFoundError"
  | .assistant cls _ => cls
  | .eof => "EOFError"
  | .keyboardInterrupt => "KeyboardInterrupt"
  | .exception cls => cls
  | .base cls => cls

end AssistantExn

/-! ### What the operator is shown -/

inductive SetupTool where
  | createVolumeGroup
  | addTapesToVolumeGroup
  deriving Repr, DecidableEq

inductive MediaTool where
  | loadTape
  | unloadDrive
  | moveTape
  | formatTape
  | archivePath
  | restorePath
  deriving Repr, DecidableEq

inductive ConfirmationGrade where
  | yesNo
  | typed
  deriving Repr, DecidableEq

/-- `PendingAction`. -/
structure PendingAction where
  tool : SetupTool
  arguments : Arguments
  preview : String

/-- What a media plan says: the cartridge it is about, whether a file would be overwritten, the token of a dry run, and the
description of the plan. -/
structure MediaPlan where
  barcode : String := ""
  overwrites : Bool := false
  token : Option String := none
  preview : String

/-- `PendingMediaAction`. -/
structure PendingMediaAction where
  tool : MediaTool
  arguments : Arguments
  preview : String
  grade : ConfirmationGrade
  overwrites : Bool := false
  requiredResponse : Option String := none
  token : Option String := none

/-- `MediaAuthorization`. -/
structure MediaAuthorization where
  actionKey : String
  grade : ConfirmationGrade
  response : String

structure ToolCall where
  name : String
  arguments : Arguments := []
  deriving DecidableEq

structure ChatReply where
  content : String
  toolCalls : List ToolCall := []

inductive Message where
  | system (content : String)
  | user (content : String)
  | assistant (content : String) (toolCalls : List ToolCall)
  | tool (name content : String)
  deriving DecidableEq

/-- What the session does outside itself. -/
inductive AssistOp where
  /-- The REPL asks for a line. -/
  | readLine
  | refresh
  | chat (messages : List Message)
  /-- `on_tool`: every call of a tool begins with it. -/
  | observe (call : ToolCall)
  /-- `path.resolve()`. -/
  | resolve (path : String)
  /-- The handler of a read-only tool. -/
  | readTool (call : ToolCall)
  /-- The plan of a setup action, described. -/
  | planSetup (tool : SetupTool) (arguments : Arguments)
  /-- Show a setup action, and ask. -/
  | askSetup (action : PendingAction)
  | applySetup (action : PendingAction)
  | planMedia (tool : MediaTool) (arguments : Arguments)
  /-- Show a media action, and ask. -/
  | askMedia (action : PendingMediaAction)
  | applyMedia (action : PendingMediaAction)
  | progress (line : String)

abbrev AssistOp.Ans : AssistOp → Type
  | .readLine | .resolve _ | .askSetup _ | .askMedia _ | .planSetup .. => String
  | .refresh | .observe _ | .progress _ => Unit
  | .chat _ => ChatReply
  | .readTool _ | .applySetup _ | .applyMedia _ => Json
  | .planMedia .. => MediaPlan

/-- The fields of a session that change. -/
structure SessionState where
  messages : List Message
  declined : Dict String Nat := []
  executed : List String := []
  possiblyPartial : List String := []
  deriving DecidableEq

abbrev AssistM (α : Type) : Type := Proc AssistOp AssistOp.Ans AssistantExn SessionState α

abbrev assistCall (o : AssistOp) : AssistM o.Ans := Proc.perform o

/-! ### Normalised arguments -/

section normalize

variable (b : TextBuiltins)

def setupRefusedError (message code : String) : AssistantExn := .setupRefused message code []

def mediaRefusedError (message code : String) : AssistantExn := .mediaRefused message code []

/-- `_optional`: the first of the names that has a value. -/
def optional (arguments : Arguments) (names : List String) : Option Json :=
  names.findSome? fun name =>
    match arguments.get? name with
    | none | some .null => none
    | some value => if strip (b.text value) ≠ "" then some value else none

/-- `"" if raw is None else str(raw).strip()`. -/
def stripped : Option Json → String
  | none | some .null => ""
  | some raw => strip (b.text raw)

/-- `clean_barcode`. -/
def cleanBarcode (raw : Json) : Except AssistantExn String :=
  let barcode := b.upper (stripped b (some raw))
  if barcode = "" then .error (mediaRefusedError "A tape barcode is required." "missing_barcode")
  else if b.isalnum barcode = false ∨ 32 < barcode.length then
    .error (mediaRefusedError
      (b.quote (.str barcode) ++ " is not a barcode. Barcodes are alphanumeric, e.g. OB0003L8.") "invalid_barcode")
  else .ok barcode

/-- `_barcode`. -/
def barcodeArgument (arguments : Arguments) (required : Bool) : Except AssistantExn Json :=
  match optional b arguments ["barcode", "tape"] with
  | none =>
    if required then .error (mediaRefusedError "A tape barcode is required." "missing_barcode")
    else .ok .null
  | some raw => do
    let barcode ← cleanBarcode b raw
    .ok (.str barcode)

/-- `_number`. -/
def numberArgument (arguments : Arguments) (names : List String) : Except AssistantExn Json :=
  match optional b arguments names with
  | none => .ok .null
  | some raw =>
    match b.int (strip (b.text raw)) with
    | some number => .ok (.int number)
    | none => .error (mediaRefusedError (b.quote raw ++ " is not a slot or drive number.") "invalid_number")

/-- `clean_path`, as far as the text of the path. -/
def cleanPathText (raw : Option Json) (what : String) : Except AssistantExn String :=
  let text := stripped b raw
  if text = "" then .error (mediaRefusedError ("A " ++ what ++ " is required.") ("missing_" ++ what))
  else if b.isprintable text = false then
    .error (mediaRefusedError ("That " ++ what ++ " contains control characters.") ("invalid_" ++ what))
  else if text.toList.head? ≠ some '/' then
    .error (mediaRefusedError
      ("The " ++ what ++ " must be absolute (start with /); " ++ b.quote (.str text) ++ " is relative.") ("relative_" ++ what))
  else .ok text

/-- `clean_path`: the symbolic links of the path are followed as they now are. -/
def cleanPath (raw : Option Json) (what : String) : AssistM String := do
  let text ← ofExcept (cleanPathText b raw what)
  assistCall (.resolve text)

/-- `clean_catalog_path`. -/
def cleanCatalogPath (raw : Option Json) : Except AssistantExn String :=
  let text := stripped b raw
  if text = "" then .error (mediaRefusedError "A catalog path is required." "missing_catalog_path")
  else if text.toList.head? ≠ some '/' then
    .error (mediaRefusedError ("A catalog path starts with /; " ++ b.quote (.str text) ++ " does not.") "invalid_catalog_path")
  else .ok (posix text)

/-- `clean_name`. -/
def cleanName (raw : Option Json) : Except AssistantExn String :=
  let name := stripped b raw
  if name = "" then .error (setupRefusedError "A volume group name is required." "missing_name")
  else if 64 < name.length then
    .error (setupRefusedError "That volume group name is longer than 64 characters." "invalid_name")
  else if b.isprintable name = false ∨ name.toList.any (fun c => isSpace c && c ≠ ' ') = true then
    .error (setupRefusedError "A volume group name must be a single printable line." "invalid_name")
  else .ok name

/-- The words of a text: `text.split()`. -/
def splitSpaces (text : List Char) : List String :=
  ((text.splitOnP isSpace).filter fun word => word ≠ []).map String.ofList

/-- The barcodes of `clean_barcodes`, before they are cleaned. -/
def barcodeValues : Option Json → List Json
  | some (.str raw) => ((raw.toList.splitOn ',').flatMap splitSpaces).map Json.str
  | some (.arr values) => values
  | _ => []

/-- The loop of `clean_barcodes`. -/
def collectBarcodes : List Json → List String → Except AssistantExn (List String)
  | [], seen => .ok seen
  | value :: values, seen =>
    let barcode := b.upper (strip (b.text value))
    if barcode = "" then collectBarcodes values seen
    else if b.isalnum barcode = false then
      .error (setupRefusedError
        (b.quote (.str barcode) ++ " is not a barcode. Barcodes are alphanumeric, e.g. PH000001.") "invalid_barcode")
    else collectBarcodes values (if barcode ∈ seen then seen else seen ++ [barcode])

/-- `clean_barcodes`. -/
def cleanBarcodes (raw : Option Json) : Except AssistantExn (List String) := do
  let seen ← collectBarcodes b (barcodeValues raw) []
  if seen = [] then .error (setupRefusedError "At least one tape barcode is required." "missing_barcodes")
  else if 24 < seen.length then
    .error (setupRefusedError
      ("One action may add at most 24 tapes; " ++ toString seen.length ++ " were requested.") "too_many_tapes")
  else .ok seen

def driveNames : List String := ["drive", "drive_id", "driveId"]

def slotNames : List String := ["slot", "slot_id", "slotId"]

end normalize

/-- `json.dumps(arguments, sort_keys=True)`. -/
def sortedDumps (arguments : Arguments) : String := dumps true (.obj (arguments.insertionSort fun a b => a.1 ≤ b.1))

/-! ### Setup tools -/

namespace SetupTool

def name : SetupTool → String
  | createVolumeGroup => "create_volume_group"
  | addTapesToVolumeGroup => "add_tapes_to_volume_group"

/-- The registry, by name. -/
def ofName? (name : String) : Option SetupTool :=
  [createVolumeGroup, addTapesToVolumeGroup].find? fun tool => tool.name = name

def normalize (b : TextBuiltins) (arguments : Arguments) : SetupTool → Except AssistantExn Arguments
  | createVolumeGroup => do
    let name ← cleanName b (arguments.get? "name")
    .ok [("name", .str name)]
  | addTapesToVolumeGroup => do
    let name ← cleanName b (arguments.get? "name")
    let barcodes ← cleanBarcodes b (arguments.get? "barcodes")
    .ok [("name", .str name), ("barcodes", .arr (barcodes.map Json.str))]

end SetupTool

/-- `PendingAction.key`. -/
def PendingAction.key (action : PendingAction) : String := action.tool.name ++ ":" ++ sortedDumps action.arguments

/-- `SetupToolRegistry.plan`. -/
def planSetup (b : TextBuiltins) (tool : SetupTool) (arguments : Arguments) : AssistM PendingAction := do
  let normalized ← ofExcept (tool.normalize b arguments)
  let preview ← assistCall (.planSetup tool normalized)
  pure { tool := tool, arguments := normalized, preview := preview }

/-! ### Media tools -/

namespace MediaTool

def name : MediaTool → String
  | loadTape => "load_tape"
  | unloadDrive => "unload_drive"
  | moveTape => "move_tape"
  | formatTape => "format_tape"
  | archivePath => "archive_path"
  | restorePath => "restore_path"

/-- The registry, by name. -/
def ofName? (name : String) : Option MediaTool :=
  [loadTape, unloadDrive, moveTape, formatTape, archivePath, restorePath].find? fun tool => tool.name = name

/-- `long_running`. -/
def longRunning : MediaTool → Bool
  | formatTape | archivePath | restorePath => true
  | _ => false

/-- `_normalize_load`. -/
def normalizeLoad (b : TextBuiltins) (arguments : Arguments) : Except AssistantExn Arguments := do
  let barcode ← barcodeArgument b arguments true
  let drive ← numberArgument b arguments driveNames
  .ok [("barcode", barcode), ("drive", drive)]

/-- `_normalize_unload`: a drive is enough. -/
def normalizeUnload (b : TextBuiltins) (arguments : Arguments) : Except AssistantExn Arguments := do
  let barcode ← barcodeArgument b arguments false
  let drive ← numberArgument b arguments driveNames
  let slot ← numberArgument b arguments slotNames
  .ok [("barcode", barcode), ("drive", drive), ("slot", slot)]

/-- `_normalize_move`. -/
def normalizeMove (b : TextBuiltins) (arguments : Arguments) : Except AssistantExn Arguments := do
  let barcode ← barcodeArgument b arguments true
  let slot ← numberArgument b arguments (slotNames ++ ["dest_slot", "destination"])
  .ok [("barcode", barcode), ("slot", slot)]

/-- `_normalize_format`. -/
def normalizeFormat (b : TextBuiltins) (arguments : Arguments) : Except AssistantExn Arguments := do
  let barcode ← barcodeArgument b arguments true
  .ok [("barcode", barcode)]

/-- The source of an archive. -/
def archiveSource (b : TextBuiltins) (arguments : Arguments) : Option Json :=
  optional b arguments ["path", "source_path", "sourcePath", "source"]

/-- The volume group of an archive. -/
def archiveGroup (b : TextBuiltins) (arguments : Arguments) : Json :=
  ((optional b arguments ["volume_group", "volumeGroup", "name", "pool"]).map fun raw => Json.str (strip (b.text raw))).getD .null

/-- `_normalize_archive`. -/
def normalizeArchive (b : TextBuiltins) (arguments : Arguments) : AssistM Arguments := do
  let path ← cleanPath b (archiveSource b arguments) "source path"
  pure [("path", .str path), ("volume_group", archiveGroup b arguments)]

/-- The file to restore. -/
def restoreSource (b : TextBuiltins) (arguments : Arguments) : Option Json :=
  optional b arguments ["path", "catalog_path", "catalogPath", "source"]

/-- Where to restore it to. -/
def restoreDest (b : TextBuiltins) (arguments : Arguments) : Option Json :=
  optional b arguments ["dest", "dest_path", "destPath", "destination", "to"]

/-- `_normalize_restore`. -/
def normalizeRestore (b : TextBuiltins) (arguments : Arguments) : AssistM Arguments := do
  let path ← ofExcept (cleanCatalogPath b (restoreSource b arguments))
  let dest ← cleanPath b (restoreDest b arguments) "destination path"
  pure [("path", .str path), ("dest", .str dest)]

def normalize (b : TextBuiltins) (arguments : Arguments) : MediaTool → AssistM Arguments
  | loadTape => ofExcept (normalizeLoad b arguments)
  | unloadDrive => ofExcept (normalizeUnload b arguments)
  | moveTape => ofExcept (normalizeMove b arguments)
  | formatTape => ofExcept (normalizeFormat b arguments)
  | archivePath => normalizeArchive b arguments
  | restorePath => normalizeRestore b arguments

/-- The grade of a plan, and what has to be typed: the barcode of a cartridge that is to be erased, or a word where a file would
be overwritten. -/
def grade (plan : MediaPlan) : MediaTool → ConfirmationGrade × Option String
  | formatTape => (.typed, some plan.barcode)
  | restorePath => if plan.overwrites then (.typed, some "OVERWRITE") else (.yesNo, none)
  | _ => (.yesNo, none)

/-- The key of a call of the tool with normalised arguments. -/
def keyOf (tool : MediaTool) (arguments : Arguments) : String := tool.name ++ ":" ++ sortedDumps arguments

/-- `action_key`: the key is read without planning. -/
def actionKey (b : TextBuiltins) (tool : MediaTool) (arguments : Arguments) : AssistM String := do
  let normalized ← tool.normalize b arguments
  pure (tool.keyOf normalized)

/-- The action that a plan leads to. -/
def pending (tool : MediaTool) (arguments : Arguments) (plan : MediaPlan) : PendingMediaAction :=
  { tool := tool, arguments := arguments, preview := plan.preview, grade := (tool.grade plan).1, overwrites := plan.overwrites
    requiredResponse := (tool.grade plan).2, token := plan.token }

/-- `MediaToolRegistry.plan`: the arguments are normalised once more. -/
def plan (b : TextBuiltins) (tool : MediaTool) (arguments : Arguments) : AssistM PendingMediaAction := do
  let normalized ← tool.normalize b arguments
  let planned ← assistCall (.planMedia tool normalized)
  pure (tool.pending normalized planned)

end MediaTool

/-- `PendingMediaAction.key`. -/
def PendingMediaAction.key (action : PendingMediaAction) : String := action.tool.keyOf action.arguments

def yesAnswers : List String := ["y", "yes"]

section confirmation

variable (b : TextBuiltins)

/-- `verify_response`. -/
def verifyResponse (action : PendingMediaAction) (response : Option String) : Bool :=
  let text := strip (response.getD "")
  if text = "" then false
  else
    match action.grade with
    | .yesNo => b.lower text ∈ yesAnswers
    | .typed =>
      let required := strip (action.requiredResponse.getD "")
      if required = "" then false
      else if b.lower required ∈ yesAnswers then false
      else b.upper text = b.upper required

/-- `authorize`. -/
def authorize (action : PendingMediaAction) (response : Option String) : Option MediaAuthorization :=
  if verifyResponse b action response = false then none
  else some { actionKey := action.key, grade := action.grade, response := strip (response.getD "") }

def mediaNotAuthorizedError (message : String) : AssistantExn := .assistant "MediaNotAuthorizedError" message

def ConfirmationGrade.value : ConfirmationGrade → String
  | .yesNo => "yes_no"
  | .typed => "typed"

/-- `MediaToolRegistry.perform`. -/
def performMedia (action : PendingMediaAction) (authorization : MediaAuthorization) : AssistM Json :=
  if authorization.actionKey ≠ action.key then
    raise (mediaNotAuthorizedError
      ("The authorization presented for " ++ action.tool.name ++ " was issued for a different action."))
  else if authorization.grade ≠ action.grade then
    raise (mediaNotAuthorizedError
      (action.tool.name ++ " requires a " ++ action.grade.value ++ " confirmation; the authorization carries " ++
        authorization.grade.value ++ "."))
  else if verifyResponse b action (some authorization.response) = false then
    raise (mediaNotAuthorizedError
      ("The confirmation for " ++ action.tool.name ++ " does not satisfy its " ++ action.grade.value ++ " grade."))
  else assistCall (.applyMedia action)

end confirmation

end OpenBlade
