import OpenBlade.Domain.Models
import OpenBlade.Domain.Text

/-!
# Tape operations

Requests to the tape orchestrator, the confirmation a format needs, and the audit rows (`nas/types.py`, `domain/policies.py`).
-/

namespace OpenBlade

/-- A value of a JSON object, as far as details and results hold them. -/
inductive JsonValue where
  | null
  | bool (b : Bool)
  | int (i : Int)
  | str (s : String)
  | strs (l : List String)
  deriving Repr, DecidableEq

/-- `str(value)`, for the values an object holds. -/
def JsonValue.text : JsonValue → String
  | .null => "None"
  | .bool b => if b then "True" else "False"
  | .int i => toString i
  | .str s => s
  | .strs l => "['" ++ "', '".intercalate l ++ "']"

/-- `None if value is None else str(value)`. -/
def textUnlessNull : JsonValue → Option String
  | .null => none
  | value => some value.text

abbrev JsonObject := Effects.Dict String JsonValue

/-- The operations of the orchestrator. -/
inductive TapeOpType where
  | load
  | unload
  | format
  | write
  | move
  | importMedia
  | exportMedia
  | read
  | verify
  | eject
  deriving Repr, DecidableEq

inductive TapeOpStatus where
  | queued
  | running
  | completed
  | failed
  deriving Repr, DecidableEq

/-- One-time token authorizing a specific destructive operation. -/
structure SafetyToken where
  token : String
  operation : String
  targetBarcode : Barcode
  expiresAt : Int
  deriving Repr, DecidableEq

/-- Explicit confirmation required before formatting a tape. -/
structure FormatConfirmation where
  expectedBarcode : Barcode
  safetyToken : SafetyToken
  deriving Repr, DecidableEq

/-- `FormatConfirmation.validate`. -/
def FormatConfirmation.validate (confirmation : FormatConfirmation) (now : Int) (actualBarcode : Barcode) : Except Exn Unit :=
  if confirmation.safetyToken.expiresAt ≤ now then
    .error { cls := .typed "SafetyViolationError", message := "Safety token has expired" }
  else if confirmation.expectedBarcode ≠ actualBarcode then
    .error { cls := .typed "BarcodeMismatchError"
             message := "Expected barcode '" ++ confirmation.expectedBarcode ++ "' but got '" ++ actualBarcode ++ "'" }
  else .ok ()

/-- A confirmation that is accepted has not expired. -/
theorem FormatConfirmation.unexpired_of_validate {confirmation : FormatConfirmation} {now : Int} {barcode : Barcode} {u : Unit}
    (h : confirmation.validate now barcode = .ok u) : now < confirmation.safetyToken.expiresAt := by
  by_contra hlt
  simp [validate, Int.not_lt.1 hlt] at h

/-- A request; the values of `extras` that only Python code can pass are fields of their own. -/
structure TapeOpRequest where
  opType : TapeOpType
  barcode : Barcode
  driveId : Option Int := none
  slotId : Option Nat := none
  tapePath : Option String := none
  content : Option Bytes := none
  sizeBytes : Option Nat := none
  checksumSha256 : Option String := none
  requestedBy : String := "system"
  jobId : Option JobId := none
  /-- `extras["confirmed_format"]`. -/
  confirmedFormat : Bool := false
  /-- `extras["format_confirmation"]`. -/
  formatConfirmation : Option FormatConfirmation := none
  /-- The other entries of `extras`. -/
  extras : JsonObject := []
  deriving Repr, DecidableEq

/-- Files assigned to a single tape. -/
structure TapeAssignment where
  barcode : Barcode
  files : List String
  estimatedBytes : Int := 0
  isSpillover : Bool := false
  shardIndex : Option Nat := none
  deriving Repr, DecidableEq

/-- An audit row of the table `tape_op_log`. -/
structure TapeOpRecord where
  opId : Nat
  request : TapeOpRequest
  status : TapeOpStatus
  result : JsonObject := []
  error : Option String := none
  createdAt : Int
  startedAt : Option Int := none
  completedAt : Option Int := none
  deriving Repr, DecidableEq

end OpenBlade
