import OpenBlade.Nas.TapeOrchestrator

/-!
# Formatting

`FormatService` of `jobs/format.py`: a dry run issues a token for a barcode, and a confirm consumes it, once, before the tape is
formatted. On real hardware only scratch tapes are formatted.
-/

namespace OpenBlade

open Effects Proc

variable {L : Type}

/-- `DryRunPlan`. -/
structure DryRunPlan where
  operation : String
  target : Barcode
  affectedBarcodes : List Barcode
  warnings : List String
  isDestructive : Bool
  estimatedDurationSeconds : Option Nat
  deriving Repr, DecidableEq

/-- The configuration of the service; `upper` is `str.upper`. -/
structure FormatService where
  realBackend : Bool
  scratchBarcodes : List Barcode
  upper : String → String

/-- Five minutes. -/
def safetyTokenTtl : Int := 300 * 1000000

/-- `SafetyToken.generate`. -/
def SafetyToken.generate (operation : String) (targetBarcode : Barcode) : JobM L SafetyToken := do
  let token ← uuid4
  let now ← time
  pure { token := token, operation := operation, targetBarcode := targetBarcode, expiresAt := now + safetyTokenTtl }

def formatRequiresConfirmation (message : String) : Exn := { cls := .formatRequiresConfirmation, message := message }

/-- `run_format_job`. -/
def runFormatJob (barcode : Barcode) (confirmation : FormatConfirmation) : JobM L OperationResult := do
  let now ← time
  ofExcept (confirmation.validate now barcode)
  let record ← executeTapeRequest
    { opType := .format, barcode := barcode, requestedBy := "format-service", confirmedFormat := true
      formatConfirmation := some confirmation } true
  pure { success := Dict.get? record.result "success" ≠ some (.bool false)
         message := ((Dict.get? record.result "message").map JsonValue.text).getD "Tape formatted" }

namespace FormatService

variable (svc : FormatService)

/-- `normalize_barcode`. -/
def normalizeBarcode (barcode : String) : Barcode := svc.upper (strip barcode)

/-- `_require_scratch_media`. -/
def requireScratchMedia (barcode : Barcode) : Except Exn Unit :=
  if svc.realBackend ∧ ¬(svc.scratchBarcodes ≠ [] ∧ svc.normalizeBarcode barcode ∈ svc.scratchBarcodes) then
    .error (formatRequiresConfirmation
      ("Barcode " ++ barcode ++ " is not in OPENBLADE_SCRATCH_BARCODES; real-hardware format refused"))
  else .ok ()

/-- The barcodes an inventory shows. -/
def knownBarcodes (inv : LibraryInventory) : List Barcode := inv.slots.filterMap Prod.snd ++ inv.drives.filterMap Prod.snd

/-- `dry_run`. -/
def dryRun (barcode : String) : JobM L (DryRunPlan × SafetyToken) := do
  let barcode := svc.normalizeBarcode barcode
  ofExcept (svc.requireScratchMedia barcode)
  let inv ← inventory
  if barcode ∉ knownBarcodes inv then
    raise { cls := .typed "BarcodeMismatchError", message := "Unknown barcode " ++ barcode }
  else do
    let token ← SafetyToken.generate "format" barcode
    saveSafetyToken token
    pure ({ operation := "format", target := barcode, affectedBarcodes := [barcode]
            warnings := ["Destructive operation", "Inventory barcode must match confirmation"], isDestructive := true
            estimatedDurationSeconds := some 120 }, token)

/-- `confirm`: the token is consumed before the job, and a job that fails does not arm it again. -/
def confirm (barcode tokenValue : String) : JobM L OperationResult := do
  let barcode := svc.normalizeBarcode barcode
  ofExcept (svc.requireScratchMedia barcode)
  match ← getSafetyToken tokenValue with
  | none => raise (formatRequiresConfirmation "Unknown or missing safety token")
  | some token =>
    if token.operation ≠ "format" ∨ token.targetBarcode ≠ barcode then
      raise (formatRequiresConfirmation "Safety token does not authorize this barcode")
    else do
      let deleted ← deleteSafetyToken tokenValue
      if deleted = false then raise (formatRequiresConfirmation "Safety token already used or expired")
      else do
        let result ← runFormatJob barcode { expectedBarcode := barcode, safetyToken := token }
        let cartridge ← addCartridge barcode none
        saveCartridge { cartridge with formatted := true, usedBytes := 0 }
        pure result

end FormatService

/-- A call of the service. -/
inductive FormatCall where
  | dryRun (barcode : String)
  | confirm (barcode tokenValue : String)
  deriving Repr, DecidableEq

/-- What a call runs. -/
def FormatService.call (svc : FormatService) : FormatCall → JobM Unit Unit
  | .dryRun barcode => do
    let _ ← svc.dryRun barcode
    pure ()
  | .confirm barcode tokenValue => do
    let _ ← svc.confirm barcode tokenValue
    pure ()

end OpenBlade
