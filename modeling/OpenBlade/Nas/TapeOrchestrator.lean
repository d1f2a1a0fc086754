import OpenBlade.Catalog.ExportPolicy
import OpenBlade.Frames
import OpenBlade.Jobs.DriveHandle

/-!
# The tape orchestrator

`execute_tape_request` of `nas/tape_orchestrator.py`: every request leaves an
audit row, and a failure of the operation itself is swallowed into a `FAILED` row unless the caller asks for `raise_on_failed`.
Its locks belong to one orchestrator, and every request makes its own, so they hold nobody up.
-/

namespace OpenBlade

open Effects Proc

variable {L : Type}

/-- `_validate_request`, but for the slots of a move. -/
def validateRequest (request : TapeOpRequest) : Except Exn Unit :=
  if request.barcode.toList.all isSpace then .error (valueError "barcode must be non-empty")
  else if request.opType ∈ [.read, .write, .verify] ∧ (request.tapePath.getD "") = "" then
    .error (valueError "tape_path is required for read, write, and verify operations")
  else if request.opType = .write ∧ request.content = none then
    .error (valueError "content is required for write operations")
  else if request.opType = .format ∧ request.confirmedFormat = false then
    .error { cls := .operationNotConfirmed, message := "Format operations require explicit confirmation" }
  else .ok ()

/-- `_operation_result`: what a backend answered becomes the payload, whether it succeeded or not. -/
def operationResult (result : OperationResult) (fallback : JsonObject) : JsonObject :=
  ("success", .bool result.success) :: ("message", .str result.message) :: fallback

/-- What a request names, or else what is searched for. -/
def givenOr {α : Type} : Option α → JobM L α → JobM L α
  | some a, _ => pure a
  | none, search => search

/-- `_load`. -/
def orchestratorLoad (request : TapeOpRequest) : JobM L JsonObject := do
  match ← givenOr (request.slotId.map some) (findSlotByBarcode request.barcode) with
  | none => raise (valueError ("Barcode " ++ request.barcode ++ " is not present in a slot"))
  | some slotId =>
    let driveId := request.driveId.getD 0
    let result ← libraryLoad slotId driveId
    pure (operationResult result
      [("barcode", .str request.barcode), ("drive_id", .int driveId), ("slot_id", .int slotId)])

/-- `_find_empty_slot`. -/
def findEmptySlot : JobM L Nat := do
  let inv ← inventory
  match inv.slots.find? fun slot => slot.2 = none with
  | none => raise (valueError "No empty slot is available for unload/eject")
  | some slot => pure slot.1

/-- A live lease of another job designates the drive. -/
def leasedByAnotherJob (leases : List DriveLease) (driveId : Int) (jobId : Option JobId) : Option DriveLease :=
  leases.find? fun lease => lease.physical = driveId ∧ some lease.jobId ≠ jobId

/-- `_refuse_if_leased_by_another_job`. -/
def refuseIfLeasedByAnotherJob (driveId : Int) (jobId : Option JobId) : JobM L Unit := do
  let leases ← liveLeases
  match leasedByAnotherJob leases driveId jobId with
  | none => pure ()
  | some lease =>
    raise { cls := .driveLeased
            message := "Drive " ++ toString driveId ++ " is leased by job " ++ lease.jobId ++ "; refusing to unload" }

/-- `_unload`. -/
def orchestratorUnload (request : TapeOpRequest) : JobM L JsonObject := do
  match ← givenOr (request.driveId.map some) (findDriveByBarcode request.barcode) with
  | none => raise (valueError ("Barcode " ++ request.barcode ++ " is not loaded in a drive"))
  | some driveId =>
    let slotId ← givenOr request.slotId findEmptySlot
    refuseIfLeasedByAnotherJob driveId request.jobId
    let result ← libraryUnload driveId slotId
    pure (operationResult result
      [("barcode", .str request.barcode), ("drive_id", .int driveId), ("slot_id", .int slotId)])

/-- `_ensure_loaded`: the drive the cartridge is in, and the slot it was taken from. -/
def orchestratorEnsureLoaded (barcode : Barcode) (driveId : Option Int) : JobM L (Int × Option Nat) := do
  match ← findDriveByBarcode barcode with
  | some loadedDriveId => pure (loadedDriveId, none)
  | none =>
    match ← findSlotByBarcode barcode with
    | none => raise (valueError ("Barcode " ++ barcode ++ " is not present in simulator inventory"))
    | some slotId =>
      let targetDriveId := driveId.getD 0
      let _ ← libraryLoad slotId targetDriveId
      pure (targetDriveId, some slotId)

/-- Put back what `_ensure_loaded` took out. -/
def unloadIfLoaded (driveId : Int) : Option Nat → JobM L Unit
  | none => pure ()
  | some slotId => do
    let _ ← libraryUnload driveId slotId
    pure ()

/-- `_format`. The backend validates the confirmation again. -/
def orchestratorFormat (request : TapeOpRequest) : JobM L JsonObject :=
  match request.formatConfirmation with
  | none =>
    raise { cls := .operationNotConfirmed
            message := "Format requires a FormatConfirmation carrying a valid safety token; obtain one from the format dry-run and confirm through FormatService" }
  | some confirmation => do
    let now ← time
    ofExcept (confirmation.validate now request.barcode)
    let (driveId, loadedSlot) ← orchestratorEnsureLoaded request.barcode request.driveId
    let result ← ensure (ltfsFormat request.barcode confirmation) fun _ => unloadIfLoaded driveId loadedSlot
    pure (operationResult result
      [("barcode", .str request.barcode), ("formatted", .bool true), ("drive_id", .int driveId)])

/-- `_write`. -/
def orchestratorWrite (request : TapeOpRequest) : JobM L JsonObject := do
  let (driveId, loadedSlot) ← orchestratorEnsureLoaded request.barcode request.driveId
  let handle ← mount request.barcode .readWrite
  let path := posix (request.tapePath.getD "/")
  ensure
    (do
      writeFile handle (request.content.getD []) path
      let st ← stat handle path
      pure [("drive_id", .int driveId), ("slot_id", Catalog.jsonOfNat? loadedSlot), ("tape_path", .str path),
        ("bytes_written", .int st.sizeBytes), ("checksum", .str st.checksumSha256)])
    (fun _ => do
      let _ ← unmount handle
      unloadIfLoaded driveId loadedSlot)

/-- What a read of a tape path finds, or `FileNotFoundError`. -/
def readTapePath (request : TapeOpRequest) : JobM L (Bytes × String) := do
  match ← readBytes request.barcode (request.tapePath.getD "") with
  | none => raise { cls := .other "FileNotFoundError", message := "Tape path " ++ request.tapePath.getD "" ++ " not found" }
  | some found => pure found

/-- `_read`. -/
def orchestratorRead (request : TapeOpRequest) : JobM L JsonObject := do
  let (data, checksum) ← readTapePath request
  pure [("bytes_read", .int data.length), ("checksum", .str checksum)]

/-- `_verify`: an expected checksum that is empty is none. -/
def orchestratorVerify (request : TapeOpRequest) : JobM L JsonObject := do
  let (data, checksum) ← readTapePath request
  if request.checksumSha256.any fun expected => expected ≠ "" ∧ checksum ≠ expected then
    raise { cls := .checksumMismatch, message := "checksum mismatch" }
  else pure [("bytes_read", .int data.length), ("checksum", .str checksum), ("verified", .bool true)]

/-- `_eject`: no library has an `eject` of its own. -/
def orchestratorEject (request : TapeOpRequest) : JobM L JsonObject := orchestratorUnload request

/-! ### Moves between slots -/

/-- `int(value)`. -/
def intOf : JsonValue → Except Exn Int
  | .int i => .ok i
  | .bool b => .ok (if b then 1 else 0)
  | .str s => match s.toInt? with
    | some i => .ok i
    | none => .error (valueError ("invalid literal for int() with base 10: '" ++ s ++ "'"))
  | _ => .error { cls := .other "TypeError", message := "int() argument must be a string, a bytes-like object or a real number" }

/-- `extras.get(key, default)`. -/
def extraOr (request : TapeOpRequest) (key : String) (default : JsonValue) : JsonValue :=
  (Dict.get? request.extras key).getD default

/-- `_source_slot`. -/
def sourceSlot (request : TapeOpRequest) : JobM L Int :=
  match extraOr request "source_slot_id" (extraOr request "source_slot" (Catalog.jsonOfNat? request.slotId)) with
  | .null => do
    match ← findSlotByBarcode request.barcode with
    | none => raise (valueError ("Barcode " ++ request.barcode ++ " is not present in a slot"))
    | some slotId => pure slotId
  | value => ofExcept (intOf value)

/-- `min(..., default=0)` and `max(..., default=0)` of the slots. -/
def slotRange (slots : List Nat) : String :=
  toString (slots.min?.getD 0) ++ "-" ++ toString (slots.max?.getD 0)

/-- `_dest_slot`: an import/export element is no destination of a move. -/
def destSlot (request : TapeOpRequest) : JobM L Int :=
  match extraOr request "dest_slot_id" (extraOr request "dest_slot" (Catalog.jsonOfNat? request.slotId)) with
  | .null => raise (valueError "destination slot is required for move operations")
  | value => do
    let destination ← ofExcept (intOf value)
    let known := (← inventory).slots.map Prod.fst
    if known.any fun slot => (slot : Int) = destination then pure destination
    else
      raise (valueError ("destination slot " ++ toString destination ++ " is not a data storage slot in this library (valid: " ++
        slotRange known ++ "); moving media to an import/export element is not supported"))

/-- The check `_validate_request` makes of the slots of a move. -/
def validateMove (request : TapeOpRequest) : JobM L Unit :=
  match request.opType with
  | .move => do
    let source ← sourceSlot request
    let dest ← destSlot request
    if source = dest then raise (valueError "source slot and destination slot must differ") else pure ()
  | _ => pure ()

/-- `_move`. -/
def orchestratorMove (request : TapeOpRequest) : JobM L JsonObject := do
  let source ← sourceSlot request
  let dest ← destSlot request
  let result ← libraryMove source dest
  pure (operationResult result
    [("barcode", .str request.barcode), ("source_slot", .int source), ("destination_slot", .int dest)])

/-! ### The import/export station -/

def importExportSlotError (message : String) : Exn := { cls := .typed "ImportExportSlotError", message := message }

/-- `_mailslot_library`. -/
def requireMailslot : JobM L Unit := do
  if ← isMailslotBackend then pure ()
  else
    raise { cls := .typed "MailslotUnsupportedError"
            message := "the library has no import/export station; mailslot operations are not available on this backend" }

/-- `_required_int`. -/
def requiredInt (request : TapeOpRequest) (key opName : String) : Except Exn Int :=
  match extraOr request key .null with
  | .null => .error (valueError ("extras['" ++ key ++ "'] is required for " ++ opName ++ " operations"))
  | value => match intOf value with
    | .ok i => .ok i
    | .error _ => .error (valueError ("extras['" ++ key ++ "'] must be an element number"))

/-- The elements of the station, or what is said when there are none. -/
def validElements (elements : List Int) : String :=
  if elements = [] then "none — this library has no mailslot"
  else "[" ++ ", ".intercalate ((elements.insertionSort fun a b => a ≤ b).map toString) ++ "]"

/-- `_require_ie_element`: what the element holds. -/
def requireIeElement (ieSlot : Int) : JobM L (Option Barcode) := do
  let elements ← importExportSlots
  match Dict.get? elements ieSlot with
  | none =>
    raise (importExportSlotError ("element " ++ toString ieSlot ++ " is not an import/export element in this library (valid: " ++
      validElements (elements.map Prod.fst) ++ ")"))
  | some content => pure content

/-- `_require_storage_slot`: what the slot holds. -/
def requireStorageSlot (slotId : Nat) : JobM L (Option Barcode) := do
  let inv ← inventory
  match Dict.get? inv.slots slotId with
  | none =>
    raise (importExportSlotError ("slot " ++ toString slotId ++ " is not a data storage slot in this library (valid: " ++
      slotRange (inv.slots.map Prod.fst) ++ ")"))
  | some content => pure content

/-- `_record_cartridge_state`. -/
def recordCartridgeState (barcode : Barcode) (state : String) : JobM L Unit := do
  let _ ← addCartridge barcode none
  let _ ← setCartridgeState barcode state
  pure ()

/-- `_import`: the named cartridge must be the one in the element. -/
def orchestratorImport (request : TapeOpRequest) : JobM L JsonObject := do
  requireMailslot
  let ieSlot ← ofExcept (requiredInt request "ie_slot" "import")
  match ← requireIeElement ieSlot with
  | none => raise (importExportSlotError ("import/export element " ++ toString ieSlot ++ " is empty"))
  | some source =>
    if source ≠ request.barcode then
      raise (importExportSlotError ("import/export element " ++ toString ieSlot ++ " holds " ++ source ++ ", not " ++
        request.barcode ++ "; refusing to move a cartridge the request does not name"))
    else
      match request.slotId with
      | none => raise (importExportSlotError "slot_id (destination storage slot) is required for import")
      | some targetSlot =>
        match ← requireStorageSlot targetSlot with
        | some occupant =>
          raise (importExportSlotError ("storage slot " ++ toString targetSlot ++ " already holds " ++ occupant))
        | none =>
          let result ← importCartridge ieSlot targetSlot
          recordCartridgeState request.barcode "in_slot"
          pure (operationResult result
            [("barcode", .str request.barcode), ("ie_slot", .int ieSlot), ("target_slot", .int targetSlot)])

/-- `_guard_export`: a cartridge that carries data leaves only if the request names it once more. -/
def guardExport (request : TapeOpRequest) : JobM L Unit :=
  if textUnlessNull (extraOr request "confirmBarcode" .null) = some request.barcode then pure ()
  else do
    let assessment ← assessExport request.barcode
    if assessment.carriesData then raise { cls := .typed "ExportRefusedError", message := assessment.refusalMessage }
    else pure ()

/-- `_export`: the source slot is where the cartridge is; `slot_id` is only a cross-check. -/
def orchestratorExport (request : TapeOpRequest) : JobM L JsonObject := do
  requireMailslot
  match ← findSlotByBarcode request.barcode with
  | none =>
    raise (importExportSlotError ("Barcode " ++ request.barcode ++
      " is not in a storage slot; unload it from its drive before exporting"))
  | some source =>
    if request.slotId.any fun slotId => slotId ≠ source then
      raise (importExportSlotError (request.barcode ++ " is in slot " ++ toString source ++ ", not the requested slot " ++
        toString (request.slotId.getD 0) ++ "; refusing to move a cartridge the request does not name"))
    else do
      guardExport request
      let ieSlot ← ofExcept (requiredInt request "ie_slot" "export")
      match ← requireIeElement ieSlot with
      | some occupant =>
        raise (importExportSlotError ("import/export element " ++ toString ieSlot ++ " already holds " ++ occupant))
      | none =>
        let result ← exportCartridgeToIe source ieSlot
        recordCartridgeState request.barcode "exported"
        pure (operationResult result
          [("barcode", .str request.barcode), ("source_slot", .int source), ("ie_slot", .int ieSlot)])

/-! ### Requests -/

/-- `_resolve_drive_for_write`: only names the lock. -/
def resolveDriveForWrite (request : TapeOpRequest) : JobM L Int := do
  match request.driveId with
  | some driveId => pure driveId
  | none =>
    let loaded ← findDriveByBarcode request.barcode
    pure (loaded.getD 0)

/-- `_execute_locked` and `_dispatch`. -/
def dispatch (request : TapeOpRequest) : JobM L JsonObject :=
  match request.opType with
  | .load => orchestratorLoad request
  | .unload => orchestratorUnload request
  | .format => do
    let _ ← resolveDriveForWrite request
    orchestratorFormat request
  | .write => do
    let _ ← resolveDriveForWrite request
    orchestratorWrite request
  | .move => orchestratorMove request
  | .importMedia => orchestratorImport request
  | .exportMedia => orchestratorExport request
  | .read => orchestratorRead request
  | .verify => orchestratorVerify request
  | .eject => orchestratorEject request

def TapeOpType.value : TapeOpType → String
  | .load => "load"
  | .unload => "unload"
  | .format => "format"
  | .write => "write"
  | .move => "move"
  | .importMedia => "import"
  | .exportMedia => "export"
  | .read => "read"
  | .verify => "verify"
  | .eject => "eject"

/-- `_safe_error_message`. -/
def safeErrorMessage (opType : TapeOpType) (exc : Exn) : String :=
  if exc.cls = .operationNotConfirmed then "Format operations require explicit confirmation"
  else if exc.cls = .checksumMismatch then "Checksum verification failed"
  else if exc.cls ∈ [.typed "ExportRefusedError", .typed "MailslotUnsupportedError", .typed "ImportExportSlotError"] then
    exc.message
  else "Tape " ++ opType.value ++ " operation failed"

/-- `assert persisted is not None`. -/
def assertPersisted : Option TapeOpRecord → JobM L TapeOpRecord
  | some row => pure row
  | none => raise { cls := .assertion, message := "" }

/-- The `except` clause of `execute`: the row is failed, and only a refusal is raised again. -/
def recordFailedOp (opId : Nat) (opType : TapeOpType) (exc : Exn) : JobM L TapeOpRecord := do
  let persisted ← updateTapeOp opId (.failed (safeErrorMessage opType exc))
  let persisted ← assertPersisted persisted
  if exc.cls = .operationNotConfirmed ∨ exc.cls = .typed "ExportRefusedError" then raise exc else pure persisted

theorem validateMove_of_ne {request : TapeOpRequest} (h : request.opType ≠ .move) :
    (validateMove request : JobM L Unit) = pure () := by
  unfold validateMove
  split
  · contradiction
  · rfl

/-- `execute`. -/
def executeTapeOp (request : TapeOpRequest) : JobM L TapeOpRecord := do
  ofExcept (validateRequest request)
  validateMove request
  let row ← createTapeOp request
  let _ ← updateTapeOp row.opId .running
  handle
    (do
      let result ← dispatch request
      let persisted ← updateTapeOp row.opId (.completed result)
      assertPersisted persisted)
    (recordFailedOp row.opId request.opType)

/-- `execute_tape_request`. -/
def executeTapeRequest (request : TapeOpRequest) (raiseOnFailed : Bool) : JobM L TapeOpRecord := do
  let record ← executeTapeOp request
  if raiseOnFailed ∧ record.status = .failed then
    raise { cls := .tapeOperationFailed
            message := record.error.getD ("Tape " ++ request.opType.value ++ " operation failed") }
  else pure record

/-! ### What a request does -/

/-- Writes of the audit row of a request. -/
def Op.isRowOf (request : TapeOpRequest) : Op → Bool
  | .catalog (.createTapeOp r) => r = request
  | .catalog (.updateTapeOp _ _) => true
  | _ => false

/-- What a machine answers when a row is failed has `R`. -/
def FailedRows {σ C : Type} (M : Machine σ Op (fun o => Except Exn o.Ans) C) (R : TapeOpRecord → Prop) : Prop :=
  ∀ s opId error c row,
    (M.exec s (.catalog (.updateTapeOp opId (.failed error))) c).1 = (.ok (some row) : Except Exn (Option TapeOpRecord)) → R row

/-- A machine whose failed rows say that they are failed. -/
def Honest {σ C : Type} (M : Machine σ Op (fun o => Except Exn o.Ans) C) : Prop :=
  ∀ s opId error c row,
    (M.exec s (.catalog (.updateTapeOp opId (.failed error))) c).1 = (.ok (some row) : Except Exn (Option TapeOpRecord)) →
      row.status = .failed

/-- Everything a request may call. -/
def Op.ofOrchestrator : Op → Bool
  | .catalog (.createTapeOp _) | .catalog (.updateTapeOp _ _) | .catalog (.addCartridge _ _)
  | .catalog (.setCartridgeState _ _) | .lease .liveLeases | .host .time => true
  | .catalog o => (Op.catalog o).isRead
  | .library _ => true
  | .ltfs (.ensureTape _) | .ltfs (.readFile _ _ _) => false
  | .ltfs _ => true
  | _ => false

/-! #### Its footprint -/

theorem reads_givenOr {α : Type} {P : Op → Prop} (named : Option α) {search : JobM L α} (h : Reads P search) :
    Reads P (givenOr named search) := by
  cases named with
  | some a => exact only_pure a
  | none => exact h

theorem reads_orchestratorLoad {P : Op → Prop} (hP : ∀ o, P (.library o)) (request : TapeOpRequest) :
    Reads P (orchestratorLoad request : JobM L JsonObject) := by
  refine only_bind (reads_givenOr _ (only_perform (hP _))) fun slot => ?_
  cases slot with
  | none => exact only_raise _
  | some slot => exact only_bind (only_perform (hP _)) fun _ => only_pure _

theorem reads_orchestratorUnload {P : Op → Prop} (hP : ∀ o, P (.library o)) (hlive : P (.lease .liveLeases)) (request : TapeOpRequest) :
    Reads P (orchestratorUnload request : JobM L JsonObject) := by
  have hempty : Reads P (findEmptySlot : JobM L Nat) := by
    refine only_bind (only_perform (hP _)) fun inv => ?_
    split
    · exact only_raise _
    · exact only_pure _
  have hrefuse : ∀ d id, Reads P (refuseIfLeasedByAnotherJob d id : JobM L Unit) := by
    intro d id
    refine only_bind (only_perform hlive) fun leases => ?_
    split
    · exact only_pure ()
    · exact only_raise _
  refine only_bind (reads_givenOr _ (only_perform (hP _))) fun drive => ?_
  cases drive with
  | none => exact only_raise _
  | some d =>
    refine only_bind (reads_givenOr _ hempty) fun slot => only_bind (hrefuse _ _) fun _ => ?_
    exact only_bind (only_perform (hP _)) fun _ => only_pure _

theorem reads_orchestratorEnsureLoaded {P : Op → Prop} (hP : ∀ o, P (.library o)) (barcode : Barcode) (driveId : Option Int) :
    Reads P (orchestratorEnsureLoaded barcode driveId : JobM L (Int × Option Nat)) := by
  refine only_bind (only_perform (hP _)) fun loaded => ?_
  cases loaded with
  | some d => exact only_pure _
  | none =>
    refine only_bind (only_perform (hP _)) fun slot => ?_
    cases slot with
    | none => exact only_raise _
    | some slot => exact only_bind (only_perform (hP _)) fun _ => only_pure _

theorem reads_unloadIfLoaded {P : Op → Prop} (hP : ∀ o, P (.library o)) (driveId : Int) (slot : Option Nat) :
    Reads P (unloadIfLoaded driveId slot : JobM L Unit) := by
  cases slot with
  | none => exact only_pure ()
  | some slot => exact only_bind (only_perform (hP _)) fun _ => only_pure ()

theorem reads_resolveDriveForWrite {P : Op → Prop} (hP : ∀ o, P (.library o)) (request : TapeOpRequest) :
    Reads P (resolveDriveForWrite request : JobM L Int) := by
  unfold resolveDriveForWrite
  cases request.driveId with
  | some d => exact only_pure d
  | none => exact only_bind (only_perform (hP _)) fun _ => only_pure _

theorem reads_orchestratorFormat (request : TapeOpRequest) :
    Reads (fun o => o.ofOrchestrator = true) (orchestratorFormat request : JobM L JsonObject) := by
  unfold orchestratorFormat
  cases request.formatConfirmation with
  | none => exact only_raise _
  | some confirmation =>
    refine only_bind (only_perform rfl) fun now => only_bind (only_ofExcept _) fun _ => ?_
    refine only_bind (reads_orchestratorEnsureLoaded (fun _ => rfl) _ _) fun loaded => only_bind ?_ fun _ => only_pure _
    exact only_ensure (only_perform rfl) fun _ => reads_unloadIfLoaded (fun _ => rfl) _ _

theorem reads_orchestratorWrite (request : TapeOpRequest) :
    Reads (fun o => o.ofOrchestrator = true) (orchestratorWrite request : JobM L JsonObject) := by
  refine only_bind (reads_orchestratorEnsureLoaded (fun _ => rfl) _ _) fun loaded => only_bind (only_perform rfl) fun mount =>
    only_ensure ?_ fun _ => ?_
  · exact only_bind (only_perform rfl) fun _ => only_bind (only_perform rfl) fun _ => only_pure _
  · exact only_bind (only_perform rfl) fun _ => reads_unloadIfLoaded (fun _ => rfl) _ _

theorem reads_sourceSlot {P : Op → Prop} (hfind : ∀ barcode, P (.library (.findSlotByBarcode barcode))) (request : TapeOpRequest) :
    Reads P (sourceSlot request : JobM L Int) := by
  unfold sourceSlot
  split
  · refine only_bind (only_perform (hfind _)) fun slot => ?_
    cases slot with
    | none => exact only_raise _
    | some slot => exact only_pure _
  · exact only_ofExcept _

theorem reads_destSlot {P : Op → Prop} (hinv : P (.library .inventory)) (request : TapeOpRequest) :
    Reads P (destSlot request : JobM L Int) := by
  unfold destSlot
  split
  · exact only_raise _
  · refine only_bind (only_ofExcept _) fun destination => only_bind (only_perform hinv) fun inv => ?_
    exact only_ite (fun _ => only_pure _) fun _ => only_raise _

theorem reads_validateMove {P : Op → Prop} (hfind : ∀ barcode, P (.library (.findSlotByBarcode barcode)))
    (hinv : P (.library .inventory)) (request : TapeOpRequest) : Reads P (validateMove request : JobM L Unit) := by
  unfold validateMove
  split
  · refine only_bind (reads_sourceSlot hfind request) fun source => only_bind (reads_destSlot hinv request) fun dest => ?_
    exact only_ite (fun _ => only_raise _) fun _ => only_pure ()
  · exact only_pure ()

theorem reads_orchestratorMove (request : TapeOpRequest) :
    Reads (fun o => o.ofOrchestrator = true) (orchestratorMove request : JobM L JsonObject) :=
  only_bind (reads_sourceSlot (fun _ => rfl) request) fun _ => only_bind (reads_destSlot (P := fun o => o.ofOrchestrator = true) rfl request) fun _ =>
    only_bind (only_perform rfl) fun _ => only_pure _

theorem reads_requireMailslot {P : Op → Prop} (hP : P (.library .isMailslotBackend)) : Reads P (requireMailslot : JobM L Unit) :=
  only_bind (only_perform hP) fun _ => only_ite (fun _ => only_pure ()) fun _ => only_raise _

theorem reads_requireIeElement (ieSlot : Int) :
    Reads (fun o => o.ofOrchestrator = true) (requireIeElement ieSlot : JobM L (Option Barcode)) := by
  refine only_bind (only_perform rfl) fun elements => ?_
  split
  · exact only_raise _
  · exact only_pure _

theorem reads_requireStorageSlot {P : Op → Prop} (hP : P (.library .inventory)) (slotId : Nat) :
    Reads P (requireStorageSlot slotId : JobM L (Option Barcode)) := by
  refine only_bind (only_perform hP) fun inv => ?_
  split
  · exact only_raise _
  · exact only_pure _

theorem reads_recordCartridgeState {P : Op → Prop} (hadd : ∀ barcode vg, P (.catalog (.addCartridge barcode vg)))
    (hset : ∀ barcode state, P (.catalog (.setCartridgeState barcode state))) (barcode : Barcode) (state : String) :
    Reads P (recordCartridgeState barcode state : JobM L Unit) :=
  only_bind (only_perform (hadd _ _)) fun _ => only_bind (only_perform (hset _ _)) fun _ => only_pure ()

theorem reads_orchestratorImport (request : TapeOpRequest) :
    Reads (fun o => o.ofOrchestrator = true) (orchestratorImport request : JobM L JsonObject) := by
  refine only_bind (reads_requireMailslot (P := fun o => o.ofOrchestrator = true) rfl) fun _ => only_bind (only_ofExcept _) fun ieSlot => ?_
  refine only_bind (reads_requireIeElement ieSlot) fun source => ?_
  cases source with
  | none => exact only_raise _
  | some source =>
    refine only_ite (fun _ => only_raise _) fun _ => ?_
    cases request.slotId with
    | none => exact only_raise _
    | some targetSlot =>
      refine only_bind (reads_requireStorageSlot (P := fun o => o.ofOrchestrator = true) rfl targetSlot) fun occupant => ?_
      cases occupant with
      | some occupant => exact only_raise _
      | none =>
        exact only_bind (only_perform rfl) fun _ => only_bind (reads_recordCartridgeState (fun _ _ => rfl) (fun _ _ => rfl) _ _) fun _ => only_pure _

theorem ofOrchestrator_of_isRead {o : Op} (h : (∃ o', o = .catalog o') ∧ o.isRead = true) : o.ofOrchestrator = true := by
  obtain ⟨⟨o, rfl⟩, h⟩ := h
  cases o <;> first | rfl | cases h

theorem reads_guardExport {P : Op → Prop} (hP : ∀ o, (∃ o', o = .catalog o') ∧ o.isRead = true → P o) (request : TapeOpRequest) :
    Reads P (guardExport request : JobM L Unit) := by
  refine only_ite (fun _ => only_pure ()) fun _ => only_bind ?_ fun _ => only_ite (fun _ => only_raise _) fun _ => only_pure ()
  exact (looks_assessExport _).weaken hP

theorem reads_orchestratorExport (request : TapeOpRequest) :
    Reads (fun o => o.ofOrchestrator = true) (orchestratorExport request : JobM L JsonObject) := by
  refine only_bind (reads_requireMailslot (P := fun o => o.ofOrchestrator = true) rfl) fun _ => only_bind (only_perform rfl) fun source => ?_
  cases source with
  | none => exact only_raise _
  | some source =>
    refine only_ite (fun _ => only_raise _) fun _ => only_bind (reads_guardExport (fun _ h => ofOrchestrator_of_isRead h) request) fun _ => ?_
    refine only_bind (only_ofExcept _) fun ieSlot => only_bind (reads_requireIeElement ieSlot) fun occupant => ?_
    cases occupant with
    | some occupant => exact only_raise _
    | none => exact only_bind (only_perform rfl) fun _ => only_bind (reads_recordCartridgeState (fun _ _ => rfl) (fun _ _ => rfl) _ _) fun _ => only_pure _

theorem reads_readTapePath (request : TapeOpRequest) :
    Reads (fun o => o.ofOrchestrator = true) (readTapePath request : JobM L (Bytes × String)) := by
  refine only_bind (only_perform rfl) fun found => ?_
  cases found with
  | none => exact only_raise _
  | some found => exact only_pure found

/-- A request writes its audit row, and calls what its operation calls. -/
theorem reads_executeTapeRequest_of {P : Op → Prop} {request : TapeOpRequest} (hrow : ∀ o, o.isRowOf request = true → P o)
    (hvalidate : Reads P (validateMove request : JobM L Unit)) (hdispatch : Reads P (dispatch request : JobM L JsonObject))
    (raiseOnFailed : Bool) : Reads P (executeTapeRequest request raiseOnFailed : JobM L TapeOpRecord) := by
  have hassert : ∀ row, Reads P (assertPersisted row : JobM L TapeOpRecord) := by
    intro row
    cases row with
    | none => exact only_raise _
    | some row => exact only_pure row
  have hupdate : ∀ id update, Reads P (updateTapeOp id update : JobM L (Option TapeOpRecord)) :=
    fun id update => only_perform (hrow _ rfl)
  have hfailed : ∀ id exc, Reads P (recordFailedOp id request.opType exc : JobM L TapeOpRecord) := by
    intro id exc
    refine only_bind (hupdate _ _) fun row => only_bind (hassert row) fun record => ?_
    exact only_ite (fun _ => only_raise _) fun _ => only_pure _
  refine only_bind ?_ fun record => only_ite (fun _ => only_raise _) fun _ => only_pure _
  refine only_bind (only_ofExcept _) fun _ => only_bind hvalidate fun _ => ?_
  refine only_bind (only_perform (hrow _ (by simp [Op.isRowOf]))) fun row => only_bind (hupdate _ _) fun _ => ?_
  refine only_handle (only_bind hdispatch fun _ => only_bind (hupdate _ _) fun record => hassert record) fun exc => ?_
  exact hfailed row.opId exc

/-- A request calls the orchestrator's operations and assigns nothing. -/
theorem reads_executeTapeRequest (request : TapeOpRequest) (raiseOnFailed : Bool) :
    Reads (fun o => o.ofOrchestrator = true) (executeTapeRequest request raiseOnFailed : JobM L TapeOpRecord) := by
  refine reads_executeTapeRequest_of (fun o ho => ?_)
    (reads_validateMove (P := fun o => o.ofOrchestrator = true) (fun _ => rfl) rfl request) ?_ raiseOnFailed
  · cases o <;> rename_i o <;> cases o <;> first | rfl | cases ho
  · unfold dispatch
    cases request.opType with
    | load => exact reads_orchestratorLoad (P := fun o => o.ofOrchestrator = true) (fun _ => rfl) request
    | unload => exact reads_orchestratorUnload (P := fun o => o.ofOrchestrator = true) (fun _ => rfl) rfl request
    | format => exact only_bind (reads_resolveDriveForWrite (fun _ => rfl) request) fun _ => reads_orchestratorFormat request
    | write => exact only_bind (reads_resolveDriveForWrite (fun _ => rfl) request) fun _ => reads_orchestratorWrite request
    | move => exact reads_orchestratorMove request
    | importMedia => exact reads_orchestratorImport request
    | exportMedia => exact reads_orchestratorExport request
    | read => exact only_bind (reads_readTapePath request) fun _ => only_pure _
    | verify => exact only_bind (reads_readTapePath request) fun _ => only_ite (fun _ => only_raise _) fun _ => only_pure _
    | eject => exact reads_orchestratorUnload (P := fun o => o.ofOrchestrator = true) (fun _ => rfl) rfl request

/-- A LOAD or an UNLOAD writes its audit row, looks at the leases and calls the library. -/
theorem reads_tapeRequest {P : Op → Prop} {request : TapeOpRequest} (hop : request.opType = .load ∨ request.opType = .unload)
    (hrow : ∀ o, o.isRowOf request = true → P o) (hP : ∀ o, P (.library o)) (hlive : P (.lease .liveLeases)) (raiseOnFailed : Bool) :
    Reads P (executeTapeRequest request raiseOnFailed : JobM L TapeOpRecord) := by
  have hmove : request.opType ≠ .move := by
    rcases hop with h | h <;> rw [h] <;> exact nofun
  refine reads_executeTapeRequest_of hrow (by rw [validateMove_of_ne hmove]; exact only_pure ()) ?_ raiseOnFailed
  unfold dispatch
  rcases hop with h | h <;> rw [h]
  · exact reads_orchestratorLoad hP request
  · exact reads_orchestratorUnload hP hlive request

section rules

variable {σ C : Type} {M : Machine σ Op (fun o => Except Exn o.Ans) C} {K : Contract σ Op fun o => Except Exn o.Ans}
  {I Nok Nerr : σ → Prop} {request : TapeOpRequest} {l : L} {s : σ}

/-- A write of an audit row that keeps `J`. -/
theorem wp_tapeOpRow {J : σ → Prop} (hJ : Stable M K (fun o => o.isRowOf request = true) J) {o : Op} (ho : o.isRowOf request = true)
    (hs : J s) : wp M K (perform o : JobM L _) (fun _ l' s' => l' = l ∧ J s') (fun _ l' s' => l' = l ∧ J s') l s := by
  have hreads : Reads (fun o => o.isRowOf request = true) (perform o : JobM L _) := only_perform ho
  refine wp_mono (hreads.keeps hJ hs) ?_ ?_
  · exact fun _ l' s' h => ⟨h.1.symm, h.2⟩
  · exact fun _ l' s' h => ⟨h.1.symm, h.2⟩

theorem wp_assertPersisted {J : σ → Prop} (row : Option TapeOpRecord) (hs : J s) :
    wp M K (assertPersisted row : JobM L _) (fun r l' s' => row = some r ∧ l' = l ∧ J s') (fun _ l' s' => l' = l ∧ J s') l s := by
  cases row with
  | some row => exact ⟨rfl, rfl, hs⟩
  | none => exact ⟨rfl, hs⟩

/-- The row of a failed operation, and the state the failure left. -/
theorem wp_recordFailedOp {R : TapeOpRecord → Prop} {J : σ → Prop} (hM : FailedRows M R) (hJ : Stable M K (fun o => o.isRowOf request = true) J) (opId : Nat)
    (opType : TapeOpType) (exc : Exn) (hs : J s) :
    wp M K (recordFailedOp opId opType exc : JobM L TapeOpRecord)
      (fun row l' s' => R row ∧ l' = l ∧ J s') (fun _ l' s' => l' = l ∧ J s') l s := by
  unfold recordFailedOp
  rw [wp_bind]
  refine wp_call fun s₁ hr c ha => ?_
  obtain ⟨hg, hJ'⟩ := hJ _ rfl s s₁ c hs hr ha
  refine ⟨hg, fun persisted hans => ?_, fun e _ => ⟨rfl, hJ'⟩⟩
  rw [wp_bind]
  refine wp_mono (wp_assertPersisted persisted hJ') ?_ (fun _ _ _ h => h)
  intro row l' s' h
  obtain ⟨hrow, rfl, h⟩ := h
  split
  · exact ⟨rfl, h⟩
  · exact ⟨hM s₁ opId _ c row (hrow ▸ hans), rfl, h⟩

theorem wp_validateMove_of_ne (hmove : request.opType ≠ .move) (s : σ) (hs : I s) :
    wp M K (validateMove request) (fun _ l' s' => l' = l ∧ I s') (fun _ l' s' => l' = l ∧ I s') l s := by
  rw [validateMove_of_ne hmove]
  exact ⟨rfl, hs⟩

/-- What a request leaves: the row is failed, or the operation was carried out. A failed row does not say that it was not: the row
is failed too when the operation could not be recorded. -/
theorem wp_executeTapeOp {R : TapeOpRecord → Prop} (hM : FailedRows M R)
    (hv : ∀ s, I s → wp M K (validateMove request) (fun _ l' s' => l' = l ∧ I s') (fun _ l' s' => l' = l ∧ I s') l s)
    (hI : Stable M K (fun o => o.isRowOf request = true) I)
    (hok : Stable M K (fun o => o.isRowOf request = true) Nok) (herr : Stable M K (fun o => o.isRowOf request = true) Nerr)
    (hs : I s)
    (hd : ∀ s, I s → wp M K (dispatch request) (fun _ l' s' => l' = l ∧ Nok s') (fun _ l' s' => l' = l ∧ Nerr s') l s) :
    wp M K (executeTapeOp request)
      (fun record l' s' => l' = l ∧ (Nok s' ∨ R record ∧ Nerr s'))
      (fun _ l' s' => l' = l ∧ (I s' ∨ Nok s' ∨ Nerr s')) l s := by
  unfold executeTapeOp
  rw [wp_bind, wp_ofExcept]
  cases validateRequest request with
  | error e => exact ⟨rfl, .inl hs⟩
  | ok u =>
    rw [wp_bind]
    refine wp_mono (hv s hs) ?_ (fun _ _ _ h => ⟨h.1, .inl h.2⟩)
    intro _ l' s' h
    obtain ⟨rfl, h⟩ := h
    rw [wp_bind]
    refine wp_mono (wp_tapeOpRow hI (decide_eq_true rfl) h) ?_ (fun _ _ _ h => ⟨h.1, .inl h.2⟩)
    intro row l' s' h
    obtain ⟨rfl, h⟩ := h
    rw [wp_bind]
    refine wp_mono (wp_tapeOpRow hI rfl h) ?_ (fun _ _ _ h => ⟨h.1, .inl h.2⟩)
    intro _ l' s' h
    obtain ⟨rfl, h⟩ := h
    rw [wp_handle, wp_bind]
    -- when the operation was carried out but recording that fails, the row is failed all the same
    have hcatch : ∀ (exc : Exn) s, Nok s → wp M K (recordFailedOp row.opId request.opType exc)
        (fun record l₁ s₁ => l₁ = l' ∧ (Nok s₁ ∨ R record ∧ Nerr s₁))
        (fun _ l₁ s₁ => l₁ = l' ∧ (I s₁ ∨ Nok s₁ ∨ Nerr s₁)) l' s := fun exc s h =>
      wp_mono (wp_recordFailedOp hM hok row.opId request.opType exc h) (fun _ _ _ h => ⟨h.2.1, .inl h.2.2⟩)
        (fun _ _ _ h => ⟨h.1, .inr (.inl h.2)⟩)
    refine wp_mono (hd s' h) ?_ ?_
    · intro result l₁ s₁ h
      obtain ⟨hl, h⟩ := h
      rw [hl, wp_bind]
      refine wp_mono (wp_tapeOpRow hok rfl h) ?_ (fun exc l₁ s₁ h => h.1 ▸ hcatch exc s₁ h.2)
      intro persisted l₁ s₁ h
      rw [h.1]
      refine wp_mono (wp_assertPersisted persisted h.2) ?_ (fun exc l₁ s₁ h => h.1 ▸ hcatch exc s₁ h.2)
      exact fun _ _ _ h => ⟨h.2.1, .inl h.2.2⟩
    · intro exc l₁ s₁ h
      rw [h.1]
      refine wp_mono (wp_recordFailedOp hM herr row.opId request.opType exc h.2) ?_ ?_
      · exact fun _ _ _ h => ⟨h.2.1, .inr ⟨h.1, h.2.2⟩⟩
      · exact fun _ _ _ h => ⟨h.1, .inr (.inr h.2)⟩

/-- Whatever its row says, a request that returns has done or failed to do its operation. -/
theorem wp_executeTapeRequest_ends {J : σ → Prop} (raiseOnFailed : Bool) (hmove : request.opType ≠ .move)
    (hI : Stable M K (fun o => o.isRowOf request = true) I) (hJ : Stable M K (fun o => o.isRowOf request = true) J) (hs : I s)
    (hd : ∀ s, I s → wp M K (dispatch request) (fun _ l' s' => l' = l ∧ J s') (fun _ l' s' => l' = l ∧ J s') l s) :
    wp M K (executeTapeRequest request raiseOnFailed) (fun _ l' s' => l' = l ∧ J s') (fun _ l' s' => l' = l ∧ (I s' ∨ J s'))
      l s := by
  have hM : FailedRows M fun _ => True := fun _ _ _ _ _ _ => trivial
  unfold executeTapeRequest
  rw [wp_bind]
  refine wp_mono (wp_executeTapeOp hM (wp_validateMove_of_ne hmove) hI hJ hJ hs hd) ?_ (fun _ _ _ h => ⟨h.1, h.2.imp_right fun h => h.elim id id⟩)
  intro record l' s' h
  have hJ' : J s' := h.2.elim id And.right
  split
  · exact ⟨h.1, .inr hJ'⟩
  · exact ⟨h.1, hJ'⟩

/-- A request that is to raise and returns was carried out. -/
theorem wp_executeTapeRequest_raising (hM : Honest M) (hmove : request.opType ≠ .move) (hI : Stable M K (fun o => o.isRowOf request = true) I)
    (hok : Stable M K (fun o => o.isRowOf request = true) Nok) (herr : Stable M K (fun o => o.isRowOf request = true) Nerr)
    (hs : I s)
    (hd : ∀ s, I s → wp M K (dispatch request) (fun _ l' s' => l' = l ∧ Nok s') (fun _ l' s' => l' = l ∧ Nerr s') l s) :
    wp M K (executeTapeRequest request true) (fun _ l' s' => l' = l ∧ Nok s')
      (fun _ l' s' => l' = l ∧ (I s' ∨ Nok s' ∨ Nerr s')) l s := by
  unfold executeTapeRequest
  rw [wp_bind]
  refine wp_mono (wp_executeTapeOp hM (wp_validateMove_of_ne hmove) hI hok herr hs hd) ?_ (fun _ _ _ h => h)
  intro record l' s' h
  obtain ⟨rfl, h⟩ := h
  by_cases hf : record.status = .failed
  · rw [if_pos ⟨rfl, hf⟩, wp_raise]
    rcases h with h | h
    · exact ⟨rfl, .inr (.inl h)⟩
    · exact ⟨rfl, .inr (.inr h.2)⟩
  · rw [if_neg (fun h => hf h.2), wp_pure]
    rcases h with h | h
    · exact ⟨rfl, h⟩
    · exact absurd h.1 hf

/-- Loading from a slot that is named is one load. -/
theorem wp_dispatch_load {slotId : Nat} (hop : request.opType = .load) (hslot : request.slotId = some slotId)
    (h : wp M K (libraryLoad slotId (request.driveId.getD 0)) (fun _ l' s' => l' = l ∧ Nok s') (fun _ l' s' => l' = l ∧ Nerr s') l s) :
    wp M K (dispatch request) (fun _ l' s' => l' = l ∧ Nok s') (fun _ l' s' => l' = l ∧ Nerr s') l s := by
  unfold dispatch
  rw [hop]
  unfold orchestratorLoad
  rw [hslot, wp_bind, Option.map_some, givenOr, wp_pure, wp_bind]
  exact h

/-- Unloading a drive into a slot, both named, is a look at the leases and one unload. -/
theorem wp_dispatch_unload {driveId : Int} {slotId : Nat} (hop : request.opType = .unload)
    (hdrive : request.driveId = some driveId) (hslot : request.slotId = some slotId)
    (hlook : Stable M K (fun o => o.isRead = true) I) (hs : I s) (hIerr : ∀ s, I s → Nerr s)
    (h : ∀ s, I s → wp M K (libraryUnload driveId slotId) (fun _ l' s' => l' = l ∧ Nok s') (fun _ l' s' => l' = l ∧ Nerr s') l s) :
    wp M K (dispatch request) (fun _ l' s' => l' = l ∧ Nok s') (fun _ l' s' => l' = l ∧ Nerr s') l s := by
  unfold dispatch
  rw [hop]
  unfold orchestratorUnload
  rw [hdrive, hslot, wp_bind, Option.map_some, givenOr, wp_pure, wp_bind, givenOr, wp_pure, wp_bind]
  have hlooks : Looks (refuseIfLeasedByAnotherJob driveId request.jobId : JobM L Unit) := by
    refine only_bind (only_perform rfl) fun leases => ?_
    split
    · exact only_pure ()
    · exact only_raise _
  refine wp_mono (hlooks.keeps hlook hs) ?_ (fun e l' s' h => ⟨h.1.symm, hIerr s' h.2⟩)
  intro _ l' s' h'
  obtain ⟨rfl, h'⟩ := h'
  rw [wp_bind]
  exact h s' h'

end rules

/-- The machine is honest, observed or not. -/
theorem honest_machine (sha256 : Bytes → String) : Honest (machine sha256) := by
  intro s opId error c row h
  obtain ⟨h, -⟩ := World.exec_ok sha256 h
  have hupd : ((s.elapse c).catalog.updateTapeOp (s.elapse c).clock opId (.failed error)).1 = some row := Except.ok.inj h
  unfold Catalog.updateTapeOp at hupd
  split at hupd
  · cases hupd
  · rw [← Option.some.inj hupd]
    rfl

theorem Honest.observed {σ C μ : Type} {M : Machine σ Op (fun o => Except Exn o.Ans) C} (hM : Honest M)
    (obs : μ → Step σ Op (fun o => Except Exn o.Ans) → μ) : Honest (M.observed obs) :=
  fun s opId error c row h => hM s.1 opId error c row h

end OpenBlade
