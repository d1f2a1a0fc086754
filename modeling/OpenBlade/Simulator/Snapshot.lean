import OpenBlade.Codec.Hex
import OpenBlade.Codec.Json
import OpenBlade.Simulator.MountDiscipline

/-!
# Snapshots of the simulator

`to_json` and `from_json` of the library and of the tapes. The library keeps the mount states of its drives; the tapes do not keep
the mounts, which end with the process that holds their handles. A snapshot is read back as far as its leaves have the types that
`to_json` writes.
-/

namespace OpenBlade

open Codec Effects

/-! ### Fields -/

def typeError (message : String) : Exn := { cls := .other "TypeError", message := message }

namespace Snapshot

/-- `raw.get(key)`. -/
def field? (raw : Json) (key : String) : Option Json :=
  match raw with
  | .obj fields => (fields.find? fun field => field.1 = key).map Prod.snd
  | _ => none

/-- `raw[key]`. -/
def field (raw : Json) (key : String) : Except Exn Json :=
  match field? raw key with
  | some value => .ok value
  | none => .error { cls := .keyError, message := "'" ++ key ++ "'" }

def asInt : Json → Except Exn Int
  | .int i => .ok i
  | _ => .error (typeError "not a number")

def asStr : Json → Except Exn String
  | .str s => .ok s
  | _ => .error (typeError "not a string")

def asBool : Json → Except Exn Bool
  | .bool b => .ok b
  | _ => .error (typeError "not a boolean")

def asItems : Json → Except Exn (List Json)
  | .arr items => .ok items
  | _ => .error (typeError "not a list")

def asFields : Json → Except Exn (List (String × Json))
  | .obj fields => .ok fields
  | _ => .error (typeError "not an object")

end Snapshot

open Snapshot

/-- `Enum(text)`. -/
def ofValue {S : Type} (all : List S) (value : S → String) (name text : String) : Except Exn S :=
  match all.find? fun s => value s = text with
  | some s => .ok s
  | none => .error { cls := .valueError, message := "'" ++ text ++ "' is not a valid " ++ name }

def CartridgeState.all : List CartridgeState := [.inSlot, .inDrive, .exported, .missing, .cleaning]

def DriveState.all : List DriveState := [.empty, .loaded, .busy, .failed]

def MountState.all : List MountState := [.unmounted, .mountedRo, .mountedRw, .dirty]

/-! ### The library -/

def barcodeToJson : Option Barcode → Json
  | none => .null
  | some barcode => .str barcode

/-- `Barcode(item["barcode"]) if item.get("barcode") else None`. -/
def barcodeFromJson (upper : String → String) (item : Json) : Except Exn (Option Barcode) :=
  match field? item "barcode" with
  | some (.str text) => barcodeUnlessEmpty upper (some text)
  | _ => .ok none

def slotToJson (slot : Int × Option Barcode) : Json :=
  .obj [("slot_id", .int slot.1), ("barcode", barcodeToJson slot.2)]

def slotFromJson (upper : String → String) (item : Json) : Except Exn (Int × Option Barcode) := do
  let slotId ← (field item "slot_id") >>= asInt
  let barcode ← barcodeFromJson upper item
  pure (slotId, barcode)

def driveToJson (drive : Int × MockDrive) : Json :=
  .obj [("drive_id", .int drive.1), ("barcode", barcodeToJson drive.2.barcode),
    ("drive_state", .str drive.2.driveState.value), ("mount_state", .str drive.2.mountState.value)]

def driveFromJson (upper : String → String) (item : Json) : Except Exn (Int × MockDrive) := do
  let driveId ← (field item "drive_id") >>= asInt
  let barcode ← barcodeFromJson upper item
  let driveState ← (field item "drive_state") >>= asStr
  let driveState ← ofValue DriveState.all DriveState.value "DriveState" driveState
  let mountState ← (field item "mount_state") >>= asStr
  let mountState ← ofValue MountState.all MountState.value "MountState" mountState
  pure (driveId, { barcode, driveState, mountState })

def stateToJson (entry : Barcode × CartridgeState) : String × Json := (entry.1, .str entry.2.value)

def stateFromJson (field : String × Json) : Except Exn (Barcode × CartridgeState) := do
  let text ← asStr field.2
  let state ← ofValue CartridgeState.all CartridgeState.value "CartridgeState" text
  pure (field.1, state)

namespace MockLibrary

def toJson (lib : MockLibrary) : Json :=
  .obj [("slots", .arr (lib.slots.map slotToJson)), ("import_export_slots", .arr (lib.ieSlots.map slotToJson)),
    ("drives", .arr (lib.drives.map driveToJson)), ("cartridge_states", .obj (lib.cartridgeStates.map stateToJson))]

/-- A cartridge of an element has a state. -/
def setDefaultStates (lib : MockLibrary) : MockLibrary :=
  let slotted := (lib.slots ++ lib.ieSlots).foldl (fun lib slot => lib.setDefaultState slot.2 .inSlot) lib
  lib.drives.foldl (fun lib drive => lib.setDefaultState drive.2.barcode .inDrive) slotted

def fromJson (upper : String → String) (raw : Json) : Except Exn MockLibrary := do
  let slots ← (field raw "slots") >>= asItems
  let slots ← slots.mapM (slotFromJson upper)
  let ieSlots ← asItems ((field? raw "import_export_slots").getD (.arr []))
  let ieSlots ← ieSlots.mapM (slotFromJson upper)
  let drives ← (field raw "drives") >>= asItems
  let drives ← drives.mapM (driveFromJson upper)
  let states ← asFields ((field? raw "cartridge_states").getD (.obj []))
  let states ← states.mapM stateFromJson
  let lib : MockLibrary :=
    { slots := Dict.ofPairs slots, ieSlots := Dict.ofPairs ieSlots, drives := Dict.ofPairs drives
      cartridgeStates := Dict.ofPairs states, nodupSlots := Dict.nodup_keys_ofPairs _, nodupIeSlots := Dict.nodup_keys_ofPairs _
      nodupDrives := Dict.nodup_keys_ofPairs _, nodupStates := Dict.nodup_keys_ofPairs _ }
  lib.setDefaultStates.validateInvariants
  pure lib.setDefaultStates

end MockLibrary

/-! ### The tapes -/

namespace MockFileRecord

def toJson (record : MockFileRecord) : Json :=
  .obj [("tape_path", .str record.tapePath), ("size_bytes", .int record.sizeBytes),
    ("checksum_sha256", .str record.checksumSha256), ("content_hex", .str (String.ofList (toHex record.content))),
    ("modified_at", .str record.modifiedAt.isoformat)]

/-- `bytes.fromhex(text)`. -/
def contentFromHex (text : String) : Except Exn Bytes :=
  match fromHex text.toList with
  | some bytes => .ok bytes
  | none => .error { cls := .valueError, message := "non-hexadecimal number found in fromhex() arg" }

def dateFromText (text : String) : Except Exn DateTime :=
  match DateTime.fromisoformat text with
  | some date => .ok date
  | none => .error { cls := .valueError, message := "Invalid isoformat string: '" ++ text ++ "'" }

def fromJson (payload : Json) : Except Exn MockFileRecord := do
  let tapePath ← (field payload "tape_path") >>= asStr
  let sizeBytes ← (field payload "size_bytes") >>= asInt
  let checksumSha256 ← (field payload "checksum_sha256") >>= asStr
  let content ← (field payload "content_hex") >>= asStr
  let content ← contentFromHex content
  let modifiedAt ← (field payload "modified_at") >>= asStr
  let modifiedAt ← dateFromText modifiedAt
  pure { tapePath, sizeBytes, checksumSha256, content, modifiedAt }

end MockFileRecord

def fileToJson (file : String × MockFileRecord) : String × Json := (file.1, file.2.toJson)

def fileFromJson (field : String × Json) : Except Exn (String × MockFileRecord) := do
  let record ← MockFileRecord.fromJson field.2
  pure (field.1, record)

namespace MockTapeContents

def toJson (tape : MockTapeContents) : Json :=
  .obj [("barcode", .str tape.barcode), ("capacity_bytes", .int tape.capacityBytes), ("used_bytes", .int tape.usedBytes),
    ("formatted", .bool tape.formatted), ("mount_state", .str tape.mountState.value),
    ("files", .obj (tape.files.map fileToJson))]

def fromJson (payload : Json) : Except Exn MockTapeContents := do
  let barcode ← (field payload "barcode") >>= asStr
  let capacityBytes ← (field payload "capacity_bytes") >>= asInt
  let usedBytes ← asInt ((field? payload "used_bytes").getD (.int 0))
  let files ← asFields ((field? payload "files").getD (.obj []))
  let files ← files.mapM fileFromJson
  let formatted ← asBool ((field? payload "formatted").getD (.bool false))
  let mountState ← asStr ((field? payload "mount_state").getD (.str MountState.unmounted.value))
  let mountState ← ofValue MountState.all MountState.value "MountState" mountState
  pure
    { barcode, capacityBytes := capacityBytes.toNat, usedBytes, files := Dict.ofPairs files, formatted, mountState
      nodupFiles := Dict.nodup_keys_ofPairs _ }

end MockTapeContents

def tapeToJson (entry : Barcode × MockTapeContents) : String × Json := (entry.1, entry.2.toJson)

def tapeFromJson (field : String × Json) : Except Exn (Barcode × MockTapeContents) := do
  let tape ← MockTapeContents.fromJson field.2
  pure (field.1, tape)

namespace MockLtfs

def toJson (ltfs : MockLtfs) : Json :=
  .obj [("capacity_bytes", .int ltfs.capacityBytes), ("tapes", .obj (ltfs.tapes.map tapeToJson))]

/-- `_tapes.setdefault(barcode, ...)`. -/
def setDefaultTape (ltfs : MockLtfs) (barcode : Barcode) : MockLtfs :=
  if (ltfs.tapes.get? barcode).isSome then ltfs
  else ltfs.setTape barcode { barcode, capacityBytes := ltfs.capacityBytes }

/-- `from_json`: the tapes of the snapshot, and blank ones for the other cartridges of the library; nothing is mounted. -/
def fromJson (lib : MockLibrary) (raw : Json) : Except Exn MockLtfs := do
  let capacityBytes ← asInt ((field? raw "capacity_bytes").getD (.int 12000000000))
  let tapes ← asFields ((field? raw "tapes").getD (.obj []))
  let tapes ← tapes.mapM tapeFromJson
  let ltfs : MockLtfs :=
    { capacityBytes := capacityBytes.toNat, tapes := Dict.ofPairs tapes, nodupTapes := Dict.nodup_keys_ofPairs _ }
  pure (lib.getAllBarcodes.foldl setDefaultTape ltfs)

end MockLtfs

/-- A restart: the library and the tapes from their snapshots. Handles that were given out stay in the hands of the callers. -/
def Simulator.reload (upper : String → String) (s : Simulator) : Except Exn Simulator := do
  let library ← MockLibrary.fromJson upper s.library.toJson
  let ltfs ← MockLtfs.fromJson library s.ltfs.toJson
  pure { library, ltfs, handles := s.handles }

/-! ### Round trips -/

theorem driveState_value (state : DriveState) : ofValue DriveState.all DriveState.value "DriveState" state.value = .ok state := by
  cases state <;> rfl

theorem mountState_value (state : MountState) : ofValue MountState.all MountState.value "MountState" state.value = .ok state := by
  cases state <;> rfl

theorem cartridgeState_value (state : CartridgeState) :
    ofValue CartridgeState.all CartridgeState.value "CartridgeState" state.value = .ok state := by
  cases state <;> rfl

/-- A barcode in the form of `Barcode` is no empty text. -/
theorem ne_empty_of_normalizeBarcode {upper : String → String} {text : String} {barcode : Barcode}
    (h : normalizeBarcode upper text = .ok barcode) : barcode ≠ "" := by
  unfold normalizeBarcode at h
  dsimp only at h
  split at h
  · rename_i hform
    rw [← Except.ok.inj h]
    rintro hempty
    rw [hempty] at hform
    exact absurd hform.1 (by decide)
  · cases h

/-- What an element holds is read back. -/
theorem barcodeFromJson_item {upper : String → String} {item : Json} {content : Option Barcode}
    (hitem : field? item "barcode" = some (barcodeToJson content))
    (hcontent : ∀ barcode, content = some barcode → normalizeBarcode upper barcode = .ok barcode) :
    barcodeFromJson upper item = .ok content := by
  unfold barcodeFromJson
  rw [hitem]
  cases content with
  | none => rfl
  | some barcode =>
    have hnorm := hcontent barcode rfl
    simp only [barcodeToJson, barcodeUnlessEmpty, ne_empty_of_normalizeBarcode hnorm, if_false, hnorm]
    rfl

theorem slotFromJson_toJson {upper : String → String} {slot : Int × Option Barcode}
    (h : ∀ barcode, slot.2 = some barcode → normalizeBarcode upper barcode = .ok barcode) :
    slotFromJson upper (slotToJson slot) = .ok slot := by
  have hbarcode : barcodeFromJson upper (slotToJson slot) = .ok slot.2 := barcodeFromJson_item rfl h
  unfold slotFromJson
  rw [hbarcode]
  rfl

theorem driveFromJson_toJson {upper : String → String} {drive : Int × MockDrive}
    (h : ∀ barcode, drive.2.barcode = some barcode → normalizeBarcode upper barcode = .ok barcode) :
    driveFromJson upper (driveToJson drive) = .ok drive := by
  have hbarcode : barcodeFromJson upper (driveToJson drive) = .ok drive.2.barcode := barcodeFromJson_item rfl h
  have hdrive : (field (driveToJson drive) "drive_state") >>= asStr = .ok drive.2.driveState.value := rfl
  have hmount : (field (driveToJson drive) "mount_state") >>= asStr = .ok drive.2.mountState.value := rfl
  have hid : (field (driveToJson drive) "drive_id") >>= asInt = .ok drive.1 := rfl
  unfold driveFromJson
  rw [hid, hbarcode, hdrive, hmount]
  simp only [bind, Except.bind, driveState_value, mountState_value]
  rfl

theorem stateFromJson_toJson (entry : Barcode × CartridgeState) : stateFromJson (stateToJson entry) = .ok entry := by
  simp only [stateFromJson, stateToJson, asStr, bind, Except.bind, cartridgeState_value]
  rfl

theorem recordFromJson_toJson (record : MockFileRecord) : MockFileRecord.fromJson record.toJson = .ok record := by
  have hcontent : MockFileRecord.contentFromHex (String.ofList (toHex record.content)) = .ok record.content := by
    unfold MockFileRecord.contentFromHex
    rw [String.toList_ofList, fromHex_toHex]
  have hdate : MockFileRecord.dateFromText record.modifiedAt.isoformat = .ok record.modifiedAt := by
    unfold MockFileRecord.dateFromText
    rw [DateTime.fromisoformat_isoformat]
  have hhex : (field record.toJson "content_hex") >>= asStr = .ok (String.ofList (toHex record.content)) := rfl
  have hmodified : (field record.toJson "modified_at") >>= asStr = .ok record.modifiedAt.isoformat := rfl
  have hpath : (field record.toJson "tape_path") >>= asStr = .ok record.tapePath := rfl
  have hsize : (field record.toJson "size_bytes") >>= asInt = .ok record.sizeBytes := rfl
  have hchecksum : (field record.toJson "checksum_sha256") >>= asStr = .ok record.checksumSha256 := rfl
  unfold MockFileRecord.fromJson
  rw [hpath, hsize, hchecksum, hhex, hmodified]
  simp only [bind, Except.bind, hcontent, hdate]
  rfl

theorem fileFromJson_toJson (file : String × MockFileRecord) : fileFromJson (fileToJson file) = .ok file := by
  unfold fileFromJson fileToJson
  rw [recordFromJson_toJson]
  rfl

theorem tapeContentsFromJson_toJson (tape : MockTapeContents) : MockTapeContents.fromJson tape.toJson = .ok tape := by
  have hfiles : (tape.files.map fileToJson).mapM fileFromJson = .ok tape.files := mapM_map_ok fun file _ => fileFromJson_toJson file
  have hfields : asFields ((field? tape.toJson "files").getD (.obj [])) = .ok (tape.files.map fileToJson) := rfl
  have hbarcode : (field tape.toJson "barcode") >>= asStr = .ok tape.barcode := rfl
  have hcapacity : (field tape.toJson "capacity_bytes") >>= asInt = .ok (tape.capacityBytes : Int) := rfl
  have hused : asInt ((field? tape.toJson "used_bytes").getD (.int 0)) = .ok tape.usedBytes := rfl
  have hformatted : asBool ((field? tape.toJson "formatted").getD (.bool false)) = .ok tape.formatted := rfl
  have hmount : asStr ((field? tape.toJson "mount_state").getD (.str MountState.unmounted.value)) =
      .ok tape.mountState.value := rfl
  unfold MockTapeContents.fromJson
  rw [hbarcode, hcapacity, hused, hfields, hformatted, hmount]
  simp only [bind, Except.bind, hfiles, mountState_value, pure, Except.pure, Int.toNat_natCast, Dict.ofPairs_self tape.nodupFiles]

theorem tapeFromJson_toJson (entry : Barcode × MockTapeContents) : tapeFromJson (tapeToJson entry) = .ok entry := by
  unfold tapeFromJson tapeToJson
  rw [tapeContentsFromJson_toJson]
  rfl

/-! ### What a restart needs -/

namespace Simulator

open Stateful Simulation

section library

variable {upper : String → String} {sha256 : Bytes → String} {P : MockLibrary → Prop}

theorem keeps_setDriveMountState (hset : ∀ lib d mountState, P lib → P (lib.setDriveMountState d mountState).2) (d : Int)
    (mountState : MountState) :
    Keeps (fun s : Simulator => P s.library) (Simulation.library fun lib => lib.setDriveMountState d mountState) := by
  intro s h
  have hlib := hset s.library d mountState h
  unfold Simulation.library
  rw [wp_within]
  refine ⟨fun a lib hrun => ?_, fun e lib hrun => ?_⟩ <;>
    · rw [hrun] at hlib
      exact hlib

theorem keepsLibrary_ensureTape (faults : LtfsFaults) (text : String) :
    Keeps (fun s : Simulator => P s.library) (ensureTape upper faults text) :=
  fun _ h => wp_ensureTape upper (fun _ _ _ _ _ hs' => (ensured_frame hs').1.symm ▸ h) fun _ => h

theorem keepsLibrary_changeLtfs (f : MockLtfs → MockLtfs) : Keeps (fun s : Simulator => P s.library) (changeLtfs f) :=
  keeps_change fun _ h => h

theorem keepsLibrary_maybeRaise (faults : LtfsFaults) (faultType : InjectedFaultType) :
    Keeps (fun s : Simulator => P s.library) (maybeRaiseInjectedFault faults faultType) :=
  fun _ h => wp_maybeRaiseInjectedFault (fun _ => h) fun _ _ _ => h

theorem keepsLibrary_requireActiveMount (handle : MountHandle) :
    Keeps (fun s : Simulator => P s.library) (requireActiveMount handle) := by
  refine keeps_bind (keeps_read _) fun found => ?_
  cases found with
  | none => exact keeps_raise _
  | some mount =>
    dsimp only
    split
    · exact keeps_pure _
    · exact keeps_raise _

theorem keepsLibrary_format (hset : ∀ lib d mountState, P lib → P (lib.setDriveMountState d mountState).2) (now : Int)
    (faults : LtfsFaults) (text : String) (confirmation : Option FormatConfirmation) :
    Keeps (fun s : Simulator => P s.library) (format upper now faults text confirmation) := by
  cases confirmation with
  | none => exact keeps_raise _
  | some confirmation =>
    refine keeps_bind (keeps_ofExcept _) fun _ => ?_
    refine keeps_bind (keepsLibrary_ensureTape _ _) fun tape => ?_
    refine keeps_bind (keepsLibrary_changeLtfs _) fun _ => ?_
    refine keeps_bind (keeps_read _) fun found => ?_
    refine keeps_bind (keeps_ofExcept _) fun found => ?_
    cases found with
    | none => exact keeps_pure _
    | some d => exact keeps_bind (keeps_setDriveMountState hset _ _) fun _ => keeps_pure _

theorem keepsLibrary_register (normalized barcode : Barcode) (d : Int) (mode : MountMode) :
    Keeps (fun s : Simulator => P s.library) (register normalized barcode d mode) := by
  refine keeps_bind (keeps_read _) fun _ => ?_
  exact keeps_bind (keeps_change fun _ h => h) fun _ => keeps_pure _

theorem keepsLibrary_mount (hset : ∀ lib d mountState, P lib → P (lib.setDriveMountState d mountState).2)
    (faults : LtfsFaults) (text : String) (mode : MountMode) :
    Keeps (fun s : Simulator => P s.library) (mount upper faults text mode) := by
  refine keeps_bind (keeps_ofExcept _) fun normalized => ?_
  refine keeps_bind (keepsLibrary_maybeRaise _ _) fun _ => ?_
  refine keeps_bind (keepsLibrary_maybeRaise _ _) fun _ => ?_
  split
  · exact keeps_raise _
  refine keeps_bind (keeps_read _) fun found => ?_
  refine keeps_bind (keeps_ofExcept _) fun found => ?_
  cases found with
  | none => exact keeps_raise _
  | some d =>
    refine keeps_bind (keepsLibrary_ensureTape _ _) fun tape => ?_
    split
    · refine keeps_bind (keeps_read _) fun activeForTape => ?_
      split
      · exact keeps_raise _
      · split
        · refine keeps_bind (keeps_setDriveMountState hset _ _) fun _ => ?_
          exact keeps_bind (keepsLibrary_changeLtfs _) fun _ => keepsLibrary_register _ _ _ _
        · exact keepsLibrary_register _ _ _ _
    · exact keeps_raise _

theorem keepsLibrary_unmount (hset : ∀ lib d mountState, P lib → P (lib.setDriveMountState d mountState).2)
    (faults : LtfsFaults) (handle : MountHandle) :
    Keeps (fun s : Simulator => P s.library) (unmount upper faults handle) := by
  refine keeps_bind (keepsLibrary_requireActiveMount _) fun ended => ?_
  refine keeps_bind (keepsLibrary_changeLtfs _) fun _ => ?_
  refine keeps_bind (keepsLibrary_ensureTape _ _) fun tape => ?_
  refine keeps_bind (keeps_read _) fun remaining => ?_
  refine keeps_bind (keepsLibrary_changeLtfs _) fun _ => ?_
  exact keeps_bind (keeps_setDriveMountState hset _ _) fun _ => keeps_pure _

theorem keepsLibrary_writeMountedBytes (hset : ∀ lib d mountState, P lib → P (lib.setDriveMountState d mountState).2)
    (now : DateTime) (faults : LtfsFaults) (handle : MountHandle) (dest : String) (content : Bytes) (sizeBytes : Option Int)
    (checksumSha256 : Option String) :
    Keeps (fun s : Simulator => P s.library)
      (writeMountedBytes upper sha256 now faults handle dest content sizeBytes checksumSha256) := by
  refine keeps_bind (keepsLibrary_maybeRaise _ _) fun _ => ?_
  refine keeps_bind (keepsLibrary_maybeRaise _ _) fun _ => ?_
  refine keeps_bind (keepsLibrary_requireActiveMount _) fun mount => ?_
  split
  · exact keeps_raise _
  refine keeps_bind (keepsLibrary_ensureTape _ _) fun tape => ?_
  refine keeps_bind (keepsLibrary_changeLtfs _) fun _ => ?_
  split
  · exact keeps_bind (keepsLibrary_changeLtfs _) fun _ => keeps_raise _
  · split
    · exact keeps_bind (keepsLibrary_changeLtfs _) fun _ => keeps_raise _
    · refine keeps_bind (keepsLibrary_changeLtfs _) fun _ => ?_
      exact keeps_bind (keeps_setDriveMountState hset _ _) fun _ => keeps_pure _

theorem keepsLibrary_writeMetadataBytes (now : DateTime) (faults : LtfsFaults) (text dest : String) (content : Bytes) :
    Keeps (fun s : Simulator => P s.library) (writeMetadataBytes upper sha256 now faults text dest content) := by
  refine keeps_bind (keeps_ofExcept _) fun _ => ?_
  refine keeps_bind (keepsLibrary_maybeRaise _ _) fun _ => ?_
  refine keeps_bind (keepsLibrary_maybeRaise _ _) fun _ => ?_
  refine keeps_bind (keepsLibrary_ensureTape _ _) fun tape => ?_
  dsimp only
  split
  · exact keeps_raise _
  · exact keepsLibrary_changeLtfs _

/-- The backend changes nothing of the library but mount states. -/
theorem call_library {s : Simulator} (hset : ∀ lib d mountState, P lib → P (lib.setDriveMountState d mountState).2)
    (h : P s.library) (circumstances : Circumstances) (call : LtfsCall) :
    P (s.call upper sha256 circumstances call).2.library := by
  cases call with
  | format barcode confirmation =>
    exact answer_state (P := fun s => P s.library) _ (keepsLibrary_format hset _ _ _ _ s h)
  | mount barcode mode => exact answer_state (P := fun s => P s.library) _ (keepsLibrary_mount hset _ _ _ s h)
  | unmount handle =>
    exact withHandle_state (P := fun s => P s.library) h fun handle _ =>
      answer_state (P := fun s => P s.library) _ (keepsLibrary_unmount hset _ _ s h)
  | writeFile handle source dest =>
    refine withHandle_state (P := fun s => P s.library) h fun handle _ => answer_state (P := fun s => P s.library) _ ?_
    exact keeps_bind (keeps_ofExcept _) (fun _ => keepsLibrary_writeMountedBytes hset _ _ _ _ _ _ _) s h
  | writeBytes handle dest content sizeBytes checksumSha256 =>
    exact withHandle_state (P := fun s => P s.library) h fun handle _ =>
      answer_state (P := fun s => P s.library) _ (keepsLibrary_writeMountedBytes hset _ _ _ _ _ _ _ s h)
  | writeMetadata barcode dest content =>
    exact answer_state (P := fun s => P s.library) _ (keepsLibrary_writeMetadataBytes _ _ _ _ _ s h)
  | readBytes barcode path =>
    refine answer_state (P := fun s => P s.library) _ (keeps_bind (keeps_ofExcept _) (fun _ => ?_) s h)
    exact keeps_bind (keepsLibrary_maybeRaise _ _) fun _ => keeps_bind (keepsLibrary_ensureTape _ _) fun _ => keeps_pure _
  | remainingCapacity barcode =>
    exact answer_state (P := fun s => P s.library) _ (keeps_bind (keepsLibrary_ensureTape _ _) (fun _ => keeps_pure _) s h)

end library

/-- Every operation keeps the barcodes of the library in the form of `Barcode`. -/
theorem canonical_operate {upper : UpperCase} {sha256 : Bytes → String} {s : Simulator}
    (h : MockLibrary.Canonical upper.apply s.library) (op : SimulatorOperation) :
    MockLibrary.Canonical upper.apply (s.operate upper.apply sha256 op).2.library := by
  cases op with
  | library op => exact h.operate op
  | ltfs circumstances call =>
    refine call_library (P := MockLibrary.Canonical upper.apply) (fun lib d mountState hlib => ?_) h circumstances call
    exact MockLibrary.update_state hlib fun _ _ hok => hlib.setDriveMountState hok

end Simulator

/-! ### What is read back -/

namespace MockLibrary

/-- The dictionaries are all there is of a library. -/
theorem ext_dicts {lib lib' : MockLibrary} (hslots : lib.slots = lib'.slots) (hie : lib.ieSlots = lib'.ieSlots)
    (hdrives : lib.drives = lib'.drives) (hstates : lib.cartridgeStates = lib'.cartridgeStates) : lib = lib' := by
  cases lib
  cases lib'
  simp_all

/-- Every cartridge in an element has a state. -/
def Recorded (lib : MockLibrary) : Prop :=
  ∀ e barcode, lib.contents e = some barcode → (lib.cartridgeStates.get? barcode).isSome

/-- A library is read back, with a state for every cartridge in an element, if it passes its check so. -/
theorem fromJson_toJson {upper : String → String} {lib : MockLibrary} (h : Canonical upper lib) :
    fromJson upper lib.toJson = (lib.setDefaultStates.validateInvariants >>= fun _ => pure lib.setDefaultStates) := by
  have hslots : (lib.slots.map slotToJson).mapM (slotFromJson upper) = .ok lib.slots := by
    refine mapM_map_ok fun slot hslot => slotFromJson_toJson fun barcode hb => h (.slot slot.1) barcode ?_
    exact (contents_slot (Dict.get?_of_mem lib.nodupSlots hslot)).trans hb
  have hie : (lib.ieSlots.map slotToJson).mapM (slotFromJson upper) = .ok lib.ieSlots := by
    refine mapM_map_ok fun slot hslot => slotFromJson_toJson fun barcode hb => h (.ieSlot slot.1) barcode ?_
    exact (contents_ieSlot (Dict.get?_of_mem lib.nodupIeSlots hslot)).trans hb
  have hdrives : (lib.drives.map driveToJson).mapM (driveFromJson upper) = .ok lib.drives := by
    refine mapM_map_ok fun drive hdrive => driveFromJson_toJson fun barcode hb => h (.drive drive.1) barcode ?_
    exact (contents_drive (Dict.get?_of_mem lib.nodupDrives hdrive)).trans hb
  have hstates : (lib.cartridgeStates.map stateToJson).mapM stateFromJson = .ok lib.cartridgeStates :=
    mapM_map_ok fun entry _ => stateFromJson_toJson entry
  have hslotItems : (field lib.toJson "slots") >>= asItems = .ok (lib.slots.map slotToJson) := rfl
  have hieItems : asItems ((field? lib.toJson "import_export_slots").getD (.arr [])) = .ok (lib.ieSlots.map slotToJson) := rfl
  have hdriveItems : (field lib.toJson "drives") >>= asItems = .ok (lib.drives.map driveToJson) := rfl
  have hstateFields : asFields ((field? lib.toJson "cartridge_states").getD (.obj [])) =
      .ok (lib.cartridgeStates.map stateToJson) := rfl
  unfold fromJson
  rw [hslotItems, hieItems, hdriveItems, hstateFields]
  simp only [bind, Except.bind, hslots, hie, hdrives, hstates]
  have hlib : ({ slots := Dict.ofPairs lib.slots, ieSlots := Dict.ofPairs lib.ieSlots, drives := Dict.ofPairs lib.drives
                 cartridgeStates := Dict.ofPairs lib.cartridgeStates, nodupSlots := Dict.nodup_keys_ofPairs _
                 nodupIeSlots := Dict.nodup_keys_ofPairs _, nodupDrives := Dict.nodup_keys_ofPairs _
                 nodupStates := Dict.nodup_keys_ofPairs _ } : MockLibrary) = lib :=
    ext_dicts (Dict.ofPairs_self lib.nodupSlots) (Dict.ofPairs_self lib.nodupIeSlots) (Dict.ofPairs_self lib.nodupDrives)
      (Dict.ofPairs_self lib.nodupStates)
  rw [hlib]

/-- Where every state is recorded, none is set by default. -/
theorem setDefaultStates_self {lib : MockLibrary} (h : Recorded lib) : lib.setDefaultStates = lib := by
  have hfold : ∀ {α : Type} (content : α → Option Barcode) (state : CartridgeState) (xs : List α),
      (∀ x ∈ xs, ∀ barcode, content x = some barcode → (lib.cartridgeStates.get? barcode).isSome) →
      xs.foldl (fun lib x => lib.setDefaultState (content x) state) lib = lib := by
    intro α content state xs hxs
    induction xs with
    | nil => rfl
    | cons x xs ih =>
      have hx : lib.setDefaultState (content x) state = lib := by
        unfold setDefaultState
        cases hc : content x with
        | none => rfl
        | some barcode => simp [hxs x List.mem_cons_self barcode hc]
      rw [List.foldl_cons, hx]
      exact ih fun y hy => hxs y (List.mem_cons_of_mem _ hy)
  unfold setDefaultStates
  rw [hfold (fun slot => slot.2) .inSlot (lib.slots ++ lib.ieSlots), hfold (fun drive => drive.2.barcode) .inDrive lib.drives]
  · intro drive hdrive barcode hb
    exact h (.drive drive.1) barcode ((contents_drive (Dict.get?_of_mem lib.nodupDrives hdrive)).trans hb)
  · intro slot hslot barcode hb
    rcases List.mem_append.1 hslot with hslot | hslot
    · exact h (.slot slot.1) barcode ((contents_slot (Dict.get?_of_mem lib.nodupSlots hslot)).trans hb)
    · exact h (.ieSlot slot.1) barcode ((contents_ieSlot (Dict.get?_of_mem lib.nodupIeSlots hslot)).trans hb)

/-- By default, every cartridge in an element has a state. -/
theorem recorded_setDefaultStates (lib : MockLibrary) : ∀ e barcode, lib.contents e = some barcode →
    (lib.setDefaultStates.cartridgeStates.get? barcode).isSome := by
  intro e barcode he
  have hslots := lib.get?_setDefaultStates (fun slot => slot.2) .inSlot (lib.slots ++ lib.ieSlots) barcode
  have hdrives := ((lib.slots ++ lib.ieSlots).foldl (fun lib slot => lib.setDefaultState slot.2 .inSlot)
    lib).get?_setDefaultStates (fun drive => drive.2.barcode) .inDrive lib.drives barcode
  unfold setDefaultStates
  dsimp only
  rw [hdrives, hslots]
  cases e with
  | slot i =>
    have hget : lib.slots.get? i = some (some barcode) := Option.join_eq_some_iff.1 he
    have hmem : some barcode ∈ (lib.slots ++ lib.ieSlots).map fun slot => slot.2 :=
      List.mem_map.2 ⟨(i, some barcode), List.mem_append_left _ (Dict.mem_of_get? hget), rfl⟩
    rw [if_pos hmem]
    simp
  | ieSlot i =>
    have hget : lib.ieSlots.get? i = some (some barcode) := Option.join_eq_some_iff.1 he
    have hmem : some barcode ∈ (lib.slots ++ lib.ieSlots).map fun slot => slot.2 :=
      List.mem_map.2 ⟨(i, some barcode), List.mem_append_right _ (Dict.mem_of_get? hget), rfl⟩
    rw [if_pos hmem]
    simp
  | drive i =>
    obtain ⟨drive, hget, hb⟩ := Option.bind_eq_some_iff.1 he
    have hmem : some barcode ∈ lib.drives.map fun drive => drive.2.barcode :=
      List.mem_map.2 ⟨(i, drive), Dict.mem_of_get? hget, hb⟩
    rw [if_pos hmem]
    simp

end MockLibrary

namespace MockLtfs

theorem setDefaultTape_frame (ltfs : MockLtfs) (barcodes : List Barcode) :
    (barcodes.foldl setDefaultTape ltfs).capacityBytes = ltfs.capacityBytes ∧
      (barcodes.foldl setDefaultTape ltfs).activeMounts = ltfs.activeMounts := by
  induction barcodes generalizing ltfs with
  | nil => exact ⟨rfl, rfl⟩
  | cons barcode barcodes ih =>
    obtain ⟨hcapacity, hmounts⟩ := ih (ltfs.setDefaultTape barcode)
    rw [List.foldl_cons, hcapacity, hmounts]
    unfold setDefaultTape
    split <;> exact ⟨rfl, rfl⟩

/-- A tape by default. -/
theorem get?_setDefaultTapes (ltfs : MockLtfs) (barcodes : List Barcode) (barcode : Barcode) :
    (barcodes.foldl setDefaultTape ltfs).tapes.get? barcode =
      (ltfs.tapes.get? barcode).or
        (if barcode ∈ barcodes then some { barcode, capacityBytes := ltfs.capacityBytes } else none) := by
  induction barcodes generalizing ltfs with
  | nil => simp
  | cons b barcodes ih =>
    rw [List.foldl_cons, ih]
    unfold setDefaultTape
    split
    · rename_i hsome
      by_cases hb : barcode = b
      · subst hb
        obtain ⟨tape, htape⟩ := Option.isSome_iff_exists.1 hsome
        simp [htape]
      · simp [hb]
    · rename_i hnone
      rw [setTape, Dict.get?_set]
      by_cases hb : b = barcode
      · subst hb
        simp [Option.not_isSome_iff_eq_none.1 hnone]
      · have hb' : barcode ≠ b := fun h => hb h.symm
        simp [hb, hb']

/-- The tapes are read back, with blank ones for the cartridges that had none; nothing is mounted. -/
theorem fromJson_toJson (lib : MockLibrary) (ltfs : MockLtfs) :
    ∃ ltfs', fromJson lib ltfs.toJson = .ok ltfs' ∧ ltfs'.capacityBytes = ltfs.capacityBytes ∧ ltfs'.activeMounts = [] ∧
      ∀ barcode, ltfs'.tapes.get? barcode = (ltfs.tapes.get? barcode).or
        (if barcode ∈ lib.getAllBarcodes then some { barcode, capacityBytes := ltfs.capacityBytes } else none) := by
  have htapes : (ltfs.tapes.map tapeToJson).mapM tapeFromJson = .ok ltfs.tapes := mapM_map_ok fun entry _ => tapeFromJson_toJson entry
  have hcapacity : asInt ((field? ltfs.toJson "capacity_bytes").getD (.int 12000000000)) = .ok (ltfs.capacityBytes : Int) := rfl
  have hfields : asFields ((field? ltfs.toJson "tapes").getD (.obj [])) = .ok (ltfs.tapes.map tapeToJson) := rfl
  unfold fromJson
  rw [hcapacity, hfields]
  simp only [bind, Except.bind, htapes]
  refine ⟨_, rfl, ?_, ?_, fun barcode => ?_⟩
  · rw [(setDefaultTape_frame _ _).1]
    rfl
  · rw [(setDefaultTape_frame _ _).2]
  · rw [get?_setDefaultTapes]
    have hget : (Dict.ofPairs ltfs.tapes).get? barcode = ltfs.tapes.get? barcode := by rw [Dict.ofPairs_self ltfs.nodupTapes]
    change ((Dict.ofPairs ltfs.tapes).get? barcode).or _ = _
    rw [hget]
    rfl

end MockLtfs

namespace Simulator

/-- The mount can be ended; and the drive can be unloaded once no mount of the tape is left. -/
def Releases (upper : String → String) (s : Simulator) (mount : ActiveMount) : Prop :=
  ∃ result s', Simulation.unmount upper {} mount.handle s = (.ok result, s') ∧
    (s'.ltfs.mountsOf mount.barcode = [] → ∃ drive, s'.library.drives.get? mount.driveId = some drive ∧
      canUnloadDrive drive.driveState drive.mountState = true)

/-- A snapshot is faithful: what is read back has the same slots, import/export elements, drives, cartridge states and tapes, and
lets every tape go that was mounted. -/
def Faithful (upper : String → String) (s : Simulator) : Prop :=
  ∃ s', s.reload upper = .ok s' ∧ s'.library = s.library ∧ (∀ barcode, s'.tapeFor barcode = s.tapeFor barcode) ∧
    ∀ id mount, s.ltfs.activeMounts.get? id = some mount → Releases upper s' mount

/-- What is read back of tapes and library gives the same tapes. -/
theorem tapeFor_reload {s s' : Simulator} (hlib : s'.library = s.library) (hcapacity : s'.ltfs.capacityBytes = s.ltfs.capacityBytes)
    (htapes : ∀ barcode, s'.ltfs.tapes.get? barcode = (s.ltfs.tapes.get? barcode).or
      (if barcode ∈ s.library.getAllBarcodes then some { barcode, capacityBytes := s.ltfs.capacityBytes } else none))
    (barcode : Barcode) : s'.tapeFor barcode = s.tapeFor barcode := by
  unfold tapeFor
  rw [htapes, hlib, hcapacity]
  cases s.ltfs.tapes.get? barcode with
  | some tape => rfl
  | none =>
    by_cases hknown : barcode ∈ s.library.getAllBarcodes
    · simp [hknown]
    · simp [hknown]

/-- Without active mounts no handle can be unmounted. -/
theorem not_releases {upper : String → String} {s : Simulator} (h : s.ltfs.activeMounts = []) (mount : ActiveMount) :
    ¬Releases upper s mount := by
  rintro ⟨result, s', hrun, -⟩
  have hget : s.ltfs.activeMounts.get? mount.handle.handleId = none := by rw [h, Dict.get?_nil]
  have hraises : Stateful.wp (Simulation.unmount upper {} mount.handle) (fun _ _ => False) (fun _ _ => True) s := by
    unfold Simulation.unmount
    rw [Stateful.wp_bind]
    unfold Simulation.requireActiveMount
    rw [Stateful.wp_bind, Stateful.wp_read, hget]
    trivial
  exact ((Stateful.wp_iff _).1 hraises).1 result s' hrun

/-- From canonical barcodes on, a snapshot is faithful exactly when nothing is mounted, and the library passes its check and knows
every cartridge it holds. -/
theorem faithful_iff {upper : UpperCase} {s : Simulator} (h : MockLibrary.Canonical upper.apply s.library) :
    Faithful upper.apply s ↔
      s.ltfs.activeMounts = [] ∧ s.library.validateInvariants = .ok () ∧ MockLibrary.Recorded s.library := by
  constructor
  · rintro ⟨s', hreload, hlib, -, hreleases⟩
    obtain ⟨lib, hfrom, hreload⟩ := MockLibrary.bind_ok hreload
    obtain ⟨ltfs, hltfs, hreload⟩ := MockLibrary.bind_ok hreload
    obtain rfl := Except.ok.inj hreload
    dsimp only at hlib
    rw [MockLibrary.fromJson_toJson h] at hfrom
    obtain ⟨_, hvalid, hpure⟩ := MockLibrary.bind_ok hfrom
    have hself : s.library.setDefaultStates = s.library := (Except.ok.inj hpure).trans hlib
    rw [hself] at hvalid
    refine ⟨?_, hvalid, fun e barcode he => ?_⟩
    · obtain ⟨ltfs', hltfs', -, hmounts, -⟩ := MockLtfs.fromJson_toJson lib s.ltfs
      obtain rfl := Except.ok.inj (hltfs.symm.trans hltfs')
      cases hactive : s.ltfs.activeMounts with
      | nil => rfl
      | cons entry rest =>
        have hget : s.ltfs.activeMounts.get? entry.1 = some entry.2 := by
          rw [hactive, Dict.get?_cons, if_pos rfl]
        exact absurd (hreleases entry.1 entry.2 hget) (not_releases hmounts entry.2)
    · have hrecorded := s.library.recorded_setDefaultStates e barcode he
      rwa [hself] at hrecorded
  · rintro ⟨hmounts, hvalid, hrecorded⟩
    have hself := MockLibrary.setDefaultStates_self hrecorded
    have hfrom : MockLibrary.fromJson upper.apply s.library.toJson = .ok s.library := by
      rw [MockLibrary.fromJson_toJson h, hself, hvalid]
      rfl
    obtain ⟨ltfs, hltfs, hcapacity, -, htapes⟩ := MockLtfs.fromJson_toJson s.library s.ltfs
    let s' : Simulator := { library := s.library, ltfs, handles := s.handles }
    have hsame : ∀ barcode, s'.tapeFor barcode = s.tapeFor barcode := tapeFor_reload rfl hcapacity htapes
    refine ⟨s', ?_, rfl, hsame, fun id mount hget => ?_⟩
    · unfold reload
      rw [hfrom]
      simp only [bind, Except.bind, hltfs]
      rfl
    · rw [hmounts] at hget
      cases hget

end Simulator

/-- After any operations the barcodes of the library are in the form of `Barcode`. -/
theorem canonical_after (upper : UpperCase) (sha256 : Bytes → String)
    (numSlots numDrives numImportExportSlots capacityBytes : Nat) (operations : List SimulatorOperation) :
    MockLibrary.Canonical upper.apply (Simulator.library
      ((simulator upper.apply sha256 numSlots numDrives numImportExportSlots capacityBytes).after
        (.new numSlots numDrives numImportExportSlots capacityBytes) operations)) := by
  refine Automaton.after_keeps (M := simulator upper.apply sha256 numSlots numDrives numImportExportSlots capacityBytes)
    (I := fun s => MockLibrary.Canonical upper.apply s.library) (fun s op h => Simulator.canonical_operate h op) ?_ operations
  intro e barcode he
  cases (MockLibrary.contents_new numSlots numDrives numImportExportSlots e).symm.trans he

/-- After any operations, a snapshot of the simulator is faithful exactly when no mount is active, and the library passes its own
check and knows every cartridge it holds. -/
theorem snapshot_faithful_iff (upper : UpperCase) (sha256 : Bytes → String)
    (numSlots numDrives numImportExportSlots capacityBytes : Nat) (operations : List SimulatorOperation) :
    let s : Simulator := (simulator upper.apply sha256 numSlots numDrives numImportExportSlots capacityBytes).after
      (.new numSlots numDrives numImportExportSlots capacityBytes) operations
    Simulator.Faithful upper.apply s ↔
      s.ltfs.activeMounts = [] ∧ s.library.validateInvariants = .ok () ∧ MockLibrary.Recorded s.library :=
  Simulator.faithful_iff (canonical_after upper sha256 numSlots numDrives numImportExportSlots capacityBytes operations)

/-- A tape that is mounted read-write cannot be unmounted after a restart. -/
theorem restart_strands_tape :
    ¬Simulator.Faithful UpperCase.ascii.apply
      ((simulator UpperCase.ascii.apply (fun _ => "") 1 1 0 100).after (.new 1 1 0 100)
        [.library (.call {} (.addCartridge 1 "TAPE0001")), .library (.call {} (.load 1 0)),
          .ltfs { now := 0, date := .epoch }
            (.format "TAPE0001" (some
              { expectedBarcode := "TAPE0001"
                safetyToken := { token := "t", operation := "format", targetBarcode := "TAPE0001", expiresAt := 1 } })),
          .ltfs { now := 0, date := .epoch } (.mount "TAPE0001" .readWrite)]) := by
  intro h
  have hnone := ((Simulator.faithful_iff (canonical_after UpperCase.ascii (fun _ => "") 1 1 0 100 _)).1 h).1
  exact absurd hnone (by decide +kernel)

/-- What was reloaded is reloaded as it is: whatever operations led to a snapshot, a snapshot of what is read back is faithful. -/
theorem reloaded_snapshot_faithful (upper : UpperCase) (sha256 : Bytes → String)
    (numSlots numDrives numImportExportSlots capacityBytes : Nat) (operations : List SimulatorOperation) {s' : Simulator}
    (hreload : Simulator.reload upper.apply ((simulator upper.apply sha256 numSlots numDrives numImportExportSlots capacityBytes).after
      (.new numSlots numDrives numImportExportSlots capacityBytes) operations) = .ok s') :
    Simulator.Faithful upper.apply s' := by
  have h := canonical_after upper sha256 numSlots numDrives numImportExportSlots capacityBytes operations
  obtain ⟨lib, hfrom, hreload⟩ := MockLibrary.bind_ok hreload
  obtain ⟨ltfs, hltfs, hreload⟩ := MockLibrary.bind_ok hreload
  rw [MockLibrary.fromJson_toJson h] at hfrom
  obtain ⟨_, hvalid, hpure⟩ := MockLibrary.bind_ok hfrom
  obtain ⟨ltfs', hltfs', -, hmounts, -⟩ := MockLtfs.fromJson_toJson lib (Simulator.ltfs ((simulator upper.apply sha256 numSlots
    numDrives numImportExportSlots capacityBytes).after (.new numSlots numDrives numImportExportSlots capacityBytes) operations))
  obtain rfl := Except.ok.inj (hltfs.symm.trans hltfs')
  obtain rfl := Except.ok.inj hreload
  obtain rfl := Except.ok.inj hpure
  have hcontents := fun lib : MockLibrary => (MockLibrary.contents_setDefaultStates _ (fun drive => drive.2.barcode) .inDrive
    lib.drives).trans (lib.contents_setDefaultStates (fun slot => slot.2) .inSlot (lib.slots ++ lib.ieSlots))
  refine (Simulator.faithful_iff fun e barcode he => h e barcode ?_).2 ⟨hmounts, hvalid, fun e barcode he => ?_⟩
  · exact (congrFun (hcontents _) e).symm.trans he
  · exact MockLibrary.recorded_setDefaultStates _ e barcode ((congrFun (hcontents _) e).symm.trans he)

/-- A library with one cartridge is written and read back. -/
theorem reloaded_snapshot_faithful_one : ∃ s', Simulator.reload UpperCase.ascii.apply
    ((simulator UpperCase.ascii.apply (fun _ => "") 1 1 0 100).after (.new 1 1 0 100)
      [.library (.call {} (.addCartridge 1 "TAPE0001"))]) = .ok s' ∧ Simulator.Faithful UpperCase.ascii.apply s' := by
  have hok : (Simulator.reload UpperCase.ascii.apply ((simulator UpperCase.ascii.apply (fun _ => "") 1 1 0 100).after
    (.new 1 1 0 100) [.library (.call {} (.addCartridge 1 "TAPE0001"))])).toOption.isSome = true := by decide +kernel
  cases h : Simulator.reload UpperCase.ascii.apply ((simulator UpperCase.ascii.apply (fun _ => "") 1 1 0 100).after (.new 1 1 0 100)
    [.library (.call {} (.addCartridge 1 "TAPE0001"))]) with
  | ok s' => exact ⟨s', rfl, reloaded_snapshot_faithful UpperCase.ascii (fun _ => "") 1 1 0 100 _ h⟩
  | error e =>
    rw [h] at hok
    cases hok

end OpenBlade
