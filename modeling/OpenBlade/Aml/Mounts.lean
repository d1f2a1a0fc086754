import Mathlib
import OpenBlade.Domain.Models
import OpenBlade.Domain.Text
import OpenBlade.Effects.Automaton
import OpenBlade.Effects.Dict

/-!
# Media, drives and mounts of the emulator

The rows of `api/aml_state.py` for media, drives and mounts, and what writes them: the `/mount` and `/unmount` requests of
`api/routes_aml_operations.py`, which go by the mount records, and the marks of an archive job (`jobs/archive.py`), which overwrite
the rows of a drive and of a cartridge without reading the mount records. Jobs, tasks and the counts of a partition are left out.
-/

namespace OpenBlade

open Effects

structure LoadedMedia where
  barcode : Barcode
  type : String
  state : String
  deriving Repr, DecidableEq

structure AmlMedia where
  type : String := "LTO-9"
  partition : Option String := none
  slotAddress : String
  state : String := "home"
  lastLoaded : Option String := none
  loadCount : Int := 0
  deriving Repr, DecidableEq

structure AmlDrive where
  loadedMedia : Option LoadedMedia := none
  state : String := "idle"
  deriving Repr, DecidableEq

structure AmlMount where
  id : String
  barcode : Barcode
  drive : String
  partition : Option String
  mountTime : String
  state : String
  previousSlot : String
  deriving Repr, DecidableEq

structure AmlState where
  media : Dict Barcode AmlMedia := []
  drives : Dict String AmlDrive := []
  mounts : Dict String AmlMount := []
  partitions : List String := []
  deriving Repr, DecidableEq

namespace AmlState

/-! ### Rows -/

/-- `update_aml_media`: an unknown barcode is no error. -/
def updateAmlMedia (st : AmlState) (barcode : Barcode) (update : AmlMedia → AmlMedia) : AmlState :=
  match st.media.get? barcode with
  | none => st
  | some media => { st with media := st.media.set barcode (update media) }

/-- `update_aml_drive`: an unknown name is no error. -/
def updateAmlDrive (st : AmlState) (name : String) (update : AmlDrive → AmlDrive) : AmlState :=
  match st.drives.get? name with
  | none => st
  | some drive => { st with drives := st.drives.set name (update drive) }

/-- `set_aml_mount`. -/
def setAmlMount (st : AmlState) (mount : AmlMount) : AmlState := { st with mounts := st.mounts.set mount.id mount }

/-- `pop_aml_mount`. -/
def popAmlMount (st : AmlState) (id : String) : AmlState := { st with mounts := st.mounts.erase id }

/-- `list_aml_mounts`. -/
def listAmlMounts (st : AmlState) : List AmlMount :=
  (st.mounts.insertionSort fun a b => a.1 ≤ b.1).map Prod.snd

/-- `_find_mount`: the first mount of the barcode, and of the drive if one is given. -/
def findMount (st : AmlState) (barcode : Barcode) (drive : Option String) : Option AmlMount :=
  st.listAmlMounts.find? fun mount => mount.barcode = barcode ∧ ∀ name ∈ drive, mount.drive = name

/-! ### Requests -/

/-- `_validate_identifier`. -/
def validateIdentifier (value fieldName : String) : Except RequestFailure String :=
  if strip value = "" then .error (.http 400 (fieldName ++ " is required")) else .ok (strip value)

def requireAdmin (role : Int) : Except RequestFailure Unit :=
  if role ≠ 0 then .error (.http 403 "Administrator access required") else .ok ()

/-- `_get_media_or_404`. -/
def getMediaOr404 (st : AmlState) (barcode : Barcode) : Except RequestFailure AmlMedia :=
  match st.media.get? barcode with
  | none => .error (.http 404 "Media not found")
  | some media => .ok media

/-- `_get_drive_or_404`. -/
def getDriveOr404 (st : AmlState) (name : String) : Except RequestFailure AmlDrive :=
  match st.drives.get? name with
  | none => .error (.http 404 "Drive not found")
  | some drive => .ok drive

/-- A `/mount` request, by a user of the given role. -/
structure MountRequest where
  role : Int := 0
  barcode : String
  drive : String
  partition : Option String := none
  deriving Repr, DecidableEq

/-- What a `/mount` request finds: the barcode, the drive and the partition it names, and the row of the cartridge. -/
structure MountTarget where
  barcode : Barcode
  drive : String
  partition : Option String
  media : AmlMedia
  deriving Repr, DecidableEq

/-- The checks of `create_mount`. -/
def checkMount (st : AmlState) (request : MountRequest) : Except RequestFailure MountTarget := do
  requireAdmin request.role
  let barcode ← validateIdentifier request.barcode "barcode"
  let driveName ← validateIdentifier request.drive "drive"
  let partition ← request.partition.mapM fun name => validateIdentifier name "partition"
  let media ← st.getMediaOr404 barcode
  let drive ← st.getDriveOr404 driveName
  if ∀ name ∈ partition, name ∈ st.partitions then
    if drive.loadedMedia.isSome then .error (.http 409 "Drive already has mounted media")
    else if (st.findMount barcode none).isSome then .error (.http 409 "Media is already mounted")
    else pure { barcode := barcode, drive := driveName, partition := partition.or media.partition, media := media }
  else .error (.http 404 "Partition not found")

/-- `create_mount`, with the id and the time of its job: the drive, the cartridge, the record. -/
def createMount (st : AmlState) (request : MountRequest) (jobId now : String) : Except RequestFailure Unit × AmlState :=
  match st.checkMount request with
  | .error e => (.error e, st)
  | .ok target =>
    let loaded : LoadedMedia := { barcode := target.barcode, type := target.media.type, state := "loaded" }
    let mount : AmlMount :=
      { id := jobId, barcode := target.barcode, drive := target.drive, partition := target.partition, mountTime := now
        state := "mounted", previousSlot := target.media.slotAddress }
    (.ok (),
      ((st.updateAmlDrive target.drive fun drive => { drive with loadedMedia := some loaded, state := "mounted" }).updateAmlMedia
        target.barcode fun media =>
          { media with
            partition := target.partition.or media.partition, slotAddress := target.drive, state := "loaded"
            lastLoaded := some now, loadCount := target.media.loadCount + 1 }).setAmlMount mount)

/-- An `/unmount` request, by a user of the given role. -/
structure UnmountRequest where
  role : Int := 0
  barcode : String
  drive : String
  deriving Repr, DecidableEq

/-- The checks of `create_unmount`: the mount of the cartridge in the drive. -/
def checkUnmount (st : AmlState) (request : UnmountRequest) : Except RequestFailure (Barcode × String × AmlMount) := do
  requireAdmin request.role
  let barcode ← validateIdentifier request.barcode "barcode"
  let driveName ← validateIdentifier request.drive "drive"
  let _ ← st.getMediaOr404 barcode
  let _ ← st.getDriveOr404 driveName
  match st.findMount barcode (some driveName) with
  | none => .error (.http 404 "Mount not found")
  | some mount => pure (barcode, driveName, mount)

/-- `create_unmount`: the record, the drive, the cartridge. -/
def createUnmount (st : AmlState) (request : UnmountRequest) : Except RequestFailure Unit × AmlState :=
  match st.checkUnmount request with
  | .error e => (.error e, st)
  | .ok (barcode, driveName, mount) =>
    let previousSlot := if mount.previousSlot = "" then "1,1,1" else mount.previousSlot
    (.ok (),
      ((st.popAmlMount mount.id).updateAmlDrive driveName fun drive =>
        { drive with loadedMedia := none, state := "idle" }).updateAmlMedia barcode fun media =>
          { media with slotAddress := previousSlot, state := "home" })

/-! ### Marks of a job -/

/-- `f"{i:03d}"`. -/
def threeDigits (i : Int) : String :=
  let digits := toString i.natAbs
  let width := if i < 0 then 2 else 3
  (if i < 0 then "-" else "") ++ String.ofList (List.replicate (width - digits.length) '0') ++ digits

/-- `_aml_drive_name`. -/
def amlDriveName (driveId : Int) : String := "DRV-" ++ threeDigits (driveId + 1)

/-- `_aml_slot_address`. -/
def amlSlotAddress (slotId : Int) : String := "1,1," ++ toString slotId

/-- `_mark_aml_drive_busy`. -/
def markAmlDriveBusy (st : AmlState) (barcode : Barcode) (driveId : Int) (now : String) : AmlState :=
  let type := ((st.media.get? barcode).map AmlMedia.type).getD "LTO-9"
  let loaded : LoadedMedia := { barcode := barcode, type := type, state := "loaded" }
  (st.updateAmlDrive (amlDriveName driveId) fun drive => { drive with state := "busy", loadedMedia := some loaded }).updateAmlMedia
    barcode fun media =>
      { media with
        slotAddress := amlDriveName driveId, state := "loaded", lastLoaded := some now, loadCount := media.loadCount + 1 }

/-- `_mark_aml_drive_idle`. -/
def markAmlDriveIdle (st : AmlState) (barcode : Barcode) (driveId : Int) (slotId : Option Int) : AmlState :=
  let emptied := st.updateAmlDrive (amlDriveName driveId) fun drive => { drive with state := "idle", loadedMedia := none }
  match slotId with
  | none => emptied
  | some slotId =>
    emptied.updateAmlMedia barcode fun media => { media with slotAddress := amlSlotAddress slotId, state := "home" }

end AmlState

/-- A request, or a mark of a job. -/
inductive AmlCall where
  | mount (request : AmlState.MountRequest) (jobId now : String)
  | unmount (request : AmlState.UnmountRequest)
  | markBusy (barcode : Barcode) (driveId : Int) (now : String)
  | markIdle (barcode : Barcode) (driveId : Int) (slotId : Option Int)
  deriving Repr, DecidableEq

def AmlState.call (st : AmlState) : AmlCall → Except RequestFailure Unit × AmlState
  | .mount request jobId now => st.createMount request jobId now
  | .unmount request => st.createUnmount request
  | .markBusy barcode driveId now => (.ok (), st.markAmlDriveBusy barcode driveId now)
  | .markIdle barcode driveId slotId => (.ok (), st.markAmlDriveIdle barcode driveId slotId)

/-- The emulator as a system that answers requests and marks. -/
abbrev amlEmulator (start : AmlState) : Automaton AmlCall (Except RequestFailure Unit) where
  State := AmlState
  init := start
  step := AmlState.call

end OpenBlade
