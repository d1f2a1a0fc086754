import OpenBlade.Domain.DateTime
import OpenBlade.Effects.Automaton
import OpenBlade.Effects.Stateful
import OpenBlade.Nas.Types
import OpenBlade.Simulator.MockLibrary

/-!
# The simulated tapes

`MockLTFSBackend` of `simulator/ltfs_volume.py`, over the simulated library. It keeps the tapes and the active mounts, by barcode
and by handle id; the mount state of a drive it leaves to the library. Arguments that are barcodes are texts, and are brought to
the form of `Barcode` in some places only.
-/

namespace OpenBlade

open Effects

structure MockFileRecord where
  tapePath : String
  sizeBytes : Int
  checksumSha256 : String
  content : Bytes
  modifiedAt : DateTime
  deriving Repr, DecidableEq

structure MockTapeContents where
  barcode : Barcode
  capacityBytes : Nat
  usedBytes : Int := 0
  files : Dict String MockFileRecord := []
  formatted : Bool := false
  mountState : MountState := .unmounted
  nodupFiles : files.keys.Nodup := by first | exact List.nodup_nil | decide
  deriving Repr, DecidableEq

structure ActiveMount where
  handle : MountHandle
  barcode : Barcode
  driveId : Int
  mode : MountMode
  active : Bool := true
  dirty : Bool := false
  writeInProgress : Bool := false
  deriving Repr, DecidableEq

structure MockLtfs where
  capacityBytes : Nat
  tapes : Dict Barcode MockTapeContents := []
  activeMounts : Dict Nat ActiveMount := []
  nodupTapes : tapes.keys.Nodup := by first | exact List.nodup_nil | decide
  nodupMounts : activeMounts.keys.Nodup := by first | exact List.nodup_nil | decide
  deriving Repr, DecidableEq

/-- The simulated library, the tapes, and the handles that were given out and may be used again. -/
structure Simulator where
  library : MockLibrary
  ltfs : MockLtfs
  handles : List MountHandle := []
  deriving Repr, DecidableEq

/-- The faults of the tapes, by the names of `FaultType`. -/
inductive LtfsFaultType where
  | mountFailure
  | writeFailure
  | noFreeSpace
  deriving Repr, DecidableEq

/-- The faults of the injector that the tapes ask for. -/
inductive InjectedFaultType where
  | tapeNotFound
  | mountTimeout
  | driveUnavailable
  | writeError
  | partialWrite
  | readError
  deriving Repr, DecidableEq

/-- The faults of one call: those the configuration enables, and the messages of those the injector raises. -/
structure LtfsFaults where
  config : List LtfsFaultType := []
  writeFailAfterBytes : Option Int := none
  injected : Dict InjectedFaultType String := []
  deriving Repr, DecidableEq

/-- What `write_file` and `write_bytes` return of a file on tape. -/
structure WrittenInstance where
  fileRecordId : String
  barcode : Barcode
  tapePath : PurePosixPath
  state : FileInstanceState := .archived
  deriving Repr, DecidableEq

namespace MockTapeContents

/-- The tape after a format. -/
def erased (tape : MockTapeContents) : MockTapeContents :=
  { tape with files := [], usedBytes := 0, formatted := true, mountState := .unmounted, nodupFiles := List.nodup_nil }

/-- The tape with a file, and with the counter that goes with it. -/
def store (tape : MockTapeContents) (record : MockFileRecord) (usedBytes : Int) : MockTapeContents :=
  { tape with
    files := tape.files.set record.tapePath record, usedBytes := usedBytes, nodupFiles := Dict.nodup_keys_set tape.nodupFiles }

/-- The tape after a write through a mount. -/
def written (tape : MockTapeContents) (record : MockFileRecord) (usedBytes : Int) : MockTapeContents :=
  { tape.store record usedBytes with mountState := .mountedRw }

def previousSize (tape : MockTapeContents) (path : String) : Int :=
  match tape.files.get? path with
  | some existing => existing.sizeBytes
  | none => 0

/-- `projected_used_bytes`. -/
def projectedUsedBytes (tape : MockTapeContents) (path : String) (storedSize : Int) : Int :=
  tape.usedBytes - tape.previousSize path + storedSize

end MockTapeContents

/-- `get_all_barcodes`, in no order. -/
def MockLibrary.getAllBarcodes (lib : MockLibrary) : List Barcode := lib.cartridgeStates.keys

/-- `find_drive_by_barcode`. -/
def MockLibrary.findDriveByBarcode (upper : String → String) (lib : MockLibrary) (barcode : String) :
    Except Exn (Option Int) := do
  let normalized ← normalizeBarcode upper barcode
  pure ((lib.drives.find? fun drive => drive.2.barcode = some normalized).map Prod.fst)

namespace MockLtfs

/-- A new backend over a library: a blank tape for every cartridge it knows. -/
def new (lib : MockLibrary) (capacityBytes : Nat) : MockLtfs where
  capacityBytes := capacityBytes
  tapes := Dict.ofPairs (lib.getAllBarcodes.map fun barcode => (barcode, { barcode, capacityBytes }))
  nodupTapes := Dict.nodup_keys_ofPairs _

def setTape (ltfs : MockLtfs) (barcode : Barcode) (tape : MockTapeContents) : MockLtfs :=
  { ltfs with tapes := ltfs.tapes.set barcode tape, nodupTapes := Dict.nodup_keys_set ltfs.nodupTapes }

def setMount (ltfs : MockLtfs) (handleId : Nat) (mount : ActiveMount) : MockLtfs :=
  { ltfs with activeMounts := ltfs.activeMounts.set handleId mount, nodupMounts := Dict.nodup_keys_set ltfs.nodupMounts }

/-- The mounts that `p` holds of. -/
def keepMounts (ltfs : MockLtfs) (p : Nat × ActiveMount → Bool) : MockLtfs :=
  { ltfs with
    activeMounts := ltfs.activeMounts.filter p
    nodupMounts := List.Nodup.sublist (List.filter_sublist.map Prod.fst) ltfs.nodupMounts }

/-- The active mounts whose barcode is a text. -/
def mountsOf (ltfs : MockLtfs) (barcode : String) : List ActiveMount :=
  (ltfs.activeMounts.map Prod.snd).filter fun mount => mount.barcode = barcode

end MockLtfs

/-- The tape that `ensure_tape` gives of a barcode: the one that is there, or a blank one for a cartridge of the library. -/
def Simulator.tapeFor (s : Simulator) (barcode : Barcode) : Option MockTapeContents :=
  match s.ltfs.tapes.get? barcode with
  | some tape => some tape
  | none => if barcode ∈ s.library.getAllBarcodes then some { barcode, capacityBytes := s.ltfs.capacityBytes } else none

/-- What a function of the backend does to the simulator. -/
abbrev Simulation (α : Type) : Type := Stateful Exn Simulator α

namespace Simulation

open Stateful

/-- A call of the library. -/
def library {α : Type} (call : MockLibrary → Except Exn α × MockLibrary) : Simulation α :=
  within Simulator.library (fun s lib => { s with library := lib }) call

def changeLtfs (f : MockLtfs → MockLtfs) : Simulation Unit := change fun s => { s with ltfs := f s.ltfs }

variable (upper : String → String) (sha256 : Bytes → String)

/-- `_maybe_raise_injected_fault`. -/
def maybeRaiseInjectedFault (faults : LtfsFaults) (faultType : InjectedFaultType) : Simulation Unit :=
  match faults.injected.get? faultType with
  | none => pure ()
  | some message => raise { cls := .other "SimulatorFaultError", message := message }

/-- `ensure_tape`: a tape for a cartridge of the library is made when it is first asked for. -/
def ensureTape (faults : LtfsFaults) (barcode : String) : Simulation MockTapeContents := do
  let normalized ← ofExcept (normalizeBarcode upper barcode)
  maybeRaiseInjectedFault faults .tapeNotFound
  match ← read fun s => s.ltfs.tapes.get? normalized with
  | some tape => pure tape
  | none => do
    let known ← read fun s => s.library.getAllBarcodes
    if normalized ∈ known then do
      let capacityBytes ← read fun s => s.ltfs.capacityBytes
      let tape : MockTapeContents := { barcode := normalized, capacityBytes := capacityBytes }
      changeLtfs fun ltfs => ltfs.setTape normalized tape
      pure tape
    else raise { cls := .cartridgeNotFound, message := "Unknown cartridge " ++ barcode }

/-- `format`. -/
def format (now : Int) (faults : LtfsFaults) (barcode : String) (confirmation : Option FormatConfirmation) :
    Simulation OperationResult :=
  match confirmation with
  | none => raise { cls := .formatRequiresConfirmation, message := "Formatting requires an explicit FormatConfirmation" }
  | some confirmation => do
    ofExcept (confirmation.validate now barcode)
    let tape ← ensureTape upper faults barcode
    changeLtfs fun ltfs => (ltfs.setTape tape.barcode tape.erased).keepMounts fun entry => entry.2.barcode ≠ tape.barcode
    let found ← read fun s => s.library.findDriveByBarcode upper barcode
    match ← ofExcept found with
    | some driveId => library fun lib => lib.setDriveMountState driveId .unmounted
    | none => pure ()
    pure { success := true, message := "formatted" }

def targetState : MountMode → MountState
  | .readOnly => .mountedRo
  | .readWrite => .mountedRw

def alreadyMounted (barcode : String) : Exn :=
  { cls := .typed "SimulatedMountFailure", message := "Tape " ++ barcode ++ " is already mounted" }

/-- A handle for a new mount, and the record of the mount. -/
def register (normalized barcode : Barcode) (driveId : Int) (mode : MountMode) : Simulation MountHandle := do
  let handleId ← read fun s => s.handles.length
  let handle : MountHandle := { handleId, barcode := normalized, driveId, mode }
  change fun s =>
    { s with ltfs := s.ltfs.setMount handleId { handle, barcode, driveId, mode }, handles := s.handles ++ [handle] }
  pure handle

/-- `mount`. The mounts of the tape are looked up by the barcode as it was given. -/
def mount (faults : LtfsFaults) (barcode : String) (mode : MountMode) : Simulation MountHandle := do
  let normalized ← ofExcept (normalizeBarcode upper barcode)
  maybeRaiseInjectedFault faults .mountTimeout
  maybeRaiseInjectedFault faults .driveUnavailable
  if .mountFailure ∈ faults.config then
    raise { cls := .typed "SimulatedMountFailure", message := "Injected mount failure" }
  else do
    let found ← read fun s => s.library.findDriveByBarcode upper barcode
    match ← ofExcept found with
    | none => raise { cls := .cartridgeNotFound, message := "Cartridge " ++ barcode ++ " is not loaded in a drive" }
    | some driveId => do
      let tape ← ensureTape upper faults barcode
      if tape.formatted then do
        let activeForTape ← read fun s => s.ltfs.mountsOf barcode
        if activeForTape ≠ [] ∧ (mode = .readWrite ∨ activeForTape.any fun mount => mount.mode = .readWrite) then
          raise (alreadyMounted barcode)
        else do
          if activeForTape = [] then do
            library fun lib => lib.setDriveMountState driveId (targetState mode)
            changeLtfs fun ltfs => ltfs.setTape tape.barcode { tape with mountState := targetState mode }
          else pure ()
          register normalized tape.barcode driveId mode
      else
        raise { cls := .formatRequiresConfirmation, message := "Tape " ++ barcode ++ " must be formatted first" }

def notActive (handle : MountHandle) : Exn :=
  { cls := .cartridgeNotFound, message := "Mount handle " ++ toString handle.handleId ++ " is not active" }

/-- `_require_active_mount`. -/
def requireActiveMount (handle : MountHandle) : Simulation ActiveMount := do
  match ← read fun s => s.ltfs.activeMounts.get? handle.handleId with
  | some mount => if mount.active then pure mount else raise (notActive handle)
  | none => raise (notActive handle)

/-- The mount state an unmount leaves. -/
def stateAfterUnmount (ended : ActiveMount) (remaining : List ActiveMount) : MountState :=
  if ended.writeInProgress ∨ ended.dirty then .dirty
  else if remaining.any fun mount => mount.mode = .readWrite then .mountedRw
  else if remaining ≠ [] then .mountedRo
  else .unmounted

/-- `unmount`. The mount is over before anything can fail. -/
def unmount (faults : LtfsFaults) (handle : MountHandle) : Simulation OperationResult := do
  let ended ← requireActiveMount handle
  changeLtfs fun ltfs => ltfs.keepMounts fun entry => entry.1 ≠ handle.handleId
  let tape ← ensureTape upper faults handle.barcode
  let remaining ← read fun s => s.ltfs.mountsOf tape.barcode
  let state := stateAfterUnmount ended remaining
  changeLtfs fun ltfs => ltfs.setTape tape.barcode { tape with mountState := state }
  library fun lib => lib.setDriveMountState handle.driveId state
  pure { success := true, message := "unmounted" }

def outOfSpace (tape : MockTapeContents) : Exn :=
  { cls := .tapeFull, message := "Tape " ++ tape.barcode ++ " is out of space" }

/-- The write failure that is injected, if one is: its exception, and if it leaves the mount dirty. -/
def injectedWriteFailure (faults : LtfsFaults) (tape : MockTapeContents) (content : Bytes) : Option (Exn × Bool) :=
  if .noFreeSpace ∈ faults.config then some (outOfSpace tape, false)
  else if .writeFailure ∈ faults.config then
    some ({ cls := .typed "SimulatedWriteFailure", message := "Injected write failure" }, true)
  else
    match faults.writeFailAfterBytes with
    | none => none
    | some failurePoint =>
      if failurePoint < (content.length : Int) then
        some ({ cls := .typed "SimulatedWriteFailure"
                message := "Injected partial write failure after " ++ toString failurePoint ++ " bytes" }, true)
      else none

/-- `checksum_sha256 or hashlib.sha256(content).hexdigest()`. -/
def checksumOr (content : Bytes) : Option String → String
  | some given => if given = "" then sha256 content else given
  | none => sha256 content

/-- `_write_mounted_bytes`. The library is told of the write when the file is already on the tape. -/
def writeMountedBytes (now : DateTime) (faults : LtfsFaults) (handle : MountHandle) (dest : String) (content : Bytes)
    (sizeBytes : Option Int) (checksumSha256 : Option String) : Simulation WrittenInstance := do
  maybeRaiseInjectedFault faults .writeError
  maybeRaiseInjectedFault faults .partialWrite
  let activeMount ← requireActiveMount handle
  if handle.mode ≠ .readWrite then
    raise { cls := .permissionError, message := "Cannot write to a read-only mount" }
  else do
    let tape ← ensureTape upper faults handle.barcode
    let storedSize : Int := sizeBytes.getD content.length
    changeLtfs fun ltfs => ltfs.setMount handle.handleId { activeMount with writeInProgress := true }
    match injectedWriteFailure faults tape content with
    | some (exn, dirty) => do
      changeLtfs fun ltfs =>
        ltfs.setMount handle.handleId { activeMount with writeInProgress := false, dirty := activeMount.dirty || dirty }
      raise exn
    | none =>
      if (tape.capacityBytes : Int) < tape.projectedUsedBytes dest storedSize then do
        changeLtfs fun ltfs => ltfs.setMount handle.handleId { activeMount with writeInProgress := false }
        raise (outOfSpace tape)
      else do
        let checksum := checksumOr sha256 content checksumSha256
        let record : MockFileRecord :=
          { tapePath := dest, sizeBytes := storedSize, checksumSha256 := checksum, content, modifiedAt := now }
        changeLtfs fun ltfs =>
          (ltfs.setTape tape.barcode (tape.written record (tape.projectedUsedBytes dest storedSize))).setMount
            handle.handleId { activeMount with writeInProgress := false }
        library fun lib => lib.setDriveMountState handle.driveId .mountedRw
        pure { fileRecordId := checksum, barcode := handle.barcode, tapePath := PurePosixPath.ofString dest }

/-- `write_file`, of the source's bytes, or what reading them raises. -/
def writeFile (now : DateTime) (faults : LtfsFaults) (handle : MountHandle) (source : Except Exn Bytes) (dest : String) :
    Simulation WrittenInstance := do
  let content ← ofExcept source
  writeMountedBytes upper sha256 now faults handle dest content none none

/-- `_write_metadata_bytes`: a write beside any mount. -/
def writeMetadataBytes (now : DateTime) (faults : LtfsFaults) (barcode dest : String) (content : Bytes) : Simulation Unit := do
  let _ ← ofExcept (normalizeBarcode upper barcode)
  maybeRaiseInjectedFault faults .writeError
  maybeRaiseInjectedFault faults .partialWrite
  let tape ← ensureTape upper faults barcode
  let storedSize : Int := content.length
  if (tape.capacityBytes : Int) < tape.projectedUsedBytes dest storedSize then raise (outOfSpace tape)
  else do
    let record : MockFileRecord :=
      { tapePath := dest, sizeBytes := storedSize, checksumSha256 := sha256 content, content, modifiedAt := now }
    changeLtfs fun ltfs => ltfs.setTape tape.barcode (tape.store record (tape.projectedUsedBytes dest storedSize))

/-- `read_bytes` with a barcode. -/
def readBytes (faults : LtfsFaults) (barcode path : String) : Simulation (Option Bytes) := do
  let _ ← ofExcept (normalizeBarcode upper barcode)
  maybeRaiseInjectedFault faults .readError
  let tape ← ensureTape upper faults barcode
  pure ((tape.files.get? path).map MockFileRecord.content)

/-- `remaining_capacity`. -/
def remainingCapacity (faults : LtfsFaults) (barcode : String) : Simulation Int := do
  let tape ← ensureTape upper faults barcode
  pure (max 0 (tape.capacityBytes - tape.usedBytes))

/-! ### What the functions do -/

/-- The simulator after a tape was asked for: it was there, or a blank one was made for a cartridge of the library. -/
def Ensured (s : Simulator) (barcode : Barcode) (s' : Simulator) : Prop :=
  s' = s ∨
    s.ltfs.tapes.get? barcode = none ∧ barcode ∈ s.library.getAllBarcodes ∧
      s' = { s with ltfs := s.ltfs.setTape barcode { barcode, capacityBytes := s.ltfs.capacityBytes } }

/-- What stays when a tape is asked for. -/
theorem ensured_frame {s s' : Simulator} {barcode : Barcode} (h : Ensured s barcode s') :
    s'.library = s.library ∧ s'.ltfs.activeMounts = s.ltfs.activeMounts ∧ s'.handles = s.handles := by
  rcases h with rfl | ⟨-, -, rfl⟩ <;> exact ⟨rfl, rfl, rfl⟩

@[simp] theorem wp_changeLtfs {f : MockLtfs → MockLtfs} {N : Unit → Simulator → Prop} {E : Exn → Simulator → Prop}
    {s : Simulator} : wp (changeLtfs f) N E s ↔ N () { s with ltfs := f s.ltfs } := Iff.rfl

theorem wp_maybeRaiseInjectedFault {faults : LtfsFaults} {faultType : InjectedFaultType} {N : Unit → Simulator → Prop}
    {E : Exn → Simulator → Prop} {s : Simulator} (hN : faults.injected.get? faultType = none → N () s)
    (hE : ∀ e message, faults.injected.get? faultType = some message → E e s) :
    wp (maybeRaiseInjectedFault faults faultType) N E s := by
  unfold maybeRaiseInjectedFault
  cases h : faults.injected.get? faultType with
  | none => exact hN h
  | some message => exact hE _ message h

/-- `ensure_tape` gives a tape: the text is a barcode, no fault is injected, and the tape is there or can be made. -/
structure Provides (s : Simulator) (faults : LtfsFaults) (text : String) (barcode : Barcode) (tape : MockTapeContents) :
    Prop where
  normalized : normalizeBarcode upper text = .ok barcode
  noFault : faults.injected.get? .tapeNotFound = none
  given : s.tapeFor barcode = some tape

/-- `ensure_tape` gives the tape that the backend then has, or changes nothing and raises. -/
theorem wp_ensureTape_iff {faults : LtfsFaults} {text : String} {N : MockTapeContents → Simulator → Prop}
    {E : Exn → Simulator → Prop} {s : Simulator}
    (hN : ∀ barcode tape s', Provides upper s faults text barcode tape → s'.ltfs.tapes.get? barcode = some tape →
      Ensured s barcode s' → N tape s')
    (hE : ∀ e, (¬∃ barcode tape, Provides upper s faults text barcode tape) → E e s) :
    wp (ensureTape upper faults text) N E s := by
  unfold ensureTape
  rw [wp_bind, wp_ofExcept]
  refine ⟨fun barcode hnorm => ?_, fun e herr => hE e ?_⟩
  · rw [wp_bind]
    refine wp_maybeRaiseInjectedFault (fun hnone => ?_) fun e message hsome => hE e ?_
    · rw [wp_bind, wp_read]
      cases hget : s.ltfs.tapes.get? barcode with
      | some tape => exact hN barcode tape s ⟨hnorm, hnone, by simp [Simulator.tapeFor, hget]⟩ hget (.inl rfl)
      | none =>
        rw [wp_bind, wp_read]
        by_cases hknown : barcode ∈ s.library.getAllBarcodes
        · rw [if_pos hknown, wp_bind, wp_read, wp_bind]
          refine hN barcode _ _ ⟨hnorm, hnone, by simp [Simulator.tapeFor, hget, hknown]⟩ ?_ (.inr ⟨hget, hknown, rfl⟩)
          exact (Dict.get?_set _ _ _ _).trans (if_pos rfl)
        · rw [if_neg hknown]
          refine hE _ ?_
          rintro ⟨barcode', tape, hp⟩
          obtain rfl : barcode = barcode' := Except.ok.inj (hnorm.symm.trans hp.normalized)
          simpa [Simulator.tapeFor, hget, hknown] using hp.given
    · rintro ⟨barcode', tape, hp⟩
      rw [hp.noFault] at hsome
      cases hsome
  · rintro ⟨barcode, tape, hp⟩
    rw [hp.normalized] at herr
    cases herr

theorem wp_ensureTape {faults : LtfsFaults} {text : String} {N : MockTapeContents → Simulator → Prop}
    {E : Exn → Simulator → Prop} {s : Simulator}
    (hN : ∀ barcode tape s', normalizeBarcode upper text = .ok barcode → s'.ltfs.tapes.get? barcode = some tape →
      Ensured s barcode s' → N tape s')
    (hE : ∀ e, E e s) : wp (ensureTape upper faults text) N E s :=
  wp_ensureTape_iff upper (fun barcode tape s' hp => hN barcode tape s' hp.normalized) fun e _ => hE e

/-- `find_drive_by_barcode` finds a drive that holds the cartridge. -/
theorem findDriveByBarcode_ok {lib : MockLibrary} {text : String} {barcode : Barcode} {found : Option Int}
    (hnorm : normalizeBarcode upper text = .ok barcode) (h : lib.findDriveByBarcode upper text = .ok found) :
    ∀ d, found = some d → ∃ drive, lib.drives.get? d = some drive ∧ drive.barcode = some barcode := by
  rintro d rfl
  unfold MockLibrary.findDriveByBarcode at h
  rw [hnorm] at h
  obtain ⟨entry, hfind, rfl⟩ := Option.map_eq_some_iff.1 (Except.ok.inj h)
  refine ⟨entry.2, Dict.get?_of_mem lib.nodupDrives (List.mem_of_find?_eq_some hfind), ?_⟩
  simpa using List.find?_some hfind

end Simulation

/-- A call of the backend; a mount is named by the place of its handle among those given out. -/
inductive LtfsCall where
  | format (barcode : String) (confirmation : Option FormatConfirmation)
  | mount (barcode : String) (mode : MountMode)
  | unmount (handle : Nat)
  | writeFile (handle : Nat) (source : Except Exn Bytes) (dest : String)
  | writeBytes (handle : Nat) (dest : String) (content : Bytes) (sizeBytes : Option Int) (checksumSha256 : Option String)
  | writeMetadata (barcode dest : String) (content : Bytes)
  | readBytes (barcode path : String)
  | remainingCapacity (barcode : String)

/-- What surrounds a call: the clock, as a number of seconds and as a date, and the faults. -/
structure Circumstances where
  now : Int
  date : DateTime
  faults : LtfsFaults := {}
  deriving Repr, DecidableEq

/-- An operation on the simulator. -/
inductive SimulatorOperation where
  | library (op : LibraryOperation)
  | ltfs (circumstances : Circumstances) (call : LtfsCall)

/-- What an operation on the simulator returns or raises. -/
inductive SimulatorAnswer where
  | library (answer : MockLibraryAnswer)
  | mounted (handle : MountHandle)
  | written (inst : WrittenInstance)
  | answered (result : OperationResult)
  | done
  | bytes (content : Option Bytes)
  | capacity (bytes : Int)
  | raised (exn : Exn)
  | noHandle
  deriving Repr, DecidableEq

namespace Simulator

variable (upper : String → String) (sha256 : Bytes → String)

/-- The answer of a function that may raise. -/
def answer {α : Type} (f : α → SimulatorAnswer) : Except Exn α × Simulator → SimulatorAnswer × Simulator
  | (.ok a, s) => (f a, s)
  | (.error e, s) => (.raised e, s)

/-- What is done with a handle, if it was given out. -/
def withHandle (s : Simulator) (handle : Nat) (f : MountHandle → SimulatorAnswer × Simulator) : SimulatorAnswer × Simulator :=
  match s.handles[handle]? with
  | none => (.noHandle, s)
  | some handle => f handle

/-- What is left of a function's run, whatever is answered. -/
theorem answer_state {α : Type} (f : α → SimulatorAnswer) {P : Simulator → Prop} {m : Simulation α} {s : Simulator}
    (h : Stateful.wp m (fun _ => P) (fun _ => P) s) : P (answer f (m s)).2 := by
  unfold answer
  unfold Stateful.wp at h
  revert h
  rcases m s with ⟨_ | a, s'⟩ <;> exact id

theorem withHandle_state {P : Simulator → Prop} {s : Simulator} {handle : Nat} {f : MountHandle → SimulatorAnswer × Simulator}
    (hs : P s) (h : ∀ handle ∈ s.handles, P (f handle).2) : P (s.withHandle handle f).2 := by
  unfold withHandle
  cases hget : s.handles[handle]? with
  | none => exact hs
  | some given => exact h given (List.mem_of_getElem? hget)

/-- One call of the backend. -/
def call (s : Simulator) (circumstances : Circumstances) : LtfsCall → SimulatorAnswer × Simulator
  | .format barcode confirmation =>
    answer .answered (Simulation.format upper circumstances.now circumstances.faults barcode confirmation s)
  | .mount barcode mode => answer .mounted (Simulation.mount upper circumstances.faults barcode mode s)
  | .unmount handle =>
    s.withHandle handle fun handle => answer .answered (Simulation.unmount upper circumstances.faults handle s)
  | .writeFile handle source dest =>
    s.withHandle handle fun handle =>
      answer .written (Simulation.writeFile upper sha256 circumstances.date circumstances.faults handle source dest s)
  | .writeBytes handle dest content sizeBytes checksumSha256 =>
    s.withHandle handle fun handle =>
      answer .written (Simulation.writeMountedBytes upper sha256 circumstances.date circumstances.faults handle dest content
        sizeBytes checksumSha256 s)
  | .writeMetadata barcode dest content =>
    answer (fun _ => .done)
      (Simulation.writeMetadataBytes upper sha256 circumstances.date circumstances.faults barcode dest content s)
  | .readBytes barcode path => answer .bytes (Simulation.readBytes upper circumstances.faults barcode path s)
  | .remainingCapacity barcode => answer .capacity (Simulation.remainingCapacity upper circumstances.faults barcode s)

/-- One operation. -/
def operate (s : Simulator) : SimulatorOperation → SimulatorAnswer × Simulator
  | .library op => (.library (s.library.operate upper op).1, { s with library := (s.library.operate upper op).2 })
  | .ltfs circumstances call => s.call upper sha256 circumstances call

/-- A simulator over a new library. -/
def new (numSlots numDrives numImportExportSlots capacityBytes : Nat) : Simulator where
  library := .new numSlots numDrives numImportExportSlots
  ltfs := .new (.new numSlots numDrives numImportExportSlots) capacityBytes

end Simulator

/-- The simulator as a system that answers operations. -/
def simulator (upper : String → String) (sha256 : Bytes → String)
    (numSlots numDrives numImportExportSlots capacityBytes : Nat) : Automaton SimulatorOperation SimulatorAnswer where
  State := Simulator
  init := .new numSlots numDrives numImportExportSlots capacityBytes
  step s op := s.operate upper sha256 op

end OpenBlade
