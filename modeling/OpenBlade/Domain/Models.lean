import OpenBlade.Domain.Errors
import OpenBlade.Domain.Posix
import OpenBlade.Effects.Dict

/-!
# Domain models

Values that backends, catalog and jobs exchange (`domain/models.py`), and the capacity policy (`domain/capacity.py`).
-/

namespace OpenBlade

abbrev Bytes := List UInt8
abbrev Barcode := String
abbrev JobId := String

/-- `Barcode(value).value`: exactly 8 alphanumeric characters, in upper case; `upper` is `str.upper`. -/
def normalizeBarcode (upper : String → String) (value : String) : Except Exn Barcode :=
  let normalized := upper value
  if normalized.length = 8 ∧ (normalized.toList.all fun c => ('A' ≤ c ∧ c ≤ 'Z') ∨ ('0' ≤ c ∧ c ≤ '9')) then .ok normalized
  else .error { cls := .valueError, message := "Barcode must be exactly 8 alphanumeric characters" }

/-- `Barcode(barcode) if barcode else None`. -/
def barcodeUnlessEmpty (upper : String → String) : Option String → Except Exn (Option Barcode)
  | none => .ok none
  | some text => if text = "" then .ok none else (normalizeBarcode upper text).map some

/-- A backend's answer to a physical operation; `success = False` is a failure that was not raised. -/
structure OperationResult where
  success : Bool
  message : String
  deriving Repr, DecidableEq

/-- An element of the library. -/
inductive Element where
  | slot (id : Int)
  | ieSlot (id : Int)
  | drive (id : Int)
  deriving Repr, DecidableEq

inductive MountMode where
  | readOnly
  | readWrite
  deriving Repr, DecidableEq

inductive MountState where
  | unmounted
  | mountedRo
  | mountedRw
  | dirty
  deriving Repr, DecidableEq

def MountState.value : MountState → String
  | unmounted => "unmounted"
  | mountedRo => "mounted_ro"
  | mountedRw => "mounted_rw"
  | dirty => "dirty"

/-- An LTFS mount; handle ids are numbered in the order of mounting. -/
structure MountHandle where
  handleId : Nat
  barcode : Barcode
  driveId : Int
  mode : MountMode
  deriving Repr, DecidableEq

structure LTFSFileStat where
  sizeBytes : Nat
  checksumSha256 : String
  deriving Repr, DecidableEq

/-- What a backend believes of a tape's room. -/
structure TapeContents where
  capacityBytes : Int
  usedBytes : Int
  formatted : Bool := true
  deriving Repr, DecidableEq

structure LibraryInventory where
  slots : List (Nat × Option Barcode)
  drives : List (Int × Option Barcode)
  deriving Repr, DecidableEq

/-- What the library reports of a drive. -/
structure DriveStatus where
  driveId : Int
  barcode : Option Barcode
  mountState : MountState
  deriving Repr, DecidableEq

inductive FileInstanceState where
  | pending
  | staging
  | verifying
  | archived
  | verified
  | failed
  | quarantined
  deriving Repr, DecidableEq

namespace FileInstanceState

def value : FileInstanceState → String
  | pending => "pending"
  | staging => "staging"
  | verifying => "verifying"
  | archived => "archived"
  | verified => "verified"
  | failed => "failed"
  | quarantined => "quarantined"

/-- `_STAGED_INSTANCE_STATES`. -/
def isStaged : FileInstanceState → Bool
  | staging | verifying => true
  | _ => false

/-- `_ARCHIVED_INSTANCE_STATES`. -/
def isArchived : FileInstanceState → Bool
  | archived | verified => true
  | _ => false

end FileInstanceState

inductive ShardMode where
  | none
  | stripe
  | blockStripe
  deriving Repr, DecidableEq

def ShardMode.value : ShardMode → String
  | none => "none"
  | stripe => "stripe"
  | blockStripe => "block_stripe"

/-- A source file as it is while a job reads it. -/
structure SourceFile where
  path : String
  content : Bytes
  deriving Repr, DecidableEq

namespace SourceFile

/-- `source_file.name`. -/
def name (file : SourceFile) : String := (PurePosixPath.ofString file.path).name

def sizeBytes (file : SourceFile) : Nat := file.content.length

end SourceFile

/-! ### Capacity -/

/-- Ceiling on the reserve, 64 MiB. -/
def capacityReserveMaxBytes : Int := 64 * 1024 * 1024

def capacityReserveDivisor : Int := 100

/-- Bytes held back on a medium of `capacityBytes` for LTFS overhead. -/
def capacityReserveBytes (capacityBytes : Int) : Int :=
  if capacityBytes ≤ 0 then 0 else min capacityReserveMaxBytes (capacityBytes / capacityReserveDivisor)

/-- Free bytes a caller may plan to write, after the reserve. -/
def usableRemainingBytes (capacityBytes usedBytes : Int) : Int :=
  max 0 (capacityBytes - usedBytes - capacityReserveBytes capacityBytes)

/-- Can this medium still take a file of `sizeBytes`? -/
def hasRoomFor (capacityBytes usedBytes : Int) (sizeBytes : Nat) : Bool :=
  let usable := usableRemainingBytes capacityBytes usedBytes
  decide (0 < usable) && decide ((sizeBytes : Int) ≤ usable)

end OpenBlade
