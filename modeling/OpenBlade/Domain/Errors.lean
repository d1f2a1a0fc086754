import Mathlib

/-!
# Typed errors

The exception classes of `domain/errors.py` that the modelled code raises or tells apart, the built-in ones it raises, and two
classes for whatever a backend, the database or the file system may raise besides: typed errors and any others.
-/

namespace OpenBlade

/-- The class of an exception. -/
inductive ErrorClass where
  | staleLease
  | journalWrite
  | driveUnreconciled
  | driveLeased
  | driveBusy
  | tapePhysicalState
  | tapeOperationFailed
  | operationNotConfirmed
  | formatRequiresConfirmation
  | tapeMounted
  | slotEmpty
  | slotOccupied
  | driveOccupied
  | noScratchMedia
  | tapeFull
  | checksumMismatch
  | cartridgeNotFound
  | cartridgeOffline
  | fileNotFound
  | valueError
  | keyError
  | permissionError
  | zeroDivision
  | assertion
  | hydrationControlSignal
  | typed (name : String)
  | other (name : String)
  deriving Repr, DecidableEq

/-- `type(exc).__name__`. -/
def ErrorClass.name : ErrorClass → String
  | staleLease => "StaleLeaseError"
  | journalWrite => "JournalWriteError"
  | driveUnreconciled => "DriveUnreconciledError"
  | driveLeased => "DriveLeasedError"
  | driveBusy => "DriveBusyError"
  | tapePhysicalState => "TapePhysicalStateError"
  | tapeOperationFailed => "TapeOperationFailedError"
  | operationNotConfirmed => "OperationNotConfirmedError"
  | formatRequiresConfirmation => "FormatRequiresConfirmationError"
  | tapeMounted => "TapeMountedError"
  | slotEmpty => "SlotEmptyError"
  | slotOccupied => "SlotOccupiedError"
  | driveOccupied => "DriveOccupiedError"
  | noScratchMedia => "NoScratchMediaError"
  | tapeFull => "TapeFullError"
  | checksumMismatch => "ChecksumMismatchError"
  | cartridgeNotFound => "CartridgeNotFoundError"
  | cartridgeOffline => "CartridgeOfflineError"
  | fileNotFound => "FileNotFoundError"
  | valueError => "ValueError"
  | keyError => "KeyError"
  | permissionError => "PermissionError"
  | zeroDivision => "ZeroDivisionError"
  | assertion => "AssertionError"
  | hydrationControlSignal => "_HydrationControlSignal"
  | typed n => n
  | other n => n

/-- `isinstance(exc, OpenBladeError)`. -/
def ErrorClass.isOpenBladeError : ErrorClass → Bool
  | staleLease | journalWrite | driveUnreconciled | driveLeased | driveBusy | formatRequiresConfirmation | tapeMounted
  | slotEmpty | slotOccupied | driveOccupied | noScratchMedia | tapeFull | checksumMismatch | cartridgeNotFound
  | cartridgeOffline | fileNotFound | typed _ => true
  | tapePhysicalState | tapeOperationFailed | operationNotConfirmed | valueError | keyError | permissionError
  | zeroDivision | assertion | hydrationControlSignal | other _ => false

/-- An exception: its class and `str(exc)`. -/
structure Exn where
  cls : ErrorClass
  message : String
  deriving Repr, DecidableEq

def valueError (message : String) : Exn := { cls := .valueError, message := message }

/-- Curated failure text for `jobs.error`: typed errors carry operator-written messages and pass through, anything else is
reduced to its class name. -/
def safeJobError (exc : Exn) : String :=
  if exc.cls.isOpenBladeError then exc.message
  else "Job failed (" ++ exc.cls.name ++ "); see server logs for detail"

/-- How a request fails: with an HTTP status, or with an exception that nothing catches. -/
inductive RequestFailure where
  | http (status : Nat) (detail : String)
  | uncaught (exn : Exn)
  deriving Repr, DecidableEq

end OpenBlade
