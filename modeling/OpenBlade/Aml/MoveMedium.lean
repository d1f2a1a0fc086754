import OpenBlade.Domain.Errors
import OpenBlade.Simulator.Setup

/-!
# The moveMedium request

`api/routes_aml_move_medium.py` over the simulated library. A request names a source and a destination, each by the type and the
address of an element; slots and drives have addresses of their own, and the same number may be both. The handler chooses between
`load`, `unload` and `move` of the library, and passes on the addresses alone.
-/

namespace OpenBlade

open Effects Storage

/-! ### Payloads -/

/-- A float: what `int` makes of it, if anything. -/
inductive WireFloat where
  | finite (isZero : Bool) (truncated : Int)
  | infinite
  | nan
  deriving Repr, DecidableEq

/-- A value of a payload. -/
inductive WireValue where
  | null
  | bool (b : Bool)
  | int (i : Int)
  | float (f : WireFloat)
  | str (s : String)
  | arr (items : List WireValue)
  | obj (fields : List (String × WireValue))

namespace WireValue

/-- `bool(value)`. -/
def truthy : WireValue → Bool
  | null => false
  | bool b => b
  | int i => i ≠ 0
  | float (.finite isZero _) => !isZero
  | float .infinite => true
  | float .nan => true
  | str s => s ≠ ""
  | arr items => !items.isEmpty
  | obj fields => !fields.isEmpty

/-- `value.get(key)`: a key that is null reads as one that is missing. -/
def get (fields : Dict String WireValue) (key : String) : Option WireValue :=
  match fields.get? key with
  | some null => none
  | value => value

end WireValue

/-- What the built-ins of Python make of a value: `str` of one that is no text, and `int` of a text. -/
structure Builtins where
  str : WireValue → String
  int : String → Option Int

namespace Builtins

/-- `str(value)`. -/
def toStr (py : Builtins) : WireValue → String
  | .str s => s
  | value => py.str value

def typeError (message : String) : Exn := { cls := .other "TypeError", message := message }

/-- `int(value)`. -/
def toInt (py : Builtins) : WireValue → Except Exn Int
  | .bool b => .ok (if b then 1 else 0)
  | .int i => .ok i
  | .float (.finite _ truncated) => .ok truncated
  | .float .infinite => .error { cls := .other "OverflowError", message := "cannot convert float infinity to integer" }
  | .float .nan => .error (valueError "cannot convert float NaN to integer")
  | .str s =>
    match py.int s with
    | some i => .ok i
    | none => .error (valueError ("invalid literal for int() with base 10: '" ++ s ++ "'"))
  | .null | .arr _ | .obj _ =>
    .error (typeError "int() argument must be a string, a bytes-like object or a real number")

/-- `int(value)` where a `TypeError` or a `ValueError` is caught. -/
def toInt? (py : Builtins) (value : WireValue) : Except Exn (Option Int) :=
  match py.toInt value with
  | .ok i => .ok (some i)
  | .error e => if e.cls = .valueError ∨ e.cls = .other "TypeError" then .ok none else .error e

end Builtins

/-! ### Move classes -/

inductive MoveFlag where
  | importMedium
  | exportMedium
  | unload
  | noEject
  | closestSlot
  deriving Repr, DecidableEq

namespace MoveFlag

def value : MoveFlag → Int
  | importMedium => 2
  | exportMedium => 4
  | unload => 8
  | noEject => 16
  | closestSlot => 32

def all : List MoveFlag := [importMedium, exportMedium, unload, noEject, closestSlot]

/-- `value & flag.value`, of any integer in two's complement. -/
def isSet (flag : MoveFlag) (wire : Int) : Bool := wire / flag.value % 2 = 1

end MoveFlag

/-- `MoveClass`: the flags that are set. -/
abbrev MoveClass : Type := List MoveFlag

namespace MoveClass

def isUnload (moveClass : MoveClass) : Bool := .unload ∈ moveClass

def isSupportedOnI3 (moveClass : MoveClass) : Bool := ¬(.importMedium ∈ moveClass ∨ .exportMedium ∈ moveClass)

/-- `from_wire`: 3 alone is the deprecated unload; bits that are no flag are ignored. -/
def fromWire (wire : Int) : MoveClass := if wire = 3 then [.unload] else MoveFlag.all.filter fun flag => flag.isSet wire

end MoveClass

/-! ### The request -/

/-- A coordinate: the type and the address of an element. -/
abbrev Coordinate : Type := String × Int

structure MoveRequest where
  moveClass : MoveClass
  source : Coordinate
  destination : Option Coordinate
  deriving Repr, DecidableEq

/-- The fields of the request: those of `moveMedium` if that is an object, else those of the payload. -/
def moveData (payload : Dict String WireValue) : Dict String WireValue :=
  match payload.get? "moveMedium" with
  | some (.obj fields) => fields
  | _ => payload

/-- `_parse_coordinate`. -/
def parseCoordinate (py : Builtins) : Option WireValue → Except Exn (Option Coordinate)
  | some (.obj fields) =>
    match WireValue.get fields "elementAddress", WireValue.get fields "elementType" with
    | some address, some elementType => (py.toInt? address).map fun i => i.map fun address => (py.toStr elementType, address)
    | _, _ => .ok none
  | _ => .ok none

/-- `data.get("moveClass", 0) or 0`, read as a move class; what is no number is a normal move. -/
def parseMoveClass (py : Builtins) (value : Option WireValue) : Except Exn MoveClass :=
  let wire := value.getD (.int 0)
  (py.toInt? (if wire.truthy then wire else .int 0)).map fun i => (i.map MoveClass.fromWire).getD []

def uncaught {α : Type} : Except Exn α → Except RequestFailure α := Except.mapError .uncaught

/-- What `move_medium` reads of its payload. -/
def readMoveRequest (py : Builtins) (payload : Dict String WireValue) : Except RequestFailure MoveRequest := do
  let data := moveData payload
  let moveClass ← uncaught (parseMoveClass py (data.get? "moveClass"))
  if moveClass.isSupportedOnI3 then
    match ← uncaught (parseCoordinate py (data.get? "sourceCoordinate")) with
    | none => .error (.http 422 "sourceCoordinate with elementAddress and elementType is required")
    | some source => do
      let destination ← uncaught (parseCoordinate py (data.get? "destinationCoordinate"))
      pure { moveClass := moveClass, source := source, destination := destination }
  else .error (.http 422 "moveClass import/export is not supported on Scalar i3/i6")

/-- The robotics of the library. -/
inductive Robotics where
  | load (sourceSlot driveId : Int)
  | unload (driveId targetSlot : Int)
  | move (sourceSlot targetSlot : Int)
  deriving Repr, DecidableEq

/-- `_first_empty_slot`. -/
def firstEmptySlot (lib : MockLibrary) : Except RequestFailure Int :=
  match lib.slots.find? fun slot => slot.2 = none with
  | some slot => .ok slot.1
  | none => .error (.http 400 "No empty storage slot available for unload")

/-- What the request asks of the library. -/
def MoveRequest.robotics (request : MoveRequest) (lib : MockLibrary) : Except RequestFailure Robotics :=
  if request.moveClass.isUnload ∨ (request.source.1 = "drive" ∧ request.destination = none) then
    if request.source.1 ≠ "drive" then .error (.http 422 "Unload move requires a drive source")
    else
      match request.destination with
      | some (destinationType, destinationAddress) =>
        if destinationType ≠ "slot" then .error (.http 422 "Unload destination must be a storage slot")
        else .ok (.unload request.source.2 destinationAddress)
      | none => (firstEmptySlot lib).map fun targetSlot => .unload request.source.2 targetSlot
  else
    match request.destination with
    | none => .error (.http 422 "destinationCoordinate is required")
    | some (destinationType, destinationAddress) =>
      if destinationType = "drive" then .ok (.load request.source.2 destinationAddress)
      else if request.source.1 = "drive" then .ok (.unload request.source.2 destinationAddress)
      else .ok (.move request.source.2 destinationAddress)

/-- The library makes one move. -/
def MockLibrary.perform (lib : MockLibrary) (faults : Faults) : Robotics → Except Exn OperationResult × MockLibrary
  | .load sourceSlot driveId => lib.load faults sourceSlot driveId
  | .unload driveId targetSlot => lib.unload faults driveId targetSlot
  | .move sourceSlot targetSlot => lib.move faults sourceSlot targetSlot

/-- What the request answers to what the library did: a backend failure is an error of the request. -/
def moveAnswer : Except Exn OperationResult × MockLibrary → Except RequestFailure String × MockLibrary
  | (.error e, lib) => (.error (.http 400 e.message), lib)
  | (.ok result, lib) => (if result.success then .ok "moveMedium completed" else .error (.http 400 result.message), lib)

/-- `move_medium`, by a user of the given role. -/
def moveMedium (py : Builtins) (role : Int) (lib : MockLibrary) (faults : Faults) (payload : Dict String WireValue) :
    Except RequestFailure String × MockLibrary :=
  if role ≠ 0 then (.error (.http 403 "Administrator access required"), lib)
  else
    match readMoveRequest py payload with
    | .error e => (.error e, lib)
    | .ok request =>
      match request.robotics lib with
      | .error e => (.error e, lib)
      | .ok robotics => moveAnswer (lib.perform faults robotics)

end OpenBlade
