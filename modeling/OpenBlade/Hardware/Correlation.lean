import Mathlib
import OpenBlade.Assistant.Tools
import OpenBlade.Domain.Text
import OpenBlade.Effects.Traverse

/-!
# Which device is which drive

`correlate_drives` (`hardware/correlation.py`) binds the drive elements of a library to tape devices of the host by the serials that
`OPENBLADE_DRIVE_SERIAL_MAP` declares (`parse_drive_serial_map`, `config.py`). `drive_correlation_sound`: what it calls verified is a
binding that the live serials bear out; all else is refused or said to be unverified.
-/

namespace OpenBlade

open Effects Codec

def correlationError (message : String) : Exn := { cls := .typed "DriveCorrelationError", message := message }

section config

variable (text : TextBuiltins)

/-- `item.rpartition(":")`: what is before the last colon, whether there is one, and what is after it. -/
def rpartitionColon (item : String) : String × Bool × String :=
  match item.toList.reverse.dropWhile (· ≠ ':') with
  | [] => ("", false, item)
  | _ :: before => (String.ofList before.reverse, true, String.ofList (item.toList.reverse.takeWhile (· ≠ ':')).reverse)

/-- One entry of the map, after those that were read before it. -/
def parseMapEntry (entries : List (String × Int)) (item : String) : Except Exn (String × Int) :=
  let named := "OPENBLADE_DRIVE_SERIAL_MAP entry " ++ text.quote (.str item)
  let serial := strip (rpartitionColon item).1
  let driveText := strip (rpartitionColon item).2.2
  if (rpartitionColon item).2.1 = false ∨ serial = "" ∨ driveText = "" then
    .error (correlationError (named ++ " is not of the form '<serial>:<drive_element_id>'"))
  else
    match text.int driveText with
    | none => .error (correlationError (named ++ " has a non-integer drive element id " ++ text.quote (.str driveText)))
    | some driveId =>
      if driveId < 0 then .error (correlationError (named ++ " has a negative drive element id"))
      else if serial ∈ entries.map Prod.fst then
        .error (correlationError ("OPENBLADE_DRIVE_SERIAL_MAP lists serial " ++ text.quote (.str serial) ++ " more than once"))
      else if driveId ∈ entries.map Prod.snd then
        .error (correlationError ("OPENBLADE_DRIVE_SERIAL_MAP lists drive element id " ++ toString driveId ++ " more than once"))
      else .ok (serial, driveId)

/-- The entries of the map, after those that were read before. -/
def parseMapChunks (entries : List (String × Int)) : List String → Except Exn (List (String × Int))
  | [] => .ok entries
  | chunk :: chunks =>
    if strip chunk = "" then parseMapChunks entries chunks
    else do
      let entry ← parseMapEntry text entries (strip chunk)
      parseMapChunks (entries ++ [entry]) chunks

/-- `parse_drive_serial_map`. -/
def parseDriveSerialMap (raw : String) : Except Exn (List (String × Int)) :=
  parseMapChunks text [] ((raw.toList.splitOn ',').map String.ofList)

end config

/-! ### Correlation -/

/-- One library drive element bound to one host tape device. -/
structure DriveCorrelationEntry where
  /-- mtx Data Transfer Element index. -/
  driveId : Int
  device : String
  /-- Unit serial number read live from the device; empty when not probed or reported. -/
  serial : String
  deriving Repr, DecidableEq

inductive CorrelationSource where
  | serialMap
  | positional
  | dryRun
  deriving Repr, DecidableEq

structure DriveCorrelation where
  entries : List DriveCorrelationEntry
  source : CorrelationSource
  serialsVerified : Bool := false
  warnings : List String := []
  deriving Repr, DecidableEq

/-- `device_for`. -/
def DriveCorrelation.deviceFor (text : TextBuiltins) (c : DriveCorrelation) (driveId : Int) : Except Exn String :=
  match c.entries.find? fun entry => entry.driveId = driveId with
  | some entry => .ok entry.device
  | none =>
    .error (correlationError ("Drive element " ++ toString driveId ++ " has no correlated host device (correlated elements: " ++
      text.str (.arr (((c.entries.map DriveCorrelationEntry.driveId).insertionSort (· ≤ ·)).map .int)) ++
      "). List every drive in OPENBLADE_DRIVE_DEVICES."))

/-- How an `sg_inq` fails. -/
inductive InquiryFailure where
  | notInstalled
  | timedOut
  | commandFailed (returncode : Int)
  /-- `RealHardwareDisabledError`, `DriveCorrelationError` and what is not caught. -/
  | raised (exc : Exn)

/-- The host: whether the guard lets real hardware be used, what `sg_inq` reads for a device at the node it is probed at, and the
nodes that are probed in place of the devices. -/
structure DriveHost where
  guard : Except Exn Unit
  dryRun : Bool
  inquire : String → String → Except InquiryFailure String
  probeDevices : Dict String String

namespace DriveHost

variable (host : DriveHost)

def probeOf (device : String) : String := (host.probeDevices.get? device).getD device

/-- The serial that a device answers with. -/
def liveSerial (device : String) : Except InquiryFailure String := host.inquire device (host.probeOf device)

end DriveHost

/-- The typed error of a failed inquiry. -/
def InquiryFailure.curated (probe : String) : InquiryFailure → Exn
  | notInstalled =>
    correlationError ("sg_inq is not installed, so drive serials cannot be read. Install sg3_utils on the host, or unset " ++
      "OPENBLADE_DRIVE_SERIAL_MAP to run with unverified positional drive order.")
  | timedOut => correlationError ("sg_inq timed out on " ++ probe ++ "; the drive did not answer an INQUIRY.")
  | commandFailed returncode =>
    correlationError ("sg_inq failed on " ++ probe ++ " (rc=" ++ toString returncode ++ "). Check the device path, permissions (the " ++
      "'tape' group), and that the drive is not held by another process.")
  | raised exc => exc

/-- `read_drive_serials`. -/
def readDriveSerials (host : DriveHost) (devices : List String) : Except Exn (Dict String String) := do
  let serials ← devices.mapM fun device =>
    match host.liveSerial device with
    | .ok serial => .ok (device, serial)
    | .error failure => .error (failure.curated (host.probeOf device))
  pure (Dict.ofPairs serials)

section correlate

variable (text : TextBuiltins)

/-- `sorted(...)` of texts, as an f-string shows it. -/
def shownSorted (names : List String) : String := text.str (.arr ((names.insertionSort (· ≤ ·)).map .str))

/-- `_format_serials`. -/
def formatSerials (live : Dict String String) : String :=
  ", ".intercalate ((live.insertionSort fun a b => a.1 ≤ b.1).map fun p => p.1 ++ "=" ++ if p.2 = "" then "<none>" else p.2)

/-- The texts that stand in a list more than once. -/
def repeated (names : List String) : List String := (names.filter fun name => 1 < names.count name).dedup

def refuseOnDuplicateDevices (devices : List String) : Except Exn Unit :=
  if repeated devices ≠ [] then
    .error (correlationError ("OPENBLADE_DRIVE_DEVICES lists " ++ shownSorted text (repeated devices) ++ " more than once. Two drive " ++
      "elements would map to one physical drive."))
  else .ok ()

/-- `_refuse_on_duplicate_serials`. -/
def refuseOnDuplicateSerials (live : Dict String String) : Except Exn Unit :=
  let values := (live.map Prod.snd).filter fun serial => serial ≠ ""
  if repeated values ≠ [] then
    .error (correlationError ("Two or more configured devices report the same unit serial number " ++ shownSorted text (repeated values) ++
      "; they are the same physical drive. Observed: " ++ formatSerials live ++ "."))
  else .ok ()

/-- `_refuse_on_declared_element_range`. -/
def refuseOnDeclaredElementRange (declared : Dict String Int) : Option Nat → Except Exn Unit
  | none => .ok ()
  | some elementCount =>
    let outOfRange := ((declared.map Prod.snd).filter fun driveId => (elementCount : Int) ≤ driveId).insertionSort (· ≤ ·)
    if outOfRange ≠ [] then
      .error (correlationError ("OPENBLADE_DRIVE_SERIAL_MAP declares drive element(s) " ++ text.str (.arr (outOfRange.map .int)) ++
        " but the changer reports only " ++ toString elementCount ++ " Data Transfer Element(s) (0.." ++ toString ((elementCount : Int) - 1) ++
        "). Note the map uses 0-based element indices, while the i3 web UI numbers drive bays from 1."))
    else .ok ()

/-- `_refuse_on_mismatch`. -/
def refuseOnMismatch (devices : List String) (live : Dict String String) (declared : Dict String Int) (elementCount : Option Nat) :
    Except Exn Unit :=
  let blank := devices.filter fun device => (live.get? device).getD "" = ""
  let missing := (declared.map Prod.fst).filter fun serial => serial ∉ live.map Prod.snd
  let unexpected := ((live.map Prod.snd).filter fun serial => serial ∉ declared.map Prod.fst).dedup
  let orNone names := if names = [] then "none" else shownSorted text names
  if blank ≠ [] then
    .error (correlationError ("OPENBLADE_DRIVE_SERIAL_MAP is set but these devices report no unit serial number, so the mapping cannot " ++
      "be checked: " ++ shownSorted text blank ++ ". Check `sg_inq <device>` and drive permissions."))
  else if missing ≠ [] ∨ unexpected ≠ [] then
    .error (correlationError ("OPENBLADE_DRIVE_SERIAL_MAP does not match the drives that are attached. Declared but not found: " ++
      orNone missing ++ ". Attached but not declared: " ++ orNone unexpected ++ ". Observed: " ++ formatSerials live ++
      ". Refusing to start rather than guess which drive is which."))
  else refuseOnDeclaredElementRange text declared elementCount

/-- The warning about a library with another number of drives, and the refusal of one with more of them than were declared. -/
def countWarnings (devices : List String) (declared : Dict String Int) : Option Nat → Except Exn (List String)
  | none => .ok []
  | some elementCount =>
    if elementCount = devices.length then .ok []
    else if declared ≠ [] ∧ devices.length < elementCount then
      .error (correlationError ("The changer reports " ++ toString elementCount ++ " drive element(s) but only " ++ toString devices.length ++
        " device(s) are configured. Every element must have a host device: list them all in OPENBLADE_DRIVE_DEVICES, or a job " ++
        "scheduled onto the missing element would strand a cartridge in it."))
    else .ok ["library reports " ++ toString elementCount ++ " drive element(s) but " ++ toString devices.length ++ " device(s) are configured"]

/-- Devices in their order. -/
def byPosition (devices : List String) (serialOf : String → String) : List DriveCorrelationEntry :=
  devices.zipIdx.map fun p => { driveId := p.2, device := p.1, serial := serialOf p.1 }

/-- What a dry run says of the map. -/
def dryRunWarning (declared : Dict String Int) (elementCount : Option Nat) : Except Exn String :=
  if declared = [] then .ok "dry-run: drive serials were not read"
  else do
    refuseOnDeclaredElementRange text declared elementCount
    pure ("dry-run: drive serials were not read, so OPENBLADE_DRIVE_SERIAL_MAP could not be applied; the devices named here are " ++
      "positional and a live run may use a different one per element")

/-- A dry run reads no serials. -/
def dryRunCorrelation (devices : List String) (declared : Dict String Int) (elementCount : Option Nat) (warnings : List String) :
    Except Exn DriveCorrelation := do
  let warning ← dryRunWarning text declared elementCount
  pure { entries := byPosition devices fun _ => "", source := .dryRun, warnings := warnings ++ [warning] }

/-- Without a map devices are taken in their order. -/
def positionalCorrelation (devices : List String) (live : Dict String String) (warnings : List String) : DriveCorrelation :=
  let blank := devices.filter fun device => (live.get? device).getD "" = ""
  let warnings := if blank = [] then warnings else warnings ++ ["devices reporting no unit serial number: " ++ shownSorted text blank]
  { entries := byPosition devices fun device => (live.get? device).getD "", source := .positional
    warnings := warnings ++ ["drive order is unverified (no OPENBLADE_DRIVE_SERIAL_MAP)"] }

/-- The entries of a declaration that matches. -/
def declaredEntries (live : Dict String String) (declared : Dict String Int) : Except Exn (List DriveCorrelationEntry) :=
  let serialToDevice : Dict String String := Dict.ofPairs (live.map fun p => (p.2, p.1))
  (declared.insertionSort fun a b => a.2 ≤ b.2).mapM fun p =>
    match serialToDevice.get? p.1 with
    | some device => .ok { driveId := p.2, device := device, serial := p.1 }
    | none => .error { cls := .keyError, message := text.quote (.str p.1) }

/-- `correlate_drives`. -/
def correlateDrives (host : DriveHost) (devices : List String) (serialMap : List (String × Int)) (elementCount : Option Nat) :
    Except Exn DriveCorrelation := do
  host.guard
  let declared : Dict String Int := Dict.ofPairs serialMap
  if devices = [] then
    pure { entries := [], source := .positional, warnings := ["no tape devices configured or discovered"] }
  else do
    refuseOnDuplicateDevices text devices
    let warnings ← countWarnings devices declared elementCount
    if host.dryRun then dryRunCorrelation text devices declared elementCount warnings
    else do
      let live ← readDriveSerials host devices
      refuseOnDuplicateSerials text live
      if declared = [] then pure (positionalCorrelation text devices live warnings)
      else do
        refuseOnMismatch text devices live declared elementCount
        let entries ← declaredEntries text live declared
        pure { entries := entries, source := .serialMap, serialsVerified := true, warnings := warnings }

end correlate

namespace DriveCorrelation

/-- A binding that is borne out: each element it covers has one device, no device two elements, and each device answers with the
serial that is declared for its element, which the library has. -/
structure Sound (text : TextBuiltins) (host : DriveHost) (devices : List String) (declared : List (String × Int)) (elementCount : Option Nat)
    (c : DriveCorrelation) : Prop where
  oneDevice : ∀ entry ∈ c.entries, c.deviceFor text entry.driveId = .ok entry.device
  distinctElements : (c.entries.map DriveCorrelationEntry.driveId).Nodup
  distinctDevices : (c.entries.map DriveCorrelationEntry.device).Nodup
  configured : ∀ entry ∈ c.entries, entry.device ∈ devices
  live : ∀ entry ∈ c.entries, host.liveSerial entry.device = .ok entry.serial
  declared : ∀ entry ∈ c.entries, (entry.serial, entry.driveId) ∈ declared
  inRange : ∀ entry ∈ c.entries, 0 ≤ entry.driveId ∧ ∀ count, elementCount = some count → entry.driveId < count

/-- The order is said to be unverified. -/
def Unverified (c : DriveCorrelation) : Prop := c.serialsVerified = false ∧ c.source ≠ .serialMap ∧ c.warnings ≠ []

end DriveCorrelation

namespace CorrelationAux

/-- What a map that is accepted declares: no serial and no element twice, and elements from 0. -/
structure Declares (entries : List (String × Int)) : Prop where
  serials : (entries.map Prod.fst).Nodup
  elements : (entries.map Prod.snd).Nodup
  nonneg : ∀ entry ∈ entries, 0 ≤ entry.2

section parse

variable {text : TextBuiltins} {entries declared : List (String × Int)}

theorem parseMapEntry_ok {item : String} {entry : String × Int} (h : parseMapEntry text entries item = .ok entry) :
    entry.1 ∉ entries.map Prod.fst ∧ entry.2 ∉ entries.map Prod.snd ∧ 0 ≤ entry.2 := by
  unfold parseMapEntry at h
  dsimp only at h
  split at h
  · cases h
  · split at h
    · cases h
    · split at h
      · cases h
      · rename_i hneg
        split at h
        · cases h
        · rename_i hserial
          split at h
          · cases h
          · rename_i helement
            rw [← Except.ok.inj h]
            exact ⟨hserial, helement, Int.not_lt.1 hneg⟩

theorem Declares.concat (h : Declares entries) {entry : String × Int} (hserial : entry.1 ∉ entries.map Prod.fst)
    (helement : entry.2 ∉ entries.map Prod.snd) (hnonneg : 0 ≤ entry.2) : Declares (entries ++ [entry]) := by
  constructor
  · rw [List.map_append, List.map_singleton, ← List.concat_eq_append]
    exact h.serials.concat hserial
  · rw [List.map_append, List.map_singleton, ← List.concat_eq_append]
    exact h.elements.concat helement
  · intro e he
    rcases List.mem_append.1 he with he | he
    · exact h.nonneg e he
    · rw [List.mem_singleton.1 he]
      exact hnonneg

theorem declares_of_parseMapChunks {chunks : List String} (hentries : Declares entries)
    (h : parseMapChunks text entries chunks = .ok declared) : Declares declared := by
  induction chunks generalizing entries with
  | nil => exact Except.ok.inj h ▸ hentries
  | cons chunk chunks ih =>
    unfold parseMapChunks at h
    split at h
    · exact ih hentries h
    · obtain ⟨entry, hentry, hrest⟩ := bind_eq_ok.1 h
      obtain ⟨hserial, helement, hnonneg⟩ := parseMapEntry_ok hentry
      exact ih (hentries.concat hserial helement hnonneg) hrest

/-- What `parse_drive_serial_map` accepts. -/
theorem declares_of_parse {raw : String} (h : parseDriveSerialMap text raw = .ok declared) : Declares declared := by
  have hnil : Declares [] := ⟨.nil, .nil, fun _ h => nomatch h⟩
  exact declares_of_parseMapChunks hnil h

end parse

section correlate

variable {text : TextBuiltins} {host : DriveHost} {devices : List String} {live : Dict String String} {declared : Dict String Int}
  {elementCount : Option Nat}

/-- The serials that were read are what the devices answered with. -/
theorem readDriveSerials_ok (h : readDriveSerials host devices = .ok live) :
    (Dict.keys live).Nodup ∧ ∀ p ∈ live, p.1 ∈ devices ∧ host.liveSerial p.1 = .ok p.2 := by
  obtain ⟨pairs, hpairs, hlive⟩ := bind_eq_ok.1 h
  rw [← Except.ok.inj hlive]
  refine ⟨Dict.nodup_keys_ofPairs pairs, fun p hp => ?_⟩
  obtain ⟨device, hdevice, hread⟩ := mem_of_mapM_ok hpairs (Dict.mem_of_mem_ofPairs hp)
  cases hserial : host.liveSerial device with
  | error failure =>
    rw [hserial] at hread
    cases hread
  | ok serial =>
    rw [hserial] at hread
    rw [← Except.ok.inj hread]
    exact ⟨hdevice, hserial⟩

theorem inRange_of_refuseOnMismatch (h : refuseOnMismatch text devices live declared elementCount = .ok ()) {p : String × Int}
    (hp : p ∈ declared) {count : Nat} (hcount : elementCount = some count) : p.2 < count := by
  unfold refuseOnMismatch at h
  dsimp only at h
  split at h
  · cases h
  · split at h
    · cases h
    · rw [hcount] at h
      unfold refuseOnDeclaredElementRange at h
      dsimp only at h
      split at h
      · cases h
      · rename_i hrange
        by_contra hout
        refine List.ne_nil_of_mem (a := p.2) ?_ (not_not.1 hrange)
        rw [List.mem_insertionSort, List.mem_filter, decide_eq_true_iff]
        exact ⟨List.mem_map_of_mem hp, Int.not_lt.1 hout⟩

/-- The entries are the declared pairs, each with a device that answered with its serial. -/
theorem declaredEntries_ok {entries : List DriveCorrelationEntry} (h : declaredEntries text live declared = .ok entries) :
    (entries.map fun entry => (entry.serial, entry.driveId)).Perm declared ∧ ∀ entry ∈ entries, (entry.device, entry.serial) ∈ live := by
  unfold declaredEntries at h
  dsimp only at h
  constructor
  · refine .trans (.of_eq ?_) (List.perm_insertionSort (fun a b => a.2 ≤ b.2) declared)
    have hforall := mapM_eq_ok_iff.1 h
    generalize declared.insertionSort (fun a b => a.2 ≤ b.2) = sorted at hforall
    clear h
    induction hforall with
    | nil => rfl
    | cons hentry hrest ih =>
      split at hentry
      · rw [List.map_cons, ih, ← Except.ok.inj hentry]
      · cases hentry
  · intro entry hentry
    obtain ⟨p, hp, hdevice⟩ := mem_of_mapM_ok h hentry
    split at hdevice
    · rename_i device hget
      obtain ⟨q, hq, hqp⟩ := List.mem_map.1 (Dict.mem_of_mem_ofPairs (Dict.mem_of_get? hget))
      rw [← Except.ok.inj hdevice]
      dsimp only
      rwa [← (Prod.mk.inj hqp).1, ← (Prod.mk.inj hqp).2]
    · cases hdevice

theorem deviceFor_of_mem {c : DriveCorrelation} (h : (c.entries.map DriveCorrelationEntry.driveId).Nodup) {entry : DriveCorrelationEntry}
    (hentry : entry ∈ c.entries) : c.deviceFor text entry.driveId = .ok entry.device := by
  unfold DriveCorrelation.deviceFor
  cases hfind : c.entries.find? fun other => other.driveId = entry.driveId with
  | none => exact absurd (List.find?_eq_none.1 hfind entry hentry) (by simp)
  | some other =>
    have hsame : other = entry :=
      List.inj_on_of_nodup_map h (List.mem_of_find?_eq_some hfind) hentry (by simpa using List.find?_some hfind)
    rw [hsame]

/-- Entries that are the declared pairs, with devices that answered, are a binding that is borne out. -/
theorem sound_of_entries {c : DriveCorrelation} (hdeclares : Declares declared) (hread : readDriveSerials host devices = .ok live)
    (hmatch : refuseOnMismatch text devices live declared elementCount = .ok ()) (hentries : declaredEntries text live declared = .ok c.entries) :
    c.Sound text host devices declared elementCount := by
  obtain ⟨hkeys, hlive⟩ := readDriveSerials_ok hread
  obtain ⟨hperm, hdevices⟩ := declaredEntries_ok hentries
  have hmem {entry : DriveCorrelationEntry} (h : entry ∈ c.entries) : (entry.serial, entry.driveId) ∈ declared :=
    hperm.mem_iff.1 (List.mem_map_of_mem h)
  have helements : (c.entries.map DriveCorrelationEntry.driveId).Nodup := by
    have h := (hperm.map Prod.snd).nodup_iff.2 hdeclares.elements
    rwa [List.map_map] at h
  have hserials : (c.entries.map DriveCorrelationEntry.serial).Nodup := by
    have h := (hperm.map Prod.fst).nodup_iff.2 hdeclares.serials
    rwa [List.map_map] at h
  exact {
    oneDevice := fun entry h => deviceFor_of_mem helements h
    distinctElements := helements
    distinctDevices := by
      -- One device has one serial, and no serial is declared twice.
      refine List.pairwise_map.2 ((List.pairwise_map.1 hserials).imp_of_mem ?_)
      intro a b ha hb hne hdevice
      have hserial := Dict.get?_of_mem hkeys (hdevices a ha)
      rw [hdevice, Dict.get?_of_mem hkeys (hdevices b hb)] at hserial
      exact hne (Option.some.inj hserial).symm
    configured := fun entry h => (hlive _ (hdevices entry h)).1
    live := fun entry h => (hlive _ (hdevices entry h)).2
    declared := fun entry h => hmem h
    inRange := fun entry h => ⟨hdeclares.nonneg _ (hmem h), fun count hcount => inRange_of_refuseOnMismatch hmatch (hmem h) hcount⟩ }

theorem unverified_of_dryRun {warnings : List String} {c : DriveCorrelation}
    (h : dryRunCorrelation text devices declared elementCount warnings = .ok c) : c.Unverified := by
  obtain ⟨warning, -, hc⟩ := bind_eq_ok.1 h
  rw [← Except.ok.inj hc]
  exact ⟨rfl, nofun, by simp⟩

end correlate

end CorrelationAux

open CorrelationAux in
/-- Whatever devices are configured, whatever map is declared and accepted, whatever the devices answer to an inquiry and however
many drive elements the library has: a correlation that is called verified binds each element that it covers to one device, no
device twice, each with the serial declared for its element; else it is refused, or said to be unverified. -/
theorem drive_correlation_sound (text : TextBuiltins) (host : DriveHost) (devices : List String) (raw : String)
    (declared : List (String × Int)) (elementCount : Option Nat) (hdeclared : parseDriveSerialMap text raw = .ok declared)
    (c : DriveCorrelation) (hc : correlateDrives text host devices declared elementCount = .ok c) :
    c.serialsVerified = true ∧ c.Sound text host devices declared elementCount ∨ c.Unverified := by
  have hdeclares := declares_of_parse hdeclared
  obtain ⟨-, -, hc⟩ := bind_eq_ok.1 hc
  dsimp only at hc
  rw [Dict.ofPairs_self hdeclares.serials] at hc
  split at hc
  · rw [← Except.ok.inj hc]
    exact .inr ⟨rfl, nofun, nofun⟩
  · obtain ⟨-, -, hc⟩ := bind_eq_ok.1 hc
    obtain ⟨warnings, -, hc⟩ := bind_eq_ok.1 hc
    split at hc
    · exact .inr (unverified_of_dryRun hc)
    · obtain ⟨live, hread, hc⟩ := bind_eq_ok.1 hc
      obtain ⟨-, -, hc⟩ := bind_eq_ok.1 hc
      split at hc
      · rw [← Except.ok.inj hc]
        exact .inr ⟨rfl, nofun, by simp [positionalCorrelation]⟩
      · obtain ⟨⟨⟩, hmatch, hc⟩ := bind_eq_ok.1 hc
        obtain ⟨entries, hentries, hc⟩ := bind_eq_ok.1 hc
        rw [← Except.ok.inj hc]
        exact .inl ⟨rfl, sound_of_entries hdeclares hread hmatch hentries⟩

/-- A host with two drives, whose devices are probed at other nodes. -/
def twoDriveHost : DriveHost where
  guard := .ok ()
  dryRun := false
  inquire _ probe := .ok (if probe = "/dev/sg3" then "10WT073819" else "10WT073820")
  probeDevices := [("/dev/nst0", "/dev/sg3"), ("/dev/nst1", "/dev/sg4")]

/-- Two drives whose elements are the other way round than their devices. -/
def crossedCorrelation : DriveCorrelation where
  entries := [{ driveId := 0, device := "/dev/nst1", serial := "10WT073820" }, { driveId := 1, device := "/dev/nst0", serial := "10WT073819" }]
  source := .serialMap
  serialsVerified := true

theorem crossed_drives_sound :
    crossedCorrelation.serialsVerified = true ∧
        crossedCorrelation.Sound .ascii twoDriveHost ["/dev/nst0", "/dev/nst1"] [("10WT073819", 1), ("10WT073820", 0)] (some 2) ∨
      crossedCorrelation.Unverified :=
  drive_correlation_sound .ascii twoDriveHost ["/dev/nst0", "/dev/nst1"] " 10WT073819 : 1, ,10WT073820:0" _ (some 2) (by decide +kernel) _
    (by decide +kernel)

end OpenBlade
