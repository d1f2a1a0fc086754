import OpenBlade.Domain.Models
import OpenBlade.Domain.Text
import OpenBlade.Effects.Traverse

/-!
# What the changer reports

`parse_mtx_status` of `hardware/mtx.py`: the text of `mtx status`, read line by line. Each pattern of the parser is a function of
the line: `\d+`, `\S+` and `[^:]*` take all they can, and none of the patterns gets more by giving a letter back.
-/

namespace OpenBlade

open Effects

structure MtxSlotInfo where
  slotId : Nat
  occupied : Bool
  barcode : Option String
  isImportExport : Bool := false
  deriving Repr, DecidableEq

structure MtxDriveInfo where
  driveId : Nat
  loaded : Bool
  barcode : Option String
  sourceSlot : Option Nat := none
  deriving Repr, DecidableEq

/-- What the changer reports; import/export elements are kept apart from storage slots. -/
structure MtxStatus where
  device : String := "unknown"
  drives : List MtxDriveInfo := []
  slots : List MtxSlotInfo := []
  driveCount : Nat := 0
  slotCount : Nat := 0
  importExportSlots : List MtxSlotInfo := []
  deriving Repr, DecidableEq

/-! ## The patterns -/

/-- A run of letters of one kind that is not empty, and what follows it. -/
def readRun (kind : Char → Bool) (text : List Char) : Option (List Char × List Char) :=
  if text.takeWhile kind = [] then none else some (text.takeWhile kind, text.dropWhile kind)

/-- A text that begins as given, without its beginning. -/
def readLiteral (literal : String) (text : List Char) : Option (List Char) := text.dropPrefix? literal.toList

/-- `\S`. -/
def isSolid (c : Char) : Bool := !isSpace c

/-- `_HEADER_RE`: the device, and the digits of the number of drives and of slots. -/
def matchHeader (line : List Char) : Option (String × List Char × List Char) := do
  let text ← readLiteral "Storage Changer " line
  let (word, text) ← readRun isSolid text
  -- digits have no colon in them, so `\S+` ends before the last colon of the word
  let driveCount := word.rtakeWhile isDecimal
  let front := word.rdropWhile isDecimal
  if driveCount = [] ∨ front.getLast? ≠ some ':' ∨ front.dropLast = [] then none
  else do
    let text ← readLiteral " Drives, " text
    let (slotCount, text) ← readRun isDecimal text
    let _ ← readLiteral " Slots" text
    pure (String.ofList front.dropLast, driveCount, slotCount)

/-- `_DRIVE_RE`: the digits of the element, and its details. -/
def matchDrive (line : List Char) : Option (List Char × List Char) := do
  let text ← readLiteral "Data Transfer Element " line
  let (driveId, text) ← readRun isDecimal text
  let details ← readLiteral ":" text
  if details = [] then none else pure (driveId, details)

/-- `_SLOT_RE`: the digits of the element, its flags and its details. -/
def matchSlot (line : List Char) : Option (List Char × List Char × List Char) := do
  let text ← readLiteral "Storage Element " line
  let (slotId, text) ← readRun isDecimal text
  let details ← readLiteral ":" (text.dropWhile (· ≠ ':'))
  if details = [] then none else pure (slotId, text.takeWhile (· ≠ ':'), details)

/-- `_LOADED_FROM_RE`. -/
def matchLoadedFrom (text : List Char) : Option (List Char) := do
  let text ← readLiteral "Storage Element " text
  let (slotId, text) ← readRun isDecimal text
  let _ ← readLiteral " Loaded" text
  pure slotId

/-- `_BARCODE_RE`. -/
def matchBarcode (text : List Char) : Option (List Char) := do
  let text ← readLiteral "VolumeTag" text
  let text ← readLiteral "=" (text.dropWhile isSpace)
  let (barcode, _) ← readRun isSolid (text.dropWhile isSpace)
  pure barcode

/-! ## The parser -/

/-- `_parse_barcode`. -/
def parseBarcode (details : List Char) : Option String :=
  (search matchBarcode details).map fun barcode => strip (String.ofList barcode)

/-- What one line of the status says. -/
inductive MtxLine where
  | header (device : String) (driveCount slotCount : Nat)
  | drive (info : MtxDriveInfo)
  | slot (info : MtxSlotInfo)
  deriving Repr, DecidableEq

/-- A stripped line, as the loop of `parse_mtx_status` reads it; other lines say nothing. -/
def readLine (line : List Char) : Except Exn (Option MtxLine) :=
  if line = [] then .ok none
  else
    match matchHeader line with
    | some (device, driveCount, slotCount) => do
      let driveCount ← intOfDigits driveCount
      let slotCount ← intOfDigits slotCount
      pure (some (.header device driveCount slotCount))
    | none =>
      match matchDrive line with
      | some (driveId, details) => do
        let sourceSlot ← (search matchLoadedFrom details).mapM intOfDigits
        let driveId ← intOfDigits driveId
        pure (some (.drive { driveId, loaded := isIn "Full" details, barcode := parseBarcode details, sourceSlot }))
      | none =>
        match matchSlot line with
        | some (slotId, flags, details) => do
          let slotId ← intOfDigits slotId
          pure (some (.slot
            { slotId, occupied := isIn "Full" details, barcode := parseBarcode details,
              isImportExport := isIn "IMPORT/EXPORT" (flags.flatMap upperChar) }))
        | none => .ok none

namespace MtxStatus

/-- What a line adds to the status. -/
def record (status : MtxStatus) : MtxLine → MtxStatus
  | .header device driveCount slotCount => { status with device, driveCount, slotCount }
  | .drive info => { status with drives := status.drives ++ [info] }
  | .slot info =>
    if info.isImportExport then { status with importExportSlots := status.importExportSlots ++ [info] }
    else { status with slots := status.slots ++ [info] }

/-- The elements reported, storage slots first. -/
def elements (status : MtxStatus) : List MtxSlotInfo := status.slots ++ status.importExportSlots

/-- The volume tags reported. -/
def tags (status : MtxStatus) : List String :=
  status.slots.filterMap MtxSlotInfo.barcode ++ status.drives.filterMap MtxDriveInfo.barcode ++
    status.importExportSlots.filterMap MtxSlotInfo.barcode

end MtxStatus

/-- `parse_mtx_status`; it refuses a text for the length of a number only. -/
def parseMtxStatus (output : String) : Except Exn MtxStatus :=
  (splitlines output).foldlM (fun status raw => do
    match ← readLine (strip (String.ofList raw)).toList with
    | some said => pure (status.record said)
    | none => pure status) {}

/-! ## What is accepted -/

/-- White space is all that is stripped. -/
theorem strip_ne_empty {text : List Char} {c : Char} (hc : c ∈ text) (hsolid : isSpace c = false) :
    strip (String.ofList text) ≠ "" := by
  have hdrop : c ∈ text.dropWhile isSpace := by
    have hsplit : c ∈ text.takeWhile isSpace ++ text.dropWhile isSpace := by rwa [List.takeWhile_append_dropWhile]
    rcases List.mem_append.1 hsplit with hspace | hrest
    · exact absurd (List.mem_takeWhile_imp hspace) (by simp [hsolid])
    · exact hrest
  have hkept : (text.dropWhile isSpace).rdropWhile isSpace ≠ [] := by
    intro hempty
    have hspace := List.rdropWhile_eq_nil_iff.1 hempty c hdrop
    rw [hsolid] at hspace
    cases hspace
  intro hempty
  have hlist := congrArg String.toList hempty
  simp only [strip, String.toList_ofList] at hlist
  exact hkept hlist

/-- A volume tag is never empty. -/
theorem parseBarcode_ne_empty {details : List Char} {tag : String} (h : parseBarcode details = some tag) : tag ≠ "" := by
  obtain ⟨barcode, hfound, rfl⟩ := Option.map_eq_some_iff.1 h
  obtain ⟨text, -, hmatch⟩ := search_eq_some hfound
  simp only [matchBarcode, Option.bind_eq_bind, Option.bind_eq_some_iff, readRun, Option.pure_def] at hmatch
  obtain ⟨_, -, after, -, ⟨run, rest⟩, hrun, hmatch⟩ := hmatch
  obtain rfl := Option.some.inj hmatch
  split at hrun
  · cases hrun
  · rename_i hne
    obtain ⟨rfl, -⟩ := Prod.mk.inj (Option.some.inj hrun)
    obtain ⟨c, hc⟩ := List.exists_mem_of_ne_nil _ hne
    refine strip_ne_empty hc ?_
    simpa [isSolid] using List.mem_takeWhile_imp hc

/-- The volume tag a line reports. -/
def MtxLine.tag : MtxLine → Option String
  | .header .. => none
  | .drive info => info.barcode
  | .slot info => info.barcode

theorem readLine_tag {line : List Char} {said : MtxLine} {tag : String} (h : readLine line = .ok (some said))
    (htag : said.tag = some tag) : tag ≠ "" := by
  unfold readLine at h
  split at h
  · cases h
  · split at h
    · obtain ⟨_, -, h⟩ := bind_eq_ok.1 h
      obtain ⟨_, -, h⟩ := bind_eq_ok.1 h
      obtain rfl := Option.some.inj (Except.ok.inj h)
      cases htag
    · split at h
      · obtain ⟨_, -, h⟩ := bind_eq_ok.1 h
        obtain ⟨_, -, h⟩ := bind_eq_ok.1 h
        obtain rfl := Option.some.inj (Except.ok.inj h)
        exact parseBarcode_ne_empty htag
      · split at h
        · obtain ⟨_, -, h⟩ := bind_eq_ok.1 h
          obtain rfl := Option.some.inj (Except.ok.inj h)
          exact parseBarcode_ne_empty htag
        · cases h

theorem MtxStatus.mem_tags_record {status : MtxStatus} {said : MtxLine} {tag : String} :
    tag ∈ (status.record said).tags ↔ tag ∈ status.tags ∨ said.tag = some tag := by
  cases said with
  | header => simp [record, tags, MtxLine.tag]
  | drive info =>
    cases hb : info.barcode <;> simp [record, tags, MtxLine.tag, hb] <;> grind
  | slot info =>
    unfold record
    dsimp only
    split <;> cases hb : info.barcode <;> simp [tags, MtxLine.tag, hb] <;> grind

/-- No volume tag of an accepted status is empty. -/
theorem tags_parseMtxStatus {output : String} {status : MtxStatus} (h : parseMtxStatus output = .ok status) :
    ∀ tag ∈ status.tags, tag ≠ "" := by
  refine foldlM_keeps (fun status : MtxStatus => ∀ tag ∈ status.tags, tag ≠ "") h (by simp [MtxStatus.tags]) ?_
  intro status raw status' htags hstep
  obtain ⟨said, hline, hstep⟩ := bind_eq_ok.1 hstep
  cases said with
  | none => exact Except.ok.inj hstep ▸ htags
  | some said =>
    obtain rfl := Except.ok.inj hstep
    intro tag htag
    rcases MtxStatus.mem_tags_record.1 htag with hold | hnew
    · exact htags tag hold
    · exact readLine_tag hline hnew

end OpenBlade
