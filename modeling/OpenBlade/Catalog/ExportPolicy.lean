import OpenBlade.Calls
import OpenBlade.Effects.Footprint

/-!
# What is lost when a cartridge leaves the library

`assess_export` of `catalog/export_policy.py`: the archived data that leaves with a cartridge, and the refusal that names it.
-/

namespace OpenBlade

open Effects Proc

variable {L : Type}

/-- `_SAMPLE_LIMIT`. -/
def sampleLimit : Nat := 5

structure ExportAssessment where
  barcode : Barcode
  volumeGroup : Option String := none
  archivedFilesOnCartridge : Nat := 0
  /-- Writes in flight. -/
  pendingFilesOnCartridge : Nat := 0
  bytesOnCartridge : Nat := 0
  samplePaths : List String := []
  /-- Context only: other cartridges of the group that carry archived data. -/
  volumeGroupBarcodesWithData : List Barcode := []
  deriving Repr, DecidableEq

namespace ExportAssessment

def carriesData (assessment : ExportAssessment) : Bool :=
  0 < assessment.archivedFilesOnCartridge ∨ 0 < assessment.pendingFilesOnCartridge

/-- The clauses of the refusal, in order. -/
def refusalParts (assessment : ExportAssessment) : List String :=
  let more := assessment.archivedFilesOnCartridge - assessment.samplePaths.length
  ["Cartridge " ++ assessment.barcode ++ " still carries archived data: " ++ toString assessment.archivedFilesOnCartridge ++
    " file instance(s), " ++ toString assessment.bytesOnCartridge ++ " bytes"] ++
  (match assessment.volumeGroup with
    | none => []
    | some group => ["volume group " ++ group]) ++
  (if assessment.samplePaths = [] then []
    else ["e.g. " ++ ", ".intercalate assessment.samplePaths ++ (if 0 < more then " (+" ++ toString more ++ " more)" else "")]) ++
  (if assessment.pendingFilesOnCartridge = 0 then []
    else [toString assessment.pendingFilesOnCartridge ++ " write(s) still in flight to it"]) ++
  (if assessment.volumeGroupBarcodesWithData = [] then []
    else ["other cartridges in that group hold data too (" ++ ", ".intercalate assessment.volumeGroupBarcodesWithData ++
      "), so a striped file may lose a shard"])

def refusalMessage (assessment : ExportAssessment) : String :=
  "; ".intercalate assessment.refusalParts ++
    ". Exporting makes these unrestorable until the cartridge is imported again. Pass --force if that is what you mean."

/-- One archived instance: its bytes, and its path if the sample has room. -/
def addInstance (assessment : ExportAssessment) (instance_ : FileInstance) : JobM L ExportAssessment := do
  match ← getFileRecordById instance_.fileRecordId with
  | none => pure assessment
  | some record =>
    pure { assessment with
      bytesOnCartridge := assessment.bytesOnCartridge + record.sizeBytes
      samplePaths := if assessment.samplePaths.length < sampleLimit then assessment.samplePaths ++ [record.path]
        else assessment.samplePaths }

def addInstances (assessment : ExportAssessment) : List FileInstance → JobM L ExportAssessment
  | [] => pure assessment
  | instance_ :: instances => do
    let assessment ← assessment.addInstance instance_
    assessment.addInstances instances

end ExportAssessment

/-- The cartridges of the group, other than `barcode`, that hold archived instances. -/
def siblingsWithData (barcode : Barcode) (group : Nat) : List Cartridge → JobM L (List Barcode)
  | [] => pure []
  | sibling :: siblings =>
    if sibling.volumeGroupId = some group ∧ sibling.barcode ≠ barcode then do
      let instances ← listInstancesForBarcode sibling.barcode
      let rest ← siblingsWithData barcode group siblings
      pure (if instances.any fun row => row.state.isArchived then sibling.barcode :: rest else rest)
    else siblingsWithData barcode group siblings

/-- `assess_export`. -/
def assessExport (barcode : Barcode) : JobM L ExportAssessment := do
  let instances ← listInstancesForBarcode barcode
  let archived := instances.filter fun row => row.state.isArchived
  let assessment : ExportAssessment :=
    { barcode := barcode, archivedFilesOnCartridge := archived.length
      pendingFilesOnCartridge := (instances.filter fun row => row.state = .pending).length }
  let assessment ← assessment.addInstances archived
  match (← getCartridge barcode).bind Cartridge.volumeGroupId with
  | none => pure assessment
  | some group =>
    let groups ← listVolumeGroups
    let cartridges ← listCartridges
    let siblings ← siblingsWithData barcode group cartridges
    pure { assessment with
      volumeGroup := (groups.find? fun g => g.id = group).map VolumeGroup.name
      volumeGroupBarcodesWithData := siblings.insertionSort fun a b => a ≤ b }

/-- Assessing only looks at the catalog. -/
theorem looks_assessExport (barcode : Barcode) :
    Reads (fun o => (∃ o', o = .catalog o') ∧ o.isRead = true) (assessExport barcode : JobM L _) := by
  have hinstances : ∀ (rows : List FileInstance) (assessment : ExportAssessment),
      Reads (fun o => (∃ o', o = .catalog o') ∧ o.isRead = true) (assessment.addInstances rows : JobM L _) := by
    intro rows
    induction rows with
    | nil => exact fun assessment => only_pure _
    | cons row rows ih =>
      intro assessment
      refine only_bind (only_bind (only_perform ⟨⟨_, rfl⟩, rfl⟩) fun record => ?_) fun assessment => ih assessment
      cases record with
      | none => exact only_pure _
      | some record => exact only_pure _
  have hsiblings : ∀ (group : Nat) (cartridges : List Cartridge), 
      Reads (fun o => (∃ o', o = .catalog o') ∧ o.isRead = true) (siblingsWithData barcode group cartridges : JobM L _) := by
    intro group cartridges
    induction cartridges with
    | nil => exact only_pure _
    | cons sibling siblings ih =>
      refine only_ite (fun _ => ?_) fun _ => ih
      exact only_bind (only_perform ⟨⟨_, rfl⟩, rfl⟩) fun _ => only_bind ih fun _ => only_pure _
  refine only_bind (only_perform ⟨⟨_, rfl⟩, rfl⟩) fun instances => only_bind (hinstances _ _) fun assessment => ?_
  refine only_bind (only_perform ⟨⟨_, rfl⟩, rfl⟩) fun cartridge => ?_
  split
  · exact only_pure _
  · exact only_bind (only_perform ⟨⟨_, rfl⟩, rfl⟩) fun _ => only_bind (only_perform ⟨⟨_, rfl⟩, rfl⟩) fun _ => only_bind (hsiblings _ _) fun _ =>
      only_pure _

end OpenBlade
