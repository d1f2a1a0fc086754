import OpenBlade.Nas.ArchivedCopies
import OpenBlade.Nas.FileIdentity
import OpenBlade.Nas.IngestRun
import OpenBlade.Nas.LifecycleFrame
import OpenBlade.Nas.RestorePlan

/-!
# The sizes that an ingest records

An ingest of sources that stay as they are, to tapes that store and report exactly what they are given. A file is prepared with a size
of at least one byte, before any snapshot is captured, so that an empty file is recorded with one byte, and fails where the copy is
verified; `sizes_true_iff`: that is all that goes wrong.
-/

namespace OpenBlade

open Effects

/-- `_SourceSnapshot`. -/
structure SourceSnapshot where
  sizeBytes : Nat
  mtimeNs : Nat
  checksumSha256 : Option String
  deriving Repr, DecidableEq

/-- What a run reads of the source-stream configuration once `_preflight` has accepted the plan; `checksums` is whether
`source_change_detection` or `checksum_mode` asks for one. -/
structure StreamConfig where
  failOnSourceChange : Bool := true
  allowPartialDatasetSuccess : Bool := false
  checksums : Bool := false

/-- An ingest that `_preflight` accepts and nobody cancels. What its plan says of prepared files, of turns and of an interruption is
found out by the run. -/
structure SourceIngest where
  plan : DatasetIngest
  verifyAfterArchive : Bool
  sources : PurePosixPath → Option Bytes
  mtimeNs : PurePosixPath → Nat
  config : StreamConfig := {}
  preparedAt : String
  cachePath : String → Option String

namespace SourceIngest

variable (sha256 : Bytes → String) (names : String → DatasetName) (ingest : SourceIngest)

def sourcePath (relativePath : String) : String := resolveSourcePath ingest.plan.sourcePath relativePath

/-- The source of a file, if there is one. -/
def source (relativePath : String) : Option Bytes := ingest.sources (.ofString (ingest.sourcePath relativePath))

/-- `_read_source_bytes`. -/
def content (relativePath : String) : Bytes := readSourceBytes ingest.sources (ingest.sourcePath relativePath)

/-- `_resolve_size_bytes` of any ingest. -/
def resolveSizeBytes (relativePath : String) (assignment : TapeAssignment) : Nat :=
  match ingest.source relativePath with
  | some content => max 1 content.length
  | none =>
    if assignment.files ≠ [] ∧ 0 < assignment.estimatedBytes then max 1 (assignment.estimatedBytes.toNat / assignment.files.length)
    else if 0 < ingest.plan.totalFiles ∧ 0 < ingest.plan.totalBytes then max 1 (ingest.plan.totalBytes.toNat / ingest.plan.totalFiles)
    else 1024

/-- `_capture_snapshot`. -/
def captureSnapshot (relativePath : String) : Option SourceSnapshot :=
  (ingest.source relativePath).map fun content =>
    { sizeBytes := content.length
      mtimeNs := ingest.mtimeNs (.ofString (ingest.sourcePath relativePath))
      checksumSha256 := if ingest.config.checksums then some (sha256 content) else none }

/-- `_resolve_size_bytes` of a source-stream ingest. -/
def snapshotSizeBytes (snapshots : Dict String SourceSnapshot) (relativePath : String) (assignment : TapeAssignment) : Nat :=
  match snapshots.get? relativePath with
  | some snapshot => snapshot.sizeBytes
  | none => ingest.resolveSizeBytes relativePath assignment

/-- `_checksum_for_file`. -/
def checksumForFile (snapshots : Dict String SourceSnapshot) (relativePath : String) : String :=
  ((snapshots.get? relativePath).bind SourceSnapshot.checksumSha256).getD (sha256 (ingest.content relativePath))

/-- `_prepare_single_file`. -/
def prepareSingleFile (snapshots : Dict String SourceSnapshot) (relativePath : String) (assignment : TapeAssignment) : PreparedFile :=
  { relativePath := relativePath
    sourcePath := ingest.sourcePath relativePath
    sizeBytes := ingest.snapshotSizeBytes snapshots relativePath assignment
    checksumSha256 := ingest.checksumForFile sha256 snapshots relativePath
    mtime := ingest.preparedAt
    cachePath := ingest.cachePath relativePath }

/-- `_prepare_files`: `_preflight` captures the snapshots later, so there are none yet. -/
def prepared (relativePath : String) (barcode : Barcode) : PreparedFile :=
  ingest.prepareSingleFile sha256 [] relativePath
    ((ingest.plan.assignments.reverse.find? fun assignment => assignment.barcode = barcode ∧ relativePath ∈ assignment.files).getD
      { barcode := barcode, files := [] })

/-- The snapshots that `_preflight` captures. -/
def snapshots : Dict String SourceSnapshot :=
  if ingest.plan.mode = .sourceStream ∧ ingest.plan.sourcePath.getD "" ≠ "" then
    Dict.ofPairs (ingest.plan.files.filterMap fun file => (ingest.captureSnapshot sha256 file.2).map (file.2, ·))
  else []

/-- `_before_write_file`, which raises if the source has changed. -/
def sourceChanged (relativePath : String) : Bool :=
  ingest.config.failOnSourceChange && ((ingest.snapshots sha256).get? relativePath).any fun snapshot =>
    ingest.captureSnapshot sha256 relativePath ≠ some snapshot

/-- `_verify_tape_copy`, which raises if the copy is not as it was prepared. -/
def copyDiffers (prepared : PreparedFile) (content : Bytes) : Bool :=
  ingest.verifyAfterArchive && (sha256 content ≠ prepared.checksumSha256 || content.length ≠ prepared.sizeBytes)

/-- What happens to the file with a number. -/
def fileTurn (n : Nat) : FileTurn :=
  match ingest.plan.files[n]? with
  | none => { content := [] }
  | some (barcode, relativePath) =>
    { content := ingest.content relativePath
      fault :=
        if ingest.sourceChanged sha256 relativePath then .beforeWrite
        else if ingest.copyDiffers sha256 (ingest.prepared sha256 relativePath barcode) (ingest.content relativePath) then .afterWrite
        else .none
      choice := { (ingest.plan.turn n).choice with faults := fun _ => .none } }

/-- `_abort_on_file_error`: a source-stream ingest that is not to succeed in part ends with the first file that raises. -/
def abort : Option Interruption :=
  if ingest.plan.mode = .sourceStream ∧ ingest.config.allowPartialDatasetSuccess = false then
    ((List.range ingest.plan.files.length).find? fun n => (ingest.fileTurn sha256 n).fault ≠ .none).map fun n => .writing (n + 1)
  else none

/-- The run. -/
def toRun : DatasetIngest :=
  { ingest.plan with
    prepared := ingest.prepared sha256
    turn := ingest.fileTurn sha256
    interruption := ingest.abort sha256
    cancelled := false }

/-- The state after the ingest, from before it was started. -/
def after (w : LifecycleWorld) : LifecycleWorld := (ingest.toRun sha256).run sha256 names ((ingest.toRun sha256).start names w)

/-- One file, with `bytes_written`, to which the size of a processed file is added. -/
def countTurn (ids : Dict String String) (state : Nat × IngestProgress × LifecycleWorld) (file : (Barcode × String) × Nat) :
    Nat × IngestProgress × LifecycleWorld :=
  let next := (ingest.toRun sha256).ingestTurn sha256 names ids (ingest.fileTurn sha256 file.2) file.1 state.2
  (if next.1.filesProcessed = state.2.1.filesProcessed then state.1 else state.1 + (ingest.prepared sha256 file.1.2 file.1.1).sizeBytes, next)

/-- `bytes_written` of the job. -/
def bytesWritten (w : LifecycleWorld) : Nat :=
  let run := ingest.toRun sha256
  let started := run.start names w
  let ids := run.fileRecordIds started
  (run.reachedFiles.zipIdx.foldl (ingest.countTurn sha256 names ids) (0, {}, run.prepareFiles ids run.preparedFiles started)).1

/-- Every file is archived, and sizes and checksums are those of the sources. -/
structure SizesTrue (w : LifecycleWorld) : Prop where
  archived : ∀ file ∈ ingest.plan.files, ∃ record ∈ (ingest.after sha256 names w).cat.nas.listNasFileRecords ingest.plan.datasetId,
    record.relativePath = file.2 ∧ record.status = .offlineOnTape
  recorded : ∀ record ∈ (ingest.after sha256 names w).cat.nas.listNasFileRecords ingest.plan.datasetId,
    record.sizeBytes = (ingest.content record.relativePath).length ∧
      record.checksumSha256 = some (sha256 (ingest.content record.relativePath))
  counted : ingest.bytesWritten sha256 names w = (ingest.plan.files.map fun file => (ingest.content file.2).length).sum

end SourceIngest

namespace SizesAux

open ArchiveAux

section rows

variable {sha256 : Bytes → String} {ingest : SourceIngest} {nas : NasCatalog}

/-- A row is of a file of the plan, as the file was prepared, and archived only under a path that the index accepts. -/
structure RowTrue (sha256 : Bytes → String) (ingest : SourceIngest) (r : NasFileRecord) : Prop where
  file : ∃ barcode, (barcode, r.relativePath) ∈ ingest.plan.files
  size : r.sizeBytes = ((max 1 (ingest.content r.relativePath).length : ℕ) : ℤ)
  checksum : r.checksumSha256 = some (sha256 (ingest.content r.relativePath))
  path : r.status = .offlineOnTape → (validateLogicalPath r.relativePath).isSome

/-- The rows of the dataset are so. -/
def RowsTrue (sha256 : Bytes → String) (ingest : SourceIngest) (nas : NasCatalog) : Prop :=
  ∀ id r, nas.getNasFileRecord id = some r → r.datasetId = ingest.plan.datasetId → RowTrue sha256 ingest r

/-- A file has its row, which says that it is archived. -/
def Done (ingest : SourceIngest) (nas : NasCatalog) (path : String) : Prop :=
  ∃ r, nas.getNasFileRecord (ingest.plan.newId path) = some r ∧ r.datasetId = ingest.plan.datasetId ∧ r.relativePath = path ∧
    r.status = .offlineOnTape

theorem getNasFileRecord_upsert (record : NasFileRecord) (id : String) :
    (nas.upsertNasFileRecord record).getNasFileRecord id = if record.id = id then some record else nas.getNasFileRecord id :=
  Dict.get?_set _ _ _ _

theorem RowsTrue.upsert (h : RowsTrue sha256 ingest nas) {record : NasFileRecord} (hrecord : RowTrue sha256 ingest record) :
    RowsTrue sha256 ingest (nas.upsertNasFileRecord record) := by
  intro id r hr hdataset
  rw [getNasFileRecord_upsert] at hr
  split at hr
  · rw [← Option.some.inj hr]
    exact hrecord
  · exact h id r hr hdataset

/-- What marks a row as archived changes nothing else. -/
theorem getNasFileRecord_mark {id : String} {r : NasFileRecord} (other : String)
    (h : (nas.updateNasFileStatus other .offlineOnTape).2.getNasFileRecord id = some r) :
    nas.getNasFileRecord id = some r ∨
      ∃ r₀, nas.getNasFileRecord other = some r₀ ∧ nas.getNasFileRecord id = some r₀ ∧ r = { r₀ with status := .offlineOnTape } := by
  unfold NasCatalog.updateNasFileStatus at h
  cases hother : nas.getNasFileRecord other with
  | none =>
    rw [hother] at h
    exact .inl h
  | some r₀ =>
    rw [hother] at h
    dsimp only at h
    rw [getNasFileRecord_upsert] at h
    split at h
    · rename_i hid
      have hkey : r₀.id = other := NasCatalog.id_of_getNasFileRecord hother
      exact .inr ⟨r₀, rfl, by rw [← hid]; exact hkey ▸ hother, (Option.some.inj h).symm⟩
    · exact .inl h

theorem RowsTrue.mark (h : RowsTrue sha256 ingest nas) {id : String}
    (hpath : ∀ r, nas.getNasFileRecord id = some r → (validateLogicalPath r.relativePath).isSome) :
    RowsTrue sha256 ingest (nas.updateNasFileStatus id .offlineOnTape).2 := by
  intro id' r hr hdataset
  rcases getNasFileRecord_mark id hr with hr | ⟨r₀, hid, hr₀, rfl⟩
  · exact h id' r hr hdataset
  · have hrow := h id' r₀ hr₀ hdataset
    exact ⟨hrow.file, hrow.size, hrow.checksum, fun _ => hpath r₀ hid⟩

theorem Done.mark {path : String} (h : Done ingest nas path) (id : String) : Done ingest (nas.updateNasFileStatus id .offlineOnTape).2 path := by
  obtain ⟨r, hr, hdataset, hpath, hstatus⟩ := h
  unfold NasCatalog.updateNasFileStatus
  cases hother : nas.getNasFileRecord id with
  | none => exact ⟨r, hr, hdataset, hpath, hstatus⟩
  | some r₀ =>
    unfold Done
    dsimp only
    rw [getNasFileRecord_upsert]
    split
    · rename_i hid
      have hkey : r₀.id = id := NasCatalog.id_of_getNasFileRecord hother
      have hsame : r₀ = r := by
        have hr' : nas.getNasFileRecord (ingest.plan.newId path) = some r₀ := by rw [← hid]; exact hkey ▸ hother
        exact Option.some.inj (hr'.symm.trans hr)
      rw [hsame]
      exact ⟨_, rfl, hdataset, hpath, rfl⟩
    · exact ⟨r, hr, hdataset, hpath, hstatus⟩

theorem nas_of_map {α : Type} {found : Option α} {f : α → Bool × LifecycleWorld} {ok : Bool} {w w' : LifecycleWorld}
    (hf : ∀ a, (f a).2.cat.nas = w.cat.nas) (h : found.map f = some (ok, w')) : w'.cat.nas = w.cat.nas := by
  obtain ⟨a, -, ha⟩ := Option.map_eq_some_iff.1 h
  have hnas := hf a
  rwa [ha] at hnas

/-- A path that the step on the index gets past is accepted. -/
theorem validate_of_mappingStep {record : NasFileRecord} {b : Barcode} {w w' : LifecycleWorld} {ok : Bool}
    (hstep : stepUpdatePathMapping record b w = some (ok, w')) : (validateLogicalPath record.relativePath).isSome := by
  obtain ⟨mapping, hvalid, -⟩ := Option.map_eq_some_iff.1 hstep
  obtain ⟨path, hpath, -⟩ := Option.map_eq_some_iff.1 hvalid
  exact Option.isSome_iff_exists.2 ⟨path, hpath⟩

/-- What the archive of a file does to the catalog: nothing, or it marks the row of the file, whose path is accepted then. -/
theorem nas_completeFileArchive (sha256 : Bytes → String) (record : NasFileRecord) (b : Barcode) (tapePath policyName : String)
    (choice : LifecycleChoice) (w : LifecycleWorld) :
    ((completeFileArchive sha256 record b tapePath policyName choice w).2.cat.nas = w.cat.nas ∨
        ((completeFileArchive sha256 record b tapePath policyName choice w).2.cat.nas =
          (w.cat.nas.updateNasFileStatus record.id .offlineOnTape).2 ∧ (validateLogicalPath record.relativePath).isSome)) ∧
      ((completeFileArchive sha256 record b tapePath policyName choice w).1.success = true →
        ∃ r, (completeFileArchive sha256 record b tapePath policyName choice w).2.cat.nas.getNasFileRecord record.id = some r ∧
          r.status = .offlineOnTape) := by
  let marked (w' : LifecycleWorld) : Prop :=
    w'.cat.nas = (w.cat.nas.updateNasFileStatus record.id .offlineOnTape).2 ∧ (validateLogicalPath record.relativePath).isSome
  let accepted (w' : LifecycleWorld) : Prop := w'.cat.nas = w.cat.nas ∧ (validateLogicalPath record.relativePath).isSome
  have hsteps : StepsKeep (fun w' => w'.cat.nas = w.cat.nas ∨ marked w')
      (fun w' => ∃ r, w'.cat.nas.getNasFileRecord record.id = some r ∧ r.status = .offlineOnTape)
      (fun w' => w'.cat.nas = w.cat.nas) (lifecycleSteps sha256 record b tapePath policyName choice) := by
    have hkept {w' w'' : LifecycleWorld} {ok : Bool} (h : w'.cat.nas = w.cat.nas) (hstep : w''.cat.nas = w'.cat.nas) :
        (w''.cat.nas = w.cat.nas ∨ marked w'') ∧ (ok = true → w''.cat.nas = w.cat.nas) :=
      ⟨.inl (hstep.trans h), fun _ => hstep.trans h⟩
    refine ⟨fun w' h => .inl h, _, fun w' h ok w'' hstep => hkept h ?verify,
      fun w' h => .inl h, _, fun w' h ok w'' hstep => hkept h (nas_of_map (fun _ => rfl) hstep),
      fun w' h => .inl h, _, fun w' h ok w'' hstep => hkept h (nas_of_map (fun _ => rfl) hstep),
      fun w' h => .inl h, accepted, fun w' h ok w'' hstep => ?mapping,
      fun w' h => .inl h.1, accepted, fun w' h ok w'' hstep => ?tapeJson,
      fun w' h => .inl h.1, fun w' => (w'.cat.nas = w.cat.nas ∨ marked w') ∧
        ∃ r, w'.cat.nas.getNasFileRecord record.id = some r ∧ r.status = .offlineOnTape,
      fun w' h ok w'' hstep => ?mark, fun w' h => h⟩
    case verify => rw [LifecycleAux.verifyStep_eq hstep]
    case mapping =>
      obtain ⟨mapping, -, -, -, -, hw⟩ := mappingStep_eq hstep
      have hnas : w''.cat.nas = w.cat.nas := by
        rw [hw]
        exact h
      exact ⟨.inl hnas, fun _ => ⟨hnas, validate_of_mappingStep hstep⟩⟩
    case tapeJson =>
      have hnas : w''.cat.nas = w.cat.nas := by
        rw [← (Prod.mk.inj (Option.some.inj hstep)).2, LifecycleWorld.setTape_cat]
        exact h.1
      exact ⟨.inl hnas, fun _ => ⟨hnas, h.2⟩⟩
    case mark =>
      have hmark : marked w'' := ⟨by rw [markStep_eq hstep, h.1], h.2⟩
      exact ⟨.inr hmark, fun hok => ⟨.inr hmark, marked_of_ok hstep hok⟩⟩
  unfold completeFileArchive
  exact runSteps_keeps hsteps record _ rfl rfl

/-- An archive that succeeds marks the row of its record. -/
theorem marked_of_success {record : NasFileRecord} {b : Barcode} {tapePath policyName : String} {choice : LifecycleChoice} {w : LifecycleWorld}
    (hrow : w.cat.nas.getNasFileRecord record.id = some record) (hstatus : record.status ≠ .offlineOnTape)
    (hsuccess : (completeFileArchive sha256 record b tapePath policyName choice w).1.success = true) :
    (completeFileArchive sha256 record b tapePath policyName choice w).2.cat.nas.getNasFileRecord record.id =
      some { record with status := .offlineOnTape } := by
  obtain ⟨hmarked, hfound⟩ := nas_completeFileArchive sha256 record b tapePath policyName choice w
  obtain ⟨r, hr, hoffline⟩ := hfound hsuccess
  have hunmarked : w.cat.nas.getNasFileRecord record.id ≠ some r := by
    intro hold
    rw [hrow] at hold
    exact hstatus (Option.some.inj hold ▸ hoffline)
  rcases hmarked with hnas | ⟨hnas, -⟩
  · rw [hnas] at hr
    exact absurd hr hunmarked
  · rw [hnas] at hr ⊢
    rcases getNasFileRecord_mark _ hr with hold | ⟨r₀, -, hold, rfl⟩
    · exact absurd hold hunmarked
    · rw [hr, Option.some.inj (hold.symm.trans hrow)]

end rows

/-! ### The run -/

section run

variable {sha256 : Bytes → String} {names : String → DatasetName} {ingest : SourceIngest}

theorem content_of_source {path : String} {content : Bytes} (h : ingest.source path = some content) : ingest.content path = content := by
  unfold SourceIngest.content readSourceBytes
  unfold SourceIngest.source at h
  rw [h, Option.getD_some]

/-- What a file of which there is a source is prepared with. -/
theorem prepared_eq {path : String} (hsource : (ingest.source path).isSome) (barcode : Barcode) :
    (ingest.prepared sha256 path barcode).sizeBytes = max 1 (ingest.content path).length ∧
      (ingest.prepared sha256 path barcode).checksumSha256 = sha256 (ingest.content path) := by
  obtain ⟨content, hcontent⟩ := Option.isSome_iff_exists.1 hsource
  refine ⟨?_, rfl⟩
  show ingest.resolveSizeBytes path _ = _
  unfold SourceIngest.resolveSizeBytes
  rw [hcontent, content_of_source hcontent]

/-- Sources that stay as they are have not changed. -/
theorem not_sourceChanged (path : String) : ingest.sourceChanged sha256 path = false := by
  unfold SourceIngest.sourceChanged
  cases hget : (ingest.snapshots sha256).get? path with
  | none => simp
  | some snapshot =>
    have hcapture : ingest.captureSnapshot sha256 path = some snapshot := by
      have hmem := Dict.mem_of_get? hget
      unfold SourceIngest.snapshots at hmem
      split at hmem
      · obtain ⟨file, -, hfile⟩ := List.mem_filterMap.1 (Dict.mem_of_mem_ofPairs hmem)
        obtain ⟨snapshot', hsnapshot, hpair⟩ := Option.map_eq_some_iff.1 hfile
        obtain ⟨rfl, rfl⟩ := Prod.mk.inj hpair
        exact hsnapshot
      · cases hmem
    simp [hcapture]

/-- The copy of a file that is not empty is as it was prepared. -/
theorem not_copyDiffers {path : String} (hsource : (ingest.source path).isSome) (hne : ingest.content path ≠ []) (barcode : Barcode) :
    ingest.copyDiffers sha256 (ingest.prepared sha256 path barcode) (ingest.content path) = false := by
  have hlength : max 1 (ingest.content path).length = (ingest.content path).length := max_eq_right (List.length_pos_iff.2 hne)
  unfold SourceIngest.copyDiffers
  rw [(prepared_eq hsource barcode).1, (prepared_eq hsource barcode).2, hlength]
  simp

/-- What holds of the catalog from file to file. -/
structure Kept (sha256 : Bytes → String) (ingest : SourceIngest) (nas : NasCatalog) : Prop where
  dataset : ∃ dataset, nas.getNasDataset ingest.plan.datasetId = some dataset
  rows : RowsTrue sha256 ingest nas

/-- Every file of the plan has a source. -/
def Sourced (ingest : SourceIngest) : Prop := ∀ file ∈ ingest.plan.files, (ingest.source file.2).isSome

theorem Kept.upsert {nas : NasCatalog} (h : Kept sha256 ingest nas) (hsources : Sourced ingest) {path : String} {barcode : Barcode}
    (hfile : (barcode, path) ∈ ingest.plan.files) (ids : Dict String String) (tapeBarcode : Option Barcode) {status : NasFileState}
    (hstatus : status ≠ .offlineOnTape) :
    Kept sha256 ingest (nas.upsertNasFileRecord ((ingest.toRun sha256).fileRecord ids barcode path tapeBarcode status)) := by
  refine ⟨h.dataset, h.rows.upsert ⟨⟨barcode, hfile⟩, ?_, ?_, fun hoffline => absurd hoffline hstatus⟩⟩
  · exact congrArg Nat.cast (prepared_eq (hsources _ hfile) barcode).1
  · exact congrArg some (prepared_eq (hsources _ hfile) barcode).2

theorem getNasDataset_mark {nas : NasCatalog} (id : String) (status : NasFileState) (datasetId : String) :
    (nas.updateNasFileStatus id status).2.getNasDataset datasetId = nas.getNasDataset datasetId := by
  unfold NasCatalog.updateNasFileStatus
  cases nas.getNasFileRecord id <;> rfl

/-- The row that is marked, if there is one, is that of a record. -/
def RowOf (nas : NasCatalog) (record : NasFileRecord) : Prop := ∀ r, nas.getNasFileRecord record.id = some r → r.relativePath = record.relativePath

/-- What keeps a property of the catalog from file to file: marking a row does, for a record whose path is accepted. -/
def KeptByMark (P : NasCatalog → Prop) : Prop :=
  ∀ nas record, P nas → RowOf nas record → (validateLogicalPath record.relativePath).isSome →
    P (nas.updateNasFileStatus record.id .offlineOnTape).2

theorem keptByMark_kept : KeptByMark (Kept sha256 ingest) := by
  intro nas record h hrow hpath
  refine ⟨?_, h.rows.mark fun r hr => ?_⟩
  · rw [getNasDataset_mark]
    exact h.dataset
  · rw [hrow r hr]
    exact hpath

theorem keptByMark_done (path : String) : KeptByMark (Done ingest · path) := fun _ record h _ _ => h.mark record.id

variable (sha256) in
/-- What marking a row keeps, the archive of a file keeps. -/
theorem KeptByMark.completeFileArchive {P : NasCatalog → Prop} (hmark : KeptByMark P) {w : LifecycleWorld} (h : P w.cat.nas)
    {record : NasFileRecord} (hrow : RowOf w.cat.nas record) (b : Barcode) (tapePath policyName : String) (choice : LifecycleChoice) :
    P (completeFileArchive sha256 record b tapePath policyName choice w).2.cat.nas := by
  rcases (nas_completeFileArchive sha256 record b tapePath policyName choice w).1 with hnas | ⟨hnas, hpath⟩ <;> rw [hnas]
  · exact h
  · exact hmark _ _ h hrow hpath

/-- A row that was just written is that of its record. -/
theorem rowOf_upsert (nas : NasCatalog) (record : NasFileRecord) : RowOf (nas.upsertNasFileRecord record) record := by
  intro r hr
  rw [getNasFileRecord_upsert, if_pos rfl] at hr
  rw [← Option.some.inj hr]

theorem rowOf_currentRecord (w : LifecycleWorld) (record : NasFileRecord) : RowOf w.cat.nas (currentRecord w record) := by
  intro r hr
  unfold currentRecord at hr ⊢
  cases hget : w.cat.nas.getNasFileRecord record.id with
  | none =>
    rw [hget, Option.getD_none, hget] at hr
    nomatch hr
  | some current =>
    rw [hget, Option.getD_some, NasCatalog.id_of_getNasFileRecord hget, hget] at hr
    rw [Option.getD_some, Option.some.inj hr]

variable (names) in
theorem kept_ingestTurn (hsources : Sourced ingest) {file : Barcode × String} (hfile : file ∈ ingest.plan.files) (ids : Dict String String)
    (turn : FileTurn) {state : IngestProgress × LifecycleWorld} (h : Kept sha256 ingest state.2.cat.nas) :
    Kept sha256 ingest ((ingest.toRun sha256).ingestTurn sha256 names ids turn file state).2.cat.nas := by
  obtain ⟨barcode, path⟩ := file
  obtain ⟨progress, w⟩ := state
  unfold DatasetIngest.ingestTurn
  dsimp only
  split
  · exact h.upsert hsources hfile ids _ (by decide)
  · exact h.upsert hsources hfile ids _ (by decide)
  · have harchive := (@keptByMark_kept sha256 ingest).completeFileArchive sha256
      (w := DatasetIngest.upsertFileRecord ((ingest.toRun sha256).fileRecord ids barcode path (some barcode) .onlineCached)
        ((ingest.toRun sha256).writeData names barcode path turn.content w))
      (h.upsert hsources hfile ids (some barcode) (by decide)) (rowOf_upsert _ _)
    split
    · exact harchive _ _ _ _
    · exact (harchive _ _ _ _).upsert hsources hfile ids _ (by decide)

theorem kept_writeFiles (hsources : Sourced ingest) {ids : Dict String String} {reached : List (Barcode × String)}
    (hreached : ∀ file ∈ reached, file ∈ ingest.plan.files) {w : LifecycleWorld} (h : Kept sha256 ingest w.cat.nas) :
    Kept sha256 ingest ((ingest.toRun sha256).writeFiles sha256 names ids reached w).2.cat.nas := by
  unfold DatasetIngest.writeFiles
  have hmem : ∀ file ∈ reached.zipIdx, file.1 ∈ ingest.plan.files := fun file hfile => hreached _ (List.fst_mem_of_mem_zipIdx hfile)
  generalize reached.zipIdx = files at hmem
  have hstart : Kept sha256 ingest (({}, w) : IngestProgress × LifecycleWorld).2.cat.nas := h
  generalize (({}, w) : IngestProgress × LifecycleWorld) = state at hstart
  induction files generalizing state with
  | nil => exact hstart
  | cons file files ih =>
    rw [List.foldl_cons]
    exact ih (fun f hf => hmem f (List.mem_cons_of_mem _ hf)) _ (kept_ingestTurn names hsources (hmem file List.mem_cons_self) ids _ hstart)

theorem kept_initializeRecords (hsources : Sourced ingest) {ids : Dict String String} {files : List (Barcode × String)}
    (hfiles : ∀ file ∈ files, file ∈ ingest.plan.files) (initialized : List String) {w : LifecycleWorld} (h : Kept sha256 ingest w.cat.nas) :
    Kept sha256 ingest ((ingest.toRun sha256).initializeRecords ids initialized w files).cat.nas := by
  induction files generalizing initialized w with
  | nil => exact h
  | cons file files ih =>
    obtain ⟨barcode, path⟩ := file
    unfold DatasetIngest.initializeRecords
    have hrest := fun f hf => hfiles f (List.mem_cons_of_mem _ hf)
    split
    · exact ih hrest _ h
    · exact ih hrest _ (h.upsert hsources (hfiles _ List.mem_cons_self) ids _ (by decide))

/-! ### Files that are not empty -/

/-- Every file of the plan has a source that is not empty, a path that the index accepts and an id of its own. -/
structure Clean (ingest : SourceIngest) : Prop where
  source : Sourced ingest
  nonempty : ∀ file ∈ ingest.plan.files, ingest.content file.2 ≠ []
  path : ∀ file ∈ ingest.plan.files, (validateLogicalPath file.2).isSome
  ids : ∀ file ∈ ingest.plan.files, ∀ other ∈ ingest.plan.files, ingest.plan.newId file.2 = ingest.plan.newId other.2 → file.2 = other.2

theorem Clean.fileTurn_eq (hclean : Clean ingest) {n : Nat} {barcode : Barcode} {path : String}
    (hfile : ingest.plan.files[n]? = some (barcode, path)) :
    ingest.fileTurn sha256 n =
      { content := ingest.content path, fault := .none, choice := { (ingest.plan.turn n).choice with faults := fun _ => .none } } := by
  unfold SourceIngest.fileTurn
  rw [hfile]
  dsimp only
  have hmem := List.mem_of_getElem? hfile
  rw [not_sourceChanged, not_copyDiffers (hclean.source _ hmem) (hclean.nonempty _ hmem), if_neg Bool.false_ne_true, if_neg Bool.false_ne_true]

theorem Done.upsert {nas : NasCatalog} {other : String} (h : Done ingest nas other) {record : NasFileRecord}
    (hid : record.id ≠ ingest.plan.newId other) : Done ingest (nas.upsertNasFileRecord record) other := by
  unfold Done at h ⊢
  rwa [getNasFileRecord_upsert, if_neg hid]

variable (names) in
/-- A file that is not empty is archived, and no other file loses its row. -/
theorem Clean.ingestTurn (hclean : Clean ingest) {n : Nat} {barcode : Barcode} {path : String}
    (hfile : ingest.plan.files[n]? = some (barcode, path)) {state : IngestProgress × LifecycleWorld} (h : Kept sha256 ingest state.2.cat.nas) :
    let next := (ingest.toRun sha256).ingestTurn sha256 names [] (ingest.fileTurn sha256 n) (barcode, path) state
    next.1.filesProcessed = state.1.filesProcessed + 1 ∧ Done ingest next.2.cat.nas path ∧
      ∀ file ∈ ingest.plan.files, Done ingest state.2.cat.nas file.2 → Done ingest next.2.cat.nas file.2 := by
  intro next
  obtain ⟨progress, w⟩ := state
  let choice : LifecycleChoice := { (ingest.plan.turn n).choice with faults := fun _ => .none }
  have hfaults : ∀ name, choice.faults name = .none := fun _ => rfl
  have hnext : next = (ingest.toRun sha256).ingestTurn sha256 names [] (ingest.fileTurn sha256 n) (barcode, path) (progress, w) := rfl
  rw [hclean.fileTurn_eq hfile] at hnext
  unfold DatasetIngest.ingestTurn at hnext
  dsimp only at hnext
  set record := (ingest.toRun sha256).fileRecord [] barcode path (some barcode) .onlineCached with hrecord
  set tapePath := datasetTapePath (names (ingest.toRun sha256).datasetId).text path with htapePath
  set written := DatasetIngest.upsertFileRecord record ((ingest.toRun sha256).writeData names barcode path (ingest.content path) w) with hwritten
  have hrow : written.cat.nas.getNasFileRecord (ingest.plan.newId path) = some record :=
    (getNasFileRecord_upsert record _).trans (if_pos rfl)
  have hdata : (written.tapes barcode).contents.get? tapePath =
      some { datasetId := ingest.plan.datasetId, relativePath := path, content := ingest.content path } := by
    have htapes : written.tapes barcode = ((ingest.toRun sha256).writeData names barcode path (ingest.content path) w).tapes barcode := rfl
    rw [htapes]
    unfold DatasetIngest.writeData
    rw [LifecycleWorld.setTape_tapes_self]
    exact (Dict.get?_set _ _ _ _).trans (if_pos rfl)
  have hrows : RowsThere record written := ⟨h.dataset, record, hrow⟩
  have hchecksum : record.checksumSha256.getD "" = "" ∨ sha256 (ingest.content path) = record.checksumSha256.getD "" := .inr rfl
  have hpath := hclean.path _ (List.mem_of_getElem? hfile)
  have hsuccess := completeFileArchive_success hdata hchecksum hpath hrows ((ingest.toRun sha256).policyName.getD "") hfaults
  have hcached : record.status ≠ .offlineOnTape := NasFileState.noConfusion
  have hmarked := marked_of_success hrow hcached hsuccess
  rw [if_pos hsuccess] at hnext
  have hdone : Done ingest next.2.cat.nas path := by
    rw [hnext]
    exact ⟨_, hmarked, rfl, rfl, rfl⟩
  refine ⟨?_, hdone, fun file hmem hother => ?_⟩
  · rw [hnext]
  · by_cases hsame : file.2 = path
    · rw [hsame]
      exact hdone
    · have hwritten' : Done ingest written.cat.nas file.2 :=
        Done.upsert hother fun hid => hsame (hclean.ids _ (List.mem_of_getElem? hfile) _ hmem hid).symm
      rw [hnext]
      exact (keptByMark_done file.2).completeFileArchive sha256 hwritten' (rowOf_upsert _ _) _ _ _ _

variable (names) in
/-- Files that are not empty: the bytes are counted, and every file is archived. -/
theorem Clean.countTurns (hclean : Clean ingest) {files : List ((Barcode × String) × Nat)}
    (hfiles : ∀ file ∈ files, ingest.plan.files[file.2]? = some file.1) {state : Nat × IngestProgress × LifecycleWorld}
    (h : Kept sha256 ingest state.2.2.cat.nas) :
    let final := files.foldl (ingest.countTurn sha256 names []) state
    final.1 = state.1 + (files.map fun file => (ingest.content file.1.2).length).sum ∧
      (∀ file ∈ files, Done ingest final.2.2.cat.nas file.1.2) ∧
      ∀ file ∈ ingest.plan.files, Done ingest state.2.2.cat.nas file.2 → Done ingest final.2.2.cat.nas file.2 := by
  induction files generalizing state with
  | nil => exact ⟨rfl, fun _ hfile => absurd hfile List.not_mem_nil, fun _ _ hdone => hdone⟩
  | cons file files ih =>
    obtain ⟨⟨barcode, path⟩, n⟩ := file
    have hfile : ingest.plan.files[n]? = some (barcode, path) := hfiles _ List.mem_cons_self
    have hmem : (barcode, path) ∈ ingest.plan.files := List.mem_of_getElem? hfile
    obtain ⟨hcount, hdone, hothers⟩ := hclean.ingestTurn names hfile h
    set next := ingest.countTurn sha256 names [] state ((barcode, path), n) with hnext
    have hkept : Kept sha256 ingest next.2.2.cat.nas :=
      kept_ingestTurn names hclean.source hmem [] (ingest.fileTurn sha256 n) h
    have hbytes : next.1 = state.1 + (ingest.content path).length := by
      rw [hnext]
      unfold SourceIngest.countTurn
      dsimp only
      rw [if_neg (by omega), (prepared_eq (hclean.source _ hmem) barcode).1, max_eq_right (List.length_pos_iff.2 (hclean.nonempty _ hmem))]
    obtain ⟨hsum, hrest, hold⟩ := ih (fun f hf => hfiles f (List.mem_cons_of_mem _ hf)) hkept
    rw [List.foldl_cons]
    refine ⟨?_, fun f hf => ?_, fun f hf hprevious => hold f hf (hothers f hf hprevious)⟩
    · rw [hsum, hbytes, List.map_cons, List.sum_cons, Nat.add_assoc]
    · rcases List.mem_cons.1 hf with rfl | hf
      · exact hold _ hmem hdone
      · exact hrest f hf

/-- Counting changes nothing of what is counted. -/
theorem writeFiles_eq (ids : Dict String String) (files : List (Barcode × String)) (w : LifecycleWorld) :
    (ingest.toRun sha256).writeFiles sha256 names ids files w =
      (files.zipIdx.foldl (ingest.countTurn sha256 names ids) (0, {}, w)).2 :=
  @List.foldl_hom _ _ _ Prod.snd (ingest.countTurn sha256 names ids)
    (fun state file => (ingest.toRun sha256).ingestTurn sha256 names ids (ingest.fileTurn sha256 file.2) file.1 state) files.zipIdx (0, {}, w)
    fun _ _ => rfl

/-- Nothing ends such a run early. -/
theorem Clean.abort_eq (hclean : Clean ingest) : ingest.abort sha256 = none := by
  unfold SourceIngest.abort
  split
  · have hnone : (List.range ingest.plan.files.length).find? (fun n => (ingest.fileTurn sha256 n).fault ≠ .none) = none := by
      refine List.find?_eq_none.2 fun n hn => ?_
      have hfile := List.getElem?_eq_getElem (List.mem_range.1 hn)
      rw [hclean.fileTurn_eq hfile]
      simp
    rw [hnone, Option.map_none]
  · rfl

/-! ### What comes after the files -/

/-- What holds of the catalog when the files are written holds when the run has ended. -/
theorem keeps_run {P : NasCatalog → Prop} (hmark : KeptByMark P) (hdataset : ∀ nas dataset, P nas → P (nas.upsertNasDataset dataset))
    {run : DatasetIngest} {w : LifecycleWorld}
    (h : P (run.writeFiles sha256 names (run.fileRecordIds w) run.reachedFiles
      (run.prepareFiles (run.fileRecordIds w) run.preparedFiles w)).2.cat.nas) : P (run.run sha256 names w).cat.nas := by
  have hsetStatus : ∀ nas id status, P nas → P (nas.setDatasetStatus id status) := by
    intro nas id status hnas
    unfold NasCatalog.setDatasetStatus
    split
    · exact hnas
    · exact hdataset _ _ hnas
  have hfiles (tapePaths : Dict String String) (policyName : String) (records : List NasFileRecord) (result : DatasetArchiveResult)
      {w : LifecycleWorld} (hw : P w.cat.nas) :
      P (archiveDatasetFiles sha256 "" tapePaths policyName run.choices records (result, w)).2.cat.nas := by
    refine archiveDatasetFiles_keeps sha256 "" tapePaths policyName run.choices (J := fun w => P w.cat.nas) (fun record _ w hw => ?_) result hw
    rcases archiveDatasetFile_cases sha256 "" tapePaths policyName record (run.choices record.id) w with hsame | ⟨tapePath, -, -, harchive⟩
    · rwa [hsame]
    · rw [harchive]
      exact hmark.completeFileArchive sha256 hw (rowOf_currentRecord w record) _ _ _ _
  have hfinal : ∀ progress marked nas, P nas → P (run.finalizeJob progress marked nas) := by
    intro progress marked nas hnas
    have hfailed := hsetStatus nas run.datasetId .failed hnas
    unfold DatasetIngest.finalizeJob
    split
    · exact hfailed
    · split
      · unfold DatasetIngest.markDatasetArchived
        split
        · exact hnas
        · exact hdataset _ _ hnas
      · split
        · exact hfailed
        · exact hnas
  unfold DatasetIngest.run
  dsimp only
  split
  · exact hsetStatus _ _ _ h
  · exact hsetStatus _ _ _ h
  · exact hsetStatus _ _ _ (hfiles _ _ _ _ h)
  · refine hfinal _ _ _ ?_
    rcases completeDatasetArchive_cases sha256 run.datasetId _ "" _ _ run.choices _ with hsame | ⟨dataset, -, harchived⟩
    · rw [hsame]
      exact hfiles _ _ _ _ h
    · rw [harchived]
      exact hdataset _ _ (hfiles _ _ _ _ h)

end run

/-! ### An ingest of a new dataset -/

section start

variable {sha256 : Bytes → String} {names : String → DatasetName} {ingest : SourceIngest} {w : LifecycleWorld}

theorem get_of_listed {nas : NasCatalog} {datasetId : String} {r : NasFileRecord} (h : r ∈ nas.listNasFileRecords datasetId) :
    nas.getNasFileRecord r.id = some r ∧ r.datasetId = datasetId := by
  obtain ⟨hmem, hdataset⟩ := NasCatalog.mem_listNasFileRecords.1 h
  obtain ⟨⟨id, found⟩, hrow, rfl⟩ := List.mem_map.1 hmem
  refine ⟨?_, hdataset⟩
  rw [show found.id = id from nas.keyedFiles _ hrow]
  exact Dict.get?_of_mem nas.nodupFiles hrow

theorem listed_of_get {nas : NasCatalog} {id : String} {r : NasFileRecord} (h : nas.getNasFileRecord id = some r) :
    r ∈ nas.listNasFileRecords r.datasetId :=
  NasCatalog.mem_listNasFileRecords.2 ⟨List.mem_map.2 ⟨(id, r), Dict.mem_of_get? h, rfl⟩, rfl⟩

variable (sha256 names) in
theorem kept_start (hnew : w.cat.nas.listNasFileRecords ingest.plan.datasetId = []) :
    Kept sha256 ingest ((ingest.toRun sha256).start names w).cat.nas where
  dataset := ⟨_, (Dict.get?_set _ _ _ _).trans (if_pos rfl)⟩
  rows id r hr hdataset := by
    have hlisted : r ∈ w.cat.nas.listNasFileRecords r.datasetId := @listed_of_get _ id r hr
    rw [hdataset, hnew] at hlisted
    nomatch hlisted

/-- A new dataset has no row. -/
theorem fileRecordIds_start (hnew : w.cat.nas.listNasFileRecords ingest.plan.datasetId = []) :
    (ingest.toRun sha256).fileRecordIds ((ingest.toRun sha256).start names w) = [] := by
  have hlist : ((ingest.toRun sha256).start names w).cat.nas.listNasFileRecords ingest.plan.datasetId = [] := hnew
  unfold DatasetIngest.fileRecordIds
  rw [show (ingest.toRun sha256).datasetId = ingest.plan.datasetId from rfl, hlist]
  rfl

theorem mem_of_reached : ∀ file ∈ (ingest.toRun sha256).reachedFiles, file ∈ ingest.plan.files := by
  intro file hfile
  unfold DatasetIngest.reachedFiles at hfile
  split at hfile
  · nomatch hfile
  · exact List.mem_of_mem_take hfile
  · exact hfile

theorem mem_of_prepared : ∀ file ∈ (ingest.toRun sha256).preparedFiles, file ∈ ingest.plan.files := by
  intro file hfile
  unfold DatasetIngest.preparedFiles at hfile
  split at hfile
  · exact List.mem_of_mem_take hfile
  · exact hfile

theorem kept_prepareFiles (hsources : Sourced ingest) (ids : Dict String String) {w : LifecycleWorld} (h : Kept sha256 ingest w.cat.nas) :
    Kept sha256 ingest ((ingest.toRun sha256).prepareFiles ids (ingest.toRun sha256).preparedFiles w).cat.nas := by
  unfold DatasetIngest.prepareFiles
  split
  · exact kept_initializeRecords hsources mem_of_prepared _ h
  · exact h

/-- The rows that a run ends with are as their files were prepared. -/
theorem rowsTrue_after (hsources : Sourced ingest) (hnew : w.cat.nas.listNasFileRecords ingest.plan.datasetId = []) :
    RowsTrue sha256 ingest (ingest.after sha256 names w).cat.nas := by
  refine keeps_run (P := RowsTrue sha256 ingest) (fun nas record h hrow hpath => h.mark fun r hr => ?_) (fun _ _ h => h) ?_
  · rw [hrow r hr]
    exact hpath
  · exact (kept_writeFiles hsources mem_of_reached (kept_prepareFiles hsources _ (kept_start sha256 names hnew))).rows

theorem Clean.reachedFiles_eq (hclean : Clean ingest) : (ingest.toRun sha256).reachedFiles = ingest.plan.files := by
  have hnone : (ingest.toRun sha256).interruption = none := hclean.abort_eq
  unfold DatasetIngest.reachedFiles
  rw [hnone]
  rfl

variable (names) in
/-- The files of a run that ends well are archived, and counted. -/
theorem Clean.after (hclean : Clean ingest) (hnew : w.cat.nas.listNasFileRecords ingest.plan.datasetId = []) :
    (∀ file ∈ ingest.plan.files, Done ingest (ingest.after sha256 names w).cat.nas file.2) ∧
      ingest.bytesWritten sha256 names w = (ingest.plan.files.map fun file => (ingest.content file.2).length).sum := by
  set started := (ingest.toRun sha256).start names w with hstarted
  set prepared := (ingest.toRun sha256).prepareFiles [] (ingest.toRun sha256).preparedFiles started with hprepared
  have hkept : Kept sha256 ingest prepared.cat.nas := kept_prepareFiles hclean.source [] (kept_start sha256 names hnew)
  have hfiles : ∀ file ∈ ingest.plan.files.zipIdx, ingest.plan.files[file.2]? = some file.1 :=
    fun file hfile => List.mem_zipIdx_iff_getElem?.1 hfile
  have hstart : Kept sha256 ingest ((0, {}, prepared) : Nat × IngestProgress × LifecycleWorld).2.2.cat.nas := hkept
  obtain ⟨hbytes, hdone, -⟩ := hclean.countTurns names hfiles hstart
  refine ⟨fun file hfile => ?_, ?_⟩
  · refine keeps_run (P := fun nas => Done ingest nas file.2) (keptByMark_done file.2) (fun _ _ h => h) ?_
    rw [fileRecordIds_start hnew, hclean.reachedFiles_eq, writeFiles_eq]
    obtain ⟨n, hn⟩ := List.mem_iff_getElem?.1 hfile
    exact hdone (file, n) (List.mem_zipIdx_iff_getElem?.2 hn)
  · unfold SourceIngest.bytesWritten
    dsimp only
    rw [fileRecordIds_start hnew, hclean.reachedFiles_eq, hbytes, Nat.zero_add]
    have hfst : ingest.plan.files.zipIdx.map (fun file => (ingest.content file.1.2).length) =
        (ingest.plan.files.zipIdx.map Prod.fst).map fun file => (ingest.content file.2).length := by
      rw [List.map_map]
      rfl
    rw [hfst, List.zipIdx_map_fst]

end start

end SizesAux

open SizesAux in
/-- Where every file has a source, in a new dataset, sizes are true exactly where no source is empty and the index accepts every path. -/
theorem sizes_true_iff (sha256 : Bytes → String) (names : String → DatasetName) (ingest : SourceIngest) (w : LifecycleWorld)
    (hsources : ∀ file ∈ ingest.plan.files, (ingest.source file.2).isSome)
    (hnew : w.cat.nas.listNasFileRecords ingest.plan.datasetId = [])
    (hids : ∀ file ∈ ingest.plan.files, ∀ other ∈ ingest.plan.files, ingest.plan.newId file.2 = ingest.plan.newId other.2 →
      file.2 = other.2) :
    ingest.SizesTrue sha256 names w ↔ ∀ file ∈ ingest.plan.files, ingest.content file.2 ≠ [] ∧ (validateLogicalPath file.2).isSome := by
  have hrows : RowsTrue sha256 ingest (ingest.after sha256 names w).cat.nas := rowsTrue_after hsources hnew
  have hrow {r : NasFileRecord} (hr : r ∈ (ingest.after sha256 names w).cat.nas.listNasFileRecords ingest.plan.datasetId) :
      RowTrue sha256 ingest r :=
    have ⟨hget, hdataset⟩ := get_of_listed hr
    hrows r.id r hget hdataset
  constructor
  · intro h file hfile
    obtain ⟨r, hr, hpath, hstatus⟩ := h.archived file hfile
    rw [← hpath]
    refine ⟨fun hempty => ?_, (hrow hr).path hstatus⟩
    -- An empty file is recorded with one byte.
    have hsize := (hrow hr).size
    rw [(h.recorded r hr).1, hempty] at hsize
    nomatch hsize
  · intro h
    have hclean : Clean ingest := ⟨hsources, fun file hfile => (h file hfile).1, fun file hfile => (h file hfile).2, hids⟩
    obtain ⟨hdone, hbytes⟩ := hclean.after names hnew
    refine ⟨fun file hfile => ?_, fun r hr => ?_, hbytes⟩
    · obtain ⟨r, hr, hdataset, hpath, hstatus⟩ := hdone file hfile
      exact ⟨r, hdataset ▸ listed_of_get hr, hpath, hstatus⟩
    · obtain ⟨barcode, hfile⟩ := (hrow hr).file
      have hne : ingest.content r.relativePath ≠ [] := (h _ hfile).1
      rw [(hrow hr).size, max_eq_right (List.length_pos_iff.2 hne)]
      exact ⟨rfl, (hrow hr).checksum⟩

/-- One file of a new dataset, with a content. -/
def noteIngest (verify : Bool) (content : Bytes) : SourceIngest :=
  { plan :=
      { datasetId := "mail", poolId := none, sourcePath := some "/src", mode := .cacheDrive
        assignments := [{ barcode := "A00001L8", files := ["note.txt"] }]
        prepared := fun path _ => { relativePath := path, sourcePath := path, sizeBytes := 0, checksumSha256 := "", mtime := "" }
        newId := id, turn := fun _ => { content := [] } }
    verifyAfterArchive := verify
    sources := fun _ => some content
    mtimeNs := fun _ => 0
    preparedAt := "2024-01-01T00:00:00Z"
    cachePath := fun _ => none }

theorem note_sizes_true :
    (∀ file ∈ (noteIngest true [1]).plan.files, ((noteIngest true [1]).source file.2).isSome) ∧
      (noteIngest true [1]).SizesTrue (fun _ => "digest") (fun _ => TapeNamesAux.photos) {} := by
  have hsources : ∀ file ∈ (noteIngest true [1]).plan.files, ((noteIngest true [1]).source file.2).isSome := fun _ _ => rfl
  refine ⟨hsources, (sizes_true_iff (fun _ => "digest") (fun _ => TapeNamesAux.photos) (noteIngest true [1]) {} hsources rfl fun _ _ _ _ h => h).2 ?_⟩
  intro file hfile
  obtain rfl := List.mem_singleton.1 hfile
  exact ⟨List.cons_ne_nil _ _, by decide +kernel⟩

/-- An empty file is counted as one byte where it is not verified, and is not archived where it is. -/
theorem empty_file_not_true :
    ¬(noteIngest false []).SizesTrue (fun _ => "digest") (fun _ => TapeNamesAux.photos) {} ∧
      ¬(noteIngest true []).SizesTrue (fun _ => "digest") (fun _ => TapeNamesAux.photos) {} := by
  constructor
  · intro h
    have hcounted := h.counted
    revert hcounted
    decide +kernel
  · intro h
    have harchived := h.archived ("A00001L8", "note.txt") List.mem_cons_self
    revert harchived
    decide +kernel

end OpenBlade
