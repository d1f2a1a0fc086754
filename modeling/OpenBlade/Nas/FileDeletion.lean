import Mathlib
import OpenBlade.Jobs.Restore
import OpenBlade.Jobs.StripePaths
import OpenBlade.Nas.CatalogRebuild
import OpenBlade.Nas.FileIdentity
import OpenBlade.Nas.IngestRun
import OpenBlade.Nas.PushSafety

/-!
# Files that are deleted

The upload and the deletion of `api/routes_upload.py`, and what else writes file records. The file that a deletion unlinks is the first
that exists among the staged one, the restored one and the two paths of the record; these are whatever an ingest, a hydration or a
rebuild wrote into it. There are no symbolic links, and the directories that a path leads through are there.
-/

namespace OpenBlade

open Effects

/-! ### The service and its files -/

/-- `OPENBLADE_STAGING_DIR`, `OPENBLADE_RESTORE_DIR`, the directory the service runs in, and `_MAX_UPLOAD_BYTES`. -/
structure FileService where
  stagingDir : String := "/tmp/openblade-staging"
  restoreDir : String := "/tmp/openblade-restore"
  cwd : Location := []
  maxUploadBytes : Nat := 10 * 1024 ^ 3
  deriving Repr, DecidableEq

/-- The NAS tables and the files of the host. -/
structure FileWorld where
  nas : NasCatalog := {}
  files : Dict Location Bytes := []
  deriving Repr, DecidableEq

namespace NasCatalog

variable (cat : NasCatalog)

/-- `delete_nas_file_record`: the row, if it was there. -/
def deleteNasFileRecord (id : String) : Option NasFileRecord × NasCatalog :=
  (cat.getNasFileRecord id,
    { cat with
      files := cat.files.erase id
      nodupFiles := Dict.nodup_keys_erase cat.nodupFiles
      keyedFiles := fun row hrow => cat.keyedFiles row (List.mem_of_mem_filter hrow) })

/-- `_sync_dataset_summary`. -/
def syncDatasetSummary (dataset : NasDataset) : NasCatalog :=
  let records := cat.listNasFileRecords dataset.id
  cat.upsertNasDataset { dataset with
    fileCount := records.length, totalBytes := (records.map NasFileRecord.sizeBytes).sum }

end NasCatalog

/-- The text of a resolved path. -/
def locationText (loc : Location) : String := "/" ++ "/".intercalate loc

/-- What an upload brings. -/
structure Upload where
  poolId : String
  fileId : String
  valid : matchesForm uuid4Form fileId.toList = true
  filename : String := ""
  content : Bytes
  /-- In lower case. -/
  expectedChecksum : Option String := none

namespace FileService

variable (service : FileService)

/-- `_staging_dir`. -/
def staging : PurePosixPath := .ofString service.stagingDir

/-- `_restore_dir`. -/
def restore : PurePosixPath := .ofString service.restoreDir

/-- Where a path leads. -/
def locate (path : PurePosixPath) : Location :=
  (if path.root = "" then service.cwd ++ path.parts else path.parts).foldl (normpathStep true) []

/-- `_safe_resolve`. -/
def safeResolve (base : PurePosixPath) (fileId : String) : Except RequestFailure Location :=
  let resolved := service.locate (base.join (.ofString fileId))
  if (locationText (service.locate base)).toList.isPrefixOf (locationText resolved).toList then .ok resolved
  else .error (.http 400 "Invalid file_id format")

/-- The paths of a record that are tried: what its cache and source path lead to, if they are set. -/
def recordCandidates (record : NasFileRecord) : List Location :=
  ([record.cachePath, record.sourcePath].filterMap fun value => value.bind nonEmpty).map fun value => service.locate (.ofString value)

/-- `_resolve_file_path`: the first candidate that is a file. -/
def resolveFilePath (files : Dict Location Bytes) (fileId : String) (record : Option NasFileRecord) :
    Except RequestFailure (Option Location) := do
  let staged ← service.safeResolve service.staging fileId
  let restored ← service.safeResolve service.restore fileId
  let candidates := staged :: restored :: (record.elim [] service.recordCandidates)
  .ok (candidates.find? fun loc => (files.get? loc).isSome)

/-- `delete_file`: the record goes first, then the file, and what the dataset counts is brought up to date. -/
def deleteFile (fileId : String) (w : FileWorld) : Except RequestFailure Unit × FileWorld :=
  match validateFileId fileId with
  | .error failure => (.error failure, w)
  | .ok _ =>
    match w.nas.deleteNasFileRecord fileId with
    | (none, _) => (.error (.http 404 ("File " ++ fileId ++ " not found")), w)
    | (some record, nas) =>
      match service.resolveFilePath w.files fileId (some record) with
      | .error failure => (.error failure, { w with nas := nas })
      | .ok path =>
        let nas := match nas.getNasDataset record.datasetId with
          | none => nas
          | some dataset => nas.syncDatasetSummary dataset
        (.ok (), { nas := nas, files := path.elim w.files w.files.erase })

/-- `_ensure_pool_dataset`: the dataset that takes the uploads of a pool. -/
def ensurePoolDataset (poolId : String) (nas : NasCatalog) : NasDataset × NasCatalog :=
  let id := "file-station-staging-" ++ poolId
  match nas.getNasDataset id with
  | some dataset => (dataset, nas)
  | none =>
    let dataset : NasDataset :=
      { id := id, poolId := some poolId, name := "Staging Inbox " ++ poolId, sourcePath := some service.staging.toString
        ingestMode := some .cacheDrive, status := .pending }
    (dataset, nas.upsertNasDataset dataset)

/-- The record of an upload. -/
def uploadRecord (sha256 : Bytes → String) (upload : Upload) (datasetId : String) : NasFileRecord :=
  let destination := service.staging.join (.ofString upload.fileId)
  { id := upload.fileId
    datasetId := datasetId
    poolId := some upload.poolId
    relativePath := sanitizeFilename upload.filename
    sourcePath := some destination.toString
    sizeBytes := upload.content.length
    checksumSha256 := some (sha256 upload.content)
    status := .onlineCached
    cachePath := some destination.toString }

/-- `upload_file_to_pool`: what is too large, or is not what it should be, is removed again. -/
def uploadFile (sha256 : Bytes → String) (upload : Upload) (w : FileWorld) : Except RequestFailure Unit × FileWorld :=
  let destination := service.locate (service.staging.join (.ofString upload.fileId))
  let checksum := sha256 upload.content
  if service.maxUploadBytes < upload.content.length then
    (.error (.http 413 ("File exceeds maximum allowed size of " ++ toString (service.maxUploadBytes / 1024 ^ 2) ++ " MiB")),
      { w with files := w.files.erase destination })
  else
    match (upload.expectedChecksum.bind nonEmpty).filter (· ≠ checksum) with
    | some expected =>
      (.error (.http 400 ("Checksum mismatch: expected " ++ expected ++ ", got " ++ checksum)),
        { w with files := w.files.erase destination })
    | none =>
      let (dataset, nas) := service.ensurePoolDataset upload.poolId w.nas
      let nas := nas.upsertNasFileRecord (service.uploadRecord sha256 upload dataset.id)
      (.ok (), { nas := nas.syncDatasetSummary dataset, files := w.files.set destination upload.content })

end FileService

/-! ### What happens to file records -/

/-- One thing that happens. A hydration writes back the copy of the record that it holds. -/
inductive FileEvent where
  | upload (upload : Upload)
  /-- `_upsert_file_record` of an ingest. -/
  | ingest (job : DatasetIngest) (ids : Dict String String) (barcode : Barcode) (relativePath : String) (tapeBarcode : Option Barcode)
      (status : NasFileState)
  /-- `_set_file_status` of a hydration. -/
  | mark (record : NasFileRecord) (status : NasFileState)
  /-- The content of a record is put into the restore directory, and the record says where it was asked for. -/
  | hydrate (record : NasFileRecord) (destination : String) (content : Bytes)
  /-- A file entry of a catalog shard, read back from a tape. -/
  | rebuild (barcode : Barcode) (entry : CatalogShardFileEntry)
  /-- The records of a push that archived its files. -/
  | push (fileIds : List String)
  /-- Files of the host are written, moved or removed by others. -/
  | host (files : Dict Location Bytes)
  | delete (fileId : String)

namespace FileService

variable (service : FileService) (sha256 : Bytes → String)

/-- The record of a hydrated file: its cache path is where it was asked for, not where it is. -/
def hydratedRecord (record : NasFileRecord) (destination : String) : NasFileRecord :=
  { record with
    status := .onlineCached
    cachePath := some ((PurePosixPath.ofString destination).join (.ofString record.relativePath)).toString }

def step (w : FileWorld) : FileEvent → FileWorld
  | .upload upload => (service.uploadFile sha256 upload w).2
  | .ingest job ids barcode relativePath tapeBarcode status =>
    { w with nas := w.nas.upsertNasFileRecord (job.fileRecord ids barcode relativePath tapeBarcode status) }
  | .mark record status => { w with nas := w.nas.upsertNasFileRecord { record with status := status } }
  | .hydrate record destination content =>
    { nas := w.nas.upsertNasFileRecord (hydratedRecord record destination)
      files := w.files.set (service.locate (service.restore.join (.ofString record.id))) content }
  | .rebuild barcode entry =>
    if entry.logicalPath = "" then w
    else
      let existing := w.nas.getNasFileRecord entry.fileRecordId
      { w with nas := w.nas.upsertNasFileRecord (entry.over barcode (existing.getD (blankFileRecord entry.fileRecordId))) }
  | .push fileIds => { w with nas := fileIds.foldl (fun nas id => (nas.deleteNasFileRecord id).2) w.nas }
  | .host files => { w with files := files }
  | .delete fileId => (service.deleteFile fileId w).2

/-- A history, from a catalog without records. -/
def after (history : List FileEvent) : FileWorld := history.foldl (service.step sha256) {}

/-! ### What a deletion may touch -/

/-- A place in the staging or the restore directory, or below. -/
def Inside (loc : Location) : Prop := ∃ dir ∈ [service.staging, service.restore], ∃ name below, loc = service.locate dir ++ name :: below

/-- A deletion removes no file that stands elsewhere. -/
def Spares (w : FileWorld) (fileId : String) : Prop :=
  ∀ loc, (w.files.get? loc).isSome → (service.deleteFile fileId w).2.files.get? loc = none → service.Inside loc

/-- The file that a path of a record leads to. -/
def namedFile (files : Dict Location Bytes) (value : Option String) : Option Location :=
  ((value.bind nonEmpty).map fun text => service.locate (.ofString text)).filter fun loc => (files.get? loc).isSome

/-- The file is staged or restored, or the first of the paths of its record that leads to a file leads to one inside. -/
def Sheltered (w : FileWorld) (fileId : String) : Prop :=
  matchesForm uuid4Form fileId.toList = true → ∀ record, w.nas.getNasFileRecord fileId = some record →
    (w.files.get? (service.locate (service.staging.join (.ofString fileId)))).isSome ∨
    (w.files.get? (service.locate (service.restore.join (.ofString fileId)))).isSome ∨
    ∀ loc, (service.namedFile w.files record.cachePath).or (service.namedFile w.files record.sourcePath) = some loc → service.Inside loc

/-- The paths of a record that are set lead inside. -/
def Confined (record : NasFileRecord) : Prop :=
  ∀ value ∈ [record.cachePath, record.sourcePath], ∀ text, value.bind nonEmpty = some text → service.Inside (service.locate (.ofString text))

/-- The record that is written is confined; those of uploads are, and a rebuild keeps the source path that is there. -/
def WritesConfined : FileEvent → Prop
  | .ingest job ids barcode relativePath tapeBarcode status =>
    service.Confined (job.fileRecord ids barcode relativePath tapeBarcode status)
  | .mark record _ => service.Confined record
  | .hydrate record destination _ => service.Confined (hydratedRecord record destination)
  | _ => True

end FileService

namespace FileDeletionAux

open PushAux

variable {service : FileService} {fileId : String} {w : FileWorld}

/-! ### Ids as names -/

theorem ne_slash_of_matchesLetter {form c : Char} (hform : form ≠ '/') (h : matchesLetter form c = true) : c ≠ '/' := by
  rintro rfl
  unfold matchesLetter at h
  split at h
  · exact absurd h (by decide)
  split at h
  · exact absurd h (by decide)
  · exact hform (of_decide_eq_true h)

theorem no_slash_of_matchesForm {form text : List Char} (hform : '/' ∉ form) (h : matchesForm form text = true) : '/' ∉ text := by
  induction form generalizing text with
  | nil =>
    simp only [matchesForm, decide_eq_true_eq] at h
    rcases h with rfl | rfl <;> decide
  | cons letter form ih =>
    cases text with
    | nil => cases h
    | cons c text =>
      rw [List.mem_cons, not_or] at hform
      simp only [matchesForm, Bool.and_eq_true] at h
      rw [List.mem_cons, not_or]
      exact ⟨(ne_slash_of_matchesLetter (Ne.symm hform.1) h.1).symm, ih hform.2 h.2⟩

theorem isComponent_of_matchesForm (h : matchesForm uuid4Form fileId.toList = true) : IsComponent fileId := by
  have hlength : 36 ≤ fileId.toList.length := by
    rcases length_of_matchesForm h with hlength | ⟨body, hbody, hlength⟩
    · exact hlength.ge
    · rw [hbody, List.length_append, hlength]
      exact Nat.le_succ 36
  have hne {text : String} (hshort : text.toList.length < 36) : fileId ≠ text := fun heq =>
    absurd (heq ▸ hlength) (Nat.not_le.2 hshort)
  exact ⟨hne (by decide), hne (by decide), hne (by decide), no_slash_of_matchesForm (by decide) h⟩

/-! ### Where paths lead -/

theorem locate_join (hname : IsComponent fileId) (dir : PurePosixPath) :
    service.locate (dir.join (.ofString fileId)) = service.locate dir ++ [fileId] := by
  unfold FileService.locate PurePosixPath.join
  rw [hname.ofString, if_pos rfl]
  dsimp only
  split
  · rw [← List.append_assoc, List.foldl_append, List.foldl_cons, List.foldl_nil, normpathStep_component hname]
  · rw [List.foldl_append, List.foldl_cons, List.foldl_nil, normpathStep_component hname]

theorem inside_join (service : FileService) {dir : PurePosixPath} (hdir : dir ∈ [service.staging, service.restore]) (hname : IsComponent fileId) :
    service.Inside (service.locate (dir.join (.ofString fileId))) :=
  ⟨dir, hdir, fileId, [], locate_join hname dir⟩

/-- The text of a place begins the text of what is in it. -/
theorem isPrefixOf_locationText (loc : Location) (name : String) :
    (locationText loc).toList.isPrefixOf (locationText (loc ++ [name])).toList = true := by
  have hcons (first : String) (rest : List String) (hrest : rest ≠ []) :
      "/".intercalate (first :: rest) = first ++ "/" ++ "/".intercalate rest := by
    obtain ⟨second, rest, rfl⟩ := List.exists_cons_of_ne_nil hrest
    exact String.intercalate_cons_cons
  have hjoined : ∃ text, "/".intercalate (loc ++ [name]) = "/".intercalate loc ++ text := by
    induction loc with
    | nil => exact ⟨"/".intercalate [name], by simp⟩
    | cons first rest ih =>
      obtain ⟨text, htext⟩ := ih
      rw [List.cons_append, hcons first _ (by simp), htext]
      cases rest with
      | nil => exact ⟨"/" ++ text, by simp [String.append_assoc]⟩
      | cons second rest => exact ⟨text, by rw [hcons first _ (List.cons_ne_nil _ _), ← String.append_assoc]⟩
  obtain ⟨text, htext⟩ := hjoined
  rw [locationText, locationText, htext, List.isPrefixOf_iff_prefix, ← String.append_assoc, @String.toList_append _ text]
  exact List.prefix_append _ _

theorem safeResolve_eq (hname : IsComponent fileId) (dir : PurePosixPath) :
    service.safeResolve dir fileId = .ok (service.locate (dir.join (.ofString fileId))) := by
  unfold FileService.safeResolve
  rw [locate_join hname]
  exact if_pos (isPrefixOf_locationText _ _)

/-! ### What a deletion removes -/

/-- Of two values that may be there, the first that will do. -/
theorem find?_filterMap_pair {α β : Type} (f : α → Option β) (p : β → Bool) (a b : α) :
    ([a, b].filterMap f).find? p = ((f a).filter p).or ((f b).filter p) := by
  cases ha : f a <;> cases hb : f b <;> simp only [List.filterMap_cons, List.filterMap_nil, ha, hb, Option.filter, List.find?]
  · rfl
  · split <;> simp_all
  · split <;> simp_all
  · split <;> simp_all
    split <;> simp_all

theorem find?_recordCandidates (files : Dict Location Bytes) (record : NasFileRecord) :
    (service.recordCandidates record).find? (fun loc => (files.get? loc).isSome) =
      (service.namedFile files record.cachePath).or (service.namedFile files record.sourcePath) := by
  unfold FileService.recordCandidates FileService.namedFile
  rw [List.map_filterMap]
  exact find?_filterMap_pair _ _ _ _

/-- The file a deletion unlinks. -/
def unlinked (service : FileService) (files : Dict Location Bytes) (fileId : String) (record : NasFileRecord) : Option Location :=
  let staged := service.locate (service.staging.join (.ofString fileId))
  let restored := service.locate (service.restore.join (.ofString fileId))
  if (files.get? staged).isSome then some staged
  else if (files.get? restored).isSome then some restored
  else (service.namedFile files record.cachePath).or (service.namedFile files record.sourcePath)

theorem resolveFilePath_eq (hname : IsComponent fileId) (files : Dict Location Bytes) (record : NasFileRecord) :
    service.resolveFilePath files fileId (some record) = .ok (unlinked service files fileId record) := by
  unfold FileService.resolveFilePath
  rw [safeResolve_eq hname, safeResolve_eq hname]
  refine congrArg Except.ok ?_
  simp only [Option.elim_some, List.find?_cons, find?_recordCandidates, unlinked]
  cases (files.get? (service.locate (service.staging.join (.ofString fileId)))).isSome <;>
    cases (files.get? (service.locate (service.restore.join (.ofString fileId)))).isSome <;> rfl

theorem validateFileId_eq (h : matchesForm uuid4Form fileId.toList = true) : validateFileId fileId = .ok fileId := if_pos h

theorem files_deleteFile (hvalid : matchesForm uuid4Form fileId.toList = true) {record : NasFileRecord}
    (hrecord : w.nas.getNasFileRecord fileId = some record) :
    (service.deleteFile fileId w).2.files = (unlinked service w.files fileId record).elim w.files w.files.erase := by
  unfold FileService.deleteFile
  rw [validateFileId_eq hvalid, NasCatalog.deleteNasFileRecord, hrecord]
  dsimp only
  rw [resolveFilePath_eq (isComponent_of_matchesForm hvalid)]

/-- A request that is refused removes nothing. -/
theorem files_deleteFile_refused (h : matchesForm uuid4Form fileId.toList = true → w.nas.getNasFileRecord fileId = none) :
    (service.deleteFile fileId w).2.files = w.files := by
  unfold FileService.deleteFile validateFileId
  by_cases hvalid : matchesForm uuid4Form fileId.toList = true
  · rw [if_pos hvalid, NasCatalog.deleteNasFileRecord, h hvalid]
  · rw [if_neg hvalid]

theorem namedFile_isSome {files : Dict Location Bytes} {value : Option String} {loc : Location}
    (h : service.namedFile files value = some loc) : (files.get? loc).isSome := (Option.filter_eq_some_iff.1 h).2

theorem unlinked_isSome {files : Dict Location Bytes} {record : NasFileRecord} {loc : Location}
    (h : unlinked service files fileId record = some loc) : (files.get? loc).isSome := by
  unfold unlinked at h
  dsimp only at h
  split at h
  · rwa [← Option.some.inj h]
  split at h
  · rwa [← Option.some.inj h]
  · rcases Option.or_eq_some_iff.1 h with h | ⟨-, h⟩ <;> exact namedFile_isSome h

/-- What is unlinked is inside, save where a path of the record leads elsewhere. -/
theorem inside_unlinked_iff (hvalid : matchesForm uuid4Form fileId.toList = true) {record : NasFileRecord}
    (hrecord : w.nas.getNasFileRecord fileId = some record) :
    (∀ loc, unlinked service w.files fileId record = some loc → service.Inside loc) ↔ service.Sheltered w fileId := by
  have hname := isComponent_of_matchesForm hvalid
  have hstaged : service.Inside (service.locate (service.staging.join (.ofString fileId))) := inside_join service List.mem_cons_self hname
  have hrestored := inside_join service (List.mem_cons_of_mem service.staging (List.mem_singleton_self service.restore)) hname
  constructor
  · intro h _ row hrow
    cases hrecord.symm.trans hrow
    by_cases hfile : (w.files.get? (service.locate (service.staging.join (.ofString fileId)))).isSome
    · exact .inl hfile
    by_cases hfile' : (w.files.get? (service.locate (service.restore.join (.ofString fileId)))).isSome
    · exact .inr (.inl hfile')
    · refine .inr (.inr fun loc hloc => h loc ?_)
      rw [unlinked, if_neg hfile, if_neg hfile']
      exact hloc
  · intro h loc hloc
    unfold unlinked at hloc
    dsimp only at hloc
    split at hloc
    · exact Option.some.inj hloc ▸ hstaged
    split at hloc
    · exact Option.some.inj hloc ▸ hrestored
    · rename_i hfile hfile'
      exact ((h hvalid record hrecord).resolve_left hfile).resolve_left hfile' loc hloc

theorem spares_iff : service.Spares w fileId ↔ service.Sheltered w fileId := by
  by_cases hfound : matchesForm uuid4Form fileId.toList = true ∧ (w.nas.getNasFileRecord fileId).isSome = true
  · obtain ⟨hvalid, hsome⟩ := hfound
    obtain ⟨record, hrecord⟩ := Option.isSome_iff_exists.1 hsome
    rw [← inside_unlinked_iff hvalid hrecord, FileService.Spares, files_deleteFile hvalid hrecord]
    constructor
    · intro h loc hloc
      refine h loc (unlinked_isSome hloc) ?_
      rw [hloc, Option.elim_some, Dict.get?_erase, if_pos rfl]
    · intro h loc hfile hgone
      cases hpath : unlinked service w.files fileId record with
      | none =>
        rw [hpath, Option.elim_none] at hgone
        rw [hgone] at hfile
        cases hfile
      | some path =>
        rw [hpath, Option.elim_some, Dict.get?_erase] at hgone
        split at hgone
        · rename_i hsame
          exact h loc (hsame ▸ hpath)
        · rw [hgone] at hfile
          cases hfile
  · have hnone (hvalid : matchesForm uuid4Form fileId.toList = true) : w.nas.getNasFileRecord fileId = none := by
      simpa using fun h => hfound ⟨hvalid, h⟩
    refine iff_of_true (fun loc hfile hgone => ?_) fun hvalid record hrecord => ?_
    · rw [files_deleteFile_refused hnone] at hgone
      rw [hgone] at hfile
      cases hfile
    · cases (hnone hvalid).symm.trans hrecord

/-! ### Records that are written -/

theorem confined_uploadRecord {upload : Upload} (sha256 : Bytes → String) (datasetId : String) :
    service.Confined (service.uploadRecord sha256 upload datasetId) := by
  have hread : PurePosixPath.ofString (service.staging.join (.ofString upload.fileId)).toString =
      service.staging.join (.ofString upload.fileId) :=
    ofString_toString ((wellFormed_ofString _).join (wellFormed_ofString _))
  have hinside : service.Inside (service.locate (service.staging.join (.ofString upload.fileId))) :=
    inside_join service List.mem_cons_self (isComponent_of_matchesForm upload.valid)
  intro value hvalue text htext
  have hdestination : value = some (service.staging.join (.ofString upload.fileId)).toString := by
    simpa [FileService.uploadRecord] using hvalue
  rw [hdestination, Option.bind_some, nonEmpty] at htext
  split at htext
  · cases htext
  · rw [← Option.some.inj htext, hread]
    exact hinside

/-- Records that are kept and records that are written are confined. -/
theorem confined_upsert {nas : NasCatalog} {record : NasFileRecord} (h : ∀ row ∈ nas.files, service.Confined row.2)
    (hrecord : service.Confined record) : ∀ row ∈ (nas.upsertNasFileRecord record).files, service.Confined row.2 := by
  intro row hrow
  rcases Dict.mem_set hrow with hold | rfl
  · exact h row hold
  · exact hrecord

theorem files_delete_subset (nas : NasCatalog) (id : String) : ∀ row ∈ (nas.deleteNasFileRecord id).2.files, row ∈ nas.files :=
  fun _ hrow => List.mem_of_mem_filter hrow

theorem files_deleteFile_subset (fileId : String) (w : FileWorld) :
    ∀ row ∈ (service.deleteFile fileId w).2.nas.files, row ∈ w.nas.files := by
  intro row hrow
  unfold FileService.deleteFile at hrow
  split at hrow
  · exact hrow
  split at hrow
  · exact hrow
  rename_i hdelete
  have hfiles := congrArg (fun answer => answer.2.files) hdelete
  split at hrow
  · exact files_delete_subset w.nas fileId row (hfiles ▸ hrow)
  · dsimp only at hrow hfiles
    split at hrow
    · exact files_delete_subset w.nas fileId row (hfiles ▸ hrow)
    · exact files_delete_subset w.nas fileId row (hfiles ▸ hrow)

theorem files_foldl_delete_subset (fileIds : List String) (nas : NasCatalog) :
    ∀ row ∈ (fileIds.foldl (fun nas id => (nas.deleteNasFileRecord id).2) nas).files, row ∈ nas.files := by
  induction fileIds generalizing nas with
  | nil => exact fun _ h => h
  | cons id fileIds ih => exact fun row hrow => files_delete_subset nas id row (ih _ row hrow)

theorem files_ensurePoolDataset (poolId : String) (nas : NasCatalog) : (service.ensurePoolDataset poolId nas).2.files = nas.files := by
  unfold FileService.ensurePoolDataset
  dsimp only
  cases nas.getNasDataset _ <;> rfl

theorem confined_step {sha256 : Bytes → String} {event : FileEvent} (hevent : service.WritesConfined event)
    (h : ∀ row ∈ w.nas.files, service.Confined row.2) : ∀ row ∈ (service.step sha256 w event).nas.files, service.Confined row.2 := by
  cases event with
  | upload upload =>
    unfold FileService.step FileService.uploadFile
    dsimp only
    split
    · exact h
    split
    · exact h
    · refine confined_upsert (fun row hrow => h row ?_) (confined_uploadRecord sha256 _)
      rwa [files_ensurePoolDataset] at hrow
  | ingest => exact confined_upsert h hevent
  | mark => exact confined_upsert h hevent
  | hydrate => exact confined_upsert h hevent
  | rebuild barcode entry =>
    unfold FileService.step
    dsimp only
    split
    · exact h
    · refine confined_upsert h fun value hvalue text htext => ?_
      -- The cache path is cleared, and the source path is the one of the row before.
      rcases List.mem_pair.1 hvalue with rfl | rfl
      · cases htext
      · cases hrow : w.nas.getNasFileRecord entry.fileRecordId with
        | none =>
          rw [hrow] at htext
          cases htext
        | some existing =>
          rw [hrow] at htext
          exact h _ (Dict.mem_of_get? hrow) _ (List.mem_pair.2 (.inr rfl)) text htext
  | push fileIds => exact fun row hrow => h row (files_foldl_delete_subset fileIds w.nas row hrow)
  | host => exact h
  | delete fileId => exact fun row hrow => h row (files_deleteFile_subset fileId w row hrow)

theorem confined_after {sha256 : Bytes → String} {history : List FileEvent} (hhistory : ∀ event ∈ history, service.WritesConfined event) :
    ∀ row ∈ (service.after sha256 history).nas.files, service.Confined row.2 := by
  induction history using List.reverseRecOn with
  | nil => exact fun _ h => absurd h List.not_mem_nil
  | append_singleton history event ih =>
    rw [FileService.after, List.foldl_append, List.foldl_cons, List.foldl_nil]
    exact confined_step (hhistory event (by simp)) (ih fun e he => hhistory e (List.mem_append_left _ he))

theorem inside_of_confined {record : NasFileRecord} (h : service.Confined record) {value : Option String}
    (hvalue : value ∈ [record.cachePath, record.sourcePath]) {files : Dict Location Bytes} {loc : Location}
    (hloc : service.namedFile files value = some loc) : service.Inside loc := by
  obtain ⟨text, htext, rfl⟩ := Option.map_eq_some_iff.1 (Option.filter_eq_some_iff.1 hloc).1
  exact h value hvalue text htext

theorem sheltered_of_confined (h : ∀ row ∈ w.nas.files, service.Confined row.2) (fileId : String) : service.Sheltered w fileId := by
  intro _ record hrecord
  have hconfined := h _ (Dict.mem_of_get? hrecord)
  refine .inr (.inr fun loc hloc => ?_)
  rcases Option.or_eq_some_iff.1 hloc with hloc | ⟨-, hloc⟩
  · exact inside_of_confined hconfined List.mem_cons_self hloc
  · exact inside_of_confined hconfined (List.mem_cons_of_mem _ (List.mem_singleton_self _)) hloc

end FileDeletionAux

open FileDeletionAux

/-- In a history of what writes file records and of deletions, no deletion removes a file outside the two directories, if and only if
before each of them its file is staged or restored, or the path of its record that is followed leads inside. -/
theorem deletions_spare_iff (service : FileService) (sha256 : Bytes → String) (history : List FileEvent) :
    (∀ earlier fileId, earlier ++ [.delete fileId] <+: history → service.Spares (service.after sha256 earlier) fileId) ↔
      ∀ earlier fileId, earlier ++ [.delete fileId] <+: history → service.Sheltered (service.after sha256 earlier) fileId :=
  forall_congr' fun _ => forall_congr' fun _ => imp_congr_right fun _ => spares_iff

/-- Where nothing but confined records is ever written, no deletion removes a file outside. -/
theorem confined_history_spares {service : FileService} {sha256 : Bytes → String} {history : List FileEvent}
    (hhistory : ∀ event ∈ history, service.WritesConfined event) (fileId : String) :
    service.Spares (service.after sha256 history) fileId :=
  spares_iff.2 (sheltered_of_confined (confined_after hhistory) fileId)

/-- A file is hydrated into the restore directory. -/
theorem confined_history_spares_hydrated :
    let history : List FileEvent := [.hydrate { id := "0f0f0f0f-1111-4222-8333-444444444444", datasetId := "ds", relativePath := "a" }
      "/tmp/openblade-restore" [1]]
    ({} : FileService).Spares (({} : FileService).after (fun _ => "") history) "0f0f0f0f-1111-4222-8333-444444444444" := by
  refine confined_history_spares (fun event hevent => ?_) _
  obtain rfl := List.mem_singleton.1 hevent
  intro value hvalue text htext
  rcases List.mem_pair.1 hvalue with rfl | rfl
  · obtain rfl := Option.some.inj htext
    exact ⟨({} : FileService).restore, by simp, "a", [], by decide +kernel⟩
  · cases htext

/-- A source-stream ingest of `/data`, and the deletion of the file it recorded. -/
def streamedThenDeleted : List FileEvent :=
  let fileId := "0f0f0f0f-1111-4222-8333-444444444444"
  let job : DatasetIngest :=
    { datasetId := "ds", poolId := some "pool", sourcePath := some "/data", mode := .sourceStream, assignments := []
      prepared := fun path _ => { relativePath := path, sourcePath := resolveSourcePath (some "/data") path, sizeBytes := 1,
                                  checksumSha256 := "", mtime := "" }
      newId := fun _ => fileId, turn := fun _ => { content := [] } }
  [.host [(["data", "a"], [1])], .ingest job [] "A00001L8" "a" (some "A00001L8") .onlineCached, .delete fileId]

theorem original_unlinked : ¬∀ earlier fileId, earlier ++ [.delete fileId] <+: streamedThenDeleted →
    ({} : FileService).Spares (({} : FileService).after (fun _ => "") earlier) fileId := by
  intro h
  obtain ⟨dir, hdir, name, below, hloc⟩ := h (streamedThenDeleted.take 2) "0f0f0f0f-1111-4222-8333-444444444444" (List.prefix_refl _)
    ["data", "a"] (by decide +kernel) (by decide +kernel)
  have hhead : (({} : FileService).locate dir).head? = some "tmp" := by
    rcases List.mem_pair.1 hdir with rfl | rfl <;> decide +kernel
  cases hcomps : ({} : FileService).locate dir with
  | nil =>
    rw [hcomps] at hhead
    cases hhead
  | cons first rest =>
    rw [hcomps] at hhead hloc
    cases hhead
    exact absurd (List.cons.inj hloc).1 (by decide)

end OpenBlade
