import OpenBlade.Jobs.Archive
import OpenBlade.Jobs.StripePaths
import OpenBlade.Nas.TapeNames

/-!
# The archive service

`ArchiveService.enqueue` of `jobs/archive.py`: it enumerates the files under the source path, runs the archive job over them and, when
that raises, enumerates them once more and deletes the records that hold nothing.
-/

namespace OpenBlade

open Effects Proc

/-! ### The files of the host -/

/-- The files and directories of the host, each by the names that lead to it from the root. -/
structure HostTree where
  files : Dict (List String) Bytes := []
  dirs : List (List String) := []
  nodup : (Dict.keys files).Nodup := by decide
  named : ∀ loc ∈ Dict.keys files, loc ≠ [] ∧ ∀ name ∈ loc, IsComponent name

namespace HostTree

variable (tree : HostTree)

instance decidableDir (loc : List String) : Decidable (loc ∈ tree.dirs) := decidableLocation loc tree.dirs

/-- `path.is_file()`. -/
def isFile (loc : List String) : Bool := (tree.files.get? loc).isSome

/-- `path.exists()`. -/
def exists_ (loc : List String) : Bool := tree.isFile loc || decide (loc ∈ tree.dirs)

/-- The file that stands there. -/
def sourceFile (loc : List String) (content : Bytes) : SourceFile := { path := (placePath loc).toString, content := content }

/-- The file itself, or `sorted(path for path in source.rglob("*") if path.is_file())`. -/
def entriesOf (source : List String) : List (List String × Bytes) :=
  match tree.files.get? source with
  | some content => [(source, content)]
  | none => (tree.files.filter fun file => source.isPrefixOf file.1).insertionSort fun a b => a.1 ≤ b.1

/-- `_iter_source_files` of the archive job. -/
def iterSourceFiles (source : List String) : List SourceFile :=
  (tree.entriesOf source).map fun file => sourceFile file.1 file.2

/-- The request to archive a path as the job finds it. -/
def archiveRequest (volumeGroupName : String) (source : List String) : ArchiveRequest :=
  { sourcePath := (placePath source).toString, sourceIsFile := tree.isFile source, files := tree.iterSourceFiles source
    volumeGroupName := volumeGroupName }

end HostTree

/-! ### The service -/

namespace Catalog

def createJob (cat : Catalog) (now : Int) (jobId : JobId) : Catalog :=
  { cat with jobs := cat.jobs ++ [{ id := jobId, createdAt := now, updatedAt := now }] }

/-- `delete_file_record_if_unarchived`; the instances of a record go with it. -/
def deleteFileRecordIfUnarchived (cat : Catalog) (path : String) : Catalog :=
  match cat.getFileRecord path with
  | none => cat
  | some record =>
    if (cat.instancesOf record.id).any fun row => row.state.isArchived || row.state.isStaged then cat
    else { cat with
      records := cat.records.erase record
      instances := cat.instances.filter fun row => row.fileRecordId ≠ record.id }

end Catalog

/-- What the environment decides about a call of the service: whether a step of its own raises, and what the calls of the job meet. -/
structure EnqueueChoice where
  creating : Option Fault := none
  /-- `_scheduler`. -/
  scheduler : Except Fault DriveScheduler
  job : List Choice := []
  /-- The clean-up of the file with this number raises. -/
  removing : Nat → Option Fault := fun _ => none

/-- The clean-up, from the file with this number on. -/
def removeUnarchived (request : ArchiveRequest) (removing : Nat → Option Fault) :
    Nat → List SourceFile → Catalog → Option Exn × Catalog
  | _, [], cat => (none, cat)
  | n, file :: files, cat =>
    match catalogPathOf request file, removing n with
    | .error exc, _ => (some exc, cat)
    | .ok _, some fault => (some fault.exn, cat)
    | .ok path, none => removeUnarchived request removing (n + 1) files (cat.deleteFileRecordIfUnarchived path)

/-- The `except` clause: the exception of the job, or the one of the clean-up. -/
def enqueueExcept (request : ArchiveRequest) (removing : Nat → Option Fault) (exc : Exn) (w : World) : Except Exn Job × World :=
  let (failure, catalog) := removeUnarchived request removing 0 request.files w.catalog
  (.error (failure.getD exc), { w with catalog := catalog })

/-- `ArchiveService.enqueue`, of a tree that stays as it is; no answer where the job is cut short. -/
def enqueueArchive (sha256 : Bytes → String) (tree : HostTree) (volumeGroupName : String) (source : List String) (jobId : JobId)
    (choice : EnqueueChoice) (w : World) : Option (Except Exn Job) × World :=
  let request := tree.archiveRequest volumeGroupName source
  match choice.creating, choice.scheduler with
  | some fault, _ => (some (.error fault.exn), w)
  | none, .error fault =>
    let (answer, w) := enqueueExcept request choice.removing fault.exn { w with catalog := w.catalog.createJob w.clock jobId }
    (some answer, w)
  | none, .ok scheduler =>
    let started := { w with catalog := w.catalog.createJob w.clock jobId }
    match (machine sha256).run choice.job (runArchiveJob sha256 request scheduler jobId {}) started with
    | (.call _ _, w) => (none, w)
    | (.ret (.error exc, _), w) =>
      let (answer, w) := enqueueExcept request choice.removing exc w
      (some answer, w)
    | (.ret (.ok _, _), w) =>
      match w.catalog.getJob jobId with
      | some job => (some (.ok job), w)
      | none => (some (.error { cls := .assertion, message := "" }), w)

end OpenBlade
