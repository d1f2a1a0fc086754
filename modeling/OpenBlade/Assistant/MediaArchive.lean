import OpenBlade.Assistant.Tools
import OpenBlade.Effects.Traverse
import OpenBlade.Jobs.ArchivedRecords
import OpenBlade.Jobs.Restore

/-!
# The archive of the assistant

`_resolve_archive` and `_archive_path` of `assistant/media_facade.py`: the files under the source path are counted, and an archive that
would write over a catalogued path is refused. The facade enumerates the files and builds their catalog paths by itself, the job does
it again; both come to the same. There are no symbolic links.
-/

namespace OpenBlade

open Effects Codec Proc

/-- `MAX_ARCHIVE_FILES`. -/
def maxArchiveFiles : Nat := 500

/-- `_MAX_CANDIDATES`. -/
def maxCandidates : Nat := 5

/-- What `_resolve_archive` answers. -/
structure ArchivePreview where
  sourcePath : String
  volumeGroup : String
  fileCount : Nat
  byteCount : Nat
  tapeCount : Nat
  sampleFiles : List String
  deriving Repr, DecidableEq

/-- What `_archive_path` answers. -/
structure ArchiveOutcome where
  jobId : JobId
  state : String
  sourcePath : String
  volumeGroup : String
  filesArchived : Nat
  filesExpected : Nat
  bytesArchived : Nat
  tapes : List Barcode
  allFilesInCatalog : Bool
  deriving Repr, DecidableEq

namespace HostTree

variable (tree : HostTree)

/-- `_source_files` of the facade. -/
def sourceFiles (source : List String) : List SourceFile :=
  (tree.entriesOf source).map fun file => sourceFile file.1 file.2

/-- Where a source file lands in the catalog. -/
def catalogPathFor (source : List String) (groupName : String) (item : SourceFile) : Except AssistantExn String :=
  let under := fun relative : String =>
    (((PurePosixPath.ofString "/").join (.ofString groupName)).join (.ofString relative)).toString
  if tree.isFile source then .ok (under item.name)
  else
    match (PurePosixPath.ofString item.path).relativeTo (placePath source) with
    | some relative => .ok (under relative.toString)
    | none => .error (.exception "ValueError")

/-- `_catalog_paths_for`. -/
def catalogPathsFor (source : List String) (groupName : String) : Except AssistantExn (List String) :=
  (tree.sourceFiles source).mapM (tree.catalogPathFor source groupName)

end HostTree

section facade

variable (b : TextBuiltins) (tree : HostTree)

/-- `_resolve_archive`. -/
def resolveArchive (path volumeGroup : Option Json) (cat : Catalog) : Except AssistantExn ArchivePreview := do
  let text ← cleanPathText b path "source path"
  let source := (PurePosixPath.ofString text).location
  let shown := (placePath source).toString
  let groupName := stripped b volumeGroup
  if groupName = "" then
    .error (mediaRefusedError ("A volume group is required: the assistant does not choose which pool " ++ "your data lands in.")
      "missing_volume_group")
  else if tree.exists_ source = false then .error (mediaRefusedError ("There is nothing at " ++ shown ++ ".") "source_not_found")
  else
    match cat.getVolumeGroup groupName with
    | none =>
      .error (.mediaRefused ("There is no volume group named " ++ b.quote (.str groupName) ++ ".") "unknown_volume_group"
        ((cat.listVolumeGroups.map VolumeGroup.name).take maxCandidates))
    | some group =>
      let files := tree.sourceFiles source
      if files = [] then .error (mediaRefusedError (shown ++ " contains no files to archive.") "empty_source")
      else if maxArchiveFiles < files.length then
        .error (mediaRefusedError (shown ++ " holds " ++ toString files.length ++ " files; one confirmed assistant action " ++
          "archives at most " ++ toString maxArchiveFiles ++ ". Run `openblade archive --volume-group " ++ groupName ++ " --path " ++
          shown ++ "` instead.") "too_many_files")
      else do
        let paths ← tree.catalogPathsFor source group.name
        let collisions := paths.filter fun catalogPath => (cat.getFileRecord catalogPath).isSome
        if collisions ≠ [] then
          .error (.mediaRefused (toString collisions.length ++ " of these file(s) are already catalogued in " ++
            b.quote (.str group.name) ++ " and archiving would replace the catalog record that describes the copy already on tape: " ++
            ", ".intercalate (collisions.take maxCandidates) ++ ". Archive to a different volume group, or run `openblade archive` " ++
            "deliberately if replacing them is really the intent.") "catalog_path_exists" (collisions.take maxCandidates))
        else
          .ok
            { sourcePath := shown, volumeGroup := group.name, fileCount := files.length
              byteCount := (files.map SourceFile.sizeBytes).sum
              tapeCount := (cat.cartridges.filter fun cartridge => cartridge.volumeGroupId = some group.id).length
              sampleFiles := (files.take maxCandidates).map SourceFile.path }

/-- What the catalog holds at the paths, once the job is over. -/
def archiveOutcome (preview : ArchivePreview) (expected : List String) (job : Job) (cat : Catalog) : ArchiveOutcome :=
  let stored := expected.filterMap cat.getFileRecord
  { jobId := job.id, state := job.state, sourcePath := preview.sourcePath, volumeGroup := preview.volumeGroup
    filesArchived := stored.length, filesExpected := expected.length, bytesArchived := (stored.map FileRecord.sizeBytes).sum
    tapes := ((stored.flatMap fun record => cat.instancesOf record.id).map FileInstance.barcode).dedup.insertionSort (· ≤ ·)
    allFilesInCatalog := decide (stored.length = expected.length) }

/-- `_archive_path`; no answer where the job is cut short. -/
def archivePath (sha256 : Bytes → String) (path volumeGroup : Option Json) (jobId : JobId) (choice : EnqueueChoice) (w : World) :
    Option (Except AssistantExn ArchiveOutcome) × World :=
  match resolveArchive b tree path volumeGroup w.catalog with
  | .error exc => (some (.error exc), w)
  | .ok preview =>
    let source := (PurePosixPath.ofString preview.sourcePath).parts
    match tree.catalogPathsFor source preview.volumeGroup with
    | .error exc => (some (.error exc), w)
    | .ok expected =>
      match enqueueArchive sha256 tree preview.volumeGroup source jobId choice w with
      | (none, w) => (none, w)
      | (some (.error exc), w) => (some (.error (.mediaOperationFailed ("archive failed: " ++ safeJobError exc))), w)
      | (some (.ok job), w) => (some (.ok (archiveOutcome preview expected job w.catalog)), w)

end facade

/-- The paths that `create_file_record` is called with in a run. -/
def createdPaths (calls : List (Step World Op fun o => Except Exn o.Ans)) : List String := calls.foldl noteCreated []

namespace MediaArchiveAux

open RecordsAux

variable {tree : HostTree} {source : List String} {groupName : String}

/-! ### Paths -/

theorem wellFormed_placePath {loc : List String} (h : ∀ name ∈ loc, IsComponent name) : (placePath loc).WellFormed := by
  refine ⟨⟨1, by decide, rfl⟩, loc.map String.toList, ?_, fun part hpart => ?_⟩
  · simp [placePath, Function.comp_def]
  · obtain ⟨name, hname, rfl⟩ := List.mem_map.1 hpart
    exact ⟨(h name hname).isPart, (h name hname).no_slash⟩

/-- The catalog directory of a group. -/
def groupPath (groupName : String) : PurePosixPath := (PurePosixPath.ofString "/").join (.ofString groupName)

theorem wellFormed_groupPath (groupName : String) : (groupPath groupName).WellFormed :=
  (wellFormed_ofString _).join (wellFormed_ofString _)

theorem isComponent_of_mem {loc : List String} {content : Bytes} (h : (loc, content) ∈ tree.files) :
    loc ≠ [] ∧ ∀ name ∈ loc, IsComponent name := tree.named loc (List.mem_map.2 ⟨_, h, rfl⟩)

/-- What is enumerated: the source itself, or files below it. -/
theorem mem_entriesOf {entry : List String × Bytes} (h : entry ∈ tree.entriesOf source) :
    entry ∈ tree.files ∧ if tree.isFile source = true then entry.1 = source else source <+: entry.1 := by
  unfold HostTree.entriesOf at h
  unfold HostTree.isFile
  cases hsource : tree.files.get? source with
  | some content =>
    rw [hsource] at h
    obtain rfl := List.mem_singleton.1 h
    exact ⟨Dict.mem_of_get? hsource, if_pos rfl |>.mpr rfl⟩
  | none =>
    rw [hsource] at h
    rw [List.mem_insertionSort, List.mem_filter] at h
    exact ⟨h.1, List.isPrefixOf_iff_prefix.1 h.2⟩

theorem nodup_entriesOf (tree : HostTree) (source : List String) : ((tree.entriesOf source).map Prod.fst).Nodup := by
  unfold HostTree.entriesOf
  cases tree.files.get? source with
  | some content => exact List.nodup_singleton source
  | none =>
    refine ((List.perm_insertionSort _ _).map _).nodup_iff.2 ?_
    exact tree.nodup.sublist (List.filter_sublist.map _)

/-- The names under which a file stands in its group. -/
def namesIn (tree : HostTree) (source loc : List String) : List String :=
  if tree.isFile source = true then [loc.getLast?.getD ""] else loc.drop source.length

theorem isComponent_namesIn {entry : List String × Bytes} (h : entry ∈ tree.entriesOf source) :
    ∀ name ∈ namesIn tree source entry.1, IsComponent name := by
  obtain ⟨hmem, -⟩ := mem_entriesOf h
  obtain ⟨hne, hnames⟩ := isComponent_of_mem hmem
  unfold namesIn
  split
  · intro name hname
    rw [List.mem_singleton.1 hname, List.getLast?_eq_getLast_of_ne_nil hne, Option.getD_some]
    exact hnames _ (List.getLast_mem hne)
  · exact fun name hname => hnames name (List.mem_of_mem_drop hname)

/-- Where a file lands in the catalog. -/
def landing (tree : HostTree) (source : List String) (groupName : String) (loc : List String) : String :=
  ((groupPath groupName).below (namesIn tree source loc)).toString

theorem name_sourceFile {loc : List String} {content : Bytes} (h : (loc, content) ∈ tree.files) :
    (HostTree.sourceFile loc content).name = loc.getLast?.getD "" := by
  obtain ⟨-, hnames⟩ := isComponent_of_mem h
  unfold SourceFile.name HostTree.sourceFile
  rw [ofString_toString (wellFormed_placePath hnames)]
  rfl

theorem relativeTo_below {source loc : List String} (h : source <+: loc) :
    (placePath loc).relativeTo (placePath source) = some { root := "", parts := loc.drop source.length } :=
  if_pos ⟨rfl, List.isPrefixOf_iff_prefix.2 h⟩

theorem join_relative (path : PurePosixPath) (names : List String) : path.join { root := "", parts := names } = path.below names := if_pos rfl

theorem join_component {name : String} (h : IsComponent name) (path : PurePosixPath) : path.join (.ofString name) = path.below [name] := by
  rw [h.ofString]
  exact join_relative path [name]

theorem wellFormed_relative {names : List String} (h : ∀ name ∈ names, IsComponent name) :
    ({ root := "", parts := names } : PurePosixPath).WellFormed := by
  have hempty : (PurePosixPath.ofString "").WellFormed := wellFormed_ofString ""
  have hbelow := wellFormed_below hempty h
  have hroot : (PurePosixPath.ofString "").below names = { root := "", parts := names } := by
    rw [show PurePosixPath.ofString "" = { root := "", parts := [] } by decide]
    rfl
  rwa [hroot] at hbelow

/-- The job takes a file to where the facade looks for it. -/
theorem catalogPathOf_eq (hsource : ∀ name ∈ source, IsComponent name) {entry : List String × Bytes} (h : entry ∈ tree.entriesOf source) :
    catalogPathOf (tree.archiveRequest groupName source) (HostTree.sourceFile entry.1 entry.2) =
      .ok (landing tree source groupName entry.1) := by
  obtain ⟨hmem, hplace⟩ := mem_entriesOf h
  have hnames := isComponent_namesIn h
  unfold catalogPathOf HostTree.archiveRequest landing
  dsimp only
  unfold namesIn at hnames ⊢
  cases hfile : tree.isFile source with
  | true =>
    rw [hfile, if_pos rfl] at hnames
    rw [if_pos rfl, if_pos rfl, name_sourceFile hmem, join_component (hnames _ (List.mem_singleton_self _))]
    rfl
  | false =>
    rw [hfile] at hplace
    rw [if_neg Bool.false_ne_true, if_neg Bool.false_ne_true, HostTree.sourceFile,
      ofString_toString (wellFormed_placePath (isComponent_of_mem hmem).2), ofString_toString (wellFormed_placePath hsource),
      relativeTo_below hplace]
    exact congrArg Except.ok (congrArg PurePosixPath.toString (join_relative _ _))

theorem catalogPathFor_eq {entry : List String × Bytes} (h : entry ∈ tree.entriesOf source) :
    tree.catalogPathFor source groupName (HostTree.sourceFile entry.1 entry.2) = .ok (landing tree source groupName entry.1) := by
  obtain ⟨hmem, hplace⟩ := mem_entriesOf h
  have hnames := isComponent_namesIn h
  unfold HostTree.catalogPathFor landing
  dsimp only
  unfold namesIn at hnames ⊢
  cases hfile : tree.isFile source with
  | true =>
    rw [hfile, if_pos rfl] at hnames
    rw [if_pos rfl, if_pos rfl, name_sourceFile hmem, join_component (hnames _ (List.mem_singleton_self _))]
    rfl
  | false =>
    rw [hfile] at hplace
    rw [hfile, if_neg Bool.false_ne_true] at hnames
    rw [if_neg Bool.false_ne_true, if_neg Bool.false_ne_true, HostTree.sourceFile,
      ofString_toString (wellFormed_placePath (isComponent_of_mem hmem).2), relativeTo_below hplace]
    dsimp only
    rw [ofString_toString (wellFormed_relative hnames), join_relative]
    rfl

theorem catalogPathsFor_eq (tree : HostTree) (source : List String) (groupName : String) :
    tree.catalogPathsFor source groupName = .ok ((tree.entriesOf source).map fun entry => landing tree source groupName entry.1) := by
  refine mapM_eq_ok_iff.2 ?_
  unfold HostTree.sourceFiles
  rw [List.forall₂_map_left_iff, List.forall₂_map_right_iff, List.forall₂_same]
  exact fun entry h => catalogPathFor_eq h

/-- Where a file that was enumerated lands, by its path. -/
def landingOf (tree : HostTree) (source : List String) (groupName : String) (file : SourceFile) : String :=
  landing tree source groupName (PurePosixPath.ofString file.path).parts

theorem landingOf_eq {entry : List String × Bytes} (h : entry ∈ tree.entriesOf source) :
    landingOf tree source groupName (HostTree.sourceFile entry.1 entry.2) = landing tree source groupName entry.1 := by
  unfold landingOf HostTree.sourceFile
  rw [ofString_toString (wellFormed_placePath (isComponent_of_mem (mem_entriesOf h).1).2)]
  rfl

theorem map_landingOf (tree : HostTree) (source : List String) (groupName : String) :
    (tree.archiveRequest groupName source).files.map (landingOf tree source groupName) =
      (tree.entriesOf source).map fun entry => landing tree source groupName entry.1 := by
  show ((tree.entriesOf source).map fun file => HostTree.sourceFile file.1 file.2).map (landingOf tree source groupName) = _
  rw [List.map_map]
  exact List.map_congr_left fun entry h => landingOf_eq h

/-- Files land at places of their own. -/
theorem landing_inj {entry other : List String × Bytes} (h : entry ∈ tree.entriesOf source) (h' : other ∈ tree.entriesOf source)
    (heq : landing tree source groupName entry.1 = landing tree source groupName other.1) : entry.1 = other.1 := by
  have hnames := isComponent_namesIn h
  have hnames' := isComponent_namesIn h'
  have hpath := congrArg PurePosixPath.ofString heq
  rw [landing, landing, ofString_toString (wellFormed_below (wellFormed_groupPath groupName) hnames),
    ofString_toString (wellFormed_below (wellFormed_groupPath groupName) hnames')] at hpath
  have hsame : namesIn tree source entry.1 = namesIn tree source other.1 :=
    List.append_cancel_left (congrArg PurePosixPath.parts hpath)
  obtain ⟨-, hplace⟩ := mem_entriesOf h
  obtain ⟨-, hplace'⟩ := mem_entriesOf h'
  unfold namesIn at hsame
  cases hfile : tree.isFile source with
  | true =>
    rw [hfile, if_pos rfl] at hplace hplace'
    rw [hplace, hplace']
  | false =>
    rw [hfile, if_neg Bool.false_ne_true] at hplace hplace' hsame
    rw [if_neg Bool.false_ne_true] at hsame
    obtain ⟨names, hnames⟩ := hplace
    obtain ⟨names', hnames'⟩ := hplace'
    rw [← hnames, ← hnames', List.drop_left, List.drop_left] at hsame
    rw [← hnames, ← hnames', hsame]

theorem posix_landing {entry : List String × Bytes} (h : entry ∈ tree.entriesOf source) :
    posix (landing tree source groupName entry.1) = landing tree source groupName entry.1 := by
  unfold posix landing
  rw [ofString_toString (wellFormed_below (wellFormed_groupPath groupName) (isComponent_namesIn h))]

/-- The files of a request have catalog paths of their own; they are new where none of them is catalogued. -/
theorem distinct_request (tree : HostTree) (source : List String) (groupName : String) {old : List FileRecord} {fresh : Prop}
    (hfresh : fresh → ∀ record ∈ old, ∀ entry ∈ tree.entriesOf source, record.path ≠ landing tree source groupName entry.1) :
    Distinct (landingOf tree source groupName) (tree.archiveRequest groupName source).files old fresh := by
  refine ⟨?_, fun file hfile => ?_, fun hf record hrecord file hfile => ?_⟩
  · rw [map_landingOf]
    have hcomp : ((tree.entriesOf source).map fun entry => landing tree source groupName entry.1) =
        ((tree.entriesOf source).map Prod.fst).map (landing tree source groupName) := by rw [List.map_map]; rfl
    rw [hcomp]
    refine (List.nodup_map_iff_inj_on (nodup_entriesOf tree source)).2 fun loc hloc loc' hloc' heq => ?_
    obtain ⟨entry, hentry, rfl⟩ := List.mem_map.1 hloc
    obtain ⟨other, hother, rfl⟩ := List.mem_map.1 hloc'
    exact landing_inj hentry hother heq
  · obtain ⟨entry, hentry, rfl⟩ := List.mem_map.1 hfile
    rw [landingOf_eq hentry, posix_landing hentry]
  · obtain ⟨entry, hentry, rfl⟩ := List.mem_map.1 hfile
    rw [landingOf_eq hentry]
    exact hfresh hf record hrecord entry hentry

theorem catalogPathOf_request (hsource : ∀ name ∈ source, IsComponent name) :
    ∀ file ∈ (tree.archiveRequest groupName source).files,
      catalogPathOf (tree.archiveRequest groupName source) file = .ok (landingOf tree source groupName file) := by
  intro file hfile
  obtain ⟨entry, hentry, rfl⟩ := List.mem_map.1 hfile
  rw [catalogPathOf_eq hsource hentry, landingOf_eq hentry]

/-! ### Runs -/

section runs

variable (sha256 : Bytes → String) {fresh : Prop} {old : List FileRecord} (scheduler : DriveScheduler) (jobId : JobId) {w : World}

/-- What a run has recorded, wherever it ended or was cut, and what it answers. -/
theorem run_recorded (hsource : ∀ name ∈ source, IsComponent name)
    (hdistinct : Distinct (landingOf tree source groupName) (tree.archiveRequest groupName source).files old fresh)
    (hrecords : w.catalog.records = old) (cs : List Choice) :
    let job := runArchiveJob sha256 (tree.archiveRequest groupName source) scheduler jobId {}
    let created := createdPaths ((machine sha256).trace cs job w)
    Within (landingOf tree source groupName) (tree.archiveRequest groupName source).files old fresh
        (((machine sha256).run cs job w).2, created) ∧
      ∀ result l w', (machine sha256).run cs job w = (.ret (.ok result, l), w') →
        Recorded (landingOf tree source groupName) old fresh (tree.archiveRequest groupName source).files (w', created) ∧
          result.filesArchived = (tree.archiveRequest groupName source).files.length ∧
          result.bytesArchived = ((tree.archiveRequest groupName source).files.map SourceFile.sizeBytes).sum := by
  have hs : Recorded (landingOf tree source groupName) old fresh [] (w, []) :=
    ⟨rfl, fun _ => ⟨[], by rw [List.append_nil, hrecords], rfl⟩⟩
  have hwp := @wp_runArchiveJob sha256 _ _ _ _ (tree.archiveRequest groupName source) scheduler jobId rfl hdistinct
    (catalogPathOf_request hsource) hs
  have hcut := cut_of_wp hwp (hs.within List.nil_prefix) cs fun _ _ => trivial
  have hend := (run_of_wp hwp cs fun _ _ => trivial).2
  dsimp only
  generalize runArchiveJob sha256 (tree.archiveRequest groupName source) scheduler jobId {} = job at hcut hend ⊢
  have hrun := (machine sha256).run_observed noteCreated cs job w []
  have hnote := (machine sha256).note_observed noteCreated cs job w []
  generalize hobserved : (recording sha256).run cs job (w, []) = observed at hcut hend hrun hnote
  obtain ⟨rest, w', created⟩ := observed
  obtain ⟨hrest, hworld⟩ := hrun
  dsimp only at hrest hworld hnote
  rw [createdPaths, ← hworld, ← hnote]
  refine ⟨hcut, fun result l w'' hdone => ?_⟩
  rw [hdone] at hrest hworld
  obtain rfl : w' = w'' := hworld
  exact hend (.ok result, l) (w', created) (by rw [hrest])

/-- The paths that are checked are those that records are created for, in the same order. -/
theorem created_checked (hsource : ∀ name ∈ source, IsComponent name) (cs : List Choice) :
    let job := runArchiveJob sha256 (tree.archiveRequest groupName source) scheduler jobId {}
    let created := createdPaths ((machine sha256).trace cs job w)
    ∃ checked, tree.catalogPathsFor source groupName = .ok checked ∧ created <+: checked ∧
      ∀ result l w', (machine sha256).run cs job w = (.ret (.ok result, l), w') → created = checked := by
  have hdistinct : Distinct (landingOf tree source groupName) (tree.archiveRequest groupName source).files w.catalog.records False :=
    distinct_request tree source groupName nofun
  have hrun := run_recorded sha256 scheduler jobId hsource hdistinct rfl cs
  dsimp only at hrun ⊢
  refine ⟨_, catalogPathsFor_eq tree source groupName, ?_, fun result l w' hend => ?_⟩
  · rw [← map_landingOf]
    exact hrun.1.created
  · rw [← map_landingOf]
    exact (hrun.2 result l w' hend).1.created

theorem counts_of_run (hsource : ∀ name ∈ source, IsComponent name) {cs : List Choice} {result : ArchiveResult} {l : ArchiveLocals} {w' : World}
    (hend : (machine sha256).run cs (runArchiveJob sha256 (tree.archiveRequest groupName source) scheduler jobId {}) w =
      (.ret (.ok result, l), w')) :
    (tree.sourceFiles source).length = result.filesArchived ∧
      ((tree.sourceFiles source).map SourceFile.sizeBytes).sum = result.bytesArchived := by
  have hdistinct : Distinct (landingOf tree source groupName) (tree.archiveRequest groupName source).files w.catalog.records False :=
    distinct_request tree source groupName nofun
  obtain ⟨-, hcount, hsum⟩ := (run_recorded sha256 scheduler jobId hsource hdistinct rfl cs).2 result l w' hend
  exact ⟨hcount.symm, hsum.symm⟩

/-- Deleting a record by another path leaves the old records in front. -/
theorem records_delete {cat : Catalog} {news : List FileRecord} {path : String} (hposix : posix path = path)
    (hrecords : cat.records = old ++ news) (hfresh : ∀ record ∈ old, record.path ≠ path) :
    ∃ news', (cat.deleteFileRecordIfUnarchived path).records = old ++ news' := by
  unfold Catalog.deleteFileRecordIfUnarchived
  cases hfound : cat.getFileRecord path with
  | none => exact ⟨news, hrecords⟩
  | some record =>
    dsimp only
    split
    · exact ⟨news, hrecords⟩
    · have hfound' : cat.records.find? (fun record => decide (record.path = posix path)) = some record := hfound
      have hsome : record.path = posix path := by simpa using List.find?_some hfound'
      have hpath : record.path = path := hsome.trans hposix
      have hnew : record ∉ old := fun hold => hfresh record hold hpath
      refine ⟨news.erase record, ?_⟩
      show cat.records.erase record = _
      rw [hrecords, List.erase_append_right _ hnew]

theorem records_removeUnarchived {request : ArchiveRequest} {pathOf : SourceFile → String} (removing : Nat → Option Fault) (n : Nat)
    {files : List SourceFile} {cat : Catalog} {news : List FileRecord}
    (hpath : ∀ file ∈ files, catalogPathOf request file = .ok (pathOf file)) (hposix : ∀ file ∈ files, posix (pathOf file) = pathOf file)
    (hrecords : cat.records = old ++ news) (hfresh : ∀ record ∈ old, ∀ file ∈ files, record.path ≠ pathOf file) :
    ∃ news', (removeUnarchived request removing n files cat).2.records = old ++ news' := by
  induction files generalizing n cat news with
  | nil => exact ⟨news, hrecords⟩
  | cons file files ih =>
    unfold removeUnarchived
    rw [hpath file List.mem_cons_self]
    cases removing n with
    | some fault => exact ⟨news, hrecords⟩
    | none =>
      obtain ⟨news', hnews'⟩ := records_delete (hposix file List.mem_cons_self) hrecords
        fun record hrecord => hfresh record hrecord file List.mem_cons_self
      exact ih (n + 1) (fun f hf => hpath f (List.mem_cons_of_mem _ hf)) (fun f hf => hposix f (List.mem_cons_of_mem _ hf)) hnews'
        fun record hrecord f hf => hfresh record hrecord f (List.mem_cons_of_mem _ hf)

/-- Where none of the paths is catalogued, the records that were there stay, whatever becomes of the archive. -/
theorem records_enqueueArchive (hsource : ∀ name ∈ source, IsComponent name)
    (hfresh : ∀ record ∈ w.catalog.records, ∀ entry ∈ tree.entriesOf source, record.path ≠ landing tree source groupName entry.1)
    (choice : EnqueueChoice) :
    ∃ news, (enqueueArchive sha256 tree groupName source jobId choice w).2.catalog.records = w.catalog.records ++ news := by
  have hdistinct : Distinct (landingOf tree source groupName) (tree.archiveRequest groupName source).files w.catalog.records True :=
    distinct_request tree source groupName fun _ => hfresh
  have hexcept : ∀ (exc : Exn) (w' : World) news, w'.catalog.records = w.catalog.records ++ news →
      ∃ news', (enqueueExcept (tree.archiveRequest groupName source) choice.removing exc w').2.catalog.records =
        w.catalog.records ++ news' :=
    fun exc w' news h => records_removeUnarchived choice.removing 0 (catalogPathOf_request hsource) hdistinct.posix h
      (hdistinct.fresh trivial)
  unfold enqueueArchive
  cases choice.creating with
  | some fault => exact ⟨[], (List.append_nil _).symm⟩
  | none =>
    cases choice.scheduler with
    | error fault => exact hexcept fault.exn _ [] (List.append_nil _).symm
    | ok scheduler =>
      dsimp only
      have hrun := run_recorded sha256 scheduler jobId (w := { w with catalog := w.catalog.createJob w.clock jobId }) hsource hdistinct rfl
        choice.job
      dsimp only at hrun
      obtain ⟨-, -, news, hnews, -⟩ := hrun.1.appended trivial
      generalize (machine sha256).run choice.job _ _ = state at hnews ⊢
      obtain ⟨rest, w'⟩ := state
      cases rest with
      | call o k => exact ⟨news, hnews⟩
      | ret answer =>
        obtain ⟨answer, l⟩ := answer
        cases answer with
        | error exc => exact hexcept exc w' news hnews
        | ok result =>
          dsimp only
          cases w'.catalog.getJob jobId with
          | none => exact ⟨news, hnews⟩
          | some job => exact ⟨news, hnews⟩

end runs

/-! ### What is let through -/

theorem isComponent_location {text : String} : ∀ name ∈ (PurePosixPath.ofString text).location, IsComponent name := by
  refine isComponent_foldl (fun _ h => absurd h List.not_mem_nil) fun comp hcomp => ?_
  exact splitSlash_no_slash (List.mem_of_mem_filter hcomp)

/-- An archive that is let through is of files none of which is catalogued. -/
theorem fresh_of_resolveArchive {b : TextBuiltins} {path volumeGroup : Option Json} {cat : Catalog} {preview : ArchivePreview}
    (h : resolveArchive b tree path volumeGroup cat = .ok preview) :
    ∃ source, (∀ name ∈ source, IsComponent name) ∧ (PurePosixPath.ofString preview.sourcePath).parts = source ∧
      preview.fileCount = (tree.sourceFiles source).length ∧
      preview.byteCount = ((tree.sourceFiles source).map SourceFile.sizeBytes).sum ∧
      ∀ record ∈ cat.records, ∀ entry ∈ tree.entriesOf source, record.path ≠ landing tree source preview.volumeGroup entry.1 := by
  unfold resolveArchive at h
  obtain ⟨text, -, h⟩ := Effects.bind_eq_ok.1 h
  dsimp only at h
  have hnames : ∀ name ∈ (PurePosixPath.ofString text).location, IsComponent name := isComponent_location
  generalize (PurePosixPath.ofString text).location = source at h hnames
  split at h
  · cases h
  split at h
  · cases h
  split at h
  · cases h
  rename_i group hgroup
  split at h
  · cases h
  split at h
  · cases h
  rw [catalogPathsFor_eq] at h
  obtain ⟨paths, hpaths, h⟩ := Effects.bind_eq_ok.1 h
  cases hpaths
  split at h
  · cases h
  rename_i hcollisions
  cases h
  refine ⟨source, hnames, ?_, rfl, rfl, fun record hrecord entry hentry heq => hcollisions ?_⟩
  · dsimp only
    rw [ofString_toString (wellFormed_placePath hnames)]
    rfl
  · refine List.ne_nil_of_mem (a := landing tree source group.name entry.1) (List.mem_filter.2 ⟨List.mem_map.2 ⟨entry, hentry, rfl⟩, ?_⟩)
    refine List.find?_isSome.2 ⟨record, hrecord, ?_⟩
    rw [posix_landing hentry]
    exact decide_eq_true heq

end MediaArchiveAux

open MediaArchiveAux

/-- The paths that are checked for collisions are those the job creates records for, and the counts of the preview are those of the
job. Whatever becomes of an archive, the records that were there stay as they were. -/
theorem archive_checks_what_it_records (b : TextBuiltins) (sha256 : Bytes → String) (tree : HostTree) (path volumeGroup : Option Json)
    (jobId : JobId) (choice : EnqueueChoice) (w : World) :
    (∀ text groupName scheduler cs w₁,
      let source := (PurePosixPath.ofString text).location
      let job := runArchiveJob sha256 (tree.archiveRequest groupName source) scheduler jobId {}
      let created := createdPaths ((machine sha256).trace cs job w₁)
      ∃ checked, tree.catalogPathsFor source groupName = .ok checked ∧ created <+: checked ∧
        ∀ result l w₂, (machine sha256).run cs job w₁ = (.ret (.ok result, l), w₂) → created = checked) ∧
    (∀ preview, resolveArchive b tree path volumeGroup w.catalog = .ok preview →
      let request := tree.archiveRequest preview.volumeGroup (PurePosixPath.ofString preview.sourcePath).parts
      ∀ scheduler cs w₁ result l w₂, (machine sha256).run cs (runArchiveJob sha256 request scheduler jobId {}) w₁ = (.ret (.ok result, l), w₂) →
        preview.fileCount = result.filesArchived ∧ preview.byteCount = result.bytesArchived) ∧
    ∃ news, (archivePath b tree sha256 path volumeGroup jobId choice w).2.catalog.records = w.catalog.records ++ news := by
  refine ⟨fun text groupName scheduler cs w₁ => created_checked sha256 scheduler jobId isComponent_location cs, fun preview hpreview => ?_,
    ?_⟩
  · obtain ⟨source, hnames, hparts, hfiles, hbytes, -⟩ := fresh_of_resolveArchive hpreview
    rw [hparts, hfiles, hbytes]
    exact fun scheduler cs w₁ result l w₂ hend => counts_of_run sha256 scheduler jobId hnames hend
  · unfold archivePath
    cases hpreview : resolveArchive b tree path volumeGroup w.catalog with
    | error exc => exact ⟨[], (List.append_nil _).symm⟩
    | ok preview =>
      obtain ⟨source, hnames, hparts, -, -, hfresh⟩ := fresh_of_resolveArchive hpreview
      dsimp only
      rw [hparts, catalogPathsFor_eq]
      obtain ⟨news, hnews⟩ := records_enqueueArchive sha256 jobId hnames hfresh choice
      dsimp only
      generalize enqueueArchive sha256 tree preview.volumeGroup source jobId choice w = answer at hnews ⊢
      obtain ⟨answer, w'⟩ := answer
      rcases answer with _ | _ | _ <;> exact ⟨news, hnews⟩

end OpenBlade
