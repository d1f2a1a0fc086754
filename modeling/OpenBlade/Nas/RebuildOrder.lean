import OpenBlade.Nas.CatalogRebuild

/-!
# Rebuilding again, and in another order

What a run of the rebuild leaves of each row, told by the entries that the tapes give for it. Doing it again leaves the rows as they
are. The order of the tapes can be seen wherever two tapes differ on a column whose last value wins, and the counts of a dataset are
those of its last entry; `rebuild_stable_iff` says exactly when neither shows.
-/

namespace OpenBlade

open Effects

/-- The name that the row of a dataset has after a rebuild, if it may have one. -/
def RebuildCatalog.nameFor (cat : RebuildCatalog) (id : String) : Option String :=
  recoveredName id ((cat.nas.getNasDataset id).getD (blankDataset id))

/-- The entries of a tape that a rebuild comes to. -/
structure Contribution where
  datasets : List (Barcode × CatalogShardDatasetEntry) := []
  files : List (Barcode × CatalogShardFileEntry) := []
  mappings : List PathMappingRecord := []

/-- What a tape gives: the dataset entries up to one whose name is refused; if all are taken, the file entries up to one without a
path; and if all of these are too, the mappings, unless one is refused. -/
def contribution (names : String → Option String) (tapes : Barcode → TapeReading) (barcode : Barcode) : Contribution :=
  match (tapes barcode).shard with
  | none => {}
  | some shard =>
    let allDatasets := shard.datasets.all fun e => (names e.datasetId).isSome
    let allFiles := shard.files.all fun e => e.logicalPath ≠ ""
    { datasets := (shard.datasets.takeWhile fun e => (names e.datasetId).isSome).map (barcode, ·)
      files := if allDatasets then (shard.files.takeWhile fun e => e.logicalPath ≠ "").map (barcode, ·) else []
      mappings := if allDatasets ∧ allFiles then shard.toPathMappings.getD [] else [] }

/-- A row without its barcodes. -/
def NasDataset.bare (row : NasDataset) : NasDataset := { row with tapeSet := [] }

/-- A mapping without its barcodes. -/
def PathMappingRecord.bare (record : PathMappingRecord) : PathMappingRecord := { record with allBarcodes := [] }

variable (storedPolicy : Codec.Json → Option String)

/-! ### The columns that show the order -/

section

variable (names : String → Option String) (tapes : Barcode → TapeReading) (planned : List Barcode)

/-- The entries of a tape for one dataset, one file record, one path. -/
def datasetEntries (id : String) (barcode : Barcode) : List (Barcode × CatalogShardDatasetEntry) :=
  (contribution names tapes barcode).datasets.filter fun x => x.2.datasetId = id

def fileEntries (id : String) (barcode : Barcode) : List (Barcode × CatalogShardFileEntry) :=
  (contribution names tapes barcode).files.filter fun x => x.2.fileRecordId = id

def mappingEntries (key : String × String) (barcode : Barcode) : List PathMappingRecord :=
  (contribution names tapes barcode).mappings.filter fun record => record.key = key

/-- The tapes that give a value to a column of a row, give it the same last value. -/
def TapesAgree {ε γ : Type} (entries : Barcode → List ε) (column : ε → Option γ) : Prop :=
  OneValue (planned.map fun barcode => lastOf none ((entries barcode).map column))

/-- The tapes agree on every column of every row that the last entry sets, and where a file record has no tape yet they agree on it. -/
structure ShardsAgree (cat : RebuildCatalog) : Prop where
  pool : ∀ id, TapesAgree planned (datasetEntries names tapes id) fun x => nonEmpty x.2.poolId
  policy : ∀ id, TapesAgree planned (datasetEntries names tapes id) fun x => nonEmpty x.2.policy
  mode : ∀ id, TapesAgree planned (datasetEntries names tapes id) fun x => parseIngestMode x.2.ingestMode
  group : ∀ id, TapesAgree planned (datasetEntries names tapes id) fun x => nonEmpty x.2.volumeGroup
  counts : ∀ id, TapesAgree planned (datasetEntries names tapes id) fun x => some (x.2.fileCount, x.2.totalBytes)
  protection : ∀ id, TapesAgree planned (datasetEntries names tapes id) fun x => x.2.policyRow storedPolicy
  file : ∀ id, TapesAgree planned (fileEntries names tapes id) fun x => some (x.2.datasetId, x.2.logicalPath, x.2.size)
  filePool : ∀ id, TapesAgree planned (fileEntries names tapes id) fun x => nonEmpty x.2.poolId
  mtime : ∀ id, TapesAgree planned (fileEntries names tapes id) fun x => nonEmpty x.2.mtime
  checksum : ∀ id, TapesAgree planned (fileEntries names tapes id) fun x => nonEmpty x.2.checksum
  tape : ∀ id, (cat.nas.getNasFileRecord id).bind (fun row => row.tapeBarcode.filter (· ≠ "")) = none →
    TapesAgree planned (fileEntries names tapes id) fun x => nonEmpty x.1
  mapping : ∀ key, TapesAgree planned (mappingEntries names tapes key) fun record => some record.bare

/-- The ids of the file records that the tapes give. -/
def recoveredIds : List String := ((planned.flatMap fun barcode => (contribution names tapes barcode).files).map (·.2.fileRecordId)).dedup

/-- The dataset and the size of a file record, as its last entry has them. -/
def lastFile (id : String) : Option (String × Int) :=
  lastOf none ((planned.flatMap (fileEntries names tapes id)).map fun x => some (x.2.datasetId, x.2.size))

/-- The last entry of every dataset counts the file records that the tapes give of it. -/
def ShardsCount : Prop :=
  ∀ id, ∀ counts, lastOf none ((planned.flatMap (datasetEntries names tapes id)).map fun x => some (x.2.fileCount, x.2.totalBytes)) = some counts →
    let sizes := ((recoveredIds names tapes planned).filterMap (lastFile names tapes planned)).filter (·.1 = id) |>.map Prod.snd
    counts = (sizes.length, sizes.sum)

end

/-! ### What is asked of a rebuild -/

/-- Two rows are the same up to the order of their barcodes. -/
def SameDataset (a b : NasDataset) : Prop := a.bare = b.bare ∧ a.tapeSet.Perm b.tapeSet

def SameMapping (a b : PathMappingRecord) : Prop := a.bare = b.bare ∧ a.allBarcodes.Perm b.allBarcodes

/-- Two catalogs have the same rows. -/
structure SameTables (a b : RebuildCatalog) : Prop where
  datasets : ∀ id, a.nas.getNasDataset id = b.nas.getNasDataset id
  protections : ∀ id, a.protections.get? id = b.protections.get? id
  files : ∀ id, a.nas.getNasFileRecord id = b.nas.getNasFileRecord id
  mappings : ∀ path pool, a.index.getPathMapping path pool = b.index.getPathMapping path pool

/-- Two catalogs have the same rows up to the order of barcode lists. -/
structure SameRows (a b : RebuildCatalog) : Prop where
  datasets : ∀ id, Option.Rel SameDataset (a.nas.getNasDataset id) (b.nas.getNasDataset id)
  protections : ∀ id, a.protections.get? id = b.protections.get? id
  files : ∀ id, a.nas.getNasFileRecord id = b.nas.getNasFileRecord id
  mappings : ∀ path pool, Option.Rel SameMapping (a.index.getPathMapping path pool) (b.index.getPathMapping path pool)

/-- The catalog after a run over some tapes. -/
def rebuilt (tapes : Barcode → TapeReading) (cat : RebuildCatalog) (planned : List Barcode) : RebuildCatalog :=
  (executeRebuildRun storedPolicy tapes planned cat).2

/-- The file records of a run that are of a dataset. -/
def recoveredFiles (names : String → Option String) (tapes : Barcode → TapeReading) (planned : List Barcode) (final : RebuildCatalog)
    (datasetId : String) : List NasFileRecord :=
  ((recoveredIds names tapes planned).filterMap final.nas.getNasFileRecord).filter fun row => row.datasetId = datasetId

/-- A rebuild of these tapes can be repeated, can be done in any order and in several runs, and leaves the counts of every dataset it
recovers those of the recovered files. -/
structure RebuildStable (tapes : Barcode → TapeReading) (cat : RebuildCatalog) (planned : List Barcode) : Prop where
  again : SameTables (rebuilt storedPolicy tapes (rebuilt storedPolicy tapes cat planned) planned) (rebuilt storedPolicy tapes cat planned)
  order : ∀ runs : List (List Barcode), planned.Perm runs.flatten →
    SameRows (runs.foldl (rebuilt storedPolicy tapes) cat) (rebuilt storedPolicy tapes cat planned)
  counts : ∀ id row, (rebuilt storedPolicy tapes cat planned).nas.getNasDataset id = some row →
    planned.flatMap (datasetEntries cat.nameFor tapes id) ≠ [] →
      let files := recoveredFiles cat.nameFor tapes planned (rebuilt storedPolicy tapes cat planned) id
      row.fileCount = files.length ∧ row.totalBytes = (files.map NasFileRecord.sizeBytes).sum

namespace RebuildAux

variable {storedPolicy : Codec.Json → Option String}

/-! ### Names -/

theorem strip_strip (text : String) : strip (strip text) = strip text := by
  have hstrip : ∀ text : String, strip text = String.ofList ((text.toList.dropWhile isSpace).rdropWhile isSpace) := fun _ => rfl
  -- What is left of a text begins with no space.
  have hhead : ((text.toList.dropWhile isSpace).rdropWhile isSpace).dropWhile isSpace =
      (text.toList.dropWhile isSpace).rdropWhile isSpace := by
    obtain ⟨after, hafter⟩ := List.rdropWhile_prefix isSpace (text.toList.dropWhile isSpace)
    cases hrest : (text.toList.dropWhile isSpace).rdropWhile isSpace with
    | nil => rfl
    | cons c chars =>
      have hc := List.head?_dropWhile_not isSpace text.toList
      rw [← hafter, hrest] at hc
      have hspace : isSpace c = false := by simpa using hc
      rw [List.dropWhile_cons_of_neg (by simp [hspace])]
  rw [hstrip (strip text), hstrip text, String.toList_ofList, hhead, List.rdropWhile_idempotent]

/-- A name that was accepted is accepted as it is. -/
theorem stripRequiredString_accepted {value fieldName name : String} {maxLength : Nat}
    (h : stripRequiredString value fieldName maxLength = .ok name) : name ≠ "" ∧ stripRequiredString name fieldName maxLength = .ok name := by
  unfold stripRequiredString at h
  split at h
  · nomatch h
  · split at h
    · nomatch h
    · rename_i hempty hlength
      obtain rfl := Except.ok.inj h
      unfold stripRequiredString
      rw [strip_strip, if_neg hempty, if_neg hlength]
      exact ⟨hempty, rfl⟩

theorem recoveredName_accepted {id name : String} {existing row : NasDataset} (h : recoveredName id existing = some name)
    (hrow : row.name = name) : recoveredName id row = some name := by
  unfold recoveredName at h
  cases hstrip : stripRequiredString (if existing.name = "" then id else existing.name) "name" 128 with
  | error exc =>
    rw [hstrip] at h
    nomatch h
  | ok text =>
    rw [hstrip] at h
    obtain rfl : text = name := Option.some.inj h
    obtain ⟨hempty, hagain⟩ := stripRequiredString_accepted hstrip
    unfold recoveredName
    rw [hrow, if_neg hempty, hagain]
    rfl

/-! ### One entry -/

/-- The update of a dataset row by an entry. -/
def overDataset (names : String → Option String) (row : NasDataset) (x : Barcode × CatalogShardDatasetEntry) : NasDataset :=
  x.2.over x.1 ((names x.2.datasetId).getD "") row

def overFile (row : NasFileRecord) (x : Barcode × CatalogShardFileEntry) : NasFileRecord := x.2.over x.1 row

def overMapping (row record : PathMappingRecord) : PathMappingRecord :=
  { record with allBarcodes := gather row.allBarcodes record.allBarcodes }

def blankMapping : PathMappingRecord := { logicalPath := "" }

/-- The catalog after an entry that is taken. -/
def nextDataset (storedPolicy : Codec.Json → Option String) (names : String → Option String) (cat : RebuildCatalog)
    (x : Barcode × CatalogShardDatasetEntry) : RebuildCatalog :=
  { cat with
    nas := cat.nas.upsertNasDataset (overDataset names ((cat.nas.getNasDataset x.2.datasetId).getD (blankDataset x.2.datasetId)) x)
    protections := match x.2.policyRow storedPolicy with
      | none => cat.protections
      | some policy => cat.protections.set x.2.datasetId policy }

def nextFile (cat : RebuildCatalog) (x : Barcode × CatalogShardFileEntry) : RebuildCatalog :=
  { cat with
    nas := cat.nas.upsertNasFileRecord
      (overFile ((cat.nas.getNasFileRecord x.2.fileRecordId).getD (blankFileRecord x.2.fileRecordId)) x) }

def nextMapping (cat : RebuildCatalog) (record : PathMappingRecord) : RebuildCatalog :=
  { cat with
    index := cat.index.upsertPathMapping <| match cat.index.getPathMapping record.logicalPath record.poolId with
      | none => record
      | some existing => overMapping existing record }

section stages

variable {names : String → Option String} {barcode : Barcode} {cat : RebuildCatalog}

/-- Steps that fail on what is refused and on nothing else. -/
theorem recoverEach_eq {σ ε : Type} (step : σ → ε → Option (Bool × σ)) (next : σ → ε → σ) (taken : ε → Bool) (I : σ → Prop)
    (htaken : ∀ s e, I s → taken e = true → (∃ isNew, step s e = some (isNew, next s e)) ∧ I (next s e))
    (hrefused : ∀ s e, I s → taken e = false → step s e = none) (s : σ) (hs : I s) (es : List ε) :
    (recoverEach step s es).2 = (es.takeWhile taken).foldl next s ∧ (recoverEach step s es).1.isSome = es.all taken ∧
      I (recoverEach step s es).2 := by
  induction es generalizing s with
  | nil => exact ⟨rfl, rfl, hs⟩
  | cons e es ih =>
    unfold recoverEach
    cases he : taken e with
    | false =>
      rw [hrefused s e hs he]
      refine ⟨?_, by simp [he], hs⟩
      rw [List.takeWhile_cons_of_neg (by simp [he])]
      rfl
    | true =>
      obtain ⟨⟨isNew, hstep⟩, hnext⟩ := htaken s e hs he
      obtain ⟨hfinal, hall, hI⟩ := ih (next s e) hnext
      rw [hstep, List.takeWhile_cons_of_pos he, List.foldl_cons]
      exact ⟨hfinal, by simpa [he] using hall, hI⟩

theorem nameFor_nextDataset (hnames : ∀ id, cat.nameFor id = names id) {x : Barcode × CatalogShardDatasetEntry} {name : String}
    (hname : names x.2.datasetId = some name) (id : String) : (nextDataset storedPolicy names cat x).nameFor id = names id := by
  have hget : (nextDataset storedPolicy names cat x).nas.getNasDataset id =
      if x.2.datasetId = id then
        some (overDataset names ((cat.nas.getNasDataset x.2.datasetId).getD (blankDataset x.2.datasetId)) x)
      else cat.nas.getNasDataset id := Dict.get?_set _ _ _ _
  unfold RebuildCatalog.nameFor
  rw [hget]
  split
  · rename_i hid
    subst hid
    rw [hname]
    refine recoveredName_accepted ((hnames _).trans hname) ?_
    unfold overDataset
    rw [hname]
    rfl
  · exact hnames id

variable (storedPolicy barcode) in
/-- The dataset entries of a tape, up to one whose name is refused. -/
theorem recoverDatasets_eq (hnames : ∀ id, cat.nameFor id = names id) (es : List CatalogShardDatasetEntry) :
    (recoverEach (recoverDataset storedPolicy barcode) cat es).2 =
        ((es.takeWhile fun e => (names e.datasetId).isSome).map (barcode, ·)).foldl (nextDataset storedPolicy names) cat ∧
      (recoverEach (recoverDataset storedPolicy barcode) cat es).1.isSome = es.all (fun e => (names e.datasetId).isSome) ∧
      ∀ id, (recoverEach (recoverDataset storedPolicy barcode) cat es).2.nameFor id = names id := by
  rw [List.foldl_map]
  refine recoverEach_eq (recoverDataset storedPolicy barcode) (fun cat e => nextDataset storedPolicy names cat (barcode, e))
    (fun e => (names e.datasetId).isSome) (fun cat => ∀ id, cat.nameFor id = names id) ?_ ?_ cat hnames es
  · intro cat e hcat htaken
    obtain ⟨name, hname⟩ := Option.isSome_iff_exists.1 htaken
    refine ⟨⟨(cat.nas.getNasDataset e.datasetId).isNone, ?_⟩, nameFor_nextDataset hcat hname⟩
    have hrecovered : recoveredName e.datasetId ((cat.nas.getNasDataset e.datasetId).getD (blankDataset e.datasetId)) = some name :=
      (hcat e.datasetId).trans hname
    unfold recoverDataset nextDataset overDataset
    dsimp only
    rw [hrecovered, hname]
    rfl
  · intro cat e hcat hrefused
    have hnone : recoveredName e.datasetId ((cat.nas.getNasDataset e.datasetId).getD (blankDataset e.datasetId)) = none := by
      rw [← Option.not_isSome_iff_eq_none]
      intro hsome
      have := (congrArg Option.isSome (hcat e.datasetId)).symm.trans hsome
      simp [hrefused] at this
    unfold recoverDataset
    dsimp only
    rw [hnone]
    rfl

variable (barcode cat) in
/-- The file entries of a tape, up to one without a path. -/
theorem recoverFiles_eq (es : List CatalogShardFileEntry) :
    (recoverEach (recoverFile barcode) cat es).2 =
        ((es.takeWhile fun e => e.logicalPath ≠ "").map (barcode, ·)).foldl nextFile cat ∧
      (recoverEach (recoverFile barcode) cat es).1.isSome = es.all (fun e => e.logicalPath ≠ "") := by
  rw [List.foldl_map]
  have heach := recoverEach_eq (recoverFile barcode) (fun cat e => nextFile cat (barcode, e)) (fun e => e.logicalPath ≠ "")
    (fun _ : RebuildCatalog => True) ?_ ?_ cat trivial es
  · exact ⟨heach.1, heach.2.1⟩
  · intro cat e _ htaken
    refine ⟨⟨(cat.nas.getNasFileRecord e.fileRecordId).isNone, ?_⟩, trivial⟩
    unfold recoverFile
    exact if_neg (of_decide_eq_true htaken)
  · intro cat e _ hrefused
    unfold recoverFile
    exact if_pos (by simpa using hrefused)

variable (cat) in
/-- The mappings of a tape. None is refused, and the barcode of each is gathered. -/
theorem recoverPathMappings_eq (records : List PathMappingRecord) :
    (recoverEach recoverPathMapping cat records).2 = records.foldl nextMapping cat ∧
      (recoverEach recoverPathMapping cat records).1.isSome = true := by
  have heach := recoverEach_eq recoverPathMapping nextMapping (fun _ => true) (fun _ : RebuildCatalog => True) ?_ ?_ cat trivial records
  · rw [List.takeWhile_eq_self_iff.2 fun _ _ => rfl] at heach
    exact ⟨heach.1, by rw [heach.2.1]; simp⟩
  · intro cat record _ _
    unfold recoverPathMapping nextMapping overMapping
    cases cat.index.getPathMapping record.logicalPath record.poolId with
    | none => exact ⟨⟨true, rfl⟩, trivial⟩
    | some existing => exact ⟨⟨false, rfl⟩, trivial⟩
  · intro _ _ _ hfalse
    nomatch hfalse

end stages

/-! ### A run -/

/-- What a run leaves of every row: the row that was there, updated by the entries of the tapes one after the other. -/
structure Gives (storedPolicy : Codec.Json → Option String) (names : String → Option String) (tapes : Barcode → TapeReading)
    (planned : List Barcode) (cat final : RebuildCatalog) : Prop where
  nameFor : ∀ id, final.nameFor id = names id
  datasets : ∀ id, final.nas.getNasDataset id =
    rowAfter (overDataset names) (blankDataset id) (cat.nas.getNasDataset id) (planned.flatMap (datasetEntries names tapes id))
  protections : ∀ id, final.protections.get? id =
    lastOf (cat.protections.get? id) ((planned.flatMap (datasetEntries names tapes id)).map fun x => x.2.policyRow storedPolicy)
  files : ∀ id, final.nas.getNasFileRecord id =
    rowAfter overFile (blankFileRecord id) (cat.nas.getNasFileRecord id) (planned.flatMap (fileEntries names tapes id))
  mappings : ∀ key, final.index.rows.get? key =
    rowAfter overMapping blankMapping (cat.index.rows.get? key) (planned.flatMap (mappingEntries names tapes key))

theorem Gives.append {names : String → Option String} {tapes : Barcode → TapeReading} {planned planned' : List Barcode}
    {cat mid final : RebuildCatalog} (h : Gives storedPolicy names tapes planned cat mid)
    (h' : Gives storedPolicy names tapes planned' mid final) : Gives storedPolicy names tapes (planned ++ planned') cat final where
  nameFor := h'.nameFor
  datasets id := by rw [h'.datasets, h.datasets, List.flatMap_append, rowAfter_append]
  protections id := by rw [h'.protections, h.protections, List.flatMap_append, List.map_append, lastOf_append]
  files id := by rw [h'.files, h.files, List.flatMap_append, rowAfter_append]
  mappings key := by rw [h'.mappings, h.mappings, List.flatMap_append, rowAfter_append]

section tape

variable {names : String → Option String} {tapes : Barcode → TapeReading} {barcode : Barcode} {cat : RebuildCatalog}

/-- What a tape's entries do to the tables, stage by stage. -/
def applied (storedPolicy : Codec.Json → Option String) (names : String → Option String) (c : Contribution) (cat : RebuildCatalog) :
    RebuildCatalog :=
  c.mappings.foldl nextMapping (c.files.foldl nextFile (c.datasets.foldl (nextDataset storedPolicy names) cat))

theorem mem_of_mapM {α β : Type} {f : α → Option β} {xs : List α} {ys : List β} (h : xs.mapM f = some ys) {y : β} (hy : y ∈ ys) :
    ∃ x ∈ xs, f x = some y := by
  induction xs generalizing ys with
  | nil =>
    obtain rfl : [] = ys := Option.some.inj h
    nomatch hy
  | cons x xs ih =>
    rw [List.mapM_cons] at h
    obtain ⟨z, hz, h⟩ := Option.bind_eq_some_iff.1 h
    obtain ⟨zs, hzs, h⟩ := Option.bind_eq_some_iff.1 h
    obtain rfl : z :: zs = ys := Option.some.inj h
    rcases List.mem_cons.1 hy with rfl | hy
    · exact ⟨x, List.mem_cons_self, hz⟩
    · obtain ⟨x', hx', hfx'⟩ := ih hzs hy
      exact ⟨x', List.mem_cons_of_mem _ hx', hfx'⟩

/-- The mappings of a shard name its own barcode alone. -/
theorem allBarcodes_of_toPathMappings {shard : CatalogShard} {records : List PathMappingRecord}
    (h : shard.toPathMappings = some records) {record : PathMappingRecord} (hrecord : record ∈ records) :
    record.allBarcodes = [shard.barcode] := by
  obtain ⟨entry, -, hentry⟩ := mem_of_mapM h hrecord
  obtain ⟨path, -, rfl⟩ := Option.map_eq_some_iff.1 hentry
  rfl

/-- What a tape does is what its entries do. -/
theorem recoverShard_eq {shard : CatalogShard} (hshard : (tapes barcode).shard = some shard) (hnames : ∀ id, cat.nameFor id = names id)
    (versionsReadable : Bool) : (recoverShard storedPolicy barcode versionsReadable cat shard).2 =
      applied storedPolicy names (contribution names tapes barcode) cat := by
  obtain ⟨hdatasets, halldatasets, -⟩ := recoverDatasets_eq storedPolicy barcode hnames shard.datasets
  unfold recoverShard contribution applied
  rw [hshard]
  dsimp only
  generalize hstage : recoverEach (recoverDataset storedPolicy barcode) cat shard.datasets = stage at hdatasets halldatasets ⊢
  obtain ⟨count, cat₁⟩ := stage
  obtain rfl := hdatasets
  cases count with
  | none =>
    have hall : (shard.datasets.all fun e => (names e.datasetId).isSome) = false := halldatasets.symm
    rw [hall]
    rfl
  | some datasets =>
    have hall : (shard.datasets.all fun e => (names e.datasetId).isSome) = true := halldatasets.symm
    rw [hall]
    dsimp only
    generalize ((shard.datasets.takeWhile _).map _).foldl (nextDataset storedPolicy names) cat = cat₁
    obtain ⟨hfiles, hallfiles⟩ := recoverFiles_eq barcode cat₁ shard.files
    generalize hstage' : recoverEach (recoverFile barcode) cat₁ shard.files = stage at hfiles hallfiles ⊢
    obtain ⟨count, cat₂⟩ := stage
    obtain rfl := hfiles
    cases count with
    | none =>
      have hall' : (shard.files.all fun e => e.logicalPath ≠ "") = false := hallfiles.symm
      rw [hall']
      rfl
    | some files =>
      have hall' : (shard.files.all fun e => e.logicalPath ≠ "") = true := hallfiles.symm
      rw [hall']
      dsimp only
      cases hrecords : shard.toPathMappings with
      | none => rfl
      | some records =>
        obtain ⟨hmappings, hcount⟩ :=
          recoverPathMappings_eq (((shard.files.takeWhile fun e => e.logicalPath ≠ "").map (barcode, ·)).foldl nextFile cat₁) records
        dsimp only
        generalize recoverEach recoverPathMapping _ records = stage at hmappings hcount ⊢
        obtain ⟨count, cat₃⟩ := stage
        obtain rfl := hmappings
        cases count with
        | none => nomatch hcount
        | some pathMappings => rfl

theorem getNasDataset_nextDataset (cat : RebuildCatalog) (x : Barcode × CatalogShardDatasetEntry) (id : String) :
    (nextDataset storedPolicy names cat x).nas.getNasDataset id =
      if x.2.datasetId = id then some (overDataset names ((cat.nas.getNasDataset id).getD (blankDataset id)) x)
      else cat.nas.getNasDataset id := by
  refine (Dict.get?_set _ _ _ _).trans ?_
  by_cases hid : x.2.datasetId = id
  · subst hid
    rfl
  · rw [if_neg hid]
    exact if_neg hid

theorem protections_nextDataset (cat : RebuildCatalog) (x : Barcode × CatalogShardDatasetEntry) (id : String) :
    (nextDataset storedPolicy names cat x).protections.get? id =
      if x.2.datasetId = id then (x.2.policyRow storedPolicy).or (cat.protections.get? id) else cat.protections.get? id := by
  unfold nextDataset
  cases x.2.policyRow storedPolicy with
  | none => exact (ite_self _).symm
  | some policy =>
    refine (Dict.get?_set _ _ _ _).trans ?_
    by_cases hid : x.2.datasetId = id
    · rw [if_pos hid, if_pos hid]
      rfl
    · rw [if_neg hid, if_neg hid]

theorem getNasFileRecord_nextFile (cat : RebuildCatalog) (x : Barcode × CatalogShardFileEntry) (id : String) :
    (nextFile cat x).nas.getNasFileRecord id =
      if x.2.fileRecordId = id then some (overFile ((cat.nas.getNasFileRecord id).getD (blankFileRecord id)) x)
      else cat.nas.getNasFileRecord id := by
  refine (Dict.get?_set _ _ _ _).trans ?_
  by_cases hid : x.2.fileRecordId = id
  · subst hid
    rfl
  · rw [if_neg hid]
    exact if_neg hid

theorem rows_nextMapping (cat : RebuildCatalog) {record : PathMappingRecord} (hone : gather [] record.allBarcodes = record.allBarcodes)
    (key : String × String) : (nextMapping cat record).index.rows.get? key =
      if record.key = key then some (overMapping ((cat.index.rows.get? key).getD blankMapping) record)
      else cat.index.rows.get? key := by
  have hget : cat.index.getPathMapping record.logicalPath record.poolId = cat.index.rows.get? record.key := rfl
  unfold nextMapping
  rw [hget]
  cases hrow : cat.index.rows.get? record.key with
  | none =>
    refine (Dict.get?_set _ _ _ _).trans ?_
    by_cases hkey : record.key = key
    · subst hkey
      rw [if_pos rfl, if_pos rfl, hrow]
      unfold overMapping blankMapping
      simp only [Option.getD_none, hone]
    · rw [if_neg hkey, if_neg hkey]
  | some existing =>
    refine (Dict.get?_set _ _ _ _).trans ?_
    by_cases hkey : record.key = key
    · subst hkey
      rw [if_pos rfl, hrow]
      exact if_pos rfl
    · rw [if_neg hkey]
      exact if_neg hkey

theorem nameFor_foldl {es : List (Barcode × CatalogShardDatasetEntry)} (hnames : ∀ id, cat.nameFor id = names id)
    (htaken : ∀ x ∈ es, (names x.2.datasetId).isSome) (id : String) :
    (es.foldl (nextDataset storedPolicy names) cat).nameFor id = names id := by
  induction es generalizing cat with
  | nil => exact hnames id
  | cons x es ih =>
    obtain ⟨name, hname⟩ := Option.isSome_iff_exists.1 (htaken x List.mem_cons_self)
    exact ih (nameFor_nextDataset hnames hname) fun y hy => htaken y (List.mem_cons_of_mem _ hy)

theorem protections_foldl (es : List (Barcode × CatalogShardDatasetEntry)) (id : String) :
    (es.foldl (nextDataset storedPolicy names) cat).protections.get? id =
      lastOf (cat.protections.get? id) ((es.filter fun x => x.2.datasetId = id).map fun x => x.2.policyRow storedPolicy) := by
  induction es generalizing cat with
  | nil => rfl
  | cons x es ih =>
    rw [List.foldl_cons, ih, protections_nextDataset]
    by_cases hid : x.2.datasetId = id
    · rw [if_pos hid, List.filter_cons_of_pos (by simpa using hid)]
      rfl
    · rw [if_neg hid, List.filter_cons_of_neg (by simpa using hid)]

/-! What a stage leaves as it is. -/

theorem nas_mappingStage (cat : RebuildCatalog) (records : List PathMappingRecord) : (records.foldl nextMapping cat).nas = cat.nas :=
  kept_foldl nextMapping RebuildCatalog.nas (fun _ _ => rfl) cat records

theorem protections_mappingStage (cat : RebuildCatalog) (records : List PathMappingRecord) :
    (records.foldl nextMapping cat).protections = cat.protections :=
  kept_foldl nextMapping RebuildCatalog.protections (fun _ _ => rfl) cat records

theorem datasets_fileStage (cat : RebuildCatalog) (es : List (Barcode × CatalogShardFileEntry)) :
    (es.foldl nextFile cat).nas.datasets = cat.nas.datasets :=
  kept_foldl nextFile (fun cat => cat.nas.datasets) (fun _ _ => rfl) cat es

theorem protections_fileStage (cat : RebuildCatalog) (es : List (Barcode × CatalogShardFileEntry)) :
    (es.foldl nextFile cat).protections = cat.protections :=
  kept_foldl nextFile RebuildCatalog.protections (fun _ _ => rfl) cat es

theorem index_fileStage (cat : RebuildCatalog) (es : List (Barcode × CatalogShardFileEntry)) : (es.foldl nextFile cat).index = cat.index :=
  kept_foldl nextFile RebuildCatalog.index (fun _ _ => rfl) cat es

theorem files_datasetStage (cat : RebuildCatalog) (es : List (Barcode × CatalogShardDatasetEntry)) :
    (es.foldl (nextDataset storedPolicy names) cat).nas.files = cat.nas.files :=
  kept_foldl (nextDataset storedPolicy names) (fun cat => cat.nas.files) (fun _ _ => rfl) cat es

theorem index_datasetStage (cat : RebuildCatalog) (es : List (Barcode × CatalogShardDatasetEntry)) :
    (es.foldl (nextDataset storedPolicy names) cat).index = cat.index :=
  kept_foldl (nextDataset storedPolicy names) RebuildCatalog.index (fun _ _ => rfl) cat es

/-- The rows that the entries of one tape leave. -/
theorem gives_applied (hnames : ∀ id, cat.nameFor id = names id) (htaken : ∀ x ∈ (contribution names tapes barcode).datasets,
    (names x.2.datasetId).isSome) (hone : ∀ record ∈ (contribution names tapes barcode).mappings,
    gather [] record.allBarcodes = record.allBarcodes) :
    Gives storedPolicy names tapes [barcode] cat (applied storedPolicy names (contribution names tapes barcode) cat) := by
  have hsingle : ∀ {β : Type} (f : Barcode → List β), [barcode].flatMap f = f barcode := fun f => by simp
  unfold applied
  constructor
  · intro id
    unfold RebuildCatalog.nameFor NasCatalog.getNasDataset
    rw [nas_mappingStage, datasets_fileStage]
    exact nameFor_foldl hnames htaken id
  · intro id
    unfold NasCatalog.getNasDataset
    rw [hsingle, nas_mappingStage, datasets_fileStage]
    exact view_foldl (nextDataset storedPolicy names) (fun cat => cat.nas.getNasDataset id)
      (fun cat x _ => getNasDataset_nextDataset cat x id) cat
  · intro id
    rw [hsingle, protections_mappingStage, protections_fileStage]
    exact protections_foldl _ id
  · intro id
    have hbefore : cat.nas.getNasFileRecord id =
        ((contribution names tapes barcode).datasets.foldl (nextDataset storedPolicy names) cat).nas.getNasFileRecord id := by
      unfold NasCatalog.getNasFileRecord
      rw [files_datasetStage]
    rw [hsingle, nas_mappingStage, hbefore]
    exact view_foldl nextFile (fun cat => cat.nas.getNasFileRecord id) (fun cat x _ => getNasFileRecord_nextFile cat x id) _
  · intro key
    have hbefore : cat.index.rows.get? key = ((contribution names tapes barcode).files.foldl nextFile
        ((contribution names tapes barcode).datasets.foldl (nextDataset storedPolicy names) cat)).index.rows.get? key := by
      rw [index_fileStage, index_datasetStage]
    rw [hsingle, hbefore]
    exact view_foldl nextMapping (fun cat => cat.index.rows.get? key)
      (fun cat record hrecord => rows_nextMapping cat (hone record hrecord) key) _

theorem gives_nil (hnames : ∀ id, cat.nameFor id = names id) : Gives storedPolicy names tapes [] cat cat :=
  { nameFor := hnames, datasets := fun _ => rfl, protections := fun _ => rfl, files := fun _ => rfl, mappings := fun _ => rfl }

/-- One barcode of a run. -/
theorem gives_tape (hnames : ∀ id, cat.nameFor id = names id) (run : RebuildRun) :
    Gives storedPolicy names tapes [barcode] cat (rebuildTape storedPolicy tapes (run, cat) barcode).2 := by
  unfold rebuildTape
  dsimp only
  cases hshard : (tapes barcode).shard with
  | none =>
    have hnothing : contribution names tapes barcode = {} := by
      unfold contribution
      rw [hshard]
    have happlied := @gives_applied storedPolicy names tapes barcode cat hnames
    rw [hnothing] at happlied
    exact happlied (fun _ hx => nomatch hx) fun _ hrecord => nomatch hrecord
  | some shard =>
    dsimp only
    generalize (if barcode ∈ cat.cartridges then cat.cartridges else cat.cartridges ++ [barcode]) = cartridges
    have hcat : ∀ id, ({ cat with cartridges := cartridges } : RebuildCatalog).nameFor id = names id := hnames
    have hgives : Gives storedPolicy names tapes [barcode] { cat with cartridges := cartridges }
        (recoverShard storedPolicy barcode (tapes barcode).versionsReadable { cat with cartridges := cartridges } shard).2 := by
      rw [recoverShard_eq hshard hcat]
      refine gives_applied hcat ?_ ?_
      · unfold contribution
        rw [hshard]
        intro x hx
        obtain ⟨entry, hentry, rfl⟩ := List.mem_map.1 hx
        have htaken := List.mem_takeWhile_imp hentry
        exact htaken
      · unfold contribution
        rw [hshard]
        intro record hrecord
        dsimp only at hrecord
        split at hrecord
        · cases hrecords : shard.toPathMappings with
          | none =>
            rw [hrecords] at hrecord
            nomatch hrecord
          | some records =>
            rw [hrecords] at hrecord
            rw [allBarcodes_of_toPathMappings hrecords hrecord]
            rfl
        · nomatch hrecord
    have hsame : ∀ final, Gives storedPolicy names tapes [barcode] { cat with cartridges := cartridges } final →
        Gives storedPolicy names tapes [barcode] cat final := fun final h =>
      { nameFor := h.nameFor, datasets := h.datasets, protections := h.protections, files := h.files, mappings := h.mappings }
    generalize recoverShard storedPolicy barcode (tapes barcode).versionsReadable { cat with cartridges := cartridges } shard = outcome
      at hgives ⊢
    obtain ⟨recovered, final⟩ := outcome
    cases recovered with
    | none => exact hsame final hgives
    | some recovered => exact hsame final hgives

/-- A whole run. -/
theorem gives_foldl (planned : List Barcode) (state : RebuildRun × RebuildCatalog) (hnames : ∀ id, state.2.nameFor id = names id) :
    Gives storedPolicy names tapes planned state.2 (planned.foldl (rebuildTape storedPolicy tapes) state).2 := by
  induction planned generalizing state with
  | nil => exact gives_nil hnames
  | cons barcode planned ih =>
    have htape := @gives_tape storedPolicy names tapes barcode state.2 hnames state.1
    exact htape.append (ih _ htape.nameFor)

theorem gives_rebuilt (planned : List Barcode) (hnames : ∀ id, cat.nameFor id = names id) :
    Gives storedPolicy names tapes planned cat (rebuilt storedPolicy tapes cat planned) :=
  gives_foldl planned ({}, cat) hnames

/-- Several runs. -/
theorem gives_runs (runs : List (List Barcode)) (hnames : ∀ id, cat.nameFor id = names id) :
    Gives storedPolicy names tapes runs.flatten cat (runs.foldl (rebuilt storedPolicy tapes) cat) := by
  induction runs generalizing cat with
  | nil => exact gives_nil hnames
  | cons planned runs ih =>
    have hrun := @gives_rebuilt storedPolicy names tapes cat planned hnames
    exact hrun.append (ih hrun.nameFor)

end tape

/-! ### Columns -/

section columns

variable {names : String → Option String} {tapes : Barcode → TapeReading} {planned : List Barcode} {cat final : RebuildCatalog}

/-- What is left of a column whose last value wins, tape by tape. -/
theorem column_eq {ρ ε γ : Type} (update : ρ → ε → ρ) (blank : ρ) (field : ρ → Option γ) (write : ε → Option γ)
    (h : ∀ row e, field (update row e) = (write e).or (field row)) (hblank : ∀ e, (write e).or (field blank) = write e)
    (row : Option ρ) (entries : Barcode → List ε) (planned : List Barcode) :
    (rowAfter update blank row (planned.flatMap entries)).bind field =
      lastOf (row.bind field) (planned.map fun barcode => lastOf none ((entries barcode).map write)) := by
  rw [lastOf_rowAfter update blank field write h hblank, List.map_flatMap, lastOf_flatMap]

/-- Tapes whose order does not show agree. -/
theorem agree_of_order {ρ ε γ : Type} (update : ρ → ε → ρ) (blank : ρ) (field : ρ → Option γ) (write : ε → Option γ)
    (h : ∀ row e, field (update row e) = (write e).or (field row)) (hblank : ∀ e, (write e).or (field blank) = write e)
    (row : Option ρ) {entries : Barcode → List ε} (horder : ∀ ys, planned.Perm ys →
      (rowAfter update blank row (ys.flatMap entries)).bind field = (rowAfter update blank row (planned.flatMap entries)).bind field) :
    TapesAgree planned entries write :=
  oneValue_of_lastOf fun ys hys => by
    rw [← column_eq update blank field write h hblank, ← column_eq update blank field write h hblank]
    exact horder ys hys

/-- The order of tapes that agree does not show. -/
theorem order_of_agree {ρ ε γ : Type} (update : ρ → ε → ρ) (blank : ρ) (field : ρ → Option γ) (write : ε → Option γ)
    (h : ∀ row e, field (update row e) = (write e).or (field row)) (hblank : ∀ e, (write e).or (field blank) = write e)
    {entries : Barcode → List ε} (hagree : TapesAgree planned entries write) {ys : List Barcode} (hys : planned.Perm ys) (row : Option ρ) :
    (rowAfter update blank row (ys.flatMap entries)).bind field =
      (rowAfter update blank row (planned.flatMap entries)).bind field := by
  rw [column_eq update blank field write h hblank, column_eq update blank field write h hblank]
  exact (lastOf_perm hagree (hys.map _) _).symm

/-- What the same entries once more leave of a column. -/
theorem again_eq {ρ ε γ : Type} (update : ρ → ε → ρ) (blank : ρ) (field : ρ → Option γ) (write : ε → Option γ)
    (h : ∀ row e, field (update row e) = (write e).or (field row)) (hblank : ∀ e, (write e).or (field blank) = write e)
    (row : Option ρ) (es : List ε) : (rowAfter update blank (rowAfter update blank row es) es).bind field =
      (rowAfter update blank row es).bind field := by
  rw [lastOf_rowAfter update blank field write h hblank, lastOf_rowAfter update blank field write h hblank, lastOf_again]

theorem rel_bind {ρ γ : Type} {R : ρ → ρ → Prop} {field : ρ → Option γ} {a b : Option ρ} (h : Option.Rel R a b)
    (hfield : ∀ x y, R x y → field x = field y) : a.bind field = b.bind field := by
  cases h with
  | none => rfl
  | some hxy => exact hfield _ _ hxy

end columns

/-! ### Rows that entries have updated -/

section updated

variable {names : String → Option String} {tapes : Barcode → TapeReading} {planned : List Barcode} {id : String}

theorem datasetId_of_mem {x : Barcode × CatalogShardDatasetEntry} (hx : x ∈ planned.flatMap (datasetEntries names tapes id)) :
    x.2.datasetId = id := by
  obtain ⟨barcode, -, hx⟩ := List.mem_flatMap.1 hx
  exact of_decide_eq_true (List.mem_filter.1 hx).2

theorem fileRecordId_of_mem {x : Barcode × CatalogShardFileEntry} (hx : x ∈ planned.flatMap (fileEntries names tapes id)) :
    x.2.fileRecordId = id := by
  obtain ⟨barcode, -, hx⟩ := List.mem_flatMap.1 hx
  exact of_decide_eq_true (List.mem_filter.1 hx).2

/-- What every updated dataset row has. -/
structure UpdatedDataset (names : String → Option String) (id : String) (before row : NasDataset) : Prop where
  ident : row.id = id
  name : row.name = (names id).getD ""
  status : row.status = .archived
  manifestPath : row.manifestPath = some "/.openblade/manifest.json"
  copies : row.copiesCompleted = row.tapeSet.length
  kept : (row.sourcePath, row.sourceHost, row.shardMap) = (before.sourcePath, before.sourceHost, before.shardMap)

/-- What every updated file record has. -/
structure UpdatedFile (id : String) (before row : NasFileRecord) : Prop where
  ident : row.id = id
  status : row.status = .offlineOnTape
  cachePath : row.cachePath = none
  tape : row.tapeBarcode = (row.tapeBarcode.filter (· ≠ "")).or (some "")
  kept : (row.sourcePath, row.tapeOffset) = (before.sourcePath, before.tapeOffset)

variable (names) in
theorem exists_dataset {es : List (Barcode × CatalogShardDatasetEntry)} (hes : es ≠ []) (hall : ∀ x ∈ es, x.2.datasetId = id)
    (row : Option NasDataset) : ∃ r, rowAfter (overDataset names) (blankDataset id) row es = some r ∧
      UpdatedDataset names id (row.getD (blankDataset id)) r := by
  obtain ⟨before, x, hx, hlast⟩ := exists_rowAfter (overDataset names) (blankDataset id) hes row
  obtain rfl := hall x hx
  refine ⟨_, hlast, { ident := rfl, name := rfl, status := rfl, manifestPath := rfl, copies := rfl, kept := ?_ }⟩
  exact kept_rowAfter (overDataset names) (fun row => (row.sourcePath, row.sourceHost, row.shardMap)) (fun _ _ => rfl) hlast

/-- The tape of a file record stays once it has one. -/
theorem tape_over (row : NasFileRecord) (x : Barcode × CatalogShardFileEntry) :
    (overFile row x).tapeBarcode.filter (· ≠ "") = (row.tapeBarcode.filter (· ≠ "")).or (nonEmpty x.1) := by
  have htape : (overFile row x).tapeBarcode = (row.tapeBarcode.filter (· ≠ "")).or (some x.1) := rfl
  rw [htape]
  cases hrow : row.tapeBarcode.filter (· ≠ "") with
  | none =>
    unfold nonEmpty
    by_cases hempty : x.1 = ""
    · rw [hempty]
      rfl
    · rw [Option.none_or, Option.none_or, Option.filter_some, if_pos (by simpa using hempty), if_neg hempty]
  | some barcode =>
    have hplaced := (Option.filter_eq_some_iff.1 hrow).2
    simp only [Option.some_or, Option.filter_some, hplaced, if_true]

variable (id) in
theorem tape_rowAfter (row : Option NasFileRecord) (es : List (Barcode × CatalogShardFileEntry)) :
    (rowAfter overFile (blankFileRecord id) row es).bind (fun row => row.tapeBarcode.filter (· ≠ "")) =
      firstOf (row.bind fun row => row.tapeBarcode.filter (· ≠ "")) (es.map fun x => nonEmpty x.1) := by
  refine firstOf_rowAfter tape_over ?_ row es
  rfl

theorem exists_file {es : List (Barcode × CatalogShardFileEntry)} (hes : es ≠ []) (hall : ∀ x ∈ es, x.2.fileRecordId = id)
    (row : Option NasFileRecord) : ∃ r, rowAfter overFile (blankFileRecord id) row es = some r ∧
      UpdatedFile id (row.getD (blankFileRecord id)) r := by
  obtain ⟨before, x, hx, hlast⟩ := exists_rowAfter overFile (blankFileRecord id) hes row
  obtain rfl := hall x hx
  refine ⟨_, hlast, { ident := rfl, status := rfl, cachePath := rfl, tape := ?_, kept := ?_ }⟩
  · have htape : (overFile before x).tapeBarcode = (before.tapeBarcode.filter (· ≠ "")).or (some x.1) := rfl
    rw [tape_over, htape]
    unfold nonEmpty
    cases before.tapeBarcode.filter (· ≠ "") with
    | none =>
      by_cases hempty : x.1 = ""
      · rw [hempty]
        rfl
      · rw [if_neg hempty]
        rfl
    | some barcode => rfl
  · exact kept_rowAfter overFile (fun row => (row.sourcePath, row.tapeOffset)) (fun _ _ => rfl) hlast

/-- Updated rows that agree on the columns whose last value wins are the same. -/
theorem UpdatedDataset.same {before before' r r' : NasDataset} (h : UpdatedDataset names id before r)
    (h' : UpdatedDataset names id before' r') (hbefore : (before.sourcePath, before.sourceHost, before.shardMap) =
      (before'.sourcePath, before'.sourceHost, before'.shardMap)) (hpool : r.poolId = r'.poolId) (hpolicy : r.policyId = r'.policyId)
    (hmode : r.ingestMode = r'.ingestMode) (hgroup : r.volumeGroupId = r'.volumeGroupId)
    (hcounts : (r.fileCount, r.totalBytes) = (r'.fileCount, r'.totalBytes)) (htapes : r.tapeSet.Perm r'.tapeSet) : SameDataset r r' := by
  have hkept := h.kept.trans (hbefore.trans h'.kept.symm)
  have hcopies : r.copiesCompleted = r'.copiesCompleted := by rw [h.copies, h'.copies, htapes.length_eq]
  have hident := h.ident.trans h'.ident.symm
  have hname := h.name.trans h'.name.symm
  have hstatus := h.status.trans h'.status.symm
  have hmanifest := h.manifestPath.trans h'.manifestPath.symm
  refine ⟨?_, htapes⟩
  unfold NasDataset.bare
  cases r
  cases r'
  simp_all

theorem UpdatedFile.same {before before' r r' : NasFileRecord} (h : UpdatedFile id before r) (h' : UpdatedFile id before' r')
    (hbefore : (before.sourcePath, before.tapeOffset) = (before'.sourcePath, before'.tapeOffset))
    (hfile : (r.datasetId, r.relativePath, r.sizeBytes) = (r'.datasetId, r'.relativePath, r'.sizeBytes)) (hpool : r.poolId = r'.poolId)
    (hmtime : r.mtime = r'.mtime) (hchecksum : r.checksumSha256 = r'.checksumSha256)
    (htape : r.tapeBarcode.filter (· ≠ "") = r'.tapeBarcode.filter (· ≠ "")) : r = r' := by
  have hkept := h.kept.trans (hbefore.trans h'.kept.symm)
  have hident := h.ident.trans h'.ident.symm
  have hstatus := h.status.trans h'.status.symm
  have hcache := h.cachePath.trans h'.cachePath.symm
  have hbarcode : r.tapeBarcode = r'.tapeBarcode := by rw [h.tape, h'.tape, htape]
  clear h h' htape
  cases r
  cases r'
  simp_all

theorem exists_mapping {es : List PathMappingRecord} (hes : es ≠ []) (row : Option PathMappingRecord) :
    ∃ r, rowAfter overMapping blankMapping row es = some r := by
  obtain ⟨before, x, -, hlast⟩ := exists_rowAfter overMapping blankMapping hes row
  exact ⟨_, hlast⟩

theorem eq_of_sameDataset {r r' : NasDataset} (h : SameDataset r r') (htapes : r.tapeSet = r'.tapeSet) : r = r' := by
  have hrest := h.1
  unfold NasDataset.bare at hrest
  cases r
  cases r'
  simp_all

theorem eq_of_sameMapping {r r' : PathMappingRecord} (h : SameMapping r r') (hbarcodes : r.allBarcodes = r'.allBarcodes) : r = r' := by
  have hrest := h.1
  unfold PathMappingRecord.bare at hrest
  cases r
  cases r'
  simp_all

end updated

section again

variable {names : String → Option String}

/-- The same entries once more leave a dataset row as it is. -/
theorem dataset_again {id : String} {es : List (Barcode × CatalogShardDatasetEntry)} (hall : ∀ x ∈ es, x.2.datasetId = id)
    (row : Option NasDataset) : rowAfter (overDataset names) (blankDataset id) (rowAfter (overDataset names) (blankDataset id) row es) es =
      rowAfter (overDataset names) (blankDataset id) row es := by
  by_cases hes : es = []
  · rw [hes]
    rfl
  · obtain ⟨r, hr, hupdated⟩ := exists_dataset names hes hall row
    obtain ⟨r', hr', hupdated'⟩ := exists_dataset names hes hall (some r)
    have hcolumn : ∀ {γ : Type} (field : NasDataset → Option γ) (write : Barcode × CatalogShardDatasetEntry → Option γ),
        (∀ row x, field (overDataset names row x) = (write x).or (field row)) →
        (∀ x, (write x).or (field (blankDataset id)) = write x) → field r' = field r := by
      intro γ field write h hblank
      have hagain := again_eq (overDataset names) (blankDataset id) field write h hblank row es
      rw [hr, hr'] at hagain
      exact hagain
    have htapes : r'.tapeSet = r.tapeSet := by
      have hr₁ := gather_rowAfter (overDataset names) NasDataset.tapeSet
        (fun x => if x.2.tapeSet = [] then [x.1] else x.2.tapeSet) (fun _ _ => rfl) hr
      have hr₂ := gather_rowAfter (overDataset names) NasDataset.tapeSet
        (fun x => if x.2.tapeSet = [] then [x.1] else x.2.tapeSet) (fun _ _ => rfl) hr'
      rw [hr₂, Option.getD_some, hr₁, gather_again]
    have hsame := hupdated'.same hupdated hupdated.kept
      (hcolumn NasDataset.poolId (fun x => nonEmpty x.2.poolId) (fun _ _ => rfl) fun _ => Option.or_none)
      (hcolumn NasDataset.policyId (fun x => nonEmpty x.2.policy) (fun _ _ => rfl) fun _ => Option.or_none)
      (hcolumn NasDataset.ingestMode (fun x => parseIngestMode x.2.ingestMode) (fun _ _ => rfl) fun _ => Option.or_none)
      (hcolumn NasDataset.volumeGroupId (fun x => nonEmpty x.2.volumeGroup) (fun _ _ => rfl) fun _ => Option.or_none)
      (Option.some.inj (hcolumn (fun row => some (row.fileCount, row.totalBytes)) (fun x => some (x.2.fileCount, x.2.totalBytes))
        (fun _ _ => rfl) fun _ => rfl)) (htapes ▸ List.Perm.refl _)
    rw [hr, hr', eq_of_sameDataset hsame htapes]

theorem file_again {id : String} {es : List (Barcode × CatalogShardFileEntry)} (hall : ∀ x ∈ es, x.2.fileRecordId = id)
    (row : Option NasFileRecord) : rowAfter overFile (blankFileRecord id) (rowAfter overFile (blankFileRecord id) row es) es =
      rowAfter overFile (blankFileRecord id) row es := by
  by_cases hes : es = []
  · rw [hes]
    rfl
  · obtain ⟨r, hr, hupdated⟩ := exists_file hes hall row
    obtain ⟨r', hr', hupdated'⟩ := exists_file hes hall (some r)
    have hcolumn : ∀ {γ : Type} (field : NasFileRecord → Option γ) (write : Barcode × CatalogShardFileEntry → Option γ),
        (∀ row x, field (overFile row x) = (write x).or (field row)) →
        (∀ x, (write x).or (field (blankFileRecord id)) = write x) → field r' = field r := by
      intro γ field write h hblank
      have hagain := again_eq overFile (blankFileRecord id) field write h hblank row es
      rw [hr, hr'] at hagain
      exact hagain
    have htape : r'.tapeBarcode.filter (· ≠ "") = r.tapeBarcode.filter (· ≠ "") := by
      have hfirst := tape_rowAfter id row es
      have hfirst' := tape_rowAfter id (some r) es
      rw [hr] at hfirst
      rw [hr'] at hfirst'
      exact hfirst'.trans ((congrArg (firstOf · _) hfirst).trans ((firstOf_again _ _).trans hfirst.symm))
    have hsame := hupdated'.same hupdated hupdated.kept
      (Option.some.inj (hcolumn (fun row => some (row.datasetId, row.relativePath, row.sizeBytes))
        (fun x => some (x.2.datasetId, x.2.logicalPath, x.2.size)) (fun _ _ => rfl) fun _ => rfl))
      (hcolumn NasFileRecord.poolId (fun x => nonEmpty x.2.poolId) (fun _ _ => rfl) fun _ => Option.or_none)
      (hcolumn NasFileRecord.mtime (fun x => nonEmpty x.2.mtime) (fun _ _ => rfl) fun _ => Option.or_none)
      (hcolumn NasFileRecord.checksumSha256 (fun x => nonEmpty x.2.checksum) (fun _ _ => rfl) fun _ => Option.or_none) htape
    rw [hr, hr', hsame]

theorem mapping_again (es : List PathMappingRecord) (row : Option PathMappingRecord) :
    rowAfter overMapping blankMapping (rowAfter overMapping blankMapping row es) es = rowAfter overMapping blankMapping row es := by
  by_cases hes : es = []
  · rw [hes]
    rfl
  · obtain ⟨r, hr⟩ := exists_mapping hes row
    obtain ⟨r', hr'⟩ := exists_mapping hes (some r)
    have hcolumns := again_eq overMapping blankMapping (fun row => some row.bare) (fun record => some record.bare)
      (fun _ _ => rfl) (fun _ => rfl) row es
    have hbarcodes : r'.allBarcodes = r.allBarcodes := by
      have hr₁ := gather_rowAfter overMapping PathMappingRecord.allBarcodes PathMappingRecord.allBarcodes (fun _ _ => rfl) hr
      have hr₂ := gather_rowAfter overMapping PathMappingRecord.allBarcodes PathMappingRecord.allBarcodes (fun _ _ => rfl) hr'
      rw [hr₂, Option.getD_some, hr₁, gather_again]
    rw [hr, hr'] at hcolumns
    rw [hr, hr', eq_of_sameMapping ⟨Option.some.inj hcolumns, hbarcodes ▸ List.Perm.refl _⟩ hbarcodes]

end again

/-! ### Another order -/

section order

/-- The entries of a tape are under its barcode. -/
theorem fst_of_mem_fileEntries {names : String → Option String} {tapes : Barcode → TapeReading} {id : String} {barcode : Barcode}
    {x : Barcode × CatalogShardFileEntry} (hx : x ∈ fileEntries names tapes id barcode) : x.1 = barcode := by
  have hfiles := (List.mem_filter.1 hx).1
  unfold contribution at hfiles
  split at hfiles
  · nomatch hfiles
  · dsimp only at hfiles
    split at hfiles
    · obtain ⟨entry, -, rfl⟩ := List.mem_map.1 hfiles
      rfl
    · nomatch hfiles

/-- The tape of a file record, tape by tape. -/
theorem tapeColumn_eq (names : String → Option String) (tapes : Barcode → TapeReading) (id : String) (row : Option NasFileRecord)
    (planned : List Barcode) : (rowAfter overFile (blankFileRecord id) row (planned.flatMap (fileEntries names tapes id))).bind
        (fun row => row.tapeBarcode.filter (· ≠ "")) =
      firstOf (row.bind fun row => row.tapeBarcode.filter (· ≠ ""))
        (planned.map fun barcode => lastOf none ((fileEntries names tapes id barcode).map fun x => nonEmpty x.1)) := by
  rw [tape_rowAfter, List.map_flatMap, firstOf_flatMap]
  congr 1
  refine List.map_congr_left fun barcode _ => firstOf_eq_lastOf fun a b ha hb => ?_
  obtain ⟨x, hx, hxa⟩ := List.mem_map.1 ha
  obtain ⟨y, hy, hyb⟩ := List.mem_map.1 hb
  rw [fst_of_mem_fileEntries hx] at hxa
  rw [fst_of_mem_fileEntries hy] at hyb
  exact Option.some.inj (hxa.symm.trans hyb)

variable {names : String → Option String} {tapes : Barcode → TapeReading} {planned ys : List Barcode} {cat : RebuildCatalog}

theorem agree_protection {id : String} (init : Option String) (h : ∀ ys, planned.Perm ys →
    lastOf init ((ys.flatMap (datasetEntries names tapes id)).map fun x => x.2.policyRow storedPolicy) =
      lastOf init ((planned.flatMap (datasetEntries names tapes id)).map fun x => x.2.policyRow storedPolicy)) :
    TapesAgree planned (datasetEntries names tapes id) fun x => x.2.policyRow storedPolicy :=
  oneValue_of_lastOf fun ys hys => by
    have hflat := h ys hys
    rwa [List.map_flatMap, List.map_flatMap, lastOf_flatMap, lastOf_flatMap] at hflat

/-- Tapes whose order never shows agree. -/
theorem shardsAgree_of_order (hnames : ∀ id, cat.nameFor id = names id)
    (horder : ∀ ys, planned.Perm ys → SameRows (rebuilt storedPolicy tapes cat ys) (rebuilt storedPolicy tapes cat planned)) :
    ShardsAgree storedPolicy names tapes planned cat := by
  have hgives := fun planned => @gives_rebuilt storedPolicy names tapes cat planned hnames
  have hdataset : ∀ id {γ : Type} (field : NasDataset → Option γ) (write : Barcode × CatalogShardDatasetEntry → Option γ),
      (∀ row x, field (overDataset names row x) = (write x).or (field row)) →
      (∀ x, (write x).or (field (blankDataset id)) = write x) → (∀ row : NasDataset, field row.bare = field row) →
      TapesAgree planned (datasetEntries names tapes id) write := by
    intro id γ field write h hblank hfield
    refine agree_of_order (overDataset names) (blankDataset id) field write h hblank (cat.nas.getNasDataset id) fun ys hys => ?_
    rw [← (hgives ys).datasets, ← (hgives planned).datasets]
    exact rel_bind ((horder ys hys).datasets id) fun a b h => by rw [← hfield a, h.1, hfield b]
  have hfile : ∀ id {γ : Type} (field : NasFileRecord → Option γ) (write : Barcode × CatalogShardFileEntry → Option γ),
      (∀ row x, field (overFile row x) = (write x).or (field row)) →
      (∀ x, (write x).or (field (blankFileRecord id)) = write x) → TapesAgree planned (fileEntries names tapes id) write := by
    intro id γ field write h hblank
    refine agree_of_order overFile (blankFileRecord id) field write h hblank (cat.nas.getNasFileRecord id) fun ys hys => ?_
    rw [← (hgives ys).files, ← (hgives planned).files, (horder ys hys).files]
  constructor
  · exact fun id => hdataset id NasDataset.poolId _ (fun _ _ => rfl) (fun _ => Option.or_none) fun _ => rfl
  · exact fun id => hdataset id NasDataset.policyId _ (fun _ _ => rfl) (fun _ => Option.or_none) fun _ => rfl
  · exact fun id => hdataset id NasDataset.ingestMode _ (fun _ _ => rfl) (fun _ => Option.or_none) fun _ => rfl
  · exact fun id => hdataset id NasDataset.volumeGroupId _ (fun _ _ => rfl) (fun _ => Option.or_none) fun _ => rfl
  · exact fun id => hdataset id (fun row => some (row.fileCount, row.totalBytes)) _ (fun _ _ => rfl) (fun _ => rfl) fun _ => rfl
  · intro id
    refine agree_protection (cat.protections.get? id) fun ys hys => ?_
    rw [← (hgives ys).protections, ← (hgives planned).protections, (horder ys hys).protections]
  · exact fun id => hfile id (fun row => some (row.datasetId, row.relativePath, row.sizeBytes)) _ (fun _ _ => rfl) fun _ => rfl
  · exact fun id => hfile id NasFileRecord.poolId _ (fun _ _ => rfl) fun _ => Option.or_none
  · exact fun id => hfile id NasFileRecord.mtime _ (fun _ _ => rfl) fun _ => Option.or_none
  · exact fun id => hfile id NasFileRecord.checksumSha256 _ (fun _ _ => rfl) fun _ => Option.or_none
  · intro id hunplaced
    refine oneValue_of_firstOf fun ys hys => ?_
    have hcolumn := tapeColumn_eq names tapes id (cat.nas.getNasFileRecord id)
    have hys' := hcolumn ys
    have hplanned := hcolumn planned
    rw [hunplaced, ← (hgives ys).files, (horder ys hys).files] at hys'
    rw [hunplaced, ← (hgives planned).files] at hplanned
    exact hys'.symm.trans hplanned
  · intro key
    refine agree_of_order overMapping blankMapping (fun row => some row.bare) _ (fun _ _ => rfl) (fun _ => rfl)
      (cat.index.rows.get? key) fun ys hys => ?_
    rw [← (hgives ys).mappings, ← (hgives planned).mappings]
    exact rel_bind ((horder ys hys).mappings key.1 key.2) fun a b h => congrArg some h.1

/-- The order of tapes that agree never shows. -/
theorem order_of_shardsAgree (hnames : ∀ id, cat.nameFor id = names id) (hagree : ShardsAgree storedPolicy names tapes planned cat)
    (hys : planned.Perm ys) {final : RebuildCatalog} (hfinal : Gives storedPolicy names tapes ys cat final) :
    SameRows final (rebuilt storedPolicy tapes cat planned) := by
  have hgives := @gives_rebuilt storedPolicy names tapes cat planned hnames
  constructor
  · intro id
    rw [hfinal.datasets, hgives.datasets]
    have hentries := hys.flatMap_right (datasetEntries names tapes id)
    by_cases hnone : planned.flatMap (datasetEntries names tapes id) = []
    · rw [hnone] at hentries ⊢
      rw [List.nil_perm.1 hentries]
      cases cat.nas.getNasDataset id with
      | none => exact Option.Rel.none
      | some row => exact Option.Rel.some ⟨rfl, List.Perm.refl _⟩
    · have hnone' : ys.flatMap (datasetEntries names tapes id) ≠ [] := fun h => hnone (List.perm_nil.1 (h ▸ hentries))
      obtain ⟨r, hr, hupdated⟩ := exists_dataset names hnone (fun _ hx => datasetId_of_mem hx) (cat.nas.getNasDataset id)
      obtain ⟨r', hr', hupdated'⟩ := exists_dataset names hnone' (fun _ hx => datasetId_of_mem hx) (cat.nas.getNasDataset id)
      have hcolumn : ∀ {γ : Type} (field : NasDataset → Option γ) (write : Barcode × CatalogShardDatasetEntry → Option γ),
          (∀ row x, field (overDataset names row x) = (write x).or (field row)) →
          (∀ x, (write x).or (field (blankDataset id)) = write x) →
          TapesAgree planned (datasetEntries names tapes id) write → field r' = field r := by
        intro γ field write h hblank hagree
        have hsame := order_of_agree (overDataset names) (blankDataset id) field write h hblank hagree hys (cat.nas.getNasDataset id)
        rw [hr, hr'] at hsame
        exact hsame
      have htapes : r'.tapeSet.Perm r.tapeSet := by
        have hr₁ := gather_rowAfter (overDataset names) NasDataset.tapeSet
          (fun x => if x.2.tapeSet = [] then [x.1] else x.2.tapeSet) (fun _ _ => rfl) hr
        have hr₂ := gather_rowAfter (overDataset names) NasDataset.tapeSet
          (fun x => if x.2.tapeSet = [] then [x.1] else x.2.tapeSet) (fun _ _ => rfl) hr'
        rw [hr₁, hr₂]
        exact gather_perm _ (hentries.symm.flatMap_right _)
      rw [hr, hr']
      refine Option.Rel.some (hupdated'.same hupdated rfl ?_ ?_ ?_ ?_ ?_ htapes)
      · exact hcolumn NasDataset.poolId _ (fun _ _ => rfl) (fun _ => Option.or_none) (hagree.pool id)
      · exact hcolumn NasDataset.policyId _ (fun _ _ => rfl) (fun _ => Option.or_none) (hagree.policy id)
      · exact hcolumn NasDataset.ingestMode _ (fun _ _ => rfl) (fun _ => Option.or_none) (hagree.mode id)
      · exact hcolumn NasDataset.volumeGroupId _ (fun _ _ => rfl) (fun _ => Option.or_none) (hagree.group id)
      · exact Option.some.inj (hcolumn (fun row => some (row.fileCount, row.totalBytes)) _ (fun _ _ => rfl) (fun _ => rfl)
          (hagree.counts id))
  · intro id
    rw [hfinal.protections, hgives.protections, List.map_flatMap, List.map_flatMap, lastOf_flatMap, lastOf_flatMap]
    exact (lastOf_perm (hagree.protection id) (hys.map _) _).symm
  · intro id
    rw [hfinal.files, hgives.files]
    have hentries := hys.flatMap_right (fileEntries names tapes id)
    by_cases hnone : planned.flatMap (fileEntries names tapes id) = []
    · rw [hnone] at hentries ⊢
      rw [List.nil_perm.1 hentries]
    · have hnone' : ys.flatMap (fileEntries names tapes id) ≠ [] := fun h => hnone (List.perm_nil.1 (h ▸ hentries))
      obtain ⟨r, hr, hupdated⟩ := exists_file hnone (fun _ hx => fileRecordId_of_mem hx) (cat.nas.getNasFileRecord id)
      obtain ⟨r', hr', hupdated'⟩ := exists_file hnone' (fun _ hx => fileRecordId_of_mem hx) (cat.nas.getNasFileRecord id)
      have hcolumn : ∀ {γ : Type} (field : NasFileRecord → Option γ) (write : Barcode × CatalogShardFileEntry → Option γ),
          (∀ row x, field (overFile row x) = (write x).or (field row)) →
          (∀ x, (write x).or (field (blankFileRecord id)) = write x) →
          TapesAgree planned (fileEntries names tapes id) write → field r' = field r := by
        intro γ field write h hblank hagree
        have hsame := order_of_agree overFile (blankFileRecord id) field write h hblank hagree hys (cat.nas.getNasFileRecord id)
        rw [hr, hr'] at hsame
        exact hsame
      have htape : r'.tapeBarcode.filter (· ≠ "") = r.tapeBarcode.filter (· ≠ "") := by
        have hcolumns := tapeColumn_eq names tapes id (cat.nas.getNasFileRecord id)
        have hsame := (hcolumns ys).trans ((firstOf_perm (hagree.tape id) (hys.map _)).symm.trans (hcolumns planned).symm)
        rw [hr, hr'] at hsame
        exact hsame
      rw [hr, hr']
      refine congrArg some (hupdated'.same hupdated rfl ?_ ?_ ?_ ?_ htape)
      · exact Option.some.inj (hcolumn (fun row => some (row.datasetId, row.relativePath, row.sizeBytes)) _ (fun _ _ => rfl)
          (fun _ => rfl) (hagree.file id))
      · exact hcolumn NasFileRecord.poolId _ (fun _ _ => rfl) (fun _ => Option.or_none) (hagree.filePool id)
      · exact hcolumn NasFileRecord.mtime _ (fun _ _ => rfl) (fun _ => Option.or_none) (hagree.mtime id)
      · exact hcolumn NasFileRecord.checksumSha256 _ (fun _ _ => rfl) (fun _ => Option.or_none) (hagree.checksum id)
  · intro path pool
    have hget : ∀ cat : RebuildCatalog, cat.index.getPathMapping path pool = cat.index.rows.get? (path, pool) := fun _ => rfl
    rw [hget, hget, hfinal.mappings, hgives.mappings]
    have hentries := hys.flatMap_right (mappingEntries names tapes (path, pool))
    by_cases hnone : planned.flatMap (mappingEntries names tapes (path, pool)) = []
    · rw [hnone] at hentries ⊢
      rw [List.nil_perm.1 hentries]
      cases cat.index.rows.get? (path, pool) with
      | none => exact Option.Rel.none
      | some row => exact Option.Rel.some ⟨rfl, List.Perm.refl _⟩
    · have hnone' : ys.flatMap (mappingEntries names tapes (path, pool)) ≠ [] := fun h => hnone (List.perm_nil.1 (h ▸ hentries))
      obtain ⟨r, hr⟩ := exists_mapping hnone (cat.index.rows.get? (path, pool))
      obtain ⟨r', hr'⟩ := exists_mapping hnone' (cat.index.rows.get? (path, pool))
      have hcolumns := order_of_agree overMapping blankMapping (fun row => some row.bare) _ (fun _ _ => rfl) (fun _ => rfl)
        (hagree.mapping (path, pool)) hys (cat.index.rows.get? (path, pool))
      have hbarcodes : r'.allBarcodes.Perm r.allBarcodes := by
        have hr₁ := gather_rowAfter overMapping PathMappingRecord.allBarcodes PathMappingRecord.allBarcodes (fun _ _ => rfl) hr
        have hr₂ := gather_rowAfter overMapping PathMappingRecord.allBarcodes PathMappingRecord.allBarcodes (fun _ _ => rfl) hr'
        rw [hr₁, hr₂]
        exact gather_perm _ (hentries.symm.flatMap_right _)
      rw [hr, hr'] at hcolumns ⊢
      exact Option.Rel.some ⟨Option.some.inj hcolumns, hbarcodes⟩

end order

/-! ### Counts -/

section counts

variable {names : String → Option String} {tapes : Barcode → TapeReading} {planned : List Barcode} {cat final : RebuildCatalog}

/-- The counts of a recovered dataset are those of its last entry. -/
theorem counts_of_gives (hgives : Gives storedPolicy names tapes planned cat final) {id : String} {row : NasDataset}
    (hrow : final.nas.getNasDataset id = some row) (hentries : planned.flatMap (datasetEntries names tapes id) ≠ []) :
    lastOf none ((planned.flatMap (datasetEntries names tapes id)).map fun x => some (x.2.fileCount, x.2.totalBytes)) =
      some (row.fileCount, row.totalBytes) := by
  obtain ⟨counts, hcounts⟩ := exists_lastOf_map (f := fun x : Barcode × CatalogShardDatasetEntry => (x.2.fileCount, x.2.totalBytes)) hentries
  have hcolumn := lastOf_rowAfter (overDataset names) (blankDataset id)
    (fun row => some (row.fileCount, row.totalBytes)) (fun x => some (x.2.fileCount, x.2.totalBytes))
    (fun _ _ => rfl) (fun _ => rfl) (cat.nas.getNasDataset id) (planned.flatMap (datasetEntries names tapes id))
  rw [← hgives.datasets, hrow, hcounts] at hcolumn
  rw [hcounts]
  exact hcolumn.symm

/-- A recovered file record has the dataset and the size of its last entry. -/
theorem lastFile_of_gives (hgives : Gives storedPolicy names tapes planned cat final) {id : String}
    (hid : id ∈ recoveredIds names tapes planned) :
    (final.nas.getNasFileRecord id).map (fun row => (row.datasetId, row.sizeBytes)) = lastFile names tapes planned id := by
  have hentries : planned.flatMap (fileEntries names tapes id) ≠ [] := by
    obtain ⟨x, hx, rfl⟩ := List.mem_map.1 (List.mem_dedup.1 hid)
    obtain ⟨barcode, hbarcode, hx⟩ := List.mem_flatMap.1 hx
    exact List.ne_nil_of_mem (List.mem_flatMap.2 ⟨barcode, hbarcode, List.mem_filter.2 ⟨hx, by simp⟩⟩)
  obtain ⟨file, hfile⟩ := exists_lastOf_map (f := fun x : Barcode × CatalogShardFileEntry => (x.2.datasetId, x.2.size)) hentries
  have hcolumn := lastOf_rowAfter overFile (blankFileRecord id)
    (fun row => some (row.datasetId, row.sizeBytes)) (fun x => some (x.2.datasetId, x.2.size))
    (fun _ _ => rfl) (fun _ => rfl) (cat.nas.getNasFileRecord id) (planned.flatMap (fileEntries names tapes id))
  rw [← hgives.files, hfile] at hcolumn
  unfold lastFile
  rw [hfile, ← hcolumn]
  cases final.nas.getNasFileRecord id <;> rfl

theorem sizes_eq (hgives : Gives storedPolicy names tapes planned cat final) (datasetId : String) :
    (recoveredFiles names tapes planned final datasetId).map NasFileRecord.sizeBytes =
      (((recoveredIds names tapes planned).filterMap (lastFile names tapes planned)).filter (·.1 = datasetId)).map Prod.snd := by
  have hpairs : (recoveredIds names tapes planned).filterMap (lastFile names tapes planned) =
      ((recoveredIds names tapes planned).filterMap final.nas.getNasFileRecord).map fun row => (row.datasetId, row.sizeBytes) := by
    rw [List.map_filterMap]
    exact List.filterMap_congr fun id hid => (lastFile_of_gives hgives hid).symm
  unfold recoveredFiles
  rw [hpairs, List.filter_map, List.map_map]
  rfl

end counts

end RebuildAux

/-! ### The result -/

open RebuildAux in
/-- A rebuild can always be done again. Its order and the number of its runs do not show, and its counts are those of the files,
exactly when the tapes agree on every column that their last entry sets and the last entry of every dataset counts all its files. -/
theorem rebuild_stable_iff (tapes : Barcode → TapeReading) (cat : RebuildCatalog) (planned : List Barcode) :
    RebuildStable storedPolicy tapes cat planned ↔
      ShardsAgree storedPolicy cat.nameFor tapes planned cat ∧ ShardsCount cat.nameFor tapes planned := by
  have hgives := @gives_rebuilt storedPolicy cat.nameFor tapes cat planned fun _ => rfl
  constructor
  · intro h
    refine ⟨shardsAgree_of_order (fun _ => rfl) fun ys hys => ?_, fun id counts hcounts => ?_⟩
    · have hone := h.order [ys] (by simpa using hys)
      exact hone
    · have hentries : planned.flatMap (datasetEntries cat.nameFor tapes id) ≠ [] := by
        intro hnone
        rw [hnone] at hcounts
        nomatch hcounts
      obtain ⟨row, hrow, -⟩ := exists_dataset cat.nameFor hentries (fun _ hx => datasetId_of_mem hx) (cat.nas.getNasDataset id)
      rw [← hgives.datasets] at hrow
      obtain ⟨hfiles, hbytes⟩ := h.counts id row hrow hentries
      have hlast := counts_of_gives hgives hrow hentries
      rw [hcounts] at hlast
      obtain rfl := Option.some.inj hlast
      dsimp only
      rw [← sizes_eq hgives, hfiles, hbytes, List.length_map]
  · rintro ⟨hagree, hcount⟩
    constructor
    · have hagain := @gives_rebuilt storedPolicy cat.nameFor tapes _ planned hgives.nameFor
      constructor
      · intro id
        rw [hagain.datasets, hgives.datasets]
        exact dataset_again (fun _ hx => datasetId_of_mem hx) _
      · intro id
        rw [hagain.protections, hgives.protections, lastOf_again]
      · intro id
        rw [hagain.files, hgives.files]
        exact file_again (fun _ hx => fileRecordId_of_mem hx) _
      · intro path pool
        refine (hagain.mappings (path, pool)).trans ?_
        rw [hgives.mappings, mapping_again]
        exact (hgives.mappings (path, pool)).symm
    · exact fun runs hruns => order_of_shardsAgree (fun _ => rfl) hagree hruns (gives_runs runs fun _ => rfl)
    · intro id row hrow hentries
      have hlast := hcount id _ (counts_of_gives hgives hrow hentries)
      dsimp only at hlast ⊢
      rw [← sizes_eq hgives, List.length_map] at hlast
      exact Prod.mk.inj hlast

namespace RebuildAux

/-- A tape with one file of a dataset that spans two tapes, as the archive writes its shard. -/
def spanShard (barcode : Barcode) (recordId : String) : CatalogShard :=
  { barcode := barcode
    openbladeTapeId := barcode
    datasets := [{ datasetId := "d", fileCount := 1, totalBytes := 10, tapeSet := [barcode] }]
    files := [{ logicalPath := recordId, tapePath := "/d/" ++ recordId, datasetId := "d", fileRecordId := recordId, size := 10 }] }

def spanTapes (barcode : Barcode) : TapeReading := { shard := some (spanShard barcode (if barcode = "A00001L8" then "a" else "b")) }

end RebuildAux

open RebuildAux in
/-- A dataset on two tapes is counted as what its last tape holds. -/
theorem spanned_dataset_miscounted : ¬RebuildStable (fun _ => none) spanTapes {} ["A00001L8", "B00001L8"] := by
  intro h
  have hcount : ((rebuilt (fun _ => none) spanTapes {} ["A00001L8", "B00001L8"]).nas.getNasDataset "d").map NasDataset.fileCount = some 1 := by
    decide +kernel
  have hfiles : (recoveredFiles (RebuildCatalog.nameFor {}) spanTapes ["A00001L8", "B00001L8"]
      (rebuilt (fun _ => none) spanTapes {} ["A00001L8", "B00001L8"]) "d").length = 2 := by
    decide +kernel
  obtain ⟨row, hrow, hone⟩ := Option.map_eq_some_iff.1 hcount
  have hentries : ["A00001L8", "B00001L8"].flatMap (datasetEntries (RebuildCatalog.nameFor {}) spanTapes "d") ≠ [] := by
    refine List.ne_nil_of_length_pos ?_
    decide +kernel
  have htwo := (h.counts "d" row hrow hentries).1
  omega

end OpenBlade
