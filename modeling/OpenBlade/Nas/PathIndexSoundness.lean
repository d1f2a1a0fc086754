import OpenBlade.Nas.ArchivedCopies

/-!
# What the path index names

Archives and rebuilds in any order, over datasets of any pools. The index finds a mapping by path and pool alone, so that files of two
datasets may have one row: the second archive writes over the first, and a rebuild gathers the tapes of both under one of them. Where no
two files of different datasets have one key, and no data is written or taken for another file's, every tape that the index names holds
the file.
-/

namespace OpenBlade

open Effects

/-- What may happen to the index and to what it names. -/
inductive IndexStep where
  | write (barcode : Barcode) (datasetId relativePath : String) (content : Bytes)
  | upsertDataset (dataset : NasDataset)
  | upsertFileRecord (record : NasFileRecord)
  | archiveFile (record : NasFileRecord) (barcode : Barcode) (policyName : String) (choice : LifecycleChoice)
  | archiveDataset (datasetId : String) (fileRecords written : List NasFileRecord) (barcode : Barcode) (policyName : String)
      (choices : String → LifecycleChoice)
  | rebuild (planned : List Barcode) (readable versionsReadable : Barcode → Bool)
  | loseCatalog

namespace IndexStep

/-- The file records that a step is given. -/
def records : IndexStep → List NasFileRecord
  | upsertFileRecord record | archiveFile record _ _ _ => [record]
  | archiveDataset _ fileRecords written _ _ _ => fileRecords ++ written
  | _ => []

end IndexStep

section run

variable (storedPolicy : Codec.Json → Option String) (sha256 : Bytes → String) (names : String → DatasetName)

/-- One step. -/
def LifecycleWorld.exec (w : LifecycleWorld) : IndexStep → LifecycleWorld
  | .write barcode datasetId relativePath content =>
    w.setTape barcode { w.tapes barcode with
      contents := (w.tapes barcode).contents.set (datasetTapePath (names datasetId).text relativePath)
        { datasetId := datasetId, relativePath := relativePath, content := content } }
  | .upsertDataset dataset => { w with cat := { w.cat with nas := w.cat.nas.upsertNasDataset dataset } }
  | .upsertFileRecord record => { w with cat := { w.cat with nas := w.cat.nas.upsertNasFileRecord record } }
  | .archiveFile record barcode policyName choice =>
    (completeFileArchive sha256 record barcode (record.tapePath names) policyName choice w).2
  | .archiveDataset datasetId fileRecords written barcode policyName choices =>
    (completeDatasetArchive sha256 datasetId fileRecords barcode (written.map fun record => (record.id, record.tapePath names))
      policyName choices w).2
  | .rebuild planned readable versionsReadable =>
    { w with cat := (executeRebuildRun storedPolicy (w.readings readable versionsReadable) planned w.cat).2 }
  | .loseCatalog => { w with cat := {} }

/-- The state after some steps, from tapes and a catalog that are empty. -/
def afterSteps (steps : List IndexStep) : LifecycleWorld := steps.foldl (LifecycleWorld.exec storedPolicy sha256 names) {}

/-! ### What is asked of the index -/

/-- A tape holds a file: its catalog shard lists it, with a path at which the data of the file is. -/
def TapeVolume.Holds (volume : TapeVolume) (datasetId path : String) : Prop :=
  ∃ shard, volume.shard = some shard ∧ ∃ entry ∈ shard.files, entry.datasetId = datasetId ∧ strip entry.logicalPath = path ∧
    ∃ data, volume.contents.get? entry.tapePath = some data ∧ data.datasetId = datasetId ∧ data.relativePath = entry.logicalPath

/-- Every tape that a mapping names holds the file that it records. -/
def LifecycleWorld.IndexSound (w : LifecycleWorld) : Prop :=
  ∀ path pool mapping, w.cat.index.getPathMapping path pool = some mapping →
    ∀ barcode ∈ mapping.primaryBarcode :: mapping.allBarcodes, (w.tapes barcode).Holds mapping.datasetId path

/-- No mapping of a dataset is made one of another. -/
def LifecycleWorld.MappingsKept (w w' : LifecycleWorld) : Prop :=
  ∀ path pool mapping mapping', w.cat.index.getPathMapping path pool = some mapping →
    w'.cat.index.getPathMapping path pool = some mapping' → mapping'.datasetId = mapping.datasetId

/-- The index is sound after every step of a run, and no step takes the mapping of another dataset. -/
structure PathIndexKept (steps : List IndexStep) : Prop where
  sound : ∀ done rest, steps = done ++ rest → (afterSteps storedPolicy sha256 names done).IndexSound
  kept : ∀ done step rest, steps = done ++ step :: rest →
    (afterSteps storedPolicy sha256 names done).MappingsKept (afterSteps storedPolicy sha256 names (done ++ [step]))

/-! ### Files that are told apart -/

/-- The key of a file record in the index. -/
def NasFileRecord.mappingKey (record : NasFileRecord) : String × String := (strip record.relativePath, record.poolId.getD "")

/-- A step neither writes over the data of another file nor takes it for its own. -/
def LifecycleWorld.Proper (w : LifecycleWorld) : IndexStep → Prop
  | .write barcode datasetId relativePath _ => (w.tapes barcode).FreeFor names datasetId relativePath
  | .archiveFile record barcode _ _ => (w.tapes barcode).FreeFor names record.datasetId record.relativePath
  | .archiveDataset _ _ written _ _ _ => ∀ record ∈ written, ∀ barcode, (w.tapes barcode).FreeFor names record.datasetId record.relativePath
  | _ => True

/-- The files of a run: one of each record id, and none of another dataset with the same key. -/
structure FilesApart (steps : List IndexStep) : Prop where
  ids : IdsApart (steps.flatMap IndexStep.records)
  keys : ∀ r ∈ steps.flatMap IndexStep.records, ∀ s ∈ steps.flatMap IndexStep.records, r.mappingKey = s.mappingKey →
    r.datasetId = s.datasetId
  proper : ∀ done step rest, steps = done ++ step :: rest → (afterSteps storedPolicy sha256 names done).Proper names step

end run

namespace PathIndexAux

open ArchiveAux

/-! ### What holds at every moment -/

/-- A mapping is of a file of the run, under its key, and names tapes that hold the file. -/
def MappingsHeld (K : List NasFileRecord) (w : LifecycleWorld) : Prop :=
  ∀ path pool m, w.cat.index.getPathMapping path pool = some m →
    (∃ r ∈ K, r.mappingKey = (path, pool) ∧ r.datasetId = m.datasetId) ∧
      ∀ b ∈ m.primaryBarcode :: m.allBarcodes, (w.tapes b).Holds m.datasetId path

structure Kept (K : List NasFileRecord) (w : LifecycleWorld) : Prop where
  tapes : TapesKept K w
  mappings : MappingsHeld K w

theorem Kept.sound {K : List NasFileRecord} {w : LifecycleWorld} (h : Kept K w) : w.IndexSound := fun path pool m hm =>
  (h.mappings path pool m hm).2

/-- A tape holds a file where it holds a copy of it. -/
theorem holds_of_holdsCopy {volume : TapeVolume} {datasetId path : String} (h : volume.HoldsCopy datasetId path) :
    volume.Holds datasetId (strip path) := by
  obtain ⟨shard, hshard, e, he, hd, rfl, -, data, hget, hfile⟩ := h
  exact ⟨shard, hshard, e, he, hd, rfl, data, hget, congrArg Prod.fst hfile, congrArg Prod.snd hfile⟩

section keeps

variable {K : List NasFileRecord} {w w' : LifecycleWorld} {record : NasFileRecord} {b : Barcode}

theorem holdsCopy_of_holds (h : TapesKept K w) {datasetId path : String} (hholds : (w.tapes b).Holds datasetId path) :
    ∃ logicalPath, strip logicalPath = path ∧ (w.tapes b).HoldsCopy datasetId logicalPath := by
  obtain ⟨shard, hshard, e, he, rfl, hp, -⟩ := hholds
  exact ⟨e.logicalPath, hp, h.holdsCopy hshard he⟩

/-- Datasets are told by the keys of their mappings. -/
theorem mappingsKept_of_kept (hkeys : ∀ r ∈ K, ∀ s ∈ K, r.mappingKey = s.mappingKey → r.datasetId = s.datasetId)
    (h : Kept K w) (h' : Kept K w') : w.MappingsKept w' := by
  intro path pool m m' hm hm'
  obtain ⟨r, hr, hkey, hdataset⟩ := (h.mappings path pool m hm).1
  obtain ⟨r', hr', hkey', hdataset'⟩ := (h'.mappings path pool m' hm').1
  rw [← hdataset, ← hdataset']
  exact hkeys r' hr' r hr (hkey'.trans hkey.symm)

/-- A change that loses no copy and leaves the index. -/
theorem MappingsHeld.mono (h : MappingsHeld K w) (htapes : TapesKept K w)
    (hcopies : ∀ b datasetId path, (w.tapes b).HoldsCopy datasetId path → (w'.tapes b).HoldsCopy datasetId path)
    (hindex : w'.cat.index = w.cat.index) : MappingsHeld K w' := by
  intro path pool m hm
  rw [hindex] at hm
  obtain ⟨hknown, hheld⟩ := h path pool m hm
  refine ⟨hknown, fun b hb => ?_⟩
  obtain ⟨logicalPath, rfl, hcopy⟩ := holdsCopy_of_holds htapes (hheld b hb)
  exact holds_of_holdsCopy (hcopies b _ _ hcopy)

/-- A mapping of a file that its tape holds. -/
theorem MappingsHeld.upsert (h : MappingsHeld K w) {mapping : PathMappingRecord}
    (hknown : ∃ r ∈ K, r.mappingKey = mapping.key ∧ r.datasetId = mapping.datasetId)
    (hheld : ∀ b ∈ mapping.primaryBarcode :: mapping.allBarcodes, (w.tapes b).Holds mapping.datasetId mapping.logicalPath) :
    MappingsHeld K { w with cat := { w.cat with index := w.cat.index.upsertPathMapping mapping } } := by
  intro path pool m hm
  rw [PathIndex.getPathMapping_upsert] at hm
  split at hm
  · rename_i hkey
    obtain rfl := Option.some.inj hm
    obtain rfl : mapping.logicalPath = path := congrArg Prod.fst hkey
    exact ⟨by rw [← hkey]; exact hknown, hheld⟩
  · exact h path pool m hm

/-- The steps of a file keep the mappings. -/
theorem lifecycleKeeps_mappings (hrecord : KnownRecord K record) :
    LifecycleKeeps K record b fun w => TapesKept K w ∧ MappingsHeld K w where
  tape w w' hstep h := ⟨hstep.from_.kept, h.2.mono h.1 hstep.from_.copies (by rw [hstep.cat])⟩
  mapping w ok w' _ hcopy hstep h := by
    obtain ⟨mapping, hkey, hdataset, hprimary, hall, rfl⟩ := mappingStep_eq hstep
    refine ⟨⟨h.1.barcode, h.1.datasets, h.1.listed, h.1.rows⟩, h.2.upsert ?_ fun b' hb' => ?_⟩
    · obtain ⟨r, hr, hd, hp, hpool⟩ := hrecord.pool
      refine ⟨r, hr, ?_, hd.trans hdataset.symm⟩
      unfold NasFileRecord.mappingKey
      rw [hp, hpool, hkey]
    · obtain rfl : b' = b := by simpa [hprimary, hall] using hb'
      have hpath : mapping.logicalPath = strip record.relativePath := congrArg Prod.fst hkey
      rw [hdataset, hpath]
      exact holds_of_holdsCopy hcopy
  mark w ok w' hstep h := by
    obtain rfl := markStep_eq hstep
    exact ⟨h.1.updateStatus record.id .offlineOnTape, h.2⟩

/-- An archive of a file keeps the index sound, whatever it comes to. -/
theorem kept_completeFileArchive {names : String → DatasetName} (sha256 : Bytes → String) (hids : IdsApart K)
    (hrecord : KnownRecord K record) (hfree : (w.tapes b).FreeFor names record.datasetId record.relativePath) (h : Kept K w)
    (policyName : String) (choice : LifecycleChoice) :
    KeptFrom K w (completeFileArchive sha256 record b (record.tapePath names) policyName choice w).2 ∧
      Kept K (completeFileArchive sha256 record b (record.tapePath names) policyName choice w).2 := by
  obtain ⟨⟨hfrom, htapes, hmappings⟩, -⟩ := completeFileArchive_keeps sha256 hids hrecord h.tapes hfree policyName choice
    (lifecycleKeeps_mappings hrecord) ⟨h.tapes, h.mappings⟩
  exact ⟨hfrom, htapes, hmappings⟩

/-! ### The files of a dataset -/

/-- The path given for a record is that of its file. -/
theorem tapePath_of_get? {names : String → DatasetName} {tapePath : String} (hids : IdsApart K) {written : List NasFileRecord}
    (hwritten : ∀ r ∈ written, r ∈ K) (hrecord : KnownRecord K record)
    (hget : Dict.get? (written.map fun r => (r.id, r.tapePath names)) record.id = some tapePath) :
    ∃ r ∈ written, r.datasetId = record.datasetId ∧ r.relativePath = record.relativePath ∧ tapePath = record.tapePath names := by
  obtain ⟨r, hr, hpair⟩ := List.mem_map.1 (Dict.mem_of_get? hget)
  obtain ⟨hid, rfl⟩ := Prod.mk.inj hpair
  obtain ⟨hd, hp⟩ := (knownRecord_of_mem (hwritten r hr)).file.same hids (hid ▸ hrecord.file)
  refine ⟨r, hr, hd, hp, ?_⟩
  unfold NasFileRecord.tapePath
  rw [hd, hp]

theorem kept_completeDatasetArchive {names : String → DatasetName} (sha256 : Bytes → String) (hids : IdsApart K)
    {written : List NasFileRecord} (hwritten : ∀ r ∈ written, r ∈ K)
    (hfree : ∀ r ∈ written, ∀ b, (w.tapes b).FreeFor names r.datasetId r.relativePath) {fileRecords : List NasFileRecord}
    (hrecords : ∀ r ∈ fileRecords, KnownRecord K r) (h : Kept K w) (datasetId : String) (barcode : Barcode) (policyName : String)
    (choices : String → LifecycleChoice) :
    Kept K (completeDatasetArchive sha256 datasetId fileRecords barcode (written.map fun r => (r.id, r.tapePath names))
      policyName choices w).2 := by
  have hfile : ∀ record ∈ fileRecords, ∀ w', KeptFrom K w w' ∧ Kept K w' →
      KeptFrom K w (archiveDatasetFile sha256 barcode (written.map fun r => (r.id, r.tapePath names)) policyName record
          (choices record.id) w').2 ∧
        Kept K (archiveDatasetFile sha256 barcode (written.map fun r => (r.id, r.tapePath names)) policyName record
          (choices record.id) w').2 := by
    rintro record hr w' ⟨hfrom, h'⟩
    rcases archiveDatasetFile_cases sha256 barcode (written.map fun r => (r.id, r.tapePath names)) policyName record
      (choices record.id) w' with heq | ⟨tapePath, hget, -, heq⟩
    · rw [heq]
      exact ⟨hfrom, h'⟩
    · have hcurrent := h'.tapes.currentRecord (hrecords record hr)
      obtain ⟨r, hr', hd, hp, rfl⟩ := tapePath_of_get? hids hwritten hcurrent hget
      have hfree' := hfree r hr' (barcodeOr (currentRecord w' record).tapeBarcode barcode)
      rw [hd, hp] at hfree'
      unfold TapeVolume.FreeFor at hfree'
      rw [← hfrom.contents] at hfree'
      obtain ⟨hfrom', h''⟩ := kept_completeFileArchive sha256 hids hcurrent hfree' h' policyName (choices record.id)
      rw [heq]
      exact ⟨hfrom.trans hfrom', h''⟩
  have hfiles := archiveDatasetFiles_keeps sha256 barcode (written.map fun r => (r.id, r.tapePath names)) policyName choices
    (J := fun w' => KeptFrom K w w' ∧ Kept K w') hfile { datasetId := datasetId } ⟨h.tapes.refl, h⟩
  rcases completeDatasetArchive_cases sha256 datasetId fileRecords barcode (written.map fun r => (r.id, r.tapePath names)) policyName
    choices w with heq | ⟨dataset, -, heq⟩
  · rw [heq]
    exact hfiles.2
  · rw [heq]
    have htapes := hfiles.2.tapes
    exact ⟨⟨htapes.barcode, htapes.datasets, htapes.listed, htapes.rows⟩, hfiles.2.mappings⟩

/-! ### A rebuild -/

theorem kept_rebuild (storedPolicy : Codec.Json → Option String) (hids : IdsApart K)
    (hkeys : ∀ r ∈ K, ∀ s ∈ K, r.mappingKey = s.mappingKey → r.datasetId = s.datasetId) (h : Kept K w) (planned : List Barcode)
    (readable versionsReadable : Barcode → Bool) :
    Kept K { w with cat := (executeRebuildRun storedPolicy (w.readings readable versionsReadable) planned w.cat).2 } := by
  have hgives : RebuildAux.Gives storedPolicy w.cat.nameFor (w.readings readable versionsReadable) planned w.cat
      (executeRebuildRun storedPolicy (w.readings readable versionsReadable) planned w.cat).2 :=
    RebuildAux.gives_rebuilt planned fun _ => rfl
  refine ⟨⟨h.tapes.barcode, h.tapes.datasets, h.tapes.listed, fun id r hr => ?_⟩, fun path pool m hm => ?_⟩
  · exact knownRecord_rebuilt hids hgives h.tapes.rows
      (fun b shard hshard e he => (h.tapes.listed b shard (shard_of_readings hshard).2 e he).1) hr
  · have hafter := (hgives.mappings (path, pool)).symm.trans hm
    refine rowAfter_keeps (P := fun m => (∃ r ∈ K, r.mappingKey = (path, pool) ∧ r.datasetId = m.datasetId) ∧
      ∀ b ∈ m.primaryBarcode :: m.allBarcodes, (w.tapes b).Holds m.datasetId path) (fun record hrecord row hrow => ?_)
      (fun m hm => h.mappings path pool m hm) hafter
    obtain ⟨hkey, b, shard, hread, e, he, rfl⟩ := listed_of_mem_mappingEntries hrecord
    have hshard := (shard_of_readings hread).2
    obtain ⟨r, hr, hd, hp, hpool⟩ := (h.tapes.listed b shard hshard e he).1.pool
    have hrkey : r.mappingKey = (path, pool) := by
      rw [← hkey]
      unfold NasFileRecord.mappingKey
      rw [hp, hpool]
      rfl
    have hpath : strip e.logicalPath = path := congrArg Prod.fst hkey
    have hheld : (w.tapes shard.barcode).Holds e.datasetId path := by
      rw [h.tapes.barcode b shard hshard, ← hpath]
      exact holds_of_holdsCopy (h.tapes.holdsCopy hshard he)
    refine ⟨⟨r, hr, hrkey, hd⟩, fun b' hb' => ?_⟩
    have hb' : b' = shard.barcode ∨ b' ∈ (row.getD RebuildAux.blankMapping).allBarcodes := by
      rcases List.mem_cons.1 hb' with rfl | hb'
      · exact .inl rfl
      · rcases mem_gather.1 hb' with hold | hnew
        · exact .inr hold
        · exact .inl (List.mem_singleton.1 hnew)
    rcases hb' with rfl | hold
    · exact hheld
    · cases row with
      | none => nomatch hold
      | some m =>
        obtain ⟨⟨s, hs, hskey, hsd⟩, hbarcodes⟩ := hrow m rfl
        have hsame : m.datasetId = e.datasetId := by rw [← hsd, ← hd, hkeys s hs r hr (hskey.trans hrkey.symm)]
        have hheld' := hbarcodes b' (List.mem_cons_of_mem _ hold)
        rw [hsame] at hheld'
        exact hheld'

end keeps

/-! ### A run -/

section run

variable {storedPolicy : Codec.Json → Option String} {sha256 : Bytes → String} {names : String → DatasetName}

theorem kept_exec {K : List NasFileRecord} {w : LifecycleWorld} (hids : IdsApart K)
    (hkeys : ∀ r ∈ K, ∀ s ∈ K, r.mappingKey = s.mappingKey → r.datasetId = s.datasetId) (h : Kept K w) {step : IndexStep}
    (hrecords : ∀ r ∈ step.records, r ∈ K) (hproper : w.Proper names step) : Kept K (w.exec storedPolicy sha256 names step) := by
  cases step with
  | write barcode datasetId relativePath content =>
    obtain ⟨htapes, hcopies⟩ := tapesKept_write ⟨datasetId, relativePath, content⟩ h.tapes hproper
    exact ⟨htapes, h.mappings.mono h.tapes hcopies rfl⟩
  | upsertDataset dataset => exact ⟨⟨h.tapes.barcode, h.tapes.datasets, h.tapes.listed, h.tapes.rows⟩, h.mappings⟩
  | upsertFileRecord record =>
    exact ⟨h.tapes.upsertFileRecord (knownRecord_of_mem (hrecords record List.mem_cons_self)), h.mappings⟩
  | archiveFile record barcode policyName choice =>
    exact (kept_completeFileArchive sha256 hids (knownRecord_of_mem (hrecords record List.mem_cons_self)) hproper h policyName choice).2
  | archiveDataset datasetId fileRecords written barcode policyName choices =>
    exact kept_completeDatasetArchive sha256 hids (fun r hr => hrecords r (List.mem_append_right _ hr)) hproper
      (fun r hr => knownRecord_of_mem (hrecords r (List.mem_append_left _ hr))) h datasetId barcode policyName choices
  | rebuild planned readable versionsReadable => exact kept_rebuild storedPolicy hids hkeys h planned readable versionsReadable
  | loseCatalog =>
    exact ⟨⟨h.tapes.barcode, h.tapes.datasets, h.tapes.listed, fun _ _ hr => nomatch hr⟩, fun _ _ _ hm => nomatch hm⟩

/-- The files of a run are its own at every moment. -/
theorem kept_afterSteps {steps : List IndexStep} (h : FilesApart storedPolicy sha256 names steps) (done rest : List IndexStep)
    (hsteps : steps = done ++ rest) : Kept (steps.flatMap IndexStep.records) (afterSteps storedPolicy sha256 names done) := by
  induction done using List.reverseRecOn generalizing rest with
  | nil => exact ⟨tapesKept_start _, fun _ _ _ hm => nomatch hm⟩
  | append_singleton done step ih =>
    have hsplit : steps = done ++ step :: rest := by rw [hsteps, List.append_assoc, List.singleton_append]
    have hexec : afterSteps storedPolicy sha256 names (done ++ [step]) =
        (afterSteps storedPolicy sha256 names done).exec storedPolicy sha256 names step := List.foldl_append
    have hstep : step ∈ steps := by
      rw [hsplit]
      exact List.mem_append_right _ List.mem_cons_self
    rw [hexec]
    exact kept_exec h.ids h.keys (ih _ hsplit) (fun r hr => List.mem_flatMap.2 ⟨step, hstep, hr⟩) (h.proper done step rest hsplit)

variable (storedPolicy sha256 names) in
/-- Steps that are proper one after the other. -/
def ProperFrom : LifecycleWorld → List IndexStep → Prop
  | _, [] => True
  | w, step :: steps => w.Proper names step ∧ ProperFrom (w.exec storedPolicy sha256 names step) steps

theorem proper_of_properFrom {w : LifecycleWorld} {steps done rest : List IndexStep} {step : IndexStep}
    (h : ProperFrom storedPolicy sha256 names w steps) (hsteps : steps = done ++ step :: rest) :
    (done.foldl (LifecycleWorld.exec storedPolicy sha256 names) w).Proper names step := by
  subst hsteps
  induction done generalizing w with
  | nil => exact h.1
  | cons first done ih => exact ih h.2

end run

end PathIndexAux

open PathIndexAux

/-- Where the files of a run are told apart, the index is sound throughout it. -/
theorem path_index_kept (storedPolicy : Codec.Json → Option String) (sha256 : Bytes → String) (names : String → DatasetName)
    (steps : List IndexStep) (h : FilesApart storedPolicy sha256 names steps) : PathIndexKept storedPolicy sha256 names steps where
  sound done rest hsteps := (kept_afterSteps h done rest hsteps).sound
  kept done step rest hsteps :=
    mappingsKept_of_kept h.keys (kept_afterSteps h done (step :: rest) hsteps)
      (kept_afterSteps h (done ++ [step]) rest (by rw [hsteps, List.append_assoc, List.singleton_append]))

/-- A dataset is named by its id. -/
def photoNames (id : String) : DatasetName :=
  if id = "photos" then TapeNamesAux.photos else ⟨"mail", "mail", by decide +kernel⟩

def photoRecord : NasFileRecord :=
  { id := "1", datasetId := "photos", poolId := some "pool", relativePath := "readme.txt", tapeBarcode := some "A00001L8"
    status := .onlineCached }

/-- A file of another dataset, at a path of its own or at the same one. -/
def mailRecord (relativePath : String) : NasFileRecord :=
  { id := "2", datasetId := "mail", poolId := some "pool", relativePath := relativePath, tapeBarcode := some "B00002L8"
    status := .onlineCached }

/-- Two datasets are archived, the catalog is lost, and a rebuild reads both tapes. -/
def archiveRun (relativePath : String) : List IndexStep :=
  [.upsertDataset { id := "photos", name := "photos", poolId := some "pool" },
   .upsertDataset { id := "mail", name := "mail", poolId := some "pool" },
   .write "A00001L8" "photos" "readme.txt" [1], .write "B00002L8" "mail" relativePath [2],
   .archiveFile photoRecord "A00001L8" "" {}, .archiveFile (mailRecord relativePath) "B00002L8" "" {},
   .loseCatalog, .rebuild ["A00001L8", "B00002L8"] (fun _ => true) fun _ => true]

theorem path_index_kept_archiveRun : PathIndexKept (fun _ => none) (fun _ => "") photoNames (archiveRun "index.txt") := by
  refine path_index_kept _ _ _ _ ⟨?ids, ?keys, fun done step rest hsteps => proper_of_properFrom ?proper hsteps⟩
  case ids =>
    unfold IdsApart
    decide +kernel
  case keys => decide +kernel
  case proper =>
    refine ⟨trivial, trivial, ?_, ?_, ?_, ?_, trivial, trivial, trivial⟩
    all_goals
      unfold LifecycleWorld.Proper
      decide +kernel

/-- Two datasets of one pool have a file of one relative path. The second archive takes the mapping of the first, and a rebuild gathers
both tapes under the last of them, of which one does not hold the file. -/
theorem mapping_of_same_path_taken : ¬PathIndexKept (fun _ => none) (fun _ => "") photoNames (archiveRun "readme.txt") := by
  intro h
  have hbefore : ((afterSteps (fun _ => none) (fun _ => "") photoNames ((archiveRun "readme.txt").take 5)).cat.index.getPathMapping
      "readme.txt" "pool").map PathMappingRecord.datasetId = some "photos" := by
    decide +kernel
  have hafter : ((afterSteps (fun _ => none) (fun _ => "") photoNames ((archiveRun "readme.txt").take 6)).cat.index.getPathMapping
      "readme.txt" "pool").map PathMappingRecord.datasetId = some "mail" := by
    decide +kernel
  obtain ⟨m, hm, hdataset⟩ := Option.map_eq_some_iff.1 hbefore
  obtain ⟨m', hm', hdataset'⟩ := Option.map_eq_some_iff.1 hafter
  have hkept := h.kept ((archiveRun "readme.txt").take 5) _ _ rfl "readme.txt" "pool" m m' hm hm'
  rw [hdataset, hdataset'] at hkept
  exact absurd hkept (by decide)

end OpenBlade
