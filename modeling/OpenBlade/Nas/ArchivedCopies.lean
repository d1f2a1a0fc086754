import OpenBlade.Nas.ArchiveLifecycle
import OpenBlade.Nas.RebuildOrder

/-!
# What is on tape when a file is archived

The six steps of a file, up to any of them: the catalog shard lists the file, with its data, before a mapping names the tape and
before the record is marked. Whatever the steps come to, the data stays, every copy that a tape held is still held, and the rows are
those of files that the run knows.
-/

namespace OpenBlade

open Effects

/-- The file that data was written for. -/
def TapeData.file (data : TapeData) : String × String := (data.datasetId, data.relativePath)

/-- A tape holds a verified copy of a file: its catalog shard lists it as verified, with a path at which the data of the file is. -/
def TapeVolume.HoldsCopy (volume : TapeVolume) (datasetId logicalPath : String) : Prop :=
  ∃ shard, volume.shard = some shard ∧ ∃ entry ∈ shard.files, entry.datasetId = datasetId ∧ entry.logicalPath = logicalPath ∧
    entry.verified = true ∧ ∃ data, volume.contents.get? entry.tapePath = some data ∧ data.file = (datasetId, logicalPath)

/-- Where an ingest writes a file record. -/
def NasFileRecord.tapePath (names : String → DatasetName) (record : NasFileRecord) : String :=
  datasetTapePath (names record.datasetId).text record.relativePath

/-- The data that is at the path of a file, if any, is that of the file. -/
def TapeVolume.FreeFor (names : String → DatasetName) (volume : TapeVolume) (datasetId relativePath : String) : Prop :=
  ∀ data, volume.contents.get? (datasetTapePath (names datasetId).text relativePath) = some data → data.file = (datasetId, relativePath)

instance (names : String → DatasetName) (volume : TapeVolume) (datasetId relativePath : String) :
    Decidable (volume.FreeFor names datasetId relativePath) :=
  decidable_of_iff (∀ data ∈ volume.contents.get? (datasetTapePath (names datasetId).text relativePath),
    data.file = (datasetId, relativePath)) Iff.rfl

/-- What a rebuild reads of the tapes. -/
def LifecycleWorld.readings (w : LifecycleWorld) (readable versionsReadable : Barcode → Bool) (barcode : Barcode) : TapeReading :=
  { shard := if readable barcode then (w.tapes barcode).shard else none
    versionsReadable := versionsReadable barcode }

/-- A record id stands for one file. -/
def IdsApart (records : List NasFileRecord) : Prop :=
  ∀ r ∈ records, ∀ s ∈ records, r.id = s.id → r.datasetId = s.datasetId ∧ r.relativePath = s.relativePath

namespace ArchiveAux

/-! ### Files that a run knows -/

/-- A file of a run. -/
def Known (K : List NasFileRecord) (id datasetId relativePath : String) : Prop :=
  ∃ r ∈ K, r.id = id ∧ r.datasetId = datasetId ∧ r.relativePath = relativePath

/-- A file of a run in a pool. -/
def KnownIn (K : List NasFileRecord) (datasetId relativePath pool : String) : Prop :=
  ∃ r ∈ K, r.datasetId = datasetId ∧ r.relativePath = relativePath ∧ r.poolId.getD "" = pool

/-- A file of a run, under its id and in a pool. -/
structure KnownFile (K : List NasFileRecord) (id datasetId relativePath pool : String) : Prop where
  file : Known K id datasetId relativePath
  pool : KnownIn K datasetId relativePath pool

abbrev KnownRecord (K : List NasFileRecord) (r : NasFileRecord) : Prop :=
  KnownFile K r.id r.datasetId r.relativePath (r.poolId.getD "")

abbrev KnownEntry (K : List NasFileRecord) (e : CatalogShardFileEntry) : Prop :=
  KnownFile K e.fileRecordId e.datasetId e.logicalPath e.poolId

theorem knownRecord_of_mem {K : List NasFileRecord} {r : NasFileRecord} (h : r ∈ K) : KnownRecord K r :=
  ⟨⟨r, h, rfl, rfl, rfl⟩, r, h, rfl, rfl, rfl⟩

/-- Two files of a run that have one id are one. -/
theorem Known.same {K : List NasFileRecord} (hids : IdsApart K) {id datasetId relativePath datasetId' relativePath' : String}
    (h : Known K id datasetId relativePath) (h' : Known K id datasetId' relativePath') :
    datasetId = datasetId' ∧ relativePath = relativePath' := by
  obtain ⟨r, hr, hid, rfl, rfl⟩ := h
  obtain ⟨s, hs, hid', rfl, rfl⟩ := h'
  exact hids r hr s hs (hid.trans hid'.symm)

/-- The data of a shard entry is at its path. -/
def Backed (volume : TapeVolume) (e : CatalogShardFileEntry) : Prop :=
  ∃ data, volume.contents.get? e.tapePath = some data ∧ data.file = (e.datasetId, e.logicalPath)

/-- Shards list what is on their tapes, and rows are of the files of the run. -/
structure TapesKept (K : List NasFileRecord) (w : LifecycleWorld) : Prop where
  barcode : ∀ b shard, (w.tapes b).shard = some shard → shard.barcode = b
  datasets : ∀ b shard, (w.tapes b).shard = some shard → ∀ d ∈ shard.datasets, d.tapeSet = [b]
  listed : ∀ b shard, (w.tapes b).shard = some shard → ∀ e ∈ shard.files, KnownEntry K e ∧ e.verified = true ∧ Backed (w.tapes b) e
  rows : ∀ id r, w.cat.nas.getNasFileRecord id = some r → KnownRecord K r

theorem tapesKept_start (K : List NasFileRecord) : TapesKept K {} where
  barcode _ _ h := nomatch h
  datasets _ _ h := nomatch h
  listed _ _ h := nomatch h
  rows _ _ h := nomatch h

/-- A file that a tape lists is held. -/
theorem TapesKept.holdsCopy {K : List NasFileRecord} {w : LifecycleWorld} (h : TapesKept K w) {b : Barcode} {shard : CatalogShard}
    (hshard : (w.tapes b).shard = some shard) {e : CatalogShardFileEntry} (he : e ∈ shard.files) :
    (w.tapes b).HoldsCopy e.datasetId e.logicalPath :=
  have ⟨_, hverified, hbacked⟩ := h.listed b shard hshard e he
  ⟨shard, hshard, e, he, rfl, rfl, hverified, hbacked⟩

/-- What a change keeps that writes no data. -/
structure KeptFrom (K : List NasFileRecord) (w w' : LifecycleWorld) : Prop where
  kept : TapesKept K w'
  contents : ∀ b, (w'.tapes b).contents = (w.tapes b).contents
  copies : ∀ b datasetId path, (w.tapes b).HoldsCopy datasetId path → (w'.tapes b).HoldsCopy datasetId path

theorem TapesKept.refl {K : List NasFileRecord} {w : LifecycleWorld} (h : TapesKept K w) : KeptFrom K w w where
  kept := h
  contents _ := rfl
  copies _ _ _ hcopy := hcopy

theorem KeptFrom.trans {K : List NasFileRecord} {w w' w'' : LifecycleWorld} (h : KeptFrom K w w') (h' : KeptFrom K w' w'') :
    KeptFrom K w w'' where
  kept := h'.kept
  contents b := (h'.contents b).trans (h.contents b)
  copies b datasetId path hcopy := h'.copies b datasetId path (h.copies b datasetId path hcopy)

section changes

variable {K : List NasFileRecord} {w w₀ : LifecycleWorld} {record : NasFileRecord} {b : Barcode} {tapePath : String}

/-! ### A change of one tape -/

/-- A tape that still lists, with their data, the files that it listed. -/
theorem TapesKept.setTape (h : TapesKept K w) {volume : TapeVolume} (hbarcode : ∀ shard, volume.shard = some shard → shard.barcode = b)
    (hdatasets : ∀ shard, volume.shard = some shard → ∀ d ∈ shard.datasets, d.tapeSet = [b])
    (hlisted : ∀ shard, volume.shard = some shard → ∀ e ∈ shard.files, KnownEntry K e ∧ e.verified = true ∧ Backed volume e) :
    TapesKept K (w.setTape b volume) := by
  refine ⟨fun b' shard hshard => ?_, fun b' shard hshard => ?_, fun b' shard hshard => ?_, h.rows⟩
  all_goals by_cases hb : b' = b
  · subst hb
    rw [LifecycleWorld.setTape_tapes_self] at hshard
    exact hbarcode shard hshard
  · rw [w.setTape_tapes_of_ne volume hb] at hshard
    exact h.barcode b' shard hshard
  · subst hb
    rw [LifecycleWorld.setTape_tapes_self] at hshard
    exact hdatasets shard hshard
  · rw [w.setTape_tapes_of_ne volume hb] at hshard
    exact h.datasets b' shard hshard
  · subst hb
    rw [LifecycleWorld.setTape_tapes_self] at hshard ⊢
    exact hlisted shard hshard
  · rw [w.setTape_tapes_of_ne volume hb] at hshard ⊢
    exact h.listed b' shard hshard

/-- What is kept of every tape when one is changed and keeps it. -/
theorem forall_setTape {P : TapeVolume → TapeVolume → Prop} (hrefl : ∀ volume, P volume volume) {volume : TapeVolume}
    (hvolume : P (w.tapes b) volume) (b' : Barcode) : P (w.tapes b') ((w.setTape b volume).tapes b') := by
  by_cases hb : b' = b
  · subst hb
    rw [LifecycleWorld.setTape_tapes_self]
    exact hvolume
  · rw [w.setTape_tapes_of_ne volume hb]
    exact hrefl _

/-- Data that is written keeps what stands at the other paths; where its own path is free for the file, no copy is lost. -/
theorem tapesKept_write (new : TapeData) (h : TapesKept K w) {path : String}
    (hfree : ∀ data, (w.tapes b).contents.get? path = some data → data.file = new.file) :
    TapesKept K (w.setTape b { w.tapes b with contents := (w.tapes b).contents.set path new }) ∧
      ∀ b' datasetId logicalPath, (w.tapes b').HoldsCopy datasetId logicalPath →
        ((w.setTape b { w.tapes b with contents := (w.tapes b).contents.set path new }).tapes b').HoldsCopy datasetId logicalPath := by
  have hdata : ∀ tapePath data, (w.tapes b).contents.get? tapePath = some data →
      ∃ data', ((w.tapes b).contents.set path new).get? tapePath = some data' ∧ data'.file = data.file := by
    intro tapePath data hget
    rw [Dict.get?_set]
    by_cases htape : path = tapePath
    · subst htape
      exact ⟨new, if_pos rfl, (hfree data hget).symm⟩
    · exact ⟨data, by rw [if_neg htape, hget], rfl⟩
  refine ⟨h.setTape (h.barcode b) (h.datasets b) fun shard hshard e he => ?_, fun b' datasetId logicalPath => ?_⟩
  · obtain ⟨hknown, hverified, data, hget, hfile⟩ := h.listed b shard hshard e he
    obtain ⟨data', hget', hfile'⟩ := hdata e.tapePath data hget
    exact ⟨hknown, hverified, data', hget', hfile'.trans hfile⟩
  · refine forall_setTape (P := fun old new => old.HoldsCopy datasetId logicalPath → new.HoldsCopy datasetId logicalPath)
      (fun _ hcopy => hcopy) ?_ b'
    rintro ⟨shard, hshard, e, he, hd, hp, hverified, data, hget, hfile⟩
    obtain ⟨data', hget', hfile'⟩ := hdata e.tapePath data hget
    exact ⟨shard, hshard, e, he, hd, hp, hverified, data', hget', hfile'.trans hfile⟩

/-! ### A change of the catalog -/

theorem TapesKept.upsertFileRecord (h : TapesKept K w) (hrecord : KnownRecord K record) :
    TapesKept K { w with cat := { w.cat with nas := w.cat.nas.upsertNasFileRecord record } } where
  barcode := h.barcode
  datasets := h.datasets
  listed := h.listed
  rows id r hr := by
    have hget : (w.cat.nas.upsertNasFileRecord record).getNasFileRecord id =
        if record.id = id then some record else w.cat.nas.getNasFileRecord id := Dict.get?_set _ _ _ _
    rw [hget] at hr
    split at hr
    · obtain rfl := Option.some.inj hr
      exact hrecord
    · exact h.rows id r hr

theorem TapesKept.updateStatus (h : TapesKept K w) (id : String) (status : NasFileState) :
    TapesKept K { w with cat := { w.cat with nas := (w.cat.nas.updateNasFileStatus id status).2 } } := by
  unfold NasCatalog.updateNasFileStatus
  cases hget : w.cat.nas.getNasFileRecord id with
  | none => exact h
  | some r => exact h.upsertFileRecord (h.rows id r hget)

/-! ### The steps of a file -/

/-- Steps in order: where one goes well the next may rely on what it has established, and what is kept holds after each. -/
def StepsKeep (J R : LifecycleWorld → Prop) :
    (LifecycleWorld → Prop) → List (String × (LifecycleWorld → StepOutcome)) → Prop
  | P, [] => ∀ w, P w → J w ∧ R w
  | P, (_, step) :: steps => (∀ w, P w → J w) ∧ ∃ Q : LifecycleWorld → Prop,
      (∀ w, P w → ∀ ok w', step w = some (ok, w') → J w' ∧ (ok = true → Q w')) ∧ StepsKeep J R Q steps

theorem runSteps_keeps {J R P : LifecycleWorld → Prop} {steps : List (String × (LifecycleWorld → StepOutcome))}
    (h : StepsKeep J R P steps) (record : NasFileRecord) (faults : String → StepFault) {result : FileLifecycleResult}
    (hresult : result.success = false) {w : LifecycleWorld} (hw : P w) :
    J (runSteps record faults result w steps).2 ∧
      ((runSteps record faults result w steps).1.success = true → R (runSteps record faults result w steps).2) := by
  induction steps generalizing P result w with
  | nil => exact ⟨(h w hw).1, fun _ => (h w hw).2⟩
  | cons step steps ih =>
    obtain ⟨name, step⟩ := step
    obtain ⟨hJ, Q, hstep, hrest⟩ := h
    have hhalt : result.success ≠ true := by simp [hresult]
    unfold runSteps
    cases houtcome : step w with
    | none => cases faults name <;> exact ⟨hJ w hw, fun hok => absurd hok hhalt⟩
    | some outcome =>
      obtain ⟨ok, w'⟩ := outcome
      obtain ⟨hJ', hQ⟩ := hstep w hw ok w' houtcome
      cases faults name with
      | before => exact ⟨hJ w hw, fun hok => absurd hok hhalt⟩
      | after => exact ⟨hJ', fun hok => absurd hok hhalt⟩
      | none =>
        cases ok with
        | false => exact ⟨hJ', fun hok => absurd hok hhalt⟩
        | true =>
          refine ih hrest ?_ (hQ rfl)
          exact hresult

/-- The data of a file is at a path of a tape. -/
def DataAt (volume : TapeVolume) (tapePath : String) (record : NasFileRecord) : Prop :=
  ∃ data, volume.contents.get? tapePath = some data ∧ data.file = (record.datasetId, record.relativePath)

/-- An entry that was put into a list sorted anew, after those of its record were taken out, is the one found for the record. -/
theorem resolveTapePath_written (volume : TapeVolume) (manifest : ManifestJson) (others : List ManifestFileEntry) (entry : ManifestFileEntry)
    (le : ManifestFileEntry → ManifestFileEntry → Prop) [DecidableRel le] (hschema : manifest.schema ∈ supportedManifestSchemas)
    (hfiles : manifest.files = ((others.filter fun e => e.fileRecordId ≠ entry.fileRecordId) ++ [entry]).insertionSort le) :
    ({ volume with manifest := some manifest } : TapeVolume).resolveTapePath entry.fileRecordId = entry.tapePath := by
  have hmem : ∀ e ∈ manifest.files, e.fileRecordId = entry.fileRecordId → e = entry := by
    intro e he hid
    rw [hfiles, List.mem_insertionSort, List.mem_append, List.mem_filter, List.mem_singleton] at he
    rcases he with ⟨-, hne⟩ | rfl
    · exact absurd hid (by simpa using hne)
    · rfl
  have hentry : entry ∈ manifest.files := by
    rw [hfiles, List.mem_insertionSort]
    exact List.mem_append_right _ List.mem_cons_self
  have hfind : manifest.files.find? (fun e => e.fileRecordId = entry.fileRecordId) = some entry := by
    cases hfound : manifest.files.find? fun e => e.fileRecordId = entry.fileRecordId with
    | none => exact absurd (List.find?_eq_none.1 hfound entry hentry) (by simp)
    | some e => rw [hmem e (List.mem_of_find?_eq_some hfound) (by simpa using List.find?_some hfound)]
  have hread : ({ volume with manifest := some manifest } : TapeVolume).readManifest = some manifest :=
    if_pos (decide_eq_true hschema)
  unfold TapeVolume.resolveTapePath
  rw [hread, Option.bind_some, hfind]
  rfl

/-- A step that changes nothing but its tape. -/
structure TapeStep (K : List NasFileRecord) (b : Barcode) (w w' : LifecycleWorld) : Prop where
  from_ : KeptFrom K w w'
  cat : w'.cat = w.cat
  others : ∀ b' ≠ b, w'.tapes b' = w.tapes b'

theorem tapeStep_manifest (h : TapesKept K w) (policyName : String) {ok : Bool} {w' : LifecycleWorld}
    (hstep : stepWriteManifest record b tapePath policyName w = some (ok, w')) :
    TapeStep K b w w' ∧ (w'.tapes b).resolveTapePath record.id = tapePath := by
  obtain ⟨dataset, -, hw'⟩ := Option.map_eq_some_iff.1 hstep
  obtain ⟨-, rfl⟩ := Prod.mk.inj hw'
  refine ⟨⟨⟨h.setTape (h.barcode b) (h.datasets b) (h.listed b), fun b' => ?_, fun b' datasetId path => ?_⟩, rfl,
    fun b' hb => w.setTape_tapes_of_ne _ hb⟩, ?_⟩
  · refine forall_setTape (P := fun old new => new.contents = old.contents) (fun _ => rfl) ?_ b'
    rfl
  · refine forall_setTape (P := fun old new => old.HoldsCopy datasetId path → new.HoldsCopy datasetId path) (fun _ hcopy => hcopy) ?_ b'
    exact fun hcopy => hcopy
  · rw [LifecycleWorld.setTape_tapes_self]
    let entry : ManifestFileEntry :=
      { logicalPath := record.relativePath, tapePath := tapePath, datasetId := record.datasetId, fileRecordId := record.id
        size := record.sizeBytes, mtime := record.mtime.getD "", checksum := record.checksumSha256.getD "", policy := policyName
        verified := true }
    exact resolveTapePath_written (w.tapes b) _ _ entry _ (List.mem_cons_of_mem _ List.mem_cons_self) rfl

theorem tapeStep_tapeJson (h : TapesKept K w) {cartridgeGroup writtenAt : String} {ok : Bool} {w' : LifecycleWorld}
    (hstep : stepUpdateTapeJson b cartridgeGroup writtenAt w = some (ok, w')) : TapeStep K b w w' := by
  obtain ⟨-, rfl⟩ := Prod.mk.inj (Option.some.inj hstep)
  refine ⟨⟨h.setTape (h.barcode b) (h.datasets b) (h.listed b), fun b' => ?_, fun b' datasetId path => ?_⟩, rfl,
    fun b' hb => w.setTape_tapes_of_ne _ hb⟩
  · refine forall_setTape (P := fun old new => new.contents = old.contents) (fun _ => rfl) ?_ b'
    rfl
  · refine forall_setTape (P := fun old new => old.HoldsCopy datasetId path → new.HoldsCopy datasetId path) (fun _ hcopy => hcopy) ?_ b'
    exact fun hcopy => hcopy

/-- The files of the catalog shard after an archive: those of the other records, and that of the record. -/
theorem tapeStep_shard (hids : IdsApart K) (hrecord : KnownRecord K record) (h : TapesKept K w) (hdata : DataAt (w.tapes b) tapePath record)
    (hresolved : (w.tapes b).resolveTapePath record.id = tapePath) (generatedAt : String) {ok : Bool} {w' : LifecycleWorld}
    (hstep : stepWriteCatalogShard record b generatedAt w = some (ok, w')) :
    TapeStep K b w w' ∧ (w'.tapes b).HoldsCopy record.datasetId record.relativePath := by
  obtain ⟨dataset, -, hw'⟩ := Option.map_eq_some_iff.1 hstep
  obtain ⟨-, rfl⟩ := Prod.mk.inj hw'
  generalize hshard : shardAfter record b generatedAt dataset (w.tapes b) = shard
  have hmem : ∀ e, e ∈ shard.files ↔
      (e ∈ (((w.tapes b).shard.map CatalogShard.files).getD []) ∧ e.fileRecordId ≠ record.id) ∨ e = shardEntry record (w.tapes b) dataset := by
    intro e
    rw [← hshard]
    simp [shardAfter]
  have hbarcode : shard.barcode = b := by
    rw [← hshard]
    rfl
  have hdatasets : ∀ d ∈ shard.datasets, d.tapeSet = [b] := by
    intro d hd
    rw [← hshard] at hd
    unfold shardAfter at hd
    dsimp only at hd
    rw [List.mem_insertionSort, List.mem_append, List.mem_filter, List.mem_singleton] at hd
    rcases hd with ⟨hold, -⟩ | rfl
    · cases hs' : (w.tapes b).shard with
      | none =>
        rw [hs'] at hold
        nomatch hold
      | some old =>
        rw [hs'] at hold
        exact h.datasets b old hs' d hold
    · rfl
  clear hshard
  have hentry : Backed { w.tapes b with shard := some shard } (shardEntry record (w.tapes b) dataset) := by
    obtain ⟨data, hget, hfile⟩ := hdata
    refine ⟨data, ?_, hfile⟩
    have htape : (shardEntry record (w.tapes b) dataset).tapePath = tapePath := hresolved
    rw [htape]
    exact hget
  have hcopy : TapeVolume.HoldsCopy { w.tapes b with shard := some shard } record.datasetId record.relativePath :=
    ⟨shard, rfl, shardEntry record (w.tapes b) dataset, (hmem _).2 (.inr rfl), rfl, rfl, rfl, hentry⟩
  refine ⟨⟨⟨h.setTape (fun s hs => ?_) (fun s hs => ?_) fun s hs e he => ?_, fun b' => ?_, fun b' datasetId path => ?_⟩, rfl,
    fun b' hb => w.setTape_tapes_of_ne _ hb⟩, ?_⟩
  · obtain rfl := Option.some.inj hs
    exact hbarcode
  · obtain rfl := Option.some.inj hs
    exact hdatasets
  · obtain rfl := Option.some.inj hs
    rcases (hmem e).1 he with ⟨hold, -⟩ | rfl
    · cases hs' : (w.tapes b).shard with
      | none =>
        rw [hs'] at hold
        nomatch hold
      | some old =>
        rw [hs'] at hold
        exact h.listed b old hs' e hold
    · exact ⟨hrecord, rfl, hentry⟩
  · refine forall_setTape (P := fun old new => new.contents = old.contents) (fun _ => rfl) ?_ b'
    rfl
  · refine forall_setTape (P := fun old new => old.HoldsCopy datasetId path → new.HoldsCopy datasetId path) (fun _ hcopy => hcopy) ?_ b'
    rintro ⟨old, hs', e, he, hd, hp, hverified, hdata⟩
    by_cases hid : e.fileRecordId = record.id
    -- The entry was that of the record itself.
    · obtain ⟨hdataset, hpath⟩ := (h.listed b old hs' e he).1.file.same hids (hid ▸ hrecord.file)
      rw [← hd, hdataset, ← hp, hpath]
      exact hcopy
    · refine ⟨shard, rfl, e, (hmem e).2 (.inl ⟨?_, hid⟩), hd, hp, hverified, hdata⟩
      rw [hs']
      exact he
  · rw [LifecycleWorld.setTape_tapes_self]
    exact hcopy

/-- What the step on the index changes: nothing but the index. -/
theorem mappingStep_eq {ok : Bool} {w' : LifecycleWorld} (hstep : stepUpdatePathMapping record b w = some (ok, w')) :
    ∃ mapping : PathMappingRecord, mapping.key = (strip record.relativePath, record.poolId.getD "") ∧ mapping.datasetId = record.datasetId ∧
      mapping.primaryBarcode = b ∧ mapping.allBarcodes = [b] ∧
      w' = { w with cat := { w.cat with index := w.cat.index.upsertPathMapping mapping } } := by
  obtain ⟨mapping, hvalid, hw'⟩ := Option.map_eq_some_iff.1 hstep
  obtain ⟨-, rfl⟩ := Prod.mk.inj hw'
  obtain ⟨path, hpath, rfl⟩ := Option.map_eq_some_iff.1 hvalid
  obtain rfl : strip record.relativePath = path := by
    unfold validateLogicalPath at hpath
    split at hpath
    · nomatch hpath
    · exact Option.some.inj hpath
  exact ⟨_, rfl, rfl, rfl, rfl, rfl⟩

/-- The last step marks the row of the record. -/
theorem markStep_eq {ok : Bool} {w' : LifecycleWorld} (hstep : stepMarkFileArchived record w = some (ok, w')) :
    w' = { w with cat := { w.cat with nas := (w.cat.nas.updateNasFileStatus record.id .offlineOnTape).2 } } :=
  (Prod.mk.inj (Option.some.inj hstep)).2.symm

/-- Where it marks a row, the row reads as archived. -/
theorem marked_of_ok {ok : Bool} {w' : LifecycleWorld} (hstep : stepMarkFileArchived record w = some (ok, w')) (hok : ok = true) :
    ∃ r, w'.cat.nas.getNasFileRecord record.id = some r ∧ r.status = .offlineOnTape := by
  unfold stepMarkFileArchived NasCatalog.updateNasFileStatus at hstep
  cases hget : w.cat.nas.getNasFileRecord record.id with
  | none =>
    rw [hget] at hstep
    obtain ⟨rfl, -⟩ := Prod.mk.inj (Option.some.inj hstep)
    nomatch hok
  | some r =>
    rw [hget] at hstep
    obtain ⟨-, rfl⟩ := Prod.mk.inj (Option.some.inj hstep)
    refine ⟨{ r with status := .offlineOnTape }, ?_, rfl⟩
    have hid : r.id = record.id := NasCatalog.id_of_getNasFileRecord hget
    have hset : (w.cat.nas.upsertNasFileRecord { r with status := .offlineOnTape }).getNasFileRecord record.id =
        if r.id = record.id then some { r with status := .offlineOnTape } else w.cat.nas.getNasFileRecord record.id := Dict.get?_set _ _ _ _
    exact hset.trans (if_pos hid)

/-- A file is archived to a tape: the tape holds it and its row says so. -/
def Archived (record : NasFileRecord) (b : Barcode) (w : LifecycleWorld) : Prop :=
  (w.tapes b).HoldsCopy record.datasetId record.relativePath ∧
    ∃ r, w.cat.nas.getNasFileRecord record.id = some r ∧ r.status = .offlineOnTape

/-- What the steps of a file keep besides, each where it comes. -/
structure LifecycleKeeps (K : List NasFileRecord) (record : NasFileRecord) (b : Barcode) (I : LifecycleWorld → Prop) : Prop where
  tape : ∀ w w', TapeStep K b w w' → I w → I w'
  mapping : ∀ w ok w', TapesKept K w → (w.tapes b).HoldsCopy record.datasetId record.relativePath →
    stepUpdatePathMapping record b w = some (ok, w') → I w → I w'
  mark : ∀ w ok w', stepMarkFileArchived record w = some (ok, w') → I w → I w'

/-- The shard lists the file before the mapping names its tape and before the record is marked. -/
theorem stepsKeep_lifecycleSteps (sha256 : Bytes → String) (hids : IdsApart K) (hrecord : KnownRecord K record)
    (hfree : ∀ data, (w₀.tapes b).contents.get? tapePath = some data → data.file = (record.datasetId, record.relativePath))
    (policyName : String) (choice : LifecycleChoice) {I : LifecycleWorld → Prop} (hI : LifecycleKeeps K record b I) :
    StepsKeep (fun w => KeptFrom K w₀ w ∧ I w) (Archived record b) (fun w => KeptFrom K w₀ w ∧ I w)
      (lifecycleSteps sha256 record b tapePath policyName choice) := by
  refine ⟨fun _ h => h, fun w => (KeptFrom K w₀ w ∧ I w) ∧ DataAt (w₀.tapes b) tapePath record, ?verify,
    fun _ h => h.1, fun w => (KeptFrom K w₀ w ∧ I w) ∧ DataAt (w₀.tapes b) tapePath record ∧ (w.tapes b).resolveTapePath record.id = tapePath,
    ?manifest, fun _ h => h.1, fun w => (KeptFrom K w₀ w ∧ I w) ∧ (w.tapes b).HoldsCopy record.datasetId record.relativePath, ?shard,
    fun _ h => h.1, fun w => (KeptFrom K w₀ w ∧ I w) ∧ (w.tapes b).HoldsCopy record.datasetId record.relativePath, ?mapping,
    fun _ h => h.1, fun w => (KeptFrom K w₀ w ∧ I w) ∧ (w.tapes b).HoldsCopy record.datasetId record.relativePath, ?tapeJson,
    fun _ h => h.1, fun w => (KeptFrom K w₀ w ∧ I w) ∧ Archived record b w, ?mark, fun _ h => h⟩
  case verify =>
    intro w h ok w' hstep
    unfold stepVerifyChecksum at hstep
    cases hget : (w.tapes b).contents.get? tapePath with
    | none =>
      rw [hget] at hstep
      obtain ⟨rfl, rfl⟩ := Prod.mk.inj (Option.some.inj hstep)
      exact ⟨h, fun hok => nomatch hok⟩
    | some data =>
      have hdata : DataAt (w₀.tapes b) tapePath record := by
        rw [h.1.contents b] at hget
        exact ⟨data, hget, hfree data hget⟩
      rw [hget] at hstep
      dsimp only at hstep
      have hw' : w' = w := by
        split at hstep
        · exact (Prod.mk.inj (Option.some.inj hstep)).2.symm
        · exact (Prod.mk.inj (Option.some.inj hstep)).2.symm
      rw [hw']
      exact ⟨h, fun _ => ⟨h, hdata⟩⟩
  case manifest =>
    intro w ⟨⟨hfrom, h⟩, hdata⟩ ok w' hstep
    obtain ⟨hchange, hresolved⟩ := tapeStep_manifest hfrom.kept policyName hstep
    have h' : KeptFrom K w₀ w' ∧ I w' := ⟨hfrom.trans hchange.from_, hI.tape w w' hchange h⟩
    exact ⟨h', fun _ => ⟨h', hdata, hresolved⟩⟩
  case shard =>
    intro w ⟨⟨hfrom, h⟩, ⟨data, hget, hfile⟩, hresolved⟩ ok w' hstep
    rw [← hfrom.contents b] at hget
    obtain ⟨hchange, hcopy⟩ := tapeStep_shard hids hrecord hfrom.kept ⟨data, hget, hfile⟩ hresolved choice.generatedAt hstep
    have h' : KeptFrom K w₀ w' ∧ I w' := ⟨hfrom.trans hchange.from_, hI.tape w w' hchange h⟩
    exact ⟨h', fun _ => ⟨h', hcopy⟩⟩
  case mapping =>
    intro w ⟨⟨hfrom, h⟩, hcopy⟩ ok w' hstep
    have hinv := hI.mapping w ok w' hfrom.kept hcopy hstep h
    obtain ⟨mapping, -, -, -, -, rfl⟩ := mappingStep_eq hstep
    have hfrom' : KeptFrom K w₀ { w with cat := { w.cat with index := w.cat.index.upsertPathMapping mapping } } :=
      ⟨⟨hfrom.kept.barcode, hfrom.kept.datasets, hfrom.kept.listed, hfrom.kept.rows⟩, hfrom.contents, hfrom.copies⟩
    exact ⟨⟨hfrom', hinv⟩, fun _ => ⟨⟨hfrom', hinv⟩, hcopy⟩⟩
  case tapeJson =>
    intro w ⟨⟨hfrom, h⟩, hcopy⟩ ok w' hstep
    have hchange := tapeStep_tapeJson hfrom.kept hstep
    have h' : KeptFrom K w₀ w' ∧ I w' := ⟨hfrom.trans hchange.from_, hI.tape w w' hchange h⟩
    exact ⟨h', fun _ => ⟨h', hchange.from_.copies b _ _ hcopy⟩⟩
  case mark =>
    intro w ⟨⟨hfrom, h⟩, hcopy⟩ ok w' hstep
    have hinv := hI.mark w ok w' hstep h
    have hmarked := marked_of_ok hstep
    obtain rfl := markStep_eq hstep
    have hfrom' : KeptFrom K w₀
        { w with cat := { w.cat with nas := (w.cat.nas.updateNasFileStatus record.id .offlineOnTape).2 } } :=
      ⟨hfrom.kept.updateStatus record.id .offlineOnTape, hfrom.contents, hfrom.copies⟩
    exact ⟨⟨hfrom', hinv⟩, fun hok => ⟨⟨hfrom', hinv⟩, hcopy, hmarked hok⟩⟩

/-- An archive of a file, whatever it comes to; where it succeeds the file is archived. -/
theorem completeFileArchive_keeps (sha256 : Bytes → String) (hids : IdsApart K) (hrecord : KnownRecord K record) (h : TapesKept K w)
    (hfree : ∀ data, (w.tapes b).contents.get? tapePath = some data → data.file = (record.datasetId, record.relativePath))
    (policyName : String) (choice : LifecycleChoice) {I : LifecycleWorld → Prop} (hI : LifecycleKeeps K record b I) (hw : I w) :
    (KeptFrom K w (completeFileArchive sha256 record b tapePath policyName choice w).2 ∧
        I (completeFileArchive sha256 record b tapePath policyName choice w).2) ∧
      ((completeFileArchive sha256 record b tapePath policyName choice w).1.success = true →
        Archived record b (completeFileArchive sha256 record b tapePath policyName choice w).2) :=
  runSteps_keeps (stepsKeep_lifecycleSteps sha256 hids hrecord hfree policyName choice hI) record _ rfl ⟨h.refl, hw⟩

/-! ### A file that nothing happens to -/

/-- Steps that all go well, each from what the one before has left. -/
def StepsRun : (LifecycleWorld → Prop) → List (String × (LifecycleWorld → StepOutcome)) → Prop
  | _, [] => True
  | P, (_, step) :: steps => ∃ Q : LifecycleWorld → Prop, (∀ w, P w → ∃ w', step w = some (true, w') ∧ Q w') ∧ StepsRun Q steps

theorem runSteps_success {P : LifecycleWorld → Prop} {steps : List (String × (LifecycleWorld → StepOutcome))} (h : StepsRun P steps)
    (record : NasFileRecord) {faults : String → StepFault} (hfaults : ∀ name, faults name = .none) (result : FileLifecycleResult)
    {w : LifecycleWorld} (hw : P w) : (runSteps record faults result w steps).1.success = true := by
  induction steps generalizing P result w with
  | nil => rfl
  | cons step steps ih =>
    obtain ⟨name, step⟩ := step
    obtain ⟨Q, hstep, hrest⟩ := h
    obtain ⟨w', houtcome, hw'⟩ := hstep w hw
    unfold runSteps
    rw [hfaults name, houtcome]
    exact ih hrest _ hw'

/-- The rows that the steps of a file look for are there. -/
def RowsThere (record : NasFileRecord) (w : LifecycleWorld) : Prop :=
  (∃ dataset, w.cat.nas.getNasDataset record.datasetId = some dataset) ∧ ∃ r, w.cat.nas.getNasFileRecord record.id = some r

theorem stepsRun_lifecycleSteps {sha256 : Bytes → String} {data : TapeData} (hdata : (w.tapes b).contents.get? tapePath = some data)
    (hchecksum : record.checksumSha256.getD "" = "" ∨ sha256 data.content = record.checksumSha256.getD "")
    (hpath : (validateLogicalPath record.relativePath).isSome) (hrows : RowsThere record w) (policyName : String)
    (choice : LifecycleChoice) : StepsRun (fun w' => w' = w) (lifecycleSteps sha256 record b tapePath policyName choice) := by
  refine ⟨RowsThere record, ?verify, RowsThere record, ?manifest, RowsThere record, ?shard, RowsThere record, ?mapping,
    RowsThere record, ?tapeJson, fun _ => True, ?mark, trivial⟩
  case verify =>
    rintro _ rfl
    refine ⟨_, ?_, hrows⟩
    unfold stepVerifyChecksum
    rw [hdata]
    cases hsum : record.checksumSha256 with
    | none => rfl
    | some expected =>
      rw [hsum] at hchecksum
      by_cases hempty : expected = ""
      · subst hempty
        rfl
      · have hequal : sha256 data.content = expected := hchecksum.resolve_left hempty
        simp [Option.filter, hempty, hequal]
  case manifest =>
    rintro w' ⟨⟨dataset, hdataset⟩, hrow⟩
    unfold stepWriteManifest
    rw [hdataset]
    exact ⟨_, rfl, ⟨dataset, hdataset⟩, hrow⟩
  case shard =>
    rintro w' ⟨⟨dataset, hdataset⟩, hrow⟩
    unfold stepWriteCatalogShard
    rw [hdataset]
    exact ⟨_, rfl, ⟨dataset, hdataset⟩, hrow⟩
  case mapping =>
    rintro w' hrows'
    obtain ⟨path, hvalid⟩ := Option.isSome_iff_exists.1 hpath
    unfold stepUpdatePathMapping PathMappingRecord.validate
    dsimp only
    rw [hvalid]
    dsimp only [Option.map_some]
    rw [PathIndex.getPathMapping_upsert]
    simp only [PathMappingRecord.key, if_true, Option.isSome_some]
    exact ⟨_, rfl, hrows'⟩
  case tapeJson => exact fun w' hrows' => ⟨_, rfl, hrows'⟩
  case mark =>
    rintro w' ⟨-, r, hrow⟩
    unfold stepMarkFileArchived NasCatalog.updateNasFileStatus
    rw [hrow]
    exact ⟨_, rfl, trivial⟩

/-- An archive of data that is on tape as it was recorded, under a path that is accepted, succeeds where nothing is raised. -/
theorem completeFileArchive_success {sha256 : Bytes → String} {data : TapeData} (hdata : (w.tapes b).contents.get? tapePath = some data)
    (hchecksum : record.checksumSha256.getD "" = "" ∨ sha256 data.content = record.checksumSha256.getD "")
    (hpath : (validateLogicalPath record.relativePath).isSome) (hrows : RowsThere record w) (policyName : String)
    {choice : LifecycleChoice} (hfaults : ∀ name, choice.faults name = .none) :
    (completeFileArchive sha256 record b tapePath policyName choice w).1.success = true :=
  runSteps_success (stepsRun_lifecycleSteps hdata hchecksum hpath hrows policyName choice) record hfaults _ rfl

/-! ### The files of a dataset -/

/-- The record a file's lifecycle is about, as the catalog has it now. -/
def currentRecord (w : LifecycleWorld) (fileRecord : NasFileRecord) : NasFileRecord :=
  (w.cat.nas.getNasFileRecord fileRecord.id).getD fileRecord

theorem TapesKept.currentRecord (h : TapesKept K w) (hrecord : KnownRecord K record) : KnownRecord K (currentRecord w record) := by
  unfold ArchiveAux.currentRecord
  cases hget : w.cat.nas.getNasFileRecord record.id with
  | none => exact hrecord
  | some r => exact h.rows record.id r hget

/-- One file of a dataset: nothing is done about it, or its lifecycle is run at the path that is given for it. -/
theorem archiveDatasetFile_cases (sha256 : Bytes → String) (barcode : Barcode) (tapePaths : Dict String String) (policyName : String)
    (fileRecord : NasFileRecord) (choice : LifecycleChoice) (w : LifecycleWorld) :
    (archiveDatasetFile sha256 barcode tapePaths policyName fileRecord choice w).2 = w ∨
      ∃ tapePath, tapePaths.get? (currentRecord w fileRecord).id = some tapePath ∧ (currentRecord w fileRecord).status ≠ .offlineOnTape ∧
        (archiveDatasetFile sha256 barcode tapePaths policyName fileRecord choice w).2 =
          (completeFileArchive sha256 (currentRecord w fileRecord) (barcodeOr (currentRecord w fileRecord).tapeBarcode barcode) tapePath
            policyName choice w).2 := by
  unfold archiveDatasetFile
  have hcurrent : (w.cat.nas.getNasFileRecord fileRecord.id).getD fileRecord = currentRecord w fileRecord := rfl
  rw [hcurrent]
  generalize currentRecord w fileRecord = current
  dsimp only
  split
  · exact .inl rfl
  · split
    · exact .inl rfl
    · rename_i hstatus
      split
      · exact .inl rfl
      · rename_i tapePath hpath
        exact .inr ⟨tapePath, (Option.filter_eq_some_iff.1 hpath).1, hstatus, rfl⟩

/-- What is kept of each file is kept of them all. -/
theorem archiveDatasetFiles_keeps (sha256 : Bytes → String) (barcode : Barcode) (tapePaths : Dict String String) (policyName : String)
    (choices : String → LifecycleChoice) {fileRecords : List NasFileRecord} {J : LifecycleWorld → Prop}
    (hfile : ∀ record ∈ fileRecords, ∀ w, J w →
      J (archiveDatasetFile sha256 barcode tapePaths policyName record (choices record.id) w).2)
    (result : DatasetArchiveResult) {w : LifecycleWorld} (hw : J w) :
    J (archiveDatasetFiles sha256 barcode tapePaths policyName choices fileRecords (result, w)).2 := by
  unfold archiveDatasetFiles
  induction fileRecords generalizing result w with
  | nil => exact hw
  | cons record fileRecords ih =>
    have hnext := hfile record List.mem_cons_self w hw
    have hrest := fun record hr => hfile record (List.mem_cons_of_mem _ hr)
    rw [List.foldl_cons]
    dsimp only
    split
    · exact ih hrest _ hnext
    · exact ih hrest _ hnext

/-- A dataset after its files: it is marked, or it stays as it is. -/
theorem completeDatasetArchive_cases (sha256 : Bytes → String) (datasetId : String) (fileRecords : List NasFileRecord) (barcode : Barcode)
    (tapePaths : Dict String String) (policyName : String) (choices : String → LifecycleChoice) (w : LifecycleWorld) :
    let final := (archiveDatasetFiles sha256 barcode tapePaths policyName choices fileRecords ({ datasetId := datasetId }, w)).2
    (completeDatasetArchive sha256 datasetId fileRecords barcode tapePaths policyName choices w).2 = final ∨
      ∃ dataset, final.cat.nas.getNasDataset datasetId = some dataset ∧
        (completeDatasetArchive sha256 datasetId fileRecords barcode tapePaths policyName choices w).2 =
          { final with cat := { final.cat with nas := final.cat.nas.upsertNasDataset (final.cat.nas.archivedDataset dataset datasetId) } } := by
  intro final
  unfold completeDatasetArchive
  dsimp only
  split
  · split
    · exact .inl rfl
    · rename_i dataset hdataset
      exact .inr ⟨dataset, hdataset, rfl⟩
  · exact .inl rfl

end changes

/-! ### A rebuild -/

section rebuild

theorem shard_of_readings {w : LifecycleWorld} {readable versionsReadable : Barcode → Bool} {b : Barcode} {shard : CatalogShard}
    (h : (w.readings readable versionsReadable b).shard = some shard) : readable b = true ∧ (w.tapes b).shard = some shard := by
  unfold LifecycleWorld.readings at h
  dsimp only at h
  split at h
  · rename_i hreadable
    exact ⟨hreadable, h⟩
  · nomatch h

variable {K : List NasFileRecord} {names : String → Option String} {tapes : Barcode → TapeReading} {planned : List Barcode}

/-- The file entries that a tape gives are of its shard. -/
theorem listed_of_mem_fileEntries {id : String} {x : Barcode × CatalogShardFileEntry} (h : x ∈ planned.flatMap (fileEntries names tapes id)) :
    x.2.fileRecordId = id ∧ x.1 ∈ planned ∧ ∃ shard, (tapes x.1).shard = some shard ∧ x.2 ∈ shard.files := by
  obtain ⟨b, hb, hx⟩ := List.mem_flatMap.1 h
  obtain ⟨hx, hid⟩ := List.mem_filter.1 hx
  refine ⟨of_decide_eq_true hid, ?_⟩
  unfold contribution at hx
  cases hshard : (tapes b).shard with
  | none =>
    rw [hshard] at hx
    nomatch hx
  | some shard =>
    rw [hshard] at hx
    dsimp only at hx
    split at hx
    · obtain ⟨e, he, rfl⟩ := List.mem_map.1 hx
      exact ⟨hb, shard, hshard, List.takeWhile_subset _ he⟩
    · nomatch hx

/-- The mappings that a tape gives are those of the files of its shard. -/
theorem listed_of_mem_mappingEntries {key : String × String} {record : PathMappingRecord}
    (h : record ∈ planned.flatMap (mappingEntries names tapes key)) :
    record.key = key ∧ ∃ b shard, (tapes b).shard = some shard ∧
      ∃ e ∈ shard.files, record = { shard.mappingOf e with logicalPath := strip e.logicalPath } := by
  obtain ⟨b, -, hrecord⟩ := List.mem_flatMap.1 h
  obtain ⟨hrecord, hkey⟩ := List.mem_filter.1 hrecord
  refine ⟨of_decide_eq_true hkey, b, ?_⟩
  unfold contribution at hrecord
  cases hshard : (tapes b).shard with
  | none =>
    rw [hshard] at hrecord
    nomatch hrecord
  | some shard =>
    rw [hshard] at hrecord
    refine ⟨shard, rfl, ?_⟩
    dsimp only at hrecord
    split at hrecord
    · cases hmappings : shard.toPathMappings with
      | none =>
        rw [hmappings] at hrecord
        nomatch hrecord
      | some records =>
        rw [hmappings] at hrecord
        obtain ⟨e, he, hvalid⟩ := RebuildAux.mem_of_mapM hmappings hrecord
        obtain ⟨path, hpath, rfl⟩ := Option.map_eq_some_iff.1 hvalid
        refine ⟨e, he, ?_⟩
        unfold validateLogicalPath at hpath
        split at hpath
        · nomatch hpath
        · rw [← Option.some.inj hpath]
          rfl
    · nomatch hrecord

/-- The pool of a recovered row is that of the entry, or that of the row before, which is of the same file. -/
theorem knownRecord_over (hids : IdsApart K) {e : CatalogShardFileEntry} (he : KnownEntry K e) {row : Option NasFileRecord}
    (hrow : ∀ r, row = some r → KnownRecord K r ∧ r.id = e.fileRecordId) (b : Barcode) :
    KnownRecord K (e.over b (row.getD (blankFileRecord e.fileRecordId))) := by
  refine ⟨he.file, ?_⟩
  have hpool : (e.over b (row.getD (blankFileRecord e.fileRecordId))).poolId.getD "" =
      ((nonEmpty e.poolId).or (row.getD (blankFileRecord e.fileRecordId)).poolId).getD "" := rfl
  rw [hpool]
  by_cases hempty : e.poolId = ""
  · have hnone : nonEmpty e.poolId = none := if_pos hempty
    rw [hnone, Option.none_or]
    cases row with
    | none =>
      have hknown := he.pool
      rw [hempty] at hknown
      exact hknown
    | some r =>
      obtain ⟨hr, hid⟩ := hrow r rfl
      obtain ⟨hdataset, hpath⟩ := hr.file.same hids (hid ▸ he.file)
      have hknown := hr.pool
      rw [hdataset, hpath] at hknown
      exact hknown
  · have hsome : nonEmpty e.poolId = some e.poolId := if_neg hempty
    rw [hsome]
    exact he.pool

/-- Rows that a rebuild leaves are of files of the run. -/
theorem knownRecord_rebuilt (hids : IdsApart K) {cat final : RebuildCatalog} {storedPolicy : Codec.Json → Option String}
    (hgives : RebuildAux.Gives storedPolicy names tapes planned cat final)
    (hrows : ∀ id r, cat.nas.getNasFileRecord id = some r → KnownRecord K r)
    (hlisted : ∀ b shard, (tapes b).shard = some shard → ∀ e ∈ shard.files, KnownEntry K e) {id : String} {r : NasFileRecord}
    (hr : final.nas.getNasFileRecord id = some r) : KnownRecord K r := by
  have hafter := (hgives.files id).symm.trans hr
  refine (rowAfter_keeps (P := fun r => KnownRecord K r ∧ r.id = id) (fun x hx row hrow => ?_) (fun r hr => ?_) hafter).1
  · obtain ⟨rfl, -, shard, hshard, he⟩ := listed_of_mem_fileEntries hx
    exact ⟨knownRecord_over hids (hlisted x.1 shard hshard x.2 he) hrow x.1, rfl⟩
  · exact ⟨hrows id r hr, NasCatalog.id_of_getNasFileRecord hr⟩

end rebuild

end ArchiveAux

end OpenBlade
