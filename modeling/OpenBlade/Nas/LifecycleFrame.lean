import OpenBlade.Nas.ArchiveLifecycle

/-!
# What the archive of a file leaves of a tape's metadata

Every step builds its document anew from some fields of the one that is there, and what is not copied is reset: the generation of the
manifest, the tapes and the protection of the dataset, the generations of `tape.json`. `metadata_kept_iff` says when there was nothing
to lose.
-/

namespace OpenBlade

open Effects

/-! ### What is asked of the documents -/

/-- A manifest keeps its generation and all entries but those of a file. -/
structure ManifestKept (record : NasFileRecord) (before after : ManifestJson) : Prop where
  generationId : after.generationId = before.generationId
  siblingTapes : after.siblingTapes = before.siblingTapes
  placement : after.placement = before.placement
  protection : after.protection = before.protection
  files : (after.files.filter fun e => e.fileRecordId ≠ record.id).Perm (before.files.filter fun e => e.fileRecordId ≠ record.id)

/-- A catalog shard keeps all entries but those of a file, and of the entry of its dataset where the dataset is. -/
structure ShardKept (record : NasFileRecord) (before after : CatalogShard) : Prop where
  files : (after.files.filter fun e => e.fileRecordId ≠ record.id).Perm (before.files.filter fun e => e.fileRecordId ≠ record.id)
  datasets : (after.datasets.filter fun e => e.datasetId ≠ record.datasetId).Perm
    (before.datasets.filter fun e => e.datasetId ≠ record.datasetId)
  own : ∀ e ∈ before.datasets, e.datasetId = record.datasetId → ∃ e' ∈ after.datasets, e'.datasetId = record.datasetId ∧
    e'.tapeSet = e.tapeSet ∧ e'.shardSet = e.shardSet ∧ e'.protection = e.protection

/-- The archive of a file leaves what is not of the file. -/
structure MetadataKept (record : NasFileRecord) (before after : TapeVolume) : Prop where
  manifest : ∀ m, before.manifest = some m → ∃ m', after.manifest = some m' ∧ ManifestKept record m m'
  shard : ∀ s, before.shard = some s → ∃ s', after.shard = some s' ∧ ShardKept record s s'
  tapeJson : ∀ t, before.tapeJson = some t → ∃ t', after.tapeJson = some t' ∧ t'.currentGeneration = t.currentGeneration ∧
    t'.previousGeneration = t.previousGeneration

/-! ### How far an archive comes -/

section

variable (sha256 : Bytes → String) (record : NasFileRecord) (barcode : Barcode) (tapePath : String) (choice : LifecycleChoice)
  (w : LifecycleWorld)

/-- The data is verified, and the dataset is there. -/
structure ReachesManifest : Prop where
  verify : choice.faults "verify_checksum" = .none
  verified : stepVerifyChecksum sha256 record barcode tapePath w = some (true, w)
  dataset : (w.cat.nas.getNasDataset record.datasetId).isSome

def WritesManifest : Prop :=
  ReachesManifest sha256 record barcode tapePath choice w ∧ choice.faults "write_manifest" ≠ .before

def WritesShard : Prop :=
  ReachesManifest sha256 record barcode tapePath choice w ∧ choice.faults "write_manifest" = .none ∧
    choice.faults "write_catalog_shard" ≠ .before

def WritesTapeJson : Prop :=
  ReachesManifest sha256 record barcode tapePath choice w ∧ choice.faults "write_manifest" = .none ∧
    choice.faults "write_catalog_shard" = .none ∧ choice.faults "update_path_mapping" = .none ∧
    (validateLogicalPath record.relativePath).isSome ∧ choice.faults "update_tape_json" ≠ .before

/-- The documents that are built anew have nothing that is reset. -/
structure NothingToLose : Prop where
  manifest : WritesManifest sha256 record barcode tapePath choice w → ∀ m, (w.tapes barcode).manifest = some m →
    m.generationId = "" ∧ m.siblingTapes = [] ∧ m.placement = "" ∧ m.protection = none ∧
      (m.schema ∈ supportedManifestSchemas ∨ ∀ e ∈ m.files, e.fileRecordId = record.id)
  shard : WritesShard sha256 record barcode tapePath choice w → ∀ s, (w.tapes barcode).shard = some s →
    ∀ e ∈ s.datasets, e.datasetId = record.datasetId → e.tapeSet = [barcode] ∧ e.shardSet = [] ∧ e.protection = none
  tapeJson : WritesTapeJson sha256 record barcode tapePath choice w → ∀ t, (w.tapes barcode).tapeJson = some t →
    t.currentGeneration = none ∧ t.previousGeneration = none

end

namespace LifecycleAux

variable {sha256 : Bytes → String} {record : NasFileRecord} {barcode : Barcode} {tapePath policyName : String} {choice : LifecycleChoice}
  {w : LifecycleWorld}

/-! ### The documents that are built -/

/-- Entries that are put into a list sorted anew beside some that are kept. -/
theorem filter_insertionSort_perm {α : Type} (le : α → α → Prop) [DecidableRel le] {p : α → Bool} (others : List α) {a : α}
    (ha : p a = false) : (((others.filter p ++ [a]).insertionSort le).filter p).Perm (others.filter p) := by
  refine ((List.perm_insertionSort le _).filter p).trans ?_
  rw [List.filter_append, List.filter_filter, List.filter_cons_of_neg (by simp [ha]), List.filter_nil, List.append_nil]
  simp

variable (record barcode tapePath policyName) in
/-- The files of the manifest that is built, without those of the record. -/
theorem files_manifestAfter (dataset : NasDataset) (existing : Option ManifestJson) :
    ((manifestAfter record barcode tapePath policyName dataset existing).files.filter fun e => e.fileRecordId ≠ record.id).Perm
      (((existing.map ManifestJson.files).getD []).filter fun e => e.fileRecordId ≠ record.id) := by
  unfold manifestAfter
  exact filter_insertionSort_perm _ _ (by simp)

variable (record barcode tapePath policyName) in
theorem manifestKept_iff (dataset : NasDataset) (volume : TapeVolume) {m : ManifestJson} (hm : volume.manifest = some m) :
    ManifestKept record m (manifestAfter record barcode tapePath policyName dataset volume.readManifest) ↔
      m.generationId = "" ∧ m.siblingTapes = [] ∧ m.placement = "" ∧ m.protection = none ∧
        (m.schema ∈ supportedManifestSchemas ∨ ∀ e ∈ m.files, e.fileRecordId = record.id) := by
  have hfiles := files_manifestAfter record barcode tapePath policyName dataset volume.readManifest
  have hread : volume.readManifest = if m.schema ∈ supportedManifestSchemas then some m else none := by
    unfold TapeVolume.readManifest
    rw [hm, Option.filter_some]
    simp
  have hothers : (((volume.readManifest.map ManifestJson.files).getD []).filter fun e => e.fileRecordId ≠ record.id).Perm
      (m.files.filter fun e => e.fileRecordId ≠ record.id) ↔
      (m.schema ∈ supportedManifestSchemas ∨ ∀ e ∈ m.files, e.fileRecordId = record.id) := by
    rw [hread]
    by_cases hschema : m.schema ∈ supportedManifestSchemas
    · rw [if_pos hschema]
      exact ⟨fun _ => .inl hschema, fun _ => List.Perm.refl _⟩
    · rw [if_neg hschema]
      constructor
      · intro hperm
        have hnil : m.files.filter (fun e => e.fileRecordId ≠ record.id) = [] := hperm.symm.eq_nil
        exact .inr fun e he => by simpa using List.filter_eq_nil_iff.1 hnil e he
      · rintro (hmem | hall)
        · exact absurd hmem hschema
        · have hnil : m.files.filter (fun e => e.fileRecordId ≠ record.id) = [] :=
            List.filter_eq_nil_iff.2 fun e he => by simpa using hall e he
          rw [hnil]
          exact List.Perm.refl _
  constructor
  · intro h
    exact ⟨h.generationId.symm, h.siblingTapes.symm, h.placement.symm, h.protection.symm, hothers.1 (hfiles.symm.trans h.files)⟩
  · rintro ⟨hgeneration, hsiblings, hplacement, hprotection, hschema⟩
    exact ⟨hgeneration.symm, hsiblings.symm, hplacement.symm, hprotection.symm, hfiles.trans (hothers.2 hschema)⟩

/-- The shard that is built has one entry of the dataset, on the tape alone. -/
theorem shardKept_iff (generatedAt : String) (dataset : NasDataset) (volume : TapeVolume) {s : CatalogShard} (hs : volume.shard = some s) :
    ShardKept record s (shardAfter record barcode generatedAt dataset volume) ↔
      ∀ e ∈ s.datasets, e.datasetId = record.datasetId → e.tapeSet = [barcode] ∧ e.shardSet = [] ∧ e.protection = none := by
  have hfiles : ((shardAfter record barcode generatedAt dataset volume).files.filter fun e => e.fileRecordId ≠ record.id).Perm
      (s.files.filter fun e => e.fileRecordId ≠ record.id) := by
    unfold shardAfter
    dsimp only
    rw [hs]
    exact filter_insertionSort_perm _ _ (by simp [shardEntry])
  have hdatasets : ((shardAfter record barcode generatedAt dataset volume).datasets.filter fun e => e.datasetId ≠ record.datasetId).Perm
      (s.datasets.filter fun e => e.datasetId ≠ record.datasetId) := by
    unfold shardAfter
    dsimp only
    rw [hs]
    exact filter_insertionSort_perm _ _ (by simp [shardDatasetEntry])
  have hown : ∀ e' ∈ (shardAfter record barcode generatedAt dataset volume).datasets, e'.datasetId = record.datasetId →
      e'.tapeSet = [barcode] ∧ e'.shardSet = [] ∧ e'.protection = none := by
    intro e' he' hid
    unfold shardAfter at he'
    dsimp only at he'
    rw [List.mem_insertionSort, List.mem_append, List.mem_filter, List.mem_singleton] at he'
    rcases he' with ⟨-, hne⟩ | rfl
    · exact absurd hid (by simpa using hne)
    · exact ⟨rfl, rfl, rfl⟩
  have hthere : ∃ e' ∈ (shardAfter record barcode generatedAt dataset volume).datasets, e'.datasetId = record.datasetId := by
    unfold shardAfter
    refine ⟨_, (List.mem_insertionSort _).2 (List.mem_append_right _ List.mem_cons_self), rfl⟩
  constructor
  · intro h e he hid
    obtain ⟨e', he', hid', htapes, hshards, hprotection⟩ := h.own e he hid
    rw [← htapes, ← hshards, ← hprotection]
    exact hown e' he' hid'
  · intro h
    refine ⟨hfiles, hdatasets, fun e he hid => ?_⟩
    obtain ⟨e', he', hid'⟩ := hthere
    obtain ⟨htapes, hshards, hprotection⟩ := h e he hid
    obtain ⟨htapes', hshards', hprotection'⟩ := hown e' he' hid'
    exact ⟨e', he', hid', htapes'.trans htapes.symm, hshards'.trans hshards.symm, hprotection'.trans hprotection.symm⟩

/-! ### The documents that are left -/

/-- The first step leaves the world as it is. -/
theorem verifyStep_eq {ok : Bool} {w' : LifecycleWorld} (h : stepVerifyChecksum sha256 record barcode tapePath w = some (ok, w')) :
    w' = w := by
  unfold stepVerifyChecksum at h
  split at h
  · exact (Prod.mk.inj (Option.some.inj h)).2.symm
  · split at h
    · exact (Prod.mk.inj (Option.some.inj h)).2.symm
    · exact (Prod.mk.inj (Option.some.inj h)).2.symm

/-- A tape as the step on its manifest leaves it. -/
def withManifest (record : NasFileRecord) (barcode : Barcode) (tapePath policyName : String) (dataset : NasDataset) (volume : TapeVolume) :
    TapeVolume :=
  { volume with manifest := some (manifestAfter record barcode tapePath policyName dataset volume.readManifest) }

/-- As the step on its catalog shard does. -/
def withShard (record : NasFileRecord) (barcode : Barcode) (generatedAt : String) (dataset : NasDataset) (volume : TapeVolume) : TapeVolume :=
  { volume with shard := some (shardAfter record barcode generatedAt dataset volume) }

/-- As the step on its `tape.json` does. -/
def withTapeJson (barcode : Barcode) (cartridgeGroup writtenAt : String) (volume : TapeVolume) : TapeVolume :=
  { volume with tapeJson := some (tapeJsonAfter barcode cartridgeGroup writtenAt volume.tapeJson) }

variable (record w) in
/-- A step of a run: the run ends there, or goes on from where the step has come. -/
theorem runSteps_cons (faults : String → StepFault) (result : FileLifecycleResult) (name : String)
    (step : LifecycleWorld → StepOutcome) (steps : List (String × (LifecycleWorld → StepOutcome))) :
    ((faults name = .before ∨ step w = none) → (runSteps record faults result w ((name, step) :: steps)).2 = w) ∧
      (∀ ok w', step w = some (ok, w') → faults name = .after ∨ faults name = .none ∧ ok = false →
        (runSteps record faults result w ((name, step) :: steps)).2 = w') ∧
      ∀ w', step w = some (true, w') → faults name = .none →
        (runSteps record faults result w ((name, step) :: steps)).2 =
          (runSteps record faults { result with stepsCompleted := result.stepsCompleted ++ [name] } w' steps).2 := by
  refine ⟨?_, ?_, ?_⟩
  · rintro (hbefore | hnone)
    · unfold runSteps
      rw [hbefore]
    · unfold runSteps
      rw [hnone]
      cases faults name <;> rfl
  · rintro ok w' hstep (hafter | ⟨hnone, rfl⟩)
    · unfold runSteps
      rw [hstep, hafter]
    · unfold runSteps
      rw [hstep, hnone]
  · intro w' hstep hnone
    rw [runSteps, hstep, hnone]

/-- The last step leaves the tapes as they are. -/
theorem tapes_mark (faults : String → StepFault) (result : FileLifecycleResult) (w : LifecycleWorld) :
    (runSteps record faults result w [("mark_file_archived", stepMarkFileArchived record)]).2.tapes = w.tapes := by
  have hcons := runSteps_cons record w faults result "mark_file_archived" (stepMarkFileArchived record) []
  have hstep : stepMarkFileArchived record w = some ((w.cat.nas.updateNasFileStatus record.id .offlineOnTape).1,
      { w with cat := { w.cat with nas := (w.cat.nas.updateNasFileStatus record.id .offlineOnTape).2 } }) := rfl
  cases hfault : faults "mark_file_archived" with
  | before => rw [hcons.1 (.inl hfault)]
  | after => rw [hcons.2.1 _ _ hstep (.inl hfault)]
  | none =>
    cases hfound : (w.cat.nas.updateNasFileStatus record.id .offlineOnTape).1 with
    | false => rw [hcons.2.1 _ _ hstep (.inr ⟨hfault, hfound⟩)]
    | true =>
      rw [hfound] at hstep
      rw [hcons.2.2 _ hstep hfault]
      rfl

theorem writesManifest_of_shard (h : WritesShard sha256 record barcode tapePath choice w) :
    WritesManifest sha256 record barcode tapePath choice w :=
  ⟨h.1, by rw [h.2.1]; simp⟩

theorem writesShard_of_tapeJson (h : WritesTapeJson sha256 record barcode tapePath choice w) :
    WritesShard sha256 record barcode tapePath choice w :=
  ⟨h.1, h.2.1, by rw [h.2.2.1]; simp⟩

variable (policyName) in
/-- Where the data is not verified, or the dataset is not there, nothing changes. -/
theorem completeFileArchive_halted (h : ¬ReachesManifest sha256 record barcode tapePath choice w) :
    (completeFileArchive sha256 record barcode tapePath policyName choice w).2 = w := by
  unfold completeFileArchive lifecycleSteps
  obtain ⟨hbefore, hhalt, hpass⟩ := runSteps_cons record w choice.faults
    { fileRecordId := record.id, logicalPath := record.relativePath, barcode := barcode, success := false
      finalFileState := w.cat.nas.currentFileState record.id record.status } "verify_checksum"
    (stepVerifyChecksum sha256 record barcode tapePath) (lifecycleSteps sha256 record barcode tapePath policyName choice).tail
  cases hstep : stepVerifyChecksum sha256 record barcode tapePath w with
  | none => exact hbefore (.inr hstep)
  | some outcome =>
    obtain ⟨ok, w'⟩ := outcome
    obtain rfl := verifyStep_eq hstep
    cases hfault : choice.faults "verify_checksum" with
    | before => exact hbefore (.inl hfault)
    | after => exact hhalt ok _ hstep (.inl hfault)
    | none =>
      cases ok with
      | false => exact hhalt false _ hstep (.inr ⟨hfault, rfl⟩)
      | true =>
        have hdataset : w'.cat.nas.getNasDataset record.datasetId = none := by
          rw [← Option.not_isSome_iff_eq_none]
          exact fun hsome => h ⟨hfault, hstep, hsome⟩
        have hnone : stepWriteManifest record barcode tapePath policyName w' = none := by
          unfold stepWriteManifest
          rw [hdataset]
          rfl
        exact (hpass _ hstep hfault).trans ((runSteps_cons _ _ choice.faults _ "write_manifest" _ _).1 (.inr hnone))

/-- The end of a run whose shard is written. -/
theorem volume_shard (result : FileLifecycleResult) {w₂ : LifecycleWorld} :
    ((runSteps record choice.faults result w₂
        [("update_path_mapping", stepUpdatePathMapping record barcode),
         ("update_tape_json", stepUpdateTapeJson barcode choice.cartridgeGroup choice.writtenAt),
         ("mark_file_archived", stepMarkFileArchived record)]).2.tapes barcode =
      if choice.faults "update_path_mapping" = .none ∧ (validateLogicalPath record.relativePath).isSome ∧
          choice.faults "update_tape_json" ≠ .before then
        withTapeJson barcode choice.cartridgeGroup choice.writtenAt (w₂.tapes barcode)
      else w₂.tapes barcode) := by
  obtain ⟨hbefore, hhalt, hpass⟩ := runSteps_cons record w₂ choice.faults result "update_path_mapping"
    (stepUpdatePathMapping record barcode)
    [("update_tape_json", stepUpdateTapeJson barcode choice.cartridgeGroup choice.writtenAt),
     ("mark_file_archived", stepMarkFileArchived record)]
  cases hvalid : validateLogicalPath record.relativePath with
  | none =>
    have hnone : stepUpdatePathMapping record barcode w₂ = none := by
      unfold stepUpdatePathMapping PathMappingRecord.validate
      dsimp only
      rw [hvalid]
      rfl
    rw [hbefore (.inr hnone), if_neg (by simp)]
  | some path =>
    obtain ⟨w₃, hstep, htapes⟩ : ∃ w₃ : LifecycleWorld, stepUpdatePathMapping record barcode w₂ = some (true, w₃) ∧ w₃.tapes = w₂.tapes := by
      unfold stepUpdatePathMapping PathMappingRecord.validate
      dsimp only
      rw [hvalid]
      dsimp only [Option.map_some]
      rw [PathIndex.getPathMapping_upsert]
      simp only [PathMappingRecord.key, if_true, Option.isSome_some]
      exact ⟨_, rfl, rfl⟩
    cases hfault : choice.faults "update_path_mapping" with
    | before => rw [hbefore (.inl hfault), if_neg (by simp)]
    | after => rw [hhalt _ _ hstep (.inl hfault), htapes, if_neg (by simp)]
    | none =>
      rw [hpass _ hstep hfault]
      obtain ⟨hbefore', hhalt', hpass'⟩ := runSteps_cons record w₃ choice.faults
        { result with stepsCompleted := result.stepsCompleted ++ ["update_path_mapping"] } "update_tape_json"
        (stepUpdateTapeJson barcode choice.cartridgeGroup choice.writtenAt) [("mark_file_archived", stepMarkFileArchived record)]
      have htape : ((w₃.setTape barcode (withTapeJson barcode choice.cartridgeGroup choice.writtenAt (w₃.tapes barcode))).tapes barcode) =
          withTapeJson barcode choice.cartridgeGroup choice.writtenAt (w₂.tapes barcode) := by
        rw [LifecycleWorld.setTape_tapes_self, htapes]
      have hstep' : stepUpdateTapeJson barcode choice.cartridgeGroup choice.writtenAt w₃ =
          some (true, w₃.setTape barcode (withTapeJson barcode choice.cartridgeGroup choice.writtenAt (w₃.tapes barcode))) := rfl
      cases hfault' : choice.faults "update_tape_json" with
      | before => rw [hbefore' (.inl hfault'), htapes, if_neg (by simp)]
      | after => rw [hhalt' _ _ hstep' (.inl hfault'), htape, if_pos (by simp)]
      | none => rw [hpass' _ hstep' hfault', tapes_mark, htape, if_pos (by simp)]

variable (sha256 record barcode tapePath policyName choice w) in
/-- What an archive leaves of its tape: the documents up to the one it comes to are built anew. -/
theorem volume_cases :
    let final := (completeFileArchive sha256 record barcode tapePath policyName choice w).2.tapes barcode
    (¬WritesManifest sha256 record barcode tapePath choice w ∧ final = w.tapes barcode) ∨
      ∃ dataset, let volume₁ := withManifest record barcode tapePath policyName dataset (w.tapes barcode)
        let volume₂ := withShard record barcode choice.generatedAt dataset volume₁
        (WritesManifest sha256 record barcode tapePath choice w ∧ ¬WritesShard sha256 record barcode tapePath choice w ∧ final = volume₁) ∨
        (WritesShard sha256 record barcode tapePath choice w ∧ ¬WritesTapeJson sha256 record barcode tapePath choice w ∧
          final = volume₂) ∨
        WritesTapeJson sha256 record barcode tapePath choice w ∧
          final = withTapeJson barcode choice.cartridgeGroup choice.writtenAt volume₂ := by
  intro final
  by_cases hreach : ReachesManifest sha256 record barcode tapePath choice w
  · obtain ⟨dataset, hdataset⟩ := Option.isSome_iff_exists.1 hreach.dataset
    have hmanifest : stepWriteManifest record barcode tapePath policyName w =
        some (true, w.setTape barcode (withManifest record barcode tapePath policyName dataset (w.tapes barcode))) := by
      unfold stepWriteManifest
      rw [hdataset]
      rfl
    generalize hw₁ : w.setTape barcode (withManifest record barcode tapePath policyName dataset (w.tapes barcode)) = w₁ at hmanifest
    have htape₁ : w₁.tapes barcode = withManifest record barcode tapePath policyName dataset (w.tapes barcode) := by
      rw [← hw₁, LifecycleWorld.setTape_tapes_self]
    have hshard : stepWriteCatalogShard record barcode choice.generatedAt w₁ =
        some (true, w₁.setTape barcode (withShard record barcode choice.generatedAt dataset (w₁.tapes barcode))) := by
      have hdataset₁ : w₁.cat.nas.getNasDataset record.datasetId = some dataset := by rw [← hw₁, ← hdataset, LifecycleWorld.setTape_cat]
      unfold stepWriteCatalogShard
      rw [hdataset₁]
      rfl
    generalize hw₂ : w₁.setTape barcode (withShard record barcode choice.generatedAt dataset (w₁.tapes barcode)) = w₂ at hshard
    have htape₂ : w₂.tapes barcode = withShard record barcode choice.generatedAt dataset (w₁.tapes barcode) := by
      rw [← hw₂, LifecycleWorld.setTape_tapes_self]
    have hfinal : final = (completeFileArchive sha256 record barcode tapePath policyName choice w).2.tapes barcode := rfl
    unfold completeFileArchive lifecycleSteps at hfinal
    rw [(runSteps_cons _ _ choice.faults _ "verify_checksum" _ _).2.2 _ hreach.verified hreach.verify] at hfinal
    cases hfault : choice.faults "write_manifest" with
    | before =>
      rw [(runSteps_cons _ _ choice.faults _ "write_manifest" _ _).1 (.inl hfault)] at hfinal
      exact .inl ⟨fun hwrites => hwrites.2 hfault, hfinal⟩
    | after =>
      rw [(runSteps_cons _ _ choice.faults _ "write_manifest" _ _).2.1 _ _ hmanifest (.inl hfault), htape₁] at hfinal
      refine .inr ⟨dataset, .inl ⟨⟨hreach, by simp [hfault]⟩, fun hwrites => ?_, hfinal⟩⟩
      simpa [hfault] using hwrites.2.1
    | none =>
      rw [(runSteps_cons _ _ choice.faults _ "write_manifest" _ _).2.2 _ hmanifest hfault] at hfinal
      refine .inr ⟨dataset, ?_⟩
      cases hfault' : choice.faults "write_catalog_shard" with
      | before =>
        rw [(runSteps_cons _ _ choice.faults _ "write_catalog_shard" _ _).1 (.inl hfault'), htape₁] at hfinal
        exact .inl ⟨⟨hreach, by simp [hfault]⟩, fun hwrites => hwrites.2.2 hfault', hfinal⟩
      | after =>
        rw [(runSteps_cons _ _ choice.faults _ "write_catalog_shard" _ _).2.1 _ _ hshard (.inl hfault'), htape₂, htape₁] at hfinal
        refine .inr (.inl ⟨⟨hreach, hfault, by simp [hfault']⟩, fun hwrites => ?_, hfinal⟩)
        simpa [hfault'] using hwrites.2.2.1
      | none =>
        rw [(runSteps_cons _ _ choice.faults _ "write_catalog_shard" _ _).2.2 _ hshard hfault', volume_shard, htape₂, htape₁] at hfinal
        have hwrites : WritesShard sha256 record barcode tapePath choice w := ⟨hreach, hfault, by simp [hfault']⟩
        split at hfinal
        · rename_i hjson
          exact .inr (.inr ⟨⟨hreach, hfault, hfault', hjson⟩, hfinal⟩)
        · rename_i hjson
          exact .inr (.inl ⟨hwrites, fun hwrites' => hjson hwrites'.2.2.2, hfinal⟩)
  · exact .inl ⟨fun hwrites => hreach hwrites.1, congrArg (fun w' => w'.tapes barcode) (completeFileArchive_halted policyName hreach)⟩

/-! ### Documents that are left and documents that are built -/

theorem ManifestKept.refl (record : NasFileRecord) (m : ManifestJson) : ManifestKept record m m :=
  ⟨rfl, rfl, rfl, rfl, List.Perm.refl _⟩

theorem ShardKept.refl (record : NasFileRecord) (s : CatalogShard) : ShardKept record s s :=
  ⟨List.Perm.refl _, List.Perm.refl _, fun e he hid => ⟨e, he, hid, rfl, rfl, rfl⟩⟩

variable {volume final : TapeVolume}

theorem MetadataKept.of_same_manifest (h : final.manifest = volume.manifest) (m : ManifestJson) (hm : volume.manifest = some m) :
    ∃ m', final.manifest = some m' ∧ ManifestKept record m m' :=
  ⟨m, h.trans hm, ManifestKept.refl record m⟩

theorem MetadataKept.of_same_shard (h : final.shard = volume.shard) (s : CatalogShard) (hs : volume.shard = some s) :
    ∃ s', final.shard = some s' ∧ ShardKept record s s' :=
  ⟨s, h.trans hs, ShardKept.refl record s⟩

theorem MetadataKept.of_same_tapeJson (h : final.tapeJson = volume.tapeJson) (t : TapeJson) (ht : volume.tapeJson = some t) :
    ∃ t', final.tapeJson = some t' ∧ t'.currentGeneration = t.currentGeneration ∧ t'.previousGeneration = t.previousGeneration :=
  ⟨t, h.trans ht, rfl, rfl⟩

/-- Where the manifest is built anew. -/
theorem manifest_kept_iff {dataset : NasDataset}
    (h : final.manifest = some (manifestAfter record barcode tapePath policyName dataset volume.readManifest)) :
    (∀ m, volume.manifest = some m → ∃ m', final.manifest = some m' ∧ ManifestKept record m m') ↔
      ∀ m, volume.manifest = some m → m.generationId = "" ∧ m.siblingTapes = [] ∧ m.placement = "" ∧ m.protection = none ∧
        (m.schema ∈ supportedManifestSchemas ∨ ∀ e ∈ m.files, e.fileRecordId = record.id) := by
  refine forall_congr' fun m => forall_congr' fun hm => ?_
  rw [h, ← manifestKept_iff record barcode tapePath policyName dataset volume hm]
  constructor
  · rintro ⟨m', hm', hkept⟩
    obtain rfl := Option.some.inj hm'
    exact hkept
  · exact fun hkept => ⟨_, rfl, hkept⟩

/-- Where the catalog shard is. -/
theorem shard_kept_iff {generatedAt : String} {dataset : NasDataset} (volume' : TapeVolume)
    (h : final.shard = some (shardAfter record barcode generatedAt dataset volume')) (hsame : volume'.shard = volume.shard) :
    (∀ s, volume.shard = some s → ∃ s', final.shard = some s' ∧ ShardKept record s s') ↔
      ∀ s, volume.shard = some s → ∀ e ∈ s.datasets, e.datasetId = record.datasetId →
        e.tapeSet = [barcode] ∧ e.shardSet = [] ∧ e.protection = none := by
  refine forall_congr' fun s => forall_congr' fun hs => ?_
  rw [h, ← shardKept_iff generatedAt dataset volume' (hsame.trans hs)]
  constructor
  · rintro ⟨s', hs', hkept⟩
    obtain rfl := Option.some.inj hs'
    exact hkept
  · exact fun hkept => ⟨_, rfl, hkept⟩

/-- Where `tape.json` is. -/
theorem tapeJson_kept_iff {cartridgeGroup writtenAt : String}
    (h : final.tapeJson = some (tapeJsonAfter barcode cartridgeGroup writtenAt volume.tapeJson)) :
    (∀ t, volume.tapeJson = some t → ∃ t', final.tapeJson = some t' ∧ t'.currentGeneration = t.currentGeneration ∧
        t'.previousGeneration = t.previousGeneration) ↔
      ∀ t, volume.tapeJson = some t → t.currentGeneration = none ∧ t.previousGeneration = none := by
  refine forall_congr' fun t => forall_congr' fun _ => ?_
  rw [h]
  constructor
  · rintro ⟨t', ht', hcurrent, hprevious⟩
    obtain rfl := Option.some.inj ht'
    exact ⟨hcurrent.symm, hprevious.symm⟩
  · rintro ⟨hcurrent, hprevious⟩
    exact ⟨_, rfl, hcurrent.symm, hprevious.symm⟩

end LifecycleAux

open LifecycleAux

/-- The archive of a file keeps the rest of the metadata exactly where there is nothing to lose. -/
theorem metadata_kept_iff (sha256 : Bytes → String) (record : NasFileRecord) (barcode : Barcode) (tapePath policyName : String)
    (choice : LifecycleChoice) (w : LifecycleWorld) :
    MetadataKept record (w.tapes barcode) ((completeFileArchive sha256 record barcode tapePath policyName choice w).2.tapes barcode) ↔
      NothingToLose sha256 record barcode tapePath choice w := by
  rcases volume_cases sha256 record barcode tapePath policyName choice w with
    ⟨hmanifest, hfinal⟩ | ⟨dataset, ⟨hmanifest, hshard, hfinal⟩ | ⟨hshard, hjson, hfinal⟩ | ⟨hjson, hfinal⟩⟩
  all_goals rw [hfinal]
  · constructor
    · intro _
      exact ⟨fun h => absurd h hmanifest, fun h => absurd (writesManifest_of_shard h) hmanifest, fun h => absurd (writesManifest_of_shard (writesShard_of_tapeJson h)) hmanifest⟩
    · intro _
      exact ⟨MetadataKept.of_same_manifest rfl, MetadataKept.of_same_shard rfl, MetadataKept.of_same_tapeJson rfl⟩
  · constructor
    · intro h
      exact ⟨fun _ => (manifest_kept_iff rfl).1 h.manifest, fun h => absurd h hshard, fun h => absurd (writesShard_of_tapeJson h) hshard⟩
    · intro h
      exact ⟨(manifest_kept_iff rfl).2 (h.manifest hmanifest), MetadataKept.of_same_shard rfl, MetadataKept.of_same_tapeJson rfl⟩
  · constructor
    · intro h
      exact ⟨fun _ => (manifest_kept_iff rfl).1 h.manifest, fun _ => (shard_kept_iff (withManifest record barcode tapePath policyName dataset (w.tapes barcode)) rfl rfl).1 h.shard, fun h => absurd h hjson⟩
    · intro h
      exact ⟨(manifest_kept_iff rfl).2 (h.manifest (writesManifest_of_shard hshard)), (shard_kept_iff (withManifest record barcode tapePath policyName dataset (w.tapes barcode)) rfl rfl).2 (h.shard hshard),
        MetadataKept.of_same_tapeJson rfl⟩
  · constructor
    · intro h
      exact ⟨fun _ => (manifest_kept_iff rfl).1 h.manifest, fun _ => (shard_kept_iff (withManifest record barcode tapePath policyName dataset (w.tapes barcode)) rfl rfl).1 h.shard,
        fun _ => (tapeJson_kept_iff rfl).1 h.tapeJson⟩
    · intro h
      exact ⟨(manifest_kept_iff rfl).2 (h.manifest (writesManifest_of_shard (writesShard_of_tapeJson hjson))), (shard_kept_iff (withManifest record barcode tapePath policyName dataset (w.tapes barcode)) rfl rfl).2 (h.shard (writesShard_of_tapeJson hjson)),
        (tapeJson_kept_iff rfl).2 (h.tapeJson hjson)⟩

/-- The documents that `finalize_tape_generation` leaves on a tape. -/
def TapeVolume.finalizeTapeGeneration (volume : TapeVolume) (generationId writtenAt : String) (manifest : ManifestJson) (shard : CatalogShard)
    (tapeJson : TapeJson) : TapeVolume :=
  { volume with
    manifest := some (manifest.finalized generationId shard)
    shard := some shard
    tapeJson := some (tapeJson.finalized generationId writtenAt) }

def indexRecord : NasFileRecord := { id := "2", datasetId := "mail", relativePath := "index.txt", status := .onlineCached }

/-- A tape of a generation, with the data of one more file. -/
def generationTape : TapeVolume :=
  TapeVolume.finalizeTapeGeneration
    { contents := [("/mail/index.txt", { datasetId := "mail", relativePath := "index.txt", content := [2] })] } "g1" "2025-01-01"
    { barcode := "A00001L8", openbladeTapeId := "A00001L8"
      files := [{ logicalPath := "photo.jpg", tapePath := "/photos/photo.jpg", datasetId := "photos", fileRecordId := "1", size := 1 }] }
    { barcode := "A00001L8", openbladeTapeId := "A00001L8"
      datasets := [{ datasetId := "photos", tapeSet := ["A00001L8", "B00002L8"] }] }
    { openbladeTapeId := "A00001L8", barcode := "A00001L8", createdAt := "2025-01-01", lastOpenbladeWriteAt := "2025-01-01" }

def generationWorld : LifecycleWorld :=
  { cat := { nas := (NasCatalog.upsertNasDataset {} { id := "mail", name := "mail" }).upsertNasFileRecord indexRecord }
    tapes := fun _ => generationTape }

/-- The archive of one more file takes the generation from the tape: it reads as one of before there were generations. -/
theorem generation_lost : ¬MetadataKept indexRecord (generationWorld.tapes "A00001L8")
    ((completeFileArchive (fun _ => "") indexRecord "A00001L8" "/mail/index.txt" "" {} generationWorld).2.tapes "A00001L8") := by
  intro h
  have hbefore : (generationWorld.tapes "A00001L8").manifest.map ManifestJson.generationId = some "g1" := by decide +kernel
  have hafter : ((completeFileArchive (fun _ => "") indexRecord "A00001L8" "/mail/index.txt" "" {} generationWorld).2.tapes
      "A00001L8").manifest.map ManifestJson.generationId = some "" := by
    decide +kernel
  obtain ⟨m, hm, hgeneration⟩ := Option.map_eq_some_iff.1 hbefore
  obtain ⟨m', hm', hgeneration'⟩ := Option.map_eq_some_iff.1 hafter
  obtain ⟨m'', hm'', hkept⟩ := h.manifest m hm
  obtain rfl := Option.some.inj (hm'.symm.trans hm'')
  have hsame := hkept.generationId
  rw [hgeneration, hgeneration'] at hsame
  exact absurd hsame (by decide)

end OpenBlade
