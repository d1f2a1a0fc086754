import Mathlib
import OpenBlade.Domain.PathParts
import OpenBlade.Nas.Hydration

/-!
# What a restore job selects and plans

The records a job selects from its pool, the tapes it plans, and the paths it reads from each. None of it depends on the status of
a record or on where it is cached, so every run of the job selects and plans the same.
-/

namespace OpenBlade

open Effects

/-! ### Normalized paths -/

/-- An absolute path is its root and the text of its parts. -/
theorem toString_absolute {path : PurePosixPath} (h : path.WellFormed) (hroot : path.root = "/") :
    path.toString = slashes 1 ++ lstripSlash path.toString := by
  obtain ⟨parts, hparts, hall⟩ := h.parts
  have htext : path.toString = slashes 1 ++ "/".intercalate path.parts := by
    unfold PurePosixPath.toString
    rw [hroot]
    simp [slashes]
  have hhead : ("/".intercalate path.parts).toList.head? ≠ some '/' := by
    rw [hparts, String.toList_intercalate]
    cases parts with
    | nil => simp
    | cons part parts =>
      obtain ⟨hpart, hslash⟩ := hall part List.mem_cons_self
      obtain ⟨c, part, rfl⟩ := List.exists_cons_of_ne_nil hpart.1
      have hc : c ≠ '/' := fun heq => hslash (heq ▸ List.mem_cons_self)
      cases parts <;> simpa using hc
  rw [htext, lstripSlash_slashes 1 hhead]

/-- Normalizing once is enough. -/
theorem normalizeRestorePath_idem (path : String) : normalizeRestorePath (normalizeRestorePath path) = normalizeRestorePath path := by
  have hroot : (PurePosixPath.ofString ("/" ++ lstripSlash path)).root = "/" := by
    unfold PurePosixPath.ofString
    have hhead := head_lstripSlash path
    have hleading : leadingSlashes ("/" ++ lstripSlash path).toList = 1 := by
      rw [String.toList_append]
      exact leadingSlashes_replicate_append (n := 1) (by omega) hhead
    dsimp only
    rw [hleading]
    rfl
  have hwell := wellFormed_ofString ("/" ++ lstripSlash path)
  have habsolute := toString_absolute hwell hroot
  have hread := ofString_toString hwell
  unfold normalizeRestorePath posix
  dsimp only
  generalize PurePosixPath.ofString ("/" ++ lstripSlash path) = built at habsolute hread
  by_cases hdot : lstripSlash built.toString = "."
  · rw [if_pos hdot]
    decide
  · rw [if_neg hdot]
    have hstrip : lstripSlash (lstripSlash built.toString) = lstripSlash built.toString := by
      have h := lstripSlash_slashes 0 (head_lstripSlash built.toString)
      simpa [slashes] using h
    have htext : "/" ++ lstripSlash built.toString = built.toString := habsolute.symm
    rw [hstrip, htext, hread, if_neg hdot]

/-! ### Selected records -/

/-- A change of records that leaves what selects and plans them. -/
structure Remarks (f : NasFileRecord → NasFileRecord) : Prop where
  id : ∀ record, (f record).id = record.id
  datasetId : ∀ record, (f record).datasetId = record.datasetId
  relativePath : ∀ record, (f record).relativePath = record.relativePath
  tapeBarcode : ∀ record, (f record).tapeBarcode = record.tapeBarcode

namespace NasCatalog

variable {cat cat' : NasCatalog} {f : NasFileRecord → NasFileRecord}

/-- The records of a pool, with such a change of all records. -/
theorem listPoolFileRecords_remarked (hf : Remarks f) (hdatasets : cat'.datasets = cat.datasets)
    (hfiles : cat'.files = Dict.mapValues f cat.files) (poolId : String) :
    cat'.listPoolFileRecords poolId = (cat.listPoolFileRecords poolId).map f := by
  have hlist : ∀ datasetId, cat'.listNasFileRecords datasetId = (cat.listNasFileRecords datasetId).map f := by
    intro datasetId
    unfold listNasFileRecords
    have hvalues : cat'.files.map Prod.snd = (cat.files.map Prod.snd).map f := by
      rw [hfiles]
      simp [Dict.mapValues, Function.comp_def]
    rw [hvalues, List.filter_map]
    have hfilter : ((fun record : NasFileRecord => decide (record.datasetId = datasetId)) ∘ f) =
        fun record => decide (record.datasetId = datasetId) := by
      funext record
      simp [hf.datasetId]
    rw [hfilter]
    exact (List.map_insertionSort _ _ f _ fun a _ b _ => by rw [hf.relativePath, hf.relativePath]).symm
  have hdatasets' : cat'.listNasDatasets (some poolId) = cat.listNasDatasets (some poolId) := by
    unfold listNasDatasets
    rw [hdatasets]
  unfold listPoolFileRecords
  have hall : (cat.listNasDatasets (some poolId)).flatMap (fun dataset => cat'.listNasFileRecords dataset.id) =
      ((cat.listNasDatasets (some poolId)).flatMap fun dataset => cat.listNasFileRecords dataset.id).map f := by
    rw [List.map_flatMap]
    simp only [hlist]
  rw [hdatasets', hall]
  exact (List.map_insertionSort _ _ f _ fun a _ b _ => by rw [hf.relativePath, hf.relativePath, hf.id, hf.id]).symm

theorem nodup_ids_files : ((cat.files.map Prod.snd).map NasFileRecord.id).Nodup := by
  have hkeys : (cat.files.map Prod.snd).map NasFileRecord.id = Dict.keys cat.files := by
    rw [List.map_map]
    exact List.map_congr_left cat.keyedFiles
  rw [hkeys]
  exact cat.nodupFiles

theorem nodup_ids_datasets : ((cat.datasets.map Prod.snd).map NasDataset.id).Nodup := by
  have hkeys : (cat.datasets.map Prod.snd).map NasDataset.id = Dict.keys cat.datasets := by
    rw [List.map_map]
    exact List.map_congr_left cat.keyedDatasets
  rw [hkeys]
  exact cat.nodupDatasets

theorem mem_listNasFileRecords {datasetId : String} {record : NasFileRecord} :
    record ∈ cat.listNasFileRecords datasetId ↔ record ∈ cat.files.map Prod.snd ∧ record.datasetId = datasetId := by
  unfold listNasFileRecords
  rw [List.mem_insertionSort, List.mem_filter, decide_eq_true_iff]

theorem nodup_listNasFileRecords (datasetId : String) : ((cat.listNasFileRecords datasetId).map NasFileRecord.id).Nodup := by
  unfold listNasFileRecords
  refine ((List.perm_insertionSort _ _).map NasFileRecord.id).nodup_iff.2 ?_
  exact List.Nodup.sublist (List.filter_sublist.map NasFileRecord.id) cat.nodup_ids_files

/-- A record is listed in a pool once, under the dataset it belongs to. -/
theorem nodup_listPoolFileRecords (poolId : String) : ((cat.listPoolFileRecords poolId).map NasFileRecord.id).Nodup := by
  unfold listPoolFileRecords
  refine ((List.perm_insertionSort _ _).map NasFileRecord.id).nodup_iff.2 ?_
  rw [List.map_flatMap, List.nodup_flatMap]
  refine ⟨fun dataset _ => cat.nodup_listNasFileRecords dataset.id, ?_⟩
  have hdatasets : (cat.listNasDatasets (some poolId)).Pairwise fun a b => a.id ≠ b.id :=
    (List.pairwise_map.1 cat.nodup_ids_datasets).sublist List.filter_sublist
  refine hdatasets.imp fun {a b} hne => ?_
  intro id ha hb
  obtain ⟨r, hr, hrid⟩ := List.mem_map.1 ha
  obtain ⟨r', hr', hrid'⟩ := List.mem_map.1 hb
  rw [mem_listNasFileRecords] at hr hr'
  have hsame : r = r' := List.inj_on_of_nodup_map cat.nodup_ids_files hr.1 hr'.1 (hrid.trans hrid'.symm)
  exact hne (hr.2.symm.trans (hsame ▸ hr'.2))

/-- A listed record is the one on file under its id. -/
theorem getNasFileRecord_of_mem {poolId : String} {record : NasFileRecord} (h : record ∈ cat.listPoolFileRecords poolId) :
    cat.getNasFileRecord record.id = some record := by
  unfold listPoolFileRecords at h
  rw [List.mem_insertionSort, List.mem_flatMap] at h
  obtain ⟨dataset, -, hrecord⟩ := h
  obtain ⟨⟨id, found⟩, hrow, rfl⟩ := List.mem_map.1 (mem_listNasFileRecords.1 hrecord).1
  rw [show found.id = id from cat.keyedFiles _ hrow]
  exact Dict.get?_of_mem cat.nodupFiles hrow

end NasCatalog

/-- The records a job selects. -/
def NasWorld.selectedFor (w : NasWorld) (job : NasRestoreJob) : List NasFileRecord :=
  match job.poolId with
  | none => []
  | some poolId => job.selected (w.catalog.listPoolFileRecords poolId)

/-- What a record is known by in a plan. -/
def NasFileRecord.path (record : NasFileRecord) : String := normalizeRestorePath record.relativePath

theorem Remarks.path {f : NasFileRecord → NasFileRecord} (hf : Remarks f) (record : NasFileRecord) : (f record).path = record.path := by
  unfold NasFileRecord.path
  rw [hf.relativePath]

namespace NasWorld

variable {w w' : NasWorld} {job : NasRestoreJob}

theorem selectedFor_remarked {f : NasFileRecord → NasFileRecord} (hf : Remarks f) (hdatasets : w'.catalog.datasets = w.catalog.datasets)
    (hfiles : w'.catalog.files = Dict.mapValues f w.catalog.files) : w'.selectedFor job = (w.selectedFor job).map f := by
  unfold selectedFor
  split
  · rfl
  · rename_i poolId _
    rw [NasCatalog.listPoolFileRecords_remarked hf hdatasets hfiles]
    unfold NasRestoreJob.selected
    dsimp only
    split
    · rfl
    · rw [List.filter_map]
      refine congrArg (List.map f) (List.filter_congr fun record _ => ?_)
      rw [Function.comp_apply, hf.relativePath]

theorem selectedFor_sublist (poolId : String) (h : job.poolId = some poolId) :
    (w.selectedFor job).Sublist (w.catalog.listPoolFileRecords poolId) := by
  unfold selectedFor
  rw [h]
  unfold NasRestoreJob.selected
  dsimp only
  split
  · exact List.Sublist.refl _
  · exact List.filter_sublist

theorem nodup_ids_selectedFor : ((w.selectedFor job).map NasFileRecord.id).Nodup := by
  cases hpool : job.poolId with
  | none =>
    unfold selectedFor
    rw [hpool]
    exact List.nodup_nil
  | some poolId =>
    exact List.Nodup.sublist ((selectedFor_sublist poolId hpool).map NasFileRecord.id) (w.catalog.nodup_listPoolFileRecords poolId)

theorem getNasFileRecord_of_selected {record : NasFileRecord} (h : record ∈ w.selectedFor job) :
    w.catalog.getNasFileRecord record.id = some record := by
  cases hpool : job.poolId with
  | none =>
    unfold selectedFor at h
    rw [hpool] at h
    cases h
  | some poolId => exact NasCatalog.getNasFileRecord_of_mem ((selectedFor_sublist poolId hpool).subset h)

end NasWorld

/-! ### Planned paths -/

namespace NasRestoreJob

variable {job : NasRestoreJob} {records : List NasFileRecord} {barcode : Barcode} {record : NasFileRecord}

/-- The tapes of a job, in the order a run takes them. -/
def plannedTapes (job : NasRestoreJob) : List Barcode := (job.planFromJob []).groups.flatten

/-- The batch of a tape: the paths of its records. -/
theorem batch_planFromJob (job : NasRestoreJob) (records : List NasFileRecord) (barcode : Barcode) :
    ((job.planFromJob records).batchesByTape.get? barcode).getD [] =
      (records.filter fun record => record.tapeBarcode = some barcode).map NasFileRecord.path := by
  have hempty : ∀ (tapes : List Barcode) (d : Dict Barcode (List String)), (d.get? barcode).getD [] = [] →
      (Dict.get? (tapes.foldl (fun batches tape => batches.set tape []) d) barcode).getD [] = [] := by
    intro tapes
    induction tapes with
    | nil => exact fun d hd => hd
    | cons tape tapes ih =>
      intro d hd
      refine ih _ ?_
      rw [Dict.get?_set]
      split
      · rfl
      · exact hd
  have hbatch : ∀ (records : List NasFileRecord) (d : Dict Barcode (List String)),
      (Dict.get? (records.foldl addToBatch d) barcode).getD [] =
        (d.get? barcode).getD [] ++ (records.filter fun record => record.tapeBarcode = some barcode).map NasFileRecord.path := by
    intro records
    induction records with
    | nil => simp
    | cons record records ih =>
      intro d
      rw [List.foldl_cons, ih]
      unfold addToBatch
      cases htape : record.tapeBarcode with
      | none => simp [htape]
      | some tape =>
        dsimp only
        rw [Dict.get?_set]
        by_cases hb : tape = barcode
        · subst hb
          simp [htape, NasFileRecord.path]
        · simp [htape, hb]
  unfold planFromJob
  dsimp only
  rw [hbatch, hempty _ [] rfl, List.nil_append]

/-- The paths a run of the job reads, in its order. -/
def plannedPaths (job : NasRestoreJob) (records : List NasFileRecord) : List String :=
  job.plannedTapes.flatMap fun barcode => (records.filter fun record => record.tapeBarcode = some barcode).map NasFileRecord.path

theorem path_mem_plannedPaths (hrecord : record ∈ records) (htape : ∃ barcode ∈ job.plannedTapes, record.tapeBarcode = some barcode) :
    record.path ∈ job.plannedPaths records := by
  obtain ⟨barcode, hb, htape⟩ := htape
  refine List.mem_flatMap.2 ⟨barcode, hb, List.mem_map.2 ⟨record, List.mem_filter.2 ⟨hrecord, ?_⟩, rfl⟩⟩
  exact decide_eq_true htape

/-- A record that shares its path with no other is planned at most once, where no tape is planned twice. -/
theorem count_plannedPaths_le (htapes : job.plannedTapes.Nodup) (hrecords : records.Nodup)
    (hunique : ∀ other ∈ records, other.path = record.path → other = record) :
    (job.plannedPaths records).count record.path ≤ 1 := by
  have hbatch : ∀ barcode, ((records.filter fun other => other.tapeBarcode = some barcode).map NasFileRecord.path).count record.path ≤
      if record.tapeBarcode = some barcode then 1 else 0 := by
    intro barcode
    have hle : ((records.filter fun other => other.tapeBarcode = some barcode).map NasFileRecord.path).count record.path ≤
        (records.filter fun other => other.tapeBarcode = some barcode).count record := by
      rw [List.count, List.countP_map]
      refine List.countP_mono_left fun other hother hpath => ?_
      exact beq_iff_eq.2 (hunique other (List.mem_filter.1 hother).1 (beq_iff_eq.1 hpath))
    split
    · exact hle.trans (List.nodup_iff_count_le_one.1 (hrecords.filter _) record)
    · rename_i hother
      have hnot : record ∉ records.filter fun other => other.tapeBarcode = some barcode := fun hmem =>
        hother (of_decide_eq_true (List.mem_filter.1 hmem).2)
      rw [List.count_eq_zero_of_not_mem hnot] at hle
      exact hle
  unfold plannedPaths
  rw [List.count_flatMap]
  cases htape : record.tapeBarcode with
  | none =>
    have hzero : (job.plannedTapes.map (List.count record.path ∘ fun barcode =>
        (records.filter fun other => other.tapeBarcode = some barcode).map NasFileRecord.path)).sum = 0 := by
      refine List.sum_eq_zero fun n hn => ?_
      obtain ⟨barcode, -, rfl⟩ := List.mem_map.1 hn
      have h := hbatch barcode
      rw [htape] at h
      simpa using h
    omega
  | some tape =>
    have hcount : (job.plannedTapes.map (List.count record.path ∘ fun barcode =>
        (records.filter fun other => other.tapeBarcode = some barcode).map NasFileRecord.path)).sum ≤ job.plannedTapes.count tape := by
      generalize job.plannedTapes = tapes
      induction tapes with
      | nil => simp
      | cons barcode tapes ih =>
        have h := hbatch barcode
        rw [htape] at h
        simp only [List.map_cons, List.sum_cons, Function.comp_apply, List.count_cons]
        by_cases hb : barcode = tape
        · subst hb
          simp only [beq_self_eq_true, if_true] at h ⊢
          omega
        · have hne : (some tape = some barcode) = False := by simp [Ne.symm hb]
          simp only [hne, if_false] at h
          simp only [beq_iff_eq, hb, if_false]
          omega
    exact hcount.trans (List.nodup_iff_count_le_one.1 htapes tape)

end NasRestoreJob

end OpenBlade
