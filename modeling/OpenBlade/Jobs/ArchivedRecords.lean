import OpenBlade.Frames
import OpenBlade.Jobs.ArchiveService
import OpenBlade.Jobs.FormatCatalog

/-!
# The records of an archive job

An archive job writes a record for each of its files, in their order and up to where it is stopped. Where none of the paths is
catalogued before, the records that were there stay as they were, and those of the job come after them.
-/

namespace OpenBlade

open Effects Proc

/-- `create_file_record`. -/
def Op.createsRecord : Op → Bool
  | .catalog (.createFileRecord _) => true
  | _ => false

/-- The paths that `create_file_record` was called with. -/
def noteCreated (created : List String) (call : Step World Op fun o => Except Exn o.Ans) : List String :=
  match call.op with
  | .catalog (.createFileRecord fields) => created ++ [fields.path]
  | _ => created

/-- The machine of the jobs, with a note of the records that are created. -/
abbrev recording (sha256 : Bytes → String) := (machine sha256).observed noteCreated

/-- Records with these paths and sizes come after the ones that were there. -/
def Catalog.Appended (old : List FileRecord) (rows : List (String × Nat)) (cat : Catalog) : Prop :=
  ∃ news : List FileRecord, cat.records = old ++ news ∧ news.map (fun record => (record.path, record.sizeBytes)) = rows

namespace RecordsAux

/-! ### What the catalog keeps -/

theorem records_execCatalog {w : World} {c : Choice} {o : CatalogOp} (h : (Op.catalog o).createsRecord = false) :
    (w.execCatalog c o).2.records = w.catalog.records := by
  by_cases hquiet : (Op.catalog o).isQuiet = true
  · exact (World.execCatalog_quiet hquiet).records
  cases o with
  | createFileRecord fields => cases h
  | createFileInstance id barcode path => rfl
  | createStagedInstance jobId id barcode path =>
    show (w.catalog.createStagedInstance w.clock jobId id barcode path).2.records = w.catalog.records
    unfold Catalog.createStagedInstance
    cases w.catalog.getFileRecordById id <;> rfl
  | markInstanceArchived id verified =>
    show (w.catalog.markInstanceArchived w.clock id verified).2.records = w.catalog.records
    unfold Catalog.markInstanceArchived
    cases w.catalog.getInstance id <;> rfl
  | markInstancesVerifying ids =>
    show (w.catalog.markInstancesVerifying ids).2.records = w.catalog.records
    unfold Catalog.markInstancesVerifying
    cases w.catalog.loadInstancesIn _ _ ids <;> rfl
  | markInstancesArchived ids verified =>
    show (w.catalog.markInstancesArchived w.clock ids verified).2.records = w.catalog.records
    unfold Catalog.markInstancesArchived
    cases w.catalog.loadInstancesIn _ _ ids <;> rfl
  | _ => exact absurd rfl hquiet

/-- Whatever else is called, the records stay. -/
theorem records_exec (sha256 : Bytes → String) {w : World} {c : Choice} {o : Op} (h : o.createsRecord = false) :
    (w.exec sha256 o c).2.catalog.records = w.catalog.records := by
  refine World.exec_post sha256 (fun w' => w'.catalog.records = w.catalog.records) rfl ?_
  cases o with
  | catalog o => exact (records_execCatalog (w := w.elapse c) h).trans rfl
  | lease o => rfl
  | library o => rfl
  | ltfs o => rfl
  | host o =>
    cases o with
    | readHost path =>
      show ((w.elapse c).execHost c (.readHost path)).2.catalog.records = w.catalog.records
      unfold World.execHost
      dsimp only
      split <;> rfl
    | renameHost source target =>
      show ((w.elapse c).execHost c (.renameHost source target)).2.catalog.records = w.catalog.records
      unfold World.execHost
      dsimp only
      split <;> rfl
    | _ => rfl

/-- A path that is not catalogued is catalogued behind the others. -/
theorem records_createFileRecord {cat : Catalog} (now : Int) {fields : Catalog.FileRecordFields} (hposix : posix fields.path = fields.path)
    (hfresh : ∀ record ∈ cat.records, record.path ≠ fields.path) :
    ∃ record, (cat.createFileRecord now fields).2.records = cat.records ++ [record] ∧ record.path = fields.path ∧
      record.sizeBytes = fields.sizeBytes := by
  have hnone : cat.getFileRecord fields.path = none := by
    refine List.find?_eq_none.2 fun record hrecord heq => hfresh record hrecord ?_
    rw [of_decide_eq_true heq, hposix]
  unfold Catalog.createFileRecord
  rw [hnone]
  exact ⟨_, rfl, hposix, rfl⟩

/-! ### Footprints -/

variable {L : Type}

/-- Choosing a tape looks, and writes rows of cartridges. -/
theorem reads_chooseTape {P : Op → Prop} (hread : ∀ o, o.isRead = true → P o) (hadd : ∀ barcode, P (.catalog (.addCartridge barcode none)))
    (hsave : ∀ cartridge, P (.catalog (.saveCartridge cartridge))) (vgId sizeBytes : Nat) :
    Reads P (chooseTape vgId sizeBytes : JobM L Barcode) := by
  have hroom : ∀ barcode, Reads P (tapeHasRoom barcode sizeBytes : JobM L Bool) :=
    fun barcode => only_bind (only_perform (hread _ rfl)) fun _ => only_pure _
  have hassigned : ∀ cartridges, Reads P (chooseAssigned sizeBytes cartridges : JobM L (Option Barcode)) := by
    intro cartridges
    induction cartridges with
    | nil => exact only_pure none
    | cons cartridge cartridges ih =>
      refine only_ite (fun _ => ih) fun _ => only_bind (hroom _) fun room => ?_
      exact only_ite (fun _ => only_pure _) fun _ => ih
  have hscratch : ∀ barcodes, Reads P (chooseScratch vgId sizeBytes barcodes : JobM L (Option Barcode)) := by
    intro barcodes
    induction barcodes with
    | nil => exact only_pure none
    | cons barcode barcodes ih =>
      refine only_ite (fun _ => ih) fun _ => only_bind (only_perform (hadd _)) fun cartridge => only_ite (fun _ => ih) fun _ => ?_
      refine only_bind (hroom _) fun room => only_ite (fun _ => ?_) fun _ => ih
      exact only_bind (only_perform (hsave _)) fun _ => only_pure _
  refine only_bind (only_perform (hread _ rfl)) fun cartridges => only_bind (hassigned _) fun chosen => ?_
  cases chosen with
  | some barcode => exact only_pure barcode
  | none =>
    refine only_bind (only_perform (hread _ rfl)) fun inv => only_bind (hscratch _) fun chosen => ?_
    cases chosen with
    | some barcode => exact only_pure barcode
    | none => exact only_raise _

theorem reads_acquireDrives {P : Op → Prop} (hread : ∀ o, o.isRead = true → P o)
    (hacquire : ∀ jobId barcodes numDrives ttl exclude, P (.lease (.acquire jobId barcodes numDrives ttl exclude)))
    (scheduler : DriveScheduler) (barcodes : List Barcode) : Reads P (acquireDrives scheduler barcodes : JobM L (List DriveHandle)) := by
  have hround : Reads P (acquireRound scheduler barcodes : JobM L (Option (List DriveLease))) := by
    refine only_bind (looks_barcodesPendingReconciliation.weaken hread) fun _ => only_ite (fun _ => only_raise _) fun _ => ?_
    refine only_bind (looks_drivesPendingReconciliation.weaken hread) fun _ => only_ite (fun _ => only_raise _) fun _ => ?_
    exact only_perform (hacquire ..)
  have hloop : ∀ polls, Reads P (acquireLoop scheduler barcodes polls : JobM L (List DriveLease)) := by
    intro polls
    induction polls with
    | zero => exact only_raise _
    | succ polls ih =>
      refine only_bind hround fun leases => ?_
      cases leases with
      | some leases => exact only_pure leases
      | none => exact only_bind (only_perform (hread _ rfl)) fun late => only_ite (fun _ => only_raise _) fun _ => ih
  refine only_ite (fun _ => only_raise _) fun _ => only_ite (fun _ => only_raise _) fun _ => ?_
  exact only_bind (hloop _) fun leases => only_pure _

/-- What was counted stays. -/
def SameCounts (l l' : ArchiveLocals) : Prop := l'.filesArchived = l.filesArchived ∧ l'.bytesArchived = l.bytesArchived

instance : IsPreorder ArchiveLocals SameCounts where
  refl _ := ⟨rfl, rfl⟩
  trans _ _ _ h h' := ⟨h'.1.trans h.1, h'.2.trans h.2⟩

/-- A procedure that creates no record and counts no file. -/
abbrev Plain {α : Type} (m : JobM ArchiveLocals α) : Prop := Only (fun o => o.createsRecord = false) SameCounts m

theorem createsRecord_of_isRead {o : Op} (h : o.isRead = true) : o.createsRecord = false := by
  cases o with
  | catalog o => cases o <;> first | rfl | cases h
  | _ => rfl

theorem createsRecord_of_ofOrchestrator {o : Op} (h : o.ofOrchestrator = true) : o.createsRecord = false := by
  cases o with
  | catalog o => cases o <;> first | rfl | cases h
  | _ => rfl

theorem plain_of_reads {α : Type} {m : JobM ArchiveLocals α} (h : Reads (fun o => o.createsRecord = false) m) : Plain m :=
  h.mono (fun _ h => h) fun l l' (hl : l = l') => hl ▸ ⟨rfl, rfl⟩

theorem plain_of_looks {α : Type} {m : JobM ArchiveLocals α} (h : Looks m) : Plain m :=
  plain_of_reads (h.weaken fun _ => createsRecord_of_isRead)

theorem plain_putBack (jobId : JobId) (barcode : Barcode) (driveId : Int) (slot : Option Nat) :
    Plain (putBack jobId barcode driveId slot : JobM ArchiveLocals Unit) := by
  cases slot with
  | none => exact only_pure ()
  | some slotId =>
    refine plain_of_reads (only_bind ?_ fun _ => only_pure ())
    exact (reads_executeTapeRequest _ _).weaken fun _ => createsRecord_of_ofOrchestrator

theorem plain_requireLease (lease : Option DriveHandle) : Plain (requireLease lease : JobM ArchiveLocals DriveHandle) := by
  cases lease with
  | none => exact only_raise _
  | some lease => exact only_pure lease

theorem plain_releaseCurrentLease (jobId : JobId) (original : Option Exn) : Plain (releaseCurrentLease jobId original) := by
  refine only_bind only_locals fun l => ?_
  cases l.currentLease with
  | none => exact only_pure ()
  | some lease =>
    refine only_bind (only_assign fun l => ⟨rfl, rfl⟩) fun _ => only_bind ?_ fun _ => only_perform rfl
    exact plain_of_reads (reads_releaseDrives (fun _ => rfl) [lease] original)

theorem plain_finalizeCurrentMount (jobId : JobId) (vgId : Nat) : Plain (finalizeCurrentMount jobId vgId) := by
  refine only_bind only_locals fun l => ?_
  cases l.currentHandle <;> cases l.currentBarcode <;> cases l.currentDriveId <;> try exact only_pure ()
  rename_i mountHandle barcode driveId
  have hmark : ∀ id, Plain (markInstanceArchived id true : JobM ArchiveLocals Unit) := fun id => only_perform rfl
  refine only_bind (plain_requireLease _) fun lease => only_bind (plain_of_looks (looks_verifyHandle lease)) fun _ => ?_
  refine only_bind (only_perform rfl) fun _ => only_bind (only_forEach hmark _) fun _ => ?_
  refine only_bind (only_assign fun l => ⟨rfl, rfl⟩) fun _ => only_bind (plain_of_looks (looks_verifyHandle lease)) fun _ => ?_
  refine only_bind (plain_putBack _ _ _ _) fun _ => only_bind (only_perform rfl) fun _ => only_bind (only_perform rfl) fun cartridge => ?_
  refine only_bind (only_perform rfl) fun tape => only_bind (only_perform rfl) fun _ => ?_
  exact only_bind (only_assign fun l => ⟨rfl, rfl⟩) fun _ => plain_releaseCurrentLease jobId none

theorem plain_archiveLoadIfNeeded (jobId : JobId) (lane : DriveHandle) : Plain (archiveLoadIfNeeded jobId lane) := by
  refine only_bind (only_perform rfl) fun found => ?_
  cases found with
  | some driveId =>
    refine only_ite (fun _ => only_bind (only_assign fun l => ⟨rfl, rfl⟩) fun _ => only_pure _) fun _ => ?_
    exact only_pure _
  | none =>
    refine only_bind (only_perform rfl) fun found => ?_
    cases found with
    | none => exact only_raise _
    | some slotId =>
      refine only_bind (only_handle ?_ fun exc => only_ite (fun _ => only_raise _) fun _ => only_raise _) fun _ => only_pure _
      refine only_bind (plain_of_reads ?_) fun _ => only_pure ()
      exact (reads_executeTapeRequest _ _).weaken fun _ => createsRecord_of_ofOrchestrator

theorem plain_takeTape (scheduler : DriveScheduler) (jobId : JobId) (barcode : Barcode) : Plain (takeTape scheduler jobId barcode) := by
  have hacquire : Reads (fun o => o.createsRecord = false) (acquireDrives scheduler [barcode] : JobM ArchiveLocals _) :=
    reads_acquireDrives (fun _ => createsRecord_of_isRead) (fun _ _ _ _ _ => rfl) scheduler [barcode]
  refine only_bind (plain_of_reads hacquire) fun handles => only_bind ?_ fun lane => ?_
  · cases handles with
    | nil => exact only_raise _
    | cons lane _ => exact only_pure lane
  refine only_bind (only_assign fun l => ⟨rfl, rfl⟩) fun _ => only_bind (only_perform rfl) fun _ => ?_
  refine only_bind (plain_archiveLoadIfNeeded jobId lane) fun found => only_bind (only_assign fun l => ⟨rfl, rfl⟩) fun _ => ?_
  refine only_bind only_locals fun l => only_bind (plain_requireLease _) fun lease => ?_
  refine only_bind (plain_of_reads (reads_recordPhysicalDrives (fun _ _ => rfl) [lease])) fun _ => only_bind (only_perform rfl) fun _ => ?_
  refine only_bind (plain_of_looks (looks_verifyHandle lease)) fun _ => only_bind (only_perform rfl) fun mountHandle => ?_
  exact only_assign fun l => ⟨rfl, rfl⟩

theorem plain_archiveCleanup (jobId : JobId) : Plain (archiveCleanup jobId) := by
  refine only_bind only_locals fun l => ?_
  have hback : ∀ barcode driveId, Plain (do
      handle (putBack jobId barcode driveId l.currentSlotId) fun _ => pure ()
      handle amlState fun _ => pure () : JobM ArchiveLocals Unit) := by
    intro barcode driveId
    refine only_bind (only_handle (plain_putBack _ _ _ _) fun _ => only_pure ()) fun _ => ?_
    exact only_handle (only_perform rfl) fun _ => only_pure ()
  cases l.currentHandle with
  | none =>
    dsimp only
    split
    · exact hback _ _
    · exact only_pure ()
  | some mountHandle =>
    refine only_bind (only_handle (only_bind (only_perform rfl) fun _ => only_pure ()) fun _ => only_pure ()) fun _ => ?_
    split
    · exact hback _ _
    · exact only_pure ()

theorem plain_ensureVolumeGroup (name : String) : Plain (ensureVolumeGroup name : JobM ArchiveLocals VolumeGroup) := by
  refine only_bind (only_perform rfl) fun found => ?_
  cases found with
  | some group => exact only_pure group
  | none => exact only_perform rfl

/-! ### The run -/

section run

variable {sha256 : Bytes → String} {pathOf : SourceFile → String} {files : List SourceFile} {old : List FileRecord} {fresh : Prop}

/-- The path and the size a file is recorded with. -/
def rowOf (pathOf : SourceFile → String) (file : SourceFile) : String × Nat := (pathOf file, file.sizeBytes)

/-- These files are recorded, and none besides; behind the records that were there, if no path was catalogued. -/
structure Recorded (pathOf : SourceFile → String) (old : List FileRecord) (fresh : Prop) (done : List SourceFile)
    (s : World × List String) : Prop where
  created : s.2 = done.map pathOf
  appended : fresh → s.1.catalog.Appended old (done.map (rowOf pathOf))

/-- The first of the files are recorded; the record of the last may be missing. -/
structure Within (pathOf : SourceFile → String) (files : List SourceFile) (old : List FileRecord) (fresh : Prop)
    (s : World × List String) : Prop where
  created : s.2 <+: files.map pathOf
  appended : fresh → ∃ rows, rows <+: files.map (rowOf pathOf) ∧ s.1.catalog.Appended old rows

/-- The files are paths of their own that a record keeps as they are, and none of them is catalogued where that is asked for. -/
structure Distinct (pathOf : SourceFile → String) (files : List SourceFile) (old : List FileRecord) (fresh : Prop) : Prop where
  nodup : (files.map pathOf).Nodup
  posix : ∀ file ∈ files, OpenBlade.posix (pathOf file) = pathOf file
  fresh : fresh → ∀ record ∈ old, ∀ file ∈ files, record.path ≠ pathOf file

theorem Recorded.within {done : List SourceFile} {s : World × List String} (h : Recorded pathOf old fresh done s) (hdone : done <+: files) :
    Within pathOf files old fresh s :=
  ⟨h.created ▸ hdone.map pathOf, fun hf => ⟨_, hdone.map _, h.appended hf⟩⟩

/-- The contract of the run: the files are recorded from the first on. -/
abbrev recordingOf (pathOf : SourceFile → String) (files : List SourceFile) (old : List FileRecord) (fresh : Prop) :
    Contract (World × List String) Op (fun o => Except Exn o.Ans) :=
  .keeps (fun _ => True) (Within pathOf files old fresh)

theorem noteCreated_plain {created : List String} (call : Step World Op fun o => Except Exn o.Ans) (h : call.op.createsRecord = false) :
    noteCreated created call = created := by
  obtain ⟨pre, op, ans, post⟩ := call
  cases op with
  | catalog o => cases o <;> first | rfl | cases h
  | _ => rfl

/-- What creates no record keeps what is recorded. -/
theorem stable_recorded (sha256 : Bytes → String) {done : List SourceFile} (hdone : done <+: files) :
    Stable (recording sha256) (recordingOf pathOf files old fresh) (fun o => o.createsRecord = false) (Recorded pathOf old fresh done) := by
  intro o ho s s₁ c hs hr _
  obtain rfl : s = s₁ := hr
  have hpost : Recorded pathOf old fresh done ((recording sha256).exec s o c).2 := by
    refine ⟨(noteCreated_plain ((machine sha256).step s.1 o c) ho).trans hs.created, fun hf => ?_⟩
    obtain ⟨news, hnews, hrows⟩ := hs.appended hf
    exact ⟨news, (records_exec sha256 ho).trans hnews, hrows⟩
  exact ⟨hpost.within hdone, hpost⟩

theorem stable_within : Stable (recording sha256) (recordingOf pathOf files old fresh) (fun o => o.createsRecord = false)
    (Within pathOf files old fresh) := by
  intro o ho s s₁ c hs hr _
  obtain rfl : s = s₁ := hr
  have hpost : Within pathOf files old fresh ((recording sha256).exec s o c).2 := by
    refine ⟨?_, fun hf => ?_⟩
    · show noteCreated s.2 ((machine sha256).step s.1 o c) <+: _
      rw [noteCreated_plain ((machine sha256).step s.1 o c) ho]
      exact hs.created
    · obtain ⟨rows, hrows, news, hnews, hmap⟩ := hs.appended hf
      exact ⟨rows, hrows, news, (records_exec sha256 ho).trans hnews, hmap⟩
  exact ⟨hpost, hpost⟩

/-- The counters of the job. -/
def Counted (done : List SourceFile) (l : ArchiveLocals) : Prop :=
  l.filesArchived = done.length ∧ l.bytesArchived = (done.map SourceFile.sizeBytes).sum

theorem SameCounts.counted {done : List SourceFile} {l l' : ArchiveLocals} (h : SameCounts l l') (hl : Counted done l) : Counted done l' :=
  ⟨h.1.trans hl.1, h.2.trans hl.2⟩

variable {l : ArchiveLocals} {s : World × List String} {done : List SourceFile}

/-- A plain procedure goes on with what is recorded, or fails within the files. -/
theorem wp_plain {α : Type} {m : JobM ArchiveLocals α} {N : α → ArchiveLocals → World × List String → Prop} (hm : Plain m)
    (hdone : done <+: files) (hs : Recorded pathOf old fresh done s) (hl : Counted done l)
    (hN : ∀ a l' s', Recorded pathOf old fresh done s' → Counted done l' → N a l' s') :
    wp (recording sha256) (recordingOf pathOf files old fresh) m N (fun _ _ => Within pathOf files old fresh) l s :=
  wp_mono (hm.keeps (stable_recorded sha256 hdone) hs) (fun a l' s' h => hN a l' s' h.2 (SameCounts.counted h.1 hl))
    fun _ _ _ h => h.2.within hdone

/-- The next file is recorded. -/
theorem wp_createFileRecord {file : SourceFile} {after : List SourceFile} {fields : Catalog.FileRecordFields}
    {N : FileRecord → ArchiveLocals → World × List String → Prop} (hfiles : files = done ++ file :: after)
    (hdistinct : Distinct pathOf files old fresh) (hpath : fields.path = pathOf file) (hsize : fields.sizeBytes = file.sizeBytes)
    (hs : Recorded pathOf old fresh done s) (hN : ∀ record s', Recorded pathOf old fresh (done ++ [file]) s' → N record l s') :
    wp (recording sha256) (recordingOf pathOf files old fresh) (createFileRecord fields) N (fun _ _ => Within pathOf files old fresh) l s := by
  have hmem : file ∈ files := hfiles ▸ List.mem_append_right _ List.mem_cons_self
  have hnext : done ++ [file] <+: files := ⟨after, by rw [hfiles, List.append_assoc, List.singleton_append]⟩
  have hdone : done <+: files := ⟨file :: after, hfiles.symm⟩
  refine wp_call fun s₁ hr c _ => ?_
  obtain rfl : s = s₁ := hr
  have hnoted : ((recording sha256).exec s (.catalog (.createFileRecord fields)) c).2.2 = (done ++ [file]).map pathOf := by
    show s.2 ++ [fields.path] = _
    rw [hs.created, hpath, List.map_append, List.map_singleton]
  -- The call takes effect, or leaves the records as they were.
  have heffect : fresh → ((World.elapse s.1 c).attempt sha256 c (.catalog (.createFileRecord fields))).2.catalog.Appended old
      ((done ++ [file]).map (rowOf pathOf)) := by
    intro hf
    obtain ⟨news, hnews, hrows⟩ := hs.appended hf
    have hnodup : pathOf file ∉ done.map pathOf := by
      have hall := hdistinct.nodup
      rw [hfiles, List.map_append, List.map_cons] at hall
      exact (List.nodup_cons.1 (List.nodup_middle.1 hall)).1 ∘ List.mem_append_left _
    have hfresh : ∀ record ∈ (World.elapse s.1 c).catalog.records, record.path ≠ fields.path := by
      intro record hrecord
      rw [World.elapse_records, hnews] at hrecord
      rw [hpath]
      rcases List.mem_append.1 hrecord with hrecord | hrecord
      · exact hdistinct.fresh hf record hrecord file hmem
      · intro heq
        have hrow : (record.path, record.sizeBytes) ∈ done.map (rowOf pathOf) := hrows ▸ List.mem_map_of_mem hrecord
        obtain ⟨other, hother, hsame⟩ := List.mem_map.1 hrow
        exact hnodup (heq ▸ List.mem_map.2 ⟨other, hother, congrArg Prod.fst hsame⟩)
    obtain ⟨record, hrecords, hp, hz⟩ := records_createFileRecord (World.elapse s.1 c).clock
      (show posix fields.path = fields.path by rw [hpath, hdistinct.posix file hmem]) hfresh
    refine ⟨news ++ [record], ?_, ?_⟩
    · refine hrecords.trans ?_
      rw [World.elapse_records, hnews, List.append_assoc]
    · rw [List.map_append, hrows, List.map_append, List.map_singleton, List.map_singleton, hp, hz, hpath, hsize]
      rfl
  have hafter : fresh → ((recording sha256).exec s (.catalog (.createFileRecord fields)) c).2.1.catalog.Appended old
      ((done ++ [file]).map (rowOf pathOf)) ∨
      ((recording sha256).exec s (.catalog (.createFileRecord fields)) c).2.1.catalog.Appended old (done.map (rowOf pathOf)) := by
    intro hf
    show (s.1.exec sha256 (.catalog (.createFileRecord fields)) c).2.catalog.Appended _ _ ∨
      (s.1.exec sha256 (.catalog (.createFileRecord fields)) c).2.catalog.Appended _ _
    rcases World.exec_cases sha256 (w := s.1) (c := c) (.catalog (.createFileRecord fields)) with ⟨e, h⟩ | ⟨e, h⟩ | h <;> rw [h]
    · exact .inr (hs.appended hf)
    · exact .inl (heffect hf)
    · exact .inl (heffect hf)
  have hwithin : Within pathOf files old fresh ((recording sha256).exec s (.catalog (.createFileRecord fields)) c).2 := by
    refine ⟨hnoted ▸ hnext.map pathOf, fun hf => ?_⟩
    rcases hafter hf with h | h
    · exact ⟨_, hnext.map _, h⟩
    · exact ⟨_, hdone.map _, h⟩
  refine ⟨hwithin, fun record hans => hN record _ ⟨hnoted, fun hf => ?_⟩, fun _ _ => hwithin⟩
  have hstate := (World.exec_ok sha256 (w := s.1) (c := c) (o := .catalog (.createFileRecord fields)) hans).2
  show (s.1.exec sha256 (.catalog (.createFileRecord fields)) c).2.catalog.Appended _ _
  rw [hstate]
  exact heffect hf

/-- The size of a file is what it holds. -/
theorem wp_sourceSize {file : SourceFile} {N : Nat → ArchiveLocals → World × List String → Prop} (hdone : done <+: files)
    (hs : Recorded pathOf old fresh done s) (hN : ∀ s', Recorded pathOf old fresh done s' → N file.sizeBytes l s') :
    wp (recording sha256) (recordingOf pathOf files old fresh) (sourceSize file) N (fun _ _ => Within pathOf files old fresh) l s := by
  unfold sourceSize
  rw [wp_bind]
  refine wp_call fun s₁ hr c hc => ?_
  obtain rfl : s = s₁ := hr
  have hpost := stable_recorded sha256 hdone (.host (.readSource file)) rfl s s c hs rfl hc
  refine ⟨hpost.1, fun content hans => ?_, fun _ _ => hpost.1⟩
  have hcontent : content = file.content := (Except.ok.inj (World.exec_ok sha256 (w := s.1) (c := c) hans).1).symm
  rw [wp_pure, hcontent]
  exact hN _ hpost.2

theorem wp_writeArchived {file : SourceFile} {after : List SourceFile} (vgId : Nat) (barcode checksum : String)
    (hfiles : files = done ++ file :: after) (hdistinct : Distinct pathOf files old fresh) (hs : Recorded pathOf old fresh done s)
    (hl : Counted done l) :
    wp (recording sha256) (recordingOf pathOf files old fresh)
      (writeArchived sha256 vgId file (pathOf file) barcode checksum file.sizeBytes)
      (fun _ l' s' => Recorded pathOf old fresh (done ++ [file]) s' ∧ Counted (done ++ [file]) l')
      (fun _ _ => Within pathOf files old fresh) l s := by
  have hdone : done <+: files := ⟨file :: after, hfiles.symm⟩
  have hnext : done ++ [file] <+: files := ⟨after, by rw [hfiles, List.append_assoc, List.singleton_append]⟩
  unfold writeArchived
  rw [wp_bind, wp_locals, wp_bind]
  cases l.currentHandle with
  | none => exact hs.within hdone
  | some mountHandle =>
    rw [requireMount, wp_pure, wp_bind]
    refine wp_plain (only_perform rfl) hdone hs hl fun content l₁ s₁ hs₁ hl₁ => ?_
    rw [wp_bind]
    refine wp_plain (only_perform rfl) hdone hs₁ hl₁ fun _ l₂ s₂ hs₂ hl₂ => ?_
    rw [wp_bind]
    refine wp_createFileRecord hfiles hdistinct rfl rfl hs₂ fun record s₃ hs₃ => ?_
    -- From here on the record is there, and the file is not counted yet.
    have hrest : Only (fun o => o.createsRecord = false) SameCounts (do
        let row ← createFileInstance record.id barcode (posix (pathOf file))
        let st ← stat mountHandle (posix (pathOf file))
        pure (row, st) : JobM ArchiveLocals _) :=
      only_bind (only_perform rfl) fun _ => only_bind (only_perform rfl) fun _ => only_pure _
    have hrun := hrest.keeps (stable_recorded sha256 hnext) (l := l₂) hs₃
    rw [wp_bind] at hrun ⊢
    refine wp_mono hrun (fun row l₄ s₄ h₄ => ?_) fun _ _ _ h => h.2.within hnext
    rw [wp_bind] at h₄ ⊢
    refine wp_mono h₄ (fun st l₅ s₅ h₅ => ?_) fun _ _ _ h => h.2.within hnext
    obtain ⟨hcounts, hs₅⟩ := h₅
    have hl₅ := SameCounts.counted hcounts hl₂
    split
    · exact hs₅.within hnext
    · refine ⟨hs₅, ?_, ?_⟩
      · show l₅.filesArchived + 1 = _
        rw [hl₅.1, List.length_append, List.length_singleton]
      · show l₅.bytesArchived + file.sizeBytes = _
        rw [hl₅.2, List.map_append, List.sum_append, List.map_singleton, List.sum_singleton]

/-- One pass of the loop records one more file, and counts it. -/
theorem wp_archiveFile {file : SourceFile} {after : List SourceFile} (request : ArchiveRequest) (scheduler : DriveScheduler) (vgId : Nat)
    (jobId : JobId) (hfiles : files = done ++ file :: after) (hdistinct : Distinct pathOf files old fresh)
    (hpath : catalogPathOf request file = .ok (pathOf file)) (hs : Recorded pathOf old fresh done s) (hl : Counted done l) :
    wp (recording sha256) (recordingOf pathOf files old fresh) (archiveFile sha256 request scheduler vgId jobId file)
      (fun _ l' s' => Recorded pathOf old fresh (done ++ [file]) s' ∧ Counted (done ++ [file]) l')
      (fun _ _ => Within pathOf files old fresh) l s := by
  have hdone : done <+: files := ⟨file :: after, hfiles.symm⟩
  unfold archiveFile
  rw [hpath, wp_bind, wp_ofExcept]
  dsimp only
  rw [wp_bind]
  refine wp_plain (plain_of_looks (looks_computeChecksum sha256 file)) hdone hs hl fun checksum l₁ s₁ hs₁ hl₁ => ?_
  rw [wp_bind]
  refine wp_sourceSize hdone hs₁ fun s₂ hs₂ => ?_
  rw [wp_bind]
  have hchoose : Plain (chooseTape vgId file.sizeBytes : JobM ArchiveLocals Barcode) :=
    plain_of_reads (reads_chooseTape (fun _ => createsRecord_of_isRead) (fun _ => rfl) (fun _ => rfl) vgId _)
  refine wp_plain hchoose hdone hs₂ hl₁ fun barcode l₃ s₃ hs₃ hl₃ => ?_
  rw [wp_bind, wp_locals]
  split
  · rw [wp_bind]
    refine wp_plain (plain_finalizeCurrentMount jobId vgId) hdone hs₃ hl₃ fun _ l₄ s₄ hs₄ hl₄ => ?_
    rw [wp_bind]
    refine wp_plain (plain_takeTape scheduler jobId barcode) hdone hs₄ hl₄ fun _ l₅ s₅ hs₅ hl₅ => ?_
    exact wp_writeArchived vgId barcode checksum hfiles hdistinct hs₅ hl₅
  · exact wp_writeArchived vgId barcode checksum hfiles hdistinct hs₃ hl₃

theorem wp_archiveBody (request : ArchiveRequest) (scheduler : DriveScheduler) (vgId : Nat) (jobId : JobId)
    (hdistinct : Distinct pathOf request.files old fresh) (hpath : ∀ file ∈ request.files, catalogPathOf request file = .ok (pathOf file))
    (hs : Recorded pathOf old fresh [] s) (hl : Counted [] l) :
    wp (recording sha256) (recordingOf pathOf request.files old fresh) (archiveBody sha256 request scheduler vgId jobId)
      (fun _ l' s' => Recorded pathOf old fresh request.files s' ∧ Counted request.files l')
      (fun _ _ => Within pathOf request.files old fresh) l s := by
  unfold archiveBody
  rw [wp_bind]
  refine wp_forEach _ request.files (fun done l s => Recorded pathOf old fresh done s ∧ Counted done l) ⟨hs, hl⟩ ?_ ?_
  · rintro done file after l₁ s₁ hfiles ⟨hs₁, hl₁⟩
    have hmem : file ∈ request.files := hfiles ▸ List.mem_append_right _ List.mem_cons_self
    exact wp_archiveFile request scheduler vgId jobId hfiles hdistinct (hpath file hmem) hs₁ hl₁
  · rintro l₁ s₁ ⟨hs₁, hl₁⟩
    exact wp_plain (plain_finalizeCurrentMount jobId vgId) (List.prefix_refl _) hs₁ hl₁ fun _ _ _ hs₂ hl₂ => ⟨hs₂, hl₂⟩

/-- The `except` clauses raise, and record nothing. -/
theorem wp_archiveExcept (jobId : JobId) (exc : Exn) (hs : Within pathOf files old fresh s) :
    wp (recording sha256) (recordingOf pathOf files old fresh) (archiveExcept jobId exc) (fun _ _ _ => False)
      (fun _ _ => Within pathOf files old fresh) l s := by
  have hend : ∀ l s, Within pathOf files old fresh s → wp (recording sha256) (recordingOf pathOf files old fresh) (do
      updateJobState jobId "failed" (some (safeJobError exc))
      raise exc : JobM ArchiveLocals Unit) (fun _ _ _ => False) (fun _ _ => Within pathOf files old fresh) l s := by
    intro l s hs
    have hupdate : Plain (updateJobState jobId "failed" (some (safeJobError exc)) : JobM ArchiveLocals Unit) := only_perform rfl
    rw [wp_bind]
    exact wp_mono (hupdate.keeps stable_within hs) (fun _ _ _ h => h.2) fun _ _ _ h => h.2
  unfold archiveExcept
  split
  · exact hend l s hs
  · rw [wp_bind]
    exact wp_mono ((plain_archiveCleanup jobId).keeps stable_within hs) (fun _ l' s' h => hend l' s' h.2) fun _ _ _ h => h.2

/-- A job that ends has recorded its files, and counts them; one that fails has recorded the first of them. -/
theorem wp_runArchiveJob (request : ArchiveRequest) (scheduler : DriveScheduler) (jobId : JobId) (hdry : request.dryRun = false)
    (hdistinct : Distinct pathOf request.files old fresh) (hpath : ∀ file ∈ request.files, catalogPathOf request file = .ok (pathOf file))
    (hs : Recorded pathOf old fresh [] s) :
    wp (recording sha256) (recordingOf pathOf request.files old fresh) (runArchiveJob sha256 request scheduler jobId)
      (fun result _ s' => Recorded pathOf old fresh request.files s' ∧ result.filesArchived = request.files.length ∧
        result.bytesArchived = (request.files.map SourceFile.sizeBytes).sum)
      (fun _ _ => Within pathOf request.files old fresh) {} s := by
  have hnil : [] <+: request.files := List.nil_prefix
  unfold runArchiveJob
  rw [wp_bind]
  refine wp_plain (only_perform rfl) hnil hs ⟨rfl, rfl⟩ fun _ l₁ s₁ hs₁ hl₁ => ?_
  rw [wp_bind]
  refine wp_plain (plain_ensureVolumeGroup _) hnil hs₁ hl₁ fun group l₂ s₂ hs₂ hl₂ => ?_
  split
  · rename_i hempty
    have hfiles : request.files = [] := hempty.resolve_left (hdry ▸ Bool.false_ne_true)
    rw [hfiles, mapEach, wp_bind, wp_pure, wp_bind]
    exact wp_plain (only_perform rfl) (List.prefix_refl []) hs₂ hl₂ fun _ l₃ s₃ hs₃ hl₃ => ⟨hs₃, rfl, rfl⟩
  · rw [wp_bind, wp_ensure, wp_handle]
    refine wp_mono (wp_archiveBody request scheduler group.id jobId hdistinct hpath hs₂ hl₂) ?_ ?_
    · rintro _ l₃ s₃ ⟨hs₃, hl₃⟩
      refine wp_plain (plain_releaseCurrentLease jobId none) (List.prefix_refl _) hs₃ hl₃ fun _ l₄ s₄ hs₄ hl₄ => ?_
      rw [wp_bind, wp_locals, wp_bind]
      refine wp_plain (only_perform rfl) (List.prefix_refl _) hs₄ hl₄ fun _ l₅ s₅ hs₅ hl₅ => ?_
      exact ⟨hs₅, hl₄.1, hl₄.2⟩
    · intro exc l₃ s₃ hs₃
      refine wp_mono (wp_archiveExcept jobId exc hs₃) (fun _ _ _ h => h.elim) fun exc' l₄ s₄ hs₄ => ?_
      exact wp_mono ((plain_releaseCurrentLease jobId (some exc')).keeps stable_within hs₄) (fun _ _ _ h => h.2) fun _ _ _ h => h.2

end run

end RecordsAux

end OpenBlade
