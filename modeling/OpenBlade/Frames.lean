import OpenBlade.Catalog.Frames
import OpenBlade.Jobs.LeaseSafety
import OpenBlade.World

/-!
# What a call leaves alone

Most calls of a job are reads and bookkeeping. A quiet call changes neither the library nor the tapes nor the rows of files; the
others are told apart by the part of the world they belong to.
-/

namespace OpenBlade

open Effects

/-- Reads, and bookkeeping in tables that hold no files and no leases. -/
def Op.isQuiet : Op → Bool
  | .catalog (.createFileRecord _) | .catalog (.createFileInstance _ _ _) | .catalog (.createStagedInstance _ _ _ _)
  | .catalog (.markInstanceArchived _ _) | .catalog (.markInstancesVerifying _)
  | .catalog (.markInstancesArchived _ _) => false
  | .catalog _ => true
  | .lease (.isLive _ _) | .lease .liveLeases => true
  | .lease _ => false
  | .library (.load _ _) | .library (.unload _ _) | .library (.move _ _) | .library (.importCartridge _ _)
  | .library (.exportCartridgeToIe _ _) => false
  | .library _ => true
  | .ltfs (.ensureTape _) | .ltfs (.stat _ _) | .ltfs (.readFile _ _ _) | .ltfs (.readBytes _ _) => true
  | .ltfs _ => false
  | .host _ => true

/-- Calls that can archive instances. -/
def Op.archives : Op → Bool
  | .catalog (.markInstanceArchived _ _) | .catalog (.markInstancesArchived _ _) => true
  | _ => false

namespace World

variable (sha256 : Bytes → String) {w : World} {c : Choice}

@[simp] theorem elapse_library : (w.elapse c).library = w.library := rfl

@[simp] theorem elapse_ltfs : (w.elapse c).ltfs = w.ltfs := rfl

@[simp] theorem elapse_host : (w.elapse c).host = w.host := rfl

@[simp] theorem elapse_draws : (w.elapse c).draws = w.draws := rfl

@[simp] theorem elapse_records : (w.elapse c).catalog.records = w.catalog.records := rfl

@[simp] theorem elapse_instances : (w.elapse c).catalog.instances = w.catalog.instances := rfl

@[simp] theorem elapse_journal : (w.elapse c).catalog.journal = w.catalog.journal := rfl

/-- A call either does nothing but let time pass, and raises, or it does what it does, whatever it answers. -/
theorem exec_cases (o : Op) :
    (∃ e, w.exec sha256 o c = (.error e, w.elapse c)) ∨
    (∃ e, w.exec sha256 o c = (.error e, ((w.elapse c).attempt sha256 c o).2)) ∨
    w.exec sha256 o c = (w.elapse c).attempt sha256 c o := by
  unfold exec
  cases c.raises with
  | none => exact .inr (.inr rfl)
  | some fault =>
    by_cases ht : c.takesEffect = true
    · simp only [ht, if_true]
      exact .inr (.inl ⟨_, rfl⟩)
    · simp only [ht]
      exact .inl ⟨_, rfl⟩

/-- What holds after time has passed, and after the call, holds of the state a call leaves. -/
theorem exec_post (P : World → Prop) {o : Op} (he : P (w.elapse c)) (ha : P ((w.elapse c).attempt sha256 c o).2) :
    P (w.exec sha256 o c).2 := by
  rcases exec_cases sha256 (w := w) (c := c) o with ⟨e, h⟩ | ⟨e, h⟩ | h <;> rw [h]
  · exact he
  · exact ha
  · exact ha

/-- A call that answers did what it does. -/
theorem exec_ok {o : Op} {a : o.Ans} (h : (w.exec sha256 o c).1 = .ok a) :
    ((w.elapse c).attempt sha256 c o).1 = .ok a ∧ (w.exec sha256 o c).2 = ((w.elapse c).attempt sha256 c o).2 := by
  rcases exec_cases sha256 (w := w) (c := c) o with ⟨e, he⟩ | ⟨e, he⟩ | he <;> rw [he] at h ⊢
  · cases h
  · cases h
  · exact ⟨h, rfl⟩

@[simp] theorem elapse_nextId : (w.elapse c).catalog.nextId = w.catalog.nextId := rfl

/-! ### Quiet calls -/

/-- Writes of the rows of files. -/
def writesFiles : Op → Bool
  | .catalog o => !(Op.catalog o).isQuiet
  | _ => false

/-- A quiet method of the catalog writes no files and no leases. -/
theorem execCatalog_quiet {o : CatalogOp} (h : (Op.catalog o).isQuiet = true) :
    w.catalog.SameFiles (w.execCatalog c o).2 := by
  cases o with
  | createVolumeGroup name => exact Catalog.sameFiles_createVolumeGroup _ _
  | addCartridge barcode vg => exact Catalog.sameFiles_addCartridge _ _ _
  | saveCartridge cartridge => exact Catalog.sameFiles_updateCartridge _ _ _
  | updateJobState jobId state error => exact Catalog.sameFiles_updateJobState _ _ _ _ _
  | journal jobId event detail => exact Catalog.sameFiles_appendJournal _ _ _ _ _
  | journalDurable jobId event detail => exact Catalog.sameFiles_appendJournal _ _ _ _ _
  | setCartridgeState barcode state => exact Catalog.sameFiles_setCartridgeState _ _ _
  | saveSafetyToken token => exact ⟨rfl, rfl, rfl, Nat.le_refl _⟩
  | deleteSafetyToken tokenValue => exact ⟨rfl, rfl, rfl, Nat.le_refl _⟩
  | createTapeOp request => exact Catalog.sameFiles_createTapeOp _ _ _
  | updateTapeOp opId update => exact Catalog.sameFiles_updateTapeOp _ _ _ _
  | createFileRecord fields => cases h
  | createFileInstance id barcode path => cases h
  | createStagedInstance jobId id barcode path => cases h
  | markInstanceArchived id verified => cases h
  | markInstancesVerifying ids => cases h
  | markInstancesArchived ids verified => cases h
  | _ => exact Catalog.SameFiles.refl _

/-- Reads through LTFS touch neither tapes nor library. -/
theorem execLtfs_quiet {o : LtfsOp} (h : (Op.ltfs o).isQuiet = true) :
    (w.execLtfs sha256 c o).2.1 = w.ltfs ∧ (w.execLtfs sha256 c o).2.2.1 = w.library := by
  cases o with
  | ensureTape barcode => exact ⟨rfl, rfl⟩
  | stat handle path => exact ⟨rfl, rfl⟩
  | readBytes barcode path => exact ⟨rfl, rfl⟩
  | readFile handle path dest =>
    simp only [execLtfs]
    split <;> exact ⟨rfl, rfl⟩
  | mount barcode mode => cases h
  | unmount handle => cases h
  | writeFile handle content path => cases h
  | format barcode confirmation => cases h

/-- The host's calls touch the host and the numbers drawn. -/
theorem execHost_frame (o : HostOp) : ∃ host draws, (w.execHost c o).2 = { w with host := host, draws := draws } := by
  cases o with
  | readHost path =>
    simp only [execHost]
    split <;> exact ⟨_, _, rfl⟩
  | renameHost source target =>
    simp only [execHost]
    split <;> exact ⟨_, _, rfl⟩
  | _ => exact ⟨_, _, rfl⟩

theorem attempt_host (o : HostOp) : ∃ host draws, (w.attempt sha256 c (.host o)).2 = { w with host := host, draws := draws } :=
  execHost_frame (c := c) o

/-! ### Keys and archived instances -/

/-- Only the catalog's own methods change the rows of files. -/
theorem exec_files {o : Op} (h : writesFiles o = false) :
    (w.exec sha256 o c).2.catalog.records = w.catalog.records ∧ (w.exec sha256 o c).2.catalog.instances = w.catalog.instances := by
  refine exec_post sha256 (fun w' => w'.catalog.records = w.catalog.records ∧ w'.catalog.instances = w.catalog.instances)
    ⟨rfl, rfl⟩ ?_
  cases o with
  | catalog o =>
    have hsame := execCatalog_quiet (w := w.elapse c) (c := c) (by simpa [writesFiles] using h)
    exact ⟨hsame.records, hsame.instances⟩
  | host o =>
    obtain ⟨host, draws, hh⟩ := attempt_host sha256 (w := w.elapse c) (c := c) o
    rw [hh]
    exact ⟨rfl, rfl⟩
  | _ => exact ⟨rfl, rfl⟩

/-- What a method of the catalog does to keys and archived instances, unless it archives. -/
theorem execCatalog_archived {o : CatalogOp} (h : (Op.catalog o).archives = false) :
    w.catalog.nextId ≤ (w.execCatalog c o).2.nextId ∧ ∀ id, (w.execCatalog c o).2.Archived id → w.catalog.Archived id := by
  by_cases hq : (Op.catalog o).isQuiet = true
  · have hs := execCatalog_quiet (w := w) (c := c) hq
    exact ⟨hs.nextId_le, fun id => hs.archived.1⟩
  cases o with
  | createFileRecord fields =>
    obtain ⟨hi, -, hn⟩ := Catalog.createFileRecord_frame w.catalog w.clock fields
    refine ⟨hn, fun id ha => ?_⟩
    unfold Catalog.Archived at ha ⊢
    rw [← hi]
    exact ha
  | createFileInstance id barcode path =>
    refine ⟨Nat.le_succ _, fun id => (Catalog.archived_insert rfl ?_).1⟩
    exact fun hs => by cases hs
  | createStagedInstance jobId id barcode path =>
    have hstate : (w.catalog.insertInstance w.clock id barcode path .staging).1.state ≠ .archived := fun hs => by cases hs
    rcases Catalog.createStagedInstance_cases w.catalog w.clock jobId id barcode path with ⟨e, he⟩ | ⟨cat', he, hs⟩
    · have hpost : (w.execCatalog c (.createStagedInstance jobId id barcode path)).2 = w.catalog := congrArg Prod.snd he
      rw [hpost]
      exact ⟨Nat.le_refl _, fun _ h => h⟩
    · have hpost : (w.execCatalog c (.createStagedInstance jobId id barcode path)).2 = cat' := congrArg Prod.snd he
      rw [hpost]
      exact ⟨Nat.le_trans (Nat.le_succ _) hs.nextId_le, fun _ ha => (Catalog.archived_insert rfl hstate).1 (hs.archived.1 ha)⟩
  | markInstancesVerifying ids =>
    obtain ⟨hn, -, -, -, ha⟩ := Catalog.markInstancesVerifying_frame w.catalog ids
    exact ⟨Nat.le_of_eq hn.symm, ha⟩
  | markInstanceArchived id verified => cases h
  | markInstancesArchived ids verified => cases h
  | _ => exact absurd rfl hq

/-- Only the calls that commit archive anything. -/
theorem exec_archived {o : Op} (h : o.archives = false) {id : Nat} (ha : (w.exec sha256 o c).2.catalog.Archived id) :
    w.catalog.Archived id := by
  revert ha
  refine exec_post sha256 (fun w' => w'.catalog.Archived id → w.catalog.Archived id) (fun ha => ha) fun ha => ?_
  cases o with
  | catalog o => exact (execCatalog_archived (w := w.elapse c) (c := c) h).2 id ha
  | lease o => exact ha
  | library o => exact ha
  | ltfs o => exact ha
  | host o =>
    obtain ⟨host, draws, hh⟩ := attempt_host sha256 (w := w.elapse c) (c := c) o
    rw [hh] at ha
    exact ha

/-- Keys are drawn upwards. -/
theorem exec_nextId_le (o : Op) : w.catalog.nextId ≤ (w.exec sha256 o c).2.catalog.nextId := by
  refine exec_post sha256 (fun w' => w.catalog.nextId ≤ w'.catalog.nextId) (Nat.le_refl _) ?_
  cases o with
  | catalog o =>
    by_cases h : (Op.catalog o).archives = false
    · exact (execCatalog_archived (w := w.elapse c) (c := c) h).1
    cases o with
    | markInstanceArchived id verified =>
      have heq : ((w.elapse c).catalog.markInstanceArchived (w.elapse c).clock id verified).2.nextId = w.catalog.nextId := by
        unfold Catalog.markInstanceArchived
        split <;> rfl
      exact Nat.le_of_eq heq.symm
    | markInstancesArchived ids verified =>
      rcases Catalog.markInstancesArchived_cases (w.elapse c).catalog (w.elapse c).clock ids verified with
        ⟨e, he⟩ | ⟨cat', he, hn, -⟩
      · exact Nat.le_of_eq (congrArg (fun x => x.2.nextId) he).symm
      · exact Nat.le_of_eq ((congrArg (fun x => x.2.nextId) he).trans hn).symm
    | _ => exact absurd rfl h
  | lease o => exact Nat.le_refl _
  | library o => exact Nat.le_refl _
  | ltfs o => exact Nat.le_refl _
  | host o =>
    obtain ⟨host, draws, hh⟩ := attempt_host sha256 (w := w.elapse c) (c := c) o
    rw [hh]
    exact Nat.le_refl _

/-- The commit archives what it names and nothing else, all of it or nothing. -/
theorem exec_commit {ids : List Nat} {verified : Bool} {id : Nat}
    (ha : (w.exec sha256 (.catalog (.markInstancesArchived ids verified)) c).2.catalog.Archived id)
    (hn : ¬w.catalog.Archived id) :
    id ∈ ids ∧ ∀ i ∈ ids, (w.exec sha256 (.catalog (.markInstancesArchived ids verified)) c).2.catalog.Archived i := by
  revert ha
  refine exec_post sha256 (fun w' => w'.catalog.Archived id → id ∈ ids ∧ ∀ i ∈ ids, w'.catalog.Archived i)
    (fun ha => absurd ha hn) fun ha => ?_
  have hpost : ((w.elapse c).attempt sha256 c (.catalog (.markInstancesArchived ids verified))).2.catalog =
    ((w.elapse c).catalog.markInstancesArchived (w.elapse c).clock ids verified).2 := rfl
  rw [hpost] at ha ⊢
  rcases Catalog.markInstancesArchived_cases (w.elapse c).catalog (w.elapse c).clock ids verified with
    ⟨e, he⟩ | ⟨cat', he, -, -, -, -, hall, honly⟩
  · rw [he] at ha
    exact absurd ha hn
  · rw [he] at ha ⊢
    rcases honly id ha with h | h
    · exact ⟨h, hall⟩
    · exact absurd h hn

/-- Staging adds at most one instance, under a key that was not drawn before; what it answers is what it added. -/
theorem exec_stage (jobId : JobId) (recordId : Nat) (barcode : Barcode) (path : String) :
    let step := w.exec sha256 (.catalog (.createStagedInstance jobId recordId barcode path)) c
    (∃ e, step.1 = .error e ∧ step.2.catalog.instances = w.catalog.instances) ∨
    ∃ row : FileInstance, row.id = w.catalog.nextId ∧ row.barcode = barcode ∧ row.tapePath = posix path ∧
      step.2.catalog.instances = w.catalog.instances ++ [row] ∧ w.catalog.nextId < step.2.catalog.nextId ∧
      ∀ a : FileInstance, step.1 = .ok a → a = row := by
  have hattempt : (∃ e, ((w.elapse c).attempt sha256 c (.catalog (.createStagedInstance jobId recordId barcode path))) =
        (.error e, w.elapse c)) ∨
      ∃ w' : World, ∃ row : FileInstance,
        ((w.elapse c).attempt sha256 c (.catalog (.createStagedInstance jobId recordId barcode path))) = (.ok row, w') ∧
        row.id = w.catalog.nextId ∧ row.barcode = barcode ∧ row.tapePath = posix path ∧
        w'.catalog.instances = w.catalog.instances ++ [row] ∧ w.catalog.nextId < w'.catalog.nextId := by
    rcases Catalog.createStagedInstance_cases (w.elapse c).catalog (w.elapse c).clock jobId recordId barcode path with
      ⟨e, he⟩ | ⟨cat', he, hs⟩
    · refine .inl ⟨e, ?_⟩
      unfold attempt execCatalog
      simp only [he]
      rfl
    · refine .inr ⟨{ w.elapse c with catalog := cat' }, _, ?_, rfl, rfl, rfl, hs.instances, hs.nextId_le⟩
      unfold attempt execCatalog
      simp only [he]
      rfl
  rcases exec_cases sha256 (w := w) (c := c) (.catalog (.createStagedInstance jobId recordId barcode path)) with
    ⟨e, h⟩ | ⟨e, h⟩ | h
  · exact .inl ⟨e, congrArg Prod.fst h, congrArg (fun x => x.2.catalog.instances) h⟩
  · rcases hattempt with ⟨e', ha⟩ | ⟨w', row, ha, hid, hb, hp, hi, hn⟩
    · exact .inl ⟨e, congrArg Prod.fst h, by simp only [h, ha, elapse_instances]⟩
    · refine .inr ⟨row, hid, hb, hp, by simp only [h, ha, hi], by simpa only [h, ha] using hn, fun a hans => ?_⟩
      rw [h] at hans
      cases hans
  · rcases hattempt with ⟨e', ha⟩ | ⟨w', row, ha, hid, hb, hp, hi, hn⟩
    · exact .inl ⟨e', by simp only [h, ha], by simp only [h, ha, elapse_instances]⟩
    · refine .inr ⟨row, hid, hb, hp, by simp only [h, ha, hi], by simpa only [h, ha] using hn, fun a hans => ?_⟩
      rw [h, ha] at hans
      exact (Except.ok.inj hans).symm

/-! ### Mounts, loads and unloads -/

/-- A physical operation does nothing, or does what it does, whether it says so or not. -/
theorem refused_post {σ : Type} {c : Choice} {message : String} {before : σ} {done : Except Exn OperationResult × σ}
    (P : σ → Prop) (hb : P before) (hd : P done.2) : P (refused c message before done).2 := by
  unfold refused
  by_cases hr : c.refuses = true
  · rw [if_pos hr]
    by_cases ht : c.takesEffect = true
    · rw [if_pos ht]
      exact hd
    · rw [if_neg ht]
      exact hb
  · rw [if_neg hr]
    exact hd

/-- Calls that can change the library: cartridges are moved, or mounted and unmounted. -/
def touchesLibrary : Op → Bool
  | .library (.load _ _) | .library (.unload _ _) | .library (.move _ _) | .library (.importCartridge _ _)
  | .library (.exportCartridgeToIe _ _) | .ltfs (.mount _ _) | .ltfs (.unmount _) | .ltfs (.format _ _) => true
  | _ => false

theorem touchesLibrary_of_isRead {o : Op} (h : o.isRead = true) : touchesLibrary o = false := by
  cases o <;> rename_i o <;> cases o <;> first | rfl | cases h

theorem exec_library {o : Op} (h : touchesLibrary o = false) : (w.exec sha256 o c).2.library = w.library := by
  refine exec_post sha256 (fun w' => w'.library = w.library) rfl ?_
  cases o with
  | catalog o => rfl
  | lease o => rfl
  | library o =>
    cases o with
    | load slot drive => cases h
    | unload drive slot => cases h
    | move source target => cases h
    | importCartridge source target => cases h
    | exportCartridgeToIe source target => cases h
    | _ => rfl
  | ltfs o =>
    cases o with
    | mount barcode mode => cases h
    | unmount handle => cases h
    | format barcode confirmation => cases h
    | readFile handle path dest => exact (execLtfs_quiet sha256 (w := w.elapse c) (c := c) (o := .readFile handle path dest) rfl).2
    | _ => rfl
  | host o =>
    obtain ⟨host, draws, hh⟩ := attempt_host sha256 (w := w.elapse c) (c := c) o
    rw [hh]
    rfl

/-- Calls that leave tapes and mounts as they are, and do not ask whether a lease is live. -/
def sparesTapes : Op → Bool
  | .lease (.isLive _ _) => false
  | o => !touchesLibrary o

theorem sparesTapes_of_isRead {o : Op} (hr : o.isRead = true) (h : ∀ id token, o ≠ .lease (.isLive id token)) : sparesTapes o = true := by
  cases o <;> rename_i o <;> cases o <;> first | rfl | exact absurd rfl (h _ _) | cases hr

theorem touchesLibrary_of_sparesTapes {o : Op} (h : sparesTapes o = true) : touchesLibrary o = false := by
  cases o <;> rename_i o <;> cases o <;> first | rfl | cases h

/-- The mounts change only when tapes are mounted, unmounted or formatted. -/
theorem exec_mounts {o : Op} (h : touchesLibrary o = false) : (w.exec sha256 o c).2.ltfs.mounts = w.ltfs.mounts := by
  refine exec_post sha256 (fun w' => w'.ltfs.mounts = w.ltfs.mounts) rfl ?_
  cases o with
  | catalog o => rfl
  | lease o => rfl
  | library o => rfl
  | ltfs o =>
    cases o with
    | mount barcode mode => cases h
    | unmount handle => cases h
    | format barcode confirmation => cases h
    | writeFile handle content path =>
      show (((w.elapse c).ltfs.writeFile handle path (c.stored.getD content)).2).mounts = w.ltfs.mounts
      unfold Ltfs.writeFile
      split
      · split <;> rfl
      · rfl
    | readFile handle path dest =>
      have hl := (execLtfs_quiet sha256 (w := w.elapse c) (c := c) (o := .readFile handle path dest) rfl).1
      exact congrArg Ltfs.mounts hl
    | _ => rfl
  | host o =>
    obtain ⟨host, draws, hh⟩ := attempt_host sha256 (w := w.elapse c) (c := c) o
    rw [hh]
    rfl

/-- A mount adds at most one mount, of the cartridge it names; the mount it answers is the one it added. -/
theorem exec_mount (barcode : Barcode) (mode : MountMode) :
    let step := w.exec sha256 (.ltfs (.mount barcode mode)) c
    (∃ e, step.1 = .error e ∧ step.2.ltfs.mounts = w.ltfs.mounts) ∨
    ∃ handle : MountHandle, handle.barcode = barcode ∧ step.2.ltfs.mounts = w.ltfs.mounts ++ [handle] ∧
      ∀ a : MountHandle, step.1 = .ok a → a = handle := by
  have hattempt : (∃ e, ((w.elapse c).attempt sha256 c (.ltfs (.mount barcode mode))) = (.error e, w.elapse c)) ∨
      ∃ w' : World, ∃ handle : MountHandle,
        ((w.elapse c).attempt sha256 c (.ltfs (.mount barcode mode))) = (.ok handle, w') ∧
        handle.barcode = barcode ∧ w'.ltfs.mounts = w.ltfs.mounts ++ [handle] := by
    rcases (w.elapse c).ltfs.mount_cases (w.elapse c).library barcode mode with ⟨e, he⟩ | ⟨driveId, lib', -, he, -⟩
    · refine .inl ⟨e, ?_⟩
      unfold attempt execLtfs
      simp only [he]
      rfl
    · refine .inr ⟨{ w.elapse c with
        ltfs := ((w.elapse c).ltfs.mount (w.elapse c).library barcode mode).2.1, library := lib' },
        { handleId := (w.elapse c).ltfs.nextHandle, barcode := barcode, driveId := driveId, mode := mode }, ?_, rfl, ?_⟩
      · unfold attempt execLtfs
        simp only [he]
        rfl
      · simp only [he]
        rfl
  rcases exec_cases sha256 (w := w) (c := c) (.ltfs (.mount barcode mode)) with ⟨e, h⟩ | ⟨e, h⟩ | h
  · exact .inl ⟨e, congrArg Prod.fst h, congrArg (fun x => x.2.ltfs.mounts) h⟩
  · rcases hattempt with ⟨e', ha⟩ | ⟨w', handle, ha, hb, hm⟩
    · exact .inl ⟨e, congrArg Prod.fst h, by simp only [h, ha, elapse_ltfs]⟩
    · refine .inr ⟨handle, hb, by simp only [h, ha, hm], fun a hans => ?_⟩
      rw [h] at hans
      cases hans
  · rcases hattempt with ⟨e', ha⟩ | ⟨w', handle, ha, hb, hm⟩
    · exact .inl ⟨e', by simp only [h, ha], by simp only [h, ha, elapse_ltfs]⟩
    · refine .inr ⟨handle, hb, by simp only [h, ha, hm], fun a hans => ?_⟩
      rw [h, ha] at hans
      exact (Except.ok.inj hans).symm

/-- A load moves nothing, or takes the cartridge of the slot to the drive, which was empty. -/
theorem exec_load (slotId : Nat) (driveId : Int) :
    let step := w.exec sha256 (.library (.load slotId driveId)) c
    (∀ d, step.2.library.holds d = w.library.holds d) ∨
    ∃ barcode, w.library.stores slotId = some barcode ∧ w.library.holds driveId = none ∧
      ∀ d, step.2.library.holds d = if driveId = d then some barcode else w.library.holds d := by
  refine exec_post sha256 (fun w' => (∀ d, w'.library.holds d = w.library.holds d) ∨
    ∃ barcode, w.library.stores slotId = some barcode ∧ w.library.holds driveId = none ∧
      ∀ d, w'.library.holds d = if driveId = d then some barcode else w.library.holds d) (.inl fun _ => rfl) ?_
  have hpost : ((w.elapse c).attempt sha256 c (.library (.load slotId driveId))).2.library =
    (refused c "load failed" w.library (w.library.load slotId driveId)).2 := rfl
  rw [hpost]
  have hdone : (∀ d, (w.library.load slotId driveId).2.holds d = w.library.holds d) ∨
      ∃ barcode, w.library.stores slotId = some barcode ∧ w.library.holds driveId = none ∧
        ∀ d, (w.library.load slotId driveId).2.holds d = if driveId = d then some barcode else w.library.holds d := by
    rcases w.library.load_cases slotId driveId with ⟨e, he⟩ | ⟨barcode, lib', he, hs, hh, hd⟩
    · rw [he]
      exact .inl fun _ => rfl
    · rw [he]
      exact .inr ⟨barcode, hs, hh, hd⟩
  exact refused_post (fun lib : Library => (∀ d, lib.holds d = w.library.holds d) ∨
    ∃ barcode, w.library.stores slotId = some barcode ∧ w.library.holds driveId = none ∧
      ∀ d, lib.holds d = if driveId = d then some barcode else w.library.holds d) (.inl fun _ => rfl) hdone

/-- The drive a search answers is the one the library finds. -/
theorem exec_findDrive {barcode : Barcode} {a : Option Int}
    (h : (w.exec sha256 (.library (.findDriveByBarcode barcode)) c).1 = .ok a) : w.library.findDriveByBarcode barcode = a :=
  Except.ok.inj (exec_ok sha256 h).1

/-- The inventory a call answers is the one of the library. -/
theorem exec_inventory {a : LibraryInventory} (h : (w.exec sha256 (.library .inventory) c).1 = .ok a) :
    w.library.inventory = a :=
  Except.ok.inj (exec_ok sha256 h).1

/-- A source file reads as it is. -/
theorem exec_readSource {file : SourceFile} {a : Bytes} (h : (w.exec sha256 (.host (.readSource file)) c).1 = .ok a) :
    file.content = a :=
  Except.ok.inj (exec_ok sha256 h).1

/-! ### Where a cartridge is found -/

/-- The slot a search answers is the one the library finds. -/
theorem exec_findSlot {barcode : Barcode} {a : Option Nat}
    (h : (w.exec sha256 (.library (.findSlotByBarcode barcode)) c).1 = .ok a) : w.library.findSlotByBarcode barcode = a :=
  Except.ok.inj (exec_ok sha256 h).1

/-! ### Leases -/

/-- What a grant of leases says: one for each barcode, under new ids, on drives that are not excluded and that no live lease
reserves; they go to the end of the table. -/
structure Grant (before after : World) (jobId : JobId) (barcodes : List Barcode) (numDrives : Nat) (exclude : List Int)
    (leases : List DriveLease) : Prop where
  barcodes : leases.map DriveLease.barcode = barcodes
  ids : (leases.map DriveLease.id).Nodup
  rows : after.catalog.leases.rows = before.catalog.leases.rows ++ leases
  clock : after.clock = before.clock
  fresh : ∀ lease ∈ leases, before.catalog.leases.rows.length ≤ lease.id ∧ lease.id < after.catalog.leases.rows.length
  granted : ∀ lease ∈ leases, lease.jobId = jobId ∧ lease.physicalDriveId = none ∧ lease.releasedAt = none
  range : ∀ lease ∈ leases, 0 ≤ lease.driveId ∧ lease.driveId < numDrives
  excluded : ∀ lease ∈ leases, lease.driveId ∉ exclude
  free : ∀ lease ∈ leases, ∀ row ∈ before.catalog.leases.rows, row.live before.clock = true → row.driveId ≠ lease.driveId

/-- When the store answers leases, it granted them. -/
theorem exec_acquire_some {jobId : JobId} {barcodes : List Barcode} {n : Nat} {ttl : Int} {exclude : List Int}
    {leases : List DriveLease} (h : (w.exec sha256 (.lease (.acquire jobId barcodes n ttl exclude)) c).1 = .ok (some leases)) :
    Grant (w.elapse c) (w.exec sha256 (.lease (.acquire jobId barcodes n ttl exclude)) c).2 jobId barcodes n exclude leases := by
  obtain ⟨hans, hpost⟩ := exec_ok sha256 h
  rw [hpost]
  generalize w.elapse c = w at hans
  have hanswer : (LeaseStore.acquire w.catalog.leases w.clock jobId barcodes n ttl exclude).1 = some leases :=
    Except.ok.inj hans
  rcases LawfulLeaseStore.acquire_cases w.catalog.leases w.clock jobId barcodes n ttl exclude with
    hnone | ⟨token, s', hlen, hsome, hrows⟩
  · rw [hnone] at hanswer
    cases hanswer
  · rw [hsome] at hanswer
    obtain rfl := Option.some.inj hanswer
    have hrows' : s'.rows = w.catalog.leases.rows ++ _ := hrows
    have hstate : (w.attempt sha256 c (.lease (.acquire jobId barcodes n ttl exclude))).2.catalog.leases.rows = s'.rows := by
      simp only [attempt, execLease, hsome]
    have hnodup := LeaseAux.freeDrives_nodup w.catalog.leases.rows w.clock n exclude
    obtain ⟨hmap, -⟩ := LeaseAux.newLeases_map jobId w.clock ttl w.catalog.leases.rows.length token hlen
    refine ⟨hmap, ?_, hstate.trans hrows', rfl, fun lease hl => ⟨?_, ?_⟩, fun lease hl => LeaseAux.newLeases_granted hl, ?_,
      ?_, ?_⟩
    · exact List.pairwise_map.2 ((LeaseAux.newLeases_batch _ token barcodes hnodup).imp fun h => h.1)
    · exact (LeaseAux.newLeases_mem hl).2.1
    · rw [hstate, hrows', List.length_append]
      obtain ⟨i, hi, rfl⟩ := List.mem_iff_getElem.1 hl
      have hid := (LeaseAux.newLeases_getElem _ token _ barcodes i hi).1
      exact hid.trans_lt (Nat.add_lt_add_left hi _)
    · exact fun lease hl => (LeaseAux.mem_freeDrives.1 (LeaseAux.newLeases_mem hl).1).1
    · exact fun lease hl => (LeaseAux.mem_freeDrives.1 (LeaseAux.newLeases_mem hl).1).2.2
    · exact fun lease hl => (LeaseAux.mem_freeDrives.1 (LeaseAux.newLeases_mem hl).1).2.1

/-! ### Time, draws and tokens -/

/-- Time passes before a call, not in it. -/
theorem exec_clock (o : Op) : (w.exec sha256 o c).2.clock = w.clock + c.elapsed := by
  refine exec_post sha256 (fun w' => w'.clock = w.clock + c.elapsed) rfl ?_
  cases o with
  | host o =>
    obtain ⟨host, draws, hh⟩ := attempt_host sha256 (w := w.elapse c) (c := c) o
    rw [hh]
    rfl
  | _ => rfl

/-- The time a call answers is that of the state it leaves. -/
theorem exec_time {now : Int} (h : (w.exec sha256 (.host .time) c).1 = .ok now) : now = w.clock + c.elapsed :=
  (Except.ok.inj (exec_ok sha256 h).1).symm

/-- Only `uuid4` draws. -/
theorem exec_draws {o : Op} (h : o ≠ .host .uuid4) : (w.exec sha256 o c).2.draws = w.draws := by
  refine exec_post sha256 (fun w' => w'.draws = w.draws) rfl ?_
  cases o with
  | host o =>
    cases o with
    | uuid4 => exact absurd rfl h
    | readHost path =>
      simp only [attempt, execHost]
      split <;> rfl
    | renameHost source target =>
      simp only [attempt, execHost]
      split <;> rfl
    | _ => rfl
  | _ => rfl

/-- A draw gives the next text, and no text is given twice. -/
theorem exec_uuid4 :
    w.draws ≤ (w.exec sha256 (.host .uuid4) c).2.draws ∧
      ∀ a : String, (w.exec sha256 (.host .uuid4) c).1 = .ok a →
        a = toString w.draws ∧ (w.exec sha256 (.host .uuid4) c).2.draws = w.draws + 1 := by
  refine ⟨exec_post sha256 (fun w' => w.draws ≤ w'.draws) (Nat.le_refl _) (Nat.le_succ _), fun a hans => ?_⟩
  obtain ⟨hans, hpost⟩ := exec_ok sha256 hans
  rw [hpost]
  exact ⟨(Except.ok.inj hans).symm, rfl⟩

/-- Writes of the table of tokens. -/
def writesTokens : Op → Bool
  | .catalog (.saveSafetyToken _) | .catalog (.deleteSafetyToken _) => true
  | _ => false

theorem execCatalog_tokens {o : CatalogOp} (h : writesTokens (.catalog o) = false) :
    (w.execCatalog c o).2.safetyTokens = w.catalog.safetyTokens ∧ (w.execCatalog c o).2.seenTokens = w.catalog.seenTokens := by
  cases o with
  | saveSafetyToken token => cases h
  | deleteSafetyToken tokenValue => cases h
  | createVolumeGroup name =>
    simp only [execCatalog, Catalog.createVolumeGroup]
    split <;> exact ⟨rfl, rfl⟩
  | addCartridge barcode vg =>
    simp only [execCatalog, Catalog.addCartridge]
    split
    · exact ⟨rfl, rfl⟩
    · split <;> exact ⟨rfl, rfl⟩
  | createFileRecord fields =>
    simp only [execCatalog, Catalog.createFileRecord]
    split <;> exact ⟨rfl, rfl⟩
  | createStagedInstance jobId id barcode path =>
    simp only [execCatalog, Catalog.createStagedInstance]
    split <;> exact ⟨rfl, rfl⟩
  | markInstanceArchived id verified =>
    simp only [execCatalog, Catalog.markInstanceArchived]
    split <;> exact ⟨rfl, rfl⟩
  | markInstancesVerifying ids =>
    simp only [execCatalog, Catalog.markInstancesVerifying]
    split <;> exact ⟨rfl, rfl⟩
  | markInstancesArchived ids verified =>
    simp only [execCatalog, Catalog.markInstancesArchived]
    split <;> exact ⟨rfl, rfl⟩
  | updateJobState jobId state error =>
    simp only [execCatalog, Catalog.updateJobState]
    split <;> exact ⟨rfl, rfl⟩
  | setCartridgeState barcode state =>
    simp only [execCatalog, Catalog.setCartridgeState]
    split <;> exact ⟨rfl, rfl⟩
  | updateTapeOp opId update =>
    simp only [execCatalog, Catalog.updateTapeOp]
    split <;> exact ⟨rfl, rfl⟩
  | _ => exact ⟨rfl, rfl⟩

/-- Only the operations on tokens change the tokens. -/
theorem exec_tokens {o : Op} (h : writesTokens o = false) :
    (w.exec sha256 o c).2.catalog.safetyTokens = w.catalog.safetyTokens ∧
      (w.exec sha256 o c).2.catalog.seenTokens = w.catalog.seenTokens := by
  refine exec_post sha256 (fun w' => w'.catalog.safetyTokens = w.catalog.safetyTokens ∧
    w'.catalog.seenTokens = w.catalog.seenTokens) ⟨rfl, rfl⟩ ?_
  cases o with
  | catalog o => exact execCatalog_tokens (w := w.elapse c) (c := c) h
  | host o =>
    obtain ⟨host, draws, hh⟩ := attempt_host sha256 (w := w.elapse c) (c := c) o
    rw [hh]
    exact ⟨rfl, rfl⟩
  | _ => exact ⟨rfl, rfl⟩

/-- A save adds at most the row it saves. -/
theorem exec_saveSafetyToken (token : SafetyToken) :
    (∀ row ∈ (w.exec sha256 (.catalog (.saveSafetyToken token)) c).2.catalog.safetyTokens,
      row ∈ w.catalog.safetyTokens ∨ row = token) ∧
    ∀ row ∈ (w.exec sha256 (.catalog (.saveSafetyToken token)) c).2.catalog.seenTokens,
      row ∈ w.catalog.seenTokens ∨ row = token := by
  refine exec_post sha256 (fun w' => (∀ row ∈ w'.catalog.safetyTokens, row ∈ w.catalog.safetyTokens ∨ row = token) ∧
    ∀ row ∈ w'.catalog.seenTokens, row ∈ w.catalog.seenTokens ∨ row = token)
    ⟨fun row hrow => .inl hrow, fun row hrow => .inl hrow⟩ ⟨fun row hrow => ?_, fun row hrow => ?_⟩
  · rcases List.mem_append.1 hrow with hrow | hrow
    · exact .inl (List.mem_filter.1 hrow).1
    · exact .inr (List.mem_singleton.1 hrow)
  · rcases List.mem_append.1 hrow with hrow | hrow
    · exact .inl hrow
    · exact .inr (List.mem_singleton.1 hrow)

/-- A deletion adds no row; when it says that it deleted, the row was there and is gone. -/
theorem exec_deleteSafetyToken (tokenValue : String) :
    (∀ row ∈ (w.exec sha256 (.catalog (.deleteSafetyToken tokenValue)) c).2.catalog.safetyTokens, row ∈ w.catalog.safetyTokens) ∧
    (w.exec sha256 (.catalog (.deleteSafetyToken tokenValue)) c).2.catalog.seenTokens = w.catalog.seenTokens ∧
    ∀ deleted : Bool, (w.exec sha256 (.catalog (.deleteSafetyToken tokenValue)) c).1 = .ok deleted → deleted = true →
      (∃ row ∈ w.catalog.safetyTokens, row.token = tokenValue) ∧
        ∀ row ∈ (w.exec sha256 (.catalog (.deleteSafetyToken tokenValue)) c).2.catalog.safetyTokens, row.token ≠ tokenValue := by
  refine ⟨exec_post sha256 (fun w' => ∀ row ∈ w'.catalog.safetyTokens, row ∈ w.catalog.safetyTokens) (fun row hrow => hrow)
    fun row hrow => (List.mem_filter.1 hrow).1, exec_post sha256 (fun w' => w'.catalog.seenTokens = w.catalog.seenTokens) rfl rfl,
    fun deleted hans hdel => ?_⟩
  obtain ⟨hans, hpost⟩ := exec_ok sha256 hans
  have hany : (w.catalog.safetyTokens.any fun row => row.token = tokenValue) = true := (Except.ok.inj hans).trans hdel
  refine ⟨by simpa using hany, fun row hrow => ?_⟩
  rw [hpost] at hrow
  simpa using (List.mem_filter.1 hrow).2

/-! ### What calls raise -/

/-- The exceptions that calls raise: only a check of a lease says that it is stale. -/
def NotStale (e : Exn) : Prop := e.cls ≠ .staleLease

theorem loadInstancesIn_notStale {cat : Catalog} {allowed : FileInstanceState → Bool} {expected : List String} {ids : List Nat} {e : Exn}
    (h : cat.loadInstancesIn allowed expected ids = .error e) : NotStale e := by
  induction ids with
  | nil => cases h
  | cons id ids ih =>
    unfold Catalog.loadInstancesIn at h
    split at h
    · cases h
      nofun
    · split at h
      · exact ih h
      · cases h
        nofun

theorem execCatalog_notStale {o : CatalogOp} {e : Exn} (h : (w.execCatalog c o).1 = .error e) : NotStale e := by
  cases o with
  | getLatestInstanceForPath path =>
    simp only [execCatalog, Catalog.getLatestInstanceForPath] at h
    split at h
    · cases h
      nofun
    · split at h
      · cases h
        nofun
      · cases h
  | createStagedInstance jobId id barcode path =>
    simp only [execCatalog, Catalog.createStagedInstance] at h
    split at h
    · cases h
      nofun
    · cases h
  | markInstanceArchived id verified =>
    simp only [execCatalog, Catalog.markInstanceArchived] at h
    split at h
    · cases h
      nofun
    · cases h
  | markInstancesVerifying ids =>
    simp only [execCatalog, Catalog.markInstancesVerifying] at h
    split at h
    · rename_i hload
      cases h
      exact loadInstancesIn_notStale hload
    · cases h
  | markInstancesArchived ids verified =>
    simp only [execCatalog, Catalog.markInstancesArchived] at h
    split at h
    · rename_i hload
      cases h
      exact loadInstancesIn_notStale hload
    · cases h
  | updateJobState jobId state error =>
    simp only [execCatalog, Catalog.updateJobState] at h
    split at h
    · cases h
    · cases h
      nofun
  | _ => cases h

theorem refused_notStale {σ : Type} {message : String} {before : σ} {done : Except Exn OperationResult × σ}
    (hd : ∀ e, done.1 = .error e → NotStale e) {e : Exn} (h : (refused c message before done).1 = .error e) : NotStale e := by
  unfold refused at h
  split at h
  · cases h
  · exact hd e h

theorem execLibrary_notStale {o : LibraryOp} {e : Exn} (h : (w.execLibrary c o).1 = .error e) : NotStale e := by
  cases o with
  | load sourceSlot driveId =>
    refine refused_notStale (fun e he => ?_) h
    unfold Library.load at he
    repeat' split at he
    all_goals cases he <;> nofun
  | unload driveId targetSlot =>
    refine refused_notStale (fun e he => ?_) h
    unfold Library.unload at he
    repeat' split at he
    all_goals cases he <;> nofun
  | move sourceSlot targetSlot =>
    refine refused_notStale (fun e he => ?_) h
    unfold Library.move at he
    repeat' split at he
    all_goals cases he <;> nofun
  | importCartridge ieSlot targetSlot =>
    refine refused_notStale (fun e he => ?_) h
    unfold Library.importCartridge at he
    repeat' split at he
    all_goals cases he <;> nofun
  | exportCartridgeToIe sourceSlot ieSlot =>
    refine refused_notStale (fun e he => ?_) h
    unfold Library.exportCartridgeToIe at he
    repeat' split at he
    all_goals cases he <;> nofun
  | _ => cases h

theorem execLtfs_notStale {o : LtfsOp} {e : Exn} (h : (w.execLtfs sha256 c o).1 = .error e) : NotStale e := by
  have hread : ∀ handle path e, w.ltfs.read handle path = .error e → NotStale e := by
    intro handle path e he
    unfold Ltfs.read at he
    repeat' split at he
    all_goals cases he <;> nofun
  cases o with
  | ensureTape barcode => cases h
  | mount barcode mode =>
    have h' : (w.ltfs.mount w.library barcode mode).1 = .error e := h
    simp only [Ltfs.mount] at h'
    repeat' split at h'
    all_goals cases h' <;> nofun
  | unmount handle =>
    have h' : (refused c "unmount failed" (w.ltfs, w.library) (w.ltfs.unmount w.library handle c.dirty)).1 = .error e := h
    refine refused_notStale (fun e he => ?_) h'
    unfold Ltfs.unmount at he
    repeat' split at he
    all_goals cases he <;> nofun
  | writeFile handle content path =>
    have h' : (w.ltfs.writeFile handle path (c.stored.getD content)).1 = .error e := h
    unfold Ltfs.writeFile at h'
    repeat' split at h'
    all_goals cases h' <;> nofun
  | stat handle path =>
    cases hr : w.ltfs.read handle path with
    | ok bytes => simp [execLtfs, hr, Except.map] at h
    | error e' =>
      simp only [execLtfs, hr, Except.map, Except.error.injEq] at h
      exact h ▸ hread handle path e' hr
  | readBytes barcode path => cases h
  | readFile handle path dest =>
    simp only [execLtfs] at h
    split at h
    · rename_i e' hr
      cases h
      exact hread handle path _ hr
    · cases h
  | format barcode confirmation =>
    simp only [execLtfs] at h
    split at h
    · rename_i e' hv
      cases h
      unfold FormatConfirmation.validate at hv
      repeat' split at hv
      all_goals cases hv <;> nofun
    · unfold refused at h
      repeat' split at h
      all_goals cases h

theorem execHost_notStale {o : HostOp} {e : Exn} (h : (w.execHost c o).1 = .error e) : NotStale e := by
  cases o with
  | readHost path =>
    simp only [execHost] at h
    split at h
    · cases h
      intro h
      cases h
    · cases h
  | renameHost source target =>
    simp only [execHost] at h
    split at h
    · cases h
      intro h
      cases h
    · cases h
  | _ => cases h

/-- No call raises `StaleLeaseError`. -/
theorem exec_notStale {o : Op} {e : Exn} (h : (w.exec sha256 o c).1 = .error e) : NotStale e := by
  unfold exec at h
  cases hr : c.raises with
  | some fault =>
    rw [hr] at h
    cases h
    unfold NotStale Fault.exn
    split <;> nofun
  | none =>
    rw [hr] at h
    cases o with
    | catalog o => exact execCatalog_notStale (w := w.elapse c) h
    | lease o => cases h
    | library o => exact execLibrary_notStale (w := w.elapse c) h
    | ltfs o => exact execLtfs_notStale sha256 (w := w.elapse c) h
    | host o => exact execHost_notStale (w := w.elapse c) h

end World

end OpenBlade
