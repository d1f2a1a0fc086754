import OpenBlade.Effects.Protocol
import OpenBlade.Nas.RestorePlan

/-!
# What a restore has done when it ends

A restore job is run, paused and resumed any number of times. The counters of its row pass from run to run, and each run reads the
records of the pool anew, by their normalized paths. When the last run is not interrupted, the counters tell what has become of the
records that were not cached when the job was first run: if no two selected records share a path, no record failed before a pause,
and the count of every restored file was written.
-/

namespace OpenBlade

open Effects Proc

/-- One call of an executor and what it did. -/
abbrev NasStep : Type := Step NasWorld NasOp fun o => Except Exn o.Ans

/-! ### Runs that are paused -/

/-- Pause requests that are served one after the other, each with what the environment decides about its calls. -/
def servePauses (jobId : JobId) (pauses : List (List NasChoice)) (w : NasWorld) : NasWorld :=
  pauses.foldl (fun w cs => (nasMachine.run cs (pauseRestore jobId ()) w).2) w

/-- What decides about a call of an executor: the pauses that are served before it, and the environment. -/
abbrev PausingChoice : Type := List (List NasChoice) × NasChoice

/-- The machine of an executor whose job may be paused between any two of its calls. -/
def pausingMachine (jobId : JobId) : Machine NasWorld NasOp (fun o => Except Exn o.Ans) PausingChoice :=
  nasMachine.interrupted (servePauses jobId)

/-- A job that was first run in `w₀`: the jobs its runs answered when they left off, the steps of its runs, and what the last run
answered and left. It is resumed when its run has answered that it is paused. -/
inductive RestoreHistory (sha256 : Bytes → String) (jobId : JobId) (w₀ : NasWorld) :
    List NasRestoreJob → List (List NasStep) → NasRestoreJob → NasWorld → Prop where
  | run {cs : List PausingChoice} {job : NasRestoreJob} {l : HydrationJob} {w : NasWorld} :
      (pausingMachine jobId).run cs (runRestore sha256 jobId {}) w₀ = (.ret (.ok job, l), w) →
      RestoreHistory sha256 jobId w₀ [] [(pausingMachine jobId).trace cs (runRestore sha256 jobId {}) w₀] job w
  | resume {pauses : List NasRestoreJob} {traces : List (List NasStep)} {paused : NasRestoreJob} {w : NasWorld}
      {cs : List PausingChoice} {job : NasRestoreJob} {l : HydrationJob} {w' : NasWorld} :
      RestoreHistory sha256 jobId w₀ pauses traces paused w → paused.status = .paused →
      (pausingMachine jobId).run cs (resumeRestore sha256 jobId {}) w = (.ret (.ok job, l), w') →
      RestoreHistory sha256 jobId w₀ (pauses ++ [paused])
        (traces ++ [(pausingMachine jobId).trace cs (resumeRestore sha256 jobId {}) w]) job w'

/-! ### What is claimed, and when it holds -/

namespace NasOp

/-- The progress of an executor after a restored file. -/
def countsRestored : NasOp → Bool
  | updateRestoreJobStatus _ .running _ none => true
  | _ => false

/-- The answer is the row of a job. -/
def FindsJob : (o : NasOp) → Except Exn o.Ans → Prop
  | getRestoreJob _, .ok (some (_ : NasRestoreJob)) => True
  | _, _ => False

end NasOp

/-- The progress after a restored file is written, and the look after it finds the job. -/
structure CountWritten (hist : List NasStep) (x : NasStep) : Prop where
  written : x.op.countsRestored = true → ∃ a, x.ans = .ok a
  seen : ∀ y, hist.getLast? = some y → y.op.countsRestored = true → x.op.FindsJob x.ans

namespace NasWorld

def fileState (w : NasWorld) (id : String) : Option NasFileState := (w.catalog.getNasFileRecord id).map fun record => record.status

/-- The size of what was written for a record. -/
def restoredSize (w : NasWorld) (id : String) : Int := ((w.restoreDir.get? id).getD []).length

/-- The selected records that are not cached. -/
def pendingFor (w : NasWorld) (job : NasRestoreJob) : List NasFileRecord :=
  (w.selectedFor job).filter fun record => record.status ≠ .onlineCached

end NasWorld

/-- The record lies on a tape that the job plans. -/
def NasRestoreJob.Plans (job : NasRestoreJob) (record : NasFileRecord) : Prop :=
  ∃ barcode ∈ job.plannedTapes, record.tapeBarcode = some barcode

/-- What a job that was first run in `w₀` has done: the records it selected there are restored or failed, and counted. -/
structure RestoreComplete (w₀ : NasWorld) (job₀ job : NasRestoreJob) (w : NasWorld) : Prop where
  covered : ∀ record ∈ w₀.selectedFor job₀, job₀.Plans record →
    w.fileState record.id = some .onlineCached ∨ w.fileState record.id = some .failed
  restored : job.filesRestored = (w₀.pendingFor job₀).countP fun record => w.fileState record.id = some .onlineCached
  failed : job.filesFailed = (w₀.pendingFor job₀).countP fun record => w.fileState record.id = some .failed
  counted : job.filesRestored + job.filesFailed = (w₀.pendingFor job₀).length
  bytes : job.bytesRestored =
    (((w₀.pendingFor job₀).filter fun record => w.fileState record.id = some .onlineCached).map fun record =>
      w.restoredSize record.id).sum
  failedOnly : job.status = .failed → ∃ record ∈ w₀.selectedFor job₀, w.fileState record.id ≠ some .onlineCached

/-- A job whose records are countable: there is something to restore, on planned tapes that are each planned once, under paths of
their own; nothing had failed when the job was resumed; and what was counted was written. -/
structure RestoreCountable (w₀ : NasWorld) (job₀ : NasRestoreJob) (pauses : List NasRestoreJob) (traces : List (List NasStep)) :
    Prop where
  pending : w₀.pendingFor job₀ ≠ []
  planned : ∀ record ∈ w₀.pendingFor job₀, job₀.Plans record
  tapes : job₀.plannedTapes.Nodup
  paths : ∀ record ∈ w₀.pendingFor job₀, ∀ other ∈ w₀.selectedFor job₀, other.path = record.path → other = record
  pauses : ∀ job ∈ pauses, job.filesFailed = 0
  written : ∀ trace ∈ traces, Throughout CountWritten trace

/-! ### Calls between which the job is paused -/

namespace NasWorld

variable {w : NasWorld}

/-- An answer is that of a call that was not made to raise. -/
theorem exec_ok {o : NasOp} {c : NasChoice} {a : o.Ans} (h : (w.exec o c).1 = .ok a) : w.attempt c o = (.ok a, (w.exec o c).2) := by
  unfold exec at h ⊢
  cases hraises : c.raises with
  | none =>
    rw [hraises] at h
    exact Prod.ext h rfl
  | some fault =>
    rw [hraises] at h
    cases h

theorem exec_post {o : NasOp} {c : NasChoice} : (w.exec o c).2 = w ∨ (w.exec o c).2 = (w.attempt c o).2 := by
  unfold exec
  split
  · exact .inr rfl
  · split
    · exact .inr rfl
    · exact .inl rfl

/-- No call raises the signal of an executor. -/
theorem isControlSignal_of_exec {o : NasOp} {c : NasChoice} {exc : Exn} (h : (w.exec o c).1 = .error exc) :
    exc.isControlSignal = false := by
  unfold exec at h
  split at h
  · cases o with
    | readBytes barcode path =>
      simp only [attempt] at h
      split at h
      · cases h
        rfl
      · cases h
    | _ => cases h
  · rename_i fault _
    cases h
    unfold Fault.exn Exn.isControlSignal
    cases fault.typed <;> simp

/-- A call that only reads. -/
theorem exec_reads {o : NasOp} {c : NasChoice} (h : (w.attempt c o).2 = w) : (w.exec o c).2 = w := by
  rcases exec_post (o := o) (c := c) with hpost | hpost
  · exact hpost
  · exact hpost.trans h

/-- The world with another row of a job. -/
def withJob (w : NasWorld) (job : NasRestoreJob) : NasWorld := { w with catalog := w.catalog.upsertNasRestoreJob job }

theorem getNasRestoreJob_withJob {job : NasRestoreJob} {id : JobId} :
    (w.withJob job).catalog.getNasRestoreJob id = if job.id = id then some job else w.catalog.getNasRestoreJob id :=
  Dict.get?_set _ _ _ _

/-- A status update of a row that is there. -/
theorem attempt_update {c : NasChoice} {id : JobId} {row : NasRestoreJob} (h : w.catalog.getNasRestoreJob id = some row)
    (status : RestoreJobStatus) (progress : Option RestoreProgress) (errorMessage : Option String) :
    w.attempt c (.updateRestoreJobStatus id status progress errorMessage) =
      (.ok true, w.withJob (row.updated status progress errorMessage)) := by
  simp only [attempt, NasCatalog.updateNasRestoreJobStatus, h]
  rfl

theorem getNasRestoreJob_updated {id : JobId} {row : NasRestoreJob} (h : w.catalog.getNasRestoreJob id = some row)
    (status : RestoreJobStatus) (progress : Option RestoreProgress) (errorMessage : Option String) :
    (w.withJob (row.updated status progress errorMessage)).catalog.getNasRestoreJob id =
      some (row.updated status progress errorMessage) := by
  rw [getNasRestoreJob_withJob, if_pos ((NasRestoreJob.updated_id _ _ _ _).trans (NasCatalog.id_of_getNasRestoreJob h))]

end NasWorld

namespace CompletenessAux

variable {jobId : JobId} {J : NasWorld → Prop}

/-- What a pause of the job keeps. -/
def Lasting (jobId : JobId) (J : NasWorld → Prop) : Prop :=
  ∀ w row, J w → w.catalog.getNasRestoreJob jobId = some row → row.status = .running → J (w.withJob { row with status := .paused })

/-- A pause request pauses the job if it runs, or does nothing. -/
theorem pause_keeps (hJ : Lasting jobId J) {w : NasWorld} (hw : J w) (cs : List NasChoice) :
    J (nasMachine.run cs (pauseRestore jobId ()) w).2 := by
  have hlook : ∀ (v : NasWorld), J v → wp nasMachine (.keeps (fun _ => True) J) (requireJob jobId : NasM Unit NasRestoreJob)
      (fun job _ v' => v' = v ∧ v.catalog.getNasRestoreJob jobId = some job) (fun _ _ _ => True) () v := by
    intro v hv
    unfold requireJob
    rw [wp_bind]
    refine wp_call fun v₁ hr c _ => ?_
    obtain rfl : v = v₁ := hr
    have hsame : (v.exec (.getRestoreJob jobId) c).2 = v := NasWorld.exec_reads rfl
    refine ⟨show J (v.exec (.getRestoreJob jobId) c).2 by rwa [hsame], fun a hans => ?_, fun _ _ => trivial⟩
    have hfound := congrArg Prod.fst (NasWorld.exec_ok hans)
    cases a with
    | none => trivial
    | some job => exact ⟨hsame, Except.ok.inj hfound⟩
  have hpause : wp nasMachine (.keeps (fun _ => True) J) (pauseRestore jobId : NasM Unit NasRestoreJob) (fun _ _ _ => True)
      (fun _ _ _ => True) () w := by
    unfold pauseRestore
    rw [wp_bind]
    refine wp_mono (hlook w hw) ?_ fun _ _ _ _ => trivial
    rintro row _ v ⟨rfl, hrow⟩
    rw [wp_bind, wp_ofExcept]
    unfold requireStatus
    split
    · rename_i hcase
      split at hcase
      · rename_i hstatus
        have hrunning : row.status = .running := List.mem_singleton.1 hstatus
        rw [wp_bind]
        refine wp_call fun v₁ hr c _ => ?_
        obtain rfl : v = v₁ := hr
        have hpost : J (v.exec (.updateRestoreJobStatus jobId .paused (some row.progress) row.errorMessage) c).2 := by
          rcases NasWorld.exec_post (w := v) (c := c)
            (o := .updateRestoreJobStatus jobId .paused (some row.progress) row.errorMessage) with hsame | hupdated
          · rwa [hsame]
          · rw [hupdated, NasWorld.attempt_update hrow]
            have hfields : row.updated .paused (some row.progress) row.errorMessage = { row with status := .paused } := by
              simp [NasRestoreJob.updated, NasRestoreJob.progress]
            rw [hfields]
            exact hJ v row hw hrow hrunning
        refine ⟨hpost, fun _ _ => ?_, fun _ _ => trivial⟩
        exact wp_mono (hlook _ hpost) (fun _ _ _ _ => trivial) fun _ _ _ _ => trivial
      · cases hcase
    · trivial
  exact cut_of_wp hpause hw cs fun _ _ => trivial

theorem pauses_keep (hJ : Lasting jobId J) {w : NasWorld} (hw : J w) (pauses : List (List NasChoice)) :
    J (servePauses jobId pauses w) := by
  induction pauses generalizing w with
  | nil => exact hw
  | cons cs pauses ih => exact ih (pause_keeps hJ hw cs)

variable {L : Type} {l : L} {hist : List NasStep} {w : NasWorld}

/-- Call rule: the call is made in a state that pauses may have reached. -/
theorem wp_between {o : NasOp} {N : o.Ans → L → NasWorld × List NasStep → Prop} {E : Exn → L → NasWorld × List NasStep → Prop}
    (hJ : Lasting jobId J) (hw : J w)
    (h : ∀ w₁ c, J w₁ →
      let x : NasStep := { pre := w, op := o, ans := (w₁.exec o c).1, post := (w₁.exec o c).2 }
      CountWritten hist x → (∀ a, (w₁.exec o c).1 = .ok a → N a l ((w₁.exec o c).2, hist ++ [x])) ∧
        ∀ e, (w₁.exec o c).1 = .error e → E e l ((w₁.exec o c).2, hist ++ [x])) :
    wp (pausingMachine jobId).recorded (.supposing CountWritten) (nasCall o) N E l (w, hist) :=
  wp_supposing fun c hA => h (servePauses jobId c.1 w) c.2 (pauses_keep hJ hw c.1) hA

/-! ### What is on file -/

section Files

variable {w₀ : NasWorld} {job₀ : NasRestoreJob} {R F : List String} {record : NasFileRecord}

/-- A record of the first run, after those named in `R` were restored and those in `F` have failed. -/
def marked (job₀ : NasRestoreJob) (R F : List String) (record : NasFileRecord) : NasFileRecord :=
  if record.id ∈ R then
    { record with
      status := .onlineCached
      cachePath := some ((PurePosixPath.ofString job₀.destination).join (.ofString record.relativePath)).toString }
  else if record.id ∈ F then { record with status := .failed }
  else record

theorem remarks_marked : Remarks (marked job₀ R F) := by
  constructor <;>
  · intro record
    unfold marked
    split
    · rfl
    · split <;> rfl

/-- The records are those of the first run, but for the restored and the failed ones. -/
structure Filed (w₀ : NasWorld) (job₀ : NasRestoreJob) (R F : List String) (w : NasWorld) : Prop where
  datasets : w.catalog.datasets = w₀.catalog.datasets
  files : w.catalog.files = Dict.mapValues (marked job₀ R F) w₀.catalog.files

theorem filed_self : Filed w₀ job₀ [] [] w₀ := by
  refine ⟨rfl, ?_⟩
  have hid : marked job₀ [] [] = id := by
    funext record
    simp [marked]
  rw [hid]
  simp [Dict.mapValues]

theorem Filed.selectedFor {w : NasWorld} {job : NasRestoreJob} (h : Filed w₀ job₀ R F w) :
    w.selectedFor job = (w₀.selectedFor job).map (marked job₀ R F) :=
  NasWorld.selectedFor_remarked remarks_marked h.datasets h.files

theorem Filed.fileState {w : NasWorld} (h : Filed w₀ job₀ R F w) (hrecord : w₀.catalog.getNasFileRecord record.id = some record) :
    w.fileState record.id = some (marked job₀ R F record).status := by
  unfold NasWorld.fileState NasCatalog.getNasFileRecord
  rw [h.files, Dict.get?_mapValues, show w₀.catalog.files.get? record.id = some record from hrecord]
  rfl

/-- Records that are not the one marked keep their marks. -/
theorem marked_of_ne {R' F' : List String} (hR : ∀ id ≠ record.id, id ∈ R' ↔ id ∈ R) (hF : ∀ id ≠ record.id, id ∈ F' ↔ id ∈ F)
    {other : NasFileRecord} (hne : other.id ≠ record.id) : marked job₀ R F other = marked job₀ R' F' other := by
  unfold marked
  simp only [hR other.id hne, hF other.id hne]

/-- Setting the record that is in work to its new mark. -/
theorem set_marked {R' F' : List String} {x y : NasFileRecord} (hrecord : w₀.catalog.getNasFileRecord record.id = some record)
    (hR : ∀ id ≠ record.id, id ∈ R' ↔ id ∈ R) (hF : ∀ id ≠ record.id, id ∈ F' ↔ id ∈ F)
    (hy : y = marked job₀ R' F' record) :
    ((Dict.mapValues (marked job₀ R F) w₀.catalog.files).set record.id x).set record.id y =
      Dict.mapValues (marked job₀ R' F') w₀.catalog.files := by
  rw [Dict.set_set, hy]
  refine Dict.set_mapValues w₀.catalog.nodupFiles hrecord fun p hp hne => marked_of_ne hR hF ?_
  rw [w₀.catalog.keyedFiles p hp]
  exact hne

end Files

/-! ### What is counted -/

/-- The fields of a job that its runs leave as they are. -/
structure SamePlan (job₀ job : NasRestoreJob) : Prop where
  paths : job.paths = job₀.paths
  poolId : job.poolId = job₀.poolId
  destination : job.destination = job₀.destination
  requiredTapes : job.requiredTapes = job₀.requiredTapes
  tapeLoadOrder : job.tapeLoadOrder = job₀.tapeLoadOrder
  parallelRestoreGroups : job.parallelRestoreGroups = job₀.parallelRestoreGroups

/-- The size of what was written for these records. -/
def bytesOf (w : NasWorld) (R : List String) : Int := (R.map w.restoredSize).sum

/-- The counters tell of `R` and `F`. -/
structure Counts (R F : List String) (bytes : Int) (job : NasRestoreJob) : Prop where
  restored : job.filesRestored = R.length
  failed : job.filesFailed = F.length
  bytes : job.bytesRestored = bytes

/-- The row of the job, while it is run or paused. -/
def Tracks (jobId : JobId) (job₀ : NasRestoreJob) (R F : List String) (bytes : Int) (w : NasWorld) : Prop :=
  ∃ row, w.catalog.getNasRestoreJob jobId = some row ∧ SamePlan job₀ row ∧ (row.status = .running ∨ row.status = .paused) ∧
    Counts R F bytes row

/-- The local counters tell of `R` and `F`. -/
structure Books (job₀ : NasRestoreJob) (R F : List String) (bytes : Int) (l : HydrationJob) : Prop where
  restored : l.filesRestored = R.length
  failed : l.filesFailed = F.length
  bytes : l.bytesRestored = bytes
  destination : l.restoreJob.destination = job₀.destination

/-- No record is in work: the records and the row of the job tell of `R` and `F`. -/
structure Between (jobId : JobId) (w₀ : NasWorld) (job₀ : NasRestoreJob) (R F : List String) (bytes : Int) (w : NasWorld) : Prop where
  filed : Filed w₀ job₀ R F w
  tracks : Tracks jobId job₀ R F bytes w
  bytes : bytesOf w R = bytes

/-- One record is in work, and stands as it may. -/
structure InWork (jobId : JobId) (w₀ : NasWorld) (job₀ : NasRestoreJob) (R F : List String) (bytes : Int) (record : NasFileRecord)
    (w : NasWorld) : Prop where
  datasets : w.catalog.datasets = w₀.catalog.datasets
  files : ∃ x, w.catalog.files = (Dict.mapValues (marked job₀ R F) w₀.catalog.files).set record.id x
  tracks : Tracks jobId job₀ R F bytes w
  bytes : bytesOf w R = bytes

/-- A record has its new mark on file, and the row does not count it yet. -/
structure Uncounted (jobId : JobId) (w₀ : NasWorld) (job₀ : NasRestoreJob) (R F R' F' : List String) (bytes : Int) (w : NasWorld) :
    Prop where
  filed : Filed w₀ job₀ R' F' w
  tracks : ∃ bytes, Tracks jobId job₀ R F bytes w
  bytes : bytesOf w R' = bytes

section Lasting

variable {w₀ : NasWorld} {job₀ : NasRestoreJob} {R F R' F' : List String} {b : Int} {record : NasFileRecord}

theorem lasting_and {J' : NasWorld → Prop} (h : Lasting jobId J) (h' : Lasting jobId J') : Lasting jobId fun w => J w ∧ J' w :=
  fun w row hw hrow hrun => ⟨h w row hw.1 hrow hrun, h' w row hw.2 hrow hrun⟩

/-- What does not look at the rows of jobs. -/
theorem lasting_of_eq (h : ∀ w row, J w → J (NasWorld.withJob w row)) : Lasting jobId J := fun w _ hw _ _ => h w _ hw

theorem lasting_filed : Lasting jobId (Filed w₀ job₀ R F) := lasting_of_eq fun _ _ h => ⟨h.datasets, h.files⟩

theorem lasting_tracks : Lasting jobId (Tracks jobId job₀ R F b) := by
  rintro w row ⟨row', hrow', hplan, -, hcounts⟩ hrow -
  obtain rfl : row' = row := Option.some.inj (hrow'.symm.trans hrow)
  refine ⟨{ row' with status := .paused }, ?_, ⟨hplan.paths, hplan.poolId, hplan.destination, hplan.requiredTapes,
    hplan.tapeLoadOrder, hplan.parallelRestoreGroups⟩, .inr rfl, ⟨hcounts.restored, hcounts.failed, hcounts.bytes⟩⟩
  have hid : row'.id = jobId := NasCatalog.id_of_getNasRestoreJob hrow
  rw [NasWorld.getNasRestoreJob_withJob, if_pos hid]

theorem lasting_between : Lasting jobId (Between jobId w₀ job₀ R F b) := fun w row h hrow hrun =>
  ⟨lasting_filed w row h.filed hrow hrun, lasting_tracks w row h.tracks hrow hrun, h.bytes⟩

theorem lasting_inWork : Lasting jobId (InWork jobId w₀ job₀ R F b record) := fun w row h hrow hrun =>
  ⟨h.datasets, h.files, lasting_tracks w row h.tracks hrow hrun, h.bytes⟩

theorem lasting_uncounted : Lasting jobId (Uncounted jobId w₀ job₀ R F R' F' b) := by
  rintro w row ⟨hfiled, ⟨bytes, htracks⟩, hbytes⟩ hrow hrun
  exact ⟨lasting_filed w row hfiled hrow hrun, ⟨bytes, lasting_tracks w row htracks hrow hrun⟩, hbytes⟩

/-- A record in work whose content is written. -/
theorem lasting_written {content : Bytes} :
    Lasting jobId fun w => InWork jobId w₀ job₀ R F b record w ∧ w.restoreDir.get? record.id = some content :=
  lasting_and lasting_inWork (lasting_of_eq fun _ _ h => h)

end Lasting

/-! ### The calls of an executor -/

section Calls

variable {w₀ : NasWorld} {job₀ : NasRestoreJob} {R F : List String} {b : Int} {record : NasFileRecord} {sha256 : Bytes → String}

/-- A look at the row. -/
theorem wp_look (hJ : Lasting jobId J) (hw : J w) :
    wp (pausingMachine jobId).recorded (.supposing CountWritten) (requireJob jobId : NasM L NasRestoreJob)
      (fun job l' s => l' = l ∧ J s.1 ∧ s.1.catalog.getNasRestoreJob jobId = some job)
      (fun exc l' s => l' = l ∧ J s.1 ∧ exc.isControlSignal = false) l (w, hist) := by
  unfold requireJob
  rw [wp_bind]
  refine wp_between hJ hw fun w₁ c hw₁ _ => ?_
  have hsame : (w₁.exec (.getRestoreJob jobId) c).2 = w₁ := NasWorld.exec_reads rfl
  rw [hsame]
  refine ⟨fun a hans => ?_, fun exc hans => ⟨rfl, hw₁, NasWorld.isControlSignal_of_exec hans⟩⟩
  have hfound := congrArg Prod.fst (NasWorld.exec_ok hans)
  cases a with
  | none => exact ⟨rfl, hw₁, rfl⟩
  | some job => exact ⟨rfl, hw₁, Except.ok.inj hfound⟩

theorem wp_checkControlState {inWork : Bool} {l : HydrationJob} (hJ : Lasting jobId J) (hw : J w) :
    wp (pausingMachine jobId).recorded (.supposing CountWritten) (checkControlState jobId inWork)
      (fun _ l' s => J s.1 ∧ ∃ job, s.1.catalog.getNasRestoreJob jobId = some job ∧
        l' = { l with restoreJob := job, status := job.status })
      (fun exc l' s => J s.1 ∧ (exc.isControlSignal = false → l' = l)) l (w, hist) := by
  unfold checkControlState
  rw [wp_bind]
  refine wp_mono (wp_look hJ hw) ?_ ?_
  · rintro job l' ⟨w', hist'⟩ ⟨rfl, hw', hrow⟩
    rw [wp_bind, wp_assign]
    split
    · exact ⟨hw', fun hexc => nomatch hexc⟩
    split
    · exact ⟨hw', fun hexc => nomatch hexc⟩
    split
    · exact ⟨hw', fun hexc => nomatch hexc⟩
    · exact ⟨hw', job, hrow, rfl⟩
  · rintro exc l' ⟨w', hist'⟩ ⟨rfl, hw', -⟩
    exact ⟨hw', fun _ => rfl⟩

/-- Calls that only read keep everything. -/
theorem stable_reads (hJ : Lasting jobId J) :
    Stable (pausingMachine jobId).recorded (.supposing CountWritten)
      (fun o => ∀ (w : NasWorld) (c : NasChoice), (w.attempt c o).2 = w) fun s => J s.1 := by
  rintro o hreads ⟨w, hist⟩ s₁ c hw rfl -
  refine ⟨trivial, ?_⟩
  show J ((servePauses jobId c.1 w).exec o c.2).2
  rw [NasWorld.exec_reads (hreads _ _)]
  exact pauses_keep hJ hw c.1

theorem reads_simulateContent (record : NasFileRecord) :
    Reads (fun o => ∀ (w : NasWorld) (c : NasChoice), (w.attempt c o).2 = w) (simulateContent record : NasM L Bytes) := by
  have hread : Reads (fun o => ∀ (w : NasWorld) (c : NasChoice), (w.attempt c o).2 = w)
      (readArchivedBytes record : NasM L (Option Bytes)) := by
    unfold readArchivedBytes
    split
    · exact only_pure none
    · refine only_ite (fun _ => only_pure none) fun _ => only_bind (only_perform fun _ _ => rfl) fun dataset => ?_
      split
      · exact only_pure none
      · refine only_handle (only_bind (only_perform ?_) fun bytes => only_pure (some bytes)) fun _ => only_pure none
        intro w c
        simp only [NasWorld.attempt]
        split <;> rfl
  refine only_bind hread fun content => ?_
  split
  · exact only_pure _
  · exact only_pure _

/-- What is written for a record that is not named changes no size that counts. -/
theorem bytesOf_set {content : Bytes} (h : record.id ∉ R) :
    bytesOf { w with restoreDir := w.restoreDir.set record.id content } R = bytesOf w R := by
  unfold bytesOf
  refine congrArg List.sum (List.map_congr_left fun id hid => ?_)
  have hne : record.id ≠ id := fun heq => h (heq ▸ hid)
  unfold NasWorld.restoredSize
  dsimp only
  rw [Dict.get?_set, if_neg hne]

/-- The content of a record in work is written, or it is not. -/
theorem wp_materializeContent (hnot : record.id ∉ R) {inWork : NasFileRecord} (hid : inWork.id = record.id)
    (hw : InWork jobId w₀ job₀ R F b record w) :
    wp (pausingMachine jobId).recorded (.supposing CountWritten) (materializeContent sha256 inWork : NasM L Bytes)
      (fun content l' s => l' = l ∧ InWork jobId w₀ job₀ R F b record s.1 ∧ s.1.restoreDir.get? record.id = some content)
      (fun _ l' s => l' = l ∧ InWork jobId w₀ job₀ R F b record s.1) l (w, hist) := by
  unfold materializeContent
  rw [wp_bind]
  refine wp_mono ((reads_simulateContent inWork).keeps (stable_reads lasting_inWork) hw) ?_ ?_
  · rintro content _ ⟨w', hist'⟩ ⟨rfl, hw'⟩
    rw [wp_bind, wp_ofExcept]
    cases verifyRestoredIntegrity sha256 inWork content with
    | error exc => exact ⟨rfl, hw'⟩
    | ok _ =>
      dsimp only
      rw [hid]
      refine (wp_bind (nasCall (.writeRestored record.id content)) fun _ => pure content).2 ?_
      have hwritten : ∀ w₁, InWork jobId w₀ job₀ R F b record w₁ →
          InWork jobId w₀ job₀ R F b record { w₁ with restoreDir := w₁.restoreDir.set record.id content } := by
        intro w₁ h
        refine ⟨h.datasets, h.files, h.tracks, ?_⟩
        rw [bytesOf_set hnot]
        exact h.bytes
      refine wp_between lasting_inWork hw' fun w₁ c hw₁ _ => ⟨fun a hans => ?_, fun exc _ => ⟨rfl, ?_⟩⟩
      · have hpost := congrArg Prod.snd (NasWorld.exec_ok hans)
        dsimp only at hpost
        rw [← hpost]
        refine ⟨rfl, hwritten w₁ hw₁, ?_⟩
        show Dict.get? (w₁.restoreDir.set record.id content) record.id = some content
        rw [Dict.get?_set, if_pos rfl]
      · rcases NasWorld.exec_post (w := w₁) (c := c) (o := .writeRestored record.id content) with hpost | hpost
        · rwa [hpost]
        · rw [hpost]
          exact hwritten w₁ hw₁
  · rintro exc _ ⟨w', hist'⟩ ⟨rfl, hw'⟩
    exact ⟨rfl, hw'⟩

/-- The executor's counters are written: the record is counted. -/
theorem between_of_update {l : HydrationJob} {R' F' : List String} {errorMessage : Option String}
    (h : Uncounted jobId w₀ job₀ R F R' F' b w) (hl : Books job₀ R' F' b l) {c : NasChoice} {a : Bool} {w' : NasWorld}
    (hattempt : w.attempt c (.updateRestoreJobStatus jobId .running (some (l.progress false)) errorMessage) = (.ok a, w')) :
    Between jobId w₀ job₀ R' F' b w' := by
  obtain ⟨hfiled, ⟨_, row, hrow, hplan, -, -⟩, hbytes⟩ := h
  rw [NasWorld.attempt_update hrow] at hattempt
  obtain rfl := congrArg Prod.snd hattempt
  exact ⟨⟨hfiled.datasets, hfiled.files⟩, ⟨_, NasWorld.getNasRestoreJob_updated hrow _ _ _, ⟨hplan.paths, hplan.poolId,
    hplan.destination, hplan.requiredTapes, hplan.tapeLoadOrder, hplan.parallelRestoreGroups⟩, .inl rfl,
    ⟨hl.restored, hl.failed, hl.bytes⟩⟩, hbytes⟩

theorem bytesOf_concat {content : Bytes} (h : w.restoreDir.get? record.id = some content) :
    bytesOf w (R ++ [record.id]) = bytesOf w R + content.length := by
  unfold bytesOf
  rw [List.map_append, List.sum_append]
  simp [NasWorld.restoredSize, h]

/-- The world with another record on file. -/
abbrev withFile (w : NasWorld) (x : NasFileRecord) : NasWorld := { w with catalog := w.catalog.upsertNasFileRecord x }

/-- A record is saved, or it may not be. -/
theorem wp_saveRecord {x : NasFileRecord} (hJ : Lasting jobId J) (hw : J w) :
    wp (pausingMachine jobId).recorded (.supposing CountWritten) (nasCall (.upsertFileRecord x) : NasM L NasFileRecord)
      (fun saved l' s => l' = l ∧ saved = x ∧ ∃ w₁, J w₁ ∧ s.1 = withFile w₁ x)
      (fun exc l' s => l' = l ∧ exc.isControlSignal = false ∧ ∃ w₁, J w₁ ∧ (s.1 = w₁ ∨ s.1 = withFile w₁ x)) l (w, hist) := by
  refine wp_between hJ hw fun w₁ c hw₁ _ => ⟨fun saved hans => ?_, fun exc hans => ?_⟩
  · obtain ⟨hsaved, hpost⟩ := Prod.mk.inj (NasWorld.exec_ok hans)
    exact ⟨rfl, (Except.ok.inj hsaved).symm, w₁, hw₁, hpost.symm⟩
  · exact ⟨rfl, NasWorld.isControlSignal_of_exec hans, w₁, hw₁, NasWorld.exec_post⟩

/-- A record that is saved while it is in work stays in work. -/
theorem InWork.upsert {w₁ : NasWorld} (h : InWork jobId w₀ job₀ R F b record w₁) {x : NasFileRecord} (hx : x.id = record.id) :
    InWork jobId w₀ job₀ R F b record (withFile w₁ x) := by
  obtain ⟨y, hy⟩ := h.files
  refine ⟨h.datasets, ⟨x, ?_⟩, h.tracks, h.bytes⟩
  show w₁.catalog.files.set x.id x = _
  rw [hy, hx, Dict.set_set]

/-- A record in work is saved with its new mark. -/
theorem InWork.mark {w₁ : NasWorld} (h : InWork jobId w₀ job₀ R F b record w₁) {x : NasFileRecord} (hx : x.id = record.id)
    (hrecord : w₀.catalog.getNasFileRecord record.id = some record) {R' F' : List String}
    (hR : ∀ id ≠ record.id, id ∈ R' ↔ id ∈ R) (hF : ∀ id ≠ record.id, id ∈ F' ↔ id ∈ F) (hmark : x = marked job₀ R' F' record) :
    Filed w₀ job₀ R' F' (withFile w₁ x) := by
  obtain ⟨y, hy⟩ := h.files
  refine ⟨h.datasets, ?_⟩
  show w₁.catalog.files.set x.id x = _
  rw [hy, hx]
  exact set_marked hrecord hR hF hmark

/-- What a run remembers under other paths is as it was. -/
def ElseAs (path : String) (l l' : HydrationJob) : Prop := ∀ p ≠ path, l'.recordsByPath.get? p = l.recordsByPath.get? p

theorem elseAs_set {l : HydrationJob} {path : String} {x : NasFileRecord} :
    ElseAs path l { l with recordsByPath := l.recordsByPath.set path x } := by
  intro p hp
  dsimp only
  rw [Dict.get?_set, if_neg (Ne.symm hp)]

theorem Tracks.destination {row : NasRestoreJob} (h : Tracks jobId job₀ R F b w) (hrow : w.catalog.getNasRestoreJob jobId = some row) :
    row.destination = job₀.destination := by
  obtain ⟨row', hrow', hplan, -⟩ := h
  rw [hrow] at hrow'
  rw [Option.some.inj hrow']
  exact hplan.destination

/-- A record whose content is at hand is restored and counted. -/
theorem wp_countRestored {path : String} {content : Bytes} {l : HydrationJob}
    (hrecord : w₀.catalog.getNasFileRecord record.id = some record) (hw : InWork jobId w₀ job₀ R F b record w)
    (hcontent : w.restoreDir.get? record.id = some content) (hl : Books job₀ R F b l) :
    wp (pausingMachine jobId).recorded (.supposing CountWritten) (countRestored jobId path { record with status := .hydrating } content)
      (fun _ l' s => Between jobId w₀ job₀ (R ++ [record.id]) F (b + content.length) s.1 ∧
        Books job₀ (R ++ [record.id]) F (b + content.length) l' ∧ ElseAs path l l')
      (fun _ l' s => l' = l ∧ InWork jobId w₀ job₀ R F b record s.1) l (w, hist) := by
  unfold countRestored
  rw [wp_bind, wp_locals, wp_bind]
  refine wp_mono (wp_saveRecord lasting_written ⟨hw, hcontent⟩) ?_ ?_
  · rintro _ l₁ ⟨_, hist₁⟩ ⟨rfl, rfl, w₁, ⟨hw₁, hcontent₁⟩, rfl⟩
    have hbytes : bytesOf w₁ (R ++ [record.id]) = b + content.length := (bytesOf_concat hcontent₁).trans (by rw [hw₁.bytes])
    rw [wp_bind, wp_assign, wp_bind, wp_locals, wp_bind]
    have hbooks : Books job₀ (R ++ [record.id]) F (b + content.length)
        { l₁ with filesRestored := l₁.filesRestored + 1, bytesRestored := l₁.bytesRestored + content.length } := by
      refine ⟨?_, hl.failed, ?_, hl.destination⟩
      · simp [hl.restored]
      · simp [hl.bytes]
    have hlasting : Lasting jobId (Uncounted jobId w₀ job₀ R F (R ++ [record.id]) F (b + content.length)) := lasting_uncounted
    refine wp_between hlasting ⟨hw₁.mark ?_ hrecord ?_ (fun _ _ => Iff.rfl) ?_, ⟨b, hw₁.tracks⟩, hbytes⟩
      fun w₂ c hw₂ hA => ⟨fun found hans => ?_, fun exc hans => ?_⟩
    · rfl
    · exact fun id hne => by simp [hne]
    · unfold marked
      rw [if_pos (by simp), hl.destination]
    · have hbetween := between_of_update hw₂ hbooks (NasWorld.exec_ok hans)
      generalize (w₂.exec _ c).2 = w₃ at hbetween ⊢
      rw [wp_bind]
      unfold requireJob
      rw [wp_bind]
      refine wp_between lasting_between hbetween fun w₄ c hw₄ hA => ?_
      have hfinds := hA.seen _ (List.getLast?_concat ..) rfl
      have hsame : (w₄.exec (.getRestoreJob jobId) c).2 = w₄ := NasWorld.exec_reads rfl
      dsimp only at hfinds
      refine ⟨fun a hans => ?_, fun exc hans => ?_⟩
      · rw [hans] at hfinds
        rw [hsame]
        cases a with
        | none => exact hfinds.elim
        | some job =>
          have hrow : w₄.catalog.getNasRestoreJob jobId = some job := Except.ok.inj (congrArg Prod.fst (NasWorld.exec_ok hans))
          refine ⟨hw₄, ⟨hbooks.restored, hbooks.failed, hbooks.bytes, hw₄.tracks.destination hrow⟩, ?_⟩
          exact elseAs_set
      · rw [hans] at hfinds
        exact hfinds.elim
    · obtain ⟨a, ha⟩ := hA.written rfl
      dsimp only at ha
      rw [hans] at ha
      cases ha
  · rintro exc l₁ ⟨_, hist₁⟩ ⟨rfl, -, w₁, ⟨hw₁, -⟩, rfl | rfl⟩
    · exact ⟨rfl, hw₁⟩
    · exact ⟨rfl, hw₁.upsert rfl⟩

/-- A record that failed is put down as failed and counted. -/
theorem wp_countFailed {exc : Exn} {l : HydrationJob} (hrecord : w₀.catalog.getNasFileRecord record.id = some record)
    (hnot : record.id ∉ R) (hw : InWork jobId w₀ job₀ R F b record w) (hl : Books job₀ R F b l) :
    wp (pausingMachine jobId).recorded (.supposing CountWritten) (countFailed jobId { record with status := .hydrating } exc)
      (fun _ l' s => Between jobId w₀ job₀ R (F ++ [record.id]) b s.1 ∧ Books job₀ R (F ++ [record.id]) b l' ∧
        l'.recordsByPath = l.recordsByPath)
      (fun exc' _ _ => exc'.isControlSignal = false) l (w, hist) := by
  unfold countFailed
  rw [wp_bind]
  refine wp_mono (wp_saveRecord lasting_inWork hw) ?_ fun _ _ _ h => h.2.1
  rintro _ l₁ ⟨_, hist₁⟩ ⟨rfl, rfl, w₁, hw₁, rfl⟩
  rw [wp_bind, wp_assign, wp_bind, wp_locals, wp_bind]
  have hbooks : ∀ errors, Books job₀ R (F ++ [record.id]) b { l₁ with filesFailed := l₁.filesFailed + 1, errors := errors } :=
    fun errors => ⟨hl.restored, by simp [hl.failed], hl.bytes, hl.destination⟩
  have hlasting : Lasting jobId (Uncounted jobId w₀ job₀ R F R (F ++ [record.id]) b) := lasting_uncounted
  refine wp_between hlasting ⟨hw₁.mark ?_ hrecord (fun _ _ => Iff.rfl) ?_ ?_, ⟨b, hw₁.tracks⟩, hw₁.bytes⟩
    fun w₂ c hw₂ _ => ⟨fun found hans => ?_, fun exc' hans => NasWorld.isControlSignal_of_exec hans⟩
  · rfl
  · exact fun id hne => by simp [hne]
  · unfold marked
    rw [if_neg hnot, if_pos (by simp)]
  have hbetween := between_of_update hw₂ (hbooks _) (NasWorld.exec_ok hans)
  generalize (w₂.exec _ c).2 = w₃ at hbetween ⊢
  rw [wp_bind]
  refine wp_mono (wp_look lasting_between hbetween) ?_ fun _ _ _ h => h.2.2
  rintro job l₂ ⟨w₄, hist₄⟩ ⟨rfl, hw₄, hrow⟩
  exact ⟨hw₄, ⟨hl.restored, by simp [hl.failed], hl.bytes, hw₄.tracks.destination hrow⟩, rfl⟩

/-- What a look changes is not in the books. -/
theorem Books.look {l : HydrationJob} {job : NasRestoreJob} {status : RestoreJobStatus} (h : Books job₀ R F b l)
    (hjob : job.destination = job₀.destination) : Books job₀ R F b { l with restoreJob := job, status := status } :=
  ⟨h.restored, h.failed, h.bytes, hjob⟩

theorem wp_restoreRecord {path : String} {l : HydrationJob} (hrecord : w₀.catalog.getNasFileRecord record.id = some record)
    (hnot : record.id ∉ R) (hw : InWork jobId w₀ job₀ R F b record w) (hl : Books job₀ R F b l) :
    wp (pausingMachine jobId).recorded (.supposing CountWritten)
      (restoreRecord sha256 jobId path { record with status := .hydrating })
      (fun _ l' s => ∃ b', Between jobId w₀ job₀ (R ++ [record.id]) F b' s.1 ∧ Books job₀ (R ++ [record.id]) F b' l' ∧ ElseAs path l l')
      (fun exc l' s => InWork jobId w₀ job₀ R F b record s.1 ∧
        (exc.isControlSignal = false → Books job₀ R F b l' ∧ l'.recordsByPath = l.recordsByPath)) l (w, hist) := by
  unfold restoreRecord
  rw [wp_bind]
  refine wp_mono (wp_checkControlState lasting_inWork hw) ?_ ?_
  · rintro _ _ ⟨w₁, hist₁⟩ ⟨hw₁, job₁, hrow₁, rfl⟩
    have hl₁ : Books job₀ R F b { l with restoreJob := job₁, status := job₁.status } := hl.look (hw₁.tracks.destination hrow₁)
    rw [wp_bind]
    refine wp_mono (wp_materializeContent hnot rfl hw₁) ?_ ?_
    · rintro content _ ⟨w₂, hist₂⟩ ⟨rfl, hw₂, hcontent⟩
      rw [wp_bind]
      refine wp_mono (wp_checkControlState lasting_written ⟨hw₂, hcontent⟩) ?_ ?_
      · rintro _ _ ⟨w₃, hist₃⟩ ⟨⟨hw₃, hcontent₃⟩, job₃, hrow₃, rfl⟩
        refine wp_mono (wp_countRestored hrecord hw₃ hcontent₃ (hl₁.look (hw₃.tracks.destination hrow₃))) ?_ ?_
        · rintro _ l₄ s₄ ⟨hbetween, hbooks, helse⟩
          exact ⟨_, hbetween, hbooks, helse⟩
        · rintro exc l₄ s₄ ⟨rfl, hw₄⟩
          exact ⟨hw₄, fun _ => ⟨hl₁.look (hw₃.tracks.destination hrow₃), rfl⟩⟩
      · rintro exc l₃ ⟨w₃, hist₃⟩ ⟨⟨hw₃, -⟩, hsame⟩
        refine ⟨hw₃, fun hexc => ?_⟩
        rw [hsame hexc]
        exact ⟨hl₁, rfl⟩
    · rintro exc _ ⟨w₂, hist₂⟩ ⟨rfl, hw₂⟩
      exact ⟨hw₂, fun _ => ⟨hl₁, rfl⟩⟩
  · rintro exc l₁ ⟨w₁, hist₁⟩ ⟨hw₁, hsame⟩
    refine ⟨hw₁, fun hexc => ?_⟩
    rw [hsame hexc]
    exact ⟨hl, rfl⟩

/-- A record is restored or has failed, and is counted once; or a signal leaves it as it was. -/
theorem wp_hydrateRecord {path : String} {l : HydrationJob} (hrecord : w₀.catalog.getNasFileRecord record.id = some record)
    (hR : record.id ∉ R) (hF : record.id ∉ F) (hw : Between jobId w₀ job₀ R F b w) (hl : Books job₀ R F b l) :
    wp (pausingMachine jobId).recorded (.supposing CountWritten) (hydrateRecord sha256 jobId path record)
      (fun _ l' s => ∃ R' F' b', (R' = R ++ [record.id] ∧ F' = F ∨ R' = R ∧ F' = F ++ [record.id]) ∧
        Between jobId w₀ job₀ R' F' b' s.1 ∧ Books job₀ R' F' b' l' ∧ ElseAs path l l')
      (fun exc _ s => exc.isControlSignal = true → Between jobId w₀ job₀ R F b s.1) l (w, hist) := by
  have hmark : record = marked job₀ R F record := by
    unfold marked
    rw [if_neg hR, if_neg hF]
  unfold hydrateRecord setFileStatus
  rw [wp_bind, wp_bind]
  refine wp_mono (wp_saveRecord lasting_between hw) ?_ ?_
  · rintro _ l₁ ⟨_, hist₁⟩ ⟨rfl, rfl, w₁, hw₁, rfl⟩
    rw [wp_bind, wp_assign, wp_pure, wp_handle]
    have hwork : InWork jobId w₀ job₀ R F b record (withFile w₁ { record with status := .hydrating }) := by
      refine ⟨hw₁.filed.datasets, ⟨{ record with status := .hydrating }, ?_⟩, hw₁.tracks, hw₁.bytes⟩
      show w₁.catalog.files.set record.id _ = _
      rw [hw₁.filed.files]
    refine wp_mono (wp_restoreRecord hrecord hR hwork ⟨hl.restored, hl.failed, hl.bytes, hl.destination⟩) ?_ ?_
    · rintro _ l₂ s₂ ⟨b', hbetween, hbooks, helse⟩
      refine ⟨_, _, b', .inl ⟨rfl, rfl⟩, hbetween, hbooks, fun p hp => ?_⟩
      rw [helse p hp]
      exact elseAs_set p hp
    · rintro exc l₂ ⟨w₂, hist₂⟩ ⟨hw₂, hkept⟩
      cases hexc : exc.isControlSignal with
      | true =>
        -- the record is put back as it was
        rw [if_pos rfl, wp_bind, wp_bind]
        refine wp_mono (wp_saveRecord lasting_inWork hw₂) ?_ ?_
        · rintro _ l₃ ⟨_, hist₃⟩ ⟨rfl, rfl, w₃, hw₃, rfl⟩
          intro _
          refine ⟨hw₃.mark ?_ hrecord (fun _ _ => Iff.rfl) (fun _ _ => Iff.rfl) hmark, hw₃.tracks, hw₃.bytes⟩
          rfl
        · rintro exc' l₃ s₃ ⟨-, hexc', -⟩ hsignal
          rw [hexc'] at hsignal
          cases hsignal
      | false =>
        obtain ⟨hbooks, hpaths⟩ := hkept hexc
        refine wp_mono (wp_countFailed hrecord hR hw₂ hbooks) ?_ ?_
        · rintro _ l₃ s₃ ⟨hbetween, hbooks', hpaths'⟩
          refine ⟨_, _, b, .inr ⟨rfl, rfl⟩, hbetween, hbooks', fun p hp => ?_⟩
          rw [hpaths', hpaths]
          exact elseAs_set p hp
        · rintro exc' l₃ s₃ hexc' hsignal
          rw [hexc'] at hsignal
          cases hsignal
  · rintro exc l₁ s₁ ⟨-, hexc, -⟩ hsignal
    rw [hexc] at hsignal
    cases hsignal

end Calls

/-! ### The records a run goes through -/

section Runs

variable {w₀ : NasWorld} {job₀ : NasRestoreJob} {R₀ visited R F : List String} {sha256 : Bytes → String}

/-- The records of a run by their paths, when those named in `R₀` had been restored before. -/
def remembered (w₀ : NasWorld) (job₀ : NasRestoreJob) (R₀ : List String) : Dict String NasFileRecord :=
  Dict.ofPairs (((w₀.selectedFor job₀).map (marked job₀ R₀ [])).map fun record => (record.path, record))

theorem of_remembered {path : String} {x : NasFileRecord} (h : (remembered w₀ job₀ R₀).get? path = some x) :
    ∃ record ∈ w₀.selectedFor job₀, x = marked job₀ R₀ [] record ∧ record.path = path := by
  have hmem := Dict.mem_of_mem_ofPairs (Dict.mem_of_get? h)
  obtain ⟨y, hy, hpair⟩ := List.mem_map.1 hmem
  obtain ⟨record, hrecord, rfl⟩ := List.mem_map.1 hy
  obtain ⟨hpath, rfl⟩ := Prod.mk.inj hpair
  refine ⟨record, hrecord, rfl, ?_⟩
  rw [← hpath, remarks_marked.path]

theorem isSome_remembered {record : NasFileRecord} (h : record ∈ w₀.selectedFor job₀) :
    ((remembered w₀ job₀ R₀).get? record.path).isSome := by
  have hpair : ((marked job₀ R₀ [] record).path, marked job₀ R₀ [] record) ∈
      ((w₀.selectedFor job₀).map (marked job₀ R₀ [])).map fun record => (record.path, record) :=
    List.mem_map_of_mem (List.mem_map_of_mem h)
  have hkey := List.mem_map_of_mem (f := Prod.fst) hpair
  have hfound := Dict.isSome_get?_ofPairs hkey
  dsimp only at hfound
  unfold remembered
  rw [remarks_marked.path] at hfound
  exact hfound

theorem mem_pendingFor {record : NasFileRecord} :
    record ∈ w₀.pendingFor job₀ ↔ record ∈ w₀.selectedFor job₀ ∧ record.status ≠ .onlineCached := by
  unfold NasWorld.pendingFor
  rw [List.mem_filter, decide_eq_true_iff]

theorem eq_of_id {a b : NasFileRecord} (ha : a ∈ w₀.selectedFor job₀) (hb : b ∈ w₀.selectedFor job₀) (h : a.id = b.id) : a = b :=
  List.inj_on_of_nodup_map NasWorld.nodup_ids_selectedFor ha hb h

/-- What a run that began with `R₀` restored has done by the time it has visited these paths. -/
structure Ledger (w₀ : NasWorld) (job₀ : NasRestoreJob) (R₀ visited R F : List String) : Prop where
  nodup : (R ++ F).Nodup
  pending : ∀ id ∈ R ++ F, ∃ record ∈ w₀.pendingFor job₀, record.id = id
  origin : ∀ id ∈ R ++ F, id ∈ R₀ ∨ ∃ record ∈ w₀.selectedFor job₀, record.id = id ∧ record.path ∈ visited
  covers : ∀ record ∈ w₀.pendingFor job₀, record.path ∈ visited → record.id ∈ R ++ F
  kept : R₀ ⊆ R

/-- A path whose record is done. -/
theorem Ledger.skip {path : String} (h : Ledger w₀ job₀ R₀ visited R F)
    (hdone : ∀ record ∈ w₀.pendingFor job₀, record.path = path → record.id ∈ R₀) : Ledger w₀ job₀ R₀ (visited ++ [path]) R F := by
  refine ⟨h.nodup, h.pending, fun id hid => ?_, fun record hrecord hvisited => ?_, h.kept⟩
  · refine (h.origin id hid).imp_right ?_
    rintro ⟨record, hrecord, hid, hpath⟩
    exact ⟨record, hrecord, hid, List.mem_append_left _ hpath⟩
  · rcases List.mem_append.1 hvisited with hold | hnew
    · exact h.covers record hrecord hold
    · exact List.mem_append_left _ (h.kept (hdone record hrecord (List.mem_singleton.1 hnew)))

/-- A path whose record was in work. -/
theorem Ledger.visit {record : NasFileRecord} {R' F' : List String} (h : Ledger w₀ job₀ R₀ visited R F)
    (hrecord : record ∈ w₀.pendingFor job₀) (hunique : ∀ other ∈ w₀.selectedFor job₀, other.path = record.path → other = record)
    (hnot : record.id ∉ R ++ F) (hcase : R' = R ++ [record.id] ∧ F' = F ∨ R' = R ∧ F' = F ++ [record.id]) :
    Ledger w₀ job₀ R₀ (visited ++ [record.path]) R' F' := by
  have hperm : (R' ++ F').Perm (record.id :: (R ++ F)) := by
    rcases hcase with ⟨rfl, rfl⟩ | ⟨rfl, rfl⟩
    · rw [List.append_assoc]
      exact List.perm_middle
    · rw [← List.append_assoc]
      exact List.perm_append_comm
  have hmem : ∀ id, id ∈ R' ++ F' ↔ id = record.id ∨ id ∈ R ++ F := fun id => by
    rw [hperm.mem_iff, List.mem_cons]
  refine ⟨hperm.nodup_iff.2 (List.nodup_cons.2 ⟨hnot, h.nodup⟩), fun id hid => ?_, fun id hid => ?_, fun other hother hvisited => ?_, ?_⟩
  · rcases (hmem id).1 hid with rfl | hid
    · exact ⟨record, hrecord, rfl⟩
    · exact h.pending id hid
  · rcases (hmem id).1 hid with rfl | hid
    · exact .inr ⟨record, (mem_pendingFor.1 hrecord).1, rfl, by simp⟩
    · refine (h.origin id hid).imp_right ?_
      rintro ⟨other, hother, hid, hpath⟩
      exact ⟨other, hother, hid, List.mem_append_left _ hpath⟩
  · rw [hmem]
    rcases List.mem_append.1 hvisited with hold | hnew
    · exact .inr (h.covers other hother hold)
    · left
      rw [hunique other (mem_pendingFor.1 hother).1 (List.mem_singleton.1 hnew)]
  · rcases hcase with ⟨rfl, -⟩ | ⟨rfl, -⟩
    · exact fun id hid => List.mem_append_left _ (h.kept hid)
    · exact h.kept

/-- A run remembers the records whose paths it has not visited, and the cached ones, as it read them. -/
def Remembers (w₀ : NasWorld) (job₀ : NasRestoreJob) (R₀ visited : List String) (l : HydrationJob) : Prop :=
  ∀ path, (path ∉ visited ∨ ∀ x, (remembered w₀ job₀ R₀).get? path = some x → x.status = .onlineCached) →
    l.recordsByPath.get? path = (remembered w₀ job₀ R₀).get? path

/-- A run between two records. -/
def Standing (jobId : JobId) (w₀ : NasWorld) (job₀ : NasRestoreJob) (R₀ visited : List String) (l : HydrationJob) (w : NasWorld) : Prop :=
  ∃ R F b, Between jobId w₀ job₀ R F b w ∧ Books job₀ R F b l ∧ Remembers w₀ job₀ R₀ visited l ∧ Ledger w₀ job₀ R₀ visited R F

/-- A run that was stopped. -/
def Stopped (jobId : JobId) (w₀ : NasWorld) (job₀ : NasRestoreJob) (R₀ : List String) (w : NasWorld) : Prop :=
  ∃ visited R F b, Between jobId w₀ job₀ R F b w ∧ Ledger w₀ job₀ R₀ visited R F

theorem Standing.stopped {l : HydrationJob} (h : Standing jobId w₀ job₀ R₀ visited l w) : Stopped jobId w₀ job₀ R₀ w := by
  obtain ⟨R, F, b, hbetween, -, -, hledger⟩ := h
  exact ⟨visited, R, F, b, hbetween, hledger⟩

/-- One path of a batch. -/
theorem wp_hydratePath {path : String} {l : HydrationJob} (hnormal : normalizeRestorePath path = path)
    (hunique : ∀ record ∈ w₀.pendingFor job₀, ∀ other ∈ w₀.selectedFor job₀, other.path = record.path → other = record)
    (hfresh : ∀ record ∈ w₀.pendingFor job₀, record.path = path → path ∉ visited)
    (h : Standing jobId w₀ job₀ R₀ visited l w) :
    wp (pausingMachine jobId).recorded (.supposing CountWritten) (hydratePath sha256 jobId path)
      (fun _ l' s => Standing jobId w₀ job₀ R₀ (visited ++ [path]) l' s.1)
      (fun exc _ s => exc.isControlSignal = true → Stopped jobId w₀ job₀ R₀ s.1) l (w, hist) := by
  obtain ⟨R, F, b, hbetween, hbooks, hremembers, hledger⟩ := h
  have hlater : ∀ l' : HydrationJob, ElseAs path l l' → (∃ x, (remembered w₀ job₀ R₀).get? path = some x ∧ x.status ≠ .onlineCached) →
      Remembers w₀ job₀ R₀ (visited ++ [path]) l' := by
    rintro l' helse ⟨x, hx, hstatus⟩ p hp
    have hne : p ≠ path := by
      rintro rfl
      rcases hp with hp | hp
      · simp at hp
      · exact hstatus (hp x hx)
    rw [helse p hne]
    exact hremembers p (hp.imp_left fun hnot hmem => hnot (List.mem_append_left _ hmem))
  unfold hydratePath
  dsimp only
  rw [hnormal, wp_bind, wp_locals]
  by_cases hopen : ∃ x, (remembered w₀ job₀ R₀).get? path = some x ∧ x.status ≠ .onlineCached
  · obtain ⟨x, hx, hstatus⟩ := hopen
    obtain ⟨record, hrecord, rfl, rfl⟩ := of_remembered hx
    have hR₀ : record.id ∉ R₀ := by
      intro hmem
      unfold marked at hstatus
      rw [if_pos hmem] at hstatus
      exact hstatus rfl
    have hmarked : marked job₀ R₀ [] record = record := by
      unfold marked
      rw [if_neg hR₀, if_neg List.not_mem_nil]
    rw [hmarked] at hx hstatus
    have hpending : record ∈ w₀.pendingFor job₀ := mem_pendingFor.2 ⟨hrecord, hstatus⟩
    have hnot : record.id ∉ R ++ F := by
      intro hmem
      rcases hledger.origin _ hmem with hmem | ⟨other, hother, hid, hpath⟩
      · exact hR₀ hmem
      · rw [eq_of_id hother hrecord hid] at hpath
        exact hfresh record hpending rfl hpath
    have hget : l.recordsByPath.get? record.path = some record := (hremembers _ (.inl (hfresh record hpending rfl))).trans hx
    rw [hget]
    dsimp only
    rw [if_neg hstatus]
    refine wp_mono (wp_hydrateRecord (NasWorld.getNasFileRecord_of_selected hrecord) (fun hmem => hnot (List.mem_append_left _ hmem))
      (fun hmem => hnot (List.mem_append_right _ hmem)) hbetween hbooks) ?_ ?_
    · rintro _ l₁ s₁ ⟨R', F', b', hcase, hbetween', hbooks', helse⟩
      exact ⟨R', F', b', hbetween', hbooks', hlater l₁ helse ⟨record, hx, hstatus⟩,
        hledger.visit hpending (hunique record hpending) hnot hcase⟩
    · intro exc l₁ s₁ hsignal hexc
      exact ⟨visited, R, F, b, hsignal hexc, hledger⟩
  · -- no record, or one that is cached
    have hcached : ∀ x, (remembered w₀ job₀ R₀).get? path = some x → x.status = .onlineCached := fun x hx =>
      not_not.1 fun hne => hopen ⟨x, hx, hne⟩
    have hdone : ∀ record ∈ w₀.pendingFor job₀, record.path = path → record.id ∈ R₀ := by
      rintro record hrecord rfl
      have hsome : ((remembered w₀ job₀ R₀).get? record.path).isSome := isSome_remembered (mem_pendingFor.1 hrecord).1
      obtain ⟨x, hx⟩ := Option.isSome_iff_exists.1 hsome
      obtain ⟨other, hother, rfl, hpath⟩ := of_remembered hx
      obtain rfl := hunique record hrecord other hother hpath
      by_contra hnot
      have hstatus := hcached _ hx
      unfold marked at hstatus
      rw [if_neg hnot, if_neg List.not_mem_nil] at hstatus
      exact (mem_pendingFor.1 hrecord).2 hstatus
    have hstanding : Standing jobId w₀ job₀ R₀ (visited ++ [path]) l w := by
      refine ⟨R, F, b, hbetween, hbooks, fun p hp => hremembers p ?_, hledger.skip hdone⟩
      exact hp.imp_left fun hnot hmem => hnot (List.mem_append_left _ hmem)
    rw [hremembers path (.inr hcached)]
    cases hx : (remembered w₀ job₀ R₀).get? path with
    | none => exact hstanding
    | some x =>
      dsimp only
      rw [if_pos (hcached x hx)]
      exact hstanding

/-- What a planned tape holds of the selected records. -/
def batchOf (w₀ : NasWorld) (job₀ : NasRestoreJob) (barcode : Barcode) : List String :=
  ((w₀.selectedFor job₀).filter fun record => record.tapeBarcode = some barcode).map NasFileRecord.path

theorem normal_of_batch {barcode : Barcode} {path : String} (h : path ∈ batchOf w₀ job₀ barcode) : normalizeRestorePath path = path := by
  obtain ⟨record, -, rfl⟩ := List.mem_map.1 h
  exact normalizeRestorePath_idem _

theorem plannedPaths_eq : job₀.plannedPaths (w₀.selectedFor job₀) = job₀.plannedTapes.flatMap (batchOf w₀ job₀) := rfl

/-- Every run plans the batches of the first. -/
theorem batch_of_run (job : NasRestoreJob) (barcode : Barcode) :
    ((job.planFromJob ((w₀.selectedFor job₀).map (marked job₀ R₀ []))).batchesByTape.get? barcode).getD [] = batchOf w₀ job₀ barcode := by
  rw [NasRestoreJob.batch_planFromJob, List.filter_map, List.map_map]
  have hfilter : ((fun record : NasFileRecord => decide (record.tapeBarcode = some barcode)) ∘ marked job₀ R₀ []) =
      fun record => decide (record.tapeBarcode = some barcode) := by
    funext record
    rw [Function.comp_apply, remarks_marked.tapeBarcode]
  have hpath : NasFileRecord.path ∘ marked job₀ R₀ [] = NasFileRecord.path := by
    funext record
    rw [Function.comp_apply, remarks_marked.path]
  rw [hfilter, hpath]
  rfl

theorem groups_of_run {job : NasRestoreJob} (h : SamePlan job₀ job) (records : List NasFileRecord) :
    (job.planFromJob records).groups.flatten = job₀.plannedTapes := by
  unfold NasRestoreJob.plannedTapes RestorePlan.groups NasRestoreJob.planFromJob NasRestoreJob.orderedGroups
  rw [h.parallelRestoreGroups, h.tapeLoadOrder]

/-- A record that is planned once has its path in one place. -/
theorem fresh_of_count {path : String} {before after : List String}
    (hcount : ∀ record ∈ w₀.pendingFor job₀, (job₀.plannedPaths (w₀.selectedFor job₀)).count record.path ≤ 1)
    (hwork : job₀.plannedPaths (w₀.selectedFor job₀) = before ++ path :: after) :
    ∀ record ∈ w₀.pendingFor job₀, record.path = path → path ∉ before := by
  rintro record hrecord rfl hmem
  have hle := hcount record hrecord
  rw [hwork, List.count_append, List.count_cons_self] at hle
  have hpos := List.count_pos_iff.2 hmem
  omega

theorem lasting_standing {l : HydrationJob} : Lasting jobId (Standing jobId w₀ job₀ R₀ visited l) := by
  rintro w row ⟨R, F, b, hbetween, hrest⟩ hrow hrun
  exact ⟨R, F, b, lasting_between w row hbetween hrow hrun, hrest⟩

theorem lasting_stopped : Lasting jobId (Stopped jobId w₀ job₀ R₀) := by
  rintro w row ⟨visited, R, F, b, hbetween, hledger⟩ hrow hrun
  exact ⟨visited, R, F, b, lasting_between w row hbetween hrow hrun, hledger⟩

theorem Standing.look {l : HydrationJob} {job : NasRestoreJob} {status : RestoreJobStatus} (h : Standing jobId w₀ job₀ R₀ visited l w)
    (hrow : w.catalog.getNasRestoreJob jobId = some job) :
    Standing jobId w₀ job₀ R₀ visited { l with restoreJob := job, status := status } w := by
  obtain ⟨R, F, b, hbetween, hbooks, hremembers, hledger⟩ := h
  exact ⟨R, F, b, hbetween, hbooks.look (hbetween.tracks.destination hrow), hremembers, hledger⟩

section Loops

variable (hunique : ∀ record ∈ w₀.pendingFor job₀, ∀ other ∈ w₀.selectedFor job₀, other.path = record.path → other = record)
  (hcount : ∀ record ∈ w₀.pendingFor job₀, (job₀.plannedPaths (w₀.selectedFor job₀)).count record.path ≤ 1)

include hunique hcount

/-- The batch of a tape. -/
theorem wp_hydrateBatch {barcode : Barcode} {rest : List String} {l : HydrationJob}
    (hwork : job₀.plannedPaths (w₀.selectedFor job₀) = visited ++ (batchOf w₀ job₀ barcode ++ rest))
    (h : Standing jobId w₀ job₀ R₀ visited l w) :
    wp (pausingMachine jobId).recorded (.supposing CountWritten) (forEach (hydratePath sha256 jobId) (batchOf w₀ job₀ barcode))
      (fun _ l' s => Standing jobId w₀ job₀ R₀ (visited ++ batchOf w₀ job₀ barcode) l' s.1)
      (fun exc _ s => exc.isControlSignal = true → Stopped jobId w₀ job₀ R₀ s.1) l (w, hist) := by
  refine wp_forEach _ _ (fun pre l' s => Standing jobId w₀ job₀ R₀ (visited ++ pre) l' s.1) (by simpa using h) ?_ fun _ _ h => h
  rintro pre path post l₁ ⟨w₁, hist₁⟩ hsplit h₁
  have hmem : path ∈ batchOf w₀ job₀ barcode := by simp [hsplit]
  have hplace : job₀.plannedPaths (w₀.selectedFor job₀) = (visited ++ pre) ++ path :: (post ++ rest) := by
    rw [hwork, hsplit]
    simp
  rw [← List.append_assoc]
  exact wp_hydratePath (normal_of_batch hmem) hunique (fresh_of_count hcount hplace) h₁

/-- One group of tapes. -/
theorem wp_hydrateGroup {job : NasRestoreJob} {group : List Barcode} {rest : List String} {l : HydrationJob}
    (hwork : job₀.plannedPaths (w₀.selectedFor job₀) = visited ++ (group.flatMap (batchOf w₀ job₀) ++ rest))
    (h : Standing jobId w₀ job₀ R₀ visited l w) :
    wp (pausingMachine jobId).recorded (.supposing CountWritten)
      (hydrateGroup sha256 jobId (job.planFromJob ((w₀.selectedFor job₀).map (marked job₀ R₀ []))) group)
      (fun _ l' s => Standing jobId w₀ job₀ R₀ (visited ++ group.flatMap (batchOf w₀ job₀)) l' s.1)
      (fun exc _ s => exc.isControlSignal = true → Stopped jobId w₀ job₀ R₀ s.1) l (w, hist) := by
  unfold hydrateGroup
  rw [wp_bind]
  refine wp_mono (wp_checkControlState lasting_standing h) ?_ fun _ _ _ hexc _ => hexc.1.stopped
  rintro _ _ ⟨w₁, hist₁⟩ ⟨h₁, current, hrow, rfl⟩
  refine wp_forEach _ _ (fun pre l' s => Standing jobId w₀ job₀ R₀ (visited ++ pre.flatMap (batchOf w₀ job₀)) l' s.1)
    (by simpa using h₁.look hrow) ?_ fun _ _ h => h
  rintro pre barcode post l₂ ⟨w₂, hist₂⟩ hsplit h₂
  have hplace : job₀.plannedPaths (w₀.selectedFor job₀) =
      (visited ++ pre.flatMap (batchOf w₀ job₀)) ++ (batchOf w₀ job₀ barcode ++ (post.flatMap (batchOf w₀ job₀) ++ rest)) := by
    rw [hwork, hsplit]
    simp
  have hnext : visited ++ (pre ++ [barcode]).flatMap (batchOf w₀ job₀) =
      (visited ++ pre.flatMap (batchOf w₀ job₀)) ++ batchOf w₀ job₀ barcode := by simp
  rw [hnext, batch_of_run]
  exact wp_hydrateBatch hunique hcount hplace h₂

/-- All groups. -/
theorem wp_hydrateGroups {job : NasRestoreJob} (hplan : SamePlan job₀ job) {l : HydrationJob} (h : Standing jobId w₀ job₀ R₀ [] l w) :
    wp (pausingMachine jobId).recorded (.supposing CountWritten)
      (forEach (hydrateGroup sha256 jobId (job.planFromJob ((w₀.selectedFor job₀).map (marked job₀ R₀ []))))
        (job.planFromJob ((w₀.selectedFor job₀).map (marked job₀ R₀ []))).groups)
      (fun _ l' s => Standing jobId w₀ job₀ R₀ (job₀.plannedPaths (w₀.selectedFor job₀)) l' s.1)
      (fun exc _ s => exc.isControlSignal = true → Stopped jobId w₀ job₀ R₀ s.1) l (w, hist) := by
  have hgroups := groups_of_run hplan ((w₀.selectedFor job₀).map (marked job₀ R₀ []))
  refine wp_forEach _ _ (fun pre l' s => Standing jobId w₀ job₀ R₀ (pre.flatten.flatMap (batchOf w₀ job₀)) l' s.1)
    (by simpa using h) ?_ ?_
  · rintro pre group post l₁ ⟨w₁, hist₁⟩ hsplit h₁
    have hplace : job₀.plannedPaths (w₀.selectedFor job₀) =
        pre.flatten.flatMap (batchOf w₀ job₀) ++ (group.flatMap (batchOf w₀ job₀) ++ post.flatten.flatMap (batchOf w₀ job₀)) := by
      rw [plannedPaths_eq, ← hgroups, hsplit]
      simp
    have hnext : (pre ++ [group]).flatten.flatMap (batchOf w₀ job₀) =
        pre.flatten.flatMap (batchOf w₀ job₀) ++ group.flatMap (batchOf w₀ job₀) := by simp
    rw [hnext]
    exact wp_hydrateGroup hunique hcount hplace h₁
  · intro l₁ s₁ h₁
    rw [hgroups] at h₁
    exact h₁

end Loops

/-! ### Whole runs -/

/-- A run that was not interrupted has ended so. -/
structure Ended (jobId : JobId) (w₀ : NasWorld) (job₀ : NasRestoreJob) (R F : List String) (job : NasRestoreJob) (w : NasWorld) :
    Prop where
  row : w.catalog.getNasRestoreJob jobId = some job
  filed : Filed w₀ job₀ R F w
  counts : Counts R F (bytesOf w R) job
  status : job.status = .failed ∧ R = [] ∨ job.status = .completed

/-- What a run leaves that began with `R₀` restored, and what it answers. -/
def LeftOff (jobId : JobId) (w₀ : NasWorld) (job₀ : NasRestoreJob) (R₀ : List String) (job : NasRestoreJob) (w : NasWorld) : Prop :=
  Stopped jobId w₀ job₀ R₀ w ∧ w.catalog.getNasRestoreJob jobId = some job ∨
    ∃ R F, Ended jobId w₀ job₀ R F job w ∧ Ledger w₀ job₀ R₀ (job₀.plannedPaths (w₀.selectedFor job₀)) R F

theorem lasting_ended : Lasting jobId fun w => ∃ job, Ended jobId w₀ job₀ R F job w := by
  rintro w row ⟨job, h⟩ hrow hrun
  obtain rfl : job = row := Option.some.inj (h.row.symm.trans hrow)
  rcases h.status with ⟨hstatus, -⟩ | hstatus <;>
  · rw [hrun] at hstatus
    cases hstatus

theorem wp_finalizeJob {l : HydrationJob} (hbetween : Between jobId w₀ job₀ R F b w) (hbooks : Books job₀ R F b l) :
    wp (pausingMachine jobId).recorded (.supposing CountWritten) (finalizeJob jobId)
      (fun _ _ s => ∃ job, Ended jobId w₀ job₀ R F job s.1) (fun _ _ _ => True) l (w, hist) := by
  unfold finalizeJob
  rw [wp_bind, wp_assign, wp_bind, wp_locals, wp_bind]
  refine wp_between lasting_between hbetween fun w₁ c hw₁ _ => ⟨fun found hans => ?_, fun _ _ => trivial⟩
  obtain ⟨row, hrow, -, -, -⟩ := hw₁.tracks
  have hattempt := NasWorld.exec_ok hans
  rw [NasWorld.attempt_update hrow] at hattempt
  have hpost := congrArg Prod.snd hattempt
  dsimp only at hpost
  rw [wp_pure]
  dsimp only
  rw [← hpost]
  have hrestored : l.filesRestored = R.length := hbooks.restored
  refine ⟨_, NasWorld.getNasRestoreJob_updated hrow _ _ _, ⟨hw₁.filed.datasets, hw₁.filed.files⟩, ?_, ?_⟩
  · exact ⟨hbooks.restored, hbooks.failed, hbooks.bytes.trans hw₁.bytes.symm⟩
  · rw [NasRestoreJob.updated_status]
    by_cases hzero : l.filesRestored = 0
    · rw [if_pos hzero]
      exact .inl ⟨rfl, List.length_eq_zero_iff.1 (hrestored.symm.trans hzero)⟩
    · rw [if_neg hzero]
      exact .inr rfl

theorem selectedFor_samePlan {w : NasWorld} {job : NasRestoreJob} (h : SamePlan job₀ job) : w.selectedFor job = w.selectedFor job₀ := by
  unfold NasWorld.selectedFor NasRestoreJob.selected
  rw [h.poolId, h.paths]

/-- The records of the job are read as they are on file. -/
theorem wp_recordsForJob {job : NasRestoreJob} {records : List NasFileRecord} (hJ : Lasting jobId J)
    (hrecords : ∀ w, J w → w.selectedFor job = records) (hw : J w) :
    wp (pausingMachine jobId).recorded (.supposing CountWritten) (recordsForJob job : NasM L (List NasFileRecord))
      (fun found l' s => l' = l ∧ found = records ∧ J s.1) (fun _ _ _ => True) l (w, hist) := by
  unfold recordsForJob
  unfold NasWorld.selectedFor at hrecords
  cases hpool : job.poolId with
  | none =>
    rw [hpool] at hrecords
    exact ⟨rfl, hrecords w hw, hw⟩
  | some poolId =>
    rw [hpool] at hrecords
    dsimp only at hrecords ⊢
    rw [wp_bind]
    refine wp_between hJ hw fun w₁ c hw₁ _ => ⟨fun found hans => ?_, fun _ _ => trivial⟩
    have hfound : w₁.catalog.listPoolFileRecords poolId = found := Except.ok.inj (congrArg Prod.fst (NasWorld.exec_ok hans))
    have hsame : (w₁.exec (.listPoolFileRecords poolId) c).2 = w₁ := NasWorld.exec_reads rfl
    rw [hsame]
    refine ⟨rfl, ?_, hw₁⟩
    rw [← hrecords w₁ hw₁, hfound]

section Whole

variable (hunique : ∀ record ∈ w₀.pendingFor job₀, ∀ other ∈ w₀.selectedFor job₀, other.path = record.path → other = record)
  (hcount : ∀ record ∈ w₀.pendingFor job₀, (job₀.plannedPaths (w₀.selectedFor job₀)).count record.path ≤ 1)

include hunique hcount

/-- A run that begins with `R₀` restored and nothing failed. -/
theorem wp_executeRestore (hledger : Ledger w₀ job₀ R₀ [] R₀ []) {l : HydrationJob} (hbetween : Between jobId w₀ job₀ R₀ [] b w) :
    wp (pausingMachine jobId).recorded (.supposing CountWritten) (executeRestore sha256 jobId)
      (fun job _ s => LeftOff jobId w₀ job₀ R₀ job s.1) (fun _ _ _ => True) l (w, hist) := by
  unfold executeRestore
  rw [wp_bind]
  refine wp_mono (wp_look lasting_between hbetween) ?_ fun _ _ _ _ => trivial
  rintro job l₁ ⟨w₁, hist₁⟩ ⟨rfl, hw₁, hrow⟩
  obtain ⟨row, hrow', hplan, -, hcounts⟩ := hw₁.tracks
  obtain rfl : row = job := Option.some.inj (hrow'.symm.trans hrow)
  have hrecords : ∀ w, Between jobId w₀ job₀ R₀ [] b w → w.selectedFor row = (w₀.selectedFor job₀).map (marked job₀ R₀ []) := by
    intro w hw
    rw [hw.filed.selectedFor, selectedFor_samePlan hplan]
  rw [wp_bind]
  refine wp_mono (wp_recordsForJob lasting_between hrecords hw₁) ?_ fun _ _ _ _ => trivial
  rintro _ l₂ ⟨w₂, hist₂⟩ ⟨rfl, rfl, hw₂⟩
  rw [wp_bind]
  refine wp_mono (wp_recordsForJob lasting_between hrecords hw₂) ?_ fun _ _ _ _ => trivial
  rintro _ l₃ ⟨w₃, hist₃⟩ ⟨rfl, rfl, hw₃⟩
  rw [wp_bind, wp_assign, wp_bind, wp_handle, wp_bind]
  have hstanding : Standing jobId w₀ job₀ R₀ []
      { restoreJob := row, filesRestored := row.filesRestored, filesFailed := row.filesFailed
        bytesRestored := row.bytesRestored, partialSuccess := row.partialSuccess
        recordsByPath := remembered w₀ job₀ R₀ } w₃ :=
    ⟨R₀, [], b, hw₃, ⟨hcounts.restored, hcounts.failed, hcounts.bytes, hplan.destination⟩, fun _ _ => rfl, hledger⟩
  refine wp_mono (wp_hydrateGroups hunique hcount hplan hstanding) ?_ ?_
  · rintro _ l₄ ⟨w₄, hist₄⟩ ⟨R, F, b', hw₄, hbooks, -, hledger₄⟩
    rw [wp_pure, if_pos rfl, wp_bind]
    refine wp_mono (wp_finalizeJob hw₄ hbooks) ?_ fun _ _ _ _ => trivial
    rintro _ l₅ ⟨w₅, hist₅⟩ hended
    refine wp_mono (wp_look lasting_ended hended) ?_ fun _ _ _ _ => trivial
    rintro job l₆ ⟨w₆, hist₆⟩ ⟨-, ⟨job', hw₆⟩, hrow₆⟩
    obtain rfl : job' = job := Option.some.inj (hw₆.row.symm.trans hrow₆)
    exact .inr ⟨R, F, hw₆, hledger₄⟩
  · rintro exc l₄ ⟨w₄, hist₄⟩ hsignal
    cases hexc : exc.isControlSignal with
    | false => trivial
    | true =>
      rw [if_pos rfl, wp_pure, if_neg (by simp)]
      refine wp_mono (wp_look lasting_stopped (hsignal hexc)) ?_ fun _ _ _ _ => trivial
      rintro job l₅ ⟨w₅, hist₅⟩ ⟨-, hw₅, hrow₅⟩
      exact .inl ⟨hw₅, hrow₅⟩

/-- A request that starts a run, from a row of which `P` is known. -/
theorem wp_startRestore {P : NasRestoreJob → Prop} {allowed : List RestoreJobStatus} {action : String}
    {start : NasRestoreJob → NasRestoreJob} (hJ : Lasting jobId J)
    (hrow : ∀ w row, J w → w.catalog.getNasRestoreJob jobId = some row → P row)
    (hstart : ∀ w row, J w → P row → row.id = jobId → Between jobId w₀ job₀ R₀ [] b (w.withJob { start row with status := .running }))
    (hledger : Ledger w₀ job₀ R₀ [] R₀ []) (hw : J w) {l : HydrationJob} :
    wp (pausingMachine jobId).recorded (.supposing CountWritten) (startRestore sha256 jobId allowed action start)
      (fun job _ s => LeftOff jobId w₀ job₀ R₀ job s.1) (fun _ _ _ => True) l (w, hist) := by
  unfold startRestore
  rw [wp_bind]
  refine wp_mono (wp_look hJ hw) ?_ fun _ _ _ _ => trivial
  rintro row l₁ ⟨w₁, hist₁⟩ ⟨rfl, hw₁, hrow₁⟩
  rw [wp_bind, wp_ofExcept]
  cases requireStatus row allowed action with
  | error exc => trivial
  | ok _ =>
    dsimp only
    rw [wp_bind]
    refine wp_between hJ hw₁ fun w₂ c hw₂ _ => ⟨fun saved hans => ?_, fun _ _ => trivial⟩
    have hpost := congrArg Prod.snd (NasWorld.exec_ok hans)
    dsimp only at hpost
    rw [← hpost]
    exact wp_executeRestore hunique hcount hledger
      (hstart w₂ row hw₂ (hrow w₁ row hw₁ hrow₁) (NasCatalog.id_of_getNasRestoreJob hrow₁))

/-- The first run. -/
theorem wp_runRestore (hjob : w₀.catalog.getNasRestoreJob jobId = some job₀) {l : HydrationJob} :
    wp (pausingMachine jobId).recorded (.supposing CountWritten) (runRestore sha256 jobId)
      (fun job _ s => LeftOff jobId w₀ job₀ [] job s.1) (fun _ _ _ => True) l (w₀, hist) := by
  have hlasting : Lasting jobId fun w => Filed w₀ job₀ [] [] w ∧ ∀ row, w.catalog.getNasRestoreJob jobId = some row → SamePlan job₀ row := by
    refine lasting_and lasting_filed ?_
    intro w row hplan hrow _ row' hrow'
    have hid : row.id = jobId := NasCatalog.id_of_getNasRestoreJob hrow
    rw [NasWorld.getNasRestoreJob_withJob, if_pos hid] at hrow'
    obtain rfl := Option.some.inj hrow'
    obtain ⟨h₁, h₂, h₃, h₄, h₅, h₆⟩ := hplan row hrow
    exact ⟨h₁, h₂, h₃, h₄, h₅, h₆⟩
  have hself : ∀ row, w₀.catalog.getNasRestoreJob jobId = some row → SamePlan job₀ row := by
    intro row hrow
    obtain rfl : job₀ = row := Option.some.inj (hjob.symm.trans hrow)
    exact ⟨rfl, rfl, rfl, rfl, rfl, rfl⟩
  unfold runRestore
  refine wp_startRestore (P := SamePlan job₀) (b := 0) hunique hcount hlasting (fun w row hw hrow => hw.2 row hrow) ?_
    ⟨List.nodup_nil, by simp, by simp, by simp, by simp⟩ ⟨filed_self, hself⟩
  rintro w row ⟨hfiled, -⟩ hplan hid
  refine ⟨⟨hfiled.datasets, hfiled.files⟩, ⟨{ row.cleared with status := .running }, ?_, ⟨hplan.paths, hplan.poolId, hplan.destination,
    hplan.requiredTapes, hplan.tapeLoadOrder, hplan.parallelRestoreGroups⟩, .inl rfl, ⟨rfl, rfl, rfl⟩⟩, rfl⟩
  rw [NasWorld.getNasRestoreJob_withJob, if_pos]
  exact hid

/-- A run after a pause. -/
theorem wp_resumeRestore (hledger : Ledger w₀ job₀ R₀ [] R₀ []) (hw : Between jobId w₀ job₀ R₀ [] b w) {l : HydrationJob} :
    wp (pausingMachine jobId).recorded (.supposing CountWritten) (resumeRestore sha256 jobId)
      (fun job _ s => LeftOff jobId w₀ job₀ R₀ job s.1) (fun _ _ _ => True) l (w, hist) := by
  unfold resumeRestore
  refine wp_startRestore (P := fun row => SamePlan job₀ row ∧ Counts R₀ [] b row) (b := b) hunique hcount lasting_between ?_ ?_ hledger hw
  · rintro w row hw hrow
    obtain ⟨row', hrow', hplan, -, hcounts⟩ := hw.tracks
    obtain rfl : row' = row := Option.some.inj (hrow'.symm.trans hrow)
    exact ⟨hplan, hcounts⟩
  · rintro w row hw ⟨hplan, hcounts⟩ hid
    refine ⟨⟨hw.filed.datasets, hw.filed.files⟩, ⟨{ row with status := .running, errorMessage := none }, ?_, ⟨hplan.paths, hplan.poolId,
      hplan.destination, hplan.requiredTapes, hplan.tapeLoadOrder, hplan.parallelRestoreGroups⟩, .inl rfl,
      ⟨hcounts.restored, hcounts.failed, hcounts.bytes⟩⟩, hw.bytes⟩
    rw [NasWorld.getNasRestoreJob_withJob, if_pos]
    exact hid

/-- What a whole history leaves. -/
theorem leftOff_of_history {pauses : List NasRestoreJob} {traces : List (List NasStep)} {job : NasRestoreJob} {w : NasWorld}
    (h : RestoreHistory sha256 jobId w₀ pauses traces job w) (hjob : w₀.catalog.getNasRestoreJob jobId = some job₀)
    (hpauses : ∀ job ∈ pauses, job.filesFailed = 0) (hwritten : ∀ trace ∈ traces, Throughout CountWritten trace) :
    ∃ R₀, LeftOff jobId w₀ job₀ R₀ job w := by
  induction h with
  | run hrun =>
    have hwp : Prog.wp (pausingMachine jobId).recorded (.supposing CountWritten) (runRestore sha256 jobId {})
        (fun x s => ∀ job l, x = (.ok job, l) → LeftOff jobId w₀ job₀ [] job s.1) (w₀, []) := by
      refine Prog.wp_mono (wp_runRestore hunique hcount hjob) ?_
      rintro x s hx job l rfl
      exact hx
    exact ⟨[], run_of_supposing hwp (hwritten _ (by simp)) hrun _ _ rfl⟩
  | resume _ hpaused hrun ih =>
    rename_i pauses traces paused w cs job l w' _
    obtain ⟨R₀, hleft⟩ := ih (fun job hj => hpauses job (by simp [hj])) fun trace ht => hwritten trace (by simp [ht])
    rcases hleft with ⟨⟨visited, R, F, b, hbetween, hledger⟩, hrow⟩ | ⟨R, F, hended, -⟩
    · obtain ⟨row, hrow', -, -, hcounts⟩ := hbetween.tracks
      obtain rfl : row = paused := Option.some.inj (hrow'.symm.trans hrow)
      have hF : F = [] := List.length_eq_zero_iff.1 (hcounts.failed.symm.trans (hpauses row (by simp)))
      subst hF
      have hbegun : Ledger w₀ job₀ R [] R [] :=
        ⟨hledger.nodup, hledger.pending, fun id hid => .inl (by simpa using hid), by simp, fun _ h => h⟩
      have hwp : Prog.wp (pausingMachine jobId).recorded (.supposing CountWritten) (resumeRestore sha256 jobId {})
          (fun x s => ∀ job l, x = (.ok job, l) → LeftOff jobId w₀ job₀ R job s.1) (w, []) := by
        refine Prog.wp_mono (wp_resumeRestore hunique hcount hbegun hbetween) ?_
        rintro x s hx job l rfl
        exact hx
      exact ⟨R, run_of_supposing hwp (hwritten _ (by simp)) hrun _ _ rfl⟩
    · rcases hended.status with ⟨hstatus, -⟩ | hstatus <;>
      · rw [hpaused] at hstatus
        cases hstatus

end Whole

/-! ### What the counters tell -/

section Tally

variable {job : NasRestoreJob}

/-- Where all that was pending is restored or failed, a record is cached just when it is named as restored. -/
theorem cached_iff (hended : Ended jobId w₀ job₀ R F job w) {record : NasFileRecord} (hrecord : record ∈ w₀.pendingFor job₀) :
    w.fileState record.id = some .onlineCached ↔ record.id ∈ R := by
  obtain ⟨hselected, hstatus⟩ := mem_pendingFor.1 hrecord
  rw [hended.filed.fileState (NasWorld.getNasFileRecord_of_selected hselected)]
  unfold marked
  by_cases hR : record.id ∈ R
  · simp [hR]
  · by_cases hF : record.id ∈ F <;> simp [hR, hF, hstatus]

theorem failed_iff (hended : Ended jobId w₀ job₀ R F job w) (hnodup : (R ++ F).Nodup) {record : NasFileRecord}
    (hrecord : record ∈ w₀.pendingFor job₀) (hdone : record.id ∈ R ++ F) :
    w.fileState record.id = some .failed ↔ record.id ∈ F := by
  obtain ⟨hselected, -⟩ := mem_pendingFor.1 hrecord
  rw [hended.filed.fileState (NasWorld.getNasFileRecord_of_selected hselected)]
  unfold marked
  by_cases hR : record.id ∈ R
  · have hF : record.id ∉ F := fun hF => (List.nodup_append.1 hnodup).2.2 _ hR _ hF rfl
    simp [hR, hF]
  · have hF : record.id ∈ F := (List.mem_append.1 hdone).resolve_left hR
    simp [hR, hF]

/-- Ids that name pending records, each once, are the ids of the pending records they name. -/
theorem perm_ids {X : List String} {p : NasFileRecord → Bool} (hX : X.Nodup) (hnamed : ∀ id ∈ X, ∃ record ∈ w₀.pendingFor job₀, record.id = id)
    (hp : ∀ record ∈ w₀.pendingFor job₀, p record = true ↔ record.id ∈ X) :
    X.Perm (((w₀.pendingFor job₀).filter p).map NasFileRecord.id) := by
  have hnodup : (((w₀.pendingFor job₀).filter p).map NasFileRecord.id).Nodup := by
    have hids : ((w₀.selectedFor job₀).map NasFileRecord.id).Nodup := NasWorld.nodup_ids_selectedFor
    exact List.Nodup.sublist ((List.filter_sublist.trans List.filter_sublist).map _) hids
  refine (List.perm_ext_iff_of_nodup hX hnodup).2 fun id => ?_
  rw [List.mem_map]
  constructor
  · intro hid
    obtain ⟨record, hrecord, rfl⟩ := hnamed id hid
    exact ⟨record, List.mem_filter.2 ⟨hrecord, (hp record hrecord).2 hid⟩, rfl⟩
  · rintro ⟨record, hrecord, rfl⟩
    obtain ⟨hrecord, hpr⟩ := List.mem_filter.1 hrecord
    exact (hp record hrecord).1 hpr

/-- A run that was not interrupted, of a job whose pending records are all planned. -/
theorem complete_of_ended (hended : Ended jobId w₀ job₀ R F job w)
    (hledger : Ledger w₀ job₀ R₀ (job₀.plannedPaths (w₀.selectedFor job₀)) R F) (hpending : w₀.pendingFor job₀ ≠ [])
    (hplanned : ∀ record ∈ w₀.pendingFor job₀, job₀.Plans record) : RestoreComplete w₀ job₀ job w := by
  have hdone : ∀ record ∈ w₀.pendingFor job₀, record.id ∈ R ++ F := fun record hrecord =>
    hledger.covers record hrecord (NasRestoreJob.path_mem_plannedPaths (mem_pendingFor.1 hrecord).1 (hplanned record hrecord))
  have hcached : ∀ record ∈ w₀.pendingFor job₀, w.fileState record.id = some .onlineCached ↔ record.id ∈ R := fun _ hrecord =>
    cached_iff hended hrecord
  have hfailed : ∀ record ∈ w₀.pendingFor job₀, w.fileState record.id = some .failed ↔ record.id ∈ F := fun record hrecord =>
    failed_iff hended hledger.nodup hrecord (hdone record hrecord)
  have hR : R.Perm (((w₀.pendingFor job₀).filter fun record => w.fileState record.id = some .onlineCached).map NasFileRecord.id) := by
    refine perm_ids (List.nodup_append.1 hledger.nodup).1 (fun id hid => hledger.pending id (List.mem_append_left _ hid)) ?_
    intro record hrecord
    rw [decide_eq_true_iff]
    exact hcached record hrecord
  have hF : F.Perm (((w₀.pendingFor job₀).filter fun record => w.fileState record.id = some .failed).map NasFileRecord.id) := by
    refine perm_ids (List.nodup_append.1 hledger.nodup).2.1 (fun id hid => hledger.pending id (List.mem_append_right _ hid)) ?_
    intro record hrecord
    rw [decide_eq_true_iff]
    exact hfailed record hrecord
  have hall : (R ++ F).Perm (((w₀.pendingFor job₀).filter fun _ => true).map NasFileRecord.id) := by
    refine perm_ids hledger.nodup hledger.pending ?_
    intro record hrecord
    simpa using hdone record hrecord
  refine ⟨fun record hrecord hplan => ?_, ?_, ?_, ?_, ?_, fun hstatus => ?_⟩
  · by_cases hstatus : record.status = .onlineCached
    · left
      rw [hended.filed.fileState (NasWorld.getNasFileRecord_of_selected hrecord)]
      have hnot : record.id ∉ F := by
        intro hmem
        obtain ⟨other, hother, hid⟩ := hledger.pending record.id (List.mem_append_right _ hmem)
        obtain ⟨hselected, hne⟩ := mem_pendingFor.1 hother
        exact hne (eq_of_id hselected hrecord hid ▸ hstatus)
      unfold marked
      by_cases hmem : record.id ∈ R <;> simp [hmem, hnot, hstatus]
    · have hmem := mem_pendingFor.2 ⟨hrecord, hstatus⟩
      rcases List.mem_append.1 (hdone record hmem) with hin | hin
      · exact .inl ((hcached record hmem).2 hin)
      · exact .inr ((hfailed record hmem).2 hin)
  · rw [hended.counts.restored, hR.length_eq, List.length_map, List.countP_eq_length_filter]
  · rw [hended.counts.failed, hF.length_eq, List.length_map, List.countP_eq_length_filter]
  · have hlength := hall.length_eq
    rw [List.length_append, List.length_map, List.filter_true] at hlength
    rw [hended.counts.restored, hended.counts.failed, hlength]
  · rw [hended.counts.bytes]
    unfold bytesOf
    rw [(hR.map w.restoredSize).sum_eq, List.map_map]
    rfl
  · rcases hended.status with ⟨-, hnone⟩ | hcompleted
    · obtain ⟨record, hrecord⟩ := List.exists_mem_of_ne_nil _ hpending
      refine ⟨record, (mem_pendingFor.1 hrecord).1, fun hstate => ?_⟩
      have hmem := (hcached record hrecord).1 hstate
      rw [hnone] at hmem
      cases hmem
    · rw [hstatus] at hcompleted
      cases hcompleted

end Tally

end Runs

end CompletenessAux

/-- Over every history of pauses and resumes of a job whose records are countable, a run that is not interrupted completes the job:
all that was pending is restored or failed, and counted once. -/
theorem restore_complete (sha256 : Bytes → String) (jobId : JobId) (w₀ : NasWorld) (job₀ : NasRestoreJob)
    (hjob : w₀.catalog.getNasRestoreJob jobId = some job₀) (pauses : List NasRestoreJob) (traces : List (List NasStep))
    (job : NasRestoreJob) (w : NasWorld) (h : RestoreHistory sha256 jobId w₀ pauses traces job w)
    (huninterrupted : job.status = .completed ∨ job.status = .failed) (hcountable : RestoreCountable w₀ job₀ pauses traces) :
    RestoreComplete w₀ job₀ job w := by
  have hids : ((w₀.selectedFor job₀).map NasFileRecord.id).Nodup := NasWorld.nodup_ids_selectedFor
  have hselected : (w₀.selectedFor job₀).Nodup := hids.of_map _
  have hcount : ∀ record ∈ w₀.pendingFor job₀, (job₀.plannedPaths (w₀.selectedFor job₀)).count record.path ≤ 1 := fun record hrecord =>
    NasRestoreJob.count_plannedPaths_le hcountable.tapes hselected (hcountable.paths record hrecord)
  obtain ⟨R₀, hleft⟩ := CompletenessAux.leftOff_of_history hcountable.paths hcount h hjob hcountable.pauses hcountable.written
  rcases hleft with ⟨⟨visited, R, F, b, hbetween, -⟩, hrow⟩ | ⟨R, F, hended, hledger⟩
  · -- a run that was stopped leaves the job running or paused
    obtain ⟨row, hrow', -, hstatus, -⟩ := hbetween.tracks
    obtain rfl : row = job := Option.some.inj (hrow'.symm.trans hrow)
    rcases hstatus with hstatus | hstatus <;> rcases huninterrupted with hend | hend <;>
    · rw [hstatus] at hend
      cases hend
  · exact CompletenessAux.complete_of_ended hended hledger hcountable.pending hcountable.planned

namespace CompletenessExample

def job : NasRestoreJob := { id := "J", poolId := some "P", requiredTapes := ["T1"], tapeLoadOrder := ["T1"] }

theorem keyed_job : ∀ row ∈ [("J", job)], row.2.id = row.1 := by simp [job]

/-- A pool of two files in two datasets; each dataset's file has its own path. -/
def world (path path' : String) : NasWorld :=
  { catalog :=
      { datasets := [("D", { id := "D", poolId := some "P", name := "d" }), ("E", { id := "E", poolId := some "P", name := "e" })]
        files :=
          [("F", { id := "F", datasetId := "D", poolId := some "P", relativePath := path, tapeBarcode := some "T1" }),
           ("G", { id := "G", datasetId := "E", poolId := some "P", relativePath := path', tapeBarcode := some "T1" })]
        restoreJobs := [("J", { id := "J", poolId := some "P", requiredTapes := ["T1"], tapeLoadOrder := ["T1"] })]
        nodupFiles := by simp [Dict.keys]
        keyedFiles := by simp
        nodupJobs := List.nodup_singleton "J"
        keyedJobs := keyed_job }
    tapes := [("T1", [("/d/a", [1, 2, 3]), ("/e/a", [4, 5]), ("/e/b", [4, 5])])] }

/-- The first run is paused before its call of number 16, which is the first of the second file. -/
def choices : List PausingChoice :=
  List.replicate 15 ([], ({} : NasChoice)) ++ [([List.replicate 3 ({} : NasChoice)], ({} : NasChoice))] ++
    List.replicate 30 ([], ({} : NasChoice))

def quiet : List PausingChoice := List.replicate 40 ([], ({} : NasChoice))

/-- What a request answers. -/
def answer (cs : List PausingChoice) (m : NasM HydrationJob NasRestoreJob) (w : NasWorld) : Option NasRestoreJob :=
  ((pausingMachine "J").run cs (m {}) w).1.value?.bind fun x => x.1.toOption

/-- What a request leaves. -/
def left (cs : List PausingChoice) (m : NasM HydrationJob NasRestoreJob) (w : NasWorld) : NasWorld :=
  ((pausingMachine "J").run cs (m {}) w).2

/-- A request that answers has ended so. -/
theorem run_of_answer {cs : List PausingChoice} {m : NasM HydrationJob NasRestoreJob} {w : NasWorld} {job : NasRestoreJob}
    (h : answer cs m w = some job) : ∃ l, (pausingMachine "J").run cs (m {}) w = (.ret (.ok job, l), left cs m w) := by
  unfold answer at h
  unfold left
  generalize (pausingMachine "J").run cs (m {}) w = outcome at h ⊢
  obtain ⟨p, w'⟩ := outcome
  cases p with
  | call o k => cases h
  | ret x =>
    obtain ⟨r, l⟩ := x
    cases r with
    | error e => cases h
    | ok found =>
      cases h
      exact ⟨l, rfl⟩

instance (o : NasOp) (a : Except Exn o.Ans) : Decidable (o.FindsJob a) := by
  unfold NasOp.FindsJob
  split <;> infer_instance

/-- Whether the count of a restored file was written and read back, told from two steps. -/
def Written (hist : List NasStep) (x : NasStep) : Prop :=
  (x.op.countsRestored = false ∨ x.ans.toOption.isSome) ∧
    ∀ y ∈ hist.getLast?, y.op.countsRestored = false ∨ x.op.FindsJob x.ans

instance (hist : List NasStep) (x : NasStep) : Decidable (Written hist x) := by
  unfold Written
  infer_instance

theorem countWritten_of_written {hist : List NasStep} {x : NasStep} (h : Written hist x) : CountWritten hist x := by
  obtain ⟨hwritten, hseen⟩ := h
  refine ⟨fun hop => ?_, fun y hy hop => ?_⟩
  · have hsome := hwritten.resolve_left (by simp [hop])
    cases hans : x.ans with
    | ok a => exact ⟨a, rfl⟩
    | error e =>
      rw [hans] at hsome
      cases hsome
  · exact (hseen y hy).resolve_left (by simp [hop])

/-- Told at every step of a trace, it is told throughout. -/
theorem throughout_of_written (trace : List NasStep) (h : ∀ i : Fin trace.length, Written (trace.take i) (trace.get i)) :
    Throughout CountWritten trace :=
  throughout_of_take fun i => countWritten_of_written (h i)

/-- The paused run of two files under paths of their own. -/
def firstTrace : List NasStep :=
  (pausingMachine "J").trace choices (runRestore (fun _ => "") "J" {}) (world "a" "b")

/-- The run that takes the paused job up again. -/
def secondTrace : List NasStep :=
  (pausingMachine "J").trace quiet (resumeRestore (fun _ => "") "J" {})
    (left choices (runRestore (fun _ => "") "J") (world "a" "b"))

end CompletenessExample

open CompletenessExample in
/-- Two files under paths of their own, and a pause between them. -/
theorem restore_complete_paused :
    ∃ job w, RestoreHistory (fun _ => "") "J" (world "a" "b") [{ job with status := .paused, filesRestored := 1, bytesRestored := 3 }]
        [firstTrace, secondTrace] job w ∧
      RestoreComplete (world "a" "b") CompletenessExample.job job w := by
  let paused : NasRestoreJob := { CompletenessExample.job with status := .paused, filesRestored := 1, bytesRestored := 3 }
  let job : NasRestoreJob := { CompletenessExample.job with status := .completed, filesRestored := 2, bytesRestored := 5 }
  have hpaused : answer choices (runRestore (fun _ => "") "J") (world "a" "b") = some paused := by decide +kernel
  have hresumed : answer quiet (resumeRestore (fun _ => "") "J") (left choices (runRestore (fun _ => "") "J") (world "a" "b")) =
      some job := by decide +kernel
  obtain ⟨l₁, hrun⟩ := run_of_answer hpaused
  obtain ⟨l₂, hresume⟩ := run_of_answer hresumed
  have hhistory := RestoreHistory.resume (RestoreHistory.run hrun) rfl hresume
  refine ⟨job, _, hhistory, restore_complete _ "J" _ CompletenessExample.job (by decide +kernel) _ _ _ _ hhistory (.inl rfl) ?_⟩
  refine ⟨by decide +kernel, ?_, by decide +kernel, by decide +kernel, by decide, ?_⟩
  · unfold NasRestoreJob.Plans
    decide +kernel
  · intro trace htrace
    rcases List.mem_pair.1 htrace with rfl | rfl
    · exact throughout_of_written firstTrace (by decide +kernel)
    · exact throughout_of_written secondTrace (by decide +kernel)

open CompletenessExample in
/-- Of two files under one path only one is ever restored, and only one is counted. -/
theorem shared_path_uncounted :
    ¬∀ (sha256 : Bytes → String) (jobId : JobId) (w₀ : NasWorld) (job₀ : NasRestoreJob) (pauses : List NasRestoreJob)
      (traces : List (List NasStep)) (job : NasRestoreJob) (w : NasWorld), w₀.catalog.getNasRestoreJob jobId = some job₀ →
      RestoreHistory sha256 jobId w₀ pauses traces job w → job.status = .completed ∨ job.status = .failed →
      RestoreComplete w₀ job₀ job w := by
  intro h
  let job : NasRestoreJob := { CompletenessExample.job with status := .completed, filesRestored := 1, bytesRestored := 2 }
  have hanswer : answer quiet (runRestore (fun _ => "") "J") (world "a" "a") = some job := by decide +kernel
  obtain ⟨l, hrun⟩ := run_of_answer hanswer
  have hcomplete := h _ "J" _ CompletenessExample.job _ _ _ _ (by decide +kernel) (RestoreHistory.run hrun) (.inl rfl)
  have hlength : ((world "a" "a").pendingFor CompletenessExample.job).length = 2 := by decide +kernel
  have hcounted := hcomplete.counted
  rw [hlength] at hcounted
  cases hcounted

end OpenBlade
