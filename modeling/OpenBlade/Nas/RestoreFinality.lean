import OpenBlade.Effects.Protocol
import OpenBlade.Nas.Hydration

/-!
# Restores that stay as they ended

Requests to run, pause, resume, retry and cancel restore jobs run side by side, one call at a time. Each looks at the row of its job
and then writes its status, in two calls, and the executor does so before every file. A job that is cancelled or completed is left as
it is by every write for which the look is still good. The executor's last write and `DELETE` do not look at all.
-/

namespace OpenBlade

open Effects Proc

/-- A request to the restore API. -/
inductive RestoreRequest where
  | run (jobId : JobId)
  | pause (jobId : JobId)
  | resume (jobId : JobId)
  | retry (jobId : JobId)
  | cancel (jobId : JobId)
  | delete (jobId : JobId)
  deriving Repr, DecidableEq

namespace RestoreRequest

def isDelete : RestoreRequest → Bool
  | delete _ => true
  | _ => false

/-- A request as a program: what it answers is of no more use to the job. -/
def answered {α : Type} (m : NasM HydrationJob α) : Prog NasOp (fun o => Except Exn o.Ans) Unit :=
  (m {}).bind fun _ => .ret ()

def program (sha256 : Bytes → String) : RestoreRequest → Prog NasOp (fun o => Except Exn o.Ans) Unit
  | run jobId => answered (runRestore sha256 jobId)
  | pause jobId => answered (pauseRestore jobId)
  | resume jobId => answered (resumeRestore sha256 jobId)
  | retry jobId => answered (retryRestore sha256 jobId)
  | cancel jobId => answered (cancelRestore jobId)
  | delete jobId => answered (deleteRestoreJob jobId)

end RestoreRequest

/-- A step of an interleaving, and whose it is. -/
abbrev RestoreStep (ι : Type) : Type := ι × Step NasWorld NasOp fun o => Except Exn o.Ans

/-- A job that ended so has ended for good. -/
def RestoreJobStatus.isFinal : RestoreJobStatus → Bool
  | completed | cancelled => true
  | _ => false

namespace NasOp

/-- The job a call writes the status of, and the status. -/
def writesStatus : NasOp → Option (JobId × RestoreJobStatus)
  | upsertRestoreJob job => some (job.id, job.status)
  | updateRestoreJobStatus id status _ _ => some (id, status)
  | _ => none

/-- The executor's last write. -/
def finalizes : NasOp → Bool
  | updateRestoreJobStatus _ .completed _ _ | updateRestoreJobStatus _ .failed _ _ => true
  | _ => false

/-- The answer says that the job was found, and cancelled. -/
def SaysCancelled : (o : NasOp) → Except Exn o.Ans → JobId → Prop
  | updateRestoreJobStatus id .cancelled _ _, .ok (found : Bool) => fun jobId => found = true ∧ id = jobId
  | _, _ => fun _ => False

/-- A call that neither looks at a job nor writes one. -/
def sparesJobs : NasOp → Bool
  | getRestoreJob _ | upsertRestoreJob _ | updateRestoreJobStatus _ _ _ _ => false
  | _ => true

end NasOp

namespace NasWorld

def jobStatus (w : NasWorld) (id : JobId) : Option RestoreJobStatus := (w.catalog.getNasRestoreJob id).map fun job => job.status

variable {w : NasWorld} {id : JobId}

theorem jobStatus_upsert (job : NasRestoreJob) :
    ({ w with catalog := w.catalog.upsertNasRestoreJob job } : NasWorld).jobStatus id =
      if job.id = id then some job.status else w.jobStatus id := by
  show (Dict.get? (Dict.set w.catalog.restoreJobs job.id job) id).map _ = _
  rw [Dict.get?_set]
  split <;> rfl

/-- A call changes the status of a job only to the one it writes. -/
theorem jobStatus_attempt (c : NasChoice) (o : NasOp) (id : JobId) :
    (w.attempt c o).2.jobStatus id = w.jobStatus id ∨
      ∃ status, o.writesStatus = some (id, status) ∧ (w.attempt c o).2.jobStatus id = some status := by
  cases o with
  | upsertRestoreJob job =>
    have hpost : (w.attempt c (.upsertRestoreJob job)).2.jobStatus id = _ := jobStatus_upsert job
    by_cases hid : job.id = id
    · subst hid
      exact .inr ⟨job.status, rfl, by simpa using hpost⟩
    · exact .inl (by simpa [hid] using hpost)
  | updateRestoreJobStatus jobId status progress errorMessage =>
    cases hget : w.catalog.getNasRestoreJob jobId with
    | none =>
      left
      simp [attempt, NasCatalog.updateNasRestoreJobStatus, hget]
    | some job =>
      have hpost : (w.attempt c (.updateRestoreJobStatus jobId status progress errorMessage)).2.jobStatus id =
          if job.id = id then some status else w.jobStatus id := by
        simp only [attempt, NasCatalog.updateNasRestoreJobStatus, hget]
        rw [jobStatus_upsert]
        simp
      by_cases hid : job.id = id
      · have hjob : jobId = id := (NasCatalog.id_of_getNasRestoreJob hget).symm.trans hid
        exact .inr ⟨status, by rw [← hjob]; rfl, by simpa [hid] using hpost⟩
      · exact .inl (by simpa [hid] using hpost)
  | readBytes barcode path =>
    left
    simp only [attempt]
    split <;> rfl
  | _ => exact .inl rfl

theorem jobStatus_exec (c : NasChoice) (o : NasOp) (id : JobId) :
    (w.exec o c).2.jobStatus id = w.jobStatus id ∨
      ∃ status, o.writesStatus = some (id, status) ∧ (w.exec o c).2.jobStatus id = some status := by
  unfold exec
  split
  · exact jobStatus_attempt c o id
  · split
    · exact jobStatus_attempt c o id
    · exact .inl rfl

/-- A job that is said to be cancelled is. -/
theorem jobStatus_of_saysCancelled {c : NasChoice} {o : NasOp} (h : o.SaysCancelled (w.exec o c).1 id) :
    (w.exec o c).2.jobStatus id = some .cancelled := by
  generalize hans : (w.exec o c).1 = a at h
  unfold NasOp.SaysCancelled at h
  split at h
  · rename_i jobId progress errorMessage found
    obtain ⟨rfl, rfl⟩ := h
    unfold exec at hans ⊢
    cases hraises : c.raises with
    | some fault =>
      rw [hraises] at hans
      cases hans
    | none =>
      rw [hraises] at hans
      simp only [attempt, NasCatalog.updateNasRestoreJobStatus] at hans ⊢
      cases hget : w.catalog.getNasRestoreJob jobId with
      | none =>
        rw [hget] at hans
        cases hans
      | some job =>
        simp only
        rw [jobStatus_upsert]
        simp [NasCatalog.id_of_getNasRestoreJob hget]
  · exact h.elim

end NasWorld

/-! ### What a request has seen -/

/-- What a request knows of its job: what its last look found, and whether it has itself set the job running. -/
structure RestoreView where
  seen : Option (JobId × RestoreJobStatus) := none
  started : Bool := false

namespace RestoreView

/-- What a call and its answer add. A look that is not answered with a row leaves nothing known. -/
def note (view : RestoreView) : (o : NasOp) → Except Exn o.Ans → RestoreView
  | .getRestoreJob _, .ok (some (job : NasRestoreJob)) => { view with seen := some (job.id, job.status) }
  | .getRestoreJob _, _ => { view with seen := none }
  | .upsertRestoreJob job, _ => { view with started := view.started || job.status = .running }
  | _, _ => view

/-- The statuses that are to stay: for every request those of jobs that ended, for an executor also that of a paused job. -/
def Bars (view : RestoreView) (status : RestoreJobStatus) : Prop :=
  status.isFinal = true ∨ status = .paused ∧ view.started = true

end RestoreView

section Interleaving

variable {ι : Type} [DecidableEq ι]

/-- What a request knows after these steps. -/
def viewOf (hist : List (RestoreStep ι)) (i : ι) : RestoreView :=
  hist.foldl (fun view x => if x.1 = i then view.note x.2.op x.2.ans else view) {}

/-- The step does not come at a bad moment: if it writes another status over one that is to stay, then it is a write that goes by a
look, and the look has found just that status. -/
def Undisturbed (requests : ι → RestoreRequest) (hist : List (RestoreStep ι)) (x : RestoreStep ι) : Prop :=
  ∀ id status current, x.2.op.writesStatus = some (id, status) → x.2.pre.jobStatus id = some current → current ≠ status →
    (viewOf hist x.1).Bars current →
      (requests x.1).isDelete = false ∧ x.2.op.finalizes = false ∧ (viewOf hist x.1).seen = some (id, current)

/-- An executor leaves a job that is paused paused. -/
def LeavesPaused (hist : List (RestoreStep ι)) (x : RestoreStep ι) : Prop :=
  (viewOf hist x.1).started = true → ∀ id, x.2.pre.jobStatus id = some .paused → x.2.post.jobStatus id = some .paused

end Interleaving

/-! ### The protocol of a request -/

namespace RestoreView

/-- The status writes of a request: the start and the second write of a cancel, the executor's progress, its end, and the writes of
`pause` and of the two ways to cancel. -/
def allows (request : RestoreRequest) (view : RestoreView) : NasOp → Prop
  | .upsertRestoreJob job => ∃ status, view.seen = some (job.id, status) ∧
      (status = job.status ∨ view.started = false ∧ status ∈ [RestoreJobStatus.queued, .paused, .failed])
  | .updateRestoreJobStatus _ .running _ _ => ∀ id status, view.seen = some (id, status) → status = .running
  | .updateRestoreJobStatus _ .completed _ _ | .updateRestoreJobStatus _ .failed _ _ => True
  | .updateRestoreJobStatus _ .paused _ _ => ∃ id, view.seen = some (id, .running)
  | .updateRestoreJobStatus _ .cancelled _ _ => request.isDelete = true ∨
      view.started = false ∧ ∃ id, ∃ status ∈ [RestoreJobStatus.queued, .running, .paused], view.seen = some (id, status)
  | .updateRestoreJobStatus _ _ _ _ => False
  | _ => True

variable {request : RestoreRequest} {view : RestoreView}

/-- An allowed write does not go by a look that has found a status that is to stay. -/
theorem not_bars_of_allows {o : NasOp} {id : JobId} {status current : RestoreJobStatus} (ha : view.allows request o)
    (hwrites : o.writesStatus = some (id, status)) (hne : current ≠ status) (hdelete : request.isDelete = false)
    (hfinal : o.finalizes = false) (hseen : view.seen = some (id, current)) : ¬view.Bars current := by
  intro hbars
  cases o with
  | upsertRestoreJob job =>
    obtain ⟨found, hfound, hcase⟩ := ha
    obtain ⟨rfl, rfl⟩ := Prod.mk.inj (Option.some.inj hwrites)
    obtain rfl : current = found := by simpa [hseen] using hfound
    rcases hcase with rfl | ⟨hstarted, hmem⟩
    · exact hne rfl
    · rcases hbars with h | ⟨-, h⟩
      · cases current <;> simp_all [RestoreJobStatus.isFinal]
      · rw [hstarted] at h
        cases h
  | updateRestoreJobStatus jobId written progress errorMessage =>
    obtain ⟨rfl, rfl⟩ := Prod.mk.inj (Option.some.inj hwrites)
    cases written with
    | running => exact hne (ha _ _ hseen)
    | completed | failed => cases hfinal
    | queued | planning => exact ha
    | paused =>
      obtain ⟨_, hrunning⟩ := ha
      obtain rfl : current = .running := by simpa [hseen] using congrArg (Option.map Prod.snd) hrunning
      rcases hbars with h | ⟨h, -⟩ <;> cases h
    | cancelled =>
      rcases ha with h | ⟨hstarted, _, found, hmem, hfound⟩
      · rw [hdelete] at h
        cases h
      · obtain rfl : current = found := by simpa [hseen] using congrArg (Option.map Prod.snd) hfound
        rcases hbars with h | ⟨-, h⟩
        · cases current <;> simp_all [RestoreJobStatus.isFinal]
        · rw [hstarted] at h
          cases h
  | _ => cases hwrites

theorem note_spares {o : NasOp} (h : o.sparesJobs = true) (a : Except Exn o.Ans) : view.note o a = view := by
  cases o <;> first | rfl | cases h

theorem allows_spares {o : NasOp} (h : o.sparesJobs = true) : view.allows request o := by
  cases o with
  | getRestoreJob => trivial
  | upsertRestoreJob | updateRestoreJobStatus => cases h
  | _ => trivial

/-- An executor: it has set the job running. -/
def Executing (view : RestoreView) : Prop := view.started = true

/-- What the executor has last seen, if anything, is a job that runs. -/
def Ready (view : RestoreView) : Prop := view.Executing ∧ ∀ id status, view.seen = some (id, status) → status = .running

end RestoreView

namespace FinalityAux

open RestoreView

variable {request : RestoreRequest} {view : RestoreView} {L : Type} {l : L} {sha256 : Bytes → String} {jobId : JobId}

/-- Calls that spare the jobs leave the view as it is. -/
theorem wp_spares {α : Type} {R : L → L → Prop} {p : NasM L α} (hp : Only (fun o => o.sparesJobs = true) R p) :
    wp (havoc note) (.protocol (allows request)) p (fun _ l' v => R l l' ∧ v = view) (fun _ l' v => R l l' ∧ v = view) l view := by
  refine hp.keeps (stable_follows ?_) rfl
  rintro o ho m rfl
  exact ⟨allows_spares ho, fun a => note_spares ho a⟩

/-- A look at the row, answered or not. -/
theorem wp_requireJob :
    wp (havoc note) (.protocol (allows request)) (requireJob jobId : NasM L NasRestoreJob)
      (fun job l' v => l' = l ∧ v = { view with seen := some (job.id, job.status) })
      (fun _ l' v => l' = l ∧ v = { view with seen := none }) l view := by
  unfold requireJob
  rw [wp_bind]
  refine wp_follows trivial (fun job => ?_) fun exc => ⟨rfl, rfl⟩
  cases job with
  | none => exact ⟨rfl, rfl⟩
  | some job => exact ⟨rfl, rfl⟩

theorem ready_unseen (h : view.Executing) : ({ view with seen := none } : RestoreView).Ready :=
  ⟨h, fun _ _ hseen => nomatch hseen⟩

/-- After an exception that is no signal, the executor has not seen its job stopped. -/
abbrev Raised (exc : Exn) (view : RestoreView) : Prop := view.Executing ∧ (exc.isControlSignal = false → view.Ready)

theorem raised_of_ready {exc : Exn} (h : view.Ready) : Raised exc view := ⟨h.1, fun _ => h⟩

/-- A look that goes on has found the job neither cancelled nor paused, and running when a record is in work. -/
theorem wp_checkControlState {inWork : Bool} {l : HydrationJob} (h : view.Executing) :
    wp (havoc note) (.protocol (allows request)) (checkControlState jobId inWork)
      (fun _ _ v => v.Executing ∧ (inWork = true → v.Ready)) (fun exc _ v => Raised exc v) l view := by
  unfold checkControlState
  rw [wp_bind]
  refine wp_mono wp_requireJob ?_ ?_
  · rintro job l' _ ⟨rfl, rfl⟩
    rw [wp_bind, wp_assign]
    split
    · exact ⟨h, fun hexc => nomatch hexc⟩
    split
    · exact ⟨h, fun hexc => nomatch hexc⟩
    split
    · exact ⟨h, fun hexc => nomatch hexc⟩
    · rename_i hrun
      refine ⟨h, fun hwork => ⟨h, ?_⟩⟩
      rintro id status ⟨⟩
      exact not_not.1 fun hne => hrun ⟨hwork, hne⟩
  · rintro exc l' _ ⟨rfl, rfl⟩
    exact raised_of_ready (ready_unseen h)

/-- The content is read and checked without a look at the job. -/
theorem reads_materializeContent (record : NasFileRecord) :
    Reads (fun o => o.sparesJobs = true) (materializeContent sha256 record : NasM L Bytes) := by
  have hread : Reads (fun o => o.sparesJobs = true) (readArchivedBytes record : NasM L (Option Bytes)) := by
    unfold readArchivedBytes
    split
    · exact only_pure none
    · refine only_ite (fun _ => only_pure none) fun _ => only_bind (only_perform rfl) fun dataset => ?_
      split
      · exact only_pure none
      · exact only_handle (only_bind (only_perform rfl) fun bytes => only_pure (some bytes)) fun _ => only_pure none
  have hcontent : Reads (fun o => o.sparesJobs = true) (simulateContent record : NasM L Bytes) := by
    refine only_bind hread fun content => ?_
    split
    · exact only_pure _
    · exact only_pure _
  exact only_bind hcontent fun content => only_bind (only_ofExcept _) fun _ => only_bind (only_perform rfl) fun _ => only_pure content

theorem calls_setFileStatus (path : String) (record : NasFileRecord) (status : NasFileState) :
    Calls (fun o => o.sparesJobs = true) (setFileStatus path record status) :=
  only_bind (only_perform rfl) fun _ => only_bind (only_assign fun _ => trivial) fun _ => only_pure _

/-- A look whose answer the executor does not mind. -/
theorem wp_look (h : view.Executing) :
    wp (havoc note) (.protocol (allows request)) (requireJob jobId : NasM L NasRestoreJob)
      (fun _ _ v => v.Executing) (fun _ _ v => v.Ready) l view := by
  refine wp_mono wp_requireJob ?_ ?_
  · rintro job l' _ ⟨rfl, rfl⟩
    exact h
  · rintro exc l' _ ⟨rfl, rfl⟩
    exact ready_unseen h

theorem wp_countRestored {path : String} {record : NasFileRecord} {content : Bytes} {l : HydrationJob} (h : view.Ready) :
    wp (havoc note) (.protocol (allows request)) (countRestored jobId path record content)
      (fun _ _ v => v.Executing) (fun _ _ v => v.Ready) l view := by
  unfold countRestored
  rw [wp_bind, wp_locals, wp_bind]
  refine wp_follows trivial (fun restored => ?_) fun _ => h
  rw [wp_bind, wp_assign, wp_bind, wp_locals, wp_bind]
  refine wp_follows h.2 (fun _ => ?_) fun _ => h
  rw [wp_bind]
  exact wp_mono (wp_look h.1) (fun _ _ _ hv => hv) fun _ _ _ hv => hv

theorem wp_countFailed {record : NasFileRecord} {exc : Exn} {l : HydrationJob} (h : view.Ready) :
    wp (havoc note) (.protocol (allows request)) (countFailed jobId record exc)
      (fun _ _ v => v.Executing) (fun _ _ v => v.Executing) l view := by
  unfold countFailed
  rw [wp_bind]
  refine wp_follows trivial (fun _ => ?_) fun _ => h.1
  rw [wp_bind, wp_assign, wp_bind, wp_locals, wp_bind]
  refine wp_follows h.2 (fun _ => ?_) fun _ => h.1
  rw [wp_bind]
  exact wp_mono (wp_look h.1) (fun _ _ _ hv => hv) fun _ _ _ hv => hv.1

theorem wp_restoreRecord {path : String} {record : NasFileRecord} {l : HydrationJob} (h : view.Executing) :
    wp (havoc note) (.protocol (allows request)) (restoreRecord sha256 jobId path record)
      (fun _ _ v => v.Executing) (fun exc _ v => Raised exc v) l view := by
  unfold restoreRecord
  rw [wp_bind]
  refine wp_mono (wp_checkControlState h) ?_ fun _ _ _ hexc => hexc
  intro _ l₁ v₁ h₁
  have hready := h₁.2 rfl
  rw [wp_bind]
  refine wp_mono (wp_spares (reads_materializeContent record)) ?_ ?_
  · rintro content l₂ v₂ ⟨-, rfl⟩
    rw [wp_bind]
    refine wp_mono (wp_checkControlState hready.1) ?_ fun _ _ _ hexc => hexc
    intro _ l₃ v₃ h₃
    exact wp_mono (wp_countRestored (h₃.2 rfl)) (fun _ _ _ h => h) fun _ _ _ hexc => raised_of_ready hexc
  · rintro exc l₂ v₂ ⟨-, rfl⟩
    exact raised_of_ready hready

theorem wp_hydrateRecord {path : String} {record : NasFileRecord} {l : HydrationJob} (h : view.Executing) :
    wp (havoc note) (.protocol (allows request)) (hydrateRecord sha256 jobId path record)
      (fun _ _ v => v.Executing) (fun _ _ v => v.Executing) l view := by
  unfold hydrateRecord
  rw [wp_bind]
  refine wp_mono (wp_spares (calls_setFileStatus path record .hydrating)) ?_ ?_
  · rintro inWork l₁ v₁ ⟨-, rfl⟩
    rw [wp_handle]
    refine wp_mono (wp_restoreRecord h) (fun _ _ _ h => h) ?_
    intro exc l₂ v₂ hexc
    cases hsignal : exc.isControlSignal with
    | false => exact wp_countFailed (hexc.2 hsignal)
    | true =>
      -- the record is put back, and the signal goes on
      rw [if_pos rfl, wp_bind]
      refine wp_mono (wp_spares (calls_setFileStatus path inWork record.status)) ?_ ?_ <;>
      · rintro _ l₃ v₃ ⟨-, rfl⟩
        exact hexc.1
  · rintro exc l₁ v₁ ⟨-, rfl⟩
    exact h

theorem wp_hydratePath {logicalPath : String} {l : HydrationJob} (h : view.Executing) :
    wp (havoc note) (.protocol (allows request)) (hydratePath sha256 jobId logicalPath)
      (fun _ _ v => v.Executing) (fun _ _ v => v.Executing) l view := by
  unfold hydratePath
  rw [wp_bind, wp_locals]
  split
  · exact h
  · split
    · exact h
    · exact wp_hydrateRecord h

/-- A loop whose passes keep the executor executing. -/
theorem wp_executing {γ : Type} {f : γ → NasM HydrationJob Unit} (hf : ∀ x l (v : RestoreView), v.Executing →
      wp (havoc note) (.protocol (allows request)) (f x) (fun _ _ v => v.Executing) (fun _ _ v => v.Executing) l v)
    (xs : List γ) {l : HydrationJob} (h : view.Executing) :
    wp (havoc note) (.protocol (allows request)) (forEach f xs) (fun _ _ v => v.Executing) (fun _ _ v => v.Executing) l view :=
  wp_forEach f xs (fun _ _ v => v.Executing) h (fun _ x _ l v _ hv => hf x l v hv) fun _ _ hv => hv

theorem wp_hydrateGroup {plan : RestorePlan} {group : List Barcode} {l : HydrationJob} (h : view.Executing) :
    wp (havoc note) (.protocol (allows request)) (hydrateGroup sha256 jobId plan group)
      (fun _ _ v => v.Executing) (fun _ _ v => v.Executing) l view := by
  unfold hydrateGroup
  rw [wp_bind]
  refine wp_mono (wp_checkControlState h) ?_ fun _ _ _ hexc => hexc.1
  intro _ l₁ v₁ h₁
  exact wp_executing (fun _ _ _ hv => wp_executing (fun _ _ _ hv => wp_hydratePath hv) _ hv) _ h₁.1

theorem wp_finalizeJob {l : HydrationJob} (h : view.Executing) :
    wp (havoc note) (.protocol (allows request)) (finalizeJob jobId)
      (fun _ _ v => v.Executing) (fun _ _ v => v.Executing) l view := by
  unfold finalizeJob
  rw [wp_bind, wp_assign, wp_bind, wp_locals, wp_bind]
  refine wp_follows ?_ (fun _ => h) fun _ => h
  split <;> trivial

theorem reads_recordsForJob (job : NasRestoreJob) :
    Reads (fun o => o.sparesJobs = true) (recordsForJob job : NasM L (List NasFileRecord)) := by
  unfold recordsForJob
  split
  · exact only_pure []
  · exact only_bind (only_perform rfl) fun _ => only_pure _

/-- An executor follows the protocol to its end. -/
theorem wp_executeRestore {l : HydrationJob} (h : view.Executing) :
    wp (havoc note) (.protocol (allows request)) (executeRestore sha256 jobId)
      (fun _ _ _ => True) (fun _ _ _ => True) l view := by
  have hlook : ∀ (l : HydrationJob) (v : RestoreView), wp (havoc note) (.protocol (allows request)) (requireJob jobId)
      (fun _ _ _ => True) (fun _ _ _ => True) l v := fun l v =>
    wp_mono wp_requireJob (fun _ _ _ _ => trivial) fun _ _ _ _ => trivial
  unfold executeRestore
  rw [wp_bind]
  refine wp_mono wp_requireJob ?_ fun _ _ _ _ => trivial
  rintro job l₁ _ ⟨rfl, rfl⟩
  rw [wp_bind]
  refine wp_mono (wp_spares (reads_recordsForJob job)) ?_ fun _ _ _ _ => trivial
  rintro planned l₂ v₂ ⟨-, rfl⟩
  rw [wp_bind]
  refine wp_mono (wp_spares (reads_recordsForJob job)) ?_ fun _ _ _ _ => trivial
  rintro records l₃ v₃ ⟨-, rfl⟩
  rw [wp_bind, wp_assign, wp_bind, wp_handle, wp_bind]
  refine wp_mono (wp_executing (fun _ _ _ hv => wp_hydrateGroup hv) _ h) ?_ ?_
  · intro _ l₄ v₄ h₄
    rw [wp_pure, if_pos rfl, wp_bind]
    exact wp_mono (wp_finalizeJob h₄) (fun _ l v _ => hlook l v) fun _ _ _ _ => trivial
  · intro exc l₄ v₄ h₄
    split
    · exact hlook l₄ v₄
    · trivial

theorem wp_startRestore {allowed : List RestoreJobStatus} {action : String} {start : NasRestoreJob → NasRestoreJob}
    (hallowed : ∀ status ∈ allowed, status ∈ [RestoreJobStatus.queued, .paused, .failed]) (hid : ∀ job, (start job).id = job.id)
    {l : HydrationJob} :
    wp (havoc note) (.protocol (allows request)) (startRestore sha256 jobId allowed action start)
      (fun _ _ _ => True) (fun _ _ _ => True) l {} := by
  unfold startRestore
  rw [wp_bind]
  refine wp_mono wp_requireJob ?_ fun _ _ _ _ => trivial
  rintro job l₁ _ ⟨rfl, rfl⟩
  rw [wp_bind, wp_ofExcept]
  unfold requireStatus
  split
  · rename_i hcase
    split at hcase
    · rename_i hstatus
      rw [wp_bind]
      refine wp_follows ⟨job.status, ?_, .inr ⟨rfl, hallowed _ hstatus⟩⟩ (fun _ => wp_executeRestore rfl) fun _ => trivial
      exact congrArg some (Prod.ext (hid job).symm rfl)
    · cases hcase
  · trivial

theorem wp_pauseRestore {l : HydrationJob} :
    wp (havoc note) (.protocol (allows request)) (pauseRestore jobId) (fun _ _ _ => True) (fun _ _ _ => True) l {} := by
  unfold pauseRestore
  rw [wp_bind]
  refine wp_mono wp_requireJob ?_ fun _ _ _ _ => trivial
  rintro job l₁ _ ⟨rfl, rfl⟩
  rw [wp_bind, wp_ofExcept]
  unfold requireStatus
  split
  · rename_i hcase
    split at hcase
    · rename_i hstatus
      obtain hrunning : job.status = .running := List.mem_singleton.1 hstatus
      rw [wp_bind]
      refine wp_follows ⟨job.id, by rw [hrunning]⟩ (fun _ => ?_) fun _ => trivial
      exact wp_mono wp_requireJob (fun _ _ _ _ => trivial) fun _ _ _ _ => trivial
    · cases hcase
  · trivial

theorem wp_cancelRestore {l : HydrationJob} :
    wp (havoc note) (.protocol (allows request)) (cancelRestore jobId) (fun _ _ _ => True) (fun _ _ _ => True) l {} := by
  unfold cancelRestore
  rw [wp_bind]
  refine wp_mono wp_requireJob ?_ fun _ _ _ _ => trivial
  rintro job l₁ _ ⟨rfl, rfl⟩
  rw [wp_bind, wp_ofExcept]
  unfold requireStatus
  split
  · rename_i hcase
    split at hcase
    · rename_i hstatus
      rw [wp_bind]
      refine wp_follows (.inr ⟨rfl, job.id, job.status, hstatus, rfl⟩) (fun _ => ?_) fun _ => trivial
      refine (wp_bind (requireJob jobId) _).2 (wp_mono wp_requireJob ?_ fun _ _ _ _ => trivial)
      rintro cancelled l₂ _ ⟨rfl, rfl⟩
      -- the second write gives the status that was found
      exact wp_follows ⟨cancelled.status, rfl, .inl rfl⟩ (fun _ => trivial) fun _ => trivial
    · cases hcase
  · trivial

theorem wp_deleteRestoreJob {l : HydrationJob} (hdelete : request.isDelete = true) :
    wp (havoc note) (.protocol (allows request)) (deleteRestoreJob jobId) (fun _ _ _ => True) (fun _ _ _ => True) l {} := by
  unfold deleteRestoreJob
  rw [wp_bind]
  refine wp_follows (.inl hdelete) (fun found => ?_) fun _ => trivial
  cases found <;> trivial

theorem follows_answered {α : Type} {m : NasM HydrationJob α} (h : wp (havoc note) (.protocol (allows request)) m
      (fun _ _ _ => True) (fun _ _ _ => True) {} {}) : (RestoreRequest.answered m).Follows note (allows request) {} :=
  (Prog.wp_bind _ _ _ _).2 (Prog.wp_mono h fun _ _ _ => trivial)

/-- Every request follows its protocol. -/
theorem follows_request (sha256 : Bytes → String) (request : RestoreRequest) :
    (request.program sha256).Follows note (allows request) {} := by
  cases request with
  | run jobId =>
    refine follows_answered ?_
    unfold runRestore
    refine wp_startRestore ?_ ?_
    · simp
    · exact fun _ => rfl
  | pause jobId => exact follows_answered wp_pauseRestore
  | resume jobId =>
    refine follows_answered ?_
    unfold resumeRestore
    refine wp_startRestore ?_ ?_
    · simp
    · exact fun _ => rfl
  | retry jobId =>
    refine follows_answered ?_
    unfold retryRestore
    refine wp_startRestore ?_ ?_
    · simp
    · exact fun _ => rfl
  | cancel jobId => exact follows_answered wp_cancelRestore
  | delete jobId => exact follows_answered (wp_deleteRestoreJob rfl)

/-! ### The steps of an interleaving -/

section Steps

variable {ι : Type} [DecidableEq ι] {requests : ι → RestoreRequest} {hist : List (RestoreStep ι)} {w : NasWorld} {i : ι}
  {o : NasOp} {c : NasChoice}

theorem viewOf_concat (hist : List (RestoreStep ι)) (x : RestoreStep ι) :
    viewOf (hist ++ [x]) = Function.update (viewOf hist) x.1 ((viewOf hist x.1).note x.2.op x.2.ans) := by
  funext j
  unfold viewOf
  rw [List.foldl_append, List.foldl_cons, List.foldl_nil]
  by_cases hj : x.1 = j
  · subst hj
    rw [if_pos rfl, Function.update_self]
  · rw [if_neg hj, Function.update_of_ne (Ne.symm hj)]

/-- An undisturbed call leaves the statuses that are to stay. -/
theorem stays_of_undisturbed (ha : (viewOf hist i).allows (requests i) o)
    (hx : Undisturbed requests hist (i, nasMachine.step w o c)) {id : JobId} {current : RestoreJobStatus}
    (hcurrent : w.jobStatus id = some current) (hbars : (viewOf hist i).Bars current) :
    (w.exec o c).2.jobStatus id = some current := by
  rcases NasWorld.jobStatus_exec c o id with hsame | ⟨status, hwrites, hpost⟩
  · exact hsame.trans hcurrent
  · by_cases hne : current = status
    · rw [hpost, hne]
    · obtain ⟨hdelete, hfinal, hseen⟩ := hx id status current hwrites hcurrent hne hbars
      exact absurd hbars (not_bars_of_allows ha hwrites hne hdelete hfinal hseen)

/-- The statuses that jobs ended with are still theirs. -/
def Kept (hist : List (RestoreStep ι)) (w : NasWorld) : Prop :=
  ∀ x ∈ hist, ∀ id status, status.isFinal = true → x.2.pre.jobStatus id = some status ∨ x.2.post.jobStatus id = some status →
    w.jobStatus id = some status

theorem Kept.step (h : Kept hist w)
    (hstays : ∀ id current, w.jobStatus id = some current → (viewOf hist i).Bars current →
      (w.exec o c).2.jobStatus id = some current) :
    Kept (hist ++ [(i, nasMachine.step w o c)]) (w.exec o c).2 := by
  intro x hx id status hfinal hstatus
  rcases List.mem_append.1 hx with hx | hx
  · exact hstays id status (h x hx id status hfinal hstatus) (.inl hfinal)
  · obtain rfl := List.mem_singleton.1 hx
    rcases hstatus with hpre | hpost
    · exact hstays id status hpre (.inl hfinal)
    · exact hpost

/-- In every interleaving without a disturbance the statuses are kept, and paused jobs stay paused. -/
theorem kept_trace (sha256 : Bytes → String) (requests : ι → RestoreRequest) (w : NasWorld) (sched : List (ι × NasChoice)) :
    let trace := Pool.trace nasMachine sched (fun i => (requests i).program sha256) w
    Throughout (Undisturbed requests) trace →
      Kept trace (Pool.finalState nasMachine sched (fun i => (requests i).program sha256) w) ∧ Throughout LeavesPaused trace := by
  let I (hist : List (RestoreStep ι)) (w : NasWorld) (views : ι → RestoreView) : Prop :=
    views = viewOf hist ∧ (Throughout (Undisturbed requests) hist → Kept hist w ∧ Throughout LeavesPaused hist)
  have hstart : I [] w fun _ => {} := ⟨rfl, fun _ => ⟨(fun _ hx => nomatch hx), throughout_nil⟩⟩
  have hstep : ∀ hist w views i o c, I hist w views → (views i).allows (requests i) o →
      I (hist ++ [(i, nasMachine.step w o c)]) (w.exec o c).2 (Function.update views i ((views i).note o (w.exec o c).1)) := by
    rintro hist w _ i o c ⟨rfl, h⟩ ha
    refine ⟨(viewOf_concat hist (i, nasMachine.step w o c)).symm, fun hun => ?_⟩
    obtain ⟨hpast, hx⟩ := throughout_concat_iff.1 hun
    obtain ⟨hkept, hpaused⟩ := h hpast
    have hstays : ∀ id current, w.jobStatus id = some current → (viewOf hist i).Bars current →
        (w.exec o c).2.jobStatus id = some current := fun id current => stays_of_undisturbed ha hx
    refine ⟨hkept.step hstays, throughout_concat hpaused ?_⟩
    exact fun hstarted id hpre => hstays id .paused hpre (.inr ⟨rfl, hstarted⟩)
  obtain ⟨views, -, h⟩ := Pool.invariant_of_follows (M := nasMachine) (fun o => ⟨.error { cls := .assertion, message := "" }⟩) hstep
    (fun i => follows_request sha256 (requests i)) hstart sched
  exact h

end Steps

end FinalityAux

/-- In every interleaving of requests without a disturbance, a job that is cancelled or completed is so to the end, a cancel that
says so has made the job cancelled, and no executor moves a paused job on. -/
theorem restores_final {ι : Type} [DecidableEq ι] (sha256 : Bytes → String) (requests : ι → RestoreRequest) (w : NasWorld)
    (sched : List (ι × NasChoice)) :
    let trace := Pool.trace nasMachine sched (fun i => (requests i).program sha256) w
    let reached := Pool.finalState nasMachine sched (fun i => (requests i).program sha256) w
    Throughout (Undisturbed requests) trace →
      (∀ x ∈ trace, ∀ id status, status.isFinal = true →
        x.2.pre.jobStatus id = some status ∨ x.2.post.jobStatus id = some status → reached.jobStatus id = some status) ∧
      (∀ x ∈ trace, ∀ id, x.2.op.SaysCancelled x.2.ans id → reached.jobStatus id = some .cancelled) ∧
      Throughout LeavesPaused trace := by
  intro trace reached hun
  obtain ⟨hkept, hpaused⟩ := FinalityAux.kept_trace sha256 requests w sched hun
  refine ⟨hkept, fun x hx id hsays => ?_, hpaused⟩
  obtain ⟨w, o, c, hstep⟩ := Pool.ran_of_mem_trace hx
  refine hkept x hx id .cancelled rfl (.inr ?_)
  rw [hstep] at hsays ⊢
  exact NasWorld.jobStatus_of_saysCancelled hsays

namespace FinalityExample

/-- A job for the one file of a pool. -/
def world : NasWorld :=
  { catalog :=
      { datasets := [("D", { id := "D", poolId := some "P", name := "d" })]
        files := [("F", { id := "F", datasetId := "D", poolId := some "P", relativePath := "a", tapeBarcode := some "T1" })]
        restoreJobs := [("J", { id := "J", poolId := some "P", requiredTapes := ["T1"], tapeLoadOrder := ["T1"] })] }
    tapes := [("T1", [("/d/a", [1, 2, 3])])] }

/-- A run of the job, and a cancel. -/
def requests : Bool → RestoreRequest
  | true => .run "J"
  | false => .cancel "J"

/-- The run has its turn so many times, then the cancel, then the run again. -/
def cancelAfter (turns : Nat) : List (Bool × NasChoice) :=
  List.replicate turns (true, ({} : NasChoice)) ++ List.replicate 4 (false, ({} : NasChoice)) ++
    List.replicate 20 (true, ({} : NasChoice))

/-- A status is written only over statuses that no request has to leave alone. -/
def Clear (x : RestoreStep Bool) : Prop :=
  ∀ target ∈ x.2.op.writesStatus, ∀ current ∈ x.2.pre.jobStatus target.1,
    current = target.2 ∨ current ∉ [RestoreJobStatus.completed, .cancelled, .paused]

instance (x : RestoreStep Bool) : Decidable (Clear x) := by
  unfold Clear
  infer_instance

theorem undisturbed_of_clear {hist : List (RestoreStep Bool)} {x : RestoreStep Bool} (h : Clear x) : Undisturbed requests hist x := by
  intro id status current hwrites hcurrent hne hbars
  rcases h _ hwrites _ hcurrent with heq | hnot
  · exact absurd heq hne
  · rcases hbars with hfinal | ⟨rfl, -⟩
    · cases current <;> simp_all [RestoreJobStatus.isFinal]
    · simp at hnot

end FinalityExample

open FinalityExample in
/-- A cancel between the two looks at a file ends the run. -/
theorem restores_final_cancel :
    (∃ x ∈ Pool.trace nasMachine (cancelAfter 9) (fun i => (requests i).program fun _ => "") world,
      x.2.op.writesStatus = some ("J", .cancelled) ∧ x.2.pre.jobStatus "J" = some .running ∧ x.2.post.jobStatus "J" = some .cancelled) ∧
    (Pool.finalState nasMachine (cancelAfter 9) (fun i => (requests i).program fun _ => "") world).jobStatus "J" = some .cancelled := by
  have hcancel : ∃ x ∈ Pool.trace nasMachine (cancelAfter 9) (fun i => (requests i).program fun _ => "") world,
      x.2.op.writesStatus = some ("J", .cancelled) ∧ x.2.pre.jobStatus "J" = some .running ∧
        x.2.post.jobStatus "J" = some .cancelled := by decide +kernel
  have hclear : ∀ x ∈ Pool.trace nasMachine (cancelAfter 9) (fun i => (requests i).program fun _ => "") world, Clear x := by
    decide +kernel
  refine ⟨hcancel, ?_⟩
  obtain ⟨x, hx, -, -, hpost⟩ := hcancel
  refine (restores_final (fun _ => "") requests world (cancelAfter 9) ?_).1 x hx "J" .cancelled rfl (.inr hpost)
  intro pre y post hsplit
  exact undisturbed_of_clear (hclear y (by rw [hsplit]; simp))

open FinalityExample in
/-- A cancel that comes after the last look at a file is undone: the job is completed. -/
theorem cancelled_job_completes :
    ¬∀ (sha256 : Bytes → String) (requests : Bool → RestoreRequest) (w : NasWorld) (sched : List (Bool × NasChoice)),
      ∀ x ∈ Pool.trace nasMachine sched (fun i => (requests i).program sha256) w, ∀ id status, status.isFinal = true →
        x.2.post.jobStatus id = some status →
          (Pool.finalState nasMachine sched (fun i => (requests i).program sha256) w).jobStatus id = some status := by
  intro h
  have hcancel : ∃ x ∈ Pool.trace nasMachine (cancelAfter 12) (fun i => (requests i).program fun _ => "") world,
      x.2.post.jobStatus "J" = some .cancelled := by decide +kernel
  have hreached : (Pool.finalState nasMachine (cancelAfter 12) (fun i => (requests i).program fun _ => "") world).jobStatus "J" =
      some .completed := by decide +kernel
  obtain ⟨x, hx, hpost⟩ := hcancel
  have hcancelled := h (fun _ => "") requests world (cancelAfter 12) x hx "J" .cancelled rfl hpost
  rw [hreached] at hcancelled
  cases hcancelled

end OpenBlade
