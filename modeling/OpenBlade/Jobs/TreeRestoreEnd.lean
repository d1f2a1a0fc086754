import OpenBlade.Jobs.RestoreCollisions
import OpenBlade.Jobs.TreeDestinations
import OpenBlade.Jobs.TreeRestoreRun

/-!
# How a tree restore ends

A plan that is made is carried out to its end, and the files restored and failed are all that were planned. What is reported restored is
there, as long as the files planned leave each other room.
-/

namespace OpenBlade

open Effects Proc

namespace TreeRunAux

open VisibilityAux TreeAux NamespaceAux TapeNamesAux

variable {sha256 : Bytes → String} {quote : String → String} {w s : RestoreWorld} {files : Dict Location Bytes}

/-! ### A single job -/

section single

variable {request : RestoreJobRequest} {jobId : Nat} {l : TapeLocals}

/-- Only the destination has changed, and where a job puts what is not verified. -/
def Touches (dest : PurePosixPath) (before after : Dict Location Bytes) : Prop :=
  ∀ loc, loc ≠ dest.location → (∀ path ∈ dest.withName (dest.name ++ ".quarantine"), loc ≠ path.location) → after.get? loc = before.get? loc

theorem Touches.refl (dest : PurePosixPath) (files : Dict Location Bytes) : Touches dest files files := fun _ _ _ => rfl

theorem touches_set (dest : PurePosixPath) (files : Dict Location Bytes) (data : Bytes) :
    Touches dest files (files.set dest.location data) := by
  intro loc hdest _
  rw [Dict.get?_set, if_neg hdest.symm]

theorem touches_erase (dest : PurePosixPath) (files : Dict Location Bytes) : Touches dest files (files.erase dest.location) := by
  intro loc hdest _
  rw [Dict.get?_erase, if_neg hdest.symm]

theorem touches_quarantine {dest quarantine : PurePosixPath} (h : dest.withName (dest.name ++ ".quarantine") = some quarantine)
    {files after : Dict Location Bytes} (htouches : Touches dest files after) (data : Bytes) :
    Touches dest files ((after.erase dest.location).set quarantine.location data) := by
  intro loc hdest hother
  rw [Dict.get?_set, if_neg (hother quarantine h).symm, Dict.get?_erase, if_neg hdest.symm]
  exact htouches loc hdest hother

/-- Unloading changes no file. -/
theorem wp_unloadTape_files {barcode : Barcode} (hs : Stands w files s) :
    wp (restoreCutMachine sha256) free (unloadTape barcode) (fun _ _ s' => Stands w files s') (fun _ _ s' => Stands w files s') l s := by
  unfold unloadTape
  rw [wp_bind, wp_locals]
  split
  · exact hs
  · rw [wp_bind, wp_handle]
    refine wp_quiet trivial hs (fun _ s₁ hs₁ _ => ?_) fun e s₁ hs₁ => wp_noteFenced fun _ _ => hs₁
    split
    · exact wp_quiet trivial hs₁ (fun _ _ h _ => h) fun _ _ h => h
    · exact hs₁

/-- The tape part of a job: it ends normally with something read. -/
theorem wp_readSingle {row : FileInstance} {dest : PurePosixPath} (hs : Stands w files s) :
    wp (restoreCutMachine sha256) free (readSingle row dest) (fun _ _ s' => ∃ data, Stands w (files.set dest.location data) s')
      (fun _ _ s' => ∃ after, Stands w after s' ∧ Touches dest files after) l s := by
  have hkept : ∀ {s'}, Stands w files s' → ∃ after, Stands w after s' ∧ Touches dest files after := fun h => ⟨files, h, Touches.refl _ _⟩
  -- an exception on the way
  have hraised : ∀ {after s'} {l' : TapeLocals} (e : Exn), Stands w after s' → Touches dest files after →
      wp (restoreCutMachine sha256) free (noteFenced e : RestoreM Unit)
        (fun _ l'' s'' => wp (restoreCutMachine sha256) free (unloadTape row.barcode)
          (fun _ _ s₃ => ∃ data, Stands w (files.set dest.location data) s₃) (fun _ _ s₃ => ∃ after, Stands w after s₃ ∧ Touches dest files after)
          l'' s'')
        (fun _ l'' s'' => wp (restoreCutMachine sha256) free (unloadTape row.barcode)
          (fun _ _ s₃ => ∃ after, Stands w after s₃ ∧ Touches dest files after)
          (fun _ _ s₃ => ∃ after, Stands w after s₃ ∧ Touches dest files after) l'' s'') l' s' := by
    intro after s' l' e hs' htouches
    exact wp_noteFenced fun l'' _ => wp_mono (wp_unloadTape_files hs') (fun _ _ _ h => ⟨after, h, htouches⟩) fun _ _ _ h => ⟨after, h, htouches⟩
  unfold readSingle
  rw [wp_ensure, wp_handle, wp_bind]
  refine wp_quiet trivial hs (fun fromSlot s₁ hs₁ _ => ?_) fun e _ h => hraised e h (Touches.refl _ _)
  rw [wp_bind, wp_assign, wp_bind]
  refine wp_quiet trivial hs₁ (fun _ s₂ hs₂ _ => ?_) fun e _ h => hraised e h (Touches.refl _ _)
  rw [wp_bind]
  refine wp_quiet trivial hs₂ (fun _ s₃ hs₃ _ => ?_) fun e _ h => hraised e h (Touches.refl _ _)
  rw [wp_ensure]
  refine wp_readFile hs₃ (fun data s₄ hs₄ => ?_) (fun e s₄ hs₄ => ?_) fun e data s₄ hs₄ => ?_
  · rw [wp_bind]
    refine wp_quiet trivial hs₄ (fun _ s₅ hs₅ _ => ?_) fun e _ h => hraised e h (touches_set _ _ _)
    refine wp_quiet trivial hs₅ (fun _ s₆ hs₆ _ => ?_) fun e _ h => hraised e h (touches_set _ _ _)
    exact wp_mono (wp_unloadTape_files hs₆) (fun _ _ _ h => ⟨data, h⟩) fun _ _ _ h => ⟨_, h, touches_set _ _ _⟩
  · rw [wp_bind]
    refine wp_quiet trivial hs₄ (fun _ s₅ hs₅ _ => ?_) fun e' _ h => hraised e' h (Touches.refl _ _)
    exact wp_quiet trivial hs₅ (fun _ _ h _ => hraised e h (Touches.refl _ _)) fun e' _ h => hraised e' h (Touches.refl _ _)
  · rw [wp_bind]
    refine wp_quiet trivial hs₄ (fun _ s₅ hs₅ _ => ?_) fun e' _ h => hraised e' h (touches_set _ _ _)
    exact wp_quiet trivial hs₅ (fun _ _ h _ => hraised e h (touches_set _ _ _)) fun e' _ h => hraised e' h (touches_set _ _ _)

/-- A job for a place that is no directory changes that place, and ends normally only with the file of the catalog there. -/
theorem wp_runRestoreJob_touches (hdry : request.dryRun = false) (hdir : request.destPath.location ∉ w.dirs) (hs : Stands w files s) :
    wp (restoreCutMachine sha256) free (runRestoreJob request jobId)
      (fun _ _ s' => ∃ after, Stands w after s' ∧ Touches request.destPath files after ∧ ∃ record row data,
        w.catalog.getLatestInstanceForPath request.catalogPath = .ok (record, row) ∧
          after.get? request.destPath.location = some data ∧ sha256 data = record.checksumSha256)
      (fun _ _ s' => ∃ after, Stands w after s' ∧ Touches request.destPath files after) l s := by
  have hdest : w.destOf request = request.destPath := if_neg hdir
  have hkept : ∀ {s'}, Stands w files s' → ∃ after, Stands w after s' ∧ Touches request.destPath files after :=
    fun h => ⟨files, h, Touches.refl _ _⟩
  unfold runRestoreJob setJobState
  rw [wp_scope, wp_bind]
  refine wp_quiet trivial hs (fun _ s₁ hs₁ _ => ?_) fun _ _ h => hkept h
  rw [wp_bind]
  refine wp_quiet trivial hs₁ (fun found s₂ hs₂ hfound => ?_) fun _ _ h => hkept h
  obtain ⟨record, row⟩ := found
  rw [wp_bind]
  refine wp_quiet trivial hs₂ (fun cartridge s₃ hs₃ _ => ?_) fun _ _ h => hkept h
  split
  · rw [wp_bind]
    exact wp_quiet trivial hs₃ (fun _ _ h _ => hkept h) fun _ _ h => hkept h
  rw [if_neg (by simp [hdry]), wp_bind]
  refine wp_quiet trivial hs₃ (fun _ s₄ hs₄ _ => ?_) fun _ _ h => hkept h
  rw [wp_bind]
  refine wp_batchDest hs₄ (fun s₅ hs₅ => ?_) fun _ _ h => hkept h
  rw [hdest, wp_bind, wp_ensure, wp_handle]
  have hrelease : ∀ {after s' l'}, Stands w after s' → Touches request.destPath files after →
      wp (restoreCutMachine sha256) free (step (.releaseDrive row.barcode))
        (fun _ _ s₃ => ∃ after, Stands w after s₃ ∧ Touches request.destPath files after)
        (fun _ _ s₃ => ∃ after, Stands w after s₃ ∧ Touches request.destPath files after) l' s' :=
    fun h htouches => wp_quiet trivial h (fun _ _ h _ => ⟨_, h, htouches⟩) fun _ _ h => ⟨_, h, htouches⟩
  refine wp_mono (wp_readSingle hs₅) ?_ ?_
  · rintro _ l₆ s₆ ⟨data, hs₆⟩
    refine wp_quiet trivial hs₆ (fun _ s₇ hs₇ _ => ?_) fun _ _ h => ⟨_, h, touches_set _ _ _⟩
    rw [wp_bind]
    refine wp_quiet trivial hs₇ (fun actual s₈ hs₈ hactual => ?_) fun _ _ h => ⟨_, h, touches_set _ _ _⟩
    obtain ⟨stored, hstored, rfl⟩ := hactual
    have hdata := hstored
    rw [Dict.get?_set, if_pos rfl] at hdata
    obtain rfl : data = stored := Option.some.inj hdata
    split
    · rw [wp_bind]
      refine wp_withName (fun quarantine hquarantine => ?_) fun e => ⟨_, hs₈, touches_set _ _ _⟩
      rw [wp_bind]
      refine wp_rename hs₈ (fun moved s₉ _ hs₉ => ?_) fun _ _ h => ⟨_, h, touches_set _ _ _⟩
      rw [wp_bind]
      exact wp_quiet trivial hs₉ (fun _ _ h _ => ⟨_, h, touches_quarantine hquarantine (touches_set _ _ _) moved⟩)
        fun _ _ h => ⟨_, h, touches_quarantine hquarantine (touches_set _ _ _) moved⟩
    · rename_i hsum
      exact wp_quiet trivial hs₈
        (fun _ _ h _ => ⟨_, h, touches_set _ _ _, record, row, data, hfound, hstored, not_not.1 hsum⟩)
        fun _ _ h => ⟨_, h, touches_set _ _ _⟩
  · rintro e l₆ s₆ ⟨after, hs₆, htouches⟩
    split
    · rw [wp_bind]
      exact wp_quiet trivial hs₆ (fun _ _ h _ => hrelease h htouches) fun _ _ h => hrelease h htouches
    · exact hrelease hs₆ htouches

end single

/-! ### The rows of the jobs -/

section rows

variable {parent : Nat} {ids : List Nat} {next : Nat} {state : Option String}

/-- A step of a job that leaves the row of another one alone, and makes none. -/
def Spares (parent : Nat) : RestoreOp → Prop
  | .createJob _ => False
  | .updateJobState jobId _ _ => jobId ≠ parent
  | _ => True

/-- The rows there are, and the state of one of them. -/
structure Rows (parent : Nat) (ids : List Nat) (next : Nat) (state : Option String) (s : RestoreWorld) : Prop where
  ids : s.jobs.map JobRow.id = ids
  next : s.nextJob = next
  state : s.stateOf parent = state

theorem hasJob_iff {jobId : Nat} : HasJob jobId s ↔ jobId ∈ s.jobs.map JobRow.id := by
  unfold HasJob
  rw [List.any_eq_true, List.mem_map]
  exact exists_congr fun job => and_congr_right fun _ => decide_eq_true_iff

/-- An update changes the state of the row it is for. -/
theorem rows_update (sha256 : Bytes → String) (hs : Rows parent ids next state s) (jobId : Nat) (state' : String) (error : Option String) :
    Rows parent ids next (if jobId = parent then state.map fun _ => state' else state)
      (s.perform sha256 {} (.updateJobState jobId state' error)).2 := by
  obtain ⟨rfl, rfl, rfl⟩ := hs
  by_cases hrow : (s.jobs.any fun job => job.id = jobId) = true
  · have hperform : s.perform sha256 {} (.updateJobState jobId state' error) = (.ok (),
        { s with jobs := s.jobs.map fun job => if job.id = jobId then { job with state := state', error := error } else job }) :=
      if_pos hrow
    rw [hperform]
    refine ⟨?_, rfl, ?_⟩
    · show (s.jobs.map _).map JobRow.id = _
      rw [List.map_map]
      refine List.map_congr_left fun job _ => ?_
      rw [Function.comp_apply]
      split <;> rfl
    · unfold RestoreWorld.stateOf
      rw [List.find?_map]
      have hsame : ((fun job : JobRow => decide (job.id = parent)) ∘
          fun job => if job.id = jobId then { job with state := state', error := error } else job) = fun job => decide (job.id = parent) := by
        funext job
        rw [Function.comp_apply]
        split <;> rfl
      rw [hsame]
      cases hfound : s.jobs.find? fun job => decide (job.id = parent) with
      | none => simp
      | some job =>
        have hid : job.id = parent := by simpa using List.find?_some hfound
        rw [Option.map_some, Option.map_some, Option.map_some, Option.map_some, hid]
        by_cases hjob : jobId = parent
        · rw [if_pos hjob, if_pos hjob.symm]
        · rw [if_neg hjob, if_neg fun h => hjob h.symm]
  · have hperform : s.perform sha256 {} (.updateJobState jobId state' error) =
        (.error (Catalog.fileNotFound ("Job " ++ toString jobId ++ " not found")), s) := if_neg hrow
    rw [hperform]
    refine ⟨rfl, rfl, ?_⟩
    by_cases hjob : jobId = parent
    · subst hjob
      have hgone : (s.jobs.find? fun job => decide (job.id = jobId)) = none := by
        rw [List.find?_eq_none]
        intro job hjob hid
        exact hrow (List.any_eq_true.2 ⟨job, hjob, hid⟩)
      rw [if_pos rfl, RestoreWorld.stateOf, hgone]
      rfl
    · rw [if_neg hjob]

/-- What spares the row keeps all of them. -/
theorem execCut_rows {o : RestoreOp} (ho : Spares parent o) (hs : Rows parent ids next state s) (c : CutChoice) :
    Rows parent ids next state (s.execCut sha256 o c).2 := by
  have hexec : Rows parent ids next state (s.exec sha256 c.choice o).2 := by
    unfold RestoreWorld.exec
    cases c.choice.fails with
    | some e => exact hs
    | none =>
      cases o with
      | createJob metadata => exact ho.elim
      | updateJobState jobId state' error =>
        have hrows := rows_update sha256 hs jobId state' error
        rw [if_neg ho] at hrows
        exact hrows
      | sha256sum path =>
        simp only [RestoreWorld.perform]
        split <;> exact hs
      | rename path target =>
        simp only [RestoreWorld.perform]
        split
        · exact hs
        · exact ⟨hs.ids, hs.next, hs.state⟩
      | readFile | unlink => exact ⟨hs.ids, hs.next, hs.state⟩
      | _ => exact hs
  obtain ⟨⟨fails, bytes, fromSlot⟩, cut⟩ := c
  cases o with
  | readFile row dest =>
    cases fails with
    | none => exact hexec
    | some e =>
      cases cut with
      | none => exact hexec
      | some data => exact ⟨hs.ids, hs.next, hs.state⟩
  | _ => exact hexec

/-- A job sets no state but its own. -/
theorem spares_runRestoreJob {request : RestoreJobRequest} {child : Nat} (h : child ≠ parent) :
    Calls (Spares parent) (runRestoreJob request child) := by
  have hstate : ∀ (state : String) (error : Option String), Calls (Spares parent) (setJobState child state error) :=
    fun _ _ => only_perform h
  have hquiet : ∀ o : RestoreOp, Spares parent o → Calls (Spares parent) (step o) := fun _ ho => only_perform ho
  have hfenced : ∀ {α : Type} (e : Exn), Calls (Spares parent) (noteFenced e : RestoreM α) := fun e =>
    only_ite (fun _ => only_bind (only_assign fun _ => trivial) fun _ => only_raise e) fun _ => only_raise e
  have hunload : ∀ barcode : Barcode, Calls (Spares parent) (unloadTape barcode) := by
    intro barcode
    refine only_bind only_locals fun l => only_ite (fun _ => only_pure ()) fun _ => ?_
    refine only_bind (only_handle (hquiet _ trivial) hfenced) fun _ => ?_
    exact only_ite (fun _ => hquiet _ trivial) fun _ => only_pure ()
  have hread : ∀ row dest, Calls (Spares parent) (readSingle row dest) := by
    intro row dest
    refine only_ensure (only_handle ?_ hfenced) fun _ => hunload _
    refine only_bind (hquiet _ trivial) fun fromSlot => only_bind (only_assign fun _ => trivial) fun _ => ?_
    refine only_bind (hquiet _ trivial) fun _ => only_bind (hquiet _ trivial) fun _ => ?_
    exact only_ensure (hquiet _ trivial) fun _ => only_bind (hquiet _ trivial) fun _ => hquiet _ trivial
  refine calls_scope (only_bind (hstate _ _) fun _ => only_bind (hquiet _ trivial) fun found => ?_)
  refine only_bind (hquiet _ trivial) fun cartridge => only_ite (fun _ => only_bind (hstate _ _) fun _ => only_raise _) fun _ => ?_
  refine only_ite (fun _ => hstate _ _) fun _ => only_bind (hquiet _ trivial) fun _ => only_bind ?_ fun dest => ?_
  · exact only_bind (hquiet _ trivial) fun isDir => only_ite (fun _ => only_pure _) fun _ => only_pure _
  refine only_bind (only_ensure (only_handle (hread _ _) fun e => ?_) fun _ => hquiet _ trivial) fun _ => ?_
  · exact only_ite (fun _ => only_bind (hstate _ _) fun _ => only_raise e) fun _ => only_raise e
  refine only_bind (hquiet _ trivial) fun actual => only_ite (fun _ => ?_) fun _ => hstate _ _
  refine only_bind ?_ fun quarantine => only_bind (hquiet _ trivial) fun _ => only_bind (hstate _ _) fun _ => only_raise _
  unfold withName
  split
  · exact only_pure _
  · exact only_raise _

end rows

/-! ### The count -/

section count

variable {parent : Nat} {ids : List Nat} {next : Nat} {l : TreeRestoreResult} {item : PlannedFile}

/-- Nothing is assumed of the environment. -/
abbrev anyhow : Contract RestoreWorld TreeOp fun o => Except Exn o.Ans := .alone (fun _ => True) fun _ => True

/-- A step that makes no row, and leaves one alone. -/
def TreeSpares (parent : Nat) : TreeOp → Prop
  | .job o => Spares parent o
  | .makeParents _ | .sharded _ _ => True
  | _ => False

theorem makeParents_rows {state : Option String} {path : PurePosixPath} (hs : Rows parent ids next state s) :
    Rows parent ids next state (s.makeParents path).2 := by
  unfold RestoreWorld.makeParents
  split
  · exact hs
  · exact ⟨hs.ids, hs.next, hs.state⟩

theorem runSharded_rows {state : Option String} {catalogPath : String} {destPath : PurePosixPath} (hs : Rows parent ids next state s)
    (outcome : ShardedOutcome) : Rows parent ids next state (s.runSharded sha256 catalogPath destPath outcome).2 := by
  have hfiles : ∀ files, Rows parent ids next state { s with files := files } := fun _ => ⟨hs.ids, hs.next, hs.state⟩
  unfold RestoreWorld.runSharded
  split
  · exact hs
  · exact hfiles _
  · exact hfiles _
  · exact hs
  · split
    · exact hs
    · split
      · exact hs
      · exact hfiles _

theorem stable_rows (sha256 : Bytes → String) (quote : String → String) {state : Option String} :
    Stable (treeMachine sha256 quote) anyhow (TreeSpares parent) (Rows parent ids next state) := by
  rintro o ho s _ c hs rfl -
  refine ⟨trivial, ?_⟩
  cases o with
  | job o => exact execCut_rows ho hs c.job
  | makeParents path =>
    simp only [treeMachine]
    split
    · exact hs
    · exact makeParents_rows hs
  | sharded catalogPath destPath => exact runSharded_rows hs c.sharded
  | setState | plan | createChild => exact ho.elim

/-- A file of the tree: its job touches no other row. -/
theorem reads_restoreFile {child : Nat} (h : child ≠ parent) : Reads (TreeSpares parent) (restoreFile item child) := by
  refine only_bind (only_perform trivial) fun _ => only_ite (fun _ => ?_) fun _ => ?_
  · exact only_bind (only_perform trivial) fun answer => only_ite (fun _ => only_raise _) fun _ => only_pure _
  · exact only_bind (reads_scope (Only.embed (spares_runRestoreJob h) fun _ ho => ho)) fun _ => only_pure true

/-- The row of a job that is there takes its state. -/
theorem wp_setState {jobId : Nat} {state : String} {error : Option String} {before : Option String}
    {N : Unit → TreeRestoreResult → RestoreWorld → Prop} {E : Exn → TreeRestoreResult → RestoreWorld → Prop}
    (hs : Rows parent ids next before s) (hjob : jobId ∈ ids)
    (hN : ∀ s', s'.catalog = s.catalog → Rows parent ids next (if jobId = parent then before.map fun _ => state else before) s' → N () l s') :
    wp (treeMachine sha256 quote) anyhow (treeStep (.setState jobId state error)) N E l s := by
  refine wp_call fun s₁ hr c _ => ?_
  obtain rfl : s = s₁ := hr
  have hrow : (s.jobs.any fun job => job.id = jobId) = true := hasJob_iff.2 (hs.ids ▸ hjob)
  have hperform : (treeMachine sha256 quote).exec s (.setState jobId state error) c = (.ok (),
      { s with jobs := s.jobs.map fun job => if job.id = jobId then { job with state := state, error := error } else job }) :=
    if_pos hrow
  have hrows := rows_update sha256 hs jobId state error
  have hupdate : s.perform sha256 {} (.updateJobState jobId state error) = (treeMachine sha256 quote).exec s (.setState jobId state error) c :=
    rfl
  rw [hupdate] at hrows
  rw [hperform] at hrows ⊢
  exact ⟨trivial, fun _ _ => hN _ rfl hrows, fun e he => by cases he⟩

/-- How far the loop is. -/
structure Counting (parent : Nat) (done : Nat) (l : TreeRestoreResult) (s : RestoreWorld) : Prop where
  rows : ∃ ids next, parent < next ∧ parent ∈ ids ∧ Rows parent ids next (some "running") s
  counted : l.filesRestored + l.filesFailed = done
  listed : l.failures.length = l.filesFailed

/-- Whatever happens to a file, it is counted once, and the loop goes on. -/
theorem wp_restoreItem_counts {done : Nat} (hs : Counting parent done l s) :
    wp (treeMachine sha256 quote) anyhow (restoreItem item) (fun _ l' s' => Counting parent (done + 1) l' s') (fun _ _ _ => False) l s := by
  obtain ⟨⟨ids, next, hnext, hparent, hrows⟩, hcounted, hlisted⟩ := hs
  unfold restoreItem
  rw [wp_bind]
  refine wp_call fun s₁ hr c _ => ?_
  obtain rfl : s = s₁ := hr
  refine ⟨trivial, fun child hchild => ?_, fun e he => by cases he⟩
  obtain rfl : next = child := hrows.next.symm.trans (Except.ok.inj hchild)
  -- the row of the child stands before the others
  have hmade : Rows parent (next :: ids) (next + 1) (some "running")
      ((treeMachine sha256 quote).exec s (.createChild { catalogPath := item.catalogPath, destPath := some item.destPath.toString }) c).2 := by
    obtain ⟨rfl, rfl, hstate⟩ := hrows
    refine ⟨rfl, rfl, ?_⟩
    rw [← hstate]
    exact congrArg (Option.map JobRow.state) (List.find?_cons_of_neg (by simpa using Nat.ne_of_gt hnext))
  generalize ((treeMachine sha256 quote).exec s (.createChild { catalogPath := item.catalogPath, destPath := some item.destPath.toString })
    c).2 = s₂ at hmade ⊢
  have hother : next ≠ parent := Nat.ne_of_gt hnext
  rw [wp_bind, wp_handle, wp_bind]
  refine wp_mono ((reads_restoreFile hother).keeps (stable_rows sha256 quote) hmade) ?_ ?_
  · rintro verified _ s₃ ⟨rfl, hs₃⟩
    refine ⟨⟨_, _, Nat.lt_succ_of_lt hnext, List.mem_cons_of_mem _ hparent, hs₃⟩, ?_, hlisted⟩
    show l.filesRestored + 1 + l.filesFailed = done + 1
    omega
  · rintro e _ s₃ ⟨rfl, hs₃⟩
    rw [wp_bind]
    refine wp_setState hs₃ List.mem_cons_self fun s₄ _ hs₄ => ?_
    rw [if_neg hother] at hs₄
    refine ⟨⟨_, _, Nat.lt_succ_of_lt hnext, List.mem_cons_of_mem _ hparent, hs₄⟩, ?_, ?_⟩
    · show l.filesRestored + (l.filesFailed + 1) = done + 1
      omega
    · show (l.failures ++ [_]).length = l.filesFailed + 1
      rw [List.length_append, hlisted]
      rfl

/-- Either the files are planned, and then the job accounts for all of them, or it raises, and says that it runs. -/
theorem wp_runTreeRestore_counts {request : TreeRestoreRequest} {jobId : Nat} (hjob : HasJob jobId w) (hnext : jobId < w.nextJob) :
    wp (treeMachine sha256 quote) anyhow (runTreeRestore request jobId)
      (fun result _ s' => ∃ planned skipped, planTreeRestore quote request w.catalog = .ok (planned, skipped) ∧
        s'.Accounts planned jobId result)
      (fun _ _ s' => (∃ e, planTreeRestore quote request w.catalog = .error e) ∧ s'.stateOf jobId = some "running") l w := by
  have hmem : jobId ∈ w.jobs.map JobRow.id := hasJob_iff.1 hjob
  have hstart : Rows jobId (w.jobs.map JobRow.id) w.nextJob (w.stateOf jobId) w := ⟨rfl, rfl, rfl⟩
  have hstate : ((w.stateOf jobId).map fun _ => "running") = some "running" := by
    obtain ⟨job, hrow, hid⟩ := List.any_eq_true.1 hjob
    unfold RestoreWorld.stateOf
    cases hfound : w.jobs.find? fun job => decide (job.id = jobId) with
    | none => exact absurd hid (List.find?_eq_none.1 hfound job hrow)
    | some found => rfl
  unfold runTreeRestore
  rw [wp_bind]
  refine wp_setState hstart hmem fun s₁ hcatalog hs₁ => ?_
  rw [if_pos rfl, hstate] at hs₁
  rw [wp_bind]
  refine wp_call fun s₂ hr c _ => ?_
  obtain rfl : s₁ = s₂ := hr
  have hplan : ∀ x, ((treeMachine sha256 quote).exec s₁ (.plan request) c).1 = x → planTreeRestore quote request w.catalog = x := by
    rintro _ rfl
    rw [← hcatalog]
    rfl
  refine ⟨trivial, fun a ha => ?_, fun e he => ⟨⟨e, hplan _ he⟩, hs₁.state⟩⟩
  obtain ⟨planned, skipped⟩ := a
  have hplanned := hplan _ ha
  have hfinish : ∀ {result l' : TreeRestoreResult} {s' : RestoreWorld} {state : String} {error : Option String}
      {N : Unit → TreeRestoreResult → RestoreWorld → Prop} {E : Exn → TreeRestoreResult → RestoreWorld → Prop},
      Counting jobId planned.length result s' → state = (if result.filesFailed = 0 then "completed" else "failed") →
      (∀ s'', s''.Accounts planned jobId result → N () l' s'') →
        wp (treeMachine sha256 quote) anyhow (treeStep (.setState jobId state error)) N E l' s' := by
    rintro result l' s' _ error N E ⟨⟨ids, next, -, hparent, hrows⟩, hcounted, hlisted⟩ rfl hN
    refine wp_setState hrows hparent fun s'' _ hs'' => hN s'' ⟨hcounted, hlisted, ?_⟩
    rw [hs''.state, if_pos rfl]
    rfl
  have hrows : ∃ ids next, jobId < next ∧ jobId ∈ ids ∧ Rows jobId ids next (some "running") s₁ := ⟨_, _, hnext, hmem, hs₁⟩
  rw [wp_bind, wp_assign]
  split
  · rw [wp_bind, wp_assign, wp_bind]
    have hcounting : Counting jobId planned.length (countPlanned planned
        { jobId := jobId, catalogPrefix := normalizePrefix request.catalogPrefix, destDir := request.destDir.toString, skipped := skipped
          dryRun := request.dryRun }) s₁ := ⟨hrows, Nat.zero_add _, rfl⟩
    exact hfinish hcounting rfl fun s'' hs'' => ⟨planned, skipped, hplanned, hs''⟩
  · rw [wp_bind]
    refine wp_forEach _ planned (fun done l' s' => Counting jobId done.length l' s') ⟨hrows, rfl, rfl⟩ ?_ fun l' s' hs' => ?_
    · intro done item left l' s' _ hs'
      refine wp_mono (wp_restoreItem_counts hs') (fun _ l'' s'' h => ?_) fun _ _ _ h => h.elim
      rw [List.length_append]
      exact h
    rw [wp_bind, wp_locals]
    have hok : l'.isOk = true ↔ l'.filesFailed = 0 := by
      rw [← hs'.listed]
      exact List.isEmpty_iff.trans List.length_eq_zero_iff.symm
    split
    · rename_i hnone
      rw [wp_bind]
      exact hfinish hs' (if_pos (hok.1 hnone)).symm fun s'' hs'' => ⟨planned, skipped, hplanned, hs''⟩
    · rename_i hsome
      rw [wp_bind]
      exact hfinish hs' (if_neg fun h => hsome (hok.2 h)).symm fun s'' hs'' => ⟨planned, skipped, hplanned, hs''⟩

end count

/-! ### Where the files are -/

section places

variable {destDir : PurePosixPath} {request : TreeRestoreRequest} {planned : List PlannedFile} {skipped : List String} {item : PlannedFile}

/-- The parts of a catalog path are names. -/
theorem relativeParts_components {path pre : String} {names : List String} (h : relativeParts quote path pre = .ok names) :
    names ≠ [] ∧ ∀ name ∈ names, IsComponent name := by
  unfold relativeParts at h
  obtain ⟨parts, hparts, h⟩ := bind_eq_ok.1 h
  have hslash : ∀ part ∈ parts, '/' ∉ part.toList := by
    have hwell : ∀ part ∈ (PurePosixPath.ofString path).parts, '/' ∉ part.toList := fun part hpart =>
      (isPart_of_wellFormed (wellFormed_ofString path) hpart).2
    unfold partsUnder at hparts
    split at hparts
    · obtain rfl := Except.ok.inj hparts
      intro part hpart
      unfold PurePosixPath.allParts at hpart
      split at hpart
      · exact hwell part (List.mem_of_mem_drop hpart)
      · exact hwell part hpart
    · dsimp only at hparts
      split at hparts
      · obtain rfl := Except.ok.inj hparts
        intro part hpart
        obtain rfl := List.mem_singleton.1 hpart
        unfold PurePosixPath.name
        cases hlast : (PurePosixPath.ofString path).parts.getLast? with
        | none => exact List.not_mem_nil
        | some last => exact hwell last (List.mem_of_getLast? hlast)
      · split at hparts
        · rename_i relative hrelative
          obtain rfl := Except.ok.inj hparts
          unfold PurePosixPath.relativeTo at hrelative
          split at hrelative
          · obtain rfl := Option.some.inj hrelative
            exact fun part hpart => hwell part (List.mem_of_mem_drop hpart)
          · cases hrelative
        · cases hparts
  split at h
  · cases h
  rename_i hup
  dsimp only at h
  split at h
  · cases h
  rename_i hsafe
  obtain rfl := Except.ok.inj h
  refine ⟨hsafe, fun name hname => ?_⟩
  obtain ⟨hpart, hkept⟩ := List.mem_filter.1 hname
  obtain ⟨hempty, -, hdot⟩ := of_decide_eq_true hkept
  exact ⟨hempty, hdot, fun h => hup (h ▸ hpart), hslash name hpart⟩

/-- The directories above a place are others, and lead to it. -/
def Sits (path : PurePosixPath) : Prop := ∀ loc ∈ path.above, loc <+: path.location ∧ loc ≠ path.location

theorem sits_below {names : List String} (hne : names ≠ []) (hnames : ∀ name ∈ names, IsComponent name) : Sits (destDir.below names) := by
  have hall : (destDir.below names).location = destDir.location ++ names := by
    unfold PurePosixPath.location PurePosixPath.below
    rw [List.foldl_append, foldl_components hnames]
  have hparent : ({ destDir.below names with parts := (destDir.below names).parts.dropLast } : PurePosixPath).location =
      destDir.location ++ names.dropLast := by
    unfold PurePosixPath.location PurePosixPath.below
    rw [List.dropLast_append_of_ne_nil hne, List.foldl_append,
      foldl_components fun name hname => hnames name (List.dropLast_subset _ hname)]
  intro loc hloc
  unfold PurePosixPath.above at hloc
  rw [hparent, List.mem_inits] at hloc
  have hshort : destDir.location ++ names.dropLast <+: destDir.location ++ names :=
    (List.prefix_append_right_inj _).2 (List.dropLast_prefix names)
  rw [hall]
  refine ⟨hloc.trans hshort, ?_⟩
  rintro rfl
  have hlength := hloc.length_le
  have hlast := List.length_pos_iff.2 hne
  rw [List.length_append, List.length_append, List.length_dropLast] at hlength
  omega

theorem sits_of_planned (h : planTreeRestore quote request w.catalog = .ok (planned, skipped)) (hitem : item ∈ planned) :
    Sits item.destPath := by
  obtain ⟨record, -, hplan⟩ := (planTreeRestore_ok h).source item hitem
  obtain ⟨-, -, names, hnames, hdest⟩ := planRecord_inl hplan
  obtain ⟨hne, hcomponents⟩ := relativeParts_components hnames
  rw [hdest, foldl_join hcomponents]
  exact sits_below hne hcomponents

end places

/-! ### What is restored -/

section content

variable {planned : List PlannedFile} {item : PlannedFile} {child : Nat} {l : TreeRestoreResult}

/-- What the work on a file does: the directories above its place may be made, and only that place changes. -/
structure Worked (item : PlannedFile) (before after : RestoreWorld) : Prop where
  catalog : after.catalog = before.catalog
  dirs : ∀ loc ∈ after.dirs, loc ∈ before.dirs ∨ loc ∈ item.destPath.above
  files : Touches item.destPath before.files after.files

theorem Worked.refl (item : PlannedFile) (s : RestoreWorld) : Worked item s s := ⟨rfl, fun _ h => .inl h, Touches.refl _ _⟩

theorem Worked.withFiles {before after : RestoreWorld} (h : Worked item before after) (hfiles : before.files = after.files)
    {files : Dict Location Bytes} (htouches : Touches item.destPath after.files files) :
    Worked item before { after with files := files } :=
  ⟨h.catalog, h.dirs, hfiles ▸ htouches⟩

/-- `run_sharded_restore` for a place that is no directory. -/
theorem runSharded_worked {before : RestoreWorld} (hs : Worked item before s) (hfiles : before.files = s.files)
    (hdir : item.destPath.location ∉ s.dirs) (outcome : ShardedOutcome) :
    Worked item before (s.runSharded sha256 item.catalogPath item.destPath outcome).2 ∧
      ∀ answer, (s.runSharded sha256 item.catalogPath item.destPath outcome).1 = .ok answer → answer.error.getD "" = "" →
        (s.runSharded sha256 item.catalogPath item.destPath outcome).2.HasFile sha256 item := by
  cases outcome with
  | raises e left =>
    rcases left with _ | _ | data
    · exact ⟨hs, fun _ ha => by cases ha⟩
    · exact ⟨hs.withFiles hfiles (touches_erase _ _), fun _ ha => by cases ha⟩
    · exact ⟨hs.withFiles hfiles (touches_set _ _ _), fun _ ha => by cases ha⟩
  | refuses =>
    refine ⟨hs, fun answer ha herror => ?_⟩
    obtain rfl := Except.ok.inj ha
    exact absurd herror (by decide)
  | restores data name =>
    unfold RestoreWorld.runSharded
    cases hrecord : s.catalog.getFileRecord item.catalogPath with
    | none =>
      refine ⟨hs, fun answer ha herror => ?_⟩
      obtain rfl := Except.ok.inj ha
      exact absurd herror (by decide)
    | some record =>
      dsimp only
      split
      · exact ⟨hs, fun _ ha => by cases ha⟩
      · rename_i hsum
        refine ⟨hs.withFiles hfiles (touches_set _ _ _), fun _ _ _ => ⟨record, data, hrecord, ?_, not_not.1 hsum⟩⟩
        exact (Dict.get?_set ..).trans (if_pos rfl)

/-- A file is restored to its place, or the exception leaves the other places alone. -/
theorem wp_restoreFile (hdir : item.destPath.location ∉ s.dirs) (hsits : Sits item.destPath) :
    wp (treeMachine sha256 quote) anyhow (restoreFile item child) (fun _ l' s' => l' = l ∧ Worked item s s' ∧ s'.HasFile sha256 item)
      (fun _ l' s' => l' = l ∧ Worked item s s') l s := by
  unfold restoreFile
  rw [wp_bind]
  refine wp_call fun s₁ hr c _ => ?_
  obtain rfl : s = s₁ := hr
  -- the directories that were missing are above the place
  have hmade : Worked item s ((treeMachine sha256 quote).exec s (.makeParents item.destPath) c).2 ∧
      s.files = ((treeMachine sha256 quote).exec s (.makeParents item.destPath) c).2.files := by
    simp only [treeMachine]
    split
    · exact ⟨.refl item s, rfl⟩
    · unfold RestoreWorld.makeParents
      split
      · exact ⟨.refl item s, rfl⟩
      · refine ⟨⟨rfl, fun loc hloc => ?_, Touches.refl _ _⟩, rfl⟩
        rcases List.mem_append.1 hloc with hbefore | hnew
        · exact .inl hbefore
        · exact .inr (List.mem_of_mem_filter hnew)
  generalize hs₁ : (treeMachine sha256 quote).exec s (.makeParents item.destPath) c = x at hmade ⊢
  obtain ⟨answer, s₁⟩ := x
  obtain ⟨hworked, hfiles⟩ := hmade
  refine ⟨trivial, fun _ _ => ?_, fun _ _ => ⟨rfl, hworked⟩⟩
  have hplace : item.destPath.location ∉ s₁.dirs := fun h => by
    rcases hworked.dirs _ h with hbefore | habove
    · exact hdir hbefore
    · exact (hsits _ habove).2 rfl
  split
  · rw [wp_bind]
    refine wp_call fun s₂ hr c' _ => ?_
    obtain rfl : s₁ = s₂ := hr
    obtain ⟨hafter, hhas⟩ := runSharded_worked hworked hfiles hplace c'.sharded
    refine ⟨trivial, fun answer hanswer => ?_, fun _ _ => ⟨rfl, hafter⟩⟩
    split
    · exact ⟨rfl, hafter⟩
    · rename_i herror
      exact ⟨rfl, hafter, hhas answer hanswer (not_not.1 herror)⟩
  · rw [wp_bind]
    unfold plainRestore
    rw [wp_scope]
    have hjob := @wp_runRestoreJob_touches sha256 s₁ s₁ s₁.files { catalogPath := item.catalogPath, destPath := item.destPath } child {} rfl
      hplace ⟨rfl, rfl, rfl⟩
    refine wp_mono (Proc.wp_embed (fun _ _ c => ⟨TreeChoice.job c, rfl⟩) hjob) ?_ ?_
    · rintro _ _ s₂ ⟨after, ⟨hcatalog, hdirs, rfl⟩, htouches, record, row, data, hlatest, hdata, hsum⟩
      refine ⟨rfl, ⟨hcatalog.trans hworked.catalog, fun loc hloc => hworked.dirs loc (hdirs ▸ hloc), hfiles ▸ htouches⟩, ?_⟩
      refine ⟨record, data, ?_, hdata, hsum⟩
      rw [hcatalog]
      unfold Catalog.getLatestInstanceForPath at hlatest
      split at hlatest
      · cases hlatest
      · rename_i found hfound
        split at hlatest
        · cases hlatest
        · obtain ⟨rfl, rfl⟩ := Prod.mk.inj (Except.ok.inj hlatest)
          exact hfound
    · rintro e _ s₂ ⟨after, ⟨hcatalog, hdirs, rfl⟩, htouches⟩
      exact ⟨rfl, hcatalog.trans hworked.catalog, fun loc hloc => hworked.dirs loc (hdirs ▸ hloc), hfiles ▸ htouches⟩

/-- How far the loop is: what is listed neither as failed nor as still to be done is there. -/
structure Restoring (sha256 : Bytes → String) (w : RestoreWorld) (done : List PlannedFile) (l : TreeRestoreResult) (s : RestoreWorld) :
    Prop where
  catalog : s.catalog = w.catalog
  dirs : ∀ loc ∈ s.dirs, loc ∈ w.dirs ∨ ∃ item ∈ done, loc ∈ item.destPath.above
  held : s.Delivers sha256 done l

theorem Restoring.congr {done : List PlannedFile} {s' : RestoreWorld} (h : Restoring sha256 w done l s) (hcatalog : s'.catalog = s.catalog)
    (hdirs : s'.dirs = s.dirs) (hfiles : s'.files = s.files) : Restoring sha256 w done l s' := by
  refine ⟨hcatalog.trans h.catalog, fun loc hloc => h.dirs loc (hdirs ▸ hloc), fun item hitem hlisted => ?_⟩
  obtain ⟨record, data, hrecord, hdata, hsum⟩ := h.held item hitem hlisted
  exact ⟨record, data, hcatalog ▸ hrecord, hfiles ▸ hdata, hsum⟩

theorem Restoring.relist {done : List PlannedFile} (h : Restoring sha256 w done {} s) (l : TreeRestoreResult) :
    Restoring sha256 w done l s :=
  ⟨h.catalog, h.dirs, fun item hitem _ => h.held item hitem List.not_mem_nil⟩

/-- Work on a file whose place is none of theirs leaves the files that are there. -/
theorem Restoring.work {done : List PlannedFile} {s' : RestoreWorld} (h : Restoring sha256 w done l s) (hworked : Worked item s s')
    (hapart : ∀ earlier ∈ done, ¬item.destPath.location <+: earlier.destPath.location ∧
      ∀ path ∈ item.destPath.withName (item.destPath.name ++ ".quarantine"), path.location ≠ earlier.destPath.location) :
    s'.catalog = w.catalog ∧ (∀ loc ∈ s'.dirs, loc ∈ w.dirs ∨ ∃ other ∈ done ++ [item], loc ∈ other.destPath.above) ∧
      s'.Delivers sha256 done l := by
  refine ⟨hworked.catalog.trans h.catalog, fun loc hloc => ?_, fun earlier hearlier hlisted => ?_⟩
  · rcases hworked.dirs loc hloc with hbefore | habove
    · rcases h.dirs loc hbefore with hfirst | ⟨other, hother, habove⟩
      · exact .inl hfirst
      · exact .inr ⟨other, List.mem_append_left _ hother, habove⟩
    · exact .inr ⟨item, List.mem_append_right _ (List.mem_singleton.2 rfl), habove⟩
  · obtain ⟨hplace, hquarantine⟩ := hapart earlier hearlier
    obtain ⟨record, data, hrecord, hdata, hsum⟩ := h.held earlier hearlier hlisted
    refine ⟨record, data, hworked.catalog ▸ hrecord, ?_, hsum⟩
    rw [← hdata]
    exact hworked.files _ (fun h => hplace (h ▸ List.prefix_refl _)) fun path hpath h => hquarantine path hpath h.symm

theorem Restoring.setState {done : List PlannedFile} (h : Restoring sha256 w done l s) (jobId : Nat) (state : String)
    (error : Option String) (c : TreeChoice) :
    Restoring sha256 w done l ((treeMachine sha256 quote).exec s (.setState jobId state error) c).2 := by
  simp only [treeMachine, RestoreWorld.perform]
  split
  · exact h.congr rfl rfl rfl
  · exact h

/-- One pass: the file is there, or listed. -/
theorem wp_restoreItem_content {done : List PlannedFile} (hs : Restoring sha256 w done l s) (hfree : item.destPath.location ∉ w.dirs)
    (hsits : ∀ other ∈ done ++ [item], Sits other.destPath)
    (hapart : ∀ earlier ∈ done, ¬item.destPath.location <+: earlier.destPath.location ∧
      ∀ path ∈ item.destPath.withName (item.destPath.name ++ ".quarantine"), path.location ≠ earlier.destPath.location) :
    wp (treeMachine sha256 quote) anyhow (restoreItem item) (fun _ l' s' => Restoring sha256 w (done ++ [item]) l' s') (fun _ _ _ => True)
      l s := by
  have hdir : item.destPath.location ∉ s.dirs := fun h => by
    rcases hs.dirs _ h with hfirst | ⟨other, hother, habove⟩
    · exact hfree hfirst
    · exact (hapart other hother).1 (hsits other (List.mem_append_left _ hother) _ habove).1
  unfold restoreItem
  rw [wp_bind]
  refine wp_call fun s₁ hr c _ => ?_
  obtain rfl : s = s₁ := hr
  have hs₁ : Restoring sha256 w done l
      ((treeMachine sha256 quote).exec s (.createChild { catalogPath := item.catalogPath, destPath := some item.destPath.toString }) c).2 :=
    hs.congr rfl rfl rfl
  have hdirs : ((treeMachine sha256 quote).exec s
      (.createChild { catalogPath := item.catalogPath, destPath := some item.destPath.toString }) c).2.dirs = s.dirs := rfl
  rw [← hdirs] at hdir
  generalize ((treeMachine sha256 quote).exec s (.createChild { catalogPath := item.catalogPath, destPath := some item.destPath.toString })
    c).2 = s₂ at hs₁ hdir ⊢
  refine ⟨trivial, fun child _ => ?_, fun _ _ => trivial⟩
  have hitem : item ∈ done ++ [item] := List.mem_append_right _ (List.mem_singleton.2 rfl)
  rw [wp_bind, wp_handle, wp_bind]
  refine wp_mono (wp_restoreFile hdir (hsits item hitem)) ?_ ?_
  · rintro verified _ s₃ ⟨rfl, hworked, hhas⟩
    obtain ⟨hcatalog, hdirs, hheld⟩ := hs₁.work hworked hapart
    refine ⟨hcatalog, hdirs, fun other hother hlisted => ?_⟩
    rcases List.mem_append.1 hother with hbefore | hlast
    · exact hheld other hbefore hlisted
    · rw [List.mem_singleton.1 hlast]
      exact hhas
  · rintro e l₃ s₃ ⟨rfl, hworked⟩
    obtain ⟨hcatalog, hdirs, hheld⟩ := hs₁.work hworked hapart
    rw [wp_bind]
    refine wp_call fun s₄ hr c' _ => ?_
    obtain rfl : s₃ = s₄ := hr
    refine ⟨trivial, fun _ _ => ?_, fun _ _ => trivial⟩
    have hlater : Restoring sha256 w (done ++ [item])
        { l₃ with
          filesFailed := l₃.filesFailed + 1
          failures := l₃.failures ++ [{ catalogPath := item.catalogPath, error := safeJobError e }] } s₃ := by
      refine ⟨hcatalog, hdirs, fun other hother hlisted => ?_⟩
      rw [List.map_append, List.mem_append, not_or] at hlisted
      rcases List.mem_append.1 hother with hbefore | hlast
      · exact hheld other hbefore hlisted.1
      · rw [List.mem_singleton.1 hlast] at hlisted
        exact absurd (List.mem_singleton.2 rfl) hlisted.2
    exact hlater.setState child "failed" (some (safeJobError e)) c'

/-- The whole run: what is not listed is there, if a dry run finds everything there and a real one room for everything. -/
theorem wp_runTreeRestore_content {request : TreeRestoreRequest} {skipped : List String} {jobId : Nat}
    (hplan : planTreeRestore quote request w.catalog = .ok (planned, skipped))
    (hdry : request.dryRun = true → ∀ item ∈ planned, w.HasFile sha256 item) (hroom : request.dryRun = false → w.LeavesRoom planned) :
    wp (treeMachine sha256 quote) anyhow (runTreeRestore request jobId) (fun result _ s' => s'.Delivers sha256 planned result)
      (fun _ _ _ => True) l w := by
  -- before the first pass, a dry run has its files, and a real one has none to have
  obtain ⟨done, hall, hnone, hstart⟩ : ∃ done, (request.dryRun = true → done = planned) ∧ (request.dryRun = false → done = []) ∧
      Restoring sha256 w done {} w := by
    cases hkind : request.dryRun with
    | true => exact ⟨planned, fun _ => rfl, fun h => (by cases h), rfl, fun _ h => .inl h, fun item hitem _ => hdry hkind item hitem⟩
    | false => exact ⟨[], fun h => (by cases h), fun _ => rfl, rfl, fun _ h => .inl h, fun _ h => absurd h List.not_mem_nil⟩
  have hset : ∀ {done : List PlannedFile} {result l' : TreeRestoreResult} {s' : RestoreWorld} {state : String} {error : Option String}
      {N : Unit → TreeRestoreResult → RestoreWorld → Prop}, Restoring sha256 w done result s' →
      (∀ s'', Restoring sha256 w done result s'' → N () l' s'') →
        wp (treeMachine sha256 quote) anyhow (treeStep (.setState jobId state error)) N (fun _ _ _ => True) l' s' := by
    intro done result l' s' state error N hs' hN
    refine wp_call fun s₁ hr c _ => ?_
    obtain rfl : s' = s₁ := hr
    exact ⟨trivial, fun _ _ => hN _ (hs'.setState jobId state error c), fun _ _ => trivial⟩
  unfold runTreeRestore
  rw [wp_bind]
  refine hset hstart fun s₁ hs₁ => ?_
  rw [wp_bind]
  refine wp_call fun s₂ hr c _ => ?_
  obtain rfl : s₁ = s₂ := hr
  refine ⟨trivial, fun a ha => ?_, fun _ _ => trivial⟩
  have hsame : planTreeRestore quote request w.catalog = .ok a := hs₁.catalog ▸ ha
  obtain rfl : (planned, skipped) = a := Except.ok.inj (hplan.symm.trans hsame)
  show wp _ _ _ _ _ l s₁
  rw [wp_bind, wp_assign]
  split
  · rename_i hkind
    obtain rfl := hall hkind
    rw [wp_bind, wp_assign, wp_bind]
    exact hset (hs₁.relist _) fun _ hs' => hs'.held
  · rename_i hkind
    have hreal : request.dryRun = false := by simpa using hkind
    obtain rfl := hnone hreal
    have hplaces := hroom hreal
    rw [wp_bind]
    refine wp_forEach _ planned (Restoring sha256 w) (hs₁.relist _) ?_ fun l' s' hs' => ?_
    · intro pre item post l' s' hsplit hs'
      have hbefore : ∀ other ∈ pre ++ [item], other ∈ planned := fun other hother => by
        rw [hsplit, ← List.singleton_append, ← List.append_assoc]
        exact List.mem_append_left _ hother
      have happart := hplaces.apart
      rw [hsplit] at happart
      exact wp_restoreItem_content hs' (hplaces.files item (hbefore item (List.mem_append_right _ (List.mem_singleton.2 rfl))))
        (fun other hother => sits_of_planned hplan (hbefore other hother))
        fun earlier hearlier => (List.pairwise_append.1 happart).2.2 earlier hearlier item List.mem_cons_self
    rw [wp_bind, wp_locals]
    split
    · rw [wp_bind]
      exact hset hs' fun _ hs'' => hs''.held
    · rw [wp_bind]
      exact hset hs' fun _ hs'' => hs''.held

end content

/-- A plan is made when every record to restore has a place. -/
theorem exists_plan_iff {request : TreeRestoreRequest} {cat : Catalog} :
    (∃ planned skipped, planTreeRestore quote request cat = .ok (planned, skipped)) ↔ Plannable quote request cat := by
  have hrecord : ∀ record, (∃ outcome, planRecord quote cat request.destDir (normalizePrefix request.catalogPrefix) record = .ok outcome) ↔
      (restoreBarcodes cat record ≠ [] →
        (relativeParts quote record.path (normalizePrefix request.catalogPrefix)).isOk = true) := by
    intro record
    unfold planRecord
    cases restoreBarcodes cat record with
    | nil => exact ⟨fun _ h => absurd rfl h, fun _ => ⟨_, rfl⟩⟩
    | cons barcode barcodes =>
      cases hparts : relativeParts quote record.path (normalizePrefix request.catalogPrefix) with
      | error e => exact ⟨fun ⟨_, h⟩ => (by cases h), fun h => absurd (h (List.cons_ne_nil _ _)) (by simp [Except.isOk, Except.toBool])⟩
      | ok parts => exact ⟨fun _ _ => rfl, fun _ => ⟨_, rfl⟩⟩
  unfold Plannable
  rw [← forall₂_congr fun record _ => hrecord record, ← exists_mapM_ok_iff]
  constructor
  · rintro ⟨planned, skipped, hplan⟩
    obtain ⟨found, hfound, -⟩ := bind_eq_ok.1 hplan
    exact ⟨found, hfound⟩
  · rintro ⟨found, hfound⟩
    exact ⟨_, _, bind_eq_ok.2 ⟨found, hfound, rfl⟩⟩

end TreeRunAux

open TreeRunAux VisibilityAux in
/-- A tree restore ends its job in every run exactly when all its files have a place to go to. Then it counts each of them once, and what
it does not list as failed is at its destination: in a dry run if it was there before, else if the files leave each other room. -/
theorem tree_restore_finishes (sha256 : Bytes → String) (quote : String → String) (w : RestoreWorld) (request : TreeRestoreRequest)
    (jobId : Nat) (hjob : HasJob jobId w) (hnext : jobId < w.nextJob) :
    ((∀ cs r l s, (treeMachine sha256 quote).run cs (runTreeRestore request jobId {}) w = (.ret (r, l), s) →
        s.stateOf jobId = some "completed" ∨ s.stateOf jobId = some "failed") ↔ Plannable quote request w.catalog) ∧
      ∀ planned skipped, planTreeRestore quote request w.catalog = .ok (planned, skipped) →
        ∀ cs r l s, (treeMachine sha256 quote).run cs (runTreeRestore request jobId {}) w = (.ret (r, l), s) →
          ∃ result, r = .ok result ∧ s.Accounts planned jobId result ∧
            ((request.dryRun = true → ∀ item ∈ planned, w.HasFile sha256 item) → (request.dryRun = false → w.LeavesRoom planned) →
              s.Delivers sha256 planned result) := by
  have hcounts : ∀ cs r l s, (treeMachine sha256 quote).run cs (runTreeRestore request jobId {}) w = (.ret (r, l), s) →
      match r with
      | .ok result => ∃ planned skipped, planTreeRestore quote request w.catalog = .ok (planned, skipped) ∧ s.Accounts planned jobId result
      | .error _ => (∃ e, planTreeRestore quote request w.catalog = .error e) ∧ s.stateOf jobId = some "running" := by
    intro cs r l s hrun
    have hend := (run_of_wp (wp_runTreeRestore_counts hjob hnext) cs fun _ _ => trivial).2 (r, l) s hrun
    cases r <;> exact hend
  have hends : (∃ planned skipped, planTreeRestore quote request w.catalog = .ok (planned, skipped)) ↔ Plannable quote request w.catalog :=
    exists_plan_iff
  have : Inhabited TreeChoice := ⟨{}⟩
  refine ⟨⟨fun hterminal => ?_, fun hplannable cs r l s hrun => ?_⟩, fun planned skipped hplan cs r l s hrun => ?_⟩
  · by_contra hnot
    obtain ⟨cs, ⟨r, l⟩, s, hrun, -⟩ := Prog.ends_of_can (Prog.can_true (M := treeMachine sha256 quote) (runTreeRestore request jobId {}) w)
    have hend := hcounts cs r l s hrun
    cases r with
    | ok result =>
      obtain ⟨planned, skipped, hplan, -⟩ := hend
      exact hnot (hends.1 ⟨planned, skipped, hplan⟩)
    | error e =>
      have hstate := hterminal cs _ l s hrun
      rw [hend.2] at hstate
      exact absurd hstate (by decide)
  · obtain ⟨planned, skipped, hplan⟩ := hends.2 hplannable
    have hend := hcounts cs r l s hrun
    cases r with
    | ok result =>
      obtain ⟨planned', skipped', -, haccounts⟩ := hend
      rw [haccounts.state]
      split
      · exact .inl rfl
      · exact .inr rfl
    | error e =>
      obtain ⟨⟨e', he⟩, -⟩ := hend
      exact absurd (hplan.symm.trans he) (by simp)
  · have hend := hcounts cs r l s hrun
    cases r with
    | ok result =>
      obtain ⟨planned', skipped', hplan', haccounts⟩ := hend
      obtain ⟨rfl, rfl⟩ := Prod.mk.inj (Except.ok.inj (hplan.symm.trans hplan'))
      refine ⟨result, rfl, haccounts, fun hdry hroom => ?_⟩
      exact (run_of_wp (wp_runTreeRestore_content hplan hdry hroom) cs fun _ _ => trivial).2 (.ok result, l) s hrun
    | error e =>
      obtain ⟨⟨e', he⟩, -⟩ := hend
      exact absurd (hplan.symm.trans he) (by simp)

/-- A job, the catalog of some archived files, and a directory to restore to. -/
def restoringWorld (paths : List String) : RestoreWorld where
  catalog := archivedCatalog paths
  jobs := [{ id := 0, metadata := {} }]
  nextJob := 1
  dirs := [[], ["restore"]]

/-- A file has ".." in its path: the job was set running, and nobody sets it anything else. -/
theorem unsafe_path_leaves_running :
    ¬∀ cs r l s, (treeMachine textSum id).run cs (runTreeRestore (restoreEverything "/vg") 0 {}) (restoringWorld ["/vg/a/../x", "/vg/b"]) =
        (.ret (r, l), s) → s.stateOf 0 = some "completed" ∨ s.stateOf 0 = some "failed" := by
  intro hlaw
  have hend : ((treeMachine textSum id).run [({} : TreeChoice), {}] (runTreeRestore (restoreEverything "/vg") 0 {})
      (restoringWorld ["/vg/a/../x", "/vg/b"])).1.value?.isSome = true := by decide +kernel
  have hstate : ((treeMachine textSum id).run [({} : TreeChoice), {}] (runTreeRestore (restoreEverything "/vg") 0 {})
      (restoringWorld ["/vg/a/../x", "/vg/b"])).2.stateOf 0 = some "running" := by decide +kernel
  generalize hrun : (treeMachine textSum id).run [({} : TreeChoice), {}] (runTreeRestore (restoreEverything "/vg") 0 {})
    (restoringWorld ["/vg/a/../x", "/vg/b"]) = final at hend hstate
  obtain ⟨p, s⟩ := final
  obtain ⟨⟨r, l⟩, hvalue⟩ := Option.isSome_iff_exists.1 hend
  obtain rfl := Prog.value?_eq_some.1 hvalue
  have hterminal := hlaw _ r l s hrun
  rw [hstate] at hterminal
  exact absurd hterminal (by decide)

/-- One file, and room for it. -/
theorem one_file_finishes :
    ∃ cs result l s, (treeMachine textSum id).run cs (runTreeRestore (restoreEverything "/vg") 0 {}) (restoringWorld ["/vg/a"]) =
        (.ret (.ok result, l), s) ∧ s.Accounts [plannedOne "/vg/a" "/restore/a"] 0 result ∧
      s.Delivers textSum [plannedOne "/vg/a" "/restore/a"] result := by
  have hplan : planTreeRestore id (restoreEverything "/vg") (archivedCatalog ["/vg/a"]) = .ok ([plannedOne "/vg/a" "/restore/a"], []) := by
    decide +kernel
  have : Inhabited TreeChoice := ⟨{}⟩
  obtain ⟨cs, ⟨r, l⟩, s, hrun, -⟩ := Prog.ends_of_can (Prog.can_true (M := treeMachine textSum id)
    (runTreeRestore (restoreEverything "/vg") 0 {}) (restoringWorld ["/vg/a"]))
  obtain ⟨result, hresult, haccounts, hdelivers⟩ := (tree_restore_finishes textSum id (restoringWorld ["/vg/a"]) (restoreEverything "/vg") 0
    (show (_ : Bool) = true by decide) (by decide)).2 _ _ hplan cs r l s hrun
  subst hresult
  refine ⟨cs, result, l, s, hrun, haccounts, hdelivers (fun h => by cases h) fun _ => ⟨fun item hitem => ?_, List.pairwise_singleton _ _⟩⟩
  obtain rfl := List.mem_singleton.1 hitem
  decide +kernel

end OpenBlade
