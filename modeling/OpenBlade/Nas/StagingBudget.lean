import OpenBlade.Effects.Protocol
import OpenBlade.Nas.Staging

/-!
# The budget of a cache drive

Ingests side by side, any number of them, with any turns. An ingest looks at what is reserved and records its own reservation in two
steps: the budget of a drive is kept at every moment exactly where every reservation still fits when it is recorded, which is so
where no other ingest recorded one on the drive since the look (`staging_budget_iff`). Two ingests that both look before either
records overdraw the drive (`two_looks_overdraw`). However an ingest ends, it has released its reservation once.
-/

namespace OpenBlade

open Effects Proc

/-- Ingests that run side by side, each under its job id. -/
def stagingPool (drives : String → CacheDriveConfig) (ingests : JobId → StagingIngest) :
    Pool JobId StagingOp (fun o => Except Exn o.Ans) (Except Exn Unit × StagingLocals) :=
  fun jobId => ({ ingests jobId with jobId := jobId } : StagingIngest).run drives {}

/-- A step of an ingest. -/
abbrev StagingStep := Step StagingReservations StagingOp fun o => Except Exn o.Ans

/-- On every drive where something is reserved, no more is than the drive may stage. -/
def StagingReservations.WithinBudget (drives : String → CacheDriveConfig) (s : StagingReservations) : Prop :=
  ∀ driveId ∈ Dict.keys s, s.total driveId ≤ (drives driveId).maxBytes - (drives driveId).minFreeBytes

/-- A reservation still fits when it is recorded. -/
def StillFits (drives : String → CacheDriveConfig) (x : StagingStep) : Prop :=
  ∀ driveId jobId n, x.op = .reserveCacheDriveBytes driveId jobId n →
    n + x.pre.reserved driveId jobId ≤ (drives driveId).maxBytes - (drives driveId).minFreeBytes

/-- Since an ingest looked at a drive, none has recorded a reservation on it when the ingest records its own. -/
def LookStands (hist : List (JobId × StagingStep)) (x : JobId × StagingStep) : Prop :=
  ∀ driveId jobId n, x.2.op = .reserveCacheDriveBytes driveId jobId n →
    ∀ pre y post, hist = pre ++ y :: post → y.2.op = .reservedCacheDriveBytes driveId jobId →
      ∀ z ∈ post, ∀ jobId' n', z.2.op ≠ .reserveCacheDriveBytes driveId jobId' n'

/-- The call releases a reservation. -/
def StagingOp.releases : StagingOp → Bool
  | .releaseCacheDriveBytes _ _ => true
  | _ => false

/-- The releases of an ingest in a history. -/
def releasesOf (jobId : JobId) (hist : List (JobId × StagingStep)) : Nat := hist.countP fun x => x.1 = jobId ∧ x.2.op.releases

namespace StagingAux

/-! ### What the calls do to the reservations -/

section reservations

variable {s : StagingReservations} {driveId driveId' : String} {jobId jobId' : JobId} {n : Int}

theorem onDrive_reserve : (s.reserve driveId jobId n).onDrive driveId' =
    if driveId = driveId' then Dict.set (s.onDrive driveId) jobId n else s.onDrive driveId' := by
  unfold StagingReservations.reserve
  conv => lhs; unfold StagingReservations.onDrive
  rw [Dict.get?_set]
  split <;> rfl

theorem onDrive_release : (s.release driveId jobId).onDrive driveId' =
    if driveId = driveId' then Dict.erase (s.onDrive driveId) jobId else s.onDrive driveId' := by
  unfold StagingReservations.release StagingReservations.onDrive
  cases hget : Dict.get? s driveId with
  | none =>
    by_cases hd : driveId = driveId'
    · subst hd
      simp [hget, Dict.erase]
    · simp [hd]
  | some reservations =>
    dsimp only
    split
    · rename_i hleft
      rw [Dict.get?_erase]
      by_cases hd : driveId = driveId'
      · simp [hd, hleft]
      · simp [hd]
    · rw [Dict.get?_set]
      by_cases hd : driveId = driveId'
      · simp [hd]
      · simp [hd]

theorem keys_release {key : String} (h : key ∈ Dict.keys (s.release driveId jobId)) : key ∈ Dict.keys s := by
  unfold StagingReservations.release at h
  cases hget : Dict.get? s driveId with
  | none => simpa [hget] using h
  | some reservations =>
    have hkey : driveId ∈ Dict.keys s := List.mem_map.2 ⟨_, Dict.mem_of_get? hget, rfl⟩
    rw [hget] at h
    dsimp only at h
    split at h
    · obtain ⟨e, he, rfl⟩ := List.mem_map.1 h
      exact List.mem_map.2 ⟨e, (List.mem_filter.1 he).1, rfl⟩
    · rw [Dict.keys_set, if_pos hkey] at h
      exact h

/-- All that is entered is what is entered for others and what is entered for a job. -/
theorem held_others_add {d : Dict JobId Int} (h : (Dict.keys d).Nodup) (jobId : JobId) :
    held (fun _ => true) Prod.snd d = held (fun e => e.1 ≠ jobId) Prod.snd d + (Dict.get? d jobId).getD 0 := by
  induction d with
  | nil => rfl
  | cons e d ih =>
    obtain ⟨hfirst, hrest⟩ := List.nodup_cons.1 h
    have hsplit : ∀ p : JobId × Int → Bool, held p Prod.snd (e :: d) = (if p e then e.2 else 0) + held p Prod.snd d := fun p => by
      rw [← List.singleton_append, held_append, held_singleton]
    rw [hsplit, hsplit, Dict.get?_cons, ih hrest]
    by_cases hkey : e.1 = jobId
    · have hnone : Dict.get? d jobId = none := by
        refine Dict.get?_eq_none.2 fun p hp hpk => hfirst ?_
        rw [hkey, ← hpk]
        exact List.mem_map_of_mem hp
      simp [hkey, hnone]
      omega
    · simp [hkey]
      omega

/-- What is entered for others does not change with an entry of the job. -/
theorem held_others_set {d : Dict JobId Int} (jobId : JobId) (n : Int) :
    held (fun e => e.1 ≠ jobId) Prod.snd (Dict.set d jobId n) = held (fun e => e.1 ≠ jobId) Prod.snd d := by
  have hothers : ∀ d : Dict JobId Int, ((d.map fun e => if e.1 = jobId then (jobId, n) else e).filter fun e => e.1 ≠ jobId) =
      d.filter fun e => e.1 ≠ jobId := by
    intro d
    induction d with
    | nil => rfl
    | cons e d ih =>
      by_cases hkey : e.1 = jobId
      · simp [hkey]
        simpa using ih
      · simp [hkey]
        simpa using ih
  unfold held Dict.set
  split
  · rw [hothers]
  · simp

/-- No job is entered twice on a drive, and no reservation is negative. -/
structure Sound (s : StagingReservations) : Prop where
  nodup : ∀ driveId, (Dict.keys (s.onDrive driveId)).Nodup
  nonneg : ∀ driveId, ∀ e ∈ s.onDrive driveId, 0 ≤ e.2

theorem sound_nil : Sound [] where
  nodup _ := List.nodup_nil
  nonneg _ _ h := nomatch h

theorem Sound.reserve (h : Sound s) (hn : 0 ≤ n) : Sound (s.reserve driveId jobId n) where
  nodup driveId' := by
    rw [onDrive_reserve]
    split
    · exact Dict.nodup_keys_set (h.nodup driveId)
    · exact h.nodup driveId'
  nonneg driveId' e he := by
    rw [onDrive_reserve] at he
    split at he
    · rcases Dict.mem_set he with he | rfl
      · exact h.nonneg driveId e he
      · exact hn
    · exact h.nonneg driveId' e he

/-- After a release a drive holds some of what it held. -/
theorem sublist_release : ((s.release driveId jobId).onDrive driveId').Sublist (s.onDrive driveId') := by
  rw [onDrive_release]
  split
  · rename_i hd
    exact hd ▸ List.filter_sublist
  · exact List.Sublist.refl _

theorem Sound.release (h : Sound s) : Sound (s.release driveId jobId) where
  nodup driveId' := (h.nodup driveId').sublist (sublist_release.map _)
  nonneg driveId' e he := h.nonneg driveId' e (sublist_release.subset he)

/-- The job's reservation is added to what the others have. -/
theorem total_reserve (h : Sound s) : (s.reserve driveId jobId n).total driveId = n + s.reserved driveId jobId := by
  have hget : Dict.get? (Dict.set (s.onDrive driveId) jobId n) jobId = some n := by
    rw [Dict.get?_set, if_pos rfl]
  unfold StagingReservations.total StagingReservations.reserved
  rw [onDrive_reserve, if_pos rfl, held_others_add (Dict.nodup_keys_set (h.nodup driveId)) jobId, held_others_set, hget]
  exact Int.add_comm _ _

theorem total_reserve_ne (hd : driveId ≠ driveId') : (s.reserve driveId jobId n).total driveId' = s.total driveId' := by
  unfold StagingReservations.total
  rw [onDrive_reserve, if_neg hd]

theorem reserved_reserve_ne (hd : driveId ≠ driveId') :
    (s.reserve driveId jobId n).reserved driveId' jobId' = s.reserved driveId' jobId' := by
  unfold StagingReservations.reserved
  rw [onDrive_reserve, if_neg hd]

theorem total_release_le (h : Sound s) : (s.release driveId jobId).total driveId' ≤ s.total driveId' :=
  held_le_of_subperm sublist_release.subperm (h.nonneg driveId')

theorem reserved_release_le (h : Sound s) : (s.release driveId jobId).reserved driveId' jobId' ≤ s.reserved driveId' jobId' :=
  held_le_of_subperm sublist_release.subperm (h.nonneg driveId')

variable {drives : String → CacheDriveConfig}

/-- A recording leaves the budget kept exactly where it fits. -/
theorem withinBudget_reserve (h : Sound s) (hbudget : s.WithinBudget drives) : (s.reserve driveId jobId n).WithinBudget drives ↔
    n + s.reserved driveId jobId ≤ (drives driveId).maxBytes - (drives driveId).minFreeBytes := by
  constructor
  · intro hafter
    have hkey : driveId ∈ Dict.keys (s.reserve driveId jobId n) := by
      unfold StagingReservations.reserve
      rw [Dict.keys_set]
      split
      · rename_i hin
        exact hin
      · simp
    have hdrive := hafter driveId hkey
    rwa [total_reserve h] at hdrive
  · intro hfits driveId' hkey
    by_cases hd : driveId = driveId'
    · subst hd
      rwa [total_reserve h]
    · rw [total_reserve_ne hd]
      refine hbudget driveId' ?_
      unfold StagingReservations.reserve at hkey
      rw [Dict.keys_set] at hkey
      split at hkey
      · exact hkey
      · simpa [Ne.symm hd] using hkey

theorem withinBudget_release (h : Sound s) (hbudget : s.WithinBudget drives) : (s.release driveId jobId).WithinBudget drives :=
  fun driveId' hkey => (total_release_le h).trans (hbudget driveId' (keys_release hkey))

end reservations

/-! ### The protocol of an ingest -/

/-- How far an ingest is with its reservation. -/
inductive Phase where
  | idle
  | looked (reservedBytes : Int)
  | recorded
  | released
  deriving DecidableEq

/-- What an ingest notes of a call. -/
def note (ph : Phase) : (o : StagingOp) → Except Exn o.Ans → Phase
  | .reservedCacheDriveBytes _ _, .ok reservedBytes => .looked reservedBytes
  | .reserveCacheDriveBytes _ _ _, _ => .recorded
  | .releaseCacheDriveBytes _ _, _ => .released
  | _, _ => ph

/-- The calls that have nothing to do with the reservations. -/
def isOther : StagingOp → Bool
  | .reservedCacheDriveBytes _ _ | .reserveCacheDriveBytes _ _ _ | .releaseCacheDriveBytes _ _ => false
  | _ => true

/-- What a cache-drive ingest may call on the reservations: it looks at its own drive first, records what it looked for if that fits
beside what it saw, and nothing comes after the release. -/
def allowedOn (drives : String → CacheDriveConfig) (jobId : JobId) (driveId : String) (ph : Phase) : StagingOp → Prop
  | .reservedCacheDriveBytes driveId' jobId' => driveId' = driveId ∧ jobId' = jobId ∧ ph = .idle
  | .reserveCacheDriveBytes driveId' jobId' n => driveId' = driveId ∧ jobId' = jobId ∧ 0 ≤ n ∧
      ∃ reservedBytes, ph = .looked reservedBytes ∧ n + reservedBytes ≤ (drives driveId).availableBytes
  | .releaseCacheDriveBytes driveId' jobId' => driveId' = driveId ∧ jobId' = jobId
  | _ => True

/-- What an ingest may call; a source-stream ingest calls nothing on the reservations. -/
def allowed (drives : String → CacheDriveConfig) (jobId : JobId) (cacheDriveId : Option String) (ph : Phase) (o : StagingOp) : Prop :=
  match cacheDriveId with
  | some driveId => ph ≠ .released ∧ allowedOn drives jobId driveId ph o
  | none => isOther o = true

/-- An ingest that ends has released its reservation. -/
def done (cacheDriveId : Option String) (ph : Phase) : Prop := ∀ driveId, cacheDriveId = some driveId → ph = .released

section protocol

variable {drives : String → CacheDriveConfig} {jobId : JobId} {driveId : String} {cacheDriveId : Option String} {ph : Phase}
  {l : StagingLocals}

theorem note_other {o : StagingOp} (h : isOther o = true) (ph : Phase) (a : Except Exn o.Ans) : note ph o a = ph := by
  cases o <;> cases a <;> first | rfl | cases h

theorem allowed_other {o : StagingOp} (h : isOther o = true) (hph : ph ≠ .released) : allowed drives jobId cacheDriveId ph o := by
  cases cacheDriveId with
  | none => exact h
  | some driveId =>
    refine ⟨hph, ?_⟩
    unfold allowedOn
    split <;> first | cases h | trivial

/-- Calls that have nothing to do with the reservations change nothing of what is noted. -/
theorem wp_other {α : Type} {p : StagingM α} (hp : Calls (fun o => isOther o = true) p) (hph : ph ≠ .released) :
    wp (havoc note) (.protocol (allowed drives jobId cacheDriveId)) p (fun _ _ ph' => ph' = ph) (fun _ _ ph' => ph' = ph) l ph := by
  have hstable : Stable (havoc note) (.protocol (allowed drives jobId cacheDriveId)) (fun o => isOther o = true) (fun ph' => ph' = ph) := by
    refine stable_follows fun o ho ph' hph' => ?_
    subst hph'
    exact ⟨allowed_other ho hph, fun a => note_other ho _ a⟩
  refine wp_mono (hp.keeps hstable rfl) ?_ ?_
  · exact fun _ _ _ h => h.2
  · exact fun _ _ _ h => h.2

/-- The size of the sources is not negative. -/
theorem wp_sourceBytes (rootPath : String) (prepared : List PreparedFile) (seenPaths : List String) {totalBytes : Int}
    (htotal : 0 ≤ totalBytes) (hph : ph ≠ .released) :
    wp (havoc note) (.protocol (allowed drives jobId cacheDriveId)) (sourceBytes rootPath prepared seenPaths totalBytes)
      (fun n _ ph' => 0 ≤ n ∧ ph' = ph) (fun _ _ ph' => ph' = ph) l ph := by
  induction prepared generalizing seenPaths totalBytes with
  | nil => exact ⟨htotal, rfl⟩
  | cons file rest ih =>
    unfold sourceBytes
    split
    · exact ih seenPaths htotal
    · unfold stagingCall
      rw [wp_bind]
      refine wp_follows (allowed_other rfl hph) (fun state => ?_) fun e => note_other rfl _ _
      rw [note_other rfl]
      cases state with
      | missing => rfl
      | outsideRoot => rfl
      | insideRoot => exact ih _ (by omega)

theorem wp_cacheDrivePreflight (prepared : List PreparedFile) (hph : ph = .idle) :
    wp (havoc note) (.protocol (allowed drives jobId (some driveId))) (cacheDrivePreflight (drives driveId) driveId jobId prepared)
      (fun _ _ ph' => ph' = .recorded) (fun _ _ ph' => ph' ≠ .released) l ph := by
  subst hph
  unfold cacheDrivePreflight stagingCall
  rw [wp_bind]
  refine wp_follows (allowed_other rfl (by simp)) (fun available => ?_) fun e => by rw [note_other rfl]; simp
  rw [note_other rfl]
  split
  · simp
  · rw [wp_bind]
    refine wp_mono (wp_sourceBytes _ _ _ (le_refl 0) (by simp)) ?_ fun e l' ph' h => by rw [h]; simp
    rintro totalBytes l' ph' ⟨htotal, rfl⟩
    rw [wp_bind]
    refine wp_follows ⟨by simp, rfl, rfl, rfl⟩ (fun reservedBytes => ?_) fun e => by simp [note]
    split
    · simp [note]
    · rename_i hfits
      rw [wp_bind]
      refine wp_follows ⟨by simp [note], rfl, rfl, htotal, reservedBytes, rfl, by omega⟩ (fun _ => rfl) fun e => by simp [note]

theorem calls_assignments (jobId : JobId) (cacheDriveId : Option String) (assignments tapeAssignments : List TapeAssignment) :
    Calls (fun o => isOther o = true)
      (forEach (StagingIngest.assignmentStep { jobId, cacheDriveId, tapeAssignments }) assignments) := by
  refine only_forEach (fun assignment => ?_) _
  refine only_bind (only_perform rfl) fun cancelled => ?_
  exact only_ite (fun _ => only_raise _) fun _ => only_perform rfl

theorem calls_markUnfinished (exc : Exn) : Calls (fun o => isOther o = true) (markUnfinished exc) :=
  only_ite (fun _ => only_perform rfl) fun _ => only_ite (fun _ => only_raise _) fun _ => only_perform rfl

theorem calls_finish : Calls (fun o => isOther o = true) (do
    stagingCall .completeDatasetArchive
    stagingCall .finalizeJob : StagingM Unit) :=
  only_bind (only_perform rfl) fun _ => only_perform rfl

/-- What a cache-drive ingest does before its clean-up releases nothing. -/
theorem wp_body (tapeAssignments : List TapeAssignment) :
    wp (havoc note) (.protocol (allowed drives jobId (some driveId)))
      (StagingIngest.body drives { jobId, cacheDriveId := some driveId, tapeAssignments }) (fun _ _ ph => ph ≠ .released)
      (fun _ _ ph => ph ≠ .released) l .idle := by
  unfold StagingIngest.body
  rw [wp_bind]
  refine wp_follows (allowed_other rfl (by simp)) (fun prepared => ?_) fun e => by rw [note_other rfl]; simp
  rw [note_other rfl, wp_bind]
  refine wp_mono (wp_cacheDrivePreflight prepared rfl) ?_ fun e l' ph' h => h
  rintro _ l' ph' rfl
  rw [wp_bind]
  refine wp_mono (wp_other (calls_assignments jobId (some driveId) _ _) (by simp)) ?_ fun e l' ph' h => by rw [h]; simp
  rintro _ l'' ph' rfl
  refine wp_mono (wp_other calls_finish (by simp)) ?_ ?_
  · intro _ l' ph' h
    rw [h]
    simp
  · intro _ l' ph' h
    rw [h]
    simp

/-- Every ingest follows its protocol, and has released its reservation where it ends. -/
theorem followsTo_run (ingest : StagingIngest) :
    (ingest.run drives {}).FollowsTo note (allowed drives ingest.jobId ingest.cacheDriveId) (done ingest.cacheDriveId) .idle := by
  have hall : wp (havoc note) (.protocol (allowed drives ingest.jobId ingest.cacheDriveId)) (ingest.run drives)
      (fun _ _ => done ingest.cacheDriveId) (fun _ _ => done ingest.cacheDriveId) {} .idle := by
    obtain ⟨jobId, cacheDriveId, tapeAssignments⟩ := ingest
    cases cacheDriveId with
    | none =>
      have hbody : Calls (fun o => isOther o = true)
          (StagingIngest.body drives { jobId, cacheDriveId := none, tapeAssignments }) := by
        refine only_bind (only_perform rfl) fun prepared => only_bind ?_ fun _ => ?_
        · exact only_bind (only_perform rfl) fun warnings => only_assign fun _ => trivial
        · exact only_bind (calls_assignments jobId none _ _) fun _ => calls_finish
      have hrun : Calls (fun o => isOther o = true) (StagingIngest.run drives { jobId, cacheDriveId := none, tapeAssignments }) :=
        only_ensure (only_handle hbody calls_markUnfinished) fun _ => only_pure ()
      refine wp_mono (wp_other hrun (by simp)) ?_ ?_
      · exact fun _ _ _ _ driveId h => nomatch h
      · exact fun _ _ _ _ driveId h => nomatch h
    | some driveId =>
      have hcleanup : ∀ l ph, ph ≠ .released → wp (havoc note) (.protocol (allowed drives jobId (some driveId)))
          (StagingIngest.cleanup { jobId, cacheDriveId := some driveId, tapeAssignments }) (fun _ _ => done (some driveId))
          (fun _ _ => done (some driveId)) l ph := by
        intro l ph hph
        exact wp_follows ⟨hph, rfl, rfl⟩ (fun _ _ _ => rfl) fun _ _ _ => rfl
      unfold StagingIngest.run
      rw [wp_ensure, wp_handle]
      refine wp_mono (wp_body tapeAssignments) (fun _ l ph hph => hcleanup l ph hph) fun exc l ph hph => ?_
      refine wp_mono (wp_other (calls_markUnfinished exc) hph) ?_ ?_
      · rintro _ l' ph' rfl
        exact hcleanup l' _ hph
      · rintro _ l' ph' rfl
        exact hcleanup l' _ hph
  refine Prog.wp_mono hall ?_
  rintro ⟨_ | _, l⟩ ph h
  · exact h
  · exact h

end protocol

/-! ### The steps of an interleaving -/

theorem nonempty_ans (o : StagingOp) : Nonempty (Except Exn o.Ans) := ⟨.error (ingestRefused "")⟩

section steps

variable {drives : String → CacheDriveConfig} {driveOf : JobId → Option String} {hist : List (JobId × StagingStep)}
  {s : StagingReservations} {ph : JobId → Phase} {jobId : JobId} {o : StagingOp} {c : ∀ o : StagingOp, Except Exn o.Ans}

theorem exec_other (h : isOther o = true) : (stagingMachine.exec s o c).2 = s := by
  cases o <;> first | rfl | cases h

theorem sound_exec (h : Sound s) (hallowed : allowed drives jobId (driveOf jobId) (ph jobId) o) : Sound (stagingMachine.exec s o c).2 := by
  by_cases hother : isOther o = true
  · rwa [exec_other hother]
  · cases hdrive : driveOf jobId with
    | none =>
      rw [hdrive] at hallowed
      exact absurd hallowed hother
    | some driveId =>
      rw [hdrive] at hallowed
      cases o with
      | reservedCacheDriveBytes driveId' jobId' => exact h
      | reserveCacheDriveBytes driveId' jobId' n => exact h.reserve hallowed.2.2.2.1
      | releaseCacheDriveBytes driveId' jobId' => exact h.release
      | _ => exact absurd rfl hother

/-- A call from within the budget stays within it exactly where what it records still fits. -/
theorem withinBudget_exec (h : Sound s) (hbudget : s.WithinBudget drives) :
    (stagingMachine.exec s o c).2.WithinBudget drives ↔ StillFits drives (stagingMachine.step s o c) := by
  by_cases hother : isOther o = true
  · rw [exec_other hother]
    refine iff_of_true hbudget fun driveId jobId n hop => ?_
    cases hop
    cases hother
  · cases o with
    | reservedCacheDriveBytes driveId' jobId' => exact iff_of_true hbudget fun driveId jobId n hop => nomatch hop
    | releaseCacheDriveBytes driveId' jobId' =>
      exact iff_of_true (withinBudget_release h hbudget) fun driveId jobId n hop => nomatch hop
    | reserveCacheDriveBytes driveId' jobId' n' =>
      refine (withinBudget_reserve h hbudget).trans ⟨fun hfits driveId jobId n hop => ?_, fun hfits => hfits _ _ _ rfl⟩
      cases hop
      exact hfits
    | _ => exact absurd rfl hother

/-- What a job is told of the others does not grow by a call that records nothing on the drive. -/
theorem reserved_exec_le (h : Sound s) {driveId : String} (hrecords : ∀ jobId' n', o ≠ .reserveCacheDriveBytes driveId jobId' n') :
    (stagingMachine.exec s o c).2.reserved driveId jobId ≤ s.reserved driveId jobId := by
  by_cases hother : isOther o = true
  · rw [exec_other hother]
  · cases o with
    | reservedCacheDriveBytes driveId' jobId' => exact le_refl _
    | releaseCacheDriveBytes driveId' jobId' => exact reserved_release_le h
    | reserveCacheDriveBytes driveId' jobId' n' =>
      have hd : driveId' ≠ driveId := by
        rintro rfl
        exact hrecords jobId' n' rfl
      exact le_of_eq (reserved_reserve_ne hd)
    | _ => exact absurd rfl hother

/-- What an ingest saw when it looked still bounds what the others have, if nobody recorded anything on the drive since. -/
def Remembers (hist : List (JobId × StagingStep)) (s : StagingReservations) (jobId : JobId) (driveId : String) (reservedBytes : Int) :
    Prop :=
  ∃ pre y post, hist = pre ++ y :: post ∧ y.2.op = .reservedCacheDriveBytes driveId jobId ∧
    ((∀ z ∈ post, ∀ jobId' n', z.2.op ≠ .reserveCacheDriveBytes driveId jobId' n') → s.reserved driveId jobId ≤ reservedBytes)

/-- The state of the reservations, the ingests and the steps so far. -/
structure Kept (drives : String → CacheDriveConfig) (driveOf : JobId → Option String) (hist : List (JobId × StagingStep))
    (s : StagingReservations) (ph : JobId → Phase) : Prop where
  sound : Sound s
  own : ∀ driveId jobId n, Dict.get? (s.onDrive driveId) jobId = some n → ph jobId = .recorded ∧ driveOf jobId = some driveId
  streams : ∀ jobId, driveOf jobId = none → ph jobId = .idle
  releases : ∀ jobId, releasesOf jobId hist = if ph jobId = .released then 1 else 0
  remembers : ∀ jobId driveId reservedBytes, ph jobId = .looked reservedBytes → driveOf jobId = some driveId →
    Remembers hist s jobId driveId reservedBytes
  undisturbed : (∀ driveId, (drives driveId).minFreeBytes ≤ (drives driveId).maxBytes) → Throughout LookStands hist →
    ∀ x ∈ hist, StillFits drives x.2
  budget : (∀ x ∈ hist, x.2.post.WithinBudget drives) ↔ ∀ x ∈ hist, StillFits drives x.2
  now : (∀ x ∈ hist, StillFits drives x.2) → s.WithinBudget drives

theorem Remembers.step {driveId : String} {reservedBytes : Int} (hs : Sound s) (h : Remembers hist s jobId driveId reservedBytes)
    (i : JobId) : Remembers (hist ++ [(i, stagingMachine.step s o c)]) (stagingMachine.exec s o c).2 jobId driveId reservedBytes := by
  obtain ⟨pre, y, post, rfl, hop, hbound⟩ := h
  refine ⟨pre, y, post ++ [(i, stagingMachine.step s o c)], by simp, hop, fun hquiet => ?_⟩
  have hbefore := hbound fun z hz => hquiet z (List.mem_append_left _ hz)
  have hlast := hquiet (i, stagingMachine.step s o c) (by simp)
  exact (reserved_exec_le hs hlast).trans hbefore

/-- What is recorded undisturbed still fits. -/
theorem Kept.stillFits (h : Kept drives driveOf hist s ph) (hallowed : allowed drives jobId (driveOf jobId) (ph jobId) o)
    (hdrives : ∀ driveId, (drives driveId).minFreeBytes ≤ (drives driveId).maxBytes)
    (hundisturbed : LookStands hist (jobId, stagingMachine.step s o c)) : StillFits drives (stagingMachine.step s o c) := by
  intro driveId' jobId' n hop
  obtain rfl : o = .reserveCacheDriveBytes driveId' jobId' n := hop
  cases hdrive : driveOf jobId with
  | none =>
    rw [hdrive] at hallowed
    cases hallowed
  | some driveId =>
    rw [hdrive] at hallowed
    obtain ⟨-, rfl, rfl, -, reservedBytes, hlooked, hroom⟩ := hallowed
    obtain ⟨pre, y, post, hsplit, hlook, hbound⟩ := h.remembers jobId' driveId' reservedBytes hlooked hdrive
    have hothers := hbound (hundisturbed driveId' jobId' n rfl pre y post hsplit hlook)
    have hpositive := hdrives driveId'
    show n + s.reserved driveId' jobId' ≤ _
    unfold CacheDriveConfig.availableBytes at hroom
    omega

/-- The release of a job is counted, and no other call is. -/
theorem releasesOf_concat (i : JobId) (hist : List (JobId × StagingStep)) :
    releasesOf jobId (hist ++ [(i, stagingMachine.step s o c)]) =
      releasesOf jobId hist + if i = jobId ∧ o.releases = true then 1 else 0 := by
  unfold releasesOf
  rw [List.countP_append, List.countP_singleton]
  by_cases hrel : i = jobId ∧ o.releases = true
  · simp [Machine.step, hrel]
  · simp [Machine.step, hrel]

/-- An ingest that an allowed call is made by is not released, unless it has none to release. -/
theorem of_not_other (hother : ¬isOther o = true) (hallowed : allowed drives jobId (driveOf jobId) (ph jobId) o) :
    ∃ driveId, driveOf jobId = some driveId ∧ ph jobId ≠ .released ∧ allowedOn drives jobId driveId (ph jobId) o := by
  cases hdrive : driveOf jobId with
  | none =>
    rw [hdrive] at hallowed
    exact absurd hallowed hother
  | some driveId =>
    rw [hdrive] at hallowed
    exact ⟨driveId, rfl, hallowed.1, hallowed.2⟩

/-- A reservation is entered by the ingest that recorded it, on its drive. -/
theorem Kept.own_step (h : Kept drives driveOf hist s ph) (hallowed : allowed drives jobId (driveOf jobId) (ph jobId) o)
    {driveId' : String} {jobId' : JobId} {n : Int}
    (hget : Dict.get? ((stagingMachine.exec s o c).2.onDrive driveId') jobId' = some n) :
    Function.update ph jobId (note (ph jobId) o (stagingMachine.exec s o c).1) jobId' = .recorded ∧ driveOf jobId' = some driveId' := by
  by_cases hother : isOther o = true
  · rw [exec_other hother] at hget
    rw [note_other hother, Function.update_eq_self]
    exact h.own driveId' jobId' n hget
  obtain ⟨driveId, hdrive, -, hon⟩ := of_not_other hother hallowed
  -- an entry that was there before is another job's, or the job goes on to `recorded`
  have hbefore : ∀ {ph' : Phase}, Dict.get? (s.onDrive driveId') jobId' = some n → (jobId' = jobId → ph' = .recorded) →
      Function.update ph jobId ph' jobId' = .recorded ∧ driveOf jobId' = some driveId' := by
    intro ph' hold hself
    obtain ⟨hph, hof⟩ := h.own driveId' jobId' n hold
    refine ⟨?_, hof⟩
    by_cases hj : jobId' = jobId
    · rw [hj, Function.update_self]
      exact hself hj
    · rwa [Function.update_of_ne hj]
  cases o with
  | reservedCacheDriveBytes d j =>
    refine hbefore hget fun hj => ?_
    subst hj
    have hrecorded := (h.own driveId' jobId' n hget).1
    rw [hon.2.2] at hrecorded
    cases hrecorded
  | reserveCacheDriveBytes d j m =>
    obtain ⟨rfl, rfl, -⟩ := hon
    have hget' : Dict.get? ((s.reserve d j m).onDrive driveId') jobId' = some n := hget
    rw [onDrive_reserve] at hget'
    split at hget'
    · rename_i hd
      rw [Dict.get?_set] at hget'
      split at hget'
      · rename_i hj
        subst hj hd
        rw [Function.update_self]
        exact ⟨rfl, hdrive⟩
      · exact hbefore (hd ▸ hget') fun _ => rfl
    · exact hbefore hget' fun _ => rfl
  | releaseCacheDriveBytes d j =>
    obtain ⟨rfl, rfl⟩ := hon
    have hget' : Dict.get? ((s.release d j).onDrive driveId') jobId' = some n := hget
    rw [onDrive_release] at hget'
    split at hget'
    · rename_i hd
      rw [Dict.get?_erase] at hget'
      split at hget'
      · cases hget'
      · rename_i hj
        exact hbefore (hd ▸ hget') fun hj' => absurd hj'.symm hj
    · rename_i hd
      refine hbefore hget' fun hj => ?_
      subst hj
      have hof := (h.own driveId' jobId' n hget').2
      rw [hdrive] at hof
      exact absurd (Option.some.inj hof) hd
  | _ => exact absurd rfl hother

/-- A source-stream ingest has nothing to note. -/
theorem Kept.streams_step (h : Kept drives driveOf hist s ph) (hallowed : allowed drives jobId (driveOf jobId) (ph jobId) o)
    (jobId' : JobId) (hnone : driveOf jobId' = none) :
    Function.update ph jobId (note (ph jobId) o (stagingMachine.exec s o c).1) jobId' = .idle := by
  by_cases hj : jobId' = jobId
  · subst hj
    rw [hnone] at hallowed
    rw [Function.update_self, note_other hallowed]
    exact h.streams jobId' hnone
  · rw [Function.update_of_ne hj]
    exact h.streams jobId' hnone

/-- An ingest is released by its release, and by no other call. -/
theorem Kept.releases_step (h : Kept drives driveOf hist s ph) (hallowed : allowed drives jobId (driveOf jobId) (ph jobId) o)
    (jobId' : JobId) : releasesOf jobId' (hist ++ [(jobId, stagingMachine.step s o c)]) =
      if Function.update ph jobId (note (ph jobId) o (stagingMachine.exec s o c).1) jobId' = .released then 1 else 0 := by
  rw [releasesOf_concat, h.releases]
  by_cases hj : jobId' = jobId
  · subst hj
    rw [Function.update_self]
    by_cases hother : isOther o = true
    · have hno : o.releases = false := by cases o <;> first | rfl | cases hother
      simp [note_other hother, hno]
    · obtain ⟨driveId, -, hlive, -⟩ := of_not_other hother hallowed
      cases o with
      | reservedCacheDriveBytes d j => simp [hlive, note, stagingMachine, StagingOp.releases]
      | reserveCacheDriveBytes d j m => simp [hlive, note, StagingOp.releases]
      | releaseCacheDriveBytes d j => simp [hlive, note, StagingOp.releases]
      | _ => exact absurd rfl hother
  · have hno : ¬(jobId = jobId' ∧ o.releases = true) := fun hrel => hj hrel.1.symm
    rw [Function.update_of_ne hj, if_neg hno, Nat.add_zero]

/-- An ingest remembers what it saw, and a look is remembered. -/
theorem Kept.remembers_step (h : Kept drives driveOf hist s ph) (hallowed : allowed drives jobId (driveOf jobId) (ph jobId) o)
    {jobId' : JobId} {driveId : String} {reservedBytes : Int}
    (hlooked : Function.update ph jobId (note (ph jobId) o (stagingMachine.exec s o c).1) jobId' = .looked reservedBytes)
    (hdrive : driveOf jobId' = some driveId) :
    Remembers (hist ++ [(jobId, stagingMachine.step s o c)]) (stagingMachine.exec s o c).2 jobId' driveId reservedBytes := by
  by_cases hj : jobId' = jobId
  · subst hj
    rw [Function.update_self] at hlooked
    by_cases hother : isOther o = true
    · rw [note_other hother] at hlooked
      exact (h.remembers jobId' driveId reservedBytes hlooked hdrive).step h.sound jobId'
    · obtain ⟨driveId', hdrive', -, hon⟩ := of_not_other hother hallowed
      rw [hdrive] at hdrive'
      obtain rfl := Option.some.inj hdrive'
      cases o with
      | reservedCacheDriveBytes d j =>
        obtain ⟨rfl, rfl, -⟩ := hon
        cases hlooked
        exact ⟨hist, _, [], rfl, rfl, fun _ => le_refl _⟩
      | reserveCacheDriveBytes d j m => cases hlooked
      | releaseCacheDriveBytes d j => cases hlooked
      | _ => exact absurd rfl hother
  · rw [Function.update_of_ne hj] at hlooked
    exact (h.remembers jobId' driveId reservedBytes hlooked hdrive).step h.sound jobId

/-- An allowed call keeps all of it. -/
theorem Kept.step (h : Kept drives driveOf hist s ph) (hallowed : allowed drives jobId (driveOf jobId) (ph jobId) o) :
    Kept drives driveOf (hist ++ [(jobId, stagingMachine.step s o c)]) (stagingMachine.exec s o c).2
      (Function.update ph jobId (note (ph jobId) o (stagingMachine.exec s o c).1)) := by
  have hfits : (∀ x ∈ hist ++ [(jobId, stagingMachine.step s o c)], StillFits drives x.2) ↔
      (∀ x ∈ hist, StillFits drives x.2) ∧ StillFits drives (stagingMachine.step s o c) := by
    simp [or_imp, forall_and]
  have hposts : (∀ x ∈ hist ++ [(jobId, stagingMachine.step s o c)], x.2.post.WithinBudget drives) ↔
      (∀ x ∈ hist, x.2.post.WithinBudget drives) ∧ (stagingMachine.exec s o c).2.WithinBudget drives := by
    simp [or_imp, forall_and, Machine.step]
  exact
    { sound := sound_exec h.sound hallowed
      own := fun driveId' jobId' n hget => h.own_step hallowed hget
      streams := h.streams_step hallowed
      releases := h.releases_step hallowed
      remembers := fun jobId' driveId reservedBytes => h.remembers_step hallowed
      undisturbed := by
        intro hdrives hthroughout
        obtain ⟨hbefore, hlast⟩ := throughout_concat_iff.1 hthroughout
        exact hfits.2 ⟨h.undisturbed hdrives hbefore, h.stillFits hallowed hdrives hlast⟩
      budget := by
        rw [hfits, hposts, h.budget]
        exact and_congr_right fun hall => withinBudget_exec h.sound (h.now hall)
      now := by
        intro hall
        obtain ⟨hbefore, hlast⟩ := hfits.1 hall
        exact (withinBudget_exec h.sound (h.now hbefore)).2 hlast }

/-- What is left of an ingest that follows its protocol tells whether it has released its reservation. -/
theorem Kept.releasedOnce (h : Kept drives driveOf hist s ph)
    {left : Prog StagingOp (fun o => Except Exn o.Ans) (Except Exn Unit × StagingLocals)}
    (hleft : left.FollowsTo note (allowed drives jobId (driveOf jobId)) (done (driveOf jobId)) (ph jobId)) :
    ((driveOf jobId).isSome ∧ left.value?.isSome → releasesOf jobId hist = 1 ∧
        ∀ driveId, Dict.get? (s.onDrive driveId) jobId = none) ∧
      (¬((driveOf jobId).isSome ∧ left.value?.isSome) → releasesOf jobId hist = 0) := by
  rw [h.releases]
  cases hdrive : driveOf jobId with
  | none =>
    have hidle := h.streams jobId hdrive
    simp [hidle]
  | some driveId =>
    rw [hdrive] at hleft
    cases left with
    | ret r =>
      have hreleased : ph jobId = .released := hleft driveId rfl
      refine ⟨fun _ => ⟨if_pos hreleased, fun driveId' => ?_⟩, fun hnot => absurd ⟨rfl, rfl⟩ hnot⟩
      cases hget : Dict.get? (s.onDrive driveId') jobId with
      | none => rfl
      | some n =>
        have hrecorded := (h.own driveId' jobId n hget).1
        rw [hreleased] at hrecorded
        cases hrecorded
    | call o k =>
      have hlive := (Prog.followsTo_call hleft nonempty_ans).1.1
      exact ⟨fun hended => (by cases hended.2), fun _ => if_neg hlive⟩

end steps

end StagingAux

/-- An ingest that has a cache drive and has ended. -/
def EndedOn (ingests : JobId → StagingIngest) (left : Pool JobId StagingOp (fun o => Except Exn o.Ans) (Except Exn Unit × StagingLocals))
    (jobId : JobId) : Prop :=
  (ingests jobId).cacheDriveId.isSome ∧ (left jobId).value?.isSome

/-- Every ingest has released its reservation once if it has ended, and not before; after that nothing is entered for it. -/
def ReleasedOnce (drives : String → CacheDriveConfig) (ingests : JobId → StagingIngest)
    (sched : List (JobId × (∀ o : StagingOp, Except Exn o.Ans))) : Prop :=
  let p := stagingPool drives ingests
  ∀ jobId, (EndedOn ingests (Pool.finalPool stagingMachine sched p []) jobId →
      releasesOf jobId (Pool.trace stagingMachine sched p []) = 1 ∧
        ∀ driveId, Dict.get? ((Pool.finalState stagingMachine sched p []).onDrive driveId) jobId = none) ∧
    (¬EndedOn ingests (Pool.finalPool stagingMachine sched p []) jobId →
      releasesOf jobId (Pool.trace stagingMachine sched p []) = 0)

/-- In every interleaving of ingests, the budget of every drive is kept at every moment and every reservation is released once,
exactly where every reservation still fits when it is recorded; and it does where nothing is recorded on the drive between the look
of an ingest and its recording. -/
theorem staging_budget_iff (drives : String → CacheDriveConfig) (ingests : JobId → StagingIngest)
    (sched : List (JobId × (∀ o : StagingOp, Except Exn o.Ans))) :
    (((∀ x ∈ Pool.trace stagingMachine sched (stagingPool drives ingests) [], x.2.post.WithinBudget drives) ∧
        ReleasedOnce drives ingests sched) ↔
      ∀ x ∈ Pool.trace stagingMachine sched (stagingPool drives ingests) [], StillFits drives x.2) ∧
    ((∀ driveId, (drives driveId).minFreeBytes ≤ (drives driveId).maxBytes) →
      Throughout LookStands (Pool.trace stagingMachine sched (stagingPool drives ingests) []) →
      ∀ x ∈ Pool.trace stagingMachine sched (stagingPool drives ingests) [], StillFits drives x.2) := by
  have hstart : StagingAux.Kept drives (fun jobId => (ingests jobId).cacheDriveId) [] [] fun _ => .idle :=
    { sound := StagingAux.sound_nil
      own := fun _ _ _ hget => nomatch hget
      streams := fun _ _ => rfl
      releases := fun _ => rfl
      remembers := fun _ _ _ hlooked => nomatch hlooked
      undisturbed := fun _ _ x hx => nomatch hx
      budget := by simp
      now := fun _ driveId hdrive => nomatch hdrive }
  have hfollows : ∀ jobId, (stagingPool drives ingests jobId).FollowsTo StagingAux.note
      (StagingAux.allowed drives jobId (ingests jobId).cacheDriveId) (StagingAux.done (ingests jobId).cacheDriveId) .idle :=
    fun jobId => StagingAux.followsTo_run { ingests jobId with jobId := jobId }
  obtain ⟨ph, hkept, hleft⟩ := Pool.invariant_of_followsTo StagingAux.nonempty_ans
    (fun tr s ph jobId o c h hallowed => StagingAux.Kept.step h hallowed) hfollows hstart sched
  have hreleased : ReleasedOnce drives ingests sched := fun jobId => hkept.releasedOnce (hleft jobId)
  refine ⟨?_, hkept.undisturbed⟩
  rw [← hkept.budget]
  exact ⟨fun h => h.1, fun h => ⟨h, hreleased⟩⟩

namespace StagingExample

/-- A cache drive of 10 bytes. -/
def drives (_ : String) : CacheDriveConfig :=
  { rootPath := "/cache", maxBytes := 10, minFreeBytes := 0, positive := by decide, nonneg := by decide }

def ingests (jobId : JobId) : StagingIngest := { jobId, cacheDriveId := some "cache-1" }

/-- One file of 6 bytes that is where it should be; everything else succeeds. -/
def answers : (o : StagingOp) → Except Exn o.Ans
  | .reservedCacheDriveBytes _ _ => .ok 0
  | .prepareFiles =>
    .ok [{ relativePath := "a", sourcePath := "/cache/a", sizeBytes := 6, checksumSha256 := "", mtime := "" }]
  | .cacheRootAvailable _ => .ok true
  | .sourceFile _ => .ok .insideRoot
  | .sourceStreamPreflight => .ok []
  | .cancelRequested => .ok false
  | .reserveCacheDriveBytes _ _ _ => .ok ()
  | .releaseCacheDriveBytes _ _ => .ok ()
  | .writeAssignment _ => .ok ()
  | .completeDatasetArchive => .ok ()
  | .finalizeJob => .ok ()
  | .markDatasetCancelled _ => .ok ()
  | .markDatasetFailed _ => .ok ()

/-- Both ingests look, then both record. -/
def sched : List (JobId × (∀ o : StagingOp, Except Exn o.Ans)) :=
  ((List.replicate 4 "A" ++ List.replicate 4 "B") ++ ["A", "B"]).map fun jobId => (jobId, answers)

instance (s : StagingReservations) : Decidable (s.WithinBudget drives) := by
  unfold StagingReservations.WithinBudget
  infer_instance

end StagingExample

open StagingExample in
/-- Two ingests that both look at the drive before either records reserve 12 of its 10 bytes. -/
theorem two_looks_overdraw :
    ¬∀ (drives : String → CacheDriveConfig) (ingests : JobId → StagingIngest)
      (sched : List (JobId × (∀ o : StagingOp, Except Exn o.Ans))),
      ∀ x ∈ Pool.trace stagingMachine sched (stagingPool drives ingests) [], x.2.post.WithinBudget drives := by
  intro h
  have hbudget := h drives ingests sched
  revert hbudget
  decide +kernel

end OpenBlade
