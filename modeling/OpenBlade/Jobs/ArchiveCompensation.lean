import OpenBlade.Jobs.Compensation

/-!
# The archive job puts its tapes back

The archive job takes one tape after the other. What it knows of the current tape, in its local variables, is enough to put the tape
back from the moment it is mounted; from the load to the mount it knows nothing of it.
-/

namespace OpenBlade

open Effects Proc

namespace CompensationAux

variable (sha256 : Bytes → String) {L : Type} {s : World × LoadMonitor} {v : Scene} {barcode : Barcode} {driveId : Int}
  {slot : Option Nat} {slotId : Nat} {mountHandle : MountHandle} {jobId : JobId}

/-! ### Leases -/

/-- What only looks leaves the scene as it is while no loaded cartridge is in a drive. -/
theorem stable_looks (h : v.Idle) : Stable (loadsNoted sha256) compensating (fun o => o.isRead = true) fun s => sceneOf s = v := by
  intro o ho s s₁ c hs hr _
  have hs₁ : s = s₁ := hr
  subst hs₁
  refine ⟨trivial, ?_⟩
  by_cases hlive : ∃ id token, o = .lease (.isLive id token)
  · obtain ⟨id, token, rfl⟩ := hlive
    rcases scene_isLive sha256 (s := s) (c := c) id token with ⟨-, hscene⟩ | ⟨-, hscene⟩
    · exact hscene.trans hs
    · rw [hscene, hs, h.not_holdsLoaded, Bool.or_false]
  · have hspares := World.sparesTapes_of_isRead ho fun id token he => hlive ⟨id, token, he⟩
    exact (scene_spares sha256 hspares).trans hs

/-- A check of a lease that has not been released: it passes, a call of it raises, or the lease is gone. -/
theorem wp_verify {lease : DriveHandle} {l : L} (hrel : lease.released = false) (hs : v.Idle ∨ ∃ x, v.Accounted (some x))
    (hv : sceneOf s = v) :
    wp (loadsNoted sha256) compensating (verifyHandle lease : JobM L Unit)
      (fun _ l' s' => l' = l ∧ sceneOf s' = v)
      (fun e l' s' => l' = l ∧ (World.NotStale e ∧ sceneOf s' = v ∨ e.cls = .staleLease ∧ (sceneOf s').Ended)) l s := by
  unfold verifyHandle
  simp only [hrel, Bool.false_eq_true, if_false, wp_bind]
  refine wp_call fun s₁ hr c _ => ?_
  have hs₁ : s = s₁ := hr
  subst hs₁
  rcases scene_isLive sha256 (s := s) (c := c) lease.leaseId lease.fencingToken with ⟨hne, hscene⟩ | ⟨hans', hscene⟩
  · refine ⟨trivial, fun live hans => ?_, fun e hans => ⟨rfl, .inl ⟨World.exec_notStale sha256 hans, hscene.trans hv⟩⟩⟩
    cases live with
    | true => exact ⟨rfl, hscene.trans hv⟩
    | false => exact absurd hans hne
  · refine ⟨trivial, fun live hans => ?_, fun e hans => ?_⟩
    · cases live with
      | true =>
        rw [hans'] at hans
        cases hans
      | false =>
        refine ⟨rfl, .inr ⟨rfl, ?_⟩⟩
        rw [hscene, hv]
        exact .stale hs
    · rw [hans'] at hans
      cases hans

/-! ### The requests of the job -/

/-- The UNLOAD request of the job has not reached the library, and its cartridge is to be put back. -/
structure Unloading (jobId : JobId) (barcode : Barcode) (driveId : Int) (slotId : Nat) (s : World × LoadMonitor) : Prop where
  held : (sceneOf s).Held barcode driveId (some slotId) fun _ => False
  pending : s.2.unloading = some (unloadRequest "archive-job" jobId barcode driveId slotId)

/-- The cartridge has been put back. -/
def IsBack (barcode : Barcode) (driveId : Int) (v : Scene) : Prop := v.Idle ∧ (barcode, driveId) ∈ v.loaded

/-- A drive that has nothing to unload holds no loaded cartridge. -/
theorem Unloading.isBack (h : Unloading jobId barcode driveId slotId s)
    (hn : hasNothingToUnload s.1 (unloadRequest "archive-job" jobId barcode driveId slotId) = true) :
    IsBack barcode driveId (sceneOf s) :=
  h.held.idle_of_empty (Option.isNone_iff_eq_none.1 hn)

/-- The look at the leases and the unload. -/
theorem wp_dispatchUnload {l : L} (h : Unloading jobId barcode driveId slotId s) :
    wp (loadsNoted sha256) compensating (dispatch (unloadRequest "archive-job" jobId barcode driveId slotId) : JobM L JsonObject)
      (fun _ l' s' => l' = l ∧ IsBack barcode driveId (sceneOf s')) (fun _ l' s' => l' = l ∧ IsBack barcode driveId (sceneOf s')) l s := by
  unfold dispatch
  simp only [unloadRequest]
  unfold orchestratorUnload refuseIfLeasedByAnotherJob
  simp only [Option.map_some, givenOr, wp_bind, wp_pure]
  refine wp_call fun s₁ hr c ha => ?_
  have hs₁ : s = s₁ := hr
  subst hs₁
  have hscene := scene_spares sha256 (s := s) (c := c) (o := .lease .liveLeases) rfl
  have hstep : (s.2.unloading.all fun request =>
      hasNothingToUnload s.1 request || letsGoOn request (s.1.exec sha256 (.lease .liveLeases) c).1) = true := ha
  rw [h.pending, Option.all_some, Bool.or_eq_true] at hstep
  have hback : hasNothingToUnload s.1 (unloadRequest "archive-job" jobId barcode driveId slotId) = true →
      IsBack barcode driveId (sceneOf ((loadsNoted sha256).exec s (.lease .liveLeases) c).2) :=
    fun hn => hscene.symm ▸ h.isBack hn
  have hheld : (sceneOf ((loadsNoted sha256).exec s (.lease .liveLeases) c).2).Held barcode driveId (some slotId) fun _ => False :=
    hscene.symm ▸ h.held
  refine ⟨trivial, fun leases hans => ?_, fun e hans => ⟨rfl, hback (hstep.resolve_right fun hgo => ?_)⟩⟩
  · cases hleased : leasedByAnotherJob leases driveId (some jobId) with
    | none =>
      rw [wp_pure, wp_bind]
      exact wp_unloadHeld sha256 hheld
    | some lease =>
      refine ⟨rfl, hback (hstep.resolve_right fun hgo => ?_)⟩
      have hans' : (s.1.exec sha256 (.lease .liveLeases) c).1 = .ok leases := hans
      rw [hans'] at hgo
      have hnone : (leasedByAnotherJob leases driveId (some jobId)).isNone = true := hgo
      rw [hleased] at hnone
      cases hnone
  · have hans' : (s.1.exec sha256 (.lease .liveLeases) c).1 = .error e := hans
    rw [hans'] at hgo
    cases hgo

/-- An UNLOAD request that is valid puts the cartridge back. -/
theorem wp_unloadRequestHeld {l : L} (hvalid : validateRequest (unloadRequest "archive-job" jobId barcode driveId slotId) = .ok ())
    (h : (sceneOf s).Held barcode driveId (some slotId) fun _ => False) :
    wp (loadsNoted sha256) compensating
      (executeTapeRequest (unloadRequest "archive-job" jobId barcode driveId slotId) false : JobM L TapeOpRecord)
      (fun _ l' s' => l' = l ∧ IsBack barcode driveId (sceneOf s')) (fun _ l' s' => l' = l ∧ IsBack barcode driveId (sceneOf s')) l s := by
  -- once the cartridge is back, what the request still writes keeps it there
  have hafter : ∀ {α : Type} {m : JobM L α} {s : World × LoadMonitor}, Reads (fun o => World.sparesTapes o = true) m →
      IsBack barcode driveId (sceneOf s) →
      wp (loadsNoted sha256) compensating m (fun _ l' s' => l' = l ∧ IsBack barcode driveId (sceneOf s'))
        (fun _ l' s' => l' = l ∧ IsBack barcode driveId (sceneOf s')) l s := by
    intro α m s hm hback
    refine wp_mono (wp_spares sha256 hm (IsBack barcode driveId) hback) ?_ ?_
    · exact fun _ l' s' h => ⟨h.1.symm, h.2⟩
    · exact fun _ l' s' h => ⟨h.1.symm, h.2⟩
  have hassert : ∀ row, Reads (fun o => World.sparesTapes o = true) (assertPersisted row : JobM L TapeOpRecord) := by
    intro row
    cases row with
    | none => exact only_raise _
    | some row => exact only_pure row
  unfold executeTapeRequest executeTapeOp
  have hmove : (unloadRequest "archive-job" jobId barcode driveId slotId).opType ≠ .move := nofun
  rw [validateMove_of_ne hmove]
  simp only [wp_bind, wp_ofExcept, hvalid, wp_pure]
  refine wp_call fun s₁ hr c ha => ?_
  have hs₁ : s = s₁ := hr
  subst hs₁
  have hcreate : (hasNothingToUnload s.1 (unloadRequest "archive-job" jobId barcode driveId slotId) ||
      answered (s.1.exec sha256 (.catalog (.createTapeOp (unloadRequest "archive-job" jobId barcode driveId slotId))) c).1) = true := ha
  have hscene := scene_spares sha256 (s := s) (c := c)
    (o := .catalog (.createTapeOp (unloadRequest "archive-job" jobId barcode driveId slotId))) rfl
  refine ⟨trivial, fun row _ => ?_, fun e hans => ⟨rfl, ?_⟩⟩
  · have h₁ : Unloading jobId barcode driveId slotId
        ((loadsNoted sha256).exec s (.catalog (.createTapeOp (unloadRequest "archive-job" jobId barcode driveId slotId))) c).2 :=
      ⟨hscene.symm ▸ h, rfl⟩
    generalize ((loadsNoted sha256).exec s (.catalog (.createTapeOp (unloadRequest "archive-job" jobId barcode driveId slotId))) c).2 =
      s₁ at h₁ ⊢
    rw [wp_bind]
    refine wp_call fun s₂ hr c ha => ?_
    have hs₂ : s₁ = s₂ := hr
    subst hs₂
    have hscene₁ := scene_spares sha256 (s := s₁) (c := c) (o := .catalog (.updateTapeOp row.opId .running)) rfl
    have hrunning : (s₁.2.unloading.all fun request => hasNothingToUnload s₁.1 request ||
        answered (s₁.1.exec sha256 (.catalog (.updateTapeOp row.opId .running)) c).1) = true := ha
    rw [h₁.pending, Option.all_some] at hrunning
    have h₂ : Unloading jobId barcode driveId slotId ((loadsNoted sha256).exec s₁ (.catalog (.updateTapeOp row.opId .running)) c).2 :=
      ⟨hscene₁.symm ▸ h₁.held, h₁.pending⟩
    refine ⟨trivial, fun _ _ => ?_, fun e hans => ⟨rfl, ?_⟩⟩
    · have hend : ∀ (record : TapeOpRecord) l' s', l' = l ∧ IsBack barcode driveId (sceneOf s') →
          wp (loadsNoted sha256) compensating
            (if false = true ∧ record.status = .failed then
              raise
                { cls := .tapeOperationFailed
                  message := record.error.getD ("Tape " ++
                    (unloadRequest "archive-job" jobId barcode driveId slotId).opType.value ++ " operation failed") }
            else pure record : JobM L TapeOpRecord)
            (fun _ l' s' => l' = l ∧ IsBack barcode driveId (sceneOf s'))
            (fun _ l' s' => l' = l ∧ IsBack barcode driveId (sceneOf s')) l' s' := by
        intro record l' s' h'
        rw [if_neg (fun h => Bool.false_ne_true h.1)]
        exact h'
      have hfailed : ∀ exc, Reads (fun o => World.sparesTapes o = true)
          (recordFailedOp row.opId (unloadRequest "archive-job" jobId barcode driveId slotId).opType exc : JobM L TapeOpRecord) := by
        intro exc
        refine only_bind (only_perform rfl) fun row => only_bind (hassert row) fun record => ?_
        exact only_ite (fun _ => only_raise _) fun _ => only_pure _
      rw [wp_handle, wp_bind]
      refine wp_mono (wp_dispatchUnload sha256 h₂) ?_ ?_
      · intro payload l₃ s₃ h₃
        obtain ⟨rfl, h₃⟩ := h₃
        refine wp_mono (hafter (only_bind (only_perform rfl) hassert) h₃) hend ?_
        intro exc l₄ s₄ h₄
        obtain ⟨rfl, h₄⟩ := h₄
        exact wp_mono (hafter (hfailed exc) h₄) hend (fun _ _ _ h => h)
      · intro exc l₃ s₃ h₃
        obtain ⟨rfl, h₃⟩ := h₃
        exact wp_mono (hafter (hfailed exc) h₃) hend (fun _ _ _ h => h)
    · have hans' : (s₁.1.exec sha256 (.catalog (.updateTapeOp row.opId .running)) c).1 = .error e := hans
      rw [hans'] at hrunning
      exact hscene₁.symm ▸ h₁.isBack (by simpa [answered] using hrunning)
  · have hans' : (s.1.exec sha256 (.catalog (.createTapeOp (unloadRequest "archive-job" jobId barcode driveId slotId))) c).1 =
        .error e := hans
    rw [hans'] at hcreate
    have hempty : s.1.library.holds driveId = none := by simpa [answered, hasNothingToUnload, unloadRequest] using hcreate
    exact hscene.symm ▸ h.idle_of_empty hempty

/-- Putting back the current tape, whose barcode was good enough for a request before. -/
theorem wp_putBack {l : L} (hnamed : slot.isSome = true → barcode.toList.all isSpace = false)
    (h : (sceneOf s).Held barcode driveId slot fun _ => False) :
    wp (loadsNoted sha256) compensating (putBack jobId barcode driveId slot : JobM L Unit)
      (fun _ l' s' => l' = l ∧ (sceneOf s').Held barcode driveId slot (fun _ => False) ∧ (sceneOf s').Idle)
      (fun _ l' s' => l' = l ∧ (sceneOf s').Held barcode driveId slot (fun _ => False) ∧ (sceneOf s').Idle) l s := by
  cases slot with
  | none => exact ⟨rfl, h, h.idle_of_none⟩
  | some slotId =>
    have hvalid : validateRequest (unloadRequest "archive-job" jobId barcode driveId slotId) = .ok () := by
      simp [validateRequest, unloadRequest, hnamed rfl]
    unfold putBack
    rw [wp_bind]
    refine wp_mono (wp_unloadRequestHeld sha256 hvalid h) ?_ ?_
    · exact fun _ l' s' h => ⟨h.1, .of_idle h.2.1 (.inr h.2.2), h.2.1⟩
    · exact fun _ l' s' h => ⟨h.1, .of_idle h.2.1 (.inr h.2.2), h.2.1⟩

/-- A LOAD request that is to raise: whatever it does, the cartridge is in its slot or in the drive, and the request was valid if it
returns. -/
theorem wp_loadRequest {l : L} (hidle : (sceneOf s).Idle) (hslot : (sceneOf s).contents (.slot slotId) = some barcode)
    (hnone : ∀ d, (sceneOf s).contents (.drive d) ≠ some barcode) :
    wp (loadsNoted sha256) compensating
      (executeTapeRequest (loadRequest "archive-job" jobId barcode driveId slotId) true : JobM L TapeOpRecord)
      (fun _ l' s' => l' = l ∧ barcode.toList.all isSpace = false ∧ (sceneOf s').Between barcode driveId (some slotId))
      (fun _ l' s' => l' = l ∧ (sceneOf s').Ended) l s := by
  cases hblank : barcode.toList.all isSpace with
  | true =>
    have hinvalid : validateRequest (loadRequest "archive-job" jobId barcode driveId slotId) =
        .error (valueError "barcode must be non-empty") := by
      simp [validateRequest, loadRequest, hblank]
    unfold executeTapeRequest executeTapeOp
    rw [hinvalid]
    exact ⟨rfl, hidle.ended⟩
  | false =>
    have hmove : (loadRequest "archive-job" jobId barcode driveId slotId).opType ≠ .move := nofun
    have hrows : ∀ {J : Scene → Prop}, Stable (loadsNoted sha256) compensating
        (fun o => o.isRowOf (loadRequest "archive-job" jobId barcode driveId slotId) = true) fun s => J (sceneOf s) := by
      intro J o ho
      refine stable_spares sha256 o ?_
      cases o <;> rename_i o <;> cases o <;> first | rfl | cases ho
    have hdispatch : ∀ s₁, sceneOf s₁ = sceneOf s →
        wp (loadsNoted sha256) compensating (dispatch (loadRequest "archive-job" jobId barcode driveId slotId) : JobM L JsonObject)
          (fun _ l' s' => l' = l ∧ (sceneOf s').Between barcode driveId (some slotId))
          (fun _ l' s' => l' = l ∧ (sceneOf s').Between barcode driveId (some slotId)) l s₁ := by
      intro s₁ h₁
      refine wp_dispatch_load rfl rfl ?_
      exact wp_loadTaken sha256 (h₁ ▸ hidle) (h₁ ▸ hslot) (h₁ ▸ hnone)
    refine wp_mono (wp_executeTapeRequest_ends (I := fun s₁ => sceneOf s₁ = sceneOf s) true hmove (hrows (J := (· = sceneOf s)))
      (hrows (J := fun v => v.Between barcode driveId (some slotId))) rfl hdispatch) ?_ ?_
    · exact fun _ l' s' h => ⟨h.1, rfl, h.2⟩
    · exact fun _ l' s' h => ⟨h.1, h.2.elim (fun h => h ▸ hidle.ended) Scene.Between.ended⟩

/-! ### The current tape -/

/-- The job knows of no tape that is mounted. -/
def OffTape (l : ArchiveLocals) : Prop := l.currentHandle = none ∧ l.currentBarcode = none

/-- The job holds a lease. -/
def Leased (l : ArchiveLocals) : Prop := ∃ lease, l.currentLease = some lease ∧ lease.released = false

/-- The job knows the tape that is mounted, and what it takes to put it back. -/
structure Current (l : ArchiveLocals) (barcode : Barcode) (driveId : Int) (mountHandle : MountHandle) : Prop where
  mount : l.currentHandle = some mountHandle
  tape : l.currentBarcode = some barcode
  drive : l.currentDriveId = some driveId
  leased : Leased l
  named : l.currentSlotId.isSome = true → barcode.toList.all isSpace = false

/-- A tape is mounted, or is to be put back. -/
def OnTape (l : ArchiveLocals) (v : Scene) : Prop :=
  ∃ barcode driveId mountHandle, Current l barcode driveId mountHandle ∧
    v.Held barcode driveId l.currentSlotId (· = mountHandle)

/-- Before a file. -/
def Ready (l : ArchiveLocals) (v : Scene) : Prop := OnTape l v ∨ OffTape l ∧ v.Idle

/-- After a failure: the cleanup will put the tape back, or nothing is left to do for it. -/
def Failed (e : Exn) (l : ArchiveLocals) (v : Scene) : Prop :=
  World.NotStale e ∧ OnTape l v ∨ (OffTape l ∨ e.cls = .staleLease) ∧ v.Ended

/-- `acquire_drives` for one tape. -/
theorem wp_acquireTape {l : L} (scheduler : DriveScheduler) (h : v.Idle) (hs : sceneOf s = v) :
    wp (loadsNoted sha256) compensating (acquireDrives scheduler [barcode] : JobM L (List DriveHandle))
      (fun handles l' s' => l' = l ∧ sceneOf s' = v ∧ ∀ lane ∈ handles, lane.barcode = barcode ∧ lane.released = false)
      (fun _ l' s' => l' = l ∧ sceneOf s' = v) l s := by
  have hlook := stable_looks sha256 h
  refine wp_mono (wp_acquireDrives (J := fun s => sceneOf s = v) (E := fun _ l' s' => l' = l ∧ sceneOf s' = v)
    (Q := fun leases s' => sceneOf s' = v ∧ leases.map DriveLease.barcode = [barcode])
    hlook (learns_nothing hlook) hs (fun _ _ h => ⟨rfl, h⟩) fun pending s' _ hs' => ?_) ?_ (fun _ _ _ h => h)
  · refine wp_call fun s₁ hr c _ => ?_
    have hs₁ : s' = s₁ := hr
    subst hs₁
    have hscene := (scene_spares sha256 (s := s') (c := c)
      (o := .lease (.acquire scheduler.jobId [barcode] scheduler.numDrives scheduler.ttl (excludedDrives scheduler pending))) rfl).trans hs'
    refine ⟨trivial, fun leases hans => ⟨rfl, ?_⟩, fun _ _ => ⟨rfl, hscene⟩⟩
    cases leases with
    | none => exact hscene
    | some leases => exact ⟨hscene, (World.exec_acquire_some sha256 hans).barcodes⟩
  · intro handles l' s' h'
    obtain ⟨hl, -, leases, rfl, hscene, hbarcodes⟩ := h'
    refine ⟨hl, hscene, fun lane hlane => ?_⟩
    obtain ⟨lease, hmem, rfl⟩ := List.mem_map.1 hlane
    have hb : lease.barcode ∈ [barcode] := hbarcodes ▸ List.mem_map_of_mem hmem
    exact ⟨List.mem_singleton.1 hb, rfl⟩

/-- `_load_if_needed` of the archive job. -/
theorem wp_archiveLoadIfNeeded {l : ArchiveLocals} {lane : DriveHandle} (h : (sceneOf s).Idle) (hoff : OffTape l) (hleased : Leased l) :
    wp (loadsNoted sha256) compensating (archiveLoadIfNeeded jobId lane)
      (fun taken l' s' => OffTape l' ∧ Leased l' ∧ (taken.2.isSome = true → lane.barcode.toList.all isSpace = false) ∧
        (sceneOf s').Between lane.barcode taken.1 taken.2)
      (fun _ l' s' => OffTape l' ∧ (sceneOf s').Ended) l s := by
  unfold archiveLoadIfNeeded
  rw [wp_bind]
  refine wp_mono (wp_findDrive sha256 rfl) ?_ (fun _ l' s' h' => ⟨h'.1 ▸ hoff, h'.2 ▸ h.ended⟩)
  intro found l' s₁ h₁
  obtain ⟨rfl, hscene₁, hnone⟩ := h₁
  cases found with
  | some driveId =>
    have hbetween : (sceneOf s₁).Between lane.barcode driveId none := hscene₁ ▸ .inl ⟨h, .inl rfl⟩
    simp only
    split
    · obtain ⟨lease, hlease, hrel⟩ := hleased
      refine ⟨hoff, ⟨{ lease with physicalDriveId := some driveId }, ?_, hrel⟩, (fun h => nomatch h), hbetween⟩
      show l'.currentLease.map _ = _
      rw [hlease]
      rfl
    · exact ⟨hoff, hleased, (fun h => nomatch h), hbetween⟩
  | none =>
    rw [wp_bind]
    refine wp_mono (wp_findSlot sha256 hscene₁) ?_ (fun _ l' s' h' => ⟨h'.1 ▸ hoff, h'.2 ▸ h.ended⟩)
    intro found l'' s₂ h₂
    obtain ⟨rfl, hscene₂, hslot⟩ := h₂
    cases found with
    | none => exact ⟨hoff, hscene₂ ▸ h.ended⟩
    | some slotId =>
      rw [wp_bind, wp_handle, wp_bind]
      refine wp_mono (wp_loadRequest sha256 (hscene₂ ▸ h) (hscene₂ ▸ hslot slotId rfl) (hscene₂ ▸ hnone rfl)) ?_ ?_
      · intro _ l₃ s₃ h₃
        obtain ⟨rfl, hnamed, hbetween⟩ := h₃
        exact ⟨hoff, hleased, fun _ => hnamed, hbetween⟩
      · intro exc l₃ s₃ h₃
        obtain ⟨rfl, hended⟩ := h₃
        split
        · exact ⟨hoff, hended⟩
        · exact ⟨hoff, hended⟩

/-- Taking the next tape. -/
theorem wp_takeTape {l : ArchiveLocals} (scheduler : DriveScheduler) (h : (sceneOf s).Idle) (hoff : OffTape l) :
    wp (loadsNoted sha256) compensating (takeTape scheduler jobId barcode)
      (fun _ l' s' => OnTape l' (sceneOf s')) (fun _ l' s' => OffTape l' ∧ (sceneOf s').Ended) l s := by
  have hspares : ∀ {α : Type} {m : JobM ArchiveLocals α} {l : ArchiveLocals} {s : World × LoadMonitor} {P : Scene → Prop}
      {N : α → ArchiveLocals → World × LoadMonitor → Prop}, Reads (fun o => World.sparesTapes o = true) m → OffTape l → P (sceneOf s) →
      (∀ v, P v → v.Ended) → (∀ a s', P (sceneOf s') → N a l s') →
      wp (loadsNoted sha256) compensating m N (fun _ l' s' => OffTape l' ∧ (sceneOf s').Ended) l s := by
    intro α m l s P N hm hoff hP hended hN
    refine wp_mono (wp_spares sha256 hm P hP) ?_ ?_
    · rintro a l' s' ⟨rfl, h'⟩
      exact hN a s' h'
    · rintro e l' s' ⟨rfl, h'⟩
      exact ⟨hoff, hended _ h'⟩
  unfold takeTape
  rw [wp_bind]
  refine wp_mono (wp_acquireTape sha256 scheduler h rfl) ?_ (fun _ l' s' h' => ⟨h'.1 ▸ hoff, h'.2 ▸ h.ended⟩)
  intro handles l₁ s₁ h₁
  obtain ⟨rfl, hscene₁, hlanes⟩ := h₁
  cases handles with
  | nil =>
    rw [wp_bind]
    exact ⟨hoff, hscene₁ ▸ h.ended⟩
  | cons lane rest =>
    obtain ⟨rfl, hrel⟩ := hlanes lane List.mem_cons_self
    rw [wp_bind]
    unfold firstHandle
    rw [wp_pure, wp_bind, wp_assign, wp_bind]
    have hleased : Leased { l₁ with currentLease := some lane } := ⟨lane, rfl, hrel⟩
    refine hspares (only_perform rfl) (show OffTape { l₁ with currentLease := some lane } from hoff) (hscene₁ ▸ h) (fun _ h => h.ended)
      fun _ s₂ h₂ => ?_
    rw [wp_bind]
    refine wp_mono (wp_archiveLoadIfNeeded sha256 h₂ hoff hleased) ?_ (fun _ _ _ h => h)
    intro taken l₃ s₃ h₃
    obtain ⟨hoff₃, ⟨lease, hlease, hrel⟩, hnamed, hbetween⟩ := h₃
    rw [wp_bind, wp_assign, wp_bind, wp_locals]
    simp only [hlease]
    unfold requireLease
    rw [wp_bind, wp_pure, wp_bind]
    refine hspares (P := fun v => v.Between lane.barcode taken.1 taken.2) (reads_recordPhysicalDrives (fun _ _ => rfl) [lease])
      (by exact hoff₃) hbetween (fun _ h => h.ended) fun _ s₄ h₄ => ?_
    rw [wp_bind]
    refine hspares (P := fun v => v.Between lane.barcode taken.1 taken.2) (only_perform rfl) (by exact hoff₃) h₄ (fun _ h => h.ended)
      fun _ s₅ h₅ => ?_
    rw [wp_bind]
    refine wp_mono (wp_verify sha256 hrel h₅.accounted rfl) ?_ ?_
    · rintro _ l₆ s₆ ⟨rfl, hscene₆⟩
      rw [wp_bind]
      refine wp_mono (wp_mountTaken sha256 (hscene₆ ▸ h₅)) ?_ ?_
      · rintro mountHandle l₇ s₇ ⟨rfl, hheld, -⟩
        exact ⟨_, _, mountHandle, ⟨rfl, rfl, rfl, ⟨lease, rfl, hrel⟩, hnamed⟩, hheld⟩
      · rintro e l₇ s₇ ⟨rfl, hended⟩
        exact ⟨hoff₃, hended⟩
    · rintro e l₆ s₆ ⟨rfl, ⟨-, hscene₆⟩ | ⟨-, hended⟩⟩
      · exact ⟨hoff₃, hscene₆ ▸ h₅.ended⟩
      · exact ⟨hoff₃, hended⟩

/-! ### Failures -/

/-- No call raises `StaleLeaseError`, so a procedure raises it only where it says so. -/
theorem wp_notStale {α : Type} {m : JobM L α} {N : α → L → World × LoadMonitor → Prop} {E : Exn → L → World × LoadMonitor → Prop} {l : L}
    (hm : Raises World.NotStale m) (hw : wp (loadsNoted sha256) compensating m N E l s) :
    wp (loadsNoted sha256) compensating m N (fun e l' s' => World.NotStale e ∧ E e l' s') l s :=
  hm.wp_and (fun _ _ _ _ h => World.exec_notStale sha256 h) hw

theorem raises_validateRequest (request : TapeOpRequest) : Raises World.NotStale (ofExcept (validateRequest request) : JobM L Unit) := by
  refine raises_ofExcept fun e he => ?_
  unfold validateRequest at he
  repeat' split at he
  all_goals cases he <;> nofun

theorem raises_assertPersisted (row : Option TapeOpRecord) : Raises World.NotStale (assertPersisted row : JobM L TapeOpRecord) := by
  cases row with
  | none => exact raises_raise nofun
  | some row => exact raises_pure row

theorem raises_putBack (jobId : JobId) (barcode : Barcode) (driveId : Int) (slot : Option Nat) :
    Raises World.NotStale (putBack jobId barcode driveId slot : JobM L Unit) := by
  cases slot with
  | none => exact raises_pure ()
  | some slotId =>
    have hdispatch : Raises World.NotStale
        (dispatch (unloadRequest "archive-job" jobId barcode driveId slotId) : JobM L JsonObject) := by
      refine raises_bind (raises_pure _) fun drive => ?_
      cases drive with
      | none => exact raises_raise nofun
      | some d =>
        refine raises_bind (raises_pure _) fun slot => raises_bind ?_ fun _ => raises_bind (raises_perform _) fun _ => raises_pure _
        refine raises_bind (raises_perform _) fun leases => ?_
        split
        · exact raises_pure ()
        · exact raises_raise nofun
    have hfailed : ∀ id exc, World.NotStale exc → Raises World.NotStale
        (recordFailedOp id (unloadRequest "archive-job" jobId barcode driveId slotId).opType exc : JobM L TapeOpRecord) := by
      intro id exc hexc
      refine raises_bind (raises_perform _) fun row => raises_bind (raises_assertPersisted row) fun record => ?_
      exact raises_ite (fun _ => raises_raise hexc) fun _ => raises_pure _
    refine raises_bind (raises_bind ?_ fun record => raises_ite (fun _ => raises_raise nofun) fun _ => raises_pure _) fun _ => raises_pure ()
    refine raises_bind (raises_validateRequest _) fun _ => raises_bind (raises_pure ()) fun _ => ?_
    refine raises_bind (raises_perform _) fun row => raises_bind (raises_perform _) fun _ => raises_handle ?_ (hfailed row.opId)
    exact raises_bind hdispatch fun _ => raises_bind (raises_perform _) raises_assertPersisted

/-- What the job knows of the current tape stays as it is. -/
structure SameTape (l l' : ArchiveLocals) : Prop where
  lease : l'.currentLease = l.currentLease
  mount : l'.currentHandle = l.currentHandle
  tape : l'.currentBarcode = l.currentBarcode
  slot : l'.currentSlotId = l.currentSlotId
  drive : l'.currentDriveId = l.currentDriveId

instance : IsPreorder ArchiveLocals SameTape where
  refl _ := ⟨rfl, rfl, rfl, rfl, rfl⟩
  trans _ _ _ h h' := ⟨h'.lease.trans h.lease, h'.mount.trans h.mount, h'.tape.trans h.tape, h'.slot.trans h.slot, h'.drive.trans h.drive⟩

theorem SameTape.onTape {l l' : ArchiveLocals} (hl : SameTape l l') (h : OnTape l v) : OnTape l' v := by
  obtain ⟨barcode, driveId, mountHandle, ⟨hm, ht, hd, ⟨lease, hlease, hrel⟩, hn⟩, hheld⟩ := h
  refine ⟨barcode, driveId, mountHandle, ⟨hl.mount.trans hm, hl.tape.trans ht, hl.drive.trans hd, ⟨lease, hl.lease.trans hlease, hrel⟩, ?_⟩, ?_⟩
  · rw [hl.slot]
    exact hn
  · rw [hl.slot]
    exact hheld

theorem SameTape.ready {l l' : ArchiveLocals} (hl : SameTape l l') (h : Ready l v) : Ready l' v :=
  h.imp hl.onTape fun h => ⟨⟨hl.mount.trans h.1.1, hl.tape.trans h.1.2⟩, h.2⟩

theorem Ready.failed {l : ArchiveLocals} {e : Exn} (h : Ready l v) (he : World.NotStale e) : Failed e l v :=
  h.imp (fun h => ⟨he, h⟩) fun h => ⟨.inl h.1, h.2.ended⟩

/-- Work on the files of the current tape. -/
theorem wp_work {α : Type} {m : JobM ArchiveLocals α} {N : α → ArchiveLocals → World × LoadMonitor → Prop} {l : ArchiveLocals}
    (hm : Only (fun o => World.sparesTapes o = true) SameTape m) (hr : Raises World.NotStale m) (h : Ready l (sceneOf s))
    (hN : ∀ a l' s', SameTape l l' → Ready l' (sceneOf s') → N a l' s') :
    wp (loadsNoted sha256) compensating m N (fun e l' s' => Failed e l' (sceneOf s')) l s := by
  refine wp_mono (wp_notStale sha256 hr (wp_spares sha256 hm (Ready l) h)) ?_ ?_
  · exact fun a l' s' h' => hN a l' s' h'.1 (h'.1.ready h'.2)
  · exact fun e l' s' h' => (h'.2.1.ready h'.2.2).failed h'.1

/-! ### The files -/

/-- A call that raises leaves the tape that is mounted to the cleanup. -/
theorem wp_onTape {α : Type} {m : JobM ArchiveLocals α} {N : α → ArchiveLocals → World × LoadMonitor → Prop} {l : ArchiveLocals}
    {P : Scene → Prop} (hm : Reads (fun o => World.sparesTapes o = true) m) (hr : Raises World.NotStale m) (h : P (sceneOf s))
    (hon : ∀ v, P v → OnTape l v) (hN : ∀ a s', P (sceneOf s') → N a l s') :
    wp (loadsNoted sha256) compensating m N (fun e l' s' => Failed e l' (sceneOf s')) l s := by
  refine wp_mono (wp_notStale sha256 hr (wp_spares sha256 hm P h)) ?_ ?_
  · rintro a l' s' ⟨rfl, h'⟩
    exact hN a s' h'
  · rintro e l' s' ⟨he, rfl, h'⟩
    exact .inl ⟨he, hon _ h'⟩

/-- A lease that is found gone leaves the tape alone. -/
theorem wp_verifyOnTape {l : ArchiveLocals} {lease : DriveHandle} {N : Unit → ArchiveLocals → World × LoadMonitor → Prop} {P : Scene → Prop}
    (hrel : lease.released = false) (h : P (sceneOf s)) (hon : ∀ v, P v → OnTape l v) (hN : ∀ s', P (sceneOf s') → N () l s') :
    wp (loadsNoted sha256) compensating (verifyHandle lease : JobM ArchiveLocals Unit) N (fun e l' s' => Failed e l' (sceneOf s')) l s := by
  obtain ⟨_, _, _, -, hheld⟩ := hon _ h
  refine wp_mono (wp_verify sha256 hrel hheld.accounted rfl) ?_ ?_
  · rintro _ l' s' ⟨rfl, hscene⟩
    exact hN s' (hscene ▸ h)
  · rintro e l' s' ⟨rfl, ⟨he, hscene⟩ | ⟨he, hended⟩⟩
    · exact .inl ⟨he, hscene ▸ hon _ h⟩
    · exact .inr ⟨.inr he, hended⟩

/-- Where no tape is mounted, none will be. -/
def StaysOff (l l' : ArchiveLocals) : Prop := OffTape l → OffTape l'

instance : IsPreorder ArchiveLocals StaysOff where
  refl _ h := h
  trans _ _ _ h h' hoff := h' (h hoff)

theorem spares_releaseCurrentLease (jobId : JobId) (original : Option Exn) :
    Only (fun o => World.sparesTapes o = true) StaysOff (releaseCurrentLease jobId original) := by
  refine only_bind only_locals fun l => ?_
  cases l.currentLease with
  | none => exact only_pure ()
  | some lease =>
    have hrelease : Reads (fun o => World.sparesTapes o = true) (releaseDrives [lease] original : JobM ArchiveLocals Unit) :=
      reads_releaseDrives (fun _ => rfl) [lease] original
    refine only_bind (only_assign fun l h => h) fun _ => only_bind ?_ fun _ => only_perform rfl
    exact hrelease.mono (fun _ h => h) fun l l' (hl : l = l') => hl ▸ id

/-- When the current tape is finalized, nothing is left in a drive. -/
theorem wp_finalizeCurrentMount {l : ArchiveLocals} (vgId : Nat) (h : Ready l (sceneOf s)) :
    wp (loadsNoted sha256) compensating (finalizeCurrentMount jobId vgId)
      (fun _ l' s' => OffTape l' ∧ (sceneOf s').Idle) (fun e l' s' => Failed e l' (sceneOf s')) l s := by
  unfold finalizeCurrentMount
  rw [wp_bind, wp_locals]
  rcases h with ⟨barcode, driveId, mountHandle, hcur, hheld⟩ | ⟨hoff, hidle⟩
  · obtain ⟨lease, hlease, hrel⟩ := hcur.leased
    simp only [hcur.mount, hcur.tape, hcur.drive, hlease]
    unfold requireLease
    rw [wp_bind, wp_pure, wp_bind]
    have hon : ∀ v, v.Held barcode driveId l.currentSlotId (· = mountHandle) → OnTape l v := fun v h => ⟨_, _, _, hcur, h⟩
    refine wp_verifyOnTape sha256 hrel hheld hon fun s₁ h₁ => ?_
    rw [wp_bind]
    have hunmount := wp_notStale sha256 (raises_perform _) (wp_unmountHeld sha256 (l := l) h₁)
    refine wp_mono hunmount ?_ ?_
    · rintro _ l₂ s₂ ⟨rfl, h₂⟩
      have hout : ∀ v, v.Held barcode driveId l₂.currentSlotId (fun _ => False) → OnTape l₂ v := fun v h => hon v (h.mono nofun)
      have hmark : ∀ id, Reads (fun o => World.sparesTapes o = true) (markInstanceArchived id true : JobM ArchiveLocals Unit) :=
        fun id => only_perform rfl
      rw [wp_bind]
      refine wp_onTape sha256 (P := fun v => v.Held barcode driveId l₂.currentSlotId fun _ => False) (only_forEach hmark _)
        (raises_forEach (fun id => raises_perform _) _) h₂ hout fun _ s₃ h₃ => ?_
      rw [wp_bind, wp_assign, wp_bind]
      have hcur₄ : Current { l₂ with pendingInstanceIds := [] } barcode driveId mountHandle :=
        ⟨hcur.mount, hcur.tape, hcur.drive, ⟨lease, hlease, hrel⟩, hcur.named⟩
      have hout₄ : ∀ v, v.Held barcode driveId l₂.currentSlotId (fun _ => False) → OnTape { l₂ with pendingInstanceIds := [] } v :=
        fun v h => ⟨_, _, _, hcur₄, h.mono nofun⟩
      refine wp_verifyOnTape sha256 (P := fun v => v.Held barcode driveId l₂.currentSlotId fun _ => False) hrel h₃ hout₄ fun s₄ h₄ => ?_
      rw [wp_bind]
      refine wp_mono (wp_notStale sha256 (raises_putBack jobId barcode driveId _) (wp_putBack sha256 hcur.named h₄)) ?_ ?_
      · rintro _ l₅ s₅ ⟨rfl, h₅⟩
        have hback : ∀ v, v.Held barcode driveId l₂.currentSlotId (fun _ => False) ∧ v.Idle →
            OnTape { l₂ with pendingInstanceIds := [] } v := fun v h => hout₄ v h.1
        rw [wp_bind]
        refine wp_onTape sha256 (only_perform rfl) (raises_perform _) h₅ hback fun _ s₆ h₆ => ?_
        rw [wp_bind]
        refine wp_onTape sha256 (only_perform rfl) (raises_perform _) h₆ hback fun cartridge s₇ h₇ => ?_
        rw [wp_bind]
        refine wp_onTape sha256 (only_perform rfl) (raises_perform _) h₇ hback fun tape s₈ h₈ => ?_
        rw [wp_bind]
        refine wp_onTape sha256 (only_perform rfl) (raises_perform _) h₈ hback fun _ s₉ h₉ => ?_
        rw [wp_bind, wp_assign]
        refine wp_mono (wp_spares sha256 (spares_releaseCurrentLease jobId none) Scene.Idle h₉.2) ?_ ?_
        · exact fun _ l' s' h => ⟨h.1 ⟨rfl, rfl⟩, h.2⟩
        · exact fun e l' s' h => .inr ⟨.inl (h.1 ⟨rfl, rfl⟩), h.2.ended⟩
      · rintro e l₅ s₅ ⟨he, rfl, h₅, -⟩
        exact .inl ⟨he, hout₄ _ h₅⟩
    · rintro e l₂ s₂ ⟨he, rfl, h₂, -⟩
      exact .inl ⟨he, hon _ (h₂.mono nofun)⟩
  · simp only [hoff.1]
    exact ⟨hoff, hidle⟩

/-! ### The job -/

theorem raises_chooseTape (vgId sizeBytes : Nat) : Raises World.NotStale (chooseTape vgId sizeBytes : JobM L Barcode) := by
  have hroom : ∀ barcode, Raises World.NotStale (tapeHasRoom barcode sizeBytes : JobM L Bool) :=
    fun barcode => raises_bind (raises_perform _) fun _ => raises_pure _
  have hassigned : ∀ cartridges, Raises World.NotStale (chooseAssigned sizeBytes cartridges : JobM L (Option Barcode)) := by
    intro cartridges
    induction cartridges with
    | nil => exact raises_pure none
    | cons cartridge cartridges ih =>
      refine raises_ite (fun _ => ih) fun _ => raises_bind (hroom _) fun room => ?_
      exact raises_ite (fun _ => raises_pure _) fun _ => ih
  have hscratch : ∀ barcodes, Raises World.NotStale (chooseScratch vgId sizeBytes barcodes : JobM L (Option Barcode)) := by
    intro barcodes
    induction barcodes with
    | nil => exact raises_pure none
    | cons barcode barcodes ih =>
      refine raises_ite (fun _ => ih) fun _ => raises_bind (raises_perform _) fun cartridge => raises_ite (fun _ => ih) fun _ => ?_
      refine raises_bind (hroom _) fun room => raises_ite (fun _ => ?_) fun _ => ih
      exact raises_bind (raises_perform _) fun _ => raises_pure _
  refine raises_bind (raises_perform _) fun cartridges => raises_bind (hassigned _) fun chosen => ?_
  cases chosen with
  | some barcode => exact raises_pure barcode
  | none =>
    refine raises_bind (raises_perform _) fun inv => raises_bind (hscratch _) fun chosen => ?_
    cases chosen with
    | some barcode => exact raises_pure barcode
    | none => exact raises_raise nofun

theorem spares_chooseTape (vgId sizeBytes : Nat) :
    Reads (fun o => World.sparesTapes o = true) (chooseTape vgId sizeBytes : JobM L Barcode) := by
  have hroom : ∀ barcode, Reads (fun o => World.sparesTapes o = true) (tapeHasRoom barcode sizeBytes : JobM L Bool) :=
    fun barcode => only_bind (only_perform rfl) fun _ => only_pure _
  have hassigned : ∀ cartridges, Reads (fun o => World.sparesTapes o = true)
      (chooseAssigned sizeBytes cartridges : JobM L (Option Barcode)) := by
    intro cartridges
    induction cartridges with
    | nil => exact only_pure none
    | cons cartridge cartridges ih =>
      refine only_ite (fun _ => ih) fun _ => only_bind (hroom _) fun room => ?_
      exact only_ite (fun _ => only_pure _) fun _ => ih
  have hscratch : ∀ barcodes, Reads (fun o => World.sparesTapes o = true)
      (chooseScratch vgId sizeBytes barcodes : JobM L (Option Barcode)) := by
    intro barcodes
    induction barcodes with
    | nil => exact only_pure none
    | cons barcode barcodes ih =>
      refine only_ite (fun _ => ih) fun _ => only_bind (only_perform rfl) fun cartridge => only_ite (fun _ => ih) fun _ => ?_
      refine only_bind (hroom _) fun room => only_ite (fun _ => ?_) fun _ => ih
      exact only_bind (only_perform rfl) fun _ => only_pure _
  refine only_bind (only_perform rfl) fun cartridges => only_bind (hassigned _) fun chosen => ?_
  cases chosen with
  | some barcode => exact only_pure barcode
  | none =>
    refine only_bind (only_perform rfl) fun inv => only_bind (hscratch _) fun chosen => ?_
    cases chosen with
    | some barcode => exact only_pure barcode
    | none => exact only_raise _

theorem spares_writeArchived (vgId : Nat) (file : SourceFile) (catalogPath barcode checksum : String) (sizeBytes : Nat) :
    Only (fun o => World.sparesTapes o = true) SameTape
      (writeArchived sha256 vgId file catalogPath barcode checksum sizeBytes) := by
  refine only_bind only_locals fun l => only_bind ?_ fun mountHandle => ?_
  · cases l.currentHandle with
    | none => exact only_raise _
    | some mountHandle => exact only_pure mountHandle
  · refine only_bind (only_perform rfl) fun content => only_bind (only_perform rfl) fun _ => only_bind (only_perform rfl) fun record => ?_
    refine only_bind (only_perform rfl) fun row => only_bind (only_perform rfl) fun st => ?_
    exact only_ite (fun _ => only_raise _) fun _ => only_assign fun l => ⟨rfl, rfl, rfl, rfl, rfl⟩

theorem raises_writeArchived (vgId : Nat) (file : SourceFile) (catalogPath barcode checksum : String) (sizeBytes : Nat) :
    Raises World.NotStale (writeArchived sha256 vgId file catalogPath barcode checksum sizeBytes) := by
  refine raises_bind raises_locals fun l => raises_bind ?_ fun mountHandle => ?_
  · cases l.currentHandle with
    | none => exact raises_raise nofun
    | some mountHandle => exact raises_pure mountHandle
  · refine raises_bind (raises_perform _) fun content => raises_bind (raises_perform _) fun _ => raises_bind (raises_perform _) fun record => ?_
    refine raises_bind (raises_perform _) fun row => raises_bind (raises_perform _) fun st => ?_
    exact raises_ite (fun _ => raises_raise nofun) fun _ => raises_assign _

/-- One pass of the loop. -/
theorem wp_archiveFile {l : ArchiveLocals} (request : ArchiveRequest) (scheduler : DriveScheduler) (vgId : Nat) (file : SourceFile)
    (h : Ready l (sceneOf s)) :
    wp (loadsNoted sha256) compensating (archiveFile sha256 request scheduler vgId jobId file)
      (fun _ l' s' => Ready l' (sceneOf s')) (fun e l' s' => Failed e l' (sceneOf s')) l s := by
  have hpath : Raises World.NotStale (ofExcept (catalogPathOf request file) : JobM ArchiveLocals String) := by
    refine raises_ofExcept fun e he => ?_
    simp only [catalogPathOf] at he
    repeat' split at he
    all_goals cases he <;> nofun
  unfold archiveFile
  rw [wp_bind]
  refine wp_work sha256 (only_ofExcept _) hpath h fun catalogPath l₁ s₁ _ h₁ => ?_
  rw [wp_bind]
  refine wp_work sha256 (only_bind (only_perform rfl) fun _ => only_pure _) (raises_bind (raises_perform _) fun _ => raises_pure _) h₁
    fun checksum l₂ s₂ _ h₂ => ?_
  rw [wp_bind]
  refine wp_work sha256 (only_bind (only_perform rfl) fun _ => only_pure _) (raises_bind (raises_perform _) fun _ => raises_pure _) h₂
    fun sizeBytes l₃ s₃ _ h₃ => ?_
  rw [wp_bind]
  refine wp_work sha256 ((spares_chooseTape vgId sizeBytes).mono (fun _ h => h) fun l l' (hl : l = l') => hl ▸ refl_of SameTape l)
    (raises_chooseTape vgId sizeBytes) h₃ fun barcode l₄ s₄ _ h₄ => ?_
  have hwrite : ∀ l s, Ready l (sceneOf s) →
      wp (loadsNoted sha256) compensating (writeArchived sha256 vgId file catalogPath barcode checksum sizeBytes)
        (fun _ l' s' => Ready l' (sceneOf s')) (fun e l' s' => Failed e l' (sceneOf s')) l s :=
    fun l s h => wp_work sha256 (spares_writeArchived sha256 vgId file catalogPath barcode checksum sizeBytes)
      (raises_writeArchived sha256 vgId file catalogPath barcode checksum sizeBytes) h fun _ _ _ _ h => h
  rw [wp_bind, wp_locals]
  simp only
  split
  · rw [wp_bind]
    refine wp_mono (wp_finalizeCurrentMount sha256 vgId h₄) ?_ (fun _ _ _ h => h)
    rintro _ l₅ s₅ ⟨hoff, hidle⟩
    rw [wp_bind]
    refine wp_mono (wp_takeTape sha256 scheduler hidle hoff) ?_ ?_
    · exact fun _ l₆ s₆ h₆ => hwrite l₆ s₆ (.inl h₆)
    · exact fun e l₆ s₆ h₆ => .inr ⟨.inl h₆.1, h₆.2⟩
  · exact hwrite l₄ s₄ h₄

/-- The body of the job. -/
theorem wp_archiveBody {l : ArchiveLocals} (request : ArchiveRequest) (scheduler : DriveScheduler) (vgId : Nat)
    (h : Ready l (sceneOf s)) :
    wp (loadsNoted sha256) compensating (archiveBody sha256 request scheduler vgId jobId)
      (fun _ l' s' => OffTape l' ∧ (sceneOf s').Idle) (fun e l' s' => Failed e l' (sceneOf s')) l s := by
  unfold archiveBody
  rw [wp_bind]
  refine wp_forEach _ request.files (fun _ l s => Ready l (sceneOf s)) h ?_ ?_
  · exact fun _ file _ l s _ h => wp_archiveFile sha256 request scheduler vgId file h
  · exact fun l s h => wp_finalizeCurrentMount sha256 vgId h

/-- The cleanup after a failure. -/
theorem wp_archiveCleanup {l : ArchiveLocals} (h : OnTape l (sceneOf s) ∨ OffTape l ∧ (sceneOf s).Ended) :
    wp (loadsNoted sha256) compensating (archiveCleanup jobId)
      (fun _ _ s' => (sceneOf s').Ended) (fun _ _ s' => (sceneOf s').Ended) l s := by
  have haml : Reads (fun o => World.sparesTapes o = true) (handle amlState fun _ => pure () : JobM ArchiveLocals Unit) :=
    only_handle (only_perform rfl) fun _ => only_pure ()
  unfold archiveCleanup
  rw [wp_bind, wp_locals]
  rcases h with ⟨barcode, driveId, mountHandle, hcur, hheld⟩ | ⟨hoff, hended⟩
  · have hlast : ∀ l' s', (sceneOf s').Held barcode driveId l.currentSlotId (fun _ => False) →
        wp (loadsNoted sha256) compensating
          (do
            handle (putBack jobId barcode driveId l.currentSlotId) fun _ => pure ()
            handle amlState fun _ => pure () : JobM ArchiveLocals Unit)
          (fun _ _ s' => (sceneOf s').Ended) (fun _ _ s' => (sceneOf s').Ended) l' s' := by
      intro l' s' h'
      have hidle : ∀ l s, (sceneOf s).Idle → wp (loadsNoted sha256) compensating (handle amlState fun _ => pure () : JobM ArchiveLocals Unit)
          (fun _ _ s' => (sceneOf s').Ended) (fun _ _ s' => (sceneOf s').Ended) l s := by
        intro l s h
        exact wp_mono (wp_spares sha256 haml Scene.Idle h) (fun _ _ _ h => h.2.ended) (fun _ _ _ h => h.2.ended)
      rw [wp_bind, wp_handle]
      refine wp_mono (wp_putBack sha256 hcur.named h') ?_ ?_
      · exact fun _ l'' s'' h'' => hidle l'' s'' h''.2.2
      · exact fun _ l'' s'' h'' => hidle l'' s'' h''.2.2
    simp only [hcur.mount, hcur.tape, hcur.drive]
    rw [wp_bind, wp_handle, wp_bind]
    refine wp_mono (wp_unmountHeld sha256 hheld) ?_ ?_
    · exact fun _ l' s' h' => hlast l' s' h'.2
    · exact fun _ l' s' h' => hlast l' s' h'.2.1
  · simp only [hoff.1, hoff.2]
    exact hended

/-- The `except` clauses. -/
theorem wp_archiveExcept {l : ArchiveLocals} {exc : Exn} {N : Unit → ArchiveLocals → World × LoadMonitor → Prop}
    (h : Failed exc l (sceneOf s)) :
    wp (loadsNoted sha256) compensating (archiveExcept jobId exc) N (fun _ _ s' => (sceneOf s').Ended) l s := by
  have hfail : ∀ l s, (sceneOf s).Ended →
      wp (loadsNoted sha256) compensating
        (do
          updateJobState jobId "failed" (some (safeJobError exc))
          raise exc : JobM ArchiveLocals Unit)
        N (fun _ _ s' => (sceneOf s').Ended) l s := by
    intro l s h
    have hm : Reads (fun o => World.sparesTapes o = true)
        (updateJobState jobId "failed" (some (safeJobError exc)) : JobM ArchiveLocals Unit) := only_perform rfl
    rw [wp_bind]
    exact wp_mono (wp_spares sha256 hm Scene.Ended h) (fun _ _ _ h => h.2) (fun _ _ _ h => h.2)
  unfold archiveExcept
  by_cases hstale : exc.cls = .staleLease
  · simp only [hstale, if_true]
    rcases h with ⟨he, -⟩ | ⟨-, hended⟩
    · exact absurd hstale he
    · exact hfail l s hended
  · simp only [hstale, if_false]
    rw [wp_bind]
    refine wp_mono (wp_archiveCleanup sha256 ?_) (fun _ l' s' h' => hfail l' s' h') (fun _ _ _ h => h)
    exact h.imp And.right fun h => ⟨h.1.resolve_right hstale, h.2⟩

/-- The job ends with every tape it loaded put back, or it was noted why one is not. -/
theorem wp_runArchiveJob {l : ArchiveLocals} (request : ArchiveRequest) (scheduler : DriveScheduler) (hoff : OffTape l)
    (h : (sceneOf s).Idle) :
    wp (loadsNoted sha256) compensating (runArchiveJob sha256 request scheduler jobId)
      (fun _ _ s' => (sceneOf s').Ended) (fun _ _ s' => (sceneOf s').Ended) l s := by
  have hspares : ∀ {α : Type} {m : JobM ArchiveLocals α} {N : α → ArchiveLocals → World × LoadMonitor → Prop} {l s},
      Reads (fun o => World.sparesTapes o = true) m → (sceneOf s).Idle → (∀ a s', (sceneOf s').Idle → N a l s') →
      wp (loadsNoted sha256) compensating m N (fun _ _ s' => (sceneOf s').Ended) l s := by
    intro α m N l s hm h hN
    refine wp_mono (wp_spares sha256 hm Scene.Idle h) ?_ (fun _ _ _ h => h.2.ended)
    rintro a l' s' ⟨rfl, h'⟩
    exact hN a s' h'
  have hgroup : Reads (fun o => World.sparesTapes o = true) (ensureVolumeGroup request.volumeGroupName : JobM ArchiveLocals VolumeGroup) := by
    refine only_bind (only_perform rfl) fun group => ?_
    cases group with
    | none => exact only_perform rfl
    | some group => exact only_pure group
  have hsize : ∀ file, Reads (fun o => World.sparesTapes o = true) (sourceSize file : JobM ArchiveLocals Nat) :=
    fun file => only_bind (only_perform rfl) fun _ => only_pure _
  unfold runArchiveJob
  rw [wp_bind]
  refine hspares (only_perform rfl) h fun _ s₁ h₁ => ?_
  rw [wp_bind]
  refine hspares hgroup h₁ fun group s₂ h₂ => ?_
  split
  · rw [wp_bind]
    refine hspares (only_mapEach hsize _) h₂ fun sizes s₃ h₃ => ?_
    rw [wp_bind]
    exact hspares (only_perform rfl) h₃ fun _ _ h₄ => h₄.ended
  · have hrelease : ∀ original l s, (sceneOf s).Ended → wp (loadsNoted sha256) compensating (releaseCurrentLease jobId original)
        (fun _ _ s' => (sceneOf s').Ended) (fun _ _ s' => (sceneOf s').Ended) l s := by
      intro original l s h
      exact wp_mono (wp_spares sha256 (spares_releaseCurrentLease jobId original) Scene.Ended h) (fun _ _ _ h => h.2) (fun _ _ _ h => h.2)
    rw [wp_bind, wp_ensure, wp_handle]
    refine wp_mono (wp_archiveBody sha256 request scheduler group.id (.inr ⟨hoff, h₂⟩)) ?_ ?_
    · rintro _ l₃ s₃ ⟨-, h₃⟩
      refine wp_mono (hrelease none l₃ s₃ h₃.ended) ?_ (fun _ _ _ h => h)
      intro _ l₄ s₄ h₄
      have hstate : Reads (fun o => World.sparesTapes o = true) (updateJobState jobId "completed" none : JobM ArchiveLocals Unit) :=
        only_perform rfl
      rw [wp_bind, wp_locals, wp_bind]
      exact wp_mono (wp_spares sha256 hstate Scene.Ended h₄) (fun _ _ _ h => h.2) (fun _ _ _ h => h.2)
    · intro exc l₃ s₃ h₃
      exact wp_mono (wp_archiveExcept sha256 h₃) (fun _ _ _ h => h) fun e l₄ s₄ h₄ => hrelease (some e) l₄ s₄ h₄

/-! ### Every operation -/

theorem wp_loadingOperation (op : LoadingOperation) (h : (sceneOf s).Idle) :
    wp (loadsNoted sha256) compensating (op.run sha256) (fun _ _ s' => (sceneOf s').Ended) (fun _ _ s' => (sceneOf s').Ended) () s := by
  cases op with
  | archive request scheduler jobId =>
    unfold LoadingOperation.run
    rw [wp_scope, wp_bind]
    exact wp_runArchiveJob sha256 request scheduler ⟨rfl, rfl⟩ h
  | write request raiseOnFailed =>
    unfold LoadingOperation.run
    rw [wp_bind]
    exact wp_writeRequest sha256 { request with opType := .write } raiseOnFailed rfl h
  | ingest job assignment kept =>
    unfold LoadingOperation.run
    rw [wp_scope]
    exact wp_writeAssignment sha256 job assignment h

/-- Where an operation may end, what was noted tells whether every cartridge is back. -/
theorem Scene.Ended.allPutBack_iff (h : (sceneOf s).Ended) : AllPutBack s ↔ s.2.exposed = false ∧ s.2.fenced = false := by
  rcases h with ⟨hclear, hacc⟩ | ⟨x, hacc, hnot⟩
  · have hback : AllPutBack s := fun entry he => ⟨hacc.home entry he (by simp), hacc.empty entry he (by simp)⟩
    exact iff_of_true hback hclear
  · obtain ⟨hmem, hdrive, -⟩ := hacc.current x rfl
    exact iff_of_false (fun hback => (hback x hmem).1.unloaded x.2 hdrive) hnot

end CompensationAux

namespace CompensationExample

/-- A cartridge in its slot, and an empty drive. -/
def world : World := { library := { slots := [(1, some "A")], drives := [(0, {})] } }

def operation : LoadingOperation :=
  .write { opType := .write, barcode := "A", driveId := some 0, tapePath := some "a", content := some [1, 2] } true

def fault : Choice := { raises := some { name := "OSError", message := "Input/output error" } }

/-- The call of number `n` raises. -/
def failing (n : Nat) : List Choice := List.replicate n ({} : Choice) ++ [fault] ++ List.replicate 5 ({} : Choice)

end CompensationExample

end OpenBlade
