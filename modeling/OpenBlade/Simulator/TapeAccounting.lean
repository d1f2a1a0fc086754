import OpenBlade.Simulator.MockLtfs

/-!
# The room on the simulated tapes

`used_bytes` is kept by adding the size of each file written and taking off that of the file it replaces, after a look at the
capacity; so it is always the sum of the sizes. A write through a mount tells the library of the drive only when the file is on the
tape: where the library refuses, the write raises and the file stays.
-/

namespace OpenBlade

open Effects Stateful Simulation

namespace MockTapeContents

/-- The counter of a tape is the sum of the sizes of its files, and no more than its capacity. -/
structure Accounted (tape : MockTapeContents) : Prop where
  used : tape.usedBytes = (tape.files.map fun entry => entry.2.sizeBytes).sum
  fits : tape.usedBytes ≤ tape.capacityBytes

theorem accounted_blank (barcode : Barcode) (capacityBytes : Nat) :
    Accounted { barcode, capacityBytes } := ⟨rfl, by simp⟩

theorem accounted_erased (tape : MockTapeContents) : tape.erased.Accounted := ⟨rfl, by simp [erased]⟩

/-- A file that fits is accounted for. -/
theorem Accounted.store {tape : MockTapeContents} (h : tape.Accounted) (record : MockFileRecord)
    (hroom : tape.projectedUsedBytes record.tapePath record.sizeBytes ≤ tape.capacityBytes) :
    (tape.store record (tape.projectedUsedBytes record.tapePath record.sizeBytes)).Accounted where
  used := by
    have hsum := Dict.sum_set tape.nodupFiles record.tapePath record MockFileRecord.sizeBytes
    have hprevious : tape.previousSize record.tapePath =
        ((tape.files.get? record.tapePath).map MockFileRecord.sizeBytes).getD 0 := by
      unfold previousSize
      cases tape.files.get? record.tapePath <;> rfl
    simp only [MockTapeContents.store, projectedUsedBytes, hsum, hprevious, h.used]
  fits := hroom

theorem Accounted.written {tape : MockTapeContents} (h : tape.Accounted) (record : MockFileRecord)
    (hroom : tape.projectedUsedBytes record.tapePath record.sizeBytes ≤ tape.capacityBytes) :
    (tape.written record (tape.projectedUsedBytes record.tapePath record.sizeBytes)).Accounted :=
  ⟨(h.store record hroom).used, (h.store record hroom).fits⟩

end MockTapeContents

namespace Simulator

/-- Every tape is kept under its barcode, and accounted for. -/
def TapesKept (s : Simulator) : Prop :=
  ∀ barcode tape, s.ltfs.tapes.get? barcode = some tape → tape.barcode = barcode ∧ tape.Accounted

section keeps

variable {upper : String → String} {sha256 : Bytes → String} {s s' : Simulator}

theorem TapesKept.of_tapes (h : TapesKept s) (htapes : s'.ltfs.tapes = s.ltfs.tapes) : TapesKept s' :=
  fun barcode tape hget => h barcode tape (htapes ▸ hget)

theorem TapesKept.setTape (h : TapesKept s) (tape : MockTapeContents) (ha : tape.Accounted)
    (htapes : s'.ltfs.tapes = s.ltfs.tapes.set tape.barcode tape) : TapesKept s' := by
  intro b t hget
  rw [htapes, Dict.get?_set] at hget
  split at hget
  · rename_i hb
    rw [← Option.some.inj hget]
    exact ⟨hb, ha⟩
  · exact h b t hget

theorem TapesKept.ensured (h : TapesKept s) {barcode : Barcode} (hs : Ensured s barcode s') : TapesKept s' := by
  rcases hs with rfl | ⟨-, -, rfl⟩
  · exact h
  · exact h.setTape _ (MockTapeContents.accounted_blank barcode _) rfl

/-- A call of the library touches no tape. -/
theorem keeps_library {α : Type} (call : MockLibrary → Except Exn α × MockLibrary) :
    Keeps TapesKept (Simulation.library call) :=
  fun s h => (wp_within _ _ _).2 ⟨fun _ _ _ => h, fun _ _ _ => h⟩

theorem keeps_changeLtfs {f : MockLtfs → MockLtfs} (hf : ∀ ltfs, (f ltfs).tapes = ltfs.tapes) :
    Keeps TapesKept (changeLtfs f) :=
  keeps_change fun s h => h.of_tapes (hf s.ltfs)

theorem keeps_maybeRaise (faults : LtfsFaults) (faultType : InjectedFaultType) :
    Keeps TapesKept (maybeRaiseInjectedFault faults faultType) :=
  fun _ h => wp_maybeRaiseInjectedFault (fun _ => h) fun _ _ _ => h

/-- The tape that is given is one of those kept. -/
theorem wp_ensureTape_kept {faults : LtfsFaults} {text : String} (h : TapesKept s) :
    wp (ensureTape upper faults text)
      (fun tape s' => TapesKept s' ∧ s'.ltfs.tapes.get? tape.barcode = some tape ∧ tape.Accounted)
      (fun _ s' => TapesKept s') s := by
  refine wp_ensureTape upper (fun barcode tape s' _ hget hs' => ?_) fun _ => h
  have hs := h.ensured hs'
  obtain ⟨rfl, ha⟩ := hs barcode tape hget
  exact ⟨hs, hget, ha⟩

/-! ### The functions of the backend -/

theorem keeps_format (now : Int) (faults : LtfsFaults) (text : String) (confirmation : Option FormatConfirmation) :
    Keeps TapesKept (format upper now faults text confirmation) := by
  cases confirmation with
  | none => exact keeps_raise _
  | some confirmation =>
    refine keeps_bind (keeps_ofExcept _) fun _ s h => ?_
    rw [wp_bind]
    refine wp_mono (wp_ensureTape_kept h) (fun tape s₁ h₁ => ?_) fun _ _ h₁ => h₁
    rw [wp_bind, wp_changeLtfs]
    have h₂ : TapesKept { s₁ with
        ltfs := (s₁.ltfs.setTape tape.barcode tape.erased).keepMounts fun entry => entry.2.barcode ≠ tape.barcode } :=
      h₁.1.setTape _ tape.accounted_erased rfl
    refine keeps_bind (keeps_read _) (fun found => ?_) _ h₂
    refine keeps_bind (keeps_ofExcept _) fun found => ?_
    cases found with
    | none => exact keeps_pure _
    | some d => exact keeps_bind (keeps_library _) fun _ => keeps_pure _

theorem keeps_register (normalized barcode : Barcode) (d : Int) (mode : MountMode) :
    Keeps TapesKept (register normalized barcode d mode) := by
  refine keeps_bind (keeps_read _) fun _ => ?_
  exact keeps_bind (keeps_change fun s h => h.of_tapes rfl) fun _ => keeps_pure _

theorem keeps_mount (faults : LtfsFaults) (text : String) (mode : MountMode) :
    Keeps TapesKept (mount upper faults text mode) := by
  refine keeps_bind (keeps_ofExcept _) fun normalized => ?_
  refine keeps_bind (keeps_maybeRaise _ _) fun _ => ?_
  refine keeps_bind (keeps_maybeRaise _ _) fun _ => ?_
  split
  · exact keeps_raise _
  refine keeps_bind (keeps_read _) fun found => ?_
  refine keeps_bind (keeps_ofExcept _) fun found => ?_
  cases found with
  | none => exact keeps_raise _
  | some d =>
    intro s h
    dsimp only
    rw [wp_bind]
    refine wp_mono (wp_ensureTape_kept h) (fun tape s₁ h₁ => ?_) fun _ _ h₁ => h₁
    split
    · rw [wp_bind, wp_read]
      split
      · exact h₁.1
      · split
        · rw [wp_bind]
          unfold Simulation.library
          rw [wp_within]
          -- the library is told before the tape is marked
          refine ⟨fun _ lib _ => ?_, fun _ _ _ => h₁.1⟩
          rw [wp_bind, wp_changeLtfs]
          exact keeps_register _ _ _ _ _ (h₁.1.setTape { tape with mountState := targetState mode }
            ⟨h₁.2.2.used, h₁.2.2.fits⟩ rfl)
        · exact keeps_register _ _ _ _ _ h₁.1
    · exact h₁.1

theorem keeps_requireActiveMount (handle : MountHandle) : Keeps TapesKept (requireActiveMount handle) := by
  refine keeps_bind (keeps_read _) fun found => ?_
  cases found with
  | none => exact keeps_raise _
  | some mount =>
    dsimp only
    split
    · exact keeps_pure _
    · exact keeps_raise _

theorem keeps_unmount (faults : LtfsFaults) (handle : MountHandle) : Keeps TapesKept (unmount upper faults handle) := by
  refine keeps_bind (keeps_requireActiveMount _) fun ended => ?_
  refine keeps_bind (keeps_changeLtfs fun _ => rfl) fun _ s h => ?_
  rw [wp_bind]
  refine wp_mono (wp_ensureTape_kept h) (fun tape s₁ h₁ => ?_) fun _ _ h₁ => h₁
  rw [wp_bind, wp_read]
  dsimp only
  rw [wp_bind, wp_changeLtfs]
  refine keeps_bind (keeps_library _) (fun _ => keeps_pure _) _ ?_
  exact h₁.1.setTape { tape with mountState := stateAfterUnmount ended (s₁.ltfs.mountsOf tape.barcode) }
    ⟨h₁.2.2.used, h₁.2.2.fits⟩ rfl

/-- What a write through a mount puts on the tape. -/
def recordOf (sha256 : Bytes → String) (now : DateTime) (dest : String) (content : Bytes) (sizeBytes : Option Int)
    (checksumSha256 : Option String) : MockFileRecord :=
  { tapePath := dest, sizeBytes := sizeBytes.getD content.length
    checksumSha256 := checksumOr sha256 content checksumSha256, content, modifiedAt := now }

/-- A write through a mount passes its checks: no fault is injected, the mount is active and read-write, its tape is there, and the
content fits. -/
structure Storable (upper : String → String) (s : Simulator) (faults : LtfsFaults) (handle : MountHandle) (dest : String)
    (content : Bytes) (storedSize : Int) (barcode : Barcode) (tape : MockTapeContents) : Prop where
  noWriteError : faults.injected.get? .writeError = none
  noPartialWrite : faults.injected.get? .partialWrite = none
  active : ∃ mount, s.ltfs.activeMounts.get? handle.handleId = some mount ∧ mount.active = true
  readWrite : handle.mode = .readWrite
  provides : Provides upper s faults handle.barcode barcode tape
  noFailure : injectedWriteFailure faults tape content = none
  room : tape.projectedUsedBytes dest storedSize ≤ tape.capacityBytes

/-- The tapes are as they were, but for a blank one that may be new. -/
def TapesEnsured (s s' : Simulator) : Prop := ∃ barcode s₁, Ensured s barcode s₁ ∧ s'.ltfs.tapes = s₁.ltfs.tapes

theorem TapesEnsured.refl (s : Simulator) : TapesEnsured s s := ⟨"", s, .inl rfl, rfl⟩

/-- A write through a mount is refused, or stores the file and then tells the library. -/
theorem wp_writeMountedBytes {now : DateTime} {faults : LtfsFaults} {handle : MountHandle} {dest : String} {content : Bytes}
    {sizeBytes : Option Int} {checksumSha256 : Option String} {N : WrittenInstance → Simulator → Prop}
    {E : Exn → Simulator → Prop}
    (hrefused : ∀ e s', (¬∃ barcode tape, Storable upper s faults handle dest content (sizeBytes.getD content.length) barcode
      tape) → TapesEnsured s s' → E e s')
    (hstored : ∀ barcode tape s₁ s' inst,
      Storable upper s faults handle dest content (sizeBytes.getD content.length) barcode tape → Ensured s barcode s₁ →
      s₁.ltfs.tapes.get? barcode = some tape → s'.library = s.library →
      s'.ltfs.tapes = s₁.ltfs.tapes.set tape.barcode (tape.written (recordOf sha256 now dest content sizeBytes checksumSha256)
        (tape.projectedUsedBytes dest (sizeBytes.getD content.length))) →
      wp (Simulation.library fun lib => lib.setDriveMountState handle.driveId .mountedRw) (fun _ => N inst) E s') :
    wp (writeMountedBytes upper sha256 now faults handle dest content sizeBytes checksumSha256) N E s := by
  unfold writeMountedBytes
  rw [wp_bind]
  refine wp_maybeRaiseInjectedFault (fun hnoWrite => ?_) fun e message hsome => hrefused e s ?_ (.refl s)
  swap
  · rintro ⟨barcode, tape, hst⟩
    cases hsome.symm.trans hst.noWriteError
  rw [wp_bind]
  refine wp_maybeRaiseInjectedFault (fun hnoPartial => ?_) fun e message hsome => hrefused e s ?_ (.refl s)
  swap
  · rintro ⟨barcode, tape, hst⟩
    cases hsome.symm.trans hst.noPartialWrite
  rw [wp_bind]
  unfold requireActiveMount
  rw [wp_bind, wp_read]
  cases hmount : s.ltfs.activeMounts.get? handle.handleId with
  | none =>
    refine hrefused _ s ?_ (.refl s)
    rintro ⟨barcode, tape, hst⟩
    obtain ⟨mount, hget, -⟩ := hst.active
    cases hmount.symm.trans hget
  | some mount =>
    dsimp only
    split
    swap
    · rename_i hinactive
      refine hrefused _ s ?_ (.refl s)
      rintro ⟨barcode, tape, hst⟩
      obtain ⟨mount', hget, hactive⟩ := hst.active
      rw [hmount] at hget
      exact hinactive (Option.some.inj hget ▸ hactive)
    rename_i hactive
    rw [wp_pure]
    split
    · rename_i hmode
      refine hrefused _ s ?_ (.refl s)
      rintro ⟨barcode, tape, hst⟩
      exact hmode hst.readWrite
    rename_i hmode
    rw [wp_bind]
    refine wp_ensureTape_iff upper (fun barcode tape s₁ hp hget hs₁ => ?_) fun e hnone => hrefused e s ?_ (.refl s)
    swap
    · rintro ⟨barcode, tape, hst⟩
      exact hnone ⟨barcode, tape, hst.provides⟩
    -- there is one tape the checks are about
    have hunique : ∀ barcode' tape', Storable upper s faults handle dest content (sizeBytes.getD content.length) barcode' tape' →
        tape' = tape := by
      intro barcode' tape' hst
      obtain rfl : barcode = barcode' := Except.ok.inj (hp.normalized.symm.trans hst.provides.normalized)
      exact Option.some.inj (hst.provides.given.symm.trans hp.given)
    rw [wp_bind, wp_changeLtfs]
    split
    · rename_i exn dirty hfailure
      refine hrefused _ _ ?_ ⟨barcode, s₁, hs₁, rfl⟩
      rintro ⟨barcode', tape', hst⟩
      obtain rfl := hunique _ _ hst
      cases hfailure.symm.trans hst.noFailure
    · rename_i hnoFailure
      split
      · rename_i hfull
        refine hrefused _ _ ?_ ⟨barcode, s₁, hs₁, rfl⟩
        rintro ⟨barcode', tape', hst⟩
        obtain rfl := hunique _ _ hst
        exact absurd hst.room (Int.not_le.2 hfull)
      · rename_i hroom
        rw [wp_bind, wp_changeLtfs, wp_bind]
        refine hstored barcode tape s₁ _ _ ⟨hnoWrite, hnoPartial, ⟨mount, hmount, hactive⟩, not_not.1 hmode, hp, hnoFailure,
          Int.not_lt.1 hroom⟩ hs₁ hget ?_ rfl
        have hlib : s₁.library = s.library := (ensured_frame hs₁).1
        exact hlib

theorem keeps_writeMountedBytes (now : DateTime) (faults : LtfsFaults) (handle : MountHandle) (dest : String) (content : Bytes)
    (sizeBytes : Option Int) (checksumSha256 : Option String) :
    Keeps TapesKept (writeMountedBytes upper sha256 now faults handle dest content sizeBytes checksumSha256) := by
  intro s h
  refine wp_writeMountedBytes ?_ ?_
  · rintro e s' - ⟨barcode, s₁, hs₁, htapes⟩
    exact (h.ensured hs₁).of_tapes htapes
  · intro barcode tape s₁ s' inst hst hs₁ hget hlib htapes
    obtain ⟨rfl, ha⟩ := h.ensured hs₁ barcode tape hget
    exact keeps_library _ _ ((h.ensured hs₁).setTape _ (ha.written (recordOf sha256 now dest content sizeBytes checksumSha256)
      hst.room) htapes)

theorem keeps_writeMetadataBytes (now : DateTime) (faults : LtfsFaults) (text dest : String) (content : Bytes) :
    Keeps TapesKept (writeMetadataBytes upper sha256 now faults text dest content) := by
  refine keeps_bind (keeps_ofExcept _) fun _ => ?_
  refine keeps_bind (keeps_maybeRaise _ _) fun _ => ?_
  refine keeps_bind (keeps_maybeRaise _ _) fun _ s h => ?_
  rw [wp_bind]
  refine wp_mono (wp_ensureTape_kept h) (fun tape s₁ h₁ => ?_) fun _ _ h₁ => h₁
  dsimp only
  split
  · exact h₁.1
  · rename_i hroom
    exact h₁.1.setTape _ (h₁.2.2.store
      { tapePath := dest, sizeBytes := content.length, checksumSha256 := sha256 content, content, modifiedAt := now }
      (Int.not_lt.1 hroom)) rfl

theorem keeps_ensureTape (faults : LtfsFaults) (text : String) : Keeps TapesKept (ensureTape upper faults text) :=
  fun _ h => wp_mono (wp_ensureTape_kept h) (fun _ _ h₁ => h₁.1) fun _ _ h₁ => h₁

end keeps

/-- Step lemma: every operation keeps the tapes accounted for. -/
theorem TapesKept.operate {s : Simulator} (h : TapesKept s) (upper : String → String) (sha256 : Bytes → String)
    (op : SimulatorOperation) : TapesKept (s.operate upper sha256 op).2 := by
  cases op with
  | library op => exact h
  | ltfs circumstances call =>
    cases call with
    | format barcode confirmation => exact answer_state _ (keeps_format _ _ _ _ s h)
    | mount barcode mode => exact answer_state _ (keeps_mount _ _ _ s h)
    | unmount handle => exact withHandle_state h fun handle _ => answer_state _ (keeps_unmount _ _ s h)
    | writeFile handle source dest =>
      refine withHandle_state h fun handle _ => answer_state _ ?_
      exact keeps_bind (keeps_ofExcept _) (fun _ => keeps_writeMountedBytes _ _ _ _ _ _ _) s h
    | writeBytes handle dest content sizeBytes checksumSha256 =>
      exact withHandle_state h fun handle _ => answer_state _ (keeps_writeMountedBytes _ _ _ _ _ _ _ s h)
    | writeMetadata barcode dest content => exact answer_state _ (keeps_writeMetadataBytes _ _ _ _ _ s h)
    | readBytes barcode path =>
      refine answer_state _ (keeps_bind (keeps_ofExcept _) (fun _ => ?_) s h)
      exact keeps_bind (keeps_maybeRaise _ _) fun _ => keeps_bind (keeps_ensureTape _ _) fun _ => keeps_pure _
    | remainingCapacity barcode =>
      exact answer_state _ (keeps_bind (keeps_ensureTape _ _) (fun _ => keeps_pure _) s h)

/-- A new simulator has no tapes. -/
theorem tapesKept_new (numSlots numDrives numImportExportSlots capacityBytes : Nat) :
    TapesKept (new numSlots numDrives numImportExportSlots capacityBytes) := fun _ _ h => nomatch h

/-! ### Writes that fail -/

/-- The files of a tape and its counter; a tape that was not asked for is blank. -/
def stored (s : Simulator) (barcode : Barcode) : Dict String MockFileRecord × Int :=
  match s.ltfs.tapes.get? barcode with
  | some tape => (tape.files, tape.usedBytes)
  | none => ([], 0)

/-- The library lets a drive be marked as mounted read-write. -/
def marksMounted (lib : MockLibrary) (d : Int) : Bool :=
  match lib.drives.get? d with
  | some drive =>
    (validateMountTransition drive.mountState .mountedRw).isOk && (validateDriveTransition drive.driveState .busy).isOk &&
      (lib.setDrive d { drive with driveState := .busy, mountState := .mountedRw }).validateInvariants.isOk
  | none => false

section writes

variable {upper : String → String} {sha256 : Bytes → String} {s s' : Simulator}

theorem stored_of_ensured {barcode : Barcode} (hs : Ensured s barcode s') (b : Barcode) : s'.stored b = s.stored b := by
  rcases hs with rfl | ⟨hnone, -, rfl⟩
  · rfl
  · unfold stored MockLtfs.setTape
    rw [Dict.get?_set]
    by_cases hb : barcode = b
    · rw [if_pos hb, ← hb, hnone]
    · rw [if_neg hb]

theorem stored_of_tapesEnsured (hs : TapesEnsured s s') (b : Barcode) : s'.stored b = s.stored b := by
  obtain ⟨barcode, s₁, hs₁, htapes⟩ := hs
  rw [← stored_of_ensured hs₁ b, stored, stored, htapes]

/-- The library marks a drive exactly when it lets it be marked. -/
theorem marksMounted_iff {lib : MockLibrary} {d : Int} :
    marksMounted lib d = true ↔ (lib.setDriveMountState d .mountedRw).1 = .ok () := by
  unfold marksMounted MockLibrary.setDriveMountState MockLibrary.update MockLibrary.setDriveMountStateUpdate MockLibrary.item
  cases lib.drives.get? d with
  | none => simp [bind, Except.bind]
  | some drive =>
    simp only [bind, Except.bind, MockLibrary.driveStateFor, or_true, true_or, if_true]
    cases validateMountTransition drive.mountState .mountedRw with
    | error e => simp [Except.isOk, Except.toBool]
    | ok u =>
      cases validateDriveTransition drive.driveState .busy with
      | error e => simp [Except.isOk, Except.toBool]
      | ok u' =>
        simp only [pure, Except.pure]
        cases (lib.setDrive d { drive with driveState := .busy, mountState := .mountedRw }).validateInvariants <;>
          simp [Except.isOk, Except.toBool]

/-- A file that was on the tape already changes nothing when it is stored once more. -/
theorem written_self {tape : MockTapeContents} (record : MockFileRecord) (h : tape.files.get? record.tapePath = some record) :
    (tape.written record (tape.projectedUsedBytes record.tapePath record.sizeBytes)).files = tape.files ∧
      tape.projectedUsedBytes record.tapePath record.sizeBytes = tape.usedBytes := by
  refine ⟨Dict.set_self tape.nodupFiles h, ?_⟩
  simp [MockTapeContents.projectedUsedBytes, MockTapeContents.previousSize, h]

/-- A write through a mount that raises changes a tape exactly when the file is new and passes its checks, and the library does
not let the drive be marked. -/
theorem writeMountedBytes_atomic_iff (h : TapesKept s) (now : DateTime) (faults : LtfsFaults) (handle : MountHandle)
    (dest : String) (content : Bytes) (sizeBytes : Option Int) (checksumSha256 : Option String) :
    (∀ e s', writeMountedBytes upper sha256 now faults handle dest content sizeBytes checksumSha256 s = (.error e, s') →
      ∀ b, s'.stored b = s.stored b) ↔
    ¬∃ barcode tape, Storable upper s faults handle dest content (sizeBytes.getD content.length) barcode tape ∧
      marksMounted s.library handle.driveId = false ∧
      tape.files.get? dest ≠ some (recordOf sha256 now dest content sizeBytes checksumSha256) := by
  constructor
  · rintro hatomic ⟨barcode, tape, hst, hmarks, hnew⟩
    have hchanged : wp (writeMountedBytes upper sha256 now faults handle dest content sizeBytes checksumSha256)
        (fun _ _ => False) (fun _ s' => s'.stored barcode ≠ s.stored barcode) s := by
      refine wp_writeMountedBytes (fun e s' hnone _ => absurd ⟨barcode, tape, hst⟩ hnone) ?_
      intro barcode' tape' s₁ s' inst hst' hs₁ hget hlib htapes
      obtain rfl : barcode' = barcode := Except.ok.inj (hst'.provides.normalized.symm.trans hst.provides.normalized)
      obtain rfl : tape' = tape := Option.some.inj (hst'.provides.given.symm.trans hst.provides.given)
      unfold Simulation.library
      rw [wp_within, hlib]
      refine ⟨fun a lib hok => ?_, fun e lib _ => ?_⟩
      · have hfst : (s.library.setDriveMountState handle.driveId .mountedRw).1 = .ok () := by rw [hok]
        rw [marksMounted_iff.2 hfst] at hmarks
        cases hmarks
      · obtain ⟨rfl, -⟩ := h.ensured hs₁ _ tape' hget
        rw [← stored_of_ensured hs₁]
        unfold stored
        rw [htapes, hget, Dict.get?_set, if_pos rfl]
        intro heq
        have hfiles : tape'.files.set dest (recordOf sha256 now dest content sizeBytes checksumSha256) = tape'.files :=
          (Prod.mk.inj heq).1
        refine hnew ?_
        rw [← hfiles, Dict.get?_set, if_pos rfl]
    rw [wp_iff] at hchanged
    generalize hrun : writeMountedBytes upper sha256 now faults handle dest content sizeBytes checksumSha256 s = r at *
    obtain ⟨e | inst, s'⟩ := r
    · exact hchanged.2 e s' rfl (hatomic e s' rfl barcode)
    · exact hchanged.1 inst s' rfl
  · intro hnot
    have hkept : wp (writeMountedBytes upper sha256 now faults handle dest content sizeBytes checksumSha256)
        (fun _ _ => True) (fun _ s' => ∀ b, s'.stored b = s.stored b) s := by
      refine wp_writeMountedBytes (fun e s' _ hs' => stored_of_tapesEnsured hs') ?_
      intro barcode tape s₁ s' inst hst hs₁ hget hlib htapes
      unfold Simulation.library
      rw [wp_within, hlib]
      refine ⟨fun _ _ _ => trivial, fun e lib herr b => ?_⟩
      have hmarks : marksMounted s.library handle.driveId = false := by
        rw [Bool.eq_false_iff]
        intro hm
        rw [marksMounted_iff, herr] at hm
        cases hm
      have hold : tape.files.get? dest = some (recordOf sha256 now dest content sizeBytes checksumSha256) := by
        by_contra hnew
        exact hnot ⟨barcode, tape, hst, hmarks, hnew⟩
      obtain ⟨hfiles, hused⟩ := written_self (recordOf sha256 now dest content sizeBytes checksumSha256) hold
      obtain ⟨rfl, -⟩ := h.ensured hs₁ _ tape hget
      rw [← stored_of_ensured hs₁]
      unfold stored
      rw [htapes, Dict.get?_set]
      by_cases hb : tape.barcode = b
      · rw [if_pos hb, ← hb, hget]
        exact Prod.ext hfiles hused
      · rw [if_neg hb]
    exact ((wp_iff _).1 hkept).2

/-- A write beside any mount changes no tape if it raises. -/
theorem writeMetadataBytes_atomic (now : DateTime) (faults : LtfsFaults) (text dest : String) (content : Bytes) :
    wp (writeMetadataBytes upper sha256 now faults text dest content) (fun _ _ => True)
      (fun _ s' => ∀ b, s'.stored b = s.stored b) s := by
  unfold writeMetadataBytes
  rw [wp_bind, wp_ofExcept]
  refine ⟨fun _ _ => ?_, fun _ _ _ => rfl⟩
  rw [wp_bind]
  refine wp_maybeRaiseInjectedFault (fun _ => ?_) fun _ _ _ _ => rfl
  rw [wp_bind]
  refine wp_maybeRaiseInjectedFault (fun _ => ?_) fun _ _ _ _ => rfl
  rw [wp_bind]
  refine wp_ensureTape upper (fun barcode tape s₁ _ _ hs₁ => ?_) fun _ _ => rfl
  dsimp only
  split
  · exact stored_of_ensured hs₁
  · trivial

end writes

end Simulator

/-- A call that writes to a tape. -/
inductive TapeWrite where
  | file (handle : Nat) (source : Except Exn Bytes) (dest : String)
  | bytes (handle : Nat) (dest : String) (content : Bytes) (sizeBytes : Option Int) (checksumSha256 : Option String)
  | metadata (barcode dest : String) (content : Bytes)

namespace TapeWrite

def call : TapeWrite → LtfsCall
  | file handle source dest => .writeFile handle source dest
  | bytes handle dest content sizeBytes checksumSha256 => .writeBytes handle dest content sizeBytes checksumSha256
  | metadata barcode dest content => .writeMetadata barcode dest content

/-- The write is through a mount and passes its checks, the library does not let the drive of the mount be marked as mounted
read-write, and the file is not on the tape already just as it is written. -/
def LeavesUnmarked (upper : String → String) (sha256 : Bytes → String) (s : Simulator) (circumstances : Circumstances) :
    TapeWrite → Prop
  | file handle source dest => ∃ given content barcode tape, s.handles[handle]? = some given ∧ source = .ok content ∧
      Simulator.Storable upper s circumstances.faults given dest content content.length barcode tape ∧
      Simulator.marksMounted s.library given.driveId = false ∧
      tape.files.get? dest ≠ some (Simulator.recordOf sha256 circumstances.date dest content none none)
  | bytes handle dest content sizeBytes checksumSha256 => ∃ given barcode tape, s.handles[handle]? = some given ∧
      Simulator.Storable upper s circumstances.faults given dest content (sizeBytes.getD content.length) barcode tape ∧
      Simulator.marksMounted s.library given.driveId = false ∧
      tape.files.get? dest ≠ some (Simulator.recordOf sha256 circumstances.date dest content sizeBytes checksumSha256)
  | metadata _ _ _ => False

end TapeWrite

/-- The simulated tapes are accounted for in a state, and a write there leaves every tape as it was if it raises. -/
structure TapeLaw (upper : String → String) (sha256 : Bytes → String) (s : Simulator) (circumstances : Circumstances)
    (write : TapeWrite) : Prop where
  accounted : ∀ barcode tape, s.ltfs.tapes.get? barcode = some tape → tape.Accounted
  atomic : ∀ exn, (s.call upper sha256 circumstances write.call).1 = .raised exn →
    ∀ barcode, (s.call upper sha256 circumstances write.call).2.stored barcode = s.stored barcode

/-- What a function that raises leaves is what its answer leaves. -/
theorem atomic_answer {α : Type} {f : α → SimulatorAnswer} (hf : ∀ a e, f a ≠ .raised e) {r : Except Exn α × Simulator}
    {P : Simulator → Prop} :
    (∀ e, (Simulator.answer f r).1 = .raised e → P (Simulator.answer f r).2) ↔ ∀ e s', r = (.error e, s') → P s' := by
  obtain ⟨e | a, s'⟩ := r
  · simp [Simulator.answer]
  · simp [Simulator.answer, hf]

/-- After any operations the simulated tapes are accounted for; and a write that raises there leaves every tape as it was exactly
when it does not leave its file on a tape whose drive the library refuses to mark. -/
theorem tape_law_iff (upper : String → String) (sha256 : Bytes → String)
    (numSlots numDrives numImportExportSlots capacityBytes : Nat) (operations : List SimulatorOperation)
    (circumstances : Circumstances) (write : TapeWrite) :
    let s : Simulator := (simulator upper sha256 numSlots numDrives numImportExportSlots capacityBytes).after
      (.new numSlots numDrives numImportExportSlots capacityBytes) operations
    TapeLaw upper sha256 s circumstances write ↔ ¬write.LeavesUnmarked upper sha256 s circumstances := by
  intro s
  have hkept : s.TapesKept :=
    Automaton.after_keeps (M := simulator upper sha256 numSlots numDrives numImportExportSlots capacityBytes)
      (I := Simulator.TapesKept) (fun s op h => h.operate upper sha256 op) 
      (Simulator.tapesKept_new numSlots numDrives numImportExportSlots capacityBytes) operations
  suffices hatomic : (∀ exn, (s.call upper sha256 circumstances write.call).1 = .raised exn →
      ∀ barcode, (s.call upper sha256 circumstances write.call).2.stored barcode = s.stored barcode) ↔
      ¬write.LeavesUnmarked upper sha256 s circumstances from
    ⟨fun h => hatomic.1 h.atomic, fun h => ⟨fun b tape hget => (hkept b tape hget).2, hatomic.2 h⟩⟩
  cases write with
  | file handle source dest =>
    simp only [TapeWrite.call, Simulator.call, Simulator.withHandle, TapeWrite.LeavesUnmarked]
    cases hhandle : s.handles[handle]? with
    | none => simp
    | some given =>
      dsimp only
      rw [atomic_answer (P := fun s' => ∀ b, s'.stored b = s.stored b) (by rintro _ _ ⟨⟩)]
      cases source with
      | error e =>
        constructor
        · rintro - ⟨_, _, _, _, -, hsource, -⟩
          cases hsource
        · rintro - e s' hrun
          obtain ⟨-, rfl⟩ := Prod.mk.inj hrun
          exact fun _ => rfl
      | ok content =>
        refine (Simulator.writeMountedBytes_atomic_iff hkept circumstances.date circumstances.faults given dest content none
          none).trans (not_congr ⟨?_, ?_⟩)
        · rintro ⟨barcode, tape, h⟩
          exact ⟨given, content, barcode, tape, rfl, rfl, h⟩
        · rintro ⟨given', content', barcode, tape, hgiven, hsource, h⟩
          cases hgiven
          cases hsource
          exact ⟨barcode, tape, h⟩
  | bytes handle dest content sizeBytes checksumSha256 =>
    simp only [TapeWrite.call, Simulator.call, Simulator.withHandle, TapeWrite.LeavesUnmarked]
    cases hhandle : s.handles[handle]? with
    | none => simp
    | some given =>
      dsimp only
      rw [atomic_answer (P := fun s' => ∀ b, s'.stored b = s.stored b) (by rintro _ _ ⟨⟩)]
      refine (Simulator.writeMountedBytes_atomic_iff hkept circumstances.date circumstances.faults given dest content sizeBytes
        checksumSha256).trans (not_congr ⟨?_, ?_⟩)
      · rintro ⟨barcode, tape, h⟩
        exact ⟨given, barcode, tape, rfl, h⟩
      · rintro ⟨given', barcode, tape, hgiven, h⟩
        cases hgiven
        exact ⟨barcode, tape, h⟩
  | metadata barcode dest content =>
    simp only [TapeWrite.call, Simulator.call, TapeWrite.LeavesUnmarked, not_false_eq_true, iff_true]
    rw [atomic_answer (P := fun s' => ∀ b, s'.stored b = s.stored b) (by rintro _ _ ⟨⟩)]
    exact ((wp_iff _).1 (Simulator.writeMetadataBytes_atomic _ _ _ _ _)).2

/-- A tape is mounted read-write twice, in two spellings; a write through the first mount fails, so its end leaves the drive dirty.
Then a write through the second mount stores its file, and raises. -/
theorem failed_write_stays :
    let confirmation : FormatConfirmation :=
      { expectedBarcode := "TAPE0001"
        safetyToken := { token := "t", operation := "format", targetBarcode := "TAPE0001", expiresAt := 1 } }
    let circumstances : Circumstances := { now := 0, date := .epoch }
    let failing : Circumstances := { now := 0, date := .epoch, faults := { config := [.writeFailure] } }
    let s : Simulator := (simulator (fun text => String.ofList (text.toList.map Char.toUpper)) (fun _ => "") 1 1 0 100).after
      (.new 1 1 0 100)
      [.library (.call {} (.addCartridge 1 "TAPE0001")), .library (.call {} (.load 1 0)),
        .ltfs circumstances (.format "TAPE0001" (some confirmation)),
        .ltfs circumstances (.mount "TAPE0001" .readWrite), .ltfs circumstances (.mount "tape0001" .readWrite),
        .ltfs failing (.writeBytes 0 "/a" [1] none none), .ltfs circumstances (.unmount 0)]
    ¬TapeLaw (fun text => String.ofList (text.toList.map Char.toUpper)) (fun _ => "") s circumstances
      (.bytes 1 "/b" [1, 2] none none) := by
  intro confirmation circumstances failing s h
  have hbefore : s.stored "TAPE0001" = ([], 0) := by decide +kernel
  have hused : ((s.call (fun text => String.ofList (text.toList.map Char.toUpper)) (fun _ => "") circumstances
      (.writeBytes 1 "/b" [1, 2] none none)).2.stored "TAPE0001").2 = 2 := by decide +kernel
  have hsame := h.atomic
    { cls := .typed "InvalidStateTransitionError"
      message := "Invalid mount transition: MountState.DIRTY -> MountState.MOUNTED_RW" } (by decide +kernel) "TAPE0001"
  rw [hbefore] at hsame
  have htwo : (0 : Int) = 2 := (congrArg Prod.snd hsame).symm.trans hused
  cases htwo

end OpenBlade
