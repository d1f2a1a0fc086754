import OpenBlade.Simulator.Barcodes
import OpenBlade.Simulator.MockLtfs

/-!
# The mounts of the simulated tapes

The backend admits a read-write mount only beside no other mount, and marks the drive as mounted. It looks for the other mounts of
a tape by the barcode as the caller spells it, while mounts are kept under the barcode in upper case; so in lower case a tape is
mounted read-write twice. And the library can take a mounted tape, or the mount state of its drive, from under the backend.
-/

namespace OpenBlade

open Effects Storage

namespace Simulator

/-- A mount's tape is in its drive, and the drive is marked as mounted in the way of the mount, if not dirty. -/
def Located (lib : MockLibrary) (mount : ActiveMount) : Prop :=
  ∃ drive, lib.drives.get? mount.driveId = some drive ∧ drive.barcode = some mount.barcode ∧
    drive.mountState ≠ .unmounted ∧ (drive.mountState = .mountedRo ↔ mount.mode = .readOnly)

/-- An active mount is the one its handle was given out for. -/
structure Issued (s : Simulator) (id : Nat) (mount : ActiveMount) : Prop where
  active : mount.active = true
  handle : s.handles[id]? = some mount.handle
  barcode : mount.handle.barcode = mount.barcode
  driveId : mount.handle.driveId = mount.driveId
  mode : mount.handle.mode = mount.mode

/-- No tape is mounted beside a read-write mount. -/
def Alone (mounts : Dict Nat ActiveMount) : Prop :=
  ∀ id mount id' mount', mounts.get? id = some mount → mounts.get? id' = some mount' → mount.barcode = mount'.barcode →
    mount.mode = .readWrite → id = id'

/-- The invariant of the mounts. -/
structure Disciplined (upper : String → String) (s : Simulator) : Prop where
  sound : s.library.Sound
  handles : ∀ (i : Nat) (handle : MountHandle), s.handles[i]? = some handle → handle.handleId = i
  keyed : ∀ barcode tape, s.ltfs.tapes.get? barcode = some tape → tape.barcode = barcode
  issued : ∀ id mount, s.ltfs.activeMounts.get? id = some mount → Issued s id mount
  canonical : ∀ id mount, s.ltfs.activeMounts.get? id = some mount → normalizeBarcode upper mount.barcode = .ok mount.barcode
  located : ∀ id mount, s.ltfs.activeMounts.get? id = some mount → Located s.library mount
  alone : Alone s.ltfs.activeMounts

/-! ### Mounts and drives -/

/-- A mount's drive holds its tape. -/
theorem Located.contents {lib : MockLibrary} {mount : ActiveMount} (h : Located lib mount) :
    lib.contents (.drive mount.driveId) = some mount.barcode := by
  obtain ⟨drive, hget, hb, -⟩ := h
  rw [MockLibrary.contents, hget]
  exact hb

/-- Mounts of one tape are in one drive. -/
theorem Located.same_drive {lib : MockLibrary} (hs : lib.Sound) {mount : ActiveMount} (h : Located lib mount) {d : Int}
    {drive : MockDrive} (hget : lib.drives.get? d = some drive) (hb : drive.barcode = some mount.barcode) :
    mount.driveId = d :=
  Element.drive.inj (hs.exclusive _ _ _ h.contents ((MockLibrary.contents_drive hget).trans hb))

/-- Drives with mounted tapes that stay keep the mounts in place. -/
theorem Located.of_stays {lib lib' : MockLibrary} {mount : ActiveMount} (h : Located lib mount)
    (hstays : MockLibrary.StaysMounted lib lib') : Located lib' mount := by
  obtain ⟨drive, hget, hb, hmount, hmode⟩ := h
  exact ⟨drive, hstays _ _ hget (by simp [MockLibrary.holdsMounted, hb, hmount]), hb, hmount, hmode⟩

/-- No transition but to `UNMOUNTED` leads from one way of being mounted to the other. -/
theorem Located.of_setMountState {lib : MockLibrary} {mount : ActiveMount} (h : Located lib mount) {d : Int} {drive : MockDrive}
    {mountState : MountState} (hget : lib.drives.get? d = some drive)
    (htransition : drive.mountState = mountState ∨ mountState ∈ drive.mountState.transitions)
    (hmounted : mount.driveId = d → mountState ≠ .unmounted) (driveState : DriveState) :
    Located (lib.setDrive d { drive with driveState := driveState, mountState := mountState }) mount := by
  obtain ⟨drive', hget', hb, hmount, hmode⟩ := h
  unfold Located MockLibrary.setDrive
  rw [Dict.get?_set]
  by_cases hd : d = mount.driveId
  · subst hd
    obtain rfl : drive = drive' := Option.some.inj (hget.symm.trans hget')
    rw [if_pos rfl]
    have hne := hmounted rfl
    refine ⟨_, rfl, hb, hne, ?_⟩
    rw [← hmode]
    dsimp only
    revert htransition hmount
    cases drive.mountState <;> cases mountState <;> simp_all [MountState.transitions]
  · rw [if_neg hd]
    exact ⟨drive', hget', hb, hmount, hmode⟩

/-- A mount's barcode is one of those the mounts of the tape are looked up by. -/
theorem mem_mountsOf {ltfs : MockLtfs} {id : Nat} {mount : ActiveMount} (h : ltfs.activeMounts.get? id = some mount) :
    mount ∈ ltfs.mountsOf mount.barcode := by
  unfold MockLtfs.mountsOf
  rw [List.mem_filter]
  exact ⟨List.mem_map.2 ⟨(id, mount), Dict.mem_of_get? h, rfl⟩, decide_eq_true rfl⟩

/-- The mounts that are looked up are mounts of the tape. -/
theorem of_mem_mountsOf {ltfs : MockLtfs} {barcode : String} {mount : ActiveMount} (h : mount ∈ ltfs.mountsOf barcode) :
    ∃ id, ltfs.activeMounts.get? id = some mount ∧ mount.barcode = barcode := by
  unfold MockLtfs.mountsOf at h
  rw [List.mem_filter, decide_eq_true_eq] at h
  obtain ⟨⟨id, m⟩, hmem, rfl⟩ := List.mem_map.1 h.1
  exact ⟨id, Dict.get?_of_mem ltfs.nodupMounts hmem, h.2⟩

/-! ### Changes that keep the discipline -/

section changes

variable {upper : UpperCase} {s s' : Simulator}

/-- The tapes are free to change, as long as each is kept under its barcode. -/
theorem Disciplined.of_tapes (h : Disciplined upper.apply s) (hlib : s'.library = s.library)
    (hmounts : s'.ltfs.activeMounts = s.ltfs.activeMounts) (hhandles : s'.handles = s.handles)
    (hkeyed : ∀ barcode tape, s'.ltfs.tapes.get? barcode = some tape → tape.barcode = barcode) : Disciplined upper.apply s' := by
  refine ⟨hlib ▸ h.sound, hhandles ▸ h.handles, hkeyed, fun id mount hget => ?_, fun id mount hget => ?_, fun id mount hget => ?_,
    hmounts ▸ h.alone⟩
  · obtain ⟨hactive, hhandle, hb, hd, hmode⟩ := h.issued id mount (hmounts ▸ hget)
    exact ⟨hactive, hhandles ▸ hhandle, hb, hd, hmode⟩
  · exact h.canonical id mount (hmounts ▸ hget)
  · exact hlib ▸ h.located id mount (hmounts ▸ hget)

/-- A tape is written back under its barcode. -/
theorem Disciplined.setTape (h : Disciplined upper.apply s) (tape : MockTapeContents) {barcode : Barcode}
    (hb : tape.barcode = barcode) : Disciplined upper.apply { s with ltfs := s.ltfs.setTape barcode tape } := by
  refine h.of_tapes rfl rfl rfl fun b t hget => ?_
  rw [MockLtfs.setTape, Dict.get?_set] at hget
  split at hget
  · rename_i hbb
    rw [← Option.some.inj hget, hb, hbb]
  · exact h.keyed b t hget

theorem Disciplined.ensured (h : Disciplined upper.apply s) {barcode : Barcode} (hs : Simulation.Ensured s barcode s') :
    Disciplined upper.apply s' := by
  rcases hs with rfl | ⟨-, -, rfl⟩
  · exact h
  · exact h.setTape _ rfl

theorem get?_keepMounts {ltfs : MockLtfs} {p : Nat × ActiveMount → Bool} {id : Nat} {mount : ActiveMount}
    (h : (ltfs.keepMounts p).activeMounts.get? id = some mount) :
    ltfs.activeMounts.get? id = some mount ∧ p (id, mount) = true := by
  have hmem := List.mem_filter.1 (Dict.mem_of_get? h)
  exact ⟨Dict.get?_of_mem ltfs.nodupMounts hmem.1, hmem.2⟩

/-- Mounts may end. -/
theorem Disciplined.keepMounts (h : Disciplined upper.apply s) (p : Nat × ActiveMount → Bool) :
    Disciplined upper.apply { s with ltfs := s.ltfs.keepMounts p } where
  sound := h.sound
  handles := h.handles
  keyed := h.keyed
  issued id mount hget :=
    let hi := h.issued id mount (get?_keepMounts hget).1
    ⟨hi.active, hi.handle, hi.barcode, hi.driveId, hi.mode⟩
  canonical id mount hget := h.canonical id mount (get?_keepMounts hget).1
  located id mount hget := h.located id mount (get?_keepMounts hget).1
  alone id mount id' mount' hget hget' := h.alone id mount id' mount' (get?_keepMounts hget).1 (get?_keepMounts hget').1

/-- Two mounts are the same but for the writes on them. -/
structure SameMount (mount mount' : ActiveMount) : Prop where
  handle : mount'.handle = mount.handle
  barcode : mount'.barcode = mount.barcode
  driveId : mount'.driveId = mount.driveId
  mode : mount'.mode = mount.mode
  active : mount'.active = mount.active

/-- What is noted of writes does not matter. -/
theorem Disciplined.setMount (h : Disciplined upper.apply s) (mount' : ActiveMount) {id : Nat} {mount : ActiveMount}
    (hget : s.ltfs.activeMounts.get? id = some mount) (hsame : SameMount mount mount') :
    Disciplined upper.apply { s with ltfs := s.ltfs.setMount id mount' } := by
  -- each mount is one there was before
  have hold : ∀ i m, (s.ltfs.setMount id mount').activeMounts.get? i = some m →
      ∃ m₀, s.ltfs.activeMounts.get? i = some m₀ ∧ SameMount m₀ m := by
    intro i m hm
    rw [MockLtfs.setMount, Dict.get?_set] at hm
    split at hm
    · rename_i hi
      subst hi
      exact ⟨mount, hget, Option.some.inj hm ▸ hsame⟩
    · exact ⟨m, hm, rfl, rfl, rfl, rfl, rfl⟩
  refine ⟨h.sound, h.handles, h.keyed, fun i m hm => ?_, fun i m hm => ?_, fun i m hm => ?_, ?_⟩
  · obtain ⟨m₀, hm₀, hs⟩ := hold i m hm
    obtain ⟨hactive, hhandle, hb, hd, hmode⟩ := h.issued i m₀ hm₀
    exact ⟨hs.active.trans hactive, hs.handle ▸ hhandle, by rw [hs.handle, hs.barcode, hb], by rw [hs.handle, hs.driveId, hd],
      by rw [hs.handle, hs.mode, hmode]⟩
  · obtain ⟨m₀, hm₀, hs⟩ := hold i m hm
    rw [hs.barcode]
    exact h.canonical i m₀ hm₀
  · obtain ⟨m₀, hm₀, hs⟩ := hold i m hm
    unfold Located
    rw [hs.barcode, hs.driveId, hs.mode]
    exact h.located i m₀ hm₀
  · intro i m i' m' hm hm' hb hmode
    obtain ⟨m₀, hm₀, hs⟩ := hold i m hm
    obtain ⟨m₀', hm₀', hs'⟩ := hold i' m' hm'
    exact h.alone i m₀ i' m₀' hm₀ hm₀' (by rw [← hs.barcode, hb, hs'.barcode]) (hs.mode ▸ hmode)

/-- The mount state of a drive may change, but not to `UNMOUNTED` under a mount. -/
theorem Disciplined.setMountState (h : Disciplined upper.apply s) {d : Int} {drive : MockDrive} {mountState : MountState}
    {driveState : DriveState} (hget : s.library.drives.get? d = some drive)
    (htransition : drive.mountState = mountState ∨ mountState ∈ drive.mountState.transitions)
    (hsound : (s.library.setDrive d { drive with driveState := driveState, mountState := mountState }).Sound)
    (hmounted : ∀ id mount, s.ltfs.activeMounts.get? id = some mount → mount.driveId = d → mountState ≠ .unmounted) :
    Disciplined upper.apply
      { s with library := s.library.setDrive d { drive with driveState := driveState, mountState := mountState } } where
  sound := hsound
  handles := h.handles
  keyed := h.keyed
  issued id mount hm :=
    let hi := h.issued id mount hm
    ⟨hi.active, hi.handle, hi.barcode, hi.driveId, hi.mode⟩
  canonical := h.canonical
  located id mount hm := (h.located id mount hm).of_setMountState hget htransition (hmounted id mount hm) driveState
  alone := h.alone

/-- A mount is added under a new handle. -/
theorem Disciplined.addMount (h : Disciplined upper.apply s) {barcode : Barcode} {driveId : Int} {mode : MountMode}
    (hnorm : normalizeBarcode upper.apply barcode = .ok barcode)
    (hlocated : ∀ handle, Located s.library { handle, barcode, driveId, mode })
    (halone : ∀ id mount, s.ltfs.activeMounts.get? id = some mount → mount.barcode = barcode →
      mode = .readOnly ∧ mount.mode = .readOnly) :
    let handle : MountHandle := { handleId := s.handles.length, barcode, driveId, mode }
    Disciplined upper.apply
      { s with
        ltfs := s.ltfs.setMount s.handles.length { handle, barcode, driveId, mode }
        handles := s.handles ++ [handle] } := by
  intro handle
  have hget : ∀ i m, (s.ltfs.setMount s.handles.length { handle, barcode, driveId, mode }).activeMounts.get? i = some m →
      (i = s.handles.length ∧ m = { handle, barcode, driveId, mode }) ∨
        (i ≠ s.handles.length ∧ s.ltfs.activeMounts.get? i = some m) := by
    intro i m hm
    rw [MockLtfs.setMount, Dict.get?_set] at hm
    split at hm
    · rename_i hi
      exact .inl ⟨hi.symm, (Option.some.inj hm).symm⟩
    · rename_i hi
      exact .inr ⟨fun he => hi he.symm, hm⟩
  refine ⟨h.sound, ?_, h.keyed, fun i m hm => ?_, fun i m hm => ?_, fun i m hm => ?_, ?_⟩
  · intro i handle' hi
    rcases Nat.lt_trichotomy i s.handles.length with hlt | heq | hgt
    · rw [List.getElem?_append_left hlt] at hi
      exact h.handles i handle' hi
    · rw [heq, List.getElem?_concat_length] at hi
      rw [heq, ← Option.some.inj hi]
    · rw [List.getElem?_eq_none (by simp; omega)] at hi
      cases hi
  · rcases hget i m hm with ⟨rfl, rfl⟩ | ⟨-, hm⟩
    · exact ⟨rfl, List.getElem?_concat_length, rfl, rfl, rfl⟩
    · obtain ⟨hactive, hhandle, hb, hd, hmode⟩ := h.issued i m hm
      have hlt : i < s.handles.length := (List.getElem?_eq_some_iff.1 hhandle).1
      exact ⟨hactive, (List.getElem?_append_left hlt).trans hhandle, hb, hd, hmode⟩
  · rcases hget i m hm with ⟨rfl, rfl⟩ | ⟨-, hm⟩
    · exact hnorm
    · exact h.canonical i m hm
  · rcases hget i m hm with ⟨rfl, rfl⟩ | ⟨-, hm⟩
    · exact hlocated handle
    · exact h.located i m hm
  · intro i m i' m' hm hm' hb hmode
    rcases hget i m hm with ⟨rfl, rfl⟩ | ⟨hi, hm⟩ <;> rcases hget i' m' hm' with ⟨rfl, rfl⟩ | ⟨hi', hm'⟩
    · rfl
    · cases hmode.symm.trans (halone i' m' hm' hb.symm).1
    · cases hmode.symm.trans (halone i m hm hb).2
    · exact h.alone i m i' m' hm hm' hb hmode

/-! ### The functions of the backend -/

open Stateful Simulation

/-- `set_drive_mount_state` on a sound library changes nothing, or makes a transition of the table. -/
theorem wp_setDriveMountState {N : Unit → Simulator → Prop} {E : Exn → Simulator → Prop} {d : Int} {mountState : MountState}
    (hsound : s.library.Sound)
    (hN : ∀ drive driveState, s.library.drives.get? d = some drive →
      (drive.mountState = mountState ∨ mountState ∈ drive.mountState.transitions) →
      (s.library.setDrive d { drive with driveState := driveState, mountState := mountState }).Sound →
      N () { s with library := s.library.setDrive d { drive with driveState := driveState, mountState := mountState } })
    (hE : ∀ e, E e s) : wp (Simulation.library fun lib => lib.setDriveMountState d mountState) N E s := by
  unfold Simulation.library MockLibrary.setDriveMountState
  rw [wp_within]
  rcases MockLibrary.update_cases fun lib' u hc => (hsound.setDriveMountState hc).1 with ⟨e, herr⟩ | ⟨lib', u, hc, hupd, hs⟩
  · rw [herr]
    constructor
    · intro a t h
      cases (Prod.mk.inj h).1
    · intro e' t h
      obtain rfl := (Prod.mk.inj h).2
      exact hE e'
  · rw [hupd]
    constructor
    · intro a t h
      obtain rfl := (Prod.mk.inj h).2
      obtain ⟨drive, hget, htransition, rfl⟩ := MockLibrary.setDriveMountState_ok hc
      exact hN drive _ hget htransition hs
    · intro e t h
      cases (Prod.mk.inj h).1

theorem wp_requireActiveMount {N : ActiveMount → Simulator → Prop} {E : Exn → Simulator → Prop} {handle : MountHandle}
    (hN : ∀ mount, s.ltfs.activeMounts.get? handle.handleId = some mount → N mount s) (hE : ∀ e, E e s) :
    wp (requireActiveMount handle) N E s := by
  unfold requireActiveMount
  rw [wp_bind, wp_read]
  cases hget : s.ltfs.activeMounts.get? handle.handleId with
  | none => exact hE _
  | some mount =>
    dsimp only
    split
    · exact hN mount hget
    · exact hE _

/-- A handle that was given out is that of its mount. -/
theorem Disciplined.handle_eq (h : Disciplined upper.apply s) {handle : MountHandle} (hmem : handle ∈ s.handles)
    {mount : ActiveMount} (hget : s.ltfs.activeMounts.get? handle.handleId = some mount) : mount.handle = handle := by
  obtain ⟨i, hi⟩ := List.mem_iff_getElem?.1 hmem
  have hid := h.handles i handle hi
  have hissued := (h.issued _ _ hget).handle
  rw [hid, hi] at hissued
  exact (Option.some.inj hissued).symm

theorem format_disciplined (now : Int) (faults : LtfsFaults) (text : String) (confirmation : Option FormatConfirmation) :
    Keeps (Disciplined upper.apply) (format upper.apply now faults text confirmation) := by
  intro s h
  unfold format
  cases confirmation with
  | none => exact h
  | some confirmation =>
    dsimp only
    rw [wp_bind, wp_ofExcept]
    refine ⟨fun _ _ => ?_, fun _ _ => h⟩
    rw [wp_bind]
    refine wp_ensureTape upper.apply (fun barcode tape s₁ hnorm htape hs₁ => ?_) fun _ => h
    have h₁ := h.ensured hs₁
    obtain rfl := h₁.keyed _ _ htape
    rw [wp_bind, wp_changeLtfs, wp_bind, wp_read, wp_bind, wp_ofExcept]
    have h₂ := (h₁.setTape tape.erased rfl).keepMounts fun entry => entry.2.barcode ≠ tape.barcode
    refine ⟨fun found hfound => ?_, fun _ _ => h₂⟩
    cases found with
    | none => exact h₂
    | some d =>
      dsimp only
      rw [wp_bind]
      refine wp_setDriveMountState h₂.sound (fun drive driveState hget htransition hsound => ?_) fun _ => h₂
      refine h₂.setMountState hget htransition hsound fun id mount hm hd => ?_
      -- the mounts of the tape in the drive have ended
      obtain ⟨drive', hdrive', hb⟩ := findDriveByBarcode_ok upper.apply hnorm hfound d rfl
      have hcontents := (h₂.located id mount hm).contents
      rw [hd, MockLibrary.contents_drive hdrive', hb] at hcontents
      have hne := (get?_keepMounts hm).2
      simp [Option.some.inj hcontents] at hne

/-- The mounts that are looked up are those of the active mounts alone. -/
theorem mountsOf_congr {ltfs ltfs' : MockLtfs} (h : ltfs'.activeMounts = ltfs.activeMounts) (barcode : String) :
    ltfs'.mountsOf barcode = ltfs.mountsOf barcode := by
  unfold MockLtfs.mountsOf
  rw [h]

theorem register_disciplined {barcode : Barcode} {d : Int} {mode : MountMode} (h : Disciplined upper.apply s)
    (hnorm : normalizeBarcode upper.apply barcode = .ok barcode)
    (hlocated : ∀ handle, Located s.library { handle, barcode, driveId := d, mode })
    (halone : ∀ id mount, s.ltfs.activeMounts.get? id = some mount → mount.barcode = barcode →
      mode = .readOnly ∧ mount.mode = .readOnly) :
    wp (register barcode barcode d mode) (fun _ => Disciplined upper.apply) (fun _ => Disciplined upper.apply) s :=
  h.addMount hnorm hlocated halone

theorem mount_disciplined {faults : LtfsFaults} {text : String} {mode : MountMode} (h : Disciplined upper.apply s)
    (hspares : ∀ barcode, normalizeBarcode upper.apply text = .ok barcode →
      mode = .readOnly ∨ barcode = text ∨ s.ltfs.mountsOf barcode = []) :
    wp (mount upper.apply faults text mode) (fun _ => Disciplined upper.apply) (fun _ => Disciplined upper.apply) s := by
  unfold Simulation.mount
  rw [wp_bind, wp_ofExcept]
  refine ⟨fun barcode hnorm => ?_, fun _ _ => h⟩
  rw [wp_bind]
  refine wp_maybeRaiseInjectedFault (fun _ => ?_) fun _ _ _ => h
  rw [wp_bind]
  refine wp_maybeRaiseInjectedFault (fun _ => ?_) fun _ _ _ => h
  split
  · exact h
  rw [wp_bind, wp_read, wp_bind, wp_ofExcept]
  refine ⟨fun found hfound => ?_, fun _ _ => h⟩
  cases found with
  | none => exact h
  | some d =>
    obtain ⟨drive, hdrive, hb⟩ := findDriveByBarcode_ok upper.apply hnorm hfound d rfl
    dsimp only
    rw [wp_bind]
    refine wp_ensureTape upper.apply (fun barcode' tape s₁ hnorm' htape hs₁ => ?_) fun _ => h
    obtain rfl : barcode = barcode' := Except.ok.inj (hnorm.symm.trans hnorm')
    have h₁ := h.ensured hs₁
    obtain ⟨hlib, hmounts, -⟩ := Simulation.ensured_frame hs₁
    have hkey := h₁.keyed _ _ htape
    have hcanonical := normalizeBarcode_idem upper hnorm
    split
    · rw [wp_bind, wp_read]
      split
      · exact h₁
      · rename_i hadmitted
        obtain rfl := hkey
        split
        · rw [wp_bind]
          refine wp_setDriveMountState h₁.sound (fun drive' driveState hget htransition hsound => ?_) fun _ => h₁
          obtain rfl : drive = drive' := Option.some.inj (hdrive.symm.trans (hlib ▸ hget))
          have htarget : targetState mode ≠ .unmounted := by cases mode <;> (intro h; cases h)
          have h₂ := h₁.setMountState hget htransition hsound fun _ _ _ _ => htarget
          rw [wp_bind, wp_changeLtfs]
          have h₃ := h₂.setTape { tape with mountState := targetState mode } rfl
          have hdrive₃ : (s₁.library.setDrive d
              { drive with driveState := driveState, mountState := targetState mode }).drives.get? d =
              some { drive with driveState := driveState, mountState := targetState mode } :=
            (Dict.get?_set _ _ _ _).trans (if_pos rfl)
          refine register_disciplined h₃ hcanonical (fun handle => ⟨_, hdrive₃, hb, htarget, ?_⟩) fun id m hm hmb => ?_
          · cases mode <;> simp [targetState]
          · rcases hspares _ hnorm with rfl | htext | hnone
            · refine ⟨rfl, ?_⟩
              obtain ⟨drive', hget', -, -, hmode⟩ := h₃.located id m hm
              obtain rfl := (h₃.located id m hm).same_drive h₃.sound hdrive₃ (hmb ▸ hb)
              obtain rfl := Option.some.inj (hdrive₃.symm.trans hget')
              exact hmode.1 rfl
            · rename_i hnone
              have hmem : m ∈ s₁.ltfs.mountsOf m.barcode := mem_mountsOf hm
              rw [hmb, htext, hnone] at hmem
              cases hmem
            · have hmem : m ∈ s₁.ltfs.mountsOf m.barcode := mem_mountsOf hm
              rw [hmb, mountsOf_congr hmounts, hnone] at hmem
              cases hmem
        · rename_i hsome
          obtain ⟨other, hother⟩ := List.exists_mem_of_ne_nil _ hsome
          obtain ⟨i, hi, hib⟩ := of_mem_mountsOf hother
          -- the text is the barcode of a mount
          have htext : tape.barcode = text := by
            have hnormal := h₁.canonical i other hi
            rw [hib, hnorm] at hnormal
            exact Except.ok.inj hnormal
          have hreadOnly : mode = .readOnly ∧ ∀ m ∈ s₁.ltfs.mountsOf text, m.mode = .readOnly := by
            simp only [ne_eq, hsome, not_false_eq_true, true_and, not_or, Bool.not_eq_true, List.any_eq_false,
              decide_eq_true_eq] at hadmitted
            refine ⟨?_, fun m hm => ?_⟩
            · cases mode with
              | readOnly => rfl
              | readWrite => exact absurd rfl hadmitted.1
            · cases hmode : m.mode with
              | readOnly => rfl
              | readWrite => exact absurd hmode (hadmitted.2 m hm)
          have hlocated := h₁.located i other hi
          have hotherMode := hreadOnly.2 other hother
          obtain ⟨drive', hget', -, hmounted, hmode⟩ := hlocated
          have hd := (h₁.located i other hi).same_drive h₁.sound (hlib ▸ hdrive) (by rw [hb, hib, htext])
          rw [hd, hlib, hdrive] at hget'
          obtain rfl := Option.some.inj hget'
          refine register_disciplined h₁ hcanonical (fun handle => ⟨drive, hlib ▸ hdrive, hb, hmounted, ?_⟩)
            fun id m hm hmb => ⟨hreadOnly.1, ?_⟩
          · rw [hmode, hotherMode, hreadOnly.1]
          · have hmem : m ∈ s₁.ltfs.mountsOf m.barcode := mem_mountsOf hm
            rw [hmb, htext] at hmem
            exact hreadOnly.2 m hmem
    · exact h₁

/-- While mounts remain, an unmount does not leave the drive `UNMOUNTED`. -/
theorem stateAfterUnmount_ne {ended : ActiveMount} {remaining : List ActiveMount} (h : remaining ≠ []) :
    stateAfterUnmount ended remaining ≠ .unmounted := by
  unfold stateAfterUnmount
  split
  · nofun
  · split <;> simp

theorem unmount_disciplined {faults : LtfsFaults} {handle : MountHandle} (h : Disciplined upper.apply s)
    (hmem : handle ∈ s.handles) :
    wp (unmount upper.apply faults handle) (fun _ => Disciplined upper.apply) (fun _ => Disciplined upper.apply) s := by
  unfold unmount
  rw [wp_bind]
  refine wp_requireActiveMount (fun ended hended => ?_) fun _ => h
  obtain rfl := h.handle_eq hmem hended
  have hissued := h.issued _ _ hended
  have h₁ := h.keepMounts fun entry => entry.1 ≠ ended.handle.handleId
  rw [wp_bind, wp_changeLtfs, wp_bind]
  refine wp_ensureTape upper.apply (fun barcode tape s₂ hnorm htape hs₂ => ?_) fun _ => h₁
  have hb : barcode = ended.barcode := by
    rw [hissued.barcode, h.canonical _ _ hended] at hnorm
    exact (Except.ok.inj hnorm).symm
  have h₂ := h₁.ensured hs₂
  obtain ⟨hlib, hmounts, -⟩ := Simulation.ensured_frame hs₂
  obtain rfl := h₂.keyed _ _ htape
  rw [wp_bind, wp_read]
  dsimp only
  rw [wp_bind, wp_changeLtfs, wp_bind]
  have h₃ := h₂.setTape
    { tape with mountState := stateAfterUnmount ended (s₂.ltfs.mountsOf tape.barcode) } rfl
  refine wp_setDriveMountState h₃.sound (fun drive driveState hget htransition hsound => ?_) fun _ => h₃
  refine h₃.setMountState hget htransition hsound fun id m hm hd => stateAfterUnmount_ne ?_
  -- what is still mounted in the drive is the same tape
  have hcontents := (h₃.located id m hm).contents
  rw [hd, hissued.driveId] at hcontents
  have hsame : m.barcode = ended.barcode :=
    Option.some.inj (hcontents.symm.trans ((congrFun (congrArg _ hlib) _).trans (h.located _ _ hended).contents))
  have hmem' : m ∈ s₂.ltfs.mountsOf m.barcode := mem_mountsOf hm
  rw [hsame, ← hb] at hmem'
  exact List.ne_nil_of_mem hmem'

theorem writeMountedBytes_disciplined {sha256 : Bytes → String} {now : DateTime} {faults : LtfsFaults} {handle : MountHandle}
    {dest : String} {content : Bytes} {sizeBytes : Option Int} {checksumSha256 : Option String}
    (h : Disciplined upper.apply s) :
    wp (writeMountedBytes upper.apply sha256 now faults handle dest content sizeBytes checksumSha256)
      (fun _ => Disciplined upper.apply) (fun _ => Disciplined upper.apply) s := by
  unfold writeMountedBytes
  rw [wp_bind]
  refine wp_maybeRaiseInjectedFault (fun _ => ?_) fun _ _ _ => h
  rw [wp_bind]
  refine wp_maybeRaiseInjectedFault (fun _ => ?_) fun _ _ _ => h
  rw [wp_bind]
  refine wp_requireActiveMount (fun mount hmount => ?_) fun _ => h
  split
  · exact h
  rw [wp_bind]
  refine wp_ensureTape upper.apply (fun barcode tape s₁ hnorm htape hs₁ => ?_) fun _ => h
  have h₁ := h.ensured hs₁
  have hmount₁ : s₁.ltfs.activeMounts.get? handle.handleId = some mount := (Simulation.ensured_frame hs₁).2.1 ▸ hmount
  obtain rfl := h₁.keyed _ _ htape
  dsimp only
  rw [wp_bind, wp_changeLtfs]
  have h₂ := h₁.setMount { mount with writeInProgress := true } hmount₁ ⟨rfl, rfl, rfl, rfl, rfl⟩
  have hmount₂ : (s₁.ltfs.setMount handle.handleId { mount with writeInProgress := true }).activeMounts.get?
      handle.handleId = some { mount with writeInProgress := true } := (Dict.get?_set _ _ _ _).trans (if_pos rfl)
  split
  · rw [wp_bind, wp_changeLtfs]
    exact h₂.setMount _ hmount₂ ⟨rfl, rfl, rfl, rfl, rfl⟩
  · split
    · rw [wp_bind, wp_changeLtfs]
      exact h₂.setMount _ hmount₂ ⟨rfl, rfl, rfl, rfl, rfl⟩
    · rw [wp_bind, wp_changeLtfs, wp_bind]
      have h₃ := (h₂.setTape (tape.written
        { tapePath := dest, sizeBytes := sizeBytes.getD content.length
          checksumSha256 := checksumOr sha256 content checksumSha256, content, modifiedAt := now }
        (tape.projectedUsedBytes dest (sizeBytes.getD content.length))) rfl).setMount
        { mount with writeInProgress := false } hmount₂ ⟨rfl, rfl, rfl, rfl, rfl⟩
      exact wp_setDriveMountState h₃.sound (fun drive driveState hget htransition hsound =>
        h₃.setMountState hget htransition hsound fun _ _ _ _ => nofun) fun _ => h₃

theorem ensureTape_disciplined {faults : LtfsFaults} {text : String} (h : Disciplined upper.apply s) :
    wp (ensureTape upper.apply faults text) (fun tape s' => Disciplined upper.apply s' ∧
      s'.ltfs.tapes.get? tape.barcode = some tape) (fun _ => Disciplined upper.apply) s := by
  refine wp_ensureTape upper.apply (fun barcode tape s₁ hnorm htape hs₁ => ?_) fun _ => h
  have h₁ := h.ensured hs₁
  exact ⟨h₁, (h₁.keyed _ _ htape).symm ▸ htape⟩

theorem writeMetadataBytes_disciplined {sha256 : Bytes → String} {now : DateTime} {faults : LtfsFaults} {text dest : String}
    {content : Bytes} (h : Disciplined upper.apply s) :
    wp (writeMetadataBytes upper.apply sha256 now faults text dest content) (fun _ => Disciplined upper.apply)
      (fun _ => Disciplined upper.apply) s := by
  unfold writeMetadataBytes
  rw [wp_bind, wp_ofExcept]
  refine ⟨fun _ _ => ?_, fun _ _ => h⟩
  rw [wp_bind]
  refine wp_maybeRaiseInjectedFault (fun _ => ?_) fun _ _ _ => h
  rw [wp_bind]
  refine wp_maybeRaiseInjectedFault (fun _ => ?_) fun _ _ _ => h
  rw [wp_bind]
  refine wp_mono (ensureTape_disciplined h) (fun tape s₁ h₁ => ?_) fun _ _ h₁ => h₁
  dsimp only
  split
  · exact h₁.1
  · exact h₁.1.setTape _ rfl

end changes

/-! ### Operations -/

/-- An operation on the library leaves a mount alone: it does not mark the drive as unmounted, it does not export the tape, and it
does not set the library up anew. -/
def sparesMount (mount : ActiveMount) : LibraryOperation → Bool
  | .call _ (.setDriveMountState d mountState) => mount.driveId ≠ d ∨ mountState ≠ .unmounted
  | .call _ (.exportCartridge barcode) => mount.barcode ≠ barcode
  | .reset | .seedSlots _ => false
  | _ => true

/-- An operation goes with the mounts there are: on the library, it leaves every mount alone, and seeds cleanly; on the tapes, it
is no read-write mount of a mounted tape in another spelling. -/
def sparesMounts (upper : String → String) (s : Simulator) : SimulatorOperation → Bool
  | .library op => s.library.seedsCleanly upper op && s.ltfs.activeMounts.all fun entry => sparesMount entry.2 op
  | .ltfs _ (.mount barcode .readWrite) =>
    match normalizeBarcode upper barcode with
    | .ok normalized => normalized = barcode ∨ s.ltfs.mountsOf normalized = []
    | .error _ => true
  | .ltfs _ _ => true

/-- An operation on the library that leaves a mount alone keeps it in its drive. -/
theorem Located.operate {lib : MockLibrary} {mount : ActiveMount} (h : Located lib mount) (upper : String → String)
    {op : LibraryOperation} (hspares : sparesMount mount op = true) :
    Located (lib.operate upper op).2 mount := by
  have hstays : ∀ op, lib.takesMounted op = false →
      (∀ faults d mountState, op ≠ .call faults (.setDriveMountState d mountState)) →
      Located (lib.operate upper op).2 mount := fun op htakes hset => h.of_stays (MockLibrary.staysMounted_operate htakes hset)
  cases op with
  | call faults call =>
    cases call with
    | setDriveMountState d mountState =>
      refine MockLibrary.update_keeps (P := fun lib' => Located lib' mount) _ h fun lib' u hok => ?_
      obtain ⟨drive, hget, htransition, rfl⟩ := MockLibrary.setDriveMountState_ok hok
      refine h.of_setMountState hget htransition (fun hd => ?_) _
      simpa [sparesMount, hd] using hspares
    | exportCartridge barcode =>
      have hne : mount.barcode ≠ barcode := by simpa [sparesMount] using hspares
      obtain ⟨drive, hget, hb, hmount⟩ := h
      rcases lib.exportCartridge_cases barcode with ⟨-, hdrives⟩ | ⟨entry, -, hmem, heb, hdrives⟩
      · exact ⟨drive, hdrives ▸ hget, hb, hmount⟩
      · have hother : entry.1 ≠ mount.driveId := by
          intro he
          have hentry : lib.drives.get? entry.1 = some entry.2 := Dict.get?_of_mem lib.nodupDrives hmem
          rw [he, hget] at hentry
          rw [← Option.some.inj hentry, hb] at heb
          exact hne (Option.some.inj heb)
        refine ⟨drive, ?_, hb, hmount⟩
        simp only [MockLibrary.operate, MockLibrary.call]
        rw [hdrives, Dict.get?_set, if_neg hother]
        exact hget
    | _ => exact hstays _ rfl (by rintro _ _ _ ⟨⟩)
  | reset => cases hspares
  | seedSlots barcodes => cases hspares
  | seedImportExportSlots slots => exact hstays _ rfl (by rintro _ _ _ ⟨⟩)

theorem library_disciplined {upper : UpperCase} {s : Simulator} (h : Disciplined upper.apply s) {op : LibraryOperation}
    (hspares : sparesMounts upper.apply s (.library op) = true) :
    Disciplined upper.apply { s with library := (s.library.operate upper.apply op).2 } := by
  simp only [sparesMounts, Bool.and_eq_true, List.all_eq_true] at hspares
  refine ⟨h.sound.operate hspares.1, h.handles, h.keyed, fun id m hm => ?_, h.canonical, fun id m hm => ?_, h.alone⟩
  · obtain ⟨hactive, hhandle, hb, hd, hmode⟩ := h.issued id m hm
    exact ⟨hactive, hhandle, hb, hd, hmode⟩
  · exact (h.located id m hm).operate upper.apply (hspares.2 _ (Dict.mem_of_get? hm))

/-- Step lemma: every operation that goes with the mounts keeps the discipline. -/
theorem Disciplined.operate {upper : UpperCase} {sha256 : Bytes → String} {s : Simulator} (h : Disciplined upper.apply s)
    {op : SimulatorOperation} (hspares : sparesMounts upper.apply s op = true) :
    Disciplined upper.apply (s.operate upper.apply sha256 op).2 := by
  cases op with
  | library op => exact library_disciplined h hspares
  | ltfs circumstances call =>
    cases call with
    | format barcode confirmation => exact answer_state _ (format_disciplined _ _ _ _ s h)
    | mount barcode mode =>
      refine answer_state _ (mount_disciplined h fun normalized hnorm => ?_)
      cases mode with
      | readOnly => exact .inl rfl
      | readWrite =>
        simp only [sparesMounts, hnorm, decide_eq_true_eq] at hspares
        exact .inr hspares
    | unmount handle => exact withHandle_state h fun handle hmem => answer_state _ (unmount_disciplined h hmem)
    | writeFile handle source dest =>
      refine withHandle_state h fun handle _ => answer_state _ ?_
      unfold Simulation.writeFile
      rw [Stateful.wp_bind, Stateful.wp_ofExcept]
      exact ⟨fun _ _ => writeMountedBytes_disciplined h, fun _ _ => h⟩
    | writeBytes handle dest content sizeBytes checksumSha256 =>
      exact withHandle_state h fun handle _ => answer_state _ (writeMountedBytes_disciplined h)
    | writeMetadata barcode dest content => exact answer_state _ (writeMetadataBytes_disciplined h)
    | readBytes barcode path =>
      refine answer_state _ ?_
      unfold Simulation.readBytes
      rw [Stateful.wp_bind, Stateful.wp_ofExcept]
      refine ⟨fun _ _ => ?_, fun _ _ => h⟩
      rw [Stateful.wp_bind]
      refine Simulation.wp_maybeRaiseInjectedFault (fun _ => ?_) fun _ _ _ => h
      rw [Stateful.wp_bind]
      exact Stateful.wp_mono (ensureTape_disciplined h) (fun _ _ h' => h'.1) fun _ _ h' => h'
    | remainingCapacity barcode =>
      refine answer_state _ ?_
      unfold Simulation.remainingCapacity
      rw [Stateful.wp_bind]
      exact Stateful.wp_mono (ensureTape_disciplined h) (fun _ _ h' => h'.1) fun _ _ h' => h'

/-- A new simulator has no mounts. -/
theorem disciplined_new (upper : String → String) (numSlots numDrives numImportExportSlots capacityBytes : Nat) :
    Disciplined upper (new numSlots numDrives numImportExportSlots capacityBytes) where
  sound := MockLibrary.sound_new numSlots numDrives numImportExportSlots
  handles i handle h := by simp [new] at h
  keyed barcode tape h := by cases h
  issued id mount h := by cases h
  canonical id mount h := by cases h
  located id mount h := by cases h
  alone id mount id' mount' h := by cases h

end Simulator

/-- The discipline of the mounts: a tape that is mounted read-write has no other mount, and the tape of every active mount is in
the drive that the mount names, whose mount state is not `UNMOUNTED`. -/
structure MountDiscipline (s : Simulator) : Prop where
  alone : ∀ id mount id' mount', s.ltfs.activeMounts.get? id = some mount → s.ltfs.activeMounts.get? id' = some mount' →
    mount.barcode = mount'.barcode → mount.mode = .readWrite → id = id'
  mounted : ∀ id mount, s.ltfs.activeMounts.get? id = some mount → ∃ drive,
    s.library.drives.get? mount.driveId = some drive ∧ drive.barcode = some mount.barcode ∧ drive.mountState ≠ .unmounted

/-- The discipline holds at every moment of every run whose operations go with the mounts there are. -/
theorem mounts_disciplined (upper : UpperCase) (sha256 : Bytes → String)
    (numSlots numDrives numImportExportSlots capacityBytes : Nat) (operations : List SimulatorOperation)
    (hspares : (simulator upper.apply sha256 numSlots numDrives numImportExportSlots capacityBytes).Meets
      (fun s op => Simulator.sparesMounts upper.apply s op = true)
      (.new numSlots numDrives numImportExportSlots capacityBytes) operations) :
    MountDiscipline ((simulator upper.apply sha256 numSlots numDrives numImportExportSlots capacityBytes).after
      (.new numSlots numDrives numImportExportSlots capacityBytes) operations) := by
  have hdisciplined : Simulator.Disciplined upper.apply
      ((simulator upper.apply sha256 numSlots numDrives numImportExportSlots capacityBytes).after
        (.new numSlots numDrives numImportExportSlots capacityBytes) operations) :=
    hspares.keeps (I := Simulator.Disciplined upper.apply) (fun s op h hop => h.operate hop)
      (Simulator.disciplined_new upper.apply numSlots numDrives numImportExportSlots capacityBytes)
  refine ⟨hdisciplined.alone, fun id mount hget => ?_⟩
  obtain ⟨drive, hdrive, hb, hmount, -⟩ := hdisciplined.located id mount hget
  exact ⟨drive, hdrive, hb, hmount⟩

/-- A run that meets the conditions: a tape is loaded, formatted, and mounted read-write in lower case. -/
theorem mounts_disciplined_one :
    MountDiscipline ((simulator UpperCase.ascii.apply (fun _ => "") 1 1 0 100).after (.new 1 1 0 100)
      [.library (.call {} (.addCartridge 1 "TAPE0001")), .library (.call {} (.load 1 0)),
        .ltfs { now := 0, date := .epoch }
          (.format "TAPE0001" (some
            { expectedBarcode := "TAPE0001"
              safetyToken := { token := "t", operation := "format", targetBarcode := "TAPE0001", expiresAt := 1 } })),
        .ltfs { now := 0, date := .epoch } (.mount "tape0001" .readWrite)]) :=
  mounts_disciplined UpperCase.ascii (fun _ => "") 1 1 0 100 _
    ⟨by decide +kernel, by decide +kernel, by decide +kernel, by decide +kernel, trivial⟩

/-- A tape that is mounted read-write is mounted read-write once more, in lower case. -/
theorem lower_case_mounts_twice :
    ¬MountDiscipline ((simulator UpperCase.ascii.apply (fun _ => "") 1 1 0 100).after (.new 1 1 0 100)
      [.library (.call {} (.addCartridge 1 "TAPE0001")), .library (.call {} (.load 1 0)),
        .ltfs { now := 0, date := .epoch }
          (.format "TAPE0001" (some
            { expectedBarcode := "TAPE0001"
              safetyToken := { token := "t", operation := "format", targetBarcode := "TAPE0001", expiresAt := 1 } })),
        .ltfs { now := 0, date := .epoch } (.mount "TAPE0001" .readWrite),
        .ltfs { now := 0, date := .epoch } (.mount "tape0001" .readWrite)]) := by
  intro h
  let first : MountHandle := { handleId := 0, barcode := "TAPE0001", driveId := 0, mode := .readWrite }
  let second : MountHandle := { handleId := 1, barcode := "TAPE0001", driveId := 0, mode := .readWrite }
  have hsame : (0 : Nat) = 1 :=
    h.alone 0 { handle := first, barcode := "TAPE0001", driveId := 0, mode := .readWrite } 1
      { handle := second, barcode := "TAPE0001", driveId := 0, mode := .readWrite } (by decide +kernel) (by decide +kernel)
      rfl rfl
  cases hsame

end OpenBlade
