import OpenBlade.Aml.Mounts
import OpenBlade.Effects.Traverse

/-!
# Where the emulator has its cartridges

The row of a cartridge names its drive, and the row of the drive its cartridge. A request reads the mount records and the row of
the drive, a mark reads neither: both rows agree after any run in which each call finds the drive and the cartridge as the other
writer left them, and each mark that empties a drive gives the slot its cartridge came from.
-/

namespace OpenBlade

open Effects

namespace AmlState

/-- The address in the row of a cartridge. -/
def slotAddress (st : AmlState) (barcode : Barcode) : Option String := (st.media.get? barcode).map AmlMedia.slotAddress

/-- The cartridge in the row of a drive. -/
def loadedIn (st : AmlState) (name : String) : Option Barcode :=
  (st.drives.get? name).bind fun drive => drive.loadedMedia.map LoadedMedia.barcode

def isDrive (st : AmlState) (name : String) : Bool := (st.drives.get? name).isSome

/-- The rows of cartridges and drives agree. -/
structure Placed (st : AmlState) : Prop where
  /-- A drive has loaded the cartridges whose address it is. -/
  loaded_iff : ∀ name barcode, st.isDrive name = true → (st.loadedIn name = some barcode ↔ st.slotAddress barcode = some name)
  /-- No cartridge is loaded in two drives. -/
  once : ∀ name name' barcode, st.loadedIn name = some barcode → st.loadedIn name' = some barcode → name = name'
  /-- No two cartridges have one address. -/
  apart : ∀ barcode barcode' address, st.slotAddress barcode = some address → st.slotAddress barcode' = some address →
    barcode = barcode'

/-- The cartridge is in no drive, and at the address. -/
def Rests (st : AmlState) (barcode : Barcode) (address : String) : Prop :=
  st.slotAddress barcode = some address ∧ st.isDrive address = false

/-- Every cartridge is in a slot of its own, and nothing is mounted. -/
structure AtRest (st : AmlState) : Prop where
  empty : ∀ name, st.loadedIn name = none
  slots : ∀ barcode address, st.slotAddress barcode = some address → st.isDrive address = false ∧ address ≠ ""
  apart : ∀ barcode barcode' address, st.slotAddress barcode = some address → st.slotAddress barcode' = some address →
    barcode = barcode'
  unmounted : st.mounts = []

/-- The drive holds the cartridge or nothing, and no other drive holds the cartridge. -/
def Takes (st : AmlState) (barcode : Barcode) (name : String) : Prop :=
  (∀ other ∈ st.loadedIn name, other = barcode) ∧
    ∀ other ∈ Dict.keys st.drives, st.loadedIn other = some barcode → other = name

instance (st : AmlState) (barcode : Barcode) (name : String) : Decidable (st.Takes barcode name) :=
  inferInstanceAs (Decidable (_ ∧ _))

/-- What a call has to find in the rows it overwrites, where each cartridge came from the slot `home`. -/
def Consults (home : Barcode → Option String) (st : AmlState) : AmlCall → Prop
  | .mount request _ _ =>
    ∀ target ∈ (st.checkMount request).toOption, ∀ name ∈ Dict.keys st.drives, st.loadedIn name ≠ some target.barcode
  | .unmount request => ∀ found ∈ (st.checkUnmount request).toOption, st.loadedIn found.2.1 = some found.1
  | .markBusy barcode driveId _ =>
    st.isDrive (amlDriveName driveId) = true ∨ (st.slotAddress barcode).isSome = true →
      st.isDrive (amlDriveName driveId) = true ∧ (st.slotAddress barcode).isSome = true ∧ st.Takes barcode (amlDriveName driveId)
  | .markIdle barcode driveId none =>
    (∀ other ∈ st.loadedIn (amlDriveName driveId), other = barcode) ∧
      ((st.slotAddress barcode).isSome = true → st.loadedIn (amlDriveName driveId) ≠ some barcode)
  | .markIdle barcode driveId (some slotId) =>
    (∀ other ∈ st.loadedIn (amlDriveName driveId), other = barcode) ∧
      ((st.slotAddress barcode).isSome = true →
        home barcode = some (amlSlotAddress slotId) ∧ st.Takes barcode (amlDriveName driveId))

instance (home : Barcode → Option String) (st : AmlState) (call : AmlCall) : Decidable (st.Consults home call) :=
  match call with
  | .mount _ _ _ => inferInstanceAs (Decidable (∀ _ ∈ Except.toOption _, _))
  | .unmount _ => inferInstanceAs (Decidable (∀ _ ∈ Except.toOption _, _))
  | .markBusy _ _ _ => inferInstanceAs (Decidable (_ ∨ _ → _))
  | .markIdle _ _ none => inferInstanceAs (Decidable (_ ∧ (_ → _)))
  | .markIdle _ _ (some _) => inferInstanceAs (Decidable (_ ∧ (_ → _)))

theorem mem_drives_of_loadedIn {st : AmlState} {name : String} {barcode : Barcode} (h : st.loadedIn name = some barcode) :
    name ∈ Dict.keys st.drives := by
  obtain ⟨drive, hget, -⟩ := Option.bind_eq_some_iff.1 h
  exact Dict.mem_keys_iff.2 (by rw [hget]; rfl)

theorem Takes.name_eq {st : AmlState} {barcode : Barcode} {name other : String} (h : st.Takes barcode name)
    (hother : st.loadedIn other = some barcode) : other = name := h.2 other (mem_drives_of_loadedIn hother) hother

/-! ### What an update changes -/

section updates

variable (st : AmlState) (barcode : Barcode) (name : String)

theorem slotAddress_updateAmlMedia (update : AmlMedia → AmlMedia) (other : Barcode) :
    (st.updateAmlMedia barcode update).slotAddress other =
      if barcode = other then (st.media.get? barcode).map fun media => (update media).slotAddress else st.slotAddress other := by
  unfold updateAmlMedia slotAddress
  split
  · rename_i hget
    split
    · rename_i hb
      rw [← hb, hget]
      rfl
    · rfl
  · rename_i media hget
    rw [Dict.get?_set, hget]
    split <;> rfl

@[simp] theorem loadedIn_updateAmlMedia (update : AmlMedia → AmlMedia) :
    (st.updateAmlMedia barcode update).loadedIn = st.loadedIn := by
  unfold updateAmlMedia
  split <;> rfl

@[simp] theorem isDrive_updateAmlMedia (update : AmlMedia → AmlMedia) :
    (st.updateAmlMedia barcode update).isDrive = st.isDrive := by
  unfold updateAmlMedia
  split <;> rfl

@[simp] theorem mounts_updateAmlMedia (update : AmlMedia → AmlMedia) :
    (st.updateAmlMedia barcode update).mounts = st.mounts := by
  unfold updateAmlMedia
  split <;> rfl

theorem loadedIn_updateAmlDrive (update : AmlDrive → AmlDrive) (other : String) :
    (st.updateAmlDrive name update).loadedIn other =
      if name = other then (st.drives.get? name).bind fun drive => (update drive).loadedMedia.map LoadedMedia.barcode
      else st.loadedIn other := by
  unfold updateAmlDrive loadedIn
  split
  · rename_i hget
    split
    · rename_i hn
      rw [← hn, hget]
      rfl
    · rfl
  · rename_i drive hget
    rw [Dict.get?_set, hget]
    split <;> rfl

@[simp] theorem media_updateAmlDrive (update : AmlDrive → AmlDrive) :
    (st.updateAmlDrive name update).media = st.media := by
  unfold updateAmlDrive
  split <;> rfl

@[simp] theorem slotAddress_updateAmlDrive (update : AmlDrive → AmlDrive) :
    (st.updateAmlDrive name update).slotAddress = st.slotAddress := by
  unfold updateAmlDrive
  split <;> rfl

@[simp] theorem isDrive_updateAmlDrive (update : AmlDrive → AmlDrive) :
    (st.updateAmlDrive name update).isDrive = st.isDrive := by
  funext other
  unfold updateAmlDrive isDrive
  split
  · rfl
  · rename_i drive hget
    rw [Dict.get?_set]
    split
    · rename_i hn
      rw [← hn, hget]
      rfl
    · rfl

@[simp] theorem mounts_updateAmlDrive (update : AmlDrive → AmlDrive) :
    (st.updateAmlDrive name update).mounts = st.mounts := by
  unfold updateAmlDrive
  split <;> rfl

end updates

/-! ### The invariant -/

/-- Each cartridge is in a drive or at home, and the mount records know where home is. -/
structure Homed (home : Barcode → Option String) (st : AmlState) : Prop where
  placed : ∀ barcode address, st.slotAddress barcode = some address →
    (home barcode = some address ∧ st.isDrive address = false) ∨ st.loadedIn address = some barcode
  loaded : ∀ name barcode, st.loadedIn name = some barcode → st.slotAddress barcode = some name
  mounts : ∀ entry ∈ st.mounts, home entry.2.barcode = some entry.2.previousSlot
  homes : ∀ barcode address, home barcode = some address → st.isDrive address = false ∧ address ≠ ""
  apart : ∀ barcode barcode' address, home barcode = some address → home barcode' = some address → barcode = barcode'

variable {home : Barcode → Option String} {st st' : AmlState} {barcode : Barcode} {name : String}

theorem Homed.of_atRest (h : st.AtRest) : st.Homed st.slotAddress where
  placed barcode address ha := .inl ⟨ha, (h.slots barcode address ha).1⟩
  loaded name barcode hb := by
    rw [h.empty] at hb
    cases hb
  mounts entry hentry := by
    rw [h.unmounted] at hentry
    cases hentry
  homes := h.slots
  apart := h.apart

/-- Cartridges that are in drives or at home are placed. -/
theorem Homed.toPlaced (h : st.Homed home) : st.Placed where
  loaded_iff name barcode hdrive := by
    refine ⟨h.loaded name barcode, fun ha => ?_⟩
    rcases h.placed barcode name ha with ⟨-, hno⟩ | hloaded
    · rw [hdrive] at hno
      cases hno
    · exact hloaded
  once name name' barcode hb hb' :=
    Option.some.inj ((h.loaded name barcode hb).symm.trans (h.loaded name' barcode hb'))
  apart barcode barcode' address ha ha' := by
    rcases h.placed barcode address ha with ⟨hhome, hno⟩ | hloaded
    · rcases h.placed barcode' address ha' with ⟨hhome', -⟩ | hloaded'
      · exact h.apart barcode barcode' address hhome hhome'
      · have hnone : st.drives.get? address = none := by simpa [isDrive] using hno
        simp [loadedIn, hnone] at hloaded'
    · rcases h.placed barcode' address ha' with ⟨-, hno⟩ | hloaded'
      · have hnone : st.drives.get? address = none := by simpa [isDrive] using hno
        simp [loadedIn, hnone] at hloaded
      · exact Option.some.inj (hloaded.symm.trans hloaded')

/-- A cartridge that rests is at home. -/
theorem Homed.rests (h : st.Homed home) {address : String} (hrests : st.Rests barcode address) : home barcode = some address := by
  obtain ⟨ha, hno⟩ := hrests
  rcases h.placed barcode address ha with ⟨hhome, -⟩ | hloaded
  · exact hhome
  · have hnone : st.drives.get? address = none := by simpa [isDrive] using hno
    simp [loadedIn, hnone] at hloaded

/-- The rows of a cartridge and of a drive are set, and no others. -/
structure Sets (st st' : AmlState) (barcode : Barcode) (name : String) (content : Option Barcode) (address : String) : Prop where
  isDrive : st'.isDrive = st.isDrive
  address : ∀ other, st'.slotAddress other = if barcode = other then some address else st.slotAddress other
  loaded : ∀ other, st'.loadedIn other = if name = other then content else st.loadedIn other

/-- A cartridge is put into a drive, or taken out of it to its home. -/
theorem Homed.sets {content : Option Barcode} {address : String} (h : st.Homed home)
    (hsets : Sets st st' barcode name content address) (htakes : st.Takes barcode name)
    (hto : (content = some barcode ∧ address = name) ∨ (content = none ∧ home barcode = some address))
    (hmounts : ∀ entry ∈ st'.mounts, home entry.2.barcode = some entry.2.previousSlot) : st'.Homed home where
  placed other a ha := by
    rw [hsets.address] at ha
    rw [hsets.isDrive, hsets.loaded]
    split at ha
    · rename_i hb
      rw [← hb, ← Option.some.inj ha]
      rcases hto with ⟨rfl, rfl⟩ | ⟨-, hhome⟩
      · exact .inr (if_pos rfl)
      · exact .inl ⟨hhome, (h.homes barcode address hhome).1⟩
    · rename_i hb
      rcases h.placed other a ha with hhome | hloaded
      · exact .inl hhome
      · refine .inr ?_
        rw [if_neg]
        · exact hloaded
        · intro hn
          exact hb (htakes.1 other (hn ▸ hloaded)).symm
  loaded other c hc := by
    rw [hsets.loaded] at hc
    rw [hsets.address]
    split at hc
    · rename_i hn
      rcases hto with ⟨rfl, rfl⟩ | ⟨rfl, -⟩
      · rw [if_pos (Option.some.inj hc), hn]
      · cases hc
    · rename_i hn
      rw [if_neg]
      · exact h.loaded other c hc
      · intro hb
        exact hn (htakes.name_eq (hb ▸ hc)).symm
  mounts := hmounts
  homes := by
    rw [hsets.isDrive]
    exact h.homes
  apart := h.apart

/-- A drive that holds nothing else is written, and a cartridge moved: the two updates of every call. -/
theorem sets_updates {content : Option LoadedMedia} {address : String} {toDrive : AmlDrive → AmlDrive}
    {toMedia : AmlMedia → AmlMedia} (hdrive : st.isDrive name = true ∨ content = none) (hmedia : (st.slotAddress barcode).isSome = true)
    (hcontent : ∀ drive, (toDrive drive).loadedMedia = content) (haddress : ∀ media, (toMedia media).slotAddress = address) :
    Sets st ((st.updateAmlDrive name toDrive).updateAmlMedia barcode toMedia) barcode name
      (content.map LoadedMedia.barcode) address where
  isDrive := by rw [isDrive_updateAmlMedia, isDrive_updateAmlDrive]
  address other := by
    rw [slotAddress_updateAmlMedia, media_updateAmlDrive, slotAddress_updateAmlDrive]
    obtain ⟨a, ha⟩ := Option.isSome_iff_exists.1 hmedia
    obtain ⟨media, hget, -⟩ := Option.map_eq_some_iff.1 ha
    rw [hget, Option.map_some, haddress]
  loaded other := by
    rw [loadedIn_updateAmlMedia, loadedIn_updateAmlDrive]
    rcases hdrive with hdrive | rfl
    · obtain ⟨drive, hget⟩ := Option.isSome_iff_exists.1 hdrive
      rw [hget, Option.bind_some, hcontent]
    · cases st.drives.get? name with
      | none => rfl
      | some drive => rw [Option.bind_some, hcontent]

/-! ### The calls -/

/-- What a `/mount` request that passes its checks has found. -/
theorem checkMount_ok {request : MountRequest} {target : MountTarget} (h : st.checkMount request = .ok target) :
    st.media.get? target.barcode = some target.media ∧ st.isDrive target.drive = true ∧ st.loadedIn target.drive = none := by
  obtain ⟨_, -, h⟩ := bind_eq_ok.1 h
  obtain ⟨barcode, -, h⟩ := bind_eq_ok.1 h
  obtain ⟨driveName, -, h⟩ := bind_eq_ok.1 h
  obtain ⟨partition, -, h⟩ := bind_eq_ok.1 h
  obtain ⟨media, hmedia, h⟩ := bind_eq_ok.1 h
  obtain ⟨drive, hdrive, h⟩ := bind_eq_ok.1 h
  split at h
  · split at h
    · cases h
    · rename_i hfree
      split at h
      · cases h
      · rw [← Except.ok.inj h]
        unfold getMediaOr404 at hmedia
        unfold getDriveOr404 at hdrive
        split at hmedia
        · cases hmedia
        · rename_i hgetMedia
          split at hdrive
          · cases hdrive
          · rename_i hgetDrive
            rw [Except.ok.inj hmedia] at hgetMedia
            rw [Except.ok.inj hdrive] at hgetDrive
            refine ⟨hgetMedia, by simp [isDrive, hgetDrive], ?_⟩
            simpa [loadedIn, hgetDrive] using hfree
  · cases h

/-- What an `/unmount` request that passes its checks has found. -/
theorem checkUnmount_ok {request : UnmountRequest} {mount : AmlMount}
    (h : st.checkUnmount request = .ok (barcode, name, mount)) :
    (st.slotAddress barcode).isSome = true ∧ st.isDrive name = true ∧
      (∃ id, (id, mount) ∈ st.mounts) ∧ mount.barcode = barcode := by
  obtain ⟨_, -, h⟩ := bind_eq_ok.1 h
  obtain ⟨barcode', -, h⟩ := bind_eq_ok.1 h
  obtain ⟨driveName, -, h⟩ := bind_eq_ok.1 h
  obtain ⟨media, hmedia, h⟩ := bind_eq_ok.1 h
  obtain ⟨drive, hdrive, h⟩ := bind_eq_ok.1 h
  split at h
  · cases h
  · rename_i found hfind
    obtain ⟨rfl, rfl, rfl⟩ : barcode' = barcode ∧ driveName = name ∧ found = mount := by simpa using Except.ok.inj h
    unfold getMediaOr404 at hmedia
    unfold getDriveOr404 at hdrive
    split at hmedia
    · cases hmedia
    · rename_i hgetMedia
      split at hdrive
      · cases hdrive
      · rename_i hgetDrive
        have hmem := List.mem_of_find?_eq_some hfind
        obtain ⟨entry, hentry, rfl⟩ := List.mem_map.1 hmem
        have hentry' := (List.perm_insertionSort _ _).mem_iff.1 hentry
        have hmatch := List.find?_some hfind
        simp only [decide_eq_true_eq] at hmatch
        exact ⟨by simp [slotAddress, hgetMedia], by simp [isDrive, hgetDrive], ⟨entry.1, hentry'⟩, hmatch.1⟩

theorem Homed.setAmlMount {mount : AmlMount} (h : st.Homed home) (hhome : home mount.barcode = some mount.previousSlot) :
    (st.setAmlMount mount).Homed home := by
  refine ⟨h.placed, h.loaded, fun entry hentry => ?_, h.homes, h.apart⟩
  rcases Dict.mem_set hentry with hentry | rfl
  · exact h.mounts entry hentry
  · exact hhome

theorem Homed.popAmlMount (h : st.Homed home) (id : String) : (st.popAmlMount id).Homed home :=
  ⟨h.placed, h.loaded, fun entry hentry => h.mounts entry (List.mem_of_mem_filter hentry), h.homes, h.apart⟩

theorem Homed.createMount (h : st.Homed home) {request : MountRequest} (jobId now : String)
    (hconsults : st.Consults home (.mount request jobId now)) :
    (st.createMount request jobId now).2.Homed home := by
  unfold AmlState.createMount
  cases hcheck : st.checkMount request with
  | error e => exact h
  | ok target =>
    obtain ⟨hmedia, hdrive, hempty⟩ := checkMount_ok hcheck
    have hout : ∀ name, st.loadedIn name ≠ some target.barcode := fun name hname =>
      hconsults target (by rw [hcheck]; rfl) name (mem_drives_of_loadedIn hname) hname
    have haddress : st.slotAddress target.barcode = some target.media.slotAddress := by rw [slotAddress, hmedia, Option.map_some]
    have hhome : home target.barcode = some target.media.slotAddress := by
      rcases h.placed _ _ haddress with ⟨hhome, -⟩ | hloaded
      · exact hhome
      · exact absurd hloaded (hout _)
    have htakes : st.Takes target.barcode target.drive := by
      constructor
      · intro other hother
        rw [hempty] at hother
        cases hother
      · intro other _ hother
        exact absurd hother (hout other)
    refine Homed.setAmlMount (h.sets (sets_updates (.inl hdrive) ?_ (fun _ => rfl) fun _ => rfl) htakes (.inl ⟨rfl, rfl⟩) ?_) hhome
    · rw [haddress]
      rfl
    · rw [mounts_updateAmlMedia, mounts_updateAmlDrive]
      exact h.mounts

theorem Homed.createUnmount (h : st.Homed home) {request : UnmountRequest}
    (hconsults : st.Consults home (.unmount request)) :
    (st.createUnmount request).2.Homed home := by
  unfold AmlState.createUnmount
  cases hcheck : st.checkUnmount request with
  | error e => exact h
  | ok found =>
    obtain ⟨barcode, name, mount⟩ := found
    obtain ⟨hmedia, hdrive, ⟨id, hmem⟩, rfl⟩ := checkUnmount_ok hcheck
    have hin : st.loadedIn name = some mount.barcode := hconsults (mount.barcode, name, mount) (by rw [hcheck]; rfl)
    have hhome : home mount.barcode = some mount.previousSlot := h.mounts _ hmem
    have hslot : mount.previousSlot ≠ "" := (h.homes _ _ hhome).2
    have hpop : (st.popAmlMount mount.id).Homed home := h.popAmlMount mount.id
    simp only [if_neg hslot]
    refine hpop.sets (sets_updates (.inl hdrive) hmedia (fun _ => rfl) fun _ => rfl) ⟨?_, ?_⟩ (.inr ⟨rfl, hhome⟩) ?_
    · intro other hother
      exact Option.some.inj (hother.symm.trans hin)
    · intro other _ hother
      exact Option.some.inj ((h.loaded _ _ hother).symm.trans (h.loaded _ _ hin))
    · intro entry hentry
      rw [mounts_updateAmlMedia, mounts_updateAmlDrive] at hentry
      exact hpop.mounts entry hentry

theorem updateAmlMedia_of_unknown {update : AmlMedia → AmlMedia} (h : ¬(st.slotAddress barcode).isSome = true) :
    st.updateAmlMedia barcode update = st := by
  have hget : st.media.get? barcode = none := by simpa [slotAddress] using h
  unfold updateAmlMedia
  rw [hget]

theorem updateAmlDrive_of_unknown {update : AmlDrive → AmlDrive} (h : ¬st.isDrive name = true) :
    st.updateAmlDrive name update = st := by
  have hget : st.drives.get? name = none := by simpa [isDrive] using h
  unfold updateAmlDrive
  rw [hget]

theorem Homed.markAmlDriveBusy (h : st.Homed home) {driveId : Int} (now : String)
    (hconsults : st.Consults home (.markBusy barcode driveId now)) :
    (st.markAmlDriveBusy barcode driveId now).Homed home := by
  unfold AmlState.markAmlDriveBusy
  by_cases hknown : st.isDrive (amlDriveName driveId) = true ∨ (st.slotAddress barcode).isSome = true
  · obtain ⟨hdrive, hmedia, htakes⟩ := hconsults hknown
    refine h.sets (sets_updates (.inl hdrive) hmedia (fun _ => rfl) fun _ => rfl) htakes (.inl ⟨rfl, rfl⟩) ?_
    rw [mounts_updateAmlMedia, mounts_updateAmlDrive]
    exact h.mounts
  · obtain ⟨hdrive, hmedia⟩ := not_or.1 hknown
    simp only [updateAmlDrive_of_unknown hdrive, updateAmlMedia_of_unknown hmedia]
    exact h

/-- A drive that holds nothing is marked idle. -/
theorem Homed.emptied (h : st.Homed home) {update : AmlDrive → AmlDrive} (hnone : ∀ drive, (update drive).loadedMedia = none)
    (hempty : st.loadedIn name = none) : (st.updateAmlDrive name update).Homed home := by
  have hloaded : (st.updateAmlDrive name update).loadedIn = st.loadedIn := by
    funext other
    rw [loadedIn_updateAmlDrive]
    split
    · rename_i hn
      rw [← hn, hempty]
      cases st.drives.get? name with
      | none => rfl
      | some drive => rw [Option.bind_some, hnone]; rfl
    · rfl
  refine ⟨?_, ?_, ?_, ?_, h.apart⟩
  · rw [hloaded, slotAddress_updateAmlDrive, isDrive_updateAmlDrive]
    exact h.placed
  · rw [hloaded, slotAddress_updateAmlDrive]
    exact h.loaded
  · rw [mounts_updateAmlDrive]
    exact h.mounts
  · rw [isDrive_updateAmlDrive]
    exact h.homes

theorem Homed.markAmlDriveIdle (h : st.Homed home) {driveId : Int} {slotId : Option Int}
    (hconsults : st.Consults home (.markIdle barcode driveId slotId)) :
    (st.markAmlDriveIdle barcode driveId slotId).Homed home := by
  unfold AmlState.markAmlDriveIdle
  -- A cartridge without a row is in no drive.
  have hrow : st.loadedIn (amlDriveName driveId) = some barcode → (st.slotAddress barcode).isSome = true := by
    intro hin
    rw [h.loaded _ _ hin]
    rfl
  cases slotId with
  | none =>
    obtain ⟨hother, hslot⟩ := hconsults
    refine h.emptied (fun _ => rfl) (Option.eq_none_iff_forall_not_mem.2 fun other hin => ?_)
    have hb := hother other hin
    subst hb
    exact hslot (hrow hin) hin
  | some slotId =>
    obtain ⟨hother, hslot⟩ := hconsults
    by_cases hmedia : (st.slotAddress barcode).isSome = true
    · obtain ⟨hhome, htakes⟩ := hslot hmedia
      refine h.sets (sets_updates (.inr rfl) hmedia (fun _ => rfl) fun _ => rfl) htakes (.inr ⟨rfl, hhome⟩) ?_
      rw [mounts_updateAmlMedia, mounts_updateAmlDrive]
      exact h.mounts
    · have hknown : ¬((st.updateAmlDrive (amlDriveName driveId) fun drive =>
          { drive with state := "idle", loadedMedia := none }).slotAddress barcode).isSome = true := by
        rw [slotAddress_updateAmlDrive]
        exact hmedia
      simp only [updateAmlMedia_of_unknown hknown]
      refine h.emptied (fun _ => rfl) (Option.eq_none_iff_forall_not_mem.2 fun other hin => ?_)
      have hb := hother other hin
      subst hb
      exact hmedia (hrow hin)

/-- Step lemma: every call that finds the rows as it needs them keeps the cartridges in their drives or at home. -/
theorem Homed.call (h : st.Homed home) {call : AmlCall} (hconsults : st.Consults home call) : (st.call call).2.Homed home := by
  cases call with
  | mount request jobId now => exact h.createMount jobId now hconsults
  | unmount request => exact h.createUnmount hconsults
  | markBusy barcode driveId now => exact h.markAmlDriveBusy now hconsults
  | markIdle barcode driveId slotId => exact h.markAmlDriveIdle hconsults

/-- Run lemma. -/
theorem Homed.after {start : AmlState} (h : start.Homed home) {calls : List AmlCall}
    (hconsults : (amlEmulator start).Meets (Consults home) start calls) :
    AmlState.Homed home ((amlEmulator start).after start calls) :=
  Automaton.Meets.keeps (M := amlEmulator start) (I := AmlState.Homed home)
    (fun _ _ hst hcall => AmlState.Homed.call hst hcall) hconsults h

end AmlState

/-- In every run of requests and marks from an emulator at rest, each of which finds the rows it overwrites as the other writer
left them, the rows of cartridges and drives agree in every state reached, and a cartridge that is out of the drives is where it
was whenever it was out of them before. -/
theorem placement_consistent (start : AmlState) (calls : List AmlCall) (hstart : start.AtRest)
    (hconsults : (amlEmulator start).Meets (AmlState.Consults start.slotAddress) start calls) :
    AmlState.Placed ((amlEmulator start).after start calls) ∧
      ∀ earlier later barcode before now, calls = earlier ++ later →
        AmlState.Rests ((amlEmulator start).after start earlier) barcode before →
          AmlState.Rests ((amlEmulator start).after start calls) barcode now → now = before := by
  have hhomed := AmlState.Homed.of_atRest hstart
  refine ⟨(hhomed.after hconsults).toPlaced, ?_⟩
  rintro earlier later barcode before now rfl hbefore hnow
  have hthen := hhomed.after (Automaton.meets_append.1 hconsults).1
  exact Option.some.inj (((hhomed.after hconsults).rests hnow).symm.trans (hthen.rests hbefore))

/-- Two cartridges in their slots, and two empty drives. -/
def twoDrives : AmlState where
  media := [("TAPE0001", { slotAddress := "1,1,1" }), ("TAPE0002", { slotAddress := "1,1,2" })]
  drives := [("DRV-001", {}), ("DRV-002", {})]

theorem atRest_twoDrives : twoDrives.AtRest := by
  have hmedia : ∀ barcode address, twoDrives.slotAddress barcode = some address →
      (barcode, address) ∈ [("TAPE0001", "1,1,1"), ("TAPE0002", "1,1,2")] := by
    intro barcode address ha
    obtain ⟨media, hget, rfl⟩ := Option.map_eq_some_iff.1 ha
    have hmem := Dict.mem_of_get? hget
    simp only [twoDrives, List.mem_cons, Prod.mk.injEq, List.not_mem_nil, or_false] at hmem
    rcases hmem with ⟨rfl, rfl⟩ | ⟨rfl, rfl⟩ <;> simp
  refine ⟨fun name => ?_, fun barcode address ha => ?_, fun barcode barcode' address ha ha' => ?_, rfl⟩
  · cases hget : twoDrives.drives.get? name with
    | none => simp [AmlState.loadedIn, hget]
    | some drive =>
      have hmem := Dict.mem_of_get? hget
      simp only [twoDrives, List.mem_cons, Prod.mk.injEq, List.not_mem_nil, or_false] at hmem
      rcases hmem with ⟨-, rfl⟩ | ⟨-, rfl⟩ <;> simp [AmlState.loadedIn, hget]
  · have hmem := hmedia barcode address ha
    simp only [List.mem_cons, Prod.mk.injEq, List.not_mem_nil, or_false] at hmem
    rcases hmem with ⟨-, rfl⟩ | ⟨-, rfl⟩ <;> decide +kernel
  · have hmem := hmedia barcode address ha
    have hmem' := hmedia barcode' address ha'
    simp only [List.mem_cons, Prod.mk.injEq, List.not_mem_nil, or_false] at hmem hmem'
    rcases hmem with ⟨rfl, rfl⟩ | ⟨rfl, rfl⟩ <;> rcases hmem' with ⟨rfl, h⟩ | ⟨rfl, h⟩
    · rfl
    · exact absurd h (by decide)
    · exact absurd h (by decide)
    · rfl

/-- A request and a job side by side, each with a drive of its own. -/
def twoDrivesCalls : List AmlCall :=
  [.mount { barcode := "TAPE0001", drive := "DRV-001" } "job-1" "now", .markBusy "TAPE0002" 1 "now",
    .unmount { barcode := "TAPE0001", drive := "DRV-001" }, .markIdle "TAPE0002" 1 (some 2)]

theorem placement_consistent_twoDrives :
    AmlState.Placed ((amlEmulator twoDrives).after twoDrives twoDrivesCalls) :=
  (placement_consistent twoDrives twoDrivesCalls atRest_twoDrives
    ⟨by decide +kernel, by decide +kernel, by decide +kernel, by decide +kernel, trivial⟩).1

/-- A drive in which a cartridge is mounted is marked busy for another: both have the address of the drive. -/
theorem busy_mark_overwrites_mount :
    ¬AmlState.Placed ((amlEmulator twoDrives).after twoDrives
      [.mount { barcode := "TAPE0001", drive := "DRV-001" } "job-1" "now", .markBusy "TAPE0002" 0 "now"]) := by
  intro hplaced
  have haddress : AmlState.slotAddress ((amlEmulator twoDrives).after twoDrives
      [.mount { barcode := "TAPE0001", drive := "DRV-001" } "job-1" "now", .markBusy "TAPE0002" 0 "now"]) "TAPE0001" =
        some "DRV-001" := by decide +kernel
  have haddress' : AmlState.slotAddress ((amlEmulator twoDrives).after twoDrives
      [.mount { barcode := "TAPE0001", drive := "DRV-001" } "job-1" "now", .markBusy "TAPE0002" 0 "now"]) "TAPE0002" =
        some "DRV-001" := by decide +kernel
  have hone := hplaced.apart _ _ _ haddress haddress'
  exact absurd hone (by decide)

end OpenBlade
