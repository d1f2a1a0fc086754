import OpenBlade.Catalog.Frames
import OpenBlade.Jobs.Archive

/-!
# Tapes and volume groups, by the tables

A tape that holds instances belongs to the volume group of their files. What a write to a table does to that, when it is made for a
file and a tape of one group.
-/

namespace OpenBlade

/-- States of a cartridge that nothing is to be written to. -/
def outOfUse : List String := ["exported", "missing", "cleaning"]

namespace Catalog

/-- The cartridge belongs to the volume group and is in use. -/
def Ours (cat : Catalog) (vgId : Nat) (barcode : Barcode) : Prop :=
  ∃ cartridge, cat.getCartridge barcode = some cartridge ∧ cartridge.volumeGroupId = some vgId ∧ cartridge.state ∉ outOfUse

/-- A cartridge that holds an archived instance holds only instances of files of the volume group it belongs to. -/
def TapesIsolated (cat : Catalog) : Prop :=
  ∀ row ∈ cat.instances, row.state = .archived → ∃ cartridge ∈ cat.getCartridge row.barcode, ∃ vgId ∈ cartridge.volumeGroupId,
    ∀ other ∈ cat.instances, other.barcode = row.barcode → ∃ record ∈ cat.records, record.id = other.fileRecordId ∧
      record.volumeGroupId = vgId

instance (cat : Catalog) : Decidable cat.TapesIsolated :=
  inferInstanceAs (Decidable (∀ row ∈ cat.instances, row.state = .archived → ∃ cartridge ∈ cat.getCartridge row.barcode,
    ∃ vgId ∈ cartridge.volumeGroupId, ∀ other ∈ cat.instances, other.barcode = row.barcode →
      ∃ record ∈ cat.records, record.id = other.fileRecordId ∧ record.volumeGroupId = vgId))

/-- Every instance, archived or not, is on a cartridge of the volume group of its file; keys are drawn upwards, and a barcode has one
row. -/
structure Segregated (cat : Catalog) : Prop where
  keys : ∀ record ∈ cat.records, record.id < cat.nextId
  named : ∀ group ∈ cat.volumeGroups, group.id < cat.nextId
  rows : ∀ cartridge ∈ cat.cartridges, cat.getCartridge cartridge.barcode = some cartridge
  groups : ∀ cartridge ∈ cat.cartridges, ∀ vgId ∈ cartridge.volumeGroupId, vgId < cat.nextId
  known : ∀ row ∈ cat.instances, ∃ record ∈ cat.records, record.id = row.fileRecordId
  own : ∀ row ∈ cat.instances, ∀ record ∈ cat.records, record.id = row.fileRecordId →
    ∃ cartridge, cat.getCartridge row.barcode = some cartridge ∧ cartridge.volumeGroupId = some record.volumeGroupId

/-- No tape that an archive job of the group may choose is marked missing or cleaning. -/
def NoneAway (cat : Catalog) (vgId : Nat) : Prop :=
  ∀ cartridge ∈ cat.cartridges, cartridge.state = "missing" ∨ cartridge.state = "cleaning" →
    isCleaningBarcode cartridge.barcode = true ∨ cartridge.volumeGroupId ∉ [none, some vgId]

/-- There is a record with this key, and it belongs to the group. -/
def RecordOf (cat : Catalog) (vgId id : Nat) : Prop :=
  (∃ record ∈ cat.records, record.id = id) ∧ ∀ record ∈ cat.records, record.id = id → record.volumeGroupId = vgId

theorem Segregated.isolated {cat : Catalog} (h : cat.Segregated) : cat.TapesIsolated := by
  intro row hrow _
  obtain ⟨record, hrecord, hid⟩ := h.known row hrow
  obtain ⟨cartridge, hcartridge, hgroup⟩ := h.own row hrow record hrecord hid
  refine ⟨cartridge, hcartridge, record.volumeGroupId, hgroup, fun other hother hbarcode => ?_⟩
  obtain ⟨record', hrecord', hid'⟩ := h.known other hother
  obtain ⟨cartridge', hcartridge', hgroup'⟩ := h.own other hother record' hrecord' hid'
  rw [hbarcode, hcartridge] at hcartridge'
  obtain rfl := Option.some.inj hcartridge'
  rw [hgroup] at hgroup'
  exact ⟨record', hrecord', hid', (Option.some.inj hgroup').symm⟩

/-! ### What a call of a job of the group leaves -/

/-- What a job of the group has found is still so. -/
structure Advances (name : String) (group : VolumeGroup) (cat cat' : Catalog) : Prop where
  named : cat.getVolumeGroup name = some group → cat'.getVolumeGroup name = some group
  ours : ∀ barcode, cat.Ours group.id barcode → cat'.Ours group.id barcode
  records : ∀ id, cat.RecordOf group.id id → cat'.RecordOf group.id id
  away : cat.NoneAway group.id → cat'.NoneAway group.id

variable {name : String} {group : VolumeGroup} {cat cat' cat'' : Catalog}

theorem Advances.refl (cat : Catalog) : Advances name group cat cat :=
  ⟨fun h => h, fun _ h => h, fun _ h => h, fun h => h⟩

theorem Advances.trans (h : Advances name group cat cat') (h' : Advances name group cat' cat'') : Advances name group cat cat'' :=
  ⟨fun hn => h'.named (h.named hn), fun b hb => h'.ours b (h.ours b hb), fun id hr => h'.records id (h.records id hr),
    fun ha => h'.away (h.away ha)⟩

/-- Cartridges, volume groups and records are as they were; instances are where they were, of the files they were of. -/
structure SamePlaces (cat cat' : Catalog) : Prop where
  cartridges : cat'.cartridges = cat.cartridges
  volumeGroups : cat'.volumeGroups = cat.volumeGroups
  records : cat'.records = cat.records
  instances : ∀ row ∈ cat'.instances, ∃ old ∈ cat.instances, old.fileRecordId = row.fileRecordId ∧ old.barcode = row.barcode
  nextId_le : cat.nextId ≤ cat'.nextId

theorem SamePlaces.of_rows (hc : cat'.cartridges = cat.cartridges) (hv : cat'.volumeGroups = cat.volumeGroups)
    (hr : cat'.records = cat.records) (hi : cat'.instances = cat.instances) (hn : cat.nextId ≤ cat'.nextId) : SamePlaces cat cat' :=
  ⟨hc, hv, hr, fun row hrow => ⟨row, hi ▸ hrow, rfl, rfl⟩, hn⟩

theorem SamePlaces.refl (cat : Catalog) : SamePlaces cat cat := .of_rows rfl rfl rfl rfl (Nat.le_refl _)

theorem SamePlaces.advances (h : SamePlaces cat cat') : Advances name group cat cat' := by
  refine ⟨fun hgroup => ?_, fun barcode hours => ?_, fun id hrecord => ?_, fun haway => ?_⟩
  · rwa [getVolumeGroup, h.volumeGroups]
  · rwa [Ours, getCartridge, h.cartridges]
  · rwa [RecordOf, h.records]
  · rwa [NoneAway, h.cartridges]

theorem SamePlaces.segregated (h : SamePlaces cat cat') (hseg : cat.Segregated) : cat'.Segregated := by
  refine ⟨fun record hrecord => ?_, fun group hgroup => ?_, fun cartridge hcartridge => ?_, fun cartridge hcartridge vgId hvg => ?_,
    fun row hrow => ?_, fun row hrow record hrecord hid => ?_⟩
  · rw [h.records] at hrecord
    exact (hseg.keys record hrecord).trans_le h.nextId_le
  · rw [h.volumeGroups] at hgroup
    exact (hseg.named group hgroup).trans_le h.nextId_le
  · rw [getCartridge, h.cartridges] at *
    exact hseg.rows cartridge hcartridge
  · rw [h.cartridges] at hcartridge
    exact (hseg.groups cartridge hcartridge vgId hvg).trans_le h.nextId_le
  · obtain ⟨old, hold, hfile, -⟩ := h.instances row hrow
    rw [h.records, ← hfile]
    exact hseg.known old hold
  · obtain ⟨old, hold, hfile, hbarcode⟩ := h.instances row hrow
    rw [h.records] at hrecord
    rw [getCartridge, h.cartridges, ← hbarcode]
    exact hseg.own old hold record hrecord (hid.trans hfile.symm)

/-! #### Records -/

/-- The rows of the records after a write: the one that is written is in the group, the others are as they were. -/
theorem mem_createFileRecord (hkeys : ∀ record ∈ cat.records, record.id < cat.nextId) {now : Int} {fields : FileRecordFields}
    {record : FileRecord} (h : record ∈ (cat.createFileRecord now fields).2.records) :
    (record ∈ cat.records ∧ record.id ≠ (cat.createFileRecord now fields).1.id) ∨
      (record.volumeGroupId = fields.vgId ∧ record.id = (cat.createFileRecord now fields).1.id) := by
  unfold createFileRecord at h ⊢
  cases hold : cat.getFileRecord fields.path with
  | none =>
    rw [hold] at h
    rcases List.mem_append.1 h with h | h
    · exact .inl ⟨h, Nat.ne_of_lt (hkeys record h)⟩
    · obtain rfl := List.mem_singleton.1 h
      exact .inr ⟨rfl, rfl⟩
  | some old =>
    rw [hold] at h
    obtain ⟨r, hr, rfl⟩ := List.mem_map.1 h
    by_cases hid : r.id = old.id
    · rw [if_pos hid]
      exact .inr ⟨rfl, hid⟩
    · rw [if_neg hid]
      exact .inl ⟨hr, hid⟩

/-- Every record stays under its key, and the one that is written is there. -/
theorem id_createFileRecord (now : Int) (fields : FileRecordFields) {id : Nat}
    (h : (∃ record ∈ cat.records, record.id = id) ∨ id = (cat.createFileRecord now fields).1.id) :
    ∃ record ∈ (cat.createFileRecord now fields).2.records, record.id = id := by
  unfold createFileRecord at h ⊢
  cases hold : cat.getFileRecord fields.path with
  | none =>
    rw [hold] at h
    rcases h with ⟨record, hrecord, hid⟩ | h
    · exact ⟨record, List.mem_append_left _ hrecord, hid⟩
    · exact ⟨_, List.mem_append_right _ List.mem_cons_self, h.symm⟩
  | some old =>
    rw [hold] at h
    have hthere : ∃ record ∈ cat.records, record.id = id := by
      rcases h with h | rfl
      · exact h
      · exact ⟨old, List.mem_of_find?_eq_some hold, rfl⟩
    obtain ⟨record, hrecord, hid⟩ := hthere
    refine ⟨_, List.mem_map_of_mem hrecord, ?_⟩
    split
    · exact hid
    · exact hid

/-- A write of a record for the group, of a path whose record is the group's or has no instances. -/
theorem createFileRecord_group (hseg : cat.Segregated) {now : Int} {fields : FileRecordFields} (hvg : fields.vgId = group.id)
    (hown : ∀ record, cat.getFileRecord fields.path = some record →
      record.volumeGroupId = fields.vgId ∨ ∀ row ∈ cat.instances, row.fileRecordId ≠ record.id) :
    (cat.createFileRecord now fields).2.Segregated ∧ Advances name group cat (cat.createFileRecord now fields).2 ∧
      (cat.createFileRecord now fields).2.RecordOf group.id (cat.createFileRecord now fields).1.id := by
  obtain ⟨hinstances, -, hnext⟩ := createFileRecord_frame cat now fields
  have hsame : (cat.createFileRecord now fields).2.cartridges = cat.cartridges ∧
      (cat.createFileRecord now fields).2.volumeGroups = cat.volumeGroups := by
    unfold createFileRecord
    split <;> exact ⟨rfl, rfl⟩
  have hwritten : ∀ record ∈ (cat.createFileRecord now fields).2.records, record.id = (cat.createFileRecord now fields).1.id →
      record.volumeGroupId = group.id := by
    intro record hrecord hid
    rcases mem_createFileRecord hseg.keys hrecord with ⟨-, hne⟩ | ⟨hgroup, -⟩
    · exact absurd hid hne
    · exact hgroup.trans hvg
  have hkey : (cat.createFileRecord now fields).1.id < (cat.createFileRecord now fields).2.nextId := by
    unfold createFileRecord
    cases hold : cat.getFileRecord fields.path with
    | none => exact Nat.lt_succ_self _
    | some old => exact hseg.keys old (List.mem_of_find?_eq_some hold)
  refine ⟨⟨fun record hrecord => ?_, fun other hother => ?_, fun cartridge hcartridge => ?_, fun cartridge hcartridge vgId hvgId => ?_,
      fun row hrow => ?_, fun row hrow record hrecord hid => ?_⟩,
    ⟨fun hgroup => ?_, fun barcode hours => ?_, fun id hrecord => ⟨id_createFileRecord now fields (.inl hrecord.1), ?_⟩, fun haway => ?_⟩,
    id_createFileRecord now fields (.inr rfl), hwritten⟩
  · rcases mem_createFileRecord hseg.keys hrecord with ⟨hold, -⟩ | ⟨-, hid⟩
    · exact (hseg.keys record hold).trans_le hnext
    · exact hid ▸ hkey
  · rw [hsame.2] at hother
    exact (hseg.named other hother).trans_le hnext
  · rw [hsame.1] at hcartridge
    rw [getCartridge, hsame.1]
    exact hseg.rows cartridge hcartridge
  · rw [hsame.1] at hcartridge
    exact (hseg.groups cartridge hcartridge vgId hvgId).trans_le hnext
  · rw [hinstances] at hrow
    exact id_createFileRecord now fields (.inl (hseg.known row hrow))
  · rw [hinstances] at hrow
    rw [getCartridge, hsame.1]
    rcases mem_createFileRecord hseg.keys hrecord with ⟨hold, -⟩ | ⟨hgroup, hwas⟩
    · exact hseg.own row hrow record hold hid
    · -- the row is of the record that is written: it was there, and the group's already
      obtain ⟨old, hold, hold'⟩ := hseg.known row hrow
      obtain ⟨cartridge, hcartridge, howner⟩ := hseg.own row hrow old hold hold'
      cases hpath : cat.getFileRecord fields.path with
      | none =>
        have hnew : (cat.createFileRecord now fields).1.id = cat.nextId := by
          rw [createFileRecord, hpath]
          rfl
        have hlt := hseg.keys old hold
        omega
      | some found =>
        have hfound : (cat.createFileRecord now fields).1.id = found.id := by
          rw [createFileRecord, hpath]
          rfl
        have hrowfound : row.fileRecordId = found.id := hid.symm.trans (hwas.trans hfound)
        obtain ⟨cartridge', hcartridge', howner'⟩ :=
          hseg.own row hrow found (List.mem_of_find?_eq_some hpath) hrowfound.symm
        rcases hown found hpath with hsamegroup | hnone
        · exact ⟨cartridge', hcartridge', by rw [howner', hsamegroup, hgroup]⟩
        · exact absurd hrowfound (hnone row hrow)
  · rwa [getVolumeGroup, hsame.2]
  · rwa [Ours, getCartridge, hsame.1]
  · intro record hnew hid
    rcases mem_createFileRecord hseg.keys hnew with ⟨hold, -⟩ | ⟨hgroup, -⟩
    · exact hrecord.2 record hold hid
    · exact hgroup.trans hvg
  · rwa [NoneAway, hsame.1]

/-! #### Instances -/

/-- A new instance of a file of the group, on a cartridge of the group. -/
theorem insertInstance_group (hseg : cat.Segregated) {now : Int} {fileRecordId : Nat} {barcode : Barcode} {tapePath : String}
    {state : FileInstanceState} (hrecord : cat.RecordOf group.id fileRecordId) (hours : cat.Ours group.id barcode) :
    (cat.insertInstance now fileRecordId barcode tapePath state).2.Segregated ∧
      Advances name group cat (cat.insertInstance now fileRecordId barcode tapePath state).2 := by
  refine ⟨⟨fun record h => Nat.lt_succ_of_lt (hseg.keys record h), fun other h => Nat.lt_succ_of_lt (hseg.named other h), hseg.rows,
    fun cartridge h vgId hvg => Nat.lt_succ_of_lt (hseg.groups cartridge h vgId hvg), fun row hrow => ?_, fun row hrow record h hid => ?_⟩,
    ⟨fun h => h, fun _ h => h, fun _ h => h, fun h => h⟩⟩
  · rcases List.mem_append.1 hrow with hrow | hrow
    · exact hseg.known row hrow
    · rw [List.mem_singleton.1 hrow]
      exact hrecord.1
  · rcases List.mem_append.1 hrow with hrow | hrow
    · exact hseg.own row hrow record h hid
    · rw [List.mem_singleton.1 hrow] at hid ⊢
      obtain ⟨cartridge, hcartridge, hgroup, -⟩ := hours
      exact ⟨cartridge, hcartridge, by rw [hgroup, hrecord.2 record h hid]⟩

/-- An instance is staged; the journal says so. -/
theorem createStagedInstance_group (hseg : cat.Segregated) {now : Int} {jobId : JobId} {fileRecordId : Nat} {barcode : Barcode}
    {tapePath : String} (hrecord : cat.RecordOf group.id fileRecordId) (hours : cat.Ours group.id barcode) :
    (cat.createStagedInstance now jobId fileRecordId barcode tapePath).2.Segregated ∧
      Advances name group cat (cat.createStagedInstance now jobId fileRecordId barcode tapePath).2 := by
  have hinsert : (cat.insertInstance now fileRecordId barcode tapePath .staging).2.Segregated ∧
      Advances name group cat (cat.insertInstance now fileRecordId barcode tapePath .staging).2 :=
    insertInstance_group hseg hrecord hours
  obtain ⟨hins, hadv⟩ := hinsert
  unfold createStagedInstance
  cases cat.getFileRecordById fileRecordId with
  | none => exact ⟨hseg, .refl cat⟩
  | some record =>
    have hjournal : ∀ detail, SamePlaces (cat.insertInstance now fileRecordId barcode tapePath .staging).2
        ((cat.insertInstance now fileRecordId barcode tapePath .staging).2.appendJournal now jobId "shard_staged" detail) :=
      fun _ => .of_rows rfl rfl rfl rfl (Nat.le_refl _)
    exact ⟨(hjournal _).segregated hins, hadv.trans (hjournal _).advances⟩

/-! #### Cartridges -/

/-- A row of the table after an update: the one that was found under its barcode, or another as it was. -/
theorem mem_updateCartridge (hrows : ∀ cartridge ∈ cat.cartridges, cat.getCartridge cartridge.barcode = some cartridge)
    {barcode : Barcode} {f : Cartridge → Cartridge} {cartridge : Cartridge}
    (h : cartridge ∈ (cat.updateCartridge barcode f).cartridges) :
    (∃ old, cat.getCartridge barcode = some old ∧ cartridge = f old) ∨ cartridge ∈ cat.cartridges ∧ cartridge.barcode ≠ barcode := by
  obtain ⟨old, hold, rfl⟩ := List.mem_map.1 h
  by_cases hb : old.barcode = barcode
  · rw [if_pos hb]
    exact .inl ⟨old, hb ▸ hrows old hold, rfl⟩
  · rw [if_neg hb]
    exact .inr ⟨hold, hb⟩

theorem rows_updateCartridge (hrows : ∀ cartridge ∈ cat.cartridges, cat.getCartridge cartridge.barcode = some cartridge)
    {barcode : Barcode} {f : Cartridge → Cartridge} (hf : ∀ cartridge, cartridge.barcode = barcode → (f cartridge).barcode = barcode) :
    ∀ cartridge ∈ (cat.updateCartridge barcode f).cartridges,
      (cat.updateCartridge barcode f).getCartridge cartridge.barcode = some cartridge := by
  intro cartridge hcartridge
  rw [getCartridge_updateCartridge cat barcode _ hf]
  rcases mem_updateCartridge hrows hcartridge with ⟨old, hold, rfl⟩ | ⟨hmem, hne⟩
  · have hb := barcode_of_getCartridge hold
    rw [hf old hb, hold, Option.map_some, if_pos hb]
  · rw [hrows cartridge hmem, Option.map_some, if_neg hne]

/-- An update that takes no cartridge from its volume group. -/
theorem updateCartridge_segregated (hseg : cat.Segregated) {barcode : Barcode} {f : Cartridge → Cartridge}
    (hf : ∀ cartridge, cartridge.barcode = barcode → (f cartridge).barcode = barcode)
    (hown : ∀ cartridge, cat.getCartridge barcode = some cartridge → (f cartridge).volumeGroupId = cartridge.volumeGroupId ∨
      cartridge.volumeGroupId = none ∧ ∀ vgId ∈ (f cartridge).volumeGroupId, vgId < cat.nextId) :
    (cat.updateCartridge barcode f).Segregated := by
  refine ⟨hseg.keys, hseg.named, rows_updateCartridge hseg.rows hf, fun cartridge hcartridge vgId hvg => ?_, hseg.known,
    fun row hrow record hrecord hid => ?_⟩
  · rcases mem_updateCartridge hseg.rows hcartridge with ⟨old, hold, rfl⟩ | ⟨hmem, -⟩
    · rcases hown old hold with h | ⟨-, h⟩
      · exact hseg.groups old (List.mem_of_find?_eq_some hold) vgId (h ▸ hvg)
      · exact h vgId hvg
    · exact hseg.groups cartridge hmem vgId hvg
  · obtain ⟨cartridge, hcartridge, howner⟩ := hseg.own row hrow record hrecord hid
    rw [getCartridge_updateCartridge cat barcode row.barcode hf, hcartridge, Option.map_some]
    refine ⟨_, rfl, ?_⟩
    by_cases hb : cartridge.barcode = barcode
    · have hsame : row.barcode = barcode := (barcode_of_getCartridge hcartridge).symm.trans hb
      rw [if_pos hb]
      rcases hown cartridge (hsame ▸ hcartridge) with h | ⟨h, -⟩
      · rw [h, howner]
      · rw [h] at howner
        cases howner
    · rw [if_neg hb]
      exact howner

/-- An update of a cartridge of the group, or of none, that leaves it to the group and in use. -/
theorem updateCartridge_group (hseg : cat.Segregated) {barcode : Barcode} {f : Cartridge → Cartridge}
    (hf : ∀ cartridge, cartridge.barcode = barcode → (f cartridge).barcode = barcode)
    (hown : ∀ cartridge, cat.getCartridge barcode = some cartridge →
      (cartridge.volumeGroupId = none ∨ cartridge.volumeGroupId = some group.id) ∧
        (f cartridge).volumeGroupId = some group.id ∧ (f cartridge).state ∉ outOfUse) (hgroup : group.id < cat.nextId) :
    (cat.updateCartridge barcode f).Segregated ∧ Advances name group cat (cat.updateCartridge barcode f) := by
  refine ⟨updateCartridge_segregated hseg hf fun cartridge hcartridge => ?_,
    fun h => h, fun other hours => ?_, fun _ h => h, fun haway cartridge hcartridge hstate => ?_⟩
  · obtain ⟨hbefore, hafter, -⟩ := hown cartridge hcartridge
    rcases hbefore with hnone | hours
    · refine .inr ⟨hnone, fun vgId hvg => ?_⟩
      rw [hafter] at hvg
      exact Option.some.inj hvg ▸ hgroup
    · exact .inl (hafter.trans hours.symm)
  · obtain ⟨cartridge, hcartridge, howner, huse⟩ := hours
    rw [Ours, getCartridge_updateCartridge cat barcode other hf, hcartridge, Option.map_some]
    refine ⟨_, rfl, ?_⟩
    by_cases hb : cartridge.barcode = barcode
    · have hsame : other = barcode := (barcode_of_getCartridge hcartridge).symm.trans hb
      rw [if_pos hb]
      exact (hown cartridge (hsame ▸ hcartridge)).2
    · rw [if_neg hb]
      exact ⟨howner, huse⟩
  · rcases mem_updateCartridge hseg.rows hcartridge with ⟨old, hold, rfl⟩ | ⟨hmem, -⟩
    · refine absurd ?_ (hown old hold).2.2
      rcases hstate with hstate | hstate <;> rw [hstate] <;> decide
    · exact haway cartridge hmem hstate

/-- A cartridge that was not known, of the group or of none. -/
theorem newCartridge_group (hseg : cat.Segregated) {barcode : Barcode} (hnone : cat.getCartridge barcode = none) {vgId : Option Nat}
    (hvg : ∀ id, vgId = some id → id < cat.nextId) :
    ({ cat with cartridges := cat.cartridges ++ [{ barcode := barcode, volumeGroupId := vgId }] } : Catalog).Segregated ∧
      Advances name group cat { cat with cartridges := cat.cartridges ++ [{ barcode := barcode, volumeGroupId := vgId }] } := by
  have hget : ∀ barcode' cartridge, cat.getCartridge barcode' = some cartridge →
      ({ cat with cartridges := cat.cartridges ++ [{ barcode := barcode, volumeGroupId := vgId }] } : Catalog).getCartridge barcode' =
        some cartridge := by
    intro barcode' cartridge h
    unfold getCartridge at h ⊢
    rw [List.find?_append, h]
    rfl
  refine ⟨⟨hseg.keys, hseg.named, fun cartridge hcartridge => ?_, fun cartridge hcartridge id hid => ?_, hseg.known,
      fun row hrow record hrecord hid => ?_⟩,
    ⟨fun h => h, fun barcode' hours => ?_, fun _ h => h, fun haway cartridge hcartridge hstate => ?_⟩⟩
  · rcases List.mem_append.1 hcartridge with h | h
    · exact hget _ _ (hseg.rows cartridge h)
    · rw [List.mem_singleton.1 h]
      unfold getCartridge at hnone ⊢
      rw [List.find?_append, hnone]
      simp
  · rcases List.mem_append.1 hcartridge with h | h
    · exact hseg.groups cartridge h id hid
    · rw [List.mem_singleton.1 h] at hid
      exact hvg id hid
  · obtain ⟨cartridge, hcartridge, howner⟩ := hseg.own row hrow record hrecord hid
    exact ⟨cartridge, hget _ _ hcartridge, howner⟩
  · obtain ⟨cartridge, hcartridge, howner⟩ := hours
    exact ⟨cartridge, hget _ _ hcartridge, howner⟩
  · rcases List.mem_append.1 hcartridge with h | h
    · exact haway cartridge h hstate
    · rw [List.mem_singleton.1 h] at hstate
      have hslot : "in_slot" = "missing" ∨ "in_slot" = "cleaning" := hstate
      exact absurd hslot (by decide)

/-- A cartridge that is added to no group, or is there already. -/
theorem addCartridge_none (hseg : cat.Segregated) (barcode : Barcode) :
    (cat.addCartridge barcode none).2.Segregated ∧ Advances name group cat (cat.addCartridge barcode none).2 := by
  unfold addCartridge
  cases hget : cat.getCartridge barcode with
  | none => exact newCartridge_group hseg hget nofun
  | some cartridge => exact ⟨hseg, .refl _⟩

/-- Word of what has become of a cartridge. -/
theorem mark_segregated (hseg : cat.Segregated) (barcode : Barcode) (state : String) :
    ((cat.addCartridge barcode none).2.setCartridgeState barcode state).2.Segregated := by
  have hadded : (cat.addCartridge barcode none).2.Segregated ∧ Advances "" { id := 0, name := "" } cat (cat.addCartridge barcode none).2 :=
    addCartridge_none hseg barcode
  unfold setCartridgeState
  split
  · exact hadded.1
  · exact updateCartridge_segregated hadded.1 (fun _ h => h) fun _ _ => .inl rfl

/-! #### Volume groups -/

/-- A volume group that is new: nothing belongs to it yet. -/
theorem createVolumeGroup_new (hseg : cat.Segregated) (hnone : cat.getVolumeGroup name = none) :
    (cat.createVolumeGroup name).2.Segregated ∧ (cat.createVolumeGroup name).2.cartridges = cat.cartridges ∧
      (cat.createVolumeGroup name).2.getVolumeGroup name = some (cat.createVolumeGroup name).1 ∧
      ∀ cartridge ∈ cat.cartridges, cartridge.volumeGroupId ≠ some (cat.createVolumeGroup name).1.id := by
  have hcreate : cat.createVolumeGroup name = ({ id := cat.nextId, name := name },
      { cat with nextId := cat.nextId + 1, volumeGroups := cat.volumeGroups ++ [{ id := cat.nextId, name := name }] }) := by
    unfold createVolumeGroup
    rw [hnone]
  rw [hcreate]
  refine ⟨⟨fun record h => Nat.lt_succ_of_lt (hseg.keys record h), fun group h => ?_, hseg.rows,
    fun cartridge h vgId hvg => Nat.lt_succ_of_lt (hseg.groups cartridge h vgId hvg), hseg.known, hseg.own⟩, rfl, ?_, fun cartridge h hvg => ?_⟩
  · rcases List.mem_append.1 h with h | h
    · exact Nat.lt_succ_of_lt (hseg.named group h)
    · rw [List.mem_singleton.1 h]
      exact Nat.lt_succ_self _
  · unfold getVolumeGroup at hnone ⊢
    rw [List.find?_append, hnone]
    simp
  · exact Nat.lt_irrefl _ (hseg.groups cartridge h _ hvg)

end Catalog

end OpenBlade
