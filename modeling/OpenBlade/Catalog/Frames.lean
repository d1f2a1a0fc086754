import OpenBlade.Catalog.Repository

/-!
# What a method of the catalog leaves alone

Most methods write one table. `SameFiles` says that records, instances and leases are as they were and that row keys are drawn
upwards; the methods that write files say what they do to the instances.
-/

namespace OpenBlade

namespace Catalog

/-! ### The row of a cartridge -/

theorem barcode_of_getCartridge {cat : Catalog} {barcode : Barcode} {cartridge : Cartridge}
    (h : cat.getCartridge barcode = some cartridge) : cartridge.barcode = barcode := by
  unfold getCartridge at h
  simpa using List.find?_some h

/-- The row of a cartridge after an update. -/
theorem getCartridge_updateCartridge (cat : Catalog) (barcode other : Barcode) {f : Cartridge → Cartridge}
    (hf : ∀ cartridge, cartridge.barcode = barcode → (f cartridge).barcode = barcode) :
    (cat.updateCartridge barcode f).getCartridge other =
      (cat.getCartridge other).map fun cartridge => if cartridge.barcode = barcode then f cartridge else cartridge := by
  unfold updateCartridge getCartridge
  induction cat.cartridges with
  | nil => rfl
  | cons cartridge rest ih =>
    have hbarcode : (if cartridge.barcode = barcode then f cartridge else cartridge).barcode = cartridge.barcode := by
      by_cases h : cartridge.barcode = barcode
      · rw [if_pos h, hf cartridge h, h]
      · rw [if_neg h]
    rw [List.map_cons, List.find?_cons, List.find?_cons, hbarcode]
    split
    · rfl
    · exact ih

/-- The row that is added, or was there. -/
theorem getCartridge_addCartridge (cat : Catalog) (barcode : Barcode) :
    (cat.addCartridge barcode none).2.getCartridge barcode = some (cat.addCartridge barcode none).1 ∧
      (cat.addCartridge barcode none).1.barcode = barcode := by
  unfold addCartridge
  cases h : cat.getCartridge barcode with
  | none =>
    refine ⟨?_, rfl⟩
    have hnone := List.find?_eq_none.1 h
    simp only [getCartridge, List.find?_append, List.find?_eq_none.2 hnone]
    simp
  | some cartridge => exact ⟨h, barcode_of_getCartridge h⟩

/-! ### Tables that are left alone -/

/-- Records, instances and leases are as they were; keys may have been drawn. -/
structure SameFiles (cat cat' : Catalog) : Prop where
  records : cat'.records = cat.records
  instances : cat'.instances = cat.instances
  leases : cat'.leases = cat.leases
  nextId_le : cat.nextId ≤ cat'.nextId

theorem SameFiles.refl (cat : Catalog) : SameFiles cat cat := ⟨rfl, rfl, rfl, Nat.le_refl _⟩

variable (cat : Catalog) (now : Int)

theorem sameFiles_createVolumeGroup (name : String) : SameFiles cat (cat.createVolumeGroup name).2 := by
  unfold createVolumeGroup
  cases cat.getVolumeGroup name with
  | some existing => exact .refl cat
  | none => exact ⟨rfl, rfl, rfl, Nat.le_succ _⟩

theorem sameFiles_updateCartridge (barcode : Barcode) (f : Cartridge → Cartridge) :
    SameFiles cat (cat.updateCartridge barcode f) := ⟨rfl, rfl, rfl, Nat.le_refl _⟩

theorem sameFiles_setCartridgeState (barcode : Barcode) (state : String) :
    SameFiles cat (cat.setCartridgeState barcode state).2 := by
  unfold setCartridgeState
  cases cat.getCartridge barcode with
  | none => exact .refl cat
  | some cartridge => exact sameFiles_updateCartridge cat barcode _

theorem sameFiles_addCartridge (barcode : Barcode) (vg : Option Nat) : SameFiles cat (cat.addCartridge barcode vg).2 := by
  unfold addCartridge
  cases cat.getCartridge barcode with
  | none => exact ⟨rfl, rfl, rfl, Nat.le_refl _⟩
  | some cartridge =>
    cases vg with
    | none => exact .refl cat
    | some group => exact sameFiles_updateCartridge cat barcode _

theorem sameFiles_updateJobState (jobId : JobId) (state : String) (error : Option String) :
    SameFiles cat (cat.updateJobState now jobId state error).2 := by
  unfold updateJobState
  split
  · exact ⟨rfl, rfl, rfl, Nat.le_refl _⟩
  · exact .refl cat

theorem sameFiles_appendJournal (jobId : JobId) (event : String) (detail : JsonObject) :
    SameFiles cat (cat.appendJournal now jobId event detail) := ⟨rfl, rfl, rfl, Nat.le_refl _⟩

theorem sameFiles_createTapeOp (request : TapeOpRequest) : SameFiles cat (cat.createTapeOp now request).2 :=
  ⟨rfl, rfl, rfl, Nat.le_succ _⟩

theorem sameFiles_updateTapeOp (opId : Nat) (update : TapeOpUpdate) : SameFiles cat (cat.updateTapeOp now opId update).2 := by
  unfold updateTapeOp
  split
  · exact .refl cat
  · exact ⟨rfl, rfl, rfl, Nat.le_refl _⟩

/-! ### Methods that write files -/

/-- Writing a record changes no instance and no lease. -/
theorem createFileRecord_frame (fields : FileRecordFields) :
    (cat.createFileRecord now fields).2.instances = cat.instances ∧ (cat.createFileRecord now fields).2.leases = cat.leases ∧
      cat.nextId ≤ (cat.createFileRecord now fields).2.nextId := by
  unfold createFileRecord
  cases cat.getFileRecord fields.path with
  | none => exact ⟨rfl, rfl, Nat.le_succ _⟩
  | some record => exact ⟨rfl, rfl, Nat.le_refl _⟩

/-- Staging an instance inserts it, or fails and changes nothing. -/
theorem createStagedInstance_cases (jobId : JobId) (fileRecordId : Nat) (barcode : Barcode) (tapePath : String) :
    (∃ e, cat.createStagedInstance now jobId fileRecordId barcode tapePath = (.error e, cat)) ∨
    ∃ cat', cat.createStagedInstance now jobId fileRecordId barcode tapePath =
        (.ok (cat.insertInstance now fileRecordId barcode tapePath .staging).1, cat') ∧
      SameFiles (cat.insertInstance now fileRecordId barcode tapePath .staging).2 cat' := by
  unfold createStagedInstance
  cases cat.getFileRecordById fileRecordId with
  | none => exact .inl ⟨_, rfl⟩
  | some record => exact .inr ⟨_, rfl, sameFiles_appendJournal _ _ _ _ _⟩

/-- Instances that load are all there, each in an allowed state. -/
theorem loadInstancesIn_ok {allowed : FileInstanceState → Bool} {expected : List String} {ids : List Nat}
    (h : cat.loadInstancesIn allowed expected ids = .ok ()) :
    ∀ id ∈ ids, ∃ row, cat.getInstance id = some row ∧ allowed row.state = true := by
  induction ids with
  | nil => simp
  | cons id ids ih =>
    unfold loadInstancesIn at h
    cases hrow : cat.getInstance id with
    | none =>
      rw [hrow] at h
      cases h
    | some row =>
      rw [hrow] at h
      simp only at h
      by_cases ha : allowed row.state = true
      · rw [if_pos ha] at h
        intro i hi
        rcases List.mem_cons.1 hi with rfl | hi
        · exact ⟨row, hrow, ha⟩
        · exact ih h i hi
      · rw [if_neg ha] at h
        cases h

/-- What an update of instances leaves of each row. -/
theorem mem_updateInstances {ids : List Nat} {f : FileInstance → FileInstance} {row : FileInstance} :
    row ∈ (cat.updateInstances ids f).instances ↔ ∃ old ∈ cat.instances, row = if old.id ∈ ids then f old else old := by
  unfold updateInstances
  rw [List.mem_map]
  constructor
  · intro h
    obtain ⟨old, ho, h⟩ := h
    exact ⟨old, ho, h.symm⟩
  · intro h
    obtain ⟨old, ho, h⟩ := h
    exact ⟨old, ho, h.symm⟩

/-! ### Archived instances -/

/-- An instance with this id is archived. -/
def Archived (id : Nat) : Prop := ∃ row ∈ cat.instances, row.id = id ∧ row.state = .archived

instance (id : Nat) : Decidable (cat.Archived id) := inferInstanceAs (Decidable (∃ row ∈ _, _))

variable {cat}

theorem SameFiles.archived {cat' : Catalog} (h : SameFiles cat cat') {id : Nat} : cat'.Archived id ↔ cat.Archived id := by
  unfold Archived
  rw [h.instances]

/-- A new instance that is not archived leaves the archived ones as they were. -/
theorem archived_insert {id : Nat} {row : FileInstance} {cat' : Catalog} (hi : cat'.instances = cat.instances ++ [row])
    (hs : row.state ≠ .archived) : cat'.Archived id ↔ cat.Archived id := by
  unfold Archived
  rw [hi]
  constructor
  · intro h
    obtain ⟨r, hr, hid, hst⟩ := h
    rcases List.mem_append.1 hr with hr | hr
    · exact ⟨r, hr, hid, hst⟩
    · rw [List.mem_singleton] at hr
      exact absurd (hr ▸ hst) hs
  · intro h
    obtain ⟨r, hr, hid, hst⟩ := h
    exact ⟨r, List.mem_append_left _ hr, hid, hst⟩

variable (cat)

/-- The commit archives the instances it names, all of them, or changes nothing. -/
theorem markInstancesArchived_cases (ids : List Nat) (verified : Bool) :
    (∃ e, cat.markInstancesArchived now ids verified = (.error e, cat)) ∨
    ∃ cat', cat.markInstancesArchived now ids verified = (.ok (), cat') ∧ cat'.nextId = cat.nextId ∧
      cat'.leases = cat.leases ∧ cat'.records = cat.records ∧ cat'.instances.length = cat.instances.length ∧
      (∀ id ∈ ids, cat'.Archived id) ∧ ∀ id, cat'.Archived id → id ∈ ids ∨ cat.Archived id := by
  unfold markInstancesArchived
  cases hload : cat.loadInstancesIn (fun state => state == .verifying) ["verifying"] ids with
  | error e => exact .inl ⟨e, rfl⟩
  | ok u =>
    refine .inr ⟨_, rfl, rfl, rfl, rfl, by simp [updateInstances], ?_, ?_⟩
    · intro id hid
      obtain ⟨row, hrow, -⟩ := loadInstancesIn_ok cat hload id hid
      have hmem : row ∈ cat.instances := List.mem_of_find?_eq_some hrow
      have hrid : row.id = id := of_decide_eq_true (List.find?_some (p := fun r : FileInstance => decide (r.id = id)) hrow)
      refine ⟨_, (mem_updateInstances cat).2 ⟨row, hmem, rfl⟩, ?_⟩
      rw [hrid, if_pos hid]
      exact ⟨rfl, rfl⟩
    · intro id h
      obtain ⟨row, hr, hid, hst⟩ := h
      obtain ⟨old, ho, rfl⟩ := (mem_updateInstances cat).1 hr
      by_cases hin : old.id ∈ ids
      · rw [if_pos hin] at hid
        exact .inl (hid ▸ hin)
      · rw [if_neg hin] at hid hst
        exact .inr ⟨old, ho, hid, hst⟩

/-- Marking instances as verifying archives none. -/
theorem markInstancesVerifying_frame (ids : List Nat) :
    (cat.markInstancesVerifying ids).2.nextId = cat.nextId ∧ (cat.markInstancesVerifying ids).2.leases = cat.leases ∧
      (cat.markInstancesVerifying ids).2.records = cat.records ∧
      (cat.markInstancesVerifying ids).2.instances.length = cat.instances.length ∧
      ∀ id, (cat.markInstancesVerifying ids).2.Archived id → cat.Archived id := by
  unfold markInstancesVerifying
  split
  · exact ⟨rfl, rfl, rfl, rfl, fun _ h => h⟩
  · refine ⟨rfl, rfl, rfl, by simp [updateInstances], ?_⟩
    intro id h
    obtain ⟨row, hr, hid, hst⟩ := h
    obtain ⟨old, ho, rfl⟩ := (mem_updateInstances cat).1 hr
    by_cases hin : old.id ∈ ids
    · rw [if_pos hin] at hst
      cases hst
    · rw [if_neg hin] at hid hst
      exact ⟨old, ho, hid, hst⟩

end Catalog

end OpenBlade
