import OpenBlade.World

/-!
# Calls by name

The operations of the world under the names the jobs call them by.
-/

namespace OpenBlade

variable {L : Type}

/-! ### Catalog -/

abbrev getVolumeGroup (name : String) : JobM L (Option VolumeGroup) := catalogCall (.getVolumeGroup name)

abbrev createVolumeGroup (name : String) : JobM L VolumeGroup := catalogCall (.createVolumeGroup name)

abbrev getCartridge (barcode : Barcode) : JobM L (Option Cartridge) := catalogCall (.getCartridge barcode)

abbrev addCartridge (barcode : Barcode) (volumeGroupId : Option Nat) : JobM L Cartridge :=
  catalogCall (.addCartridge barcode volumeGroupId)

abbrev listCartridges : JobM L (List Cartridge) := catalogCall .listCartridges

abbrev saveCartridge (cartridge : Cartridge) : JobM L Unit := catalogCall (.saveCartridge cartridge)

abbrev createFileRecord (fields : Catalog.FileRecordFields) : JobM L FileRecord := catalogCall (.createFileRecord fields)

abbrev getFileRecordById (id : Nat) : JobM L (Option FileRecord) := catalogCall (.getFileRecordById id)

abbrev listInstancesForBarcode (barcode : Barcode) : JobM L (List FileInstance) :=
  catalogCall (.listInstancesForBarcode barcode)

abbrev createFileInstance (fileRecordId : Nat) (barcode : Barcode) (tapePath : String) : JobM L FileInstance :=
  catalogCall (.createFileInstance fileRecordId barcode tapePath)

abbrev createStagedInstance (jobId : JobId) (fileRecordId : Nat) (barcode : Barcode) (tapePath : String) :
    JobM L FileInstance :=
  catalogCall (.createStagedInstance jobId fileRecordId barcode tapePath)

abbrev markInstanceArchived (id : Nat) (checksumVerified : Bool) : JobM L Unit :=
  catalogCall (.markInstanceArchived id checksumVerified)

abbrev markInstancesVerifying (ids : List Nat) : JobM L Unit := catalogCall (.markInstancesVerifying ids)

abbrev markInstancesArchived (ids : List Nat) (checksumVerified : Bool) : JobM L Unit :=
  catalogCall (.markInstancesArchived ids checksumVerified)

abbrev updateJobState (jobId : JobId) (state : String) (error : Option String) : JobM L Unit :=
  catalogCall (.updateJobState jobId state error)

abbrev journal (jobId : JobId) (event : String) (detail : JsonObject) : JobM L Unit :=
  catalogCall (.journal jobId event detail)

abbrev journalDurable (jobId : JobId) (event : String) (detail : JsonObject) : JobM L Unit :=
  catalogCall (.journalDurable jobId event detail)

abbrev journalEvents (event : String) : JobM L (List JobJournalEntry) := catalogCall (.journalEvents event)

abbrev setCartridgeState (barcode : Barcode) (state : String) : JobM L (Option Cartridge) :=
  catalogCall (.setCartridgeState barcode state)

abbrev listVolumeGroups : JobM L (List VolumeGroup) := catalogCall .listVolumeGroups

abbrev saveSafetyToken (token : SafetyToken) : JobM L Unit := catalogCall (.saveSafetyToken token)

abbrev getSafetyToken (tokenValue : String) : JobM L (Option SafetyToken) := catalogCall (.getSafetyToken tokenValue)

abbrev deleteSafetyToken (tokenValue : String) : JobM L Bool := catalogCall (.deleteSafetyToken tokenValue)

abbrev createTapeOp (request : TapeOpRequest) : JobM L TapeOpRecord := catalogCall (.createTapeOp request)

abbrev updateTapeOp (opId : Nat) (update : Catalog.TapeOpUpdate) : JobM L (Option TapeOpRecord) :=
  catalogCall (.updateTapeOp opId update)

/-! ### Leases -/

abbrev storeAcquire (jobId : JobId) (barcodes : List Barcode) (numDrives : Nat) (ttl : Int) (exclude : List Int) :
    JobM L (Option (List DriveLease)) :=
  leaseCall (.acquire jobId barcodes numDrives ttl exclude)

abbrev storeHeartbeat (leaseIds : List Nat) (ttl : Int) : JobM L Unit := leaseCall (.heartbeat leaseIds ttl)

abbrev storeSetPhysicalDrive (leaseId : Nat) (driveId : Int) : JobM L Unit :=
  leaseCall (.setPhysicalDrive leaseId driveId)

abbrev storeRelease (leaseIds : List Nat) : JobM L Unit := leaseCall (.release leaseIds)

abbrev storeIsLive (leaseId fencingToken : Nat) : JobM L Bool := leaseCall (.isLive leaseId fencingToken)

abbrev liveLeases : JobM L (List DriveLease) := leaseCall .liveLeases

/-! ### Library -/

abbrev inventory : JobM L LibraryInventory := libraryCall .inventory

abbrev findSlotByBarcode (barcode : Barcode) : JobM L (Option Nat) := libraryCall (.findSlotByBarcode barcode)

abbrev findDriveByBarcode (barcode : Barcode) : JobM L (Option Int) := libraryCall (.findDriveByBarcode barcode)

abbrev libraryLoad (slotId : Nat) (driveId : Int) : JobM L OperationResult := libraryCall (.load slotId driveId)

abbrev libraryUnload (driveId : Int) (slotId : Nat) : JobM L OperationResult := libraryCall (.unload driveId slotId)

abbrev libraryMove (sourceSlot targetSlot : Int) : JobM L OperationResult := libraryCall (.move sourceSlot targetSlot)

abbrev isMailslotBackend : JobM L Bool := libraryCall .isMailslotBackend

abbrev importExportSlots : JobM L (List (Int × Option Barcode)) := libraryCall .importExportSlots

abbrev importCartridge (ieSlot targetSlot : Int) : JobM L OperationResult := libraryCall (.importCartridge ieSlot targetSlot)

abbrev exportCartridgeToIe (sourceSlot ieSlot : Int) : JobM L OperationResult :=
  libraryCall (.exportCartridgeToIe sourceSlot ieSlot)

/-! ### LTFS -/

abbrev ensureTape (barcode : Barcode) : JobM L TapeContents := ltfsCall (.ensureTape barcode)

abbrev mount (barcode : Barcode) (mode : MountMode) : JobM L MountHandle := ltfsCall (.mount barcode mode)

abbrev unmount (handle : MountHandle) : JobM L OperationResult := ltfsCall (.unmount handle)

abbrev writeFile (handle : MountHandle) (content : Bytes) (path : String) : JobM L Unit :=
  ltfsCall (.writeFile handle content path)

abbrev stat (handle : MountHandle) (path : String) : JobM L LTFSFileStat := ltfsCall (.stat handle path)

abbrev readBytes (barcode : Barcode) (path : String) : JobM L (Option (Bytes × String)) := ltfsCall (.readBytes barcode path)

abbrev ltfsFormat (barcode : Barcode) (confirmation : FormatConfirmation) : JobM L OperationResult :=
  ltfsCall (.format barcode confirmation)

/-! ### Host -/

abbrev readSource (file : SourceFile) : JobM L Bytes := hostCall (.readSource file)

abbrev scratch : JobM L Unit := hostCall .scratch

abbrev readHost (path : String) : JobM L Bytes := hostCall (.readHost path)

abbrev writeHost (path : String) (content : Bytes) : JobM L Unit := hostCall (.writeHost path content)

abbrev uuid4 : JobM L String := hostCall .uuid4

abbrev time : JobM L Int := hostCall .time

abbrev pick (n : Nat) : JobM L Nat := hostCall (.pick n)

abbrev deadlinePassed : JobM L Bool := hostCall .deadlinePassed

abbrev amlState : JobM L Unit := hostCall .amlState

end OpenBlade
