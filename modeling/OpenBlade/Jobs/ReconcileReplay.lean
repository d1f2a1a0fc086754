import OpenBlade.Jobs.Recovery
import OpenBlade.Jobs.ShardedArchive

/-!
# Replaying reconciliation

What `drives_pending_reconciliation` and `barcodes_pending_reconciliation` make of a history: failed unmounts and unloads,
recovery passes, and reconcile runs, in any order. A history is sound when what an entry names stays pending until a reconcile
run observed it, and complete when reconcile runs can clear whatever is pending.
-/

namespace OpenBlade

open Effects

/-- `barcodes_pending_reconciliation`, of a catalog. -/
def Catalog.barcodesPendingReconciliation (cat : Catalog) : List Barcode :=
  driveless (byId (cat.journalEvents physicalStateUnknown) (cat.journalEvents driveReconciled)) ++
    cat.drivesPendingReconciliation.filterMap fun item => item.2.barcode

/-- What enters the journal and bears on reconciliation. -/
inductive JournalEvent where
  /-- `record_physical_state_unknown`. -/
  | unknown (now : Int) (jobId : JobId) (op : String) (barcode : Barcode) (drive : Option Int)
  /-- `recover_after_restart`: a `recovered` entry for each job it interrupts. -/
  | recover (snapshot : LibraryInventory) (t : RecoveryClock)
  /-- `reconcile_drive`, against the drives the hardware reports. -/
  | reconcile (now : Int) (hardware : List DriveStatus) (driveId : Int) (jobId : JobId)

namespace JournalEvent

/-- The catalog after an event. -/
def apply (cat : Catalog) : JournalEvent → Catalog
  | unknown now jobId op barcode drive => cat.appendJournal now jobId physicalStateUnknown (physicalStateDetail op barcode drive)
  | recover snapshot t => (recoverAfterRestart cat snapshot t).2
  | reconcile now hardware driveId jobId => (reconcileDrive cat now hardware driveId jobId).2

/-- The catalog after a history. -/
def replay (cat : Catalog) (events : List JournalEvent) : Catalog := events.foldl apply cat

/-- A reconcile run of the drive that succeeds. -/
def reconciles (d : Int) : JournalEvent → Bool
  | reconcile _ hardware driveId _ => driveId = d && (observeDrive hardware driveId).isOk
  | _ => false

/-- A successful reconcile run that observed the barcode in a drive. -/
def observes (barcode : Barcode) : JournalEvent → Bool
  | reconcile _ hardware driveId _ => observeDrive hardware driveId = .ok (some barcode)
  | _ => false

/-- Nothing is cleared early: what an entry names is pending until a reconcile run observed the drive or the barcode. -/
def Sound (cat : Catalog) (events : List JournalEvent) : Prop :=
  ∀ pre post now jobId op barcode drive, events = pre ++ unknown now jobId op barcode drive :: post →
    (∀ e ∈ post, e.observes barcode = false ∧ ∀ d, drive = some d → e.reconciles d = false) →
      barcode ∈ (replay cat events).barcodesPendingReconciliation ∧
        ∀ d, drive = some d → d ∈ Dict.keys (replay cat events).drivesPendingReconciliation

/-- Reconcile runs of the drives `ds`. -/
def reconcileAll (now : Int) (hardware : List DriveStatus) (jobId : JobId) (ds : List Int) : List JournalEvent :=
  ds.map fun d => reconcile now hardware d jobId

/-- Nothing is blocked forever: when the hardware reports the pending drives, and no LTFS mount in them, some reconcile runs
succeed and leave nothing pending. -/
def Complete (cat : Catalog) (events : List JournalEvent) : Prop :=
  ∀ now hardware jobId,
    (∀ d ∈ Dict.keys (replay cat events).drivesPendingReconciliation, (observeDrive hardware d).isOk = true) →
      ∃ ds : List Int, (∀ d ∈ ds, (observeDrive hardware d).isOk = true) ∧
        (replay (replay cat events) (reconcileAll now hardware jobId ds)).drivesPendingReconciliation = [] ∧
        (replay (replay cat events) (reconcileAll now hardware jobId ds)).barcodesPendingReconciliation = []

/-- Until the drive is reconciled, the entries that name it name the barcode. -/
def OneBarcode (d : Int) (barcode : Barcode) : List JournalEvent → Prop
  | [] => True
  | unknown _ _ _ b drive :: events => (drive = some d → b = barcode) ∧ OneBarcode d barcode events
  | recover _ _ :: events => OneBarcode d barcode events
  | reconcile now hardware driveId jobId :: events =>
    (reconcile now hardware driveId jobId).reconciles d = true ∨ OneBarcode d barcode events

/-- Every entry names a drive, and entries on a drive that was not reconciled between them name one barcode. -/
def Unambiguous : List JournalEvent → Prop
  | [] => True
  | unknown _ _ _ barcode drive :: events => (∃ d, drive = some d ∧ OneBarcode d barcode events) ∧ Unambiguous events
  | recover _ _ :: events => Unambiguous events
  | reconcile _ _ _ _ :: events => Unambiguous events

end JournalEvent

namespace ReplayAux

open JournalEvent

/-! ### The entries that matter -/

/-- The journal numbers its entries in order. -/
def Numbered (cat : Catalog) : Prop := cat.journal.map JobJournalEntry.id = List.range cat.journal.length

/-- The entries that matter, in the order of the journal. -/
def relevant (cat : Catalog) : List JobJournalEntry :=
  cat.journal.filter fun entry => entry.event = physicalStateUnknown ∨ entry.event = driveReconciled

theorem Numbered.append {cat : Catalog} (h : Numbered cat) (now : Int) (jobId : JobId) (event : String) (detail : JsonObject) :
    Numbered (cat.appendJournal now jobId event detail) := by
  unfold Numbered Catalog.appendJournal at *
  simp [h, List.range_succ]

/-- Ordering by id is the order of the journal. -/
theorem byId_eq {cat : Catalog} (h : Numbered cat) :
    byId (cat.journalEvents physicalStateUnknown) (cat.journalEvents driveReconciled) = relevant cat := by
  have htotal : Std.Total fun a b : JobJournalEntry => a.id ≤ b.id := ⟨fun a b => Nat.le_total a.id b.id⟩
  have htrans : IsTrans JobJournalEntry fun a b => a.id ≤ b.id := ⟨fun _ _ _ => Nat.le_trans⟩
  have hlt : (cat.journal.map JobJournalEntry.id).Pairwise (· < ·) := h ▸ List.pairwise_lt_range
  have hsorted : cat.journal.Pairwise fun a b => a.id < b.id := List.pairwise_map.1 hlt
  have hinj : ∀ a ∈ cat.journal, ∀ b ∈ cat.journal, a.id = b.id → a = b := by
    intro a ha b hb
    exact List.inj_on_of_nodup_map (h ▸ List.nodup_range) ha hb
  have hperm : (byId (cat.journalEvents physicalStateUnknown) (cat.journalEvents driveReconciled)).Perm (relevant cat) := by
    refine (List.perm_insertionSort _ _).trans ?_
    have hne : physicalStateUnknown ≠ driveReconciled := by decide
    unfold Catalog.journalEvents relevant
    clear hinj hsorted hlt h
    induction cat.journal with
    | nil => exact .refl _
    | cons entry journal ih =>
      by_cases hu : entry.event = physicalStateUnknown
      · simpa [hu, hne] using ih
      · by_cases hr : entry.event = driveReconciled
        · simp only [hr, hne.symm, decide_true, decide_false, List.filter_cons, Bool.false_eq_true, if_false, if_true, or_true]
          exact List.perm_middle.trans (ih.cons _)
        · simpa [hu, hr] using ih
  have hmem : ∀ a ∈ relevant cat, a ∈ cat.journal := fun a ha => (List.mem_filter.1 ha).1
  refine List.Perm.eq_of_pairwise ?_ (List.pairwise_insertionSort _ _) ?_ hperm
  · intro a b ha hb hab hba
    exact hinj a (hmem a (hperm.mem_iff.1 ha)) b (hmem b hb) (Nat.le_antisymm hab hba)
  · exact (hsorted.filter _).imp fun hab => Nat.le_of_lt hab

/-- What the two replays read is the same. -/
structure Quiet (cat cat' : Catalog) : Prop where
  numbered : Numbered cat → Numbered cat'
  relevant : relevant cat' = relevant cat

theorem Quiet.refl (cat : Catalog) : Quiet cat cat := ⟨id, rfl⟩

theorem Quiet.trans {cat cat' cat'' : Catalog} (h : Quiet cat cat') (h' : Quiet cat' cat'') : Quiet cat cat'' :=
  ⟨fun hn => h'.numbered (h.numbered hn), h'.relevant.trans h.relevant⟩

/-- A change of other tables. -/
theorem Quiet.of_journal {cat cat' : Catalog} (h : cat'.journal = cat.journal) : Quiet cat cat' := by
  refine ⟨fun hn => ?_, ?_⟩
  · unfold Numbered
    rw [h]
    exact hn
  · unfold ReplayAux.relevant
    rw [h]

/-- An entry of another event. -/
theorem Quiet.append (cat : Catalog) (now : Int) (jobId : JobId) {event : String} (detail : JsonObject)
    (hu : event ≠ physicalStateUnknown) (hr : event ≠ driveReconciled) :
    Quiet cat (cat.appendJournal now jobId event detail) := by
  refine ⟨fun hn => hn.append now jobId event detail, ?_⟩
  simp [ReplayAux.relevant, Catalog.appendJournal, hu, hr]

/-- Updating a job leaves the journal alone. -/
theorem journal_updateJobState (cat : Catalog) (now : Int) (jobId : JobId) (state : String) (error : Option String) :
    (cat.updateJobState now jobId state error).2.journal = cat.journal := by
  unfold Catalog.updateJobState
  split <;> rfl

/-- One expired lease: at most a `recovered` entry. -/
theorem quiet_interruptOwner (now : Int) (pass : Catalog × List JobId) (lease : DriveLease) :
    Quiet pass.1 (interruptOwner now pass lease).1 := by
  unfold interruptOwner
  cases pass.1.getJob lease.jobId with
  | none => exact .refl _
  | some owner =>
    simp only
    split
    · exact (Quiet.of_journal (journal_updateJobState _ _ _ _ _)).trans (.append _ _ _ _ (by decide) (by decide))
    · exact .refl _

/-- A recovery pass says nothing about reconciliation. -/
theorem quiet_recover (cat : Catalog) (snapshot : LibraryInventory) (t : RecoveryClock) :
    Quiet cat (recoverAfterRestart cat snapshot t).2 := by
  have hfold : ∀ (leases : List DriveLease) (pass : Catalog × List JobId),
      Quiet pass.1 (leases.foldl (interruptOwner t.marked) pass).1 := by
    intro leases
    induction leases with
    | nil => exact fun pass => .refl _
    | cons lease leases ih => exact fun pass => (quiet_interruptOwner t.marked pass lease).trans (ih _)
  have hmarked : Quiet cat (interruptOwners cat t).1 := hfold _ (cat, [])
  exact hmarked.trans (.of_journal rfl)

/-! ### What one event does to what is pending -/

theorem drivesPending_eq {cat : Catalog} (h : Numbered cat) : cat.drivesPendingReconciliation = drivesPending (relevant cat) := by
  unfold Catalog.drivesPendingReconciliation
  rw [byId_eq h]

/-- The barcodes of entries that name no drive, in a catalog. -/
def drivelessOf (cat : Catalog) : List Barcode := driveless (relevant cat)

theorem barcodesPending_eq {cat : Catalog} (h : Numbered cat) :
    cat.barcodesPendingReconciliation =
      drivelessOf cat ++ cat.drivesPendingReconciliation.filterMap fun item => item.2.barcode := by
  unfold Catalog.barcodesPendingReconciliation drivelessOf
  rw [byId_eq h]

theorem relevant_append (cat : Catalog) (now : Int) (jobId : JobId) {event : String} (detail : JsonObject)
    (h : event = physicalStateUnknown ∨ event = driveReconciled) :
    relevant (cat.appendJournal now jobId event detail) =
      relevant cat ++ [{ id := cat.journal.length, jobId := jobId, at_ := now, event := event, detail := detail }] := by
  unfold relevant Catalog.appendJournal
  simp [h]

/-- The replay after one more entry that matters. -/
theorem drivesPending_append {cat : Catalog} (hn : Numbered cat) (now : Int) (jobId : JobId) {event : String} (detail : JsonObject)
    (h : event = physicalStateUnknown ∨ event = driveReconciled) :
    (cat.appendJournal now jobId event detail).drivesPendingReconciliation =
      drivesPendingStep cat.drivesPendingReconciliation
        { id := cat.journal.length, jobId := jobId, at_ := now, event := event, detail := detail } := by
  rw [drivesPending_eq (hn.append now jobId event detail), drivesPending_eq hn, relevant_append cat now jobId detail h]
  unfold drivesPending
  rw [List.foldl_append, List.foldl_cons, List.foldl_nil]

theorem driveless_append {cat : Catalog} (now : Int) (jobId : JobId) {event : String} (detail : JsonObject)
    (h : event = physicalStateUnknown ∨ event = driveReconciled) :
    drivelessOf (cat.appendJournal now jobId event detail) =
      drivelessStep (drivelessOf cat)
        { id := cat.journal.length, jobId := jobId, at_ := now, event := event, detail := detail } := by
  unfold drivelessOf driveless
  rw [relevant_append cat now jobId detail h, List.foldl_append, List.foldl_cons, List.foldl_nil]

variable {cat : Catalog} (hn : Numbered cat)

include hn in
/-- A failed operation in a drive makes the drive pending, with its cartridge. -/
theorem drivesPending_unknown (now : Int) (jobId : JobId) (op : String) (barcode : Barcode) (d : Int) :
    (apply cat (unknown now jobId op barcode (some d))).drivesPendingReconciliation =
      cat.drivesPendingReconciliation.set d { driveId := d, barcode := some barcode, op := op, jobId := jobId, at_ := now } := by
  unfold apply
  rw [drivesPending_append hn now jobId _ (.inl rfl)]
  rfl

include hn in
/-- A failed operation in no known drive leaves the pending drives. -/
theorem drivesPending_driveless (now : Int) (jobId : JobId) (op : String) (barcode : Barcode) :
    (apply cat (unknown now jobId op barcode none)).drivesPendingReconciliation = cat.drivesPendingReconciliation := by
  unfold apply
  rw [drivesPending_append hn now jobId _ (.inl rfl)]
  rfl

include hn in
theorem drivesPending_recover (snapshot : LibraryInventory) (t : RecoveryClock) :
    (apply cat (recover snapshot t)).drivesPendingReconciliation = cat.drivesPendingReconciliation := by
  have hq := quiet_recover cat snapshot t
  unfold apply
  rw [drivesPending_eq (hq.numbered hn), drivesPending_eq hn, hq.relevant]

/-- A reconcile run is refused, or records what it observed. -/
theorem apply_reconcile (cat : Catalog) (now : Int) (hardware : List DriveStatus) (d : Int) (jobId : JobId) :
    ((observeDrive hardware d).isOk = false ∧ apply cat (reconcile now hardware d jobId) = cat) ∨
      ∃ observed, observeDrive hardware d = .ok observed ∧
        apply cat (reconcile now hardware d jobId) =
          cat.appendJournal now jobId driveReconciled
            [("drive", .int d), ("observed_barcode", jsonOfBarcode? observed)] := by
  simp only [apply, reconcileDrive]
  cases observeDrive hardware d with
  | error e => exact .inl ⟨rfl, rfl⟩
  | ok observed => exact .inr ⟨observed, rfl, rfl⟩

include hn in
/-- A reconcile run clears the drive if it succeeds, and does nothing if it is refused. -/
theorem drivesPending_reconcile (now : Int) (hardware : List DriveStatus) (d : Int) (jobId : JobId) :
    (apply cat (reconcile now hardware d jobId)).drivesPendingReconciliation =
      if (observeDrive hardware d).isOk = true then cat.drivesPendingReconciliation.erase d
      else cat.drivesPendingReconciliation := by
  rcases apply_reconcile cat now hardware d jobId with ⟨hno, happly⟩ | ⟨observed, hok, happly⟩
  · rw [happly, hno, if_neg Bool.false_ne_true]
  · rw [happly, hok, drivesPending_append hn now jobId _ (.inr rfl)]
    rfl

/-- Every event keeps the journal numbered. -/
theorem Numbered.apply (hn : Numbered cat) (e : JournalEvent) : Numbered (apply cat e) := by
  cases e with
  | unknown now jobId op barcode drive => exact hn.append _ _ _ _
  | recover snapshot t => exact (quiet_recover cat snapshot t).numbered hn
  | reconcile now hardware d jobId =>
    rcases apply_reconcile cat now hardware d jobId with ⟨-, happly⟩ | ⟨observed, -, happly⟩
    · exact happly.symm ▸ hn
    · exact happly.symm ▸ hn.append _ _ _ _

/-- Only a failed operation in no known drive adds a barcode without a drive, and nothing takes one away. -/
theorem driveless_apply (e : JournalEvent) :
    drivelessOf (apply cat e) =
      match e with
      | unknown _ _ _ barcode none => drivelessOf cat ++ [barcode]
      | _ => drivelessOf cat := by
  cases e with
  | unknown now jobId op barcode drive =>
    unfold apply
    rw [driveless_append now jobId _ (.inl rfl)]
    cases drive <;> rfl
  | recover snapshot t => exact congrArg driveless (quiet_recover cat snapshot t).relevant
  | reconcile now hardware d jobId =>
    rcases apply_reconcile cat now hardware d jobId with ⟨-, happly⟩ | ⟨observed, -, happly⟩
    · rw [happly]
    · rw [happly, driveless_append now jobId _ (.inr rfl)]
      rfl

/-! ### Runs -/

/-- The drive is pending with the cartridge. -/
def PendingWith (cat : Catalog) (d : Int) (barcode : Barcode) : Prop :=
  ∃ item, cat.drivesPendingReconciliation.get? d = some item ∧ item.barcode = some barcode

/-- A failed operation in a drive: the drive is pending with its cartridge. -/
theorem PendingWith.of_unknown (hn : Numbered cat) (now : Int) (jobId : JobId) (op : String) (barcode : Barcode) (d : Int) :
    PendingWith (apply cat (unknown now jobId op barcode (some d))) d barcode := by
  unfold PendingWith
  rw [drivesPending_unknown hn, Dict.get?_set, if_pos rfl]
  exact ⟨_, rfl, rfl⟩

/-- Run lemma: a drive stays pending with its cartridge until it is reconciled. -/
theorem PendingWith.replay (hn : Numbered cat) {d : Int} {barcode : Barcode} (h : PendingWith cat d barcode)
    {events : List JournalEvent} (hone : OneBarcode d barcode events) (hrec : ∀ e ∈ events, e.reconciles d = false) :
    PendingWith (replay cat events) d barcode := by
  induction events generalizing cat with
  | nil => exact h
  | cons e events ih =>
    have he := hrec e List.mem_cons_self
    have hrest : ∀ e' ∈ events, e'.reconciles d = false := fun e' h' => hrec e' (List.mem_cons_of_mem _ h')
    obtain ⟨item, hget, hitem⟩ := h
    cases e with
    | unknown now jobId op b drive =>
      refine ih (hn.apply _) ?_ hone.2 hrest
      cases drive with
      | none => exact ⟨item, by rw [drivesPending_driveless hn, hget], hitem⟩
      | some d' =>
        by_cases hd : d' = d
        · subst hd
          rw [← hone.1 rfl]
          exact .of_unknown hn now jobId op b d'
        · exact ⟨item, by rw [drivesPending_unknown hn, Dict.get?_set, if_neg hd, hget], hitem⟩
    | recover snapshot t => exact ih (hn.apply _) ⟨item, by rw [drivesPending_recover hn, hget], hitem⟩ hone hrest
    | reconcile now hardware d' jobId =>
      have hone := hone.resolve_left (by simp [he])
      refine ih (hn.apply _) ⟨item, ?_, hitem⟩ hone hrest
      rw [drivesPending_reconcile hn]
      by_cases hok : (observeDrive hardware d').isOk = true
      · have hd : d' ≠ d := by
          intro hd
          simp [reconciles, hd ▸ hok, hd] at he
        rw [if_pos hok, Dict.get?_erase, if_neg hd, hget]
      · rw [if_neg hok, hget]

/-- Run lemma: events keep the journal numbered. -/
theorem Numbered.replay (hn : Numbered cat) (events : List JournalEvent) : Numbered (replay cat events) := by
  induction events generalizing cat with
  | nil => exact hn
  | cons e events ih => exact ih (hn.apply e)

/-- A pending drive, and its cartridge, are reported. -/
theorem PendingWith.reported (hn : Numbered cat) {d : Int} {barcode : Barcode} (h : PendingWith cat d barcode) :
    barcode ∈ cat.barcodesPendingReconciliation ∧ d ∈ Dict.keys cat.drivesPendingReconciliation := by
  obtain ⟨item, hget, hitem⟩ := h
  have hmem := Dict.mem_of_get? hget
  refine ⟨?_, List.mem_map.2 ⟨_, hmem, rfl⟩⟩
  rw [barcodesPending_eq hn]
  exact List.mem_append_right _ (List.mem_filterMap.2 ⟨_, hmem, hitem⟩)

/-- A part of an unambiguous history, and what it says of the entry at its head. -/
theorem oneBarcode_of_split {pre post : List JournalEvent} {now : Int} {jobId : JobId} {op : String} {barcode : Barcode}
    {drive : Option Int} (h : Unambiguous (pre ++ unknown now jobId op barcode drive :: post)) :
    ∃ d, drive = some d ∧ OneBarcode d barcode post := by
  induction pre with
  | nil => exact h.1
  | cons e pre ih =>
    cases e with
    | unknown now jobId op barcode drive => exact ih h.2
    | recover snapshot t => exact ih h
    | reconcile now hardware d jobId => exact ih h

/-- In an unambiguous history no barcode is pending without a drive. -/
theorem driveless_replay {events : List JournalEvent} (h : Unambiguous events) :
    drivelessOf (JournalEvent.replay cat events) = drivelessOf cat := by
  induction events generalizing cat with
  | nil => rfl
  | cons e events ih =>
    cases e with
    | unknown now jobId op barcode drive =>
      obtain ⟨⟨d, rfl, -⟩, h⟩ := h
      exact (ih h).trans (driveless_apply _)
    | recover snapshot t => exact (ih h).trans (driveless_apply _)
    | reconcile now hardware d jobId => exact (ih h).trans (driveless_apply _)

/-- Reconcile runs never clear a barcode that is pending without a drive. -/
theorem driveless_reconcileAll (now : Int) (hardware : List DriveStatus) (jobId : JobId) (ds : List Int) :
    drivelessOf (JournalEvent.replay cat (reconcileAll now hardware jobId ds)) = drivelessOf cat := by
  induction ds generalizing cat with
  | nil => rfl
  | cons d ds ih =>
    refine Eq.trans ih ?_
    rw [driveless_apply]

/-- Successful reconcile runs clear the drives they are about. -/
theorem drivesPending_reconcileAll (hn : Numbered cat) (now : Int) (hardware : List DriveStatus) (jobId : JobId) {ds : List Int}
    (hok : ∀ d ∈ ds, (observeDrive hardware d).isOk = true) :
    (JournalEvent.replay cat (reconcileAll now hardware jobId ds)).drivesPendingReconciliation =
      cat.drivesPendingReconciliation.filter fun item => item.1 ∉ ds := by
  induction ds generalizing cat with
  | nil => simp [reconcileAll, JournalEvent.replay]
  | cons d ds ih =>
    refine (ih (hn.apply _) fun d' h' => hok d' (List.mem_cons_of_mem _ h')).trans ?_
    rw [drivesPending_reconcile hn, if_pos (hok d List.mem_cons_self), Dict.erase, List.filter_filter]
    refine List.filter_congr fun item _ => ?_
    by_cases h : item.1 = d <;> simp [h]

end ReplayAux

open JournalEvent ReplayAux

/-- In a history whose entries name a drive each, and on one drive between reconcile runs one cartridge, what an entry names stays
pending until it is observed, and everything that is pending can be cleared. -/
theorem replay_sound_complete {cat : Catalog} {events : List JournalEvent} (hstart : cat.journal = [])
    (h : Unambiguous events) : Sound cat events ∧ Complete cat events := by
  have hn : Numbered cat := by
    unfold Numbered
    rw [hstart]
    rfl
  constructor
  · rintro pre post now jobId op barcode drive rfl hpost
    obtain ⟨d, rfl, hone⟩ := oneBarcode_of_split h
    have hpre := hn.replay pre
    have hpending := PendingWith.of_unknown hpre now jobId op barcode d
    have hrun := hpending.replay (hpre.apply _) hone fun e he => (hpost e he).2 d rfl
    have hsplit : replay cat (pre ++ unknown now jobId op barcode (some d) :: post) =
        replay (apply (replay cat pre) (unknown now jobId op barcode (some d))) post := by
      unfold JournalEvent.replay
      rw [List.foldl_append, List.foldl_cons]
    rw [hsplit]
    obtain ⟨hbarcode, hdrive⟩ := hrun.reported ((hpre.apply _).replay post)
    refine ⟨hbarcode, fun d' hd => ?_⟩
    cases hd
    exact hdrive
  · intro now hardware jobId hhw
    have hrun := hn.replay events
    have hdriveless : drivelessOf (replay cat events) = [] := by
      rw [driveless_replay h, drivelessOf, relevant, hstart]
      rfl
    refine ⟨Dict.keys (replay cat events).drivesPendingReconciliation, hhw, ?_⟩
    have hcleared := drivesPending_reconcileAll hrun now hardware jobId hhw
    have hnone : ((replay cat events).drivesPendingReconciliation.filter fun item =>
        item.1 ∉ Dict.keys (replay cat events).drivesPendingReconciliation) = [] := by
      rw [List.filter_eq_nil_iff]
      intro item hitem hnot
      exact of_decide_eq_true hnot (List.mem_map.2 ⟨item, hitem, rfl⟩)
    rw [hnone] at hcleared
    refine ⟨hcleared, ?_⟩
    rw [barcodesPending_eq (hrun.replay _), hcleared, driveless_reconcileAll, hdriveless]
    rfl

/-- Two failures in drive 0, a reconcile run between failures with different cartridges, a recovery pass, and a failure in another
drive. -/
theorem replay_sound_complete_mixed :
    let hardware : List DriveStatus := [{ driveId := 0, barcode := some "A", mountState := .unmounted }]
    let events : List JournalEvent :=
      [unknown 1 "job" "unmount" "A" (some 0), unknown 2 "job" "unload" "A" (some 0), reconcile 3 hardware 0 "recovery",
        recover { slots := [], drives := [(0, some "A")] } (.at 4), unknown 5 "job" "unload" "B" (some 0),
        unknown 6 "job" "unload" "C" (some 1)]
    (({} : Catalog).journal = [] ∧ Unambiguous events) ∧ Sound {} events ∧ Complete {} events := by
  intro hardware events
  have hevents : Unambiguous events := by
    have hreconciled : (reconcile 3 hardware 0 "recovery").reconciles 0 = true := by decide
    simp [events, Unambiguous, OneBarcode, hreconciled]
  exact ⟨⟨rfl, hevents⟩, replay_sound_complete rfl hevents⟩

/-- A failure in no known drive blocks its cartridge for good: drive 0 is empty of any LTFS mount and holds that very cartridge,
and still no reconcile runs clear it. And a second failure in drive 0, with another cartridge, clears the first at once. -/
theorem replay_not_sound_complete :
    ¬(Sound {} [unknown 1 "job" "unload" "A" none] ∧ Complete {} [unknown 1 "job" "unload" "A" none]) ∧
    ¬(Sound {} [unknown 1 "job" "unload" "A" (some 0), unknown 2 "job" "unload" "B" (some 0)] ∧
      Complete {} [unknown 1 "job" "unload" "A" (some 0), unknown 2 "job" "unload" "B" (some 0)]) := by
  constructor
  · rintro ⟨-, hcomplete⟩
    have hstart : Numbered {} := rfl
    have hn := hstart.replay [unknown 1 "job" "unload" "A" none]
    obtain ⟨ds, -, -, hcleared⟩ :=
      hcomplete 2 [{ driveId := 0, barcode := some "A", mountState := .unmounted }] "recovery" (by decide +kernel)
    rw [barcodesPending_eq (hn.replay _), driveless_reconcileAll] at hcleared
    have hfalse : drivelessOf (replay {} [unknown 1 "job" "unload" "A" none]) = [] := (List.append_eq_nil_iff.1 hcleared).1
    exact absurd hfalse (by decide +kernel)
  · rintro ⟨hsound, -⟩
    have hpending := hsound [] _ 1 "job" "unload" "A" (some 0) rfl (by decide +kernel)
    exact absurd hpending.1 (by decide +kernel)

end OpenBlade
