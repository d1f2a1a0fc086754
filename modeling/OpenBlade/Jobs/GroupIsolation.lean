import OpenBlade.Jobs.LaneIsolation

/-!
# Volume groups stay apart

Archive jobs of both kinds, one after the other, into any volume groups. A tape that holds archived instances belongs to one
volume group and holds instances of its files only, and no job writes to a tape that is away or belongs to another group. That is
so unless a sharded job is given a lane that is not its group's, a tape of the group is marked missing or cleaning, or a file is
archived under a path whose record belongs to another group and has instances.
-/

namespace OpenBlade

open Effects Proc

/-- What happens to the tapes: jobs, and word of what has become of a cartridge. -/
inductive ArchiveEvent where
  | archive (request : ArchiveRequest) (scheduler : DriveScheduler) (jobId : JobId)
  | shardedArchive (request : ShardedArchiveRequest) (scheduler : DriveScheduler) (jobId : JobId)
  /-- `_record_cartridge_state`. -/
  | mark (barcode : Barcode) (state : String)
  deriving Repr, DecidableEq

namespace ArchiveEvent

variable (sha256 : Bytes → String)

/-- The volume group of a job, by name. -/
def groupName : ArchiveEvent → String
  | archive request _ _ => request.volumeGroupName
  | shardedArchive request _ _ => request.volumeGroupName
  | mark _ _ => ""

/-- The calls of a job, up to its end or to where it is cut. -/
def steps (cs : List Choice) (w : World) : ArchiveEvent → List (Step World Op fun o => Except Exn o.Ans)
  | archive request scheduler jobId => (machine sha256).trace cs (runArchiveJob sha256 request scheduler jobId {}) w
  | shardedArchive request scheduler jobId => (machine sha256).trace cs (runShardedArchive sha256 request scheduler jobId {}) w
  | mark _ _ => []

def after (cs : List Choice) (w : World) : ArchiveEvent → World
  | archive request scheduler jobId => ((machine sha256).run cs (runArchiveJob sha256 request scheduler jobId {}) w).2
  | shardedArchive request scheduler jobId => ((machine sha256).run cs (runShardedArchive sha256 request scheduler jobId {}) w).2
  | mark barcode state => { w with catalog := ((w.catalog.addCartridge barcode none).2.setCartridgeState barcode state).2 }

/-- Where a job may start: a sharded job with lanes that are new or its group's and in use, the other with no tape to choose that
is missing or cleaning. -/
def MayStart (w : World) : ArchiveEvent → Prop
  | archive request _ _ => request.dryRun = false → request.files ≠ [] → ∀ cartridge ∈ w.catalog.cartridges,
      cartridge.state = "missing" ∨ cartridge.state = "cleaning" → isCleaningBarcode cartridge.barcode = true ∨
        cartridge.volumeGroupId ∉ none :: (w.catalog.getVolumeGroup request.volumeGroupName).toList.map fun group => some group.id
  | shardedArchive request _ _ => request.dryRun = false → request.files ≠ [] → ∀ barcode ∈ request.laneBarcodes,
      w.catalog.getCartridge barcode = none ∨
        ∃ group, w.catalog.getVolumeGroup request.volumeGroupName = some group ∧ w.catalog.Ours group.id barcode
  | mark _ _ => True

end ArchiveEvent

/-- Every job starts where it may, and every step of it finds its group's records. -/
def AllMeet (sha256 : Bytes → String) : List (ArchiveEvent × List Choice) → World → Prop
  | [], _ => True
  | (event, cs) :: history, w =>
    event.MayStart w ∧ (∀ st ∈ event.steps sha256 cs w, KeepsRecords st) ∧ AllMeet sha256 history (event.after sha256 cs w)

/-- Tapes are isolated at every moment, and every write is to a tape of the group of the job. -/
def AlwaysIsolated (sha256 : Bytes → String) : List (ArchiveEvent × List Choice) → World → Prop
  | [], w => w.catalog.TapesIsolated
  | (event, cs) :: history, w =>
    w.catalog.TapesIsolated ∧
      (∀ st ∈ event.steps sha256 cs w, WritesOwn event.groupName st ∧ st.post.catalog.TapesIsolated) ∧
      AlwaysIsolated sha256 history (event.after sha256 cs w)

namespace IsolationAux

open Catalog

/-! ## The archive job -/

section calls

variable {sha256 : Bytes → String} {name : String} {group : VolumeGroup} {w₀ s : World} {L : Type} {l : L}

/-- An instance is created on a tape of the group. -/
theorem wp_instance {fileRecordId : Nat} {barcode : Barcode} {path : String} {N : FileInstance → L → World → Prop}
    {E : Exn → L → World → Prop} (hs : Sound name group w₀ s) (hrecord : s.catalog.RecordOf group.id fileRecordId)
    (hours : s.catalog.Ours group.id barcode) (hN : ∀ row s', Sound name group s s' → N row l s')
    (hE : ∀ e s', Sound name group s s' → E e l s') :
    wp (machine sha256) (isolating name) (createFileInstance fileRecordId barcode path : JobM L FileInstance) N E l s := by
  refine wp_sound hs nofun (fun c _ => exec_catalog hs.segregated fun hseg => ?_) (fun c row _ h => hN row _ h) hE
  exact insertInstance_group hseg hrecord hours

/-- A row of a cartridge is saved that leaves it to the group and in use. -/
theorem wp_save {cartridge : Cartridge} {N : Unit → L → World → Prop} {E : Exn → L → World → Prop} (hs : Sound name group w₀ s)
    (hgroup : cartridge.volumeGroupId = some group.id) (huse : cartridge.state ∉ outOfUse)
    (hold : ∃ old, s.catalog.getCartridge cartridge.barcode = some old ∧
      (old.volumeGroupId = none ∨ old.volumeGroupId = some group.id))
    (hN : ∀ s', Sound name group s s' → s'.catalog.Ours group.id cartridge.barcode → N () l s')
    (hE : ∀ e s', Sound name group s s' → E e l s') :
    wp (machine sha256) (isolating name) (saveCartridge cartridge : JobM L Unit) N E l s := by
  obtain ⟨old, hget, howner⟩ := hold
  refine wp_sound hs nofun (fun c _ => exec_catalog hs.segregated fun hseg => ?_) (fun c _ hans hs' => hN _ hs' ?_) hE
  · refine updateCartridge_group hseg (fun _ _ => rfl) (fun found hfound => ?_) hs.id_lt
    have hfound' : s.catalog.getCartridge cartridge.barcode = some found := hfound
    rw [hget] at hfound'
    exact ⟨Option.some.inj hfound' ▸ howner, hgroup, huse⟩
  · refine ⟨cartridge, ?_, hgroup, huse⟩
    show (s.exec sha256 (.catalog (.saveCartridge cartridge)) c).2.catalog.getCartridge cartridge.barcode = some cartridge
    rw [(World.exec_ok sha256 hans).2]
    show ((s.elapse c).catalog.updateCartridge cartridge.barcode fun _ => cartridge).getCartridge cartridge.barcode = some cartridge
    have hget' : (s.elapse c).catalog.getCartridge cartridge.barcode = some old := hget
    rw [getCartridge_updateCartridge (s.elapse c).catalog cartridge.barcode cartridge.barcode (fun _ _ => rfl), hget', Option.map_some,
      if_pos (barcode_of_getCartridge hget')]

/-- A cartridge of the group is added once more. -/
theorem wp_addOwn {barcode : Barcode} {N : Cartridge → L → World → Prop} {E : Exn → L → World → Prop} (hs : Sound name group w₀ s)
    (hours : s.catalog.Ours group.id barcode)
    (hN : ∀ (cartridge : Cartridge) s', Sound name group s s' → cartridge.barcode = barcode →
      cartridge.volumeGroupId = some group.id → N cartridge l s')
    (hE : ∀ e s', Sound name group s s' → E e l s') :
    wp (machine sha256) (isolating name) (addCartridge barcode (some group.id) : JobM L Cartridge) N E l s := by
  obtain ⟨old, hget, howner, huse⟩ := hours
  have hadd : ∀ c, (s.elapse c).catalog.addCartridge barcode (some group.id) = ({ old with volumeGroupId := some group.id },
      (s.elapse c).catalog.updateCartridge barcode fun c => { c with volumeGroupId := some group.id }) := by
    intro c
    have hget' : (s.elapse c).catalog.getCartridge barcode = some old := hget
    rw [Catalog.addCartridge, hget']
  refine wp_sound (o := .catalog (.addCartridge barcode (some group.id))) hs (by rintro _ _ _ ⟨⟩)
    (fun c _ => exec_catalog hs.segregated fun hseg => ?_) (fun c cartridge hans hs' => ?_) hE
  · show ((s.elapse c).catalog.addCartridge barcode (some group.id)).2.Segregated ∧
      Advances name group (s.elapse c).catalog ((s.elapse c).catalog.addCartridge barcode (some group.id)).2
    rw [hadd]
    refine updateCartridge_group hseg (fun _ h => h) (fun found hfound => ?_) hs.id_lt
    have hfound' : s.catalog.getCartridge barcode = some found := hfound
    rw [hget] at hfound'
    obtain rfl := Option.some.inj hfound'
    exact ⟨.inr howner, rfl, huse⟩
  · have hanswer : ((s.elapse c).catalog.addCartridge barcode (some group.id)).1 = cartridge :=
      Except.ok.inj (World.exec_ok sha256 hans).1
    rw [hadd] at hanswer
    refine hN cartridge _ hs' ?_ ?_
    · rw [← hanswer]
      show old.barcode = barcode
      exact barcode_of_getCartridge hget
    · rw [← hanswer]

/-- A cartridge is added to no group: its row is what the call answers. -/
theorem wp_addScratch {barcode : Barcode} {N : Cartridge → L → World → Prop} {E : Exn → L → World → Prop} (hs : Sound name group w₀ s)
    (hN : ∀ (cartridge : Cartridge) s', Sound name group s s' → s'.catalog.getCartridge barcode = some cartridge →
      N cartridge l s')
    (hE : ∀ e s', Sound name group s s' → E e l s') :
    wp (machine sha256) (isolating name) (addCartridge barcode none : JobM L Cartridge) N E l s := by
  refine wp_sound (o := .catalog (.addCartridge barcode none)) hs nofun
    (fun c _ => exec_catalog hs.segregated fun hseg => ?_) (fun c cartridge hans hs' => hN cartridge _ hs' ?_) hE
  · show ((s.elapse c).catalog.addCartridge barcode none).2.Segregated ∧
      Advances name group (s.elapse c).catalog ((s.elapse c).catalog.addCartridge barcode none).2
    exact addCartridge_none hseg barcode
  · have hanswer : ((s.elapse c).catalog.addCartridge barcode none).1 = cartridge := Except.ok.inj (World.exec_ok sha256 hans).1
    have hget := (getCartridge_addCartridge (s.elapse c).catalog barcode).1
    rw [hanswer] at hget
    show (s.exec sha256 (.catalog (.addCartridge barcode none)) c).2.catalog.getCartridge barcode = some cartridge
    rw [(World.exec_ok sha256 hans).2]
    exact hget

end calls

/-! ### Choosing a tape -/

section choice

variable {sha256 : Bytes → String} {name : String} {group : VolumeGroup} {w₀ s : World} {L : Type} {l : L}

theorem neutral_of_looks {α : Type} {m : JobM L α} (h : Looks m) : Only (fun o => o.isNeutral = true) Eq m :=
  h.weaken fun _ ho => Op.isNeutral_of_isPlumbing (Op.isPlumbing_of_isRead ho)

theorem looks_tapeHasRoom (barcode : Barcode) (sizeBytes : Nat) : Looks (tapeHasRoom barcode sizeBytes : JobM L Bool) :=
  only_bind (only_perform rfl) fun _ => only_pure _

/-- One of the tapes that are looked at, not a cleaning tape. -/
theorem wp_chooseAssigned (sizeBytes : Nat) (cartridges : List Cartridge) (hs : Sound name group w₀ s) :
    wp (machine sha256) (isolating name) (chooseAssigned sizeBytes cartridges : JobM L (Option Barcode))
      (fun found l' s' => l' = l ∧ Sound name group s s' ∧ ∀ barcode, found = some barcode →
        ∃ cartridge ∈ cartridges, cartridge.barcode = barcode ∧ isCleaningBarcode barcode = false)
      (fun _ l' s' => l' = l ∧ Sound name group s s') l s := by
  induction cartridges generalizing w₀ s with
  | nil => exact ⟨rfl, hs.here, nofun⟩
  | cons cartridge rest ih =>
    have hrest : ∀ s₁, Sound name group s s₁ →
        wp (machine sha256) (isolating name) (chooseAssigned sizeBytes rest : JobM L (Option Barcode))
          (fun found l' s' => l' = l ∧ Sound name group s s' ∧ ∀ barcode, found = some barcode →
            ∃ c ∈ cartridge :: rest, c.barcode = barcode ∧ isCleaningBarcode barcode = false)
          (fun _ l' s' => l' = l ∧ Sound name group s s') l s₁ := by
      intro s₁ hs₁
      refine wp_mono (ih hs₁) ?_ fun _ l' s' h => ⟨h.1, hs₁.trans h.2⟩
      rintro found l' s' ⟨hl, hs', hfound⟩
      refine ⟨hl, hs₁.trans hs', fun barcode hb => ?_⟩
      obtain ⟨c, hc, h⟩ := hfound barcode hb
      exact ⟨c, List.mem_cons_of_mem _ hc, h⟩
    unfold chooseAssigned
    by_cases hclean : isCleaningBarcode cartridge.barcode = true
    · rw [if_pos hclean]
      exact hrest s hs.here
    · rw [if_neg hclean, wp_bind]
      refine wp_mono (wp_only (neutral_of_looks (looks_tapeHasRoom _ _)) hs) ?_ fun _ l' s' h => ⟨h.1.symm, h.2.1⟩
      rintro room l' s₁ ⟨rfl, hs₁, -⟩
      cases room with
      | false => exact hrest s₁ hs₁
      | true =>
        refine ⟨rfl, hs₁, fun barcode hb => ⟨cartridge, List.mem_cons_self, Option.some.inj hb, ?_⟩⟩
        rw [← Option.some.inj hb]
        exact Bool.eq_false_iff.2 hclean

/-- A tape that is chosen from the inventory is the group's from then on. -/
theorem wp_chooseScratch (sizeBytes : Nat) (barcodes : List Barcode) (hs : Sound name group w₀ s)
    (haway : s.catalog.NoneAway group.id) :
    wp (machine sha256) (isolating name) (chooseScratch group.id sizeBytes barcodes : JobM L (Option Barcode))
      (fun found l' s' => l' = l ∧ Sound name group s s' ∧ ∀ barcode, found = some barcode → s'.catalog.Ours group.id barcode)
      (fun _ l' s' => l' = l ∧ Sound name group s s') l s := by
  induction barcodes generalizing w₀ s with
  | nil => exact ⟨rfl, hs.here, nofun⟩
  | cons barcode rest ih =>
    have hrest : ∀ s₁, Sound name group s s₁ →
        wp (machine sha256) (isolating name) (chooseScratch group.id sizeBytes rest : JobM L (Option Barcode))
          (fun found l' s' => l' = l ∧ Sound name group s s' ∧ ∀ barcode, found = some barcode → s'.catalog.Ours group.id barcode)
          (fun _ l' s' => l' = l ∧ Sound name group s s') l s₁ := by
      intro s₁ hs₁
      refine wp_mono (ih hs₁ (hs₁.advances.away haway)) ?_ fun _ l' s' h => ⟨h.1, hs₁.trans h.2⟩
      exact fun found l' s' h => ⟨h.1, hs₁.trans h.2.1, h.2.2⟩
    unfold chooseScratch
    by_cases hclean : isCleaningBarcode barcode = true
    · rw [if_pos hclean]
      exact hrest s hs.here
    rw [if_neg hclean, wp_bind]
    refine wp_addScratch hs (fun cartridge s₁ hs₁ hget => ?_) fun e s' hs' => ⟨rfl, hs'⟩
    by_cases htaken : cartridge.volumeGroupId ∉ [none, some group.id] ∨ cartridge.state = "exported"
    · rw [if_pos htaken]
      exact hrest s₁ hs₁
    obtain ⟨hfree, hexported⟩ := not_or.1 htaken
    have hbarcode : cartridge.barcode = barcode := barcode_of_getCartridge hget
    rw [if_neg htaken, wp_bind]
    refine wp_mono (wp_only (neutral_of_looks (looks_tapeHasRoom _ _)) hs₁) ?_ fun _ l' s' h => ⟨h.1.symm, hs₁.trans h.2.1⟩
    rintro room l' s₂ ⟨rfl, hs₂, hrows⟩
    have hs₂' := hs₁.trans hs₂
    cases room with
    | false => exact hrest s₂ hs₂'
    | true =>
      have huse : cartridge.state ∉ outOfUse := by
        intro hstate
        have haway₁ := hs₁.advances.away haway cartridge (List.mem_of_find?_eq_some hget)
        rcases List.mem_cons.1 hstate with h | h
        · exact hexported h
        · rcases haway₁ (by simpa using h) with h | h
          · exact hclean (hbarcode ▸ h)
          · exact hfree h
      rw [if_pos rfl, wp_bind]
      refine wp_save hs₂' rfl huse ⟨cartridge, ?_, ?_⟩ (fun s' hs' hours => ⟨rfl, hs₂'.trans hs', fun b hb => ?_⟩) fun e s' hs' =>
        ⟨rfl, hs₂'.trans hs'⟩
      · show s₂.catalog.getCartridge cartridge.barcode = some cartridge
        rw [hbarcode, Catalog.getCartridge, hrows]
        exact hget
      · simpa [or_iff_not_imp_left] using hfree
      · rw [← Option.some.inj hb, ← hbarcode]
        exact hours

/-- The tape that is chosen for a file is the group's and in use. -/
theorem wp_chooseTape (sizeBytes : Nat) (hs : Sound name group w₀ s) (haway : s.catalog.NoneAway group.id) :
    wp (machine sha256) (isolating name) (chooseTape group.id sizeBytes : JobM L Barcode)
      (fun barcode l' s' => l' = l ∧ Sound name group s s' ∧ s'.catalog.Ours group.id barcode)
      (fun _ l' s' => l' = l ∧ Sound name group s s') l s := by
  unfold chooseTape
  rw [wp_bind]
  refine wp_neutral (o := .catalog .listCartridges) rfl hs (fun c cartridges hans hs₁ => ?_) fun e s' h => ⟨rfl, h⟩
  have hlist : s.catalog.listCartridges = cartridges := Except.ok.inj (World.exec_ok sha256 hans).1
  generalize (s.exec sha256 (.catalog .listCartridges) c).2 = s₁ at hs₁ ⊢
  rw [wp_bind]
  refine wp_mono (wp_chooseAssigned sizeBytes _ hs₁) ?_ fun _ l' s' h => ⟨h.1, hs₁.trans h.2⟩
  rintro found l' s₂ ⟨rfl, hs₂, hfound⟩
  have hs₂' := hs₁.trans hs₂
  cases found with
  | some barcode =>
    refine ⟨rfl, hs₂', hs₂'.advances.ours _ ?_⟩
    obtain ⟨cartridge, hmem, rfl, hclean⟩ := hfound barcode rfl
    obtain ⟨hcartridge, hassigned⟩ := List.mem_filter.1 hmem
    obtain ⟨howner, hexported⟩ := of_decide_eq_true hassigned
    have hrow : cartridge ∈ s.catalog.cartridges := by
      rw [← hlist] at hcartridge
      exact (List.mem_insertionSort _).1 hcartridge
    refine ⟨cartridge, hs.segregated.rows cartridge hrow, howner, fun hstate => ?_⟩
    rcases List.mem_cons.1 hstate with h | h
    · exact hexported h
    · rcases haway cartridge hrow (by simpa using h) with h | h
      · rw [hclean] at h
        cases h
      · exact h (by simp [howner])
  | none =>
    rw [wp_bind]
    refine wp_neutral (o := .library .inventory) rfl hs₂' (fun c inv _ hs₃ => ?_) fun e s' h => ⟨rfl, hs₂'.trans h⟩
    have hs₃' := hs₂'.trans hs₃
    rw [wp_bind]
    refine wp_mono (wp_chooseScratch sizeBytes _ hs₃' (hs₃'.advances.away haway)) ?_ fun _ l' s' h => ⟨h.1, hs₃'.trans h.2⟩
    rintro found l' s₄ ⟨rfl, hs₄, hours⟩
    cases found with
    | some barcode => exact ⟨rfl, hs₃'.trans hs₄, hours barcode rfl⟩
    | none => exact ⟨rfl, hs₃'.trans hs₄⟩

end choice

/-! ### The current tape -/

/-- The job may let go of its tape, it takes no other. -/
def ArchiveLocals.Drops (l l' : ArchiveLocals) : Prop :=
  (∀ mountHandle, l'.currentHandle = some mountHandle → l.currentHandle = some mountHandle) ∧
    ∀ barcode, l'.currentBarcode = some barcode → l.currentBarcode = some barcode

instance : IsPreorder ArchiveLocals ArchiveLocals.Drops where
  refl _ := ⟨fun _ h => h, fun _ h => h⟩
  trans _ _ _ h₁ h₂ := ⟨fun m h => h₁.1 m (h₂.1 m h), fun b h => h₁.2 b (h₂.2 b h)⟩

/-- What the job knows of its tape: it is the group's. No tape it may choose is away. -/
structure OnTape (name : String) (group : VolumeGroup) (w₀ : World) (l : ArchiveLocals) (w : World) : Prop where
  sound : Sound name group w₀ w
  away : w.catalog.NoneAway group.id
  mount : ∀ mountHandle, l.currentHandle = some mountHandle → w.catalog.Ours group.id mountHandle.barcode
  tape : ∀ barcode, l.currentBarcode = some barcode → w.catalog.Ours group.id barcode

section tape

variable {sha256 : Bytes → String} {name : String} {group : VolumeGroup} {w₀ w w' s : World} {l l' : ArchiveLocals} {α β : Type}

theorem OnTape.here (h : OnTape name group w₀ l w) : OnTape name group w l w := ⟨h.sound.here, h.away, h.mount, h.tape⟩

theorem OnTape.rebase (h : OnTape name group w₀ l w) (h' : OnTape name group w l' w') : OnTape name group w₀ l' w' :=
  ⟨h.sound.trans h'.sound, h'.away, h'.mount, h'.tape⟩

theorem OnTape.drop (h : OnTape name group w₀ l w) (hs : Sound name group w w') (hl : ArchiveLocals.Drops l l') :
    OnTape name group w₀ l' w' :=
  ⟨h.sound.trans hs, hs.advances.away h.away, fun m hm => hs.advances.ours _ (h.mount m (hl.1 m hm)),
    fun b hb => hs.advances.ours _ (h.tape b (hl.2 b hb))⟩

theorem OnTape.advance (h : OnTape name group w₀ l w) (hs : Sound name group w w') : OnTape name group w₀ l w' :=
  h.drop hs (refl_of ArchiveLocals.Drops l)

/-- `m` keeps to the terms and to what the job knows. -/
abbrev KeepsTape (sha256 : Bytes → String) (name : String) (group : VolumeGroup) (w₀ : World) (m : JobM ArchiveLocals α) : Prop :=
  Keeps (machine sha256) (isolating name) (OnTape name group w₀) m

theorem keepsTape_only {m : JobM ArchiveLocals α} (hm : Only (fun o => o.isNeutral = true) ArchiveLocals.Drops m) :
    KeepsTape sha256 name group w₀ m := by
  intro l s hl
  refine wp_mono (wp_only hm hl.sound) ?_ ?_
  · exact fun _ l' s' h => hl.drop h.2.1 h.1
  · exact fun _ l' s' h => hl.drop h.2.1 h.1

theorem drops_reads {m : JobM ArchiveLocals α} (hm : Reads (fun o => o.isNeutral = true) m) :
    Only (fun o => o.isNeutral = true) ArchiveLocals.Drops m :=
  hm.mono (fun _ ho => ho) fun _ _ h => h ▸ refl_of ArchiveLocals.Drops _

theorem drops_looks {m : JobM ArchiveLocals α} (hm : Looks m) : Only (fun o => o.isNeutral = true) ArchiveLocals.Drops m :=
  drops_reads (neutral_of_looks hm)

theorem keepsTape_call {o : Op} (ho : o.isNeutral = true) : KeepsTape sha256 name group w₀ (perform o : JobM ArchiveLocals o.Ans) :=
  keepsTape_only (only_perform ho)

theorem drops_request {request : TapeOpRequest} (h : request.opType = .load ∨ request.opType = .unload) (raiseOnFailed : Bool) :
    Only (fun o => o.isNeutral = true) ArchiveLocals.Drops (executeTapeRequest request raiseOnFailed) :=
  drops_reads (reads_tapeRequest h (fun _ ho => Op.isNeutral_of_isPlumbing (Op.isPlumbing_of_isRowOf ho)) (fun o => by cases o <;> rfl)
    rfl raiseOnFailed)

theorem drops_putBack (jobId : JobId) (barcode : Barcode) (driveId : Int) (slot : Option Nat) :
    Only (fun o => o.isNeutral = true) ArchiveLocals.Drops (putBack jobId barcode driveId slot) := by
  cases slot with
  | none => exact only_pure ()
  | some slotId => exact only_bind (drops_request (.inr rfl) _) fun _ => only_pure ()

theorem drops_requireLease (lease : Option DriveHandle) :
    Only (fun o => o.isNeutral = true) ArchiveLocals.Drops (requireLease lease : JobM ArchiveLocals DriveHandle) := by
  cases lease with
  | none => exact only_raise _
  | some lease => exact only_pure lease

theorem drops_releaseCurrentLease (jobId : JobId) (original : Option Exn) :
    Only (fun o => o.isNeutral = true) ArchiveLocals.Drops (releaseCurrentLease jobId original) := by
  refine only_bind only_locals fun l => ?_
  cases l.currentLease with
  | none => exact only_pure ()
  | some lease =>
    refine only_bind (only_assign fun l => ⟨fun _ h => h, fun _ h => h⟩) fun _ => ?_
    exact only_bind (drops_reads (reads_releaseDrives (fun _ => rfl) _ _)) fun _ => only_perform rfl

theorem drops_archiveLoadIfNeeded (jobId : JobId) (lane : DriveHandle) :
    Only (fun o => o.isNeutral = true) ArchiveLocals.Drops (archiveLoadIfNeeded jobId lane) := by
  refine only_bind (only_perform rfl) fun found => ?_
  cases found with
  | some driveId =>
    refine only_ite (fun _ => only_bind (only_assign fun l => ⟨fun _ h => h, fun _ h => h⟩) fun _ => only_pure _) fun _ => ?_
    exact only_pure _
  | none =>
    refine only_bind (only_perform rfl) fun slot => ?_
    cases slot with
    | none => exact only_raise _
    | some slotId =>
      refine only_bind (only_handle ?_ fun exc => only_ite (fun _ => only_raise _) fun _ => only_raise _) fun _ => only_pure _
      exact only_bind (drops_request (.inl rfl) _) fun _ => only_pure ()

theorem drops_archiveCleanup (jobId : JobId) : Only (fun o => o.isNeutral = true) ArchiveLocals.Drops (archiveCleanup jobId) := by
  refine only_bind only_locals fun l => ?_
  have hback : ∀ barcode driveId, Only (fun o => o.isNeutral = true) ArchiveLocals.Drops (do
      handle (putBack jobId barcode driveId l.currentSlotId) fun _ => pure ()
      handle amlState fun _ => pure () : JobM ArchiveLocals Unit) := by
    intro barcode driveId
    refine only_bind (only_handle (drops_putBack _ _ _ _) fun _ => only_pure ()) fun _ => ?_
    exact only_handle (only_perform rfl) fun _ => only_pure ()
  cases l.currentHandle with
  | none =>
    dsimp only
    split
    · exact hback _ _
    · exact only_pure ()
  | some mountHandle =>
    refine only_bind (only_handle (only_bind (only_perform rfl) fun _ => only_pure ()) fun _ => only_pure ()) fun _ => ?_
    split
    · exact hback _ _
    · exact only_pure ()

/-- The current tape is put back, and its row is saved as the group's. -/
theorem keepsTape_finalizeCurrentMount (jobId : JobId) : KeepsTape sha256 name group w₀ (finalizeCurrentMount jobId group.id) := by
  intro l s hl
  unfold finalizeCurrentMount
  rw [wp_bind, wp_locals]
  split
  · rename_i mountHandle barcode driveId hmount hbarcode hdrive
    have hours := hl.tape barcode hbarcode
    have hback : KeepsTape sha256 name group s (do
        let cartridge ← addCartridge barcode (some group.id)
        let tape ← ensureTape barcode
        saveCartridge { cartridge with
          usedBytes := tape.usedBytes, capacityBytes := tape.capacityBytes, formatted := tape.formatted
          state := if l.currentSlotId.isSome then "in_slot" else "in_drive" }
        assign fun l => { l with currentBarcode := none, currentHandle := none, currentSlotId := none, currentDriveId := none }
        releaseCurrentLease jobId none) := by
      intro l₁ s₁ h₁
      rw [wp_bind]
      refine wp_addOwn h₁.sound (h₁.sound.advances.ours _ hours) (fun cartridge s₂ hs₂ hcart hgroup => ?_) fun e s' hs' => h₁.advance hs'
      have h₂ := h₁.advance hs₂
      rw [wp_bind]
      refine wp_neutral (o := .ltfs (.ensureTape barcode)) rfl h₂.sound (fun c tape _ hs₃ => ?_) fun e s' hs' => h₂.advance hs'
      have h₃ := h₂.advance hs₃
      obtain ⟨old, hget, howner, -⟩ := h₃.sound.advances.ours _ hours
      rw [wp_bind]
      refine wp_save h₃.sound hgroup ?_ ⟨old, ?_, .inr howner⟩ (fun s₄ hs₄ _ => ?_) fun e s' hs' => h₃.advance hs'
      · show (if l.currentSlotId.isSome then "in_slot" else "in_drive") ∉ outOfUse
        split <;> decide
      · show (s₂.exec sha256 _ c).2.catalog.getCartridge cartridge.barcode = some old
        rw [hcart]
        exact hget
      · have hend : Only (fun o => o.isNeutral = true) ArchiveLocals.Drops (do
            assign fun l : ArchiveLocals =>
              { l with currentBarcode := none, currentHandle := none, currentSlotId := none, currentDriveId := none }
            releaseCurrentLease jobId none) :=
          only_bind (only_assign fun l => ⟨nofun, nofun⟩) fun _ => drops_releaseCurrentLease jobId none
        exact keepsTape_only hend l₁ s₄ (h₃.advance hs₄)
    refine Keeps.wp (I := OnTape name group s) ?_ hl.here (fun _ _ _ h => hl.rebase h) fun _ _ _ h => hl.rebase h
    refine keeps_bind (keepsTape_only (drops_requireLease _)) fun lease => ?_
    refine keeps_bind (keepsTape_only (drops_looks (looks_verifyHandle lease))) fun _ => keeps_bind (keepsTape_call rfl) fun _ => ?_
    refine keeps_bind (keeps_forEach fun id _ => keepsTape_call rfl) fun _ => ?_
    refine keeps_bind (keepsTape_only (only_assign fun l => ⟨fun _ h => h, fun _ h => h⟩)) fun _ => ?_
    refine keeps_bind (keepsTape_only (drops_looks (looks_verifyHandle lease))) fun _ => ?_
    exact keeps_bind (keepsTape_only (drops_putBack _ _ _ _)) fun _ => keeps_bind (keepsTape_call rfl) fun _ => hback
  · exact hl

/-- A tape of the group becomes the current tape. -/
theorem keepsTape_takeTape (scheduler : DriveScheduler) (jobId : JobId) {barcode : Barcode} (hours : w₀.catalog.Ours group.id barcode) :
    KeepsTape sha256 name group w₀ (takeTape scheduler jobId barcode) := by
  have hmount : KeepsTape sha256 name group w₀ (do
      let mountHandle ← mount barcode .readWrite
      assign fun l => { l with
        currentHandle := some mountHandle, currentBarcode := some barcode, tapesUsed := l.tapesUsed ++ [barcode] }) := by
    intro l s hl
    rw [wp_bind]
    refine wp_mountTape hl.sound (fun mountHandle s' hbarcode hs' => ?_) fun e s' hs' => hl.advance hs'
    have hl' := hl.advance hs'
    have hours' := hl'.sound.advances.ours _ hours
    refine ⟨hl'.sound, hl'.away, fun m hm => ?_, fun b hb => ?_⟩
    · rw [← Option.some.inj hm, hbarcode]
      exact hours'
    · exact Option.some.inj hb ▸ hours'
  have hacquire : KeepsTape sha256 name group w₀ (acquireDrives scheduler [barcode]) := by
    intro l s hl
    refine wp_mono (wp_leases hl.sound) ?_ ?_
    · rintro handles l' s' ⟨rfl, hs', -⟩
      exact hl.advance hs'
    · rintro e l' s' ⟨rfl, hs'⟩
      exact hl.advance hs'
  have hfirst : ∀ handles, KeepsTape sha256 name group w₀ (firstHandle handles) := by
    intro handles
    cases handles with
    | nil => exact keeps_raise _
    | cons lane rest => exact keeps_pure lane
  refine keeps_bind hacquire fun handles => keeps_bind (hfirst handles) fun lane => ?_
  refine keeps_bind (keepsTape_only (only_assign fun l => ⟨fun _ h => h, fun _ h => h⟩)) fun _ => keeps_bind (keepsTape_call rfl) fun _ => ?_
  refine keeps_bind (keepsTape_only (drops_archiveLoadIfNeeded jobId lane)) fun taken => ?_
  refine keeps_bind (keepsTape_only (only_assign fun l => ⟨fun _ h => h, fun _ h => h⟩)) fun _ => keeps_bind keeps_locals fun l => ?_
  refine keeps_bind (keepsTape_only (drops_requireLease _)) fun lease => ?_
  refine keeps_bind (keepsTape_only (drops_reads (reads_recordPhysicalDrives (fun _ _ => rfl) _))) fun _ => ?_
  exact keeps_bind (keepsTape_call rfl) fun _ => keeps_bind (keepsTape_only (drops_looks (looks_verifyHandle lease))) fun _ => hmount

/-! ### Files -/

/-- One file is written to the current tape and placed on the tape that was chosen for it. -/
theorem keepsTape_writeArchived (file : SourceFile) (catalogPath checksum : String) (sizeBytes : Nat) {barcode : Barcode}
    (hours : w₀.catalog.Ours group.id barcode) :
    KeepsTape sha256 name group w₀ (writeArchived sha256 group.id file catalogPath barcode checksum sizeBytes) := by
  intro l s hl
  unfold writeArchived
  rw [wp_bind, wp_locals, wp_bind]
  cases hmount : l.currentHandle with
  | none => exact hl
  | some mountHandle =>
    rw [requireMount, wp_pure, wp_bind]
    refine wp_neutral (o := .host (.readSource file)) rfl hl.sound (fun c content _ hs₁ => ?_) fun e s' hs' => hl.advance hs'
    have h₁ := hl.advance hs₁
    generalize (s.exec sha256 (.host (.readSource file)) c).2 = s₁ at hs₁ h₁ ⊢
    rw [wp_bind]
    refine wp_sound (o := .ltfs (.writeFile mountHandle content (posix catalogPath))) h₁.sound (fun handle content path h => ?_)
      (fun c _ => ⟨(exec_ltfs _).segregated h₁.sound.segregated, (exec_ltfs _).advances⟩) (fun c _ _ hs₂ => ?_) fun e s' hs' => h₁.advance hs'
    · cases h
      exact h₁.mount mountHandle hmount
    have h₂ := h₁.advance hs₂
    generalize (s₁.exec sha256 (.ltfs (.writeFile mountHandle content (posix catalogPath))) c).2 = s₂ at hs₂ h₂ ⊢
    rw [wp_bind]
    refine wp_record rfl h₂.sound (fun record s₃ hs₃ hrecord => ?_) fun e s' hs' => h₂.advance hs'
    have h₃ := h₂.advance hs₃
    rw [wp_bind]
    refine wp_instance h₃.sound hrecord (h₃.sound.advances.ours _ hours) (fun row s₄ hs₄ => ?_) fun e s' hs' => h₃.advance hs'
    refine keeps_bind (I := OnTape name group w₀) (keepsTape_call rfl) (fun st => ?_) l s₄ (h₃.advance hs₄)
    exact keeps_ite (fun _ => keeps_raise _) fun _ => keepsTape_only (only_assign fun l => ⟨fun _ h => h, fun _ h => h⟩)

theorem keepsTape_archiveFile (request : ArchiveRequest) (scheduler : DriveScheduler) (jobId : JobId) (file : SourceFile) :
    KeepsTape sha256 name group w₀ (archiveFile sha256 request scheduler group.id jobId file) := by
  refine keeps_bind (keeps_ofExcept _) fun catalogPath => ?_
  refine keeps_bind (keepsTape_only (drops_looks (looks_computeChecksum sha256 file))) fun checksum => ?_
  refine keeps_bind (keepsTape_only (drops_looks (looks_sourceSize file))) fun sizeBytes l s hl => ?_
  rw [wp_bind]
  refine wp_mono (wp_chooseTape sizeBytes hl.sound hl.away) ?_ ?_
  · rintro barcode l₁ s₁ ⟨rfl, hs₁, hours⟩
    have h₁ := hl.advance hs₁
    refine Keeps.wp (I := OnTape name group s₁) ?_ h₁.here (fun _ _ _ h => h₁.rebase h) fun _ _ _ h => h₁.rebase h
    have hwrite : KeepsTape sha256 name group s₁ (writeArchived sha256 group.id file catalogPath barcode checksum sizeBytes) :=
      keepsTape_writeArchived file catalogPath checksum sizeBytes hours
    refine keeps_bind keeps_locals fun l => keeps_ite (fun _ => ?_) fun _ => hwrite
    exact keeps_bind (keepsTape_finalizeCurrentMount jobId) fun _ => keeps_bind (keepsTape_takeTape scheduler jobId hours) fun _ => hwrite
  · rintro e l₁ s₁ ⟨rfl, hs₁⟩
    exact hl.advance hs₁

theorem keepsTape_job (request : ArchiveRequest) (scheduler : DriveScheduler) (jobId : JobId) :
    KeepsTape sha256 name group w₀
      (ensure (handle (archiveBody sha256 request scheduler group.id jobId) (archiveExcept jobId)) (releaseCurrentLease jobId)) := by
  refine keeps_ensure (keeps_handle ?_ fun exc => ?_) fun original => keepsTape_only (drops_releaseCurrentLease jobId original)
  · refine keeps_bind (keeps_forEach fun file _ => keepsTape_archiveFile request scheduler jobId file) fun _ => ?_
    exact keepsTape_finalizeCurrentMount jobId
  · have hend : KeepsTape sha256 name group w₀ (do
        updateJobState jobId "failed" (some (safeJobError exc))
        raise exc : JobM ArchiveLocals Unit) := keeps_bind (keepsTape_call rfl) fun _ => keeps_raise _
    exact keeps_ite (fun _ => hend) fun _ => keeps_bind (keepsTape_only (drops_archiveCleanup jobId)) fun _ => hend

/-- An archive job that may start keeps to the terms. -/
theorem wp_runArchiveJob (request : ArchiveRequest) (scheduler : DriveScheduler) (jobId : JobId) (hseg : s.catalog.Segregated)
    (hstart : (ArchiveEvent.archive request scheduler jobId).MayStart s) :
    wp (machine sha256) (isolating request.volumeGroupName) (runArchiveJob sha256 request scheduler jobId)
      (fun _ _ _ => True) (fun _ _ _ => True) {} s := by
  have hrun : Only (fun o => o.isNeutral = true) Eq (updateJobState jobId "running" none : JobM ArchiveLocals Unit) := only_perform rfl
  unfold runArchiveJob
  rw [wp_bind]
  refine wp_mono (hrun.keeps stable_untouched (show Untouched s s from ⟨hseg, rfl, rfl⟩)) ?_ (fun _ _ _ _ => trivial)
  rintro _ l₁ s₁ ⟨rfl, hs₁⟩
  rw [wp_bind]
  refine wp_mono (wp_ensureVolumeGroup hs₁) ?_ (fun _ _ _ h => h)
  rintro group l₂ s₂ ⟨rfl, hs₂⟩
  split
  · have hdry : Only (fun o => o.isNeutral = true) Eq (do
        let sizes ← mapEach sourceSize request.files
        updateJobState jobId "completed" none
        pure ({ jobId := jobId, filesArchived := request.files.length, bytesArchived := sizes.sum, tapesUsed := [], errors := [] } :
          ArchiveResult) : JobM ArchiveLocals ArchiveResult) := by
      refine only_bind (only_mapEach (fun file => ?_) _) fun sizes => only_bind (only_perform rfl) fun _ => only_pure _
      exact neutral_of_looks (looks_sourceSize file)
    exact wp_mono (wp_only hdry hs₂.sound) (fun _ _ _ _ => trivial) fun _ _ _ _ => trivial
  · rename_i hlive
    obtain ⟨hreal, hfiles⟩ := not_or.1 hlive
    have haway : s₂.catalog.NoneAway group.id := by
      intro cartridge hcartridge hstate
      rw [hs₂.cartridges] at hcartridge
      rcases hstart (by simpa using hreal) hfiles cartridge hcartridge hstate with h | h
      · exact .inl h
      · refine .inr fun hgroup => h ?_
        rcases List.mem_cons.1 hgroup with hnone | hours
        · rw [hnone]
          exact List.mem_cons_self
        · have hours' := List.mem_singleton.1 hours
          rcases hs₂.known with hknown | ⟨-, hnew⟩
          · rw [hknown, hours']
            simp
          · exact absurd hours' (hnew cartridge hcartridge)
    refine Keeps.wp (I := OnTape request.volumeGroupName group s₂) (keeps_bind (keepsTape_job request scheduler jobId) fun _ => ?_)
      ⟨hs₂.sound, haway, nofun, nofun⟩ (fun _ _ _ _ => trivial) fun _ _ _ _ => trivial
    exact keeps_bind keeps_locals fun l => keeps_bind (keepsTape_call rfl) fun _ => keeps_pure _

end tape

end IsolationAux

/-- The calls of a job that may start, and that finds its group's records, keep to the terms, and the tables are in order after it. -/
theorem IsolationAux.event_keeps (sha256 : Bytes → String) (event : ArchiveEvent) (cs : List Choice) (w : World)
    (hseg : w.catalog.Segregated) (hstart : event.MayStart w) (hmeet : ∀ st ∈ event.steps sha256 cs w, KeepsRecords st) :
    (∀ st ∈ event.steps sha256 cs w, WritesOwn event.groupName st ∧ st.post.catalog.Segregated) ∧
      (event.after sha256 cs w).catalog.Segregated := by
  have hrun : ∀ {α : Type} {p : Prog Op (fun o => Except Exn o.Ans) α} {Q : α → World → Prop},
      p.wp (machine sha256) (isolating event.groupName) Q w → (∀ st ∈ (machine sha256).trace cs p w, KeepsRecords st) →
      (∀ st ∈ (machine sha256).trace cs p w, WritesOwn event.groupName st ∧ st.post.catalog.Segregated) ∧
        ((machine sha256).run cs p w).2.catalog.Segregated := by
    intro α p Q hwp hmeet
    have hguar := (run_of_wp hwp cs hmeet).1
    refine ⟨hguar, ?_⟩
    rcases (machine sha256).run_state cs p w with h | ⟨st, hst, h⟩
    · rw [h]
      exact hseg
    · exact h ▸ (hguar st hst).2
  cases event with
  | archive request scheduler jobId => exact hrun (wp_runArchiveJob request scheduler jobId hseg hstart) hmeet
  | shardedArchive request scheduler jobId => exact hrun (wp_runShardedArchive request scheduler jobId hseg hstart) hmeet
  | mark barcode state => exact ⟨fun st hst => absurd hst List.not_mem_nil, Catalog.mark_segregated hseg barcode state⟩

namespace TwoGroups

/-- A checksum that shows the bytes themselves. -/
def bytesSum (bytes : Bytes) : String := String.ofList (bytes.map fun byte => Char.ofNat byte.toNat)

def scheduler : DriveScheduler := { numDrives := 1, jobId := "J" }

/-- The tape is in the drive. -/
def world : World :=
  { catalog := { jobs := [{ id := "J" }] }, library := { slots := [(1, none)], drives := [(0, { barcode := some "T1" })] } }

def lane : ShardedArchiveRequest :=
  { sourcePath := "/src", files := [{ path := "/src/a", content := [1, 2, 3] }], volumeGroupName := "vg", laneBarcodes := ["T1"] }

def classic : ArchiveRequest :=
  { sourcePath := "/src", files := [{ path := "/src/b", content := [4] }], volumeGroupName := "vg" }

/-- A sharded job and an archive job for one group, with word of another tape between them. -/
def history : List (ArchiveEvent × List Choice) :=
  [(.shardedArchive lane scheduler "J", List.replicate 60 {}), (.mark "T2" "exported", []),
    (.archive classic scheduler "J", List.replicate 60 {})]

/-- The other group has the tape. -/
def taken : World :=
  { world with catalog := { world.catalog with
      nextId := 1, volumeGroups := [{ id := 0, name := "other" }], cartridges := [{ barcode := "T1", volumeGroupId := some 0 }] } }

end TwoGroups

end OpenBlade
