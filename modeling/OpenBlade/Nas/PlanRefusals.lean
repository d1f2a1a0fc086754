import Mathlib
import OpenBlade.Effects.Traverse
import OpenBlade.Nas.SequentialRefusals

/-!
# What the planner refuses

The sharded planner asks every tape, with new shards if need be, before it refuses a file; so of the two planners only the sequential
one refuses files that some tape would take.
-/

namespace OpenBlade

open Effects

variable {text : PlannerText} {request : ArchivePlanRequest} {file : String} {tapes : List Barcode} {used : Option Int}
  {groups : List (List String)}

/-! ### The sharded planner -/

/-- No tape has as much left as the file takes. -/
def NoRoom (request : ArchivePlanRequest) (tapes : List Barcode) (file : String) (st : Sharding) : Prop :=
  ∀ barcode ∈ tapes, st.remainingOf barcode < request.fileSize file

/-- One file after another is assigned. -/
def Assigns (request : ArchivePlanRequest) (tapes : List Barcode) : Sharding → Sharding → Prop :=
  Relation.ReflTransGen fun st st' => ∃ preferredTape ∈ tapes, ∃ file, st' = (assignFile request tapes preferredTape file st).2

/-- A file is refused: assigning it, whichever tape is preferred, finds no tape. -/
def Refused (request : ArchivePlanRequest) (tapes : List Barcode) (file : String) (st : Sharding) : Prop :=
  ∃ preferredTape ∈ tapes, (assignFile request tapes preferredTape file st).1 = false

theorem remainingOf_noteOversized (request : ArchivePlanRequest) (st : Sharding) (file : String) (barcode : Barcode) :
    (st.noteOversized request file).remainingOf barcode = st.remainingOf barcode := by
  unfold Sharding.noteOversized
  split
  · rfl
  · split <;> rfl

theorem enqueueBlockers_noteOversized (request : ArchivePlanRequest) (st : Sharding) (file : String) :
    (st.noteOversized request file).plan.enqueueBlockers = st.plan.enqueueBlockers := by
  unfold Sharding.noteOversized
  split
  · rfl
  · split <;> rfl

/-- With new shards, a tape accepts whatever it has room for. -/
theorem accepts_resetShards {st : Sharding} {size : Int} {barcode : Barcode} (h : size ≤ st.remainingOf barcode) :
    (if request.shardSizeBytes = none then st else st.resetShards).accepts request size barcode = true := by
  have hroom : (!decide (st.remainingOf barcode < size)) = true := by simpa using h
  cases hshards : request.shardSizeBytes with
  | none =>
    rw [if_pos rfl]
    unfold Sharding.accepts
    rw [hshards, hroom]
    rfl
  | some shardSizeBytes =>
    rw [if_neg (fun h => nomatch h)]
    have hfill : st.resetShards.shardFillOf barcode = 0 := by
      unfold Sharding.shardFillOf Sharding.resetShards
      dsimp only
      rw [Dict.get?_mapValues]
      cases Dict.get? st.shardFillBytes barcode <;> rfl
    have hremaining : st.resetShards.remainingOf barcode = st.remainingOf barcode := rfl
    unfold Sharding.accepts
    rw [hshards, hremaining, hroom, hfill]
    simp

/-- What assigning a file says: nothing when a tape takes it, and otherwise that no tape takes it, when none has room. -/
theorem assignFile_blockers (request : ArchivePlanRequest) (tapes : List Barcode) (preferredTape : Barcode) (file : String) (st : Sharding) :
    ((assignFile request tapes preferredTape file st).1 = true →
        (assignFile request tapes preferredTape file st).2.plan.enqueueBlockers = st.plan.enqueueBlockers) ∧
      ((assignFile request tapes preferredTape file st).1 = false →
        (assignFile request tapes preferredTape file st).2.plan.enqueueBlockers =
          (st.plan.block (noCapacityText file)).enqueueBlockers ∧ NoRoom request tapes file st) := by
  have hnoted := enqueueBlockers_noteOversized request st file
  have hremaining := remainingOf_noteOversized request st file
  unfold assignFile
  dsimp only
  generalize st.noteOversized request file = noted at hnoted hremaining
  split
  · exact ⟨fun _ => hnoted, fun h => nomatch h⟩
  · have hagain : (if request.shardSizeBytes = none then noted else noted.resetShards).plan = noted.plan := by
      split <;> rfl
    split
    · exact ⟨fun _ => (congrArg ArchivePlan.enqueueBlockers hagain).trans hnoted, fun h => nomatch h⟩
    · rename_i hnone
      refine ⟨fun h => (nomatch h), fun _ => ⟨?_, fun barcode hbarcode => ?_⟩⟩
      · show (ArchivePlan.block _ (noCapacityText file)).enqueueBlockers = _
        unfold ArchivePlan.block
        dsimp only
        rw [hagain, hnoted]
      · by_contra hroom
        rw [not_lt, ← hremaining barcode] at hroom
        have hchoice : barcode ∈ preferredTape :: tapes.filter (· ≠ preferredTape) := by
          by_cases hpreferred : barcode = preferredTape
          · exact List.mem_cons.2 (.inl hpreferred)
          · exact List.mem_cons_of_mem _ (List.mem_filter.2 ⟨hbarcode, decide_eq_true hpreferred⟩)
        exact List.find?_eq_none.1 hnone barcode hchoice (accepts_resetShards hroom)

/-- Whatever is said while files are assigned was said before, or is said of a file at a moment when no tape has room for it. -/
theorem Assigns.blockers {st st' : Sharding} (h : Assigns request tapes st st') {message : String}
    (hmessage : message ∈ st'.plan.enqueueBlockers) :
    message ∈ st.plan.enqueueBlockers ∨ ∃ file, message = noCapacityText file ∧ ∃ moment, Assigns request tapes st moment ∧
      Assigns request tapes moment st' ∧ Refused request tapes file moment ∧ NoRoom request tapes file moment := by
  induction h with
  | refl => exact .inl hmessage
  | tail hbefore hstep ih =>
    rename_i before after
    have hlast : Assigns request tapes before after := .single hstep
    obtain ⟨preferredTape, hpreferred, file, rfl⟩ := hstep
    obtain ⟨htaken, hrefused⟩ := assignFile_blockers request tapes preferredTape file before
    have hearlier (hold : message ∈ before.plan.enqueueBlockers) : message ∈ st.plan.enqueueBlockers ∨
        ∃ other, message = noCapacityText other ∧ ∃ moment, Assigns request tapes st moment ∧
          Assigns request tapes moment (assignFile request tapes preferredTape file before).2 ∧
          Refused request tapes other moment ∧ NoRoom request tapes other moment := by
      refine (ih hold).imp id fun hreport => ?_
      obtain ⟨other, htext, moment, hfrom, hto, hrest⟩ := hreport
      exact ⟨other, htext, moment, hfrom, hto.trans hlast, hrest⟩
    cases hout : (assignFile request tapes preferredTape file before).1 with
    | true => exact hearlier (htaken hout ▸ hmessage)
    | false =>
      obtain ⟨hblockers, hroom⟩ := hrefused hout
      rw [hblockers] at hmessage
      by_cases hold : message ∈ before.plan.enqueueBlockers
      · exact hearlier hold
      · refine .inr ⟨file, ?_, before, hbefore, hlast, ⟨preferredTape, hpreferred, hout⟩, hroom⟩
        unfold ArchivePlan.block at hmessage
        dsimp only at hmessage
        split at hmessage
        · exact absurd hmessage hold
        · exact List.mem_singleton.1 ((List.mem_append.1 hmessage).resolve_left hold)

theorem assigns_assignFiles {prefer : Nat → String → Sharding → Except Exn Barcode} {index : Nat} {files : List String}
    {st st' : Sharding} (hprefer : ∀ index file st barcode, prefer index file st = .ok barcode → barcode ∈ tapes)
    (hrun : assignFiles request tapes prefer index files st = .ok st') : Assigns request tapes st st' := by
  induction files generalizing index st with
  | nil =>
    obtain rfl := Except.ok.inj hrun
    exact .refl
  | cons file files ih =>
    rw [assignFiles] at hrun
    obtain ⟨preferredTape, hchoice, hrun⟩ := Effects.bind_eq_ok.1 hrun
    have hstep : Assigns request tapes st (assignFile request tapes preferredTape file st).2 :=
      .single ⟨preferredTape, hprefer _ _ _ _ hchoice, file, rfl⟩
    split at hrun
    · rename_i st₁ hassigned
      rw [hassigned] at hstep
      exact hstep.trans (ih hrun)
    · rename_i st₁ hassigned
      rw [hassigned] at hstep
      obtain rfl := Except.ok.inj hrun
      exact hstep

theorem assigns_assignGroups {groups : List (List String)} {st st' : Sharding}
    (hrun : assignGroups request tapes groups st = .ok st') : Assigns request tapes st st' := by
  induction groups generalizing st with
  | nil =>
    obtain rfl := Except.ok.inj hrun
    exact .refl
  | cons group groups ih =>
    rw [assignGroups] at hrun
    obtain ⟨preferredTape, hchoice, hrun⟩ := Effects.bind_eq_ok.1 hrun
    split at hrun
    · obtain ⟨st₁, hgroup, hrun⟩ := Effects.bind_eq_ok.1 hrun
      have hfiles := assigns_assignFiles (fun _ _ _ _ hok => Except.ok.inj hok ▸ mem_of_roomiestTape hchoice) hgroup
      exact hfiles.trans (ih hrun)
    · obtain ⟨st₁, hgroup, hrun⟩ := Effects.bind_eq_ok.1 hrun
      have hfiles := assigns_assignFiles (fun _ _ _ _ hok => mem_of_roomiestTape hok) hgroup
      split at hrun
      · obtain rfl := Except.ok.inj hrun
        exact hfiles
      · exact hfiles.trans (ih hrun)

theorem assigns_assignByLoad {files : List String} {tapeLoads : Dict Barcode Int} {st st' : Sharding}
    (hrun : assignByLoad request tapes files tapeLoads st = .ok st') : Assigns request tapes st st' := by
  induction files generalizing tapeLoads st with
  | nil =>
    obtain rfl := Except.ok.inj hrun
    exact .refl
  | cons file files ih =>
    rw [assignByLoad] at hrun
    dsimp only at hrun
    split at hrun
    · cases hrun
    · rename_i preferredTape hmin
      have hstep : Assigns request tapes st (assignFile request tapes preferredTape file st).2 :=
        .single ⟨preferredTape, List.argmin_mem hmin, file, rfl⟩
      split at hrun
      · rename_i st₁ hassigned
        rw [hassigned] at hstep
        obtain rfl := Except.ok.inj hrun
        exact hstep
      · rename_i st₁ hassigned
        rw [hassigned] at hstep
        split at hrun
        · cases hrun
        · exact hstep.trans (ih hrun)

/-- Whatever the strategy, it assigns one file after another. -/
theorem assigns_runStrategy {files : List String} {st st' : Sharding} (hrun : runStrategy text request tapes files st = .ok st') :
    Assigns request tapes st st' := by
  unfold runStrategy at hrun
  split at hrun
  · exact assigns_assignFiles (fun _ _ _ _ hok => mem_of_tapeAt hok) hrun
  · exact assigns_assignFiles (fun _ _ _ _ hok => mem_of_roomiestTape hok) hrun
  · exact assigns_assignGroups hrun
  · exact assigns_assignFiles (fun _ _ _ _ hok => mem_of_hashedTape hok) hrun
  · exact assigns_assignByLoad hrun

theorem enqueueBlockers_finish (st : Sharding) : (st.finish request tapes).enqueueBlockers = st.plan.enqueueBlockers := by
  unfold Sharding.finish
  dsimp only
  split
  · split <;> rfl
  · rfl

/-! ### Every plan -/

/-- The plan is made tape after tape: the request passes every check and asks for it, or leaves the choice and has few enough bytes. -/
structure FillsTapes (text : PlannerText) (request : ArchivePlanRequest) : Prop where
  media : request.checkMedia = .ok ()
  checks : (applyCommonChecks request (draftPlan request)).isSafeToEnqueue = true
  policy : request.policyType.getD .balanced = .criticalSequential ∨ request.policyType.getD .balanced = .balanced ∧
    (draftPlan request).totalBytes ≤ text.percentOf 85 request.singleTapeCapacity

/-- A plan refuses only what cannot be placed: a file that is too large for every tape, or one no tape has room for when it is
assigned. -/
structure RefusesUnplaceable (text : PlannerText) (request : ArchivePlanRequest) (plan : ArchivePlan) : Prop where
  exceeds : ∀ file, exceedsText file ∈ plan.enqueueBlockers →
    ∀ barcode ∈ request.availableTapes, request.tapeCapacity barcode < request.fileSize file
  noCapacity : ∀ file, noCapacityText file ∈ plan.enqueueBlockers → ∃ draft moment last,
    Assigns request (orderedTapes text request) (.start request draft (orderedTapes text request)) moment ∧
      Assigns request (orderedTapes text request) moment last ∧ plan.enqueueBlockers = last.plan.enqueueBlockers ∧
      Refused request (orderedTapes text request) file moment ∧ NoRoom request request.availableTapes file moment

/-- What the checks before any planning say. -/
structure Checked (plan : ArchivePlan) : Prop where
  safe : plan.isSafeToEnqueue = true → plan.enqueueBlockers = []
  blockers : ∀ message ∈ plan.enqueueBlockers,
    message = "No files to archive" ∨ message = "No tapes available" ∨ message = poolBudgetBlocker

theorem Checked.block {plan : ArchivePlan} (h : Checked plan) {message : String}
    (hmessage : message = "No files to archive" ∨ message = "No tapes available" ∨ message = poolBudgetBlocker) :
    Checked (plan.block message) where
  safe := fun hsafe => nomatch hsafe
  blockers := by
    intro other hother
    unfold ArchivePlan.block at hother
    dsimp only at hother
    split at hother
    · exact h.blockers other hother
    · rcases List.mem_append.1 hother with hother | hother
      · exact h.blockers other hother
      · rw [List.mem_singleton.1 hother]
        exact hmessage

theorem checked_applyCommonChecks (request : ArchivePlanRequest) : Checked (applyCommonChecks request (draftPlan request)) := by
  have hdraft : Checked (draftPlan request) := ⟨fun _ => rfl, fun _ h => absurd h List.not_mem_nil⟩
  have hwarned (plan : ArchivePlan) (message : String) (field : Option String) (h : Checked plan) :
      Checked (plan.addCapacityWarning message field) := ⟨h.safe, h.blockers⟩
  have hfiles := hdraft.block (.inl rfl)
  unfold applyCommonChecks checkPoolBudget
  dsimp only
  -- The three checks, one behind the other.
  generalize hfirst : (if request.files = [] then (draftPlan request).block "No files to archive" else draftPlan request) = first
  have hchecked : Checked first := by
    rw [← hfirst]
    split
    · exact hfiles
    · exact hdraft
  generalize hsecond : (if request.availableTapes = [] then first.block "No tapes available" else first) = second
  have hchecked' : Checked second := by
    rw [← hsecond]
    split
    · exact hchecked.block (.inr (.inl rfl))
    · exact hchecked
  generalize hthird : (if second.copiesRequired > request.availableTapes.length then
      second.addCapacityWarning "Requested copies exceed number of available tapes" (some "copies") else second) = third
  have hchecked'' : Checked third := by
    rw [← hthird]
    split
    · exact hwarned _ _ _ hchecked'
    · exact hchecked'
  split
  · exact hchecked''
  · split
    · exact hchecked''.block (.inr (.inr rfl))
    · exact hchecked''

theorem Checked.not_refused {plan : ArchivePlan} (h : Checked plan) (file : String) :
    exceedsText file ∉ plan.enqueueBlockers ∧ noCapacityText file ∉ plan.enqueueBlockers := by
  constructor
  · intro hmem
    rcases h.blockers _ hmem with heq | heq | heq
    · exact ne_exceedsText (by decide) file heq.symm
    · exact ne_exceedsText (by decide) file heq.symm
    · exact ne_exceedsText (by decide) file heq.symm
  · intro hmem
    rcases h.blockers _ hmem with heq | heq | heq
    · exact ne_noCapacityText (by simp) file heq.symm
    · exact ne_noCapacityText (by simp) file heq.symm
    · exact ne_noCapacityText (by simp [poolBudgetBlocker]) file heq.symm

/-! ### Another policy -/

theorem firstSplitIndex_congr {other : ArchivePlanRequest} (hsize : request.fileSize = other.fileSize) (capacity consumed : Int)
    (files : List String) : request.firstSplitIndex capacity consumed files = other.firstSplitIndex capacity consumed files := by
  induction files generalizing consumed with
  | nil => rfl
  | cons file files ih => rw [ArchivePlanRequest.firstSplitIndex, ArchivePlanRequest.firstSplitIndex, hsize, ih]

/-- Which tape is begun with which file is a matter of sizes and capacities. -/
theorem BeginsTape.congr {other : ArchivePlanRequest} (hsize : request.fileSize = other.fileSize)
    (hcapacity : request.tapeCapacity = other.tapeCapacity) {tape : Barcode} (h : BeginsTape request file tape tapes used groups) :
    BeginsTape other file tape tapes used groups := by
  have htotal (group : List String) : request.totalSize group = other.totalSize group := by
    unfold ArchivePlanRequest.totalSize
    rw [hsize]
  induction h with
  | here => exact .here
  | fits hfits _ ih =>
    rw [htotal] at hfits ih
    exact .fits (hcapacity ▸ hfits) ih
  | waits hover hwhole _ ih =>
    rw [htotal, hcapacity] at hover hwhole
    exact .waits hover hwhole ih
  | splits hover hlarge htakes _ ih =>
    rw [htotal, hcapacity] at hover hlarge
    rw [firstSplitIndex_congr hsize, hcapacity] at htakes ih
    exact .splits hover hlarge htakes ih

theorem overflows_congr {other : ArchivePlanRequest} (hsize : request.fileSize = other.fileSize)
    (hcapacity : request.tapeCapacity = other.tapeCapacity) :
    Overflows request file tapes used groups ↔ Overflows other file tapes used groups := by
  unfold Overflows
  rw [hsize, hcapacity]
  exact exists_congr fun tape => and_congr_left fun _ => ⟨.congr hsize hcapacity, .congr hsize.symm hcapacity.symm⟩

/-! ### The plan -/

/-- What a sharded plan says of files, and when it came to say so. -/
theorem planNoncriticalSharded_refuses {plan plan' : ArchivePlan} (hblockers : plan.enqueueBlockers = [])
    (hplan : planNoncriticalSharded text request plan = .ok plan') :
    (∀ file, exceedsText file ∉ plan'.enqueueBlockers) ∧ RefusesUnplaceable text request plan' := by
  unfold planNoncriticalSharded at hplan
  obtain ⟨last, hrun, hplan⟩ := Effects.bind_eq_ok.1 hplan
  obtain rfl := Except.ok.inj hplan
  have hsaid (message : String) (h : message ∈ (last.finish request (orderedTapes text request)).enqueueBlockers) := by
    rw [enqueueBlockers_finish] at h
    have hstart : message ∉ (Sharding.start request plan (orderedTapes text request)).plan.enqueueBlockers := by
      show message ∉ plan.enqueueBlockers
      rw [hblockers]
      exact List.not_mem_nil
    exact ((assigns_runStrategy hrun).blockers h).resolve_left hstart
  have hexceeds (file : String) : exceedsText file ∉ (last.finish request (orderedTapes text request)).enqueueBlockers := by
    intro h
    obtain ⟨other, htext, -⟩ := hsaid _ h
    exact exceedsText_ne_noCapacityText file other htext
  refine ⟨hexceeds, fun file h => absurd h (hexceeds file), fun file h => ?_⟩
  obtain ⟨other, htext, moment, hfrom, hto, hrefused, hroom⟩ := hsaid _ h
  obtain rfl := noCapacityText_inj htext
  exact ⟨plan, moment, last, hfrom, hto, enqueueBlockers_finish last, hrefused,
    fun barcode hbarcode => hroom barcode (mem_orderedTapes.2 hbarcode)⟩

theorem enqueueBlockers_warnSharding (plan : ArchivePlan) (reasons : List String) :
    (warnSharding plan reasons).enqueueBlockers = plan.enqueueBlockers := by
  unfold warnSharding
  induction reasons generalizing plan with
  | nil => rfl
  | cons reason reasons ih => exact ih _

/-- A request planned tape after tape refuses a file exactly when a tape is begun with it that does not take it. -/
theorem archivePlan_of_fillsTapes (hsizes : ∀ file, 0 ≤ request.fileSize file) (h : FillsTapes text request) :
    ∃ plan, archivePlan text request = .ok plan ∧ ∀ file, noCapacityText file ∉ plan.enqueueBlockers ∧
      (exceedsText file ∈ plan.enqueueBlockers ↔
        (∀ barcode ∈ request.availableTapes, request.tapeCapacity barcode < (draftPlan request).totalBytes) ∧
          Overflows request file (orderedTapes text request) none (directoryGroups (draftPlan request).files)) := by
  have hchecked := (checked_applyCommonChecks request).safe h.checks
  have hterms := (applyCommonChecks_safe h.checks).1
  obtain ⟨hfiles, hbytes, -⟩ : (applyCommonChecks request (draftPlan request)).files = (draftPlan request).files ∧
      (applyCommonChecks request (draftPlan request)).totalBytes = (draftPlan request).totalBytes ∧ _ := by
    simpa [ArchivePlan.terms] using hterms
  unfold archivePlan
  rw [h.media]
  simp only [bind, Except.bind]
  rw [if_neg (by simp [h.checks])]
  rw [← hfiles, ← hbytes]
  rcases h.policy with hpolicy | ⟨hpolicy, hfew⟩
  · rw [hpolicy]
    have hplan := mem_enqueueBlockers_planCriticalSequential text hsizes hchecked
    exact ⟨_, rfl, fun file => ⟨(hplan file).2, (hplan file).1⟩⟩
  · rw [hpolicy]
    dsimp only
    unfold planBalanced
    rw [if_neg (by rw [hbytes]; exact not_lt.2 hfew)]
    have hsizes' : ∀ file, 0 ≤ (request.withPolicy .criticalSequential request.shardStrategy).fileSize file := hsizes
    have hplan := mem_enqueueBlockers_planCriticalSequential text hsizes' hchecked
    refine ⟨_, rfl, fun file => ⟨(hplan file).2, (hplan file).1.trans (and_congr Iff.rfl ?_)⟩⟩
    exact overflows_congr rfl rfl

/-- Any other plan refuses only what cannot be placed. -/
theorem archivePlan_of_not_fillsTapes {plan : ArchivePlan} (hnot : ¬FillsTapes text request)
    (hplan : archivePlan text request = .ok plan) : RefusesUnplaceable text request plan := by
  unfold archivePlan at hplan
  obtain ⟨u, hmedia, hplan⟩ := Effects.bind_eq_ok.1 hplan
  have hchecked := checked_applyCommonChecks request
  have hfills (hsafe : (applyCommonChecks request (draftPlan request)).isSafeToEnqueue = true) (hpolicy) :=
    hnot ⟨hmedia, hsafe, hpolicy⟩
  have hbytes (hsafe : (applyCommonChecks request (draftPlan request)).isSafeToEnqueue = true) :
      (applyCommonChecks request (draftPlan request)).totalBytes = (draftPlan request).totalBytes :=
    congrArg (fun terms => terms.2.1) (applyCommonChecks_safe hsafe).1
  dsimp only at hplan
  generalize applyCommonChecks request (draftPlan request) = checked at hplan hchecked hfills hbytes
  split at hplan
  · obtain rfl := Except.ok.inj hplan
    exact ⟨fun file h => absurd h (hchecked.not_refused file).1, fun file h => absurd h (hchecked.not_refused file).2⟩
  · rename_i hunsafe
    have hsafe : checked.isSafeToEnqueue = true := by simpa using hunsafe
    split at hplan
    · rename_i hpolicy
      exact absurd (.inl hpolicy) (hfills hsafe)
    · exact (planNoncriticalSharded_refuses (hchecked.safe hsafe) hplan).2
    · rename_i hpolicy
      unfold planBalanced at hplan
      split at hplan
      · have hwarned := (enqueueBlockers_warnSharding checked (shardingReasons request checked)).trans (hchecked.safe hsafe)
        obtain ⟨hexceeds, hnoCapacity⟩ := (planNoncriticalSharded_refuses hwarned hplan).2
        exact ⟨hexceeds, hnoCapacity⟩
      · rename_i hfew
        rw [hbytes hsafe] at hfew
        exact absurd (.inr ⟨hpolicy, not_lt.1 hfew⟩) (hfills hsafe)

/-- A tape of its own for the small file, and one for the large file, which comes first. -/
def mixedTapesRequest : ArchivePlanRequest where
  policyType := some .criticalSequential
  files := ["/data/large", "/data/small"]
  fileSizes := [("/data/large", 950), ("/data/small", 100)]
  availableTapes := ["TAPE01", "TAPE02"]
  tapeCapacities := [("TAPE01", 100), ("TAPE02", 1000)]

/-- The same tapes in the other order. -/
def mixedTapesReversed : ArchivePlanRequest := { mixedTapesRequest with availableTapes := ["TAPE02", "TAPE01"] }

end OpenBlade
