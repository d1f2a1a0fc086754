import Mathlib
import OpenBlade.Nas.PlanSoundness

/-!
# What the sequential planner refuses

The sequential planner gives up when the file at hand is too large for a tape that is just begun, whatever the tapes before and after it
take; so which file a tape is begun with decides what it refuses.
-/

namespace OpenBlade

open Effects

/-- What the sequential planner says of a file. -/
def exceedsText (file : String) : String := "File " ++ file ++ " exceeds available tape capacity"

/-- What the sharded planner says of a file. -/
def noCapacityText (file : String) : String := "Insufficient tape capacity for file " ++ file

section

variable (request : ArchivePlanRequest) (file : String) (tape : Barcode)

/-- Filling tapes in their order, directory by directory, `tape` is begun with `file` at hand. A directory stays together where one
tape takes it: it waits for the next tape when it does not fit behind what the tape at hand has taken; a larger one is split. -/
inductive BeginsTape : List Barcode → Option Int → List (List String) → Prop where
  | here {tapes : List Barcode} {group : List String} {groups : List (List String)} :
      BeginsTape (tape :: tapes) none ((file :: group) :: groups)
  | fits {barcode : Barcode} {tapes : List Barcode} {used : Option Int} {group : List String} {groups : List (List String)}
      (hfits : used.getD 0 + request.totalSize group ≤ request.tapeCapacity barcode)
      (hrest : BeginsTape (barcode :: tapes) (some (used.getD 0 + request.totalSize group)) groups) :
      BeginsTape (barcode :: tapes) used (group :: groups)
  | waits {barcode : Barcode} {tapes : List Barcode} {used : Int} {group : List String} {groups : List (List String)}
      (hover : request.tapeCapacity barcode < used + request.totalSize group)
      (hwhole : request.totalSize group ≤ request.tapeCapacity barcode) (hrest : BeginsTape tapes none (group :: groups)) :
      BeginsTape (barcode :: tapes) (some used) (group :: groups)
  | splits {barcode : Barcode} {tapes : List Barcode} {used : Option Int} {group : List String} {groups : List (List String)}
      (hover : request.tapeCapacity barcode < used.getD 0 + request.totalSize group)
      (hlarge : request.tapeCapacity barcode < request.totalSize group)
      (htakes : used = none → request.firstSplitIndex (request.tapeCapacity barcode - used.getD 0) 0 group ≠ 0)
      (hrest : BeginsTape tapes none
        (group.drop (request.firstSplitIndex (request.tapeCapacity barcode - used.getD 0) 0 group) :: groups)) :
      BeginsTape (barcode :: tapes) used (group :: groups)

/-- A tape is begun with a file that is too large for it. -/
def Overflows (tapes : List Barcode) (used : Option Int) (groups : List (List String)) : Prop :=
  ∃ tape, BeginsTape request file tape tapes used groups ∧ request.tapeCapacity tape < request.fileSize file

end

variable {text : PlannerText} {request : ArchivePlanRequest} {file : String} {barcode : Barcode} {tapes : List Barcode}
  {used : Option Int} {group : List String} {groups : List (List String)}

/-! ### Which tape is begun with which file -/

theorem not_overflows_nil : ¬Overflows request file [] used groups := fun ⟨_, h, _⟩ => nomatch h

theorem not_overflows_done : ¬Overflows request file tapes used [] := fun ⟨_, h, _⟩ => nomatch h

/-- A file of a group is no larger than the group. -/
theorem fileSize_le_totalSize (hsizes : ∀ file, 0 ≤ request.fileSize file) (file : String) (group : List String) :
    request.fileSize file ≤ request.totalSize (file :: group) := by
  have hrest : 0 ≤ (group.map request.fileSize).sum := List.sum_nonneg fun size hsize => by
    obtain ⟨other, -, rfl⟩ := List.mem_map.1 hsize
    exact hsizes other
  unfold ArchivePlanRequest.totalSize
  rw [List.map_cons, List.sum_cons]
  omega

/-- A group that fits is placed. -/
theorem overflows_fits (hsizes : ∀ file, 0 ≤ request.fileSize file)
    (hfits : used.getD 0 + request.totalSize group ≤ request.tapeCapacity barcode) :
    Overflows request file (barcode :: tapes) used (group :: groups) ↔
      Overflows request file (barcode :: tapes) (some (used.getD 0 + request.totalSize group)) groups := by
  constructor
  · rintro ⟨tape, hbegins, hlarge⟩
    cases hbegins with
    | here =>
      rename_i rest
      have hle := fileSize_le_totalSize hsizes file rest
      rw [Option.getD_none] at hfits
      omega
    | fits _ hrest => exact ⟨tape, hrest, hlarge⟩
    | waits hover => exact absurd hfits (not_le.2 hover)
    | splits hover => exact absurd hfits (not_le.2 hover)
  · rintro ⟨tape, hbegins, hlarge⟩
    exact ⟨tape, .fits hfits hbegins, hlarge⟩

/-- A group that would fit on a tape of its own waits for one. -/
theorem overflows_waits {used : Int} (hover : request.tapeCapacity barcode < used + request.totalSize group)
    (hwhole : request.totalSize group ≤ request.tapeCapacity barcode) :
    Overflows request file (barcode :: tapes) (some used) (group :: groups) ↔ Overflows request file tapes none (group :: groups) := by
  constructor
  · rintro ⟨tape, hbegins, hlarge⟩
    cases hbegins with
    | fits hfits => exact absurd hfits (not_le.2 hover)
    | waits _ _ hrest => exact ⟨tape, hrest, hlarge⟩
    | splits _ hsplit => exact absurd hwhole (not_le.2 hsplit)
  · rintro ⟨tape, hbegins, hlarge⟩
    exact ⟨tape, .waits hover hwhole hbegins, hlarge⟩

/-- The first file of a group that is split after it fits. -/
theorem head_fits_of_split {capacity : Int} {rest : List String} (h : request.firstSplitIndex capacity 0 (file :: rest) ≠ 0) :
    request.fileSize file ≤ capacity := by
  rw [ArchivePlanRequest.firstSplitIndex] at h
  split at h
  · exact absurd rfl h
  · omega

/-- A group no tape takes whole is split. -/
theorem overflows_splits (hover : request.tapeCapacity barcode < used.getD 0 + request.totalSize group)
    (hlarge : request.tapeCapacity barcode < request.totalSize group)
    (htakes : used = none → request.firstSplitIndex (request.tapeCapacity barcode - used.getD 0) 0 group ≠ 0) :
    Overflows request file (barcode :: tapes) used (group :: groups) ↔
      Overflows request file tapes none
        (group.drop (request.firstSplitIndex (request.tapeCapacity barcode - used.getD 0) 0 group) :: groups) := by
  constructor
  · rintro ⟨tape, hbegins, hsize⟩
    cases hbegins with
    | here =>
      have hhead := head_fits_of_split (htakes rfl)
      rw [Option.getD_none] at hhead
      omega
    | fits hfits => exact absurd hfits (not_le.2 hover)
    | waits _ hwhole => exact absurd hwhole (not_le.2 hlarge)
    | splits _ _ _ hrest => exact ⟨tape, hrest, hsize⟩
  · rintro ⟨tape, hbegins, hsize⟩
    exact ⟨tape, .splits hover hlarge htakes hbegins, hsize⟩

/-- A new tape that does not take the first file of a group. -/
theorem overflows_here {first : String} {rest : List String} (hlarge : request.tapeCapacity barcode < request.totalSize (first :: rest))
    (hsplit : request.firstSplitIndex (request.tapeCapacity barcode) 0 (first :: rest) = 0) :
    Overflows request file (barcode :: tapes) none ((first :: rest) :: groups) ↔ file = first := by
  have hfirst : request.tapeCapacity barcode < request.fileSize first := by
    rw [ArchivePlanRequest.firstSplitIndex] at hsplit
    split at hsplit
    · omega
    · exact absurd hsplit (Nat.succ_ne_zero _)
  constructor
  · rintro ⟨tape, hbegins, -⟩
    cases hbegins with
    | here => rfl
    | fits hfits =>
      rw [Option.getD_none] at hfits
      omega
    | splits _ _ htakes =>
      refine absurd ?_ (htakes rfl)
      rw [Option.getD_none, sub_zero]
      exact hsplit
  · rintro rfl
    exact ⟨barcode, .here, hfirst⟩

/-! ### The loop -/

/-- What the tape at hand has taken: nothing when it has no assignment yet. -/
def Sequential.At (st : Sequential) : Option Int → Prop
  | none => st.assignments.length = st.tapeIndex
  | some used => ∃ assignment, st.assignments[st.tapeIndex]? = some assignment ∧ assignment.estimatedBytes = used ∧
      assignment.files ≠ [] ∧ st.assignments.length = st.tapeIndex + 1

/-- The assignment of the tape at hand, a new one if there is none. -/
structure Sequential.Open (st : Sequential) (used : Int) : Prop where
  found : ∃ assignment, st.assignments[st.tapeIndex]? = some assignment ∧ assignment.estimatedBytes = used
  length : st.assignments.length = st.tapeIndex + 1

theorem enqueueBlockers_openTape (st : Sequential) (barcode : Barcode) :
    (st.openTape text barcode).plan.enqueueBlockers = st.plan.enqueueBlockers := by
  unfold Sequential.openTape
  split <;> rfl

/-- What the code reads of the assignment at hand. -/
theorem Sequential.At.found {st : Sequential} (h : st.At used) :
    ((st.assignments[st.tapeIndex]?).map TapeAssignment.estimatedBytes).getD 0 = used.getD 0 ∧
      (st.assignments[st.tapeIndex]? = none ↔ used = none) ∧
      (((st.assignments[st.tapeIndex]?).map TapeAssignment.files).getD [] = [] ↔ used = none) := by
  cases used with
  | none =>
    rw [List.getElem?_eq_none_iff.2 (le_of_eq h)]
    simp
  | some used =>
    obtain ⟨assignment, hfound, rfl, hfiles, -⟩ := h
    rw [hfound]
    simp [hfiles]

/-- The tape at hand is opened. -/
theorem Sequential.At.opened {st : Sequential} (h : st.At used) (barcode : Barcode) {current : Sequential}
    (hcurrent : (if st.assignments[st.tapeIndex]? = none then st.openTape text barcode else st) = current) :
    current.Open (used.getD 0) ∧ current.tapeIndex = st.tapeIndex ∧ current.plan.enqueueBlockers = st.plan.enqueueBlockers := by
  subst hcurrent
  cases used with
  | none =>
    rw [if_pos (h.found.2.1.2 rfl)]
    have hlength : st.assignments.length = st.tapeIndex := h
    refine ⟨⟨⟨{ barcode := barcode, files := [] }, ?_, rfl⟩, ?_⟩, rfl, enqueueBlockers_openTape st barcode⟩
    · simp [Sequential.openTape, hlength]
    · simp [Sequential.openTape, hlength]
  | some used =>
    rw [if_neg fun hnone => by cases h.found.2.1.1 hnone]
    obtain ⟨assignment, hfound, hused, -, hlength⟩ := h
    exact ⟨⟨⟨assignment, hfound, hused⟩, hlength⟩, rfl, rfl⟩

/-- Files put on the tape at hand. -/
theorem Sequential.Open.extend {st : Sequential} {used : Int} (h : st.Open used) (hgroup : group ≠ []) :
    (st.extend request group).At (some (used + request.totalSize group)) := by
  obtain ⟨⟨assignment, hfound, rfl⟩, hlength⟩ := h
  refine ⟨{ assignment with
      files := assignment.files ++ relativeFiles group request.sourcePath
      estimatedBytes := assignment.estimatedBytes + request.totalSize group }, ?_, rfl, ?_, ?_⟩
  · simp [Sequential.extend, hfound]
  · simp [relativeFiles, hgroup]
  · simpa [Sequential.extend] using hlength

/-- The next tape has no assignment yet. -/
theorem Sequential.Open.nextTape {st : Sequential} {used : Int} (h : st.Open used) : st.nextTape.At none := h.length

theorem Sequential.At.nextTape {st : Sequential} {used : Int} (h : st.At (some used)) : st.nextTape.At none := by
  obtain ⟨-, -, -, -, hlength⟩ := h
  exact hlength

/-- What a split leaves of a group that does not fit. -/
theorem drop_firstSplitIndex {capacity consumed : Int} (hover : capacity < consumed + request.totalSize group)
    (hgroup : group ≠ [] ∨ consumed ≤ capacity) : group.drop (request.firstSplitIndex capacity consumed group) ≠ [] := by
  induction group generalizing consumed with
  | nil =>
    have hconsumed := hgroup.resolve_left fun h => h rfl
    simp [ArchivePlanRequest.totalSize] at hover
    omega
  | cons file group ih =>
    rw [ArchivePlanRequest.firstSplitIndex]
    split
    · exact List.cons_ne_nil _ _
    · refine ih ?_ (.inr (by omega))
      simp only [ArchivePlanRequest.totalSize, List.map_cons, List.sum_cons] at hover ⊢
      omega

/-- A plan handed back says one thing. -/
theorem enqueueBlockers_giveUp {st : Sequential} (h : st.plan.enqueueBlockers = []) (message : String) :
    (st.giveUp message).enqueueBlockers = [message] := by
  unfold Sequential.giveUp ArchivePlan.block
  rw [h]
  rfl

theorem exceedsText_inj {file other : String} (h : exceedsText file = exceedsText other) : file = other := by
  unfold exceedsText at h
  rw [← String.toList_inj] at h ⊢
  simp only [String.toList_append] at h
  exact List.append_cancel_left (List.append_cancel_right h)

theorem noCapacityText_inj {file other : String} (h : noCapacityText file = noCapacityText other) : file = other := by
  unfold noCapacityText at h
  rw [← String.toList_inj] at h ⊢
  simp only [String.toList_append] at h
  exact List.append_cancel_left h

/-- A text that does not begin as a refusal does is none. -/
theorem ne_exceedsText {message : String} (h : message.toList.head? ≠ some 'F') (file : String) : message ≠ exceedsText file := by
  rintro rfl
  refine h ?_
  unfold exceedsText
  simp

/-- A text that does not go on as a refusal does is none. -/
theorem ne_noCapacityText {message : String} (h : message.toList[31]? ≠ some 'f') (file : String) : message ≠ noCapacityText file := by
  rintro rfl
  refine h ?_
  have hlength : "Insufficient tape capacity for file ".toList.length = 36 := by decide
  unfold noCapacityText
  rw [String.toList_append, List.getElem?_append_left (by omega)]
  decide

theorem allFiles_ne_noCapacityText : ∀ file, "Insufficient tape capacity for all files" ≠ noCapacityText file :=
  ne_noCapacityText (by simp)

theorem exceedsText_ne_noCapacityText (file other : String) : exceedsText file ≠ noCapacityText other := by
  refine fun h => ne_exceedsText ?_ file h.symm
  unfold noCapacityText
  simp

/-- How the loop over one group ends: with tapes that are begun as they would be for what is left, or with a refusal of the file that
a tape is begun with and does not take. -/
def GroupEnds (request : ArchivePlanRequest) (tapes rest : List Barcode) (used : Option Int) (group : List String) :
    Except ArchivePlan Sequential → Prop
  | .ok st => st.plan.enqueueBlockers = [] ∧ ∃ used', st.At used' ∧ ∀ file groups,
      Overflows request file rest used (group :: groups) ↔ Overflows request file (tapes.drop st.tapeIndex) used' groups
  | .error plan => ∃ message, plan.enqueueBlockers = [message] ∧ (∀ file, message ≠ noCapacityText file) ∧ ∀ file groups,
      Overflows request file rest used (group :: groups) ↔ message = exceedsText file

theorem placeGroup_ends (hsizes : ∀ file, 0 ≤ request.fileSize file) {rest : List Barcode} {st : Sequential}
    (hblockers : st.plan.enqueueBlockers = []) (hat : st.At used) (hgroup : group ≠ []) (htape : tapes.drop st.tapeIndex = rest) :
    GroupEnds request tapes rest used group (placeGroup text request rest st group) := by
  induction rest generalizing st used group with
  | nil =>
    refine ⟨_, enqueueBlockers_giveUp hblockers _, allFiles_ne_noCapacityText, fun file groups => ?_⟩
    exact iff_of_false not_overflows_nil (ne_exceedsText (by decide) file)
  | cons barcode rest ih =>
    have hnext : tapes.drop (st.tapeIndex + 1) = rest := by
      rw [← List.drop_drop, htape, List.drop_one, List.tail_cons]
    -- What the rest of the loop does with what is left, the loop does with the group.
    have hgo {st' : Sequential} {group' : List String} (hblockers' : st'.plan.enqueueBlockers = []) (hat' : st'.At none)
        (hgroup' : group' ≠ []) (hindex : st'.tapeIndex = st.tapeIndex + 1)
        (hsame : ∀ file groups, Overflows request file (barcode :: rest) used (group :: groups) ↔
          Overflows request file rest none (group' :: groups)) :
        GroupEnds request tapes (barcode :: rest) used group (placeGroup text request rest st' group') := by
      have hrest := ih hblockers' hat' hgroup' (hindex ▸ hnext)
      cases hrun : placeGroup text request rest st' group' with
      | ok done =>
        rw [hrun] at hrest
        obtain ⟨hdone, used', hused', hiff⟩ := hrest
        exact ⟨hdone, used', hused', fun file groups => (hsame file groups).trans (hiff file groups)⟩
      | error plan =>
        rw [hrun] at hrest
        obtain ⟨message, hmessage, hother, hiff⟩ := hrest
        exact ⟨message, hmessage, hother, fun file groups => (hsame file groups).trans (hiff file groups)⟩
    obtain ⟨hbytes, hnone, hfiles⟩ := hat.found
    rw [placeGroup]
    dsimp only
    rw [hbytes]
    generalize hcurrent : (if st.assignments[st.tapeIndex]? = none then st.openTape text barcode else st) = current
    obtain ⟨hopen, hindex, hcurrentBlockers⟩ := hat.opened barcode hcurrent
    rw [hblockers] at hcurrentBlockers
    split
    · rename_i hskip
      obtain ⟨used, rfl⟩ := Option.ne_none_iff_exists'.1 (fun h => hskip.1 (hnone.2 h))
      rw [Option.getD_some] at hskip
      exact hgo hblockers hat.nextTape hgroup rfl fun file groups => overflows_waits (by omega) hskip.2.2
    · rename_i hstay
      split
      · rename_i hfits
        refine ⟨hcurrentBlockers, _, hopen.extend hgroup, fun file groups => ?_⟩
        show _ ↔ Overflows request file (tapes.drop current.tapeIndex) _ groups
        rw [hindex, htape]
        exact overflows_fits hsizes (by omega)
      · rename_i hover
        have hlarge : request.tapeCapacity barcode < request.totalSize group := by
          by_contra hwhole
          cases used with
          | none =>
            rw [Option.getD_none] at hover
            omega
          | some used => exact hstay ⟨fun h => (by cases hnone.1 h), by omega, by omega⟩
        have hrest : group.drop (request.firstSplitIndex (request.tapeCapacity barcode - used.getD 0) 0 group) ≠ [] :=
          drop_firstSplitIndex (by omega) (.inl hgroup)
        have hsplits (htakes : used = none → request.firstSplitIndex (request.tapeCapacity barcode - used.getD 0) 0 group ≠ 0)
            (file : String) (groups : List (List String)) :
            Overflows request file (barcode :: rest) used (group :: groups) ↔ Overflows request file rest none
              (group.drop (request.firstSplitIndex (request.tapeCapacity barcode - used.getD 0) 0 group) :: groups) :=
          overflows_splits (by omega) hlarge htakes
        generalize hsplit : request.firstSplitIndex (request.tapeCapacity barcode - used.getD 0) 0 group = splitIndex at hrest hsplits
        split
        · rename_i hzero
          subst hzero
          split
          · rename_i hheld
            have hused : used ≠ none := fun h => hheld (hfiles.2 h)
            exact hgo hcurrentBlockers hopen.nextTape hgroup (congrArg (· + 1) hindex) (hsplits fun h => absurd h hused)
          · rename_i hheld
            obtain rfl : used = none := hfiles.1 (not_not.1 hheld)
            refine ⟨_, enqueueBlockers_giveUp hcurrentBlockers _, exceedsText_ne_noCapacityText _, fun file groups => ?_⟩
            obtain ⟨first, others, rfl⟩ := List.exists_cons_of_ne_nil hgroup
            rw [Option.getD_none, sub_zero] at hsplit
            rw [overflows_here hlarge hsplit]
            exact ⟨fun h => h ▸ rfl, fun h => (exceedsText_inj h).symm⟩
        · rename_i hsome
          have htake : group.take splitIndex ≠ [] := by
            obtain ⟨first, others, rfl⟩ := List.exists_cons_of_ne_nil hgroup
            obtain ⟨index, rfl⟩ := Nat.exists_eq_succ_of_ne_zero hsome
            exact List.cons_ne_nil _ _
          exact hgo hcurrentBlockers (hopen.extend htake).nextTape hrest (congrArg (· + 1) hindex) (hsplits fun _ => hsome)

/-- How the loop over the groups ends. -/
def GroupsEnd (request : ArchivePlanRequest) (rest : List Barcode) (used : Option Int) (groups : List (List String)) :
    Except ArchivePlan Sequential → Prop
  | .ok st => st.plan.enqueueBlockers = [] ∧ ∀ file, ¬Overflows request file rest used groups
  | .error plan => ∃ message, plan.enqueueBlockers = [message] ∧ (∀ file, message ≠ noCapacityText file) ∧ ∀ file,
      Overflows request file rest used groups ↔ message = exceedsText file

/-- The loop over the groups refuses a file exactly when a tape is begun with it that does not take it. -/
theorem placeGroups_ends (text : PlannerText) (tapes : List Barcode) (hsizes : ∀ file, 0 ≤ request.fileSize file) {st : Sequential}
    (hblockers : st.plan.enqueueBlockers = []) (hat : st.At used) (hgroups : ∀ group ∈ groups, group ≠ []) :
    GroupsEnd request (tapes.drop st.tapeIndex) used groups (placeGroups text request tapes st groups) := by
  induction groups generalizing st used with
  | nil => exact ⟨hblockers, fun file => not_overflows_done⟩
  | cons group groups ih =>
    have hends : GroupEnds request tapes (tapes.drop st.tapeIndex) used group
        (placeGroup text request (tapes.drop st.tapeIndex) st group) :=
      placeGroup_ends hsizes hblockers hat (hgroups group List.mem_cons_self) rfl
    rw [placeGroups]
    cases hgroup : placeGroup text request (tapes.drop st.tapeIndex) st group with
    | error plan =>
      rw [hgroup] at hends
      obtain ⟨message, hmessage, hother, hiff⟩ := hends
      exact ⟨message, hmessage, hother, fun file => hiff file groups⟩
    | ok st₁ =>
      rw [hgroup] at hends
      obtain ⟨hblockers₁, used₁, hat₁, hiff⟩ := hends
      have hrest := ih hblockers₁ hat₁ fun other hother => hgroups other (List.mem_cons_of_mem _ hother)
      simp only [bind, Except.bind]
      cases hrun : placeGroups text request tapes st₁ groups with
      | ok st' =>
        rw [hrun] at hrest
        exact ⟨hrest.1, fun file h => hrest.2 file ((hiff file groups).1 h)⟩
      | error plan =>
        rw [hrun] at hrest
        obtain ⟨message, hmessage, hother, hiff'⟩ := hrest
        exact ⟨message, hmessage, hother, fun file => (hiff file groups).trans (hiff' file)⟩

/-! ### The sequential planner -/

theorem ne_nil_of_mem_directoryGroups {files group : List String} (h : group ∈ directoryGroups files) : group ≠ [] := by
  have hstep (files : List String) (acc : List (List String) × Option String × List String)
      (hacc : (∀ group ∈ acc.1, group ≠ []) ∧ (acc.2.1 = none ∨ acc.2.2 ≠ [])) :
      (∀ group ∈ (files.foldl directoryStep acc).1, group ≠ []) := by
    induction files generalizing acc with
    | nil => exact hacc.1
    | cons file files ih =>
      refine ih _ ?_
      obtain ⟨before, directory, current⟩ := acc
      obtain ⟨hbefore, hcurrent⟩ := hacc
      rw [directoryStep]
      split
      · exact ⟨hbefore, .inr (by simp)⟩
      · rename_i hother
        refine ⟨fun group hgroup => ?_, .inr (List.cons_ne_nil _ _)⟩
        rcases List.mem_append.1 hgroup with hgroup | hgroup
        · exact hbefore group hgroup
        · rw [List.mem_singleton.1 hgroup]
          exact hcurrent.resolve_left fun hnone => hother (.inl hnone)
  unfold directoryGroups at h
  dsimp only at h
  have hall := hstep files ([], none, []) ⟨fun _ h => absurd h List.not_mem_nil, .inl rfl⟩
  split at h
  · rename_i hlast
    rcases List.mem_append.1 h with h | h
    · exact hall group h
    · rw [List.mem_singleton.1 h]
      exact hlast
  · exact hall group h

theorem enqueueBlockers_warnSequential (text : PlannerText) (request : ArchivePlanRequest) (plan : ArchivePlan) :
    (warnSequential text request plan).enqueueBlockers = plan.enqueueBlockers := by
  unfold warnSequential
  split <;> split <;> rfl

theorem enqueueBlockers_placeOnOneTape (plan : ArchivePlan) (tape : Barcode) :
    (placeOnOneTape text request plan tape).enqueueBlockers = plan.enqueueBlockers := by
  unfold placeOnOneTape
  dsimp only
  split <;> rfl

/-- A file is refused by the sequential planner exactly when no tape takes all files and a tape is begun with it that does not take
it. -/
theorem mem_enqueueBlockers_planCriticalSequential (text : PlannerText) (hsizes : ∀ file, 0 ≤ request.fileSize file) {plan : ArchivePlan}
    (hblockers : plan.enqueueBlockers = []) (file : String) :
    (exceedsText file ∈ (planCriticalSequential text request plan).enqueueBlockers ↔
      (∀ barcode ∈ request.availableTapes, request.tapeCapacity barcode < plan.totalBytes) ∧
        Overflows request file (orderedTapes text request) none (directoryGroups plan.files)) ∧
      noCapacityText file ∉ (planCriticalSequential text request plan).enqueueBlockers := by
  have hwarned := enqueueBlockers_warnSequential text request plan
  have hterms := terms_warnSequential text request plan
  rw [hblockers] at hwarned
  unfold planCriticalSequential
  generalize warnSequential text request plan = warned at hwarned hterms
  obtain ⟨hfiles, hbytes, -⟩ : warned.files = plan.files ∧ warned.totalBytes = plan.totalBytes ∧ _ := by
    simpa [ArchivePlan.terms] using hterms
  rw [← hfiles, ← hbytes]
  unfold placeSequentially
  dsimp only
  cases hfitting : (orderedTapes text request).find? fun barcode => decide (request.tapeCapacity barcode ≥ warned.totalBytes) with
  | some tape =>
    have htape : tape ∈ request.availableTapes := mem_orderedTapes.1 (List.mem_of_find?_eq_some hfitting)
    have hfound := List.find?_some hfitting
    have hroom : request.tapeCapacity tape ≥ warned.totalBytes := of_decide_eq_true hfound
    dsimp only
    rw [enqueueBlockers_placeOnOneTape, hwarned]
    exact ⟨iff_of_false List.not_mem_nil fun h => absurd hroom (not_le.2 (h.1 tape htape)), List.not_mem_nil⟩
  | none =>
    have hnone : ∀ barcode ∈ request.availableTapes, request.tapeCapacity barcode < warned.totalBytes := fun barcode hbarcode =>
      not_le.1 (of_decide_eq_false (by simpa using List.find?_eq_none.1 hfitting barcode (mem_orderedTapes.2 hbarcode)))
    have hends : GroupsEnd request (orderedTapes text request) none (directoryGroups warned.files)
        (placeGroups text request (orderedTapes text request) { plan := warned } (directoryGroups warned.files)) :=
      placeGroups_ends text (orderedTapes text request) hsizes hwarned rfl fun group hgroup => ne_nil_of_mem_directoryGroups hgroup
    dsimp only
    cases hrun : placeGroups text request (orderedTapes text request) { plan := warned } (directoryGroups warned.files) with
    | ok st =>
      rw [hrun] at hends
      obtain ⟨hclean, hnot⟩ := hends
      have hplan (message : String) : message ∉ st.plan.enqueueBlockers := hclean ▸ List.not_mem_nil
      exact ⟨iff_of_false (hplan _) fun h => hnot file h.2, hplan _⟩
    | error blocked =>
      rw [hrun] at hends
      obtain ⟨message, hmessage, hother, hiff⟩ := hends
      dsimp only
      rw [hmessage, List.mem_singleton, List.mem_singleton, and_iff_right hnone]
      exact ⟨eq_comm.trans (hiff file).symm, fun h => hother file h.symm⟩

end OpenBlade
