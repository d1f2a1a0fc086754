import OpenBlade.Nas.PlanSoundness

/-!
# What the planner can raise

The planner of `nas/planner.py` once more, this time with every operation that Python may refuse: the element of a list, the entry of a
dictionary, the choice from what may be empty, the code point of a text, a number as a float. Wherever these are not refused it is the
planner of `Planner`, which reads every table with a default.
-/

namespace OpenBlade

open Effects

/-! ### What may be refused -/

/-- `xs[index]`. -/
def elementAt {α : Type} (xs : List α) (index : Nat) : Except Exn α :=
  match xs[index]? with
  | some x => .ok x
  | none => .error { cls := .other "IndexError", message := "list index out of range" }

/-- `table[barcode]`. -/
def entryOf {α : Type} (table : Dict Barcode α) (barcode : Barcode) : Except Exn α :=
  match table.get? barcode with
  | some a => .ok a
  | none => .error { cls := .keyError, message := barcode }

/-- The integers from here on round to no finite float. -/
def floatLimit : Int := 2 ^ 1024 - 2 ^ 970

/-- An integer made a float, to be multiplied with one. -/
def toFloat (n : Int) : Except Exn Unit :=
  if n.natAbs < floatLimit then .ok () else .error { cls := .other "OverflowError", message := "int too large to convert to float" }

/-- `a / b` of two integers. -/
def trueDivide (a b : Int) : Except Exn Unit :=
  if a.natAbs < floatLimit * b.natAbs then .ok ()
  else .error { cls := .other "OverflowError", message := "integer division result too large for a float" }

/-- `assignments[tape_index] if tape_index < len(assignments) else None`. -/
def Sequential.assignment? (st : Sequential) : Except Exn (Option TapeAssignment) :=
  if st.tapeIndex < st.assignments.length then some <$> elementAt st.assignments st.tapeIndex else .ok none

/-- The state with an assignment for the tape at `tapeIndex`, which may be there already. -/
def Sequential.opened (text : PlannerText) (st : Sequential) (found : Option TapeAssignment) (barcode : Barcode) : Sequential :=
  if found = none then st.openTape text barcode else st

@[simp] theorem Sequential.tapeIndex_opened (text : PlannerText) (st : Sequential) (found : Option TapeAssignment) (barcode : Barcode) :
    (st.opened text found barcode).tapeIndex = st.tapeIndex := by
  unfold Sequential.opened
  split <;> rfl

namespace ReadingPlanner

section planner

variable (text : PlannerText) (request : ArchivePlanRequest)

/-! ### Tape after tape -/

/-- The `while` loop over one group. -/
def placeGroup (tapes : List Barcode) (st : Sequential) (group : List String) : Except Exn (Except ArchivePlan Sequential) :=
  if st.tapeIndex ≥ tapes.length then .ok (.error (st.giveUp "Insufficient tape capacity for all files"))
  else do
    let barcode ← elementAt tapes st.tapeIndex
    let capacity := request.tapeCapacity barcode
    let groupBytes := request.totalSize group
    let found ← st.assignment?
    let remainingBytes := capacity - (found.map TapeAssignment.estimatedBytes).getD 0
    if found ≠ none ∧ groupBytes > remainingBytes ∧ groupBytes ≤ capacity then placeGroup tapes st.nextTape group
    else
      let opened := st.opened text found barcode
      if groupBytes ≤ remainingBytes then .ok (.ok (opened.extend request group))
      else
        let splitIndex := request.firstSplitIndex remainingBytes 0 group
        if splitIndex = 0 then
          if (found.map TapeAssignment.files).getD [] ≠ [] then placeGroup tapes opened.nextTape group
          else do
            let file ← elementAt group 0
            .ok (.error (opened.giveUp ("File " ++ file ++ " exceeds available tape capacity")))
        else placeGroup tapes (opened.extend request (group.take splitIndex)).nextTape (group.drop splitIndex)
termination_by tapes.length - st.tapeIndex
decreasing_by
  · simp only [Sequential.nextTape]
    omega
  · simp only [Sequential.nextTape, Sequential.tapeIndex_opened]
    omega
  · simp only [Sequential.nextTape, Sequential.extend, Sequential.tapeIndex_opened]
    omega

/-- The loop over groups. -/
def placeGroups (tapes : List Barcode) (st : Sequential) : List (List String) → Except Exn (Except ArchivePlan Sequential)
  | [] => .ok (.ok st)
  | group :: groups => do
    match ← placeGroup text request tapes st group with
    | .error plan => .ok (.error plan)
    | .ok st => placeGroups tapes st groups

/-- The first tape that takes all files, or else tape after tape. -/
def placeSequentially (plan : ArchivePlan) : Except Exn ArchivePlan :=
  let tapes := orderedTapes text request
  match tapes.find? fun barcode => request.tapeCapacity barcode ≥ plan.totalBytes with
  | some fittingTape => .ok (placeOnOneTape text request plan fittingTape)
  | none => do
    match ← placeGroups text request tapes { plan := plan } (directoryGroups plan.files) with
    | .error blocked => .ok blocked
    | .ok st =>
      .ok { st.plan with
            tapeAssignments := markSpillovers st.assignments
            estimatedTapeSwaps := st.assignments.length - 1 }.settle

/-- `_plan_critical_sequential`. -/
def planCriticalSequential (plan : ArchivePlan) : Except Exn ArchivePlan := do
  toFloat request.singleTapeCapacity
  placeSequentially text request (warnSequential text request plan)

/-! ### Spread over the tapes -/

/-- Whether a file of this size goes on a tape. -/
def accepts (st : Sharding) (size : Int) (barcode : Barcode) : Except Exn Bool := do
  if (← entryOf st.remaining barcode) < size then .ok false
  else
    match request.shardSizeBytes with
    | none => .ok true
    | some shardSizeBytes => do
      let fill ← entryOf st.shardFillBytes barcode
      .ok !decide (fill > 0 ∧ fill + size > shardSizeBytes)

/-- The first choice that a file of this size goes on. -/
def firstAccepting (st : Sharding) (size : Int) : List Barcode → Except Exn (Option Barcode)
  | [] => .ok none
  | barcode :: choices => do
    if ← accepts request st size barcode then .ok (some barcode) else firstAccepting st size choices

/-- `get_assignment`. -/
def getAssignment (positions : Dict Barcode Nat) (st : Sharding) (barcode : Barcode) : Except Exn TapeAssignment :=
  match st.assignments.get? barcode with
  | some assignment => .ok assignment
  | none => do
    let position ← entryOf positions barcode
    .ok { barcode := barcode, files := [], shardIndex := some position }

/-- Put a file on a tape. -/
def place (positions : Dict Barcode Nat) (st : Sharding) (barcode : Barcode) (file : String) : Except Exn Sharding := do
  let size := request.fileSize file
  let assignment ← getAssignment positions st barcode
  let remaining ← entryOf st.remaining barcode
  let shardFillBytes ←
    if request.shardSizeBytes = none then .ok st.shardFillBytes
    else do
      let fill ← entryOf st.shardFillBytes barcode
      .ok (st.shardFillBytes.set barcode (fill + size))
  .ok
    { st with
      assignments := st.assignments.set barcode
        { assignment with
          files := assignment.files ++ [makeRelative file request.sourcePath]
          estimatedBytes := assignment.estimatedBytes + size }
      remaining := st.remaining.set barcode (remaining - size)
      shardFillBytes := shardFillBytes }

/-- `assign_file`. -/
def assignFile (tapes : List Barcode) (positions : Dict Barcode Nat) (preferredTape : Barcode) (file : String) (st : Sharding) :
    Except Exn (Bool × Sharding) := do
  let size := request.fileSize file
  let st := st.noteOversized request file
  let orderedChoices := preferredTape :: tapes.filter (· ≠ preferredTape)
  match ← firstAccepting request st size orderedChoices with
  | some barcode => do .ok (true, ← place request positions st barcode file)
  | none => do
    let st := if request.shardSizeBytes = none then st else st.resetShards
    match ← firstAccepting request st size orderedChoices with
    | some barcode => do .ok (true, ← place request positions st barcode file)
    | none => .ok (false, { st with plan := st.plan.block ("Insufficient tape capacity for file " ++ file) })

/-- A loop over files that stops at the first one no tape takes. -/
def assignFiles (tapes : List Barcode) (positions : Dict Barcode Nat) (prefer : Nat → String → Sharding → Except Exn Barcode) :
    Nat → List String → Sharding → Except Exn Sharding
  | _, [], st => .ok st
  | index, file :: files, st => do
    match ← assignFile request tapes positions (← prefer index file st) file st with
    | (true, st) => assignFiles tapes positions prefer (index + 1) files st
    | (false, st) => .ok st

/-- `tapes[index % len(tapes)]`. -/
def tapeAt (tapes : List Barcode) (index : Nat) : Except Exn Barcode :=
  if tapes.length = 0 then .error { cls := .zeroDivision, message := "integer modulo by zero" }
  else elementAt tapes (index % tapes.length)

/-- `max(tapes, key=...)`: the key of every tape is read. -/
def roomiestTape (tapes : List Barcode) (positions : Dict Barcode Nat) (st : Sharding) : Except Exn Barcode := do
  tapes.forM fun barcode => do
    let _ ← entryOf st.remaining barcode
    let _ ← entryOf positions barcode
    .ok ()
  OpenBlade.roomiestTape tapes st

/-- The tape `HASH_PREFIX` prefers. -/
def hashedTape (tapes : List Barcode) (file : String) : Except Exn Barcode :=
  let filename := if basename file = "" then file else basename file
  if filename = "" then tapeAt tapes 0
  else do
    let letter ← elementAt filename.toList 0
    match (text.lower (String.ofList [letter])).toList with
    | [c] => tapeAt tapes c.toNat
    | chars => .error { cls := .other "TypeError"
                        message := "ord() expected a character, but string of length " ++ toString chars.length ++ " found" }

/-- The loop of `DIRECTORY_BATCH`. -/
def assignGroups (tapes : List Barcode) (positions : Dict Barcode Nat) : List (List String) → Sharding → Except Exn Sharding
  | [], st => .ok st
  | group :: groups, st => do
    let preferredTape ← roomiestTape tapes positions st
    if (← entryOf st.remaining preferredTape) ≥ request.totalSize group then
      assignGroups tapes positions groups (← assignFiles request tapes positions (fun _ _ _ => .ok preferredTape) 0 group st)
    else
      let st ← assignFiles request tapes positions (fun _ _ st => roomiestTape tapes positions st) 0 group st
      if st.plan.enqueueBlockers ≠ [] then .ok st else assignGroups tapes positions groups st

/-- `min(tapes, key=...)`. -/
def leastLoadedTape (tapes : List Barcode) (positions : Dict Barcode Nat) (tapeLoads : Dict Barcode Int) (st : Sharding) :
    Except Exn Barcode := do
  tapes.forM fun barcode => do
    let _ ← entryOf tapeLoads barcode
    let _ ← entryOf st.remaining barcode
    let _ ← entryOf positions barcode
    .ok ()
  match tapes.argmin fun barcode =>
      toLex ((tapeLoads.get? barcode).getD 0, toLex (-(st.remainingOf barcode), tapePosition tapes barcode)) with
  | none => .error { cls := .valueError, message := "min() iterable argument is empty" }
  | some barcode => .ok barcode

/-- The loop of `RESTORE_PARALLELISM_OPTIMIZED`. -/
def assignByLoad (tapes : List Barcode) (positions : Dict Barcode Nat) :
    List String → Dict Barcode Int → Sharding → Except Exn Sharding
  | [], _, st => .ok st
  | file :: files, tapeLoads, st => do
    let preferredTape ← leastLoadedTape tapes positions tapeLoads st
    match ← assignFile request tapes positions preferredTape file st with
    | (false, st) => .ok st
    | (true, st) =>
      match st.assignments.find? fun entry => makeRelative file request.sourcePath ∈ entry.2.files with
      | none => .error { cls := .other "StopIteration", message := "" }
      | some (placedTape, _) => do
        let load ← entryOf tapeLoads placedTape
        assignByLoad tapes positions files (tapeLoads.set placedTape (load + request.fileSize file)) st

/-- The loop of the strategy. -/
def runStrategy (tapes : List Barcode) (files : List String) (st : Sharding) : Except Exn Sharding :=
  let positions := Dict.ofPairs tapes.zipIdx
  match request.shardStrategy.getD .roundRobin with
  | .roundRobin => assignFiles request tapes positions (fun index _ _ => tapeAt tapes index) 0 files st
  | .capacityWeighted => assignFiles request tapes positions (fun _ _ st => roomiestTape tapes positions st) 0 files st
  | .directoryBatch => assignGroups request tapes positions (directoryGroups files) st
  | .hashPrefix => assignFiles request tapes positions (fun _ file _ => hashedTape text tapes file) 0 files st
  | .restoreParallelismOptimized =>
    assignByLoad request tapes positions (sizedFiles request files) (Dict.ofPairs (tapes.map fun barcode => (barcode, 0))) st

/-- `_plan_noncritical_sharded`. -/
def planNoncriticalSharded (plan : ArchivePlan) : Except Exn ArchivePlan := do
  let tapes := orderedTapes text request
  let st ← runStrategy text request tapes plan.files (Sharding.start request plan tapes)
  .ok (st.finish request tapes)

/-! ### Either of the two -/

/-- `_plan_balanced`: the time a restore takes is a quotient, the size that fits a product. -/
def planBalanced (plan : ArchivePlan) : Except Exn ArchivePlan := do
  trueDivide plan.totalBytes restoreThroughputBytesPerSecond
  toFloat request.singleTapeCapacity
  if plan.totalBytes > text.percentOf 85 request.singleTapeCapacity then
    planNoncriticalSharded text (request.withPolicy .noncriticalSharded (some (request.shardStrategy.getD .directoryBatch)))
      (warnSharding plan (shardingReasons request plan))
  else planCriticalSequential text (request.withPolicy .criticalSequential request.shardStrategy) plan

/-- `ArchivePlanner.plan`. -/
def archivePlan : Except Exn ArchivePlan := do
  request.checkMedia
  let plan := applyCommonChecks request (draftPlan request)
  if !plan.isSafeToEnqueue then .ok plan
  else
    match request.policyType.getD .balanced with
    | .criticalSequential => planCriticalSequential text request plan
    | .noncriticalSharded => planNoncriticalSharded text request plan
    | .balanced => planBalanced text request plan

end planner

end ReadingPlanner

/-! ### When it raises -/

section conditions

variable (text : PlannerText) (request : ArchivePlanRequest)

/-- The name that `HASH_PREFIX` takes a letter of. -/
def hashedName (file : String) : String := if basename file = "" then file else basename file

/-- The first letter of the name, if there is one, is one character in lower case. -/
def HasOneLower (file : String) : Prop :=
  ∀ letter ∈ (hashedName file).toList.head?, ∃ c, (text.lower (String.ofList [letter])).toList = [c]

/-- The loop of `HASH_PREFIX` over some files comes to a file: the ones before it are all placed. -/
inductive ComesTo (tapes : List Barcode) (file : String) : Sharding → List String → Prop where
  | here {st : Sharding} {files : List String} : ComesTo tapes file st (file :: files)
  | next {st st' : Sharding} {first : String} {files : List String} {tape : Barcode} (htape : hashedTape text tapes first = .ok tape)
      (hplaced : assignFile request tapes tape first st = (true, st')) (h : ComesTo tapes file st' files) :
      ComesTo tapes file st (first :: files)

/-- What the sharded planner is called with, if it is called. -/
def shardedCall (plan : ArchivePlan) : Option (ArchivePlanRequest × ArchivePlan) :=
  match request.policyType.getD .balanced with
  | .criticalSequential => none
  | .noncriticalSharded => some (request, plan)
  | .balanced =>
    if plan.totalBytes > text.percentOf 85 request.singleTapeCapacity then
      some (request.withPolicy .noncriticalSharded (some (request.shardStrategy.getD .directoryBatch)),
        warnSharding plan (shardingReasons request plan))
    else none

/-- What a request, and the plan the common checks have left safe, must satisfy: the numbers that are made floats are not too large for
one, and the names that are hashed begin with a letter that is one character in lower case. -/
structure PlansCleanly (plan : ArchivePlan) : Prop where
  capacity : request.policyType.getD .balanced ≠ .noncriticalSharded → request.singleTapeCapacity.natAbs < floatLimit
  bytes : request.policyType.getD .balanced = .balanced →
    plan.totalBytes.natAbs < floatLimit * restoreThroughputBytesPerSecond.natAbs
  names : ∀ call ∈ shardedCall text request plan, call.1.shardStrategy = some .hashPrefix →
    ∀ file, ComesTo text call.1 (orderedTapes text call.1) file (.start call.1 call.2 (orderedTapes text call.1)) call.2.files →
      HasOneLower text file

end conditions

/-- The refusals of `_check_media`. -/
def RefusesMedia (exc : Exn) : Prop := exc.cls = .other "ForeignMediaError" ∨ exc.cls = .other "IncompatibleMediaError"

namespace PlannerErrorsAux

variable {text : PlannerText} {request : ArchivePlanRequest} {tapes : List Barcode}

/-! ### Reads that are not refused -/

theorem ok_bind {α β : Type} (a : α) (f : α → Except Exn β) : (Except.ok a >>= f) = f a := rfl

theorem error_bind {α β : Type} (exc : Exn) (f : α → Except Exn β) : (Except.error exc >>= f) = .error exc := rfl

theorem elementAt_of_lt {α : Type} {xs : List α} {index : Nat} (h : index < xs.length) : elementAt xs index = .ok xs[index] := by
  unfold elementAt
  rw [List.getElem?_eq_getElem h]

theorem elementAt_zero {α : Type} {xs : List α} (h : xs ≠ []) (x : α) : elementAt xs 0 = .ok (xs.headD x) := by
  cases xs with
  | nil => exact absurd rfl h
  | cons y xs => rfl

theorem entryOf_of_isSome {α : Type} {table : Dict Barcode α} {barcode : Barcode} (h : (table.get? barcode).isSome) (a : α) :
    entryOf table barcode = .ok ((table.get? barcode).getD a) := by
  obtain ⟨b, hb⟩ := Option.isSome_iff_exists.1 h
  unfold entryOf
  rw [hb]
  rfl

/-! ### Tape after tape -/

/-- A group that is more than there is room for is split before its end. -/
theorem firstSplitIndex_lt (request : ArchivePlanRequest) {capacity consumed : Int} {files : List String} (hne : files ≠ [])
    (h : capacity < consumed + request.totalSize files) : request.firstSplitIndex capacity consumed files < files.length := by
  induction files generalizing consumed with
  | nil => exact absurd rfl hne
  | cons file files ih =>
    have hsum : request.totalSize (file :: files) = request.fileSize file + request.totalSize files := by
      simp [ArchivePlanRequest.totalSize]
    rw [ArchivePlanRequest.firstSplitIndex]
    by_cases hroom : consumed + request.fileSize file > capacity
    · rw [if_pos hroom]
      exact Nat.succ_pos _
    rw [if_neg hroom]
    refine Nat.succ_lt_succ (ih ?_ (by omega))
    rintro rfl
    have hzero : request.totalSize [] = 0 := rfl
    omega

theorem directoryStep_ne_nil {acc : List (List String) × Option String × List String} (file : String)
    (hgroups : ∀ group ∈ acc.1, group ≠ []) (hopen : acc.2.1 = none ∨ acc.2.2 ≠ []) :
    (∀ group ∈ (directoryStep acc file).1, group ≠ []) ∧ (directoryStep acc file).2.2 ≠ [] := by
  obtain ⟨groups, directory, current⟩ := acc
  by_cases hsame : directory = none ∨ directory = some (dirname file)
  · simp only [directoryStep, if_pos hsame]
    exact ⟨hgroups, by simp⟩
  · simp only [directoryStep, if_neg hsame]
    refine ⟨?_, by simp⟩
    intro group hgroup
    rcases List.mem_append.1 hgroup with hgroup | hgroup
    · exact hgroups group hgroup
    · rw [List.mem_singleton.1 hgroup]
      exact hopen.resolve_left fun hnone => hsame (.inl hnone)

theorem ne_nil_of_foldl_directoryStep (files : List String) {acc : List (List String) × Option String × List String}
    (hgroups : ∀ group ∈ acc.1, group ≠ []) (hopen : acc.2.1 = none ∨ acc.2.2 ≠ []) :
    ∀ group ∈ (files.foldl directoryStep acc).1, group ≠ [] := by
  induction files generalizing acc with
  | nil => exact hgroups
  | cons file files ih =>
    obtain ⟨hgroups', hopen'⟩ := directoryStep_ne_nil file hgroups hopen
    exact ih hgroups' (.inr hopen')

/-- No directory is without files. -/
theorem ne_nil_of_mem_directoryGroups {files group : List String} (h : group ∈ directoryGroups files) : group ≠ [] := by
  have hgroups := @ne_nil_of_foldl_directoryStep files ([], none, []) (fun _ h => absurd h List.not_mem_nil) (.inl rfl)
  unfold directoryGroups at h
  generalize files.foldl directoryStep ([], none, []) = acc at h hgroups
  obtain ⟨groups, directory, current⟩ := acc
  dsimp only at h hgroups
  split at h
  · rename_i hcurrent
    rcases List.mem_append.1 h with h | h
    · exact hgroups group h
    · rw [List.mem_singleton.1 h]
      exact hcurrent
  · exact hgroups group h

/-- The loop over a group reads tapes, assignments and files that are there. -/
theorem placeGroup_reads {rest : List Barcode} {st : Sequential} {group : List String} (hrest : tapes.drop st.tapeIndex = rest)
    (hgroup : group ≠ []) :
    ReadingPlanner.placeGroup text request tapes st group = .ok (placeGroup text request rest st group) := by
  induction rest generalizing st group with
  | nil =>
    rw [ReadingPlanner.placeGroup, if_pos (List.drop_eq_nil_iff.1 hrest)]
    rfl
  | cons barcode rest ih =>
    have hlt : st.tapeIndex < tapes.length := by
      by_contra hge
      rw [List.drop_eq_nil_iff.2 (Nat.not_lt.1 hge)] at hrest
      cases hrest
    rw [List.drop_eq_getElem_cons hlt, List.cons.injEq] at hrest
    obtain ⟨helem, hnext⟩ := hrest
    have hfound : st.assignment? = .ok st.assignments[st.tapeIndex]? := by
      unfold Sequential.assignment?
      split
      · rename_i hopen
        rw [elementAt_of_lt hopen, List.getElem?_eq_getElem hopen]
        rfl
      · rename_i hopen
        rw [List.getElem?_eq_none (Nat.not_lt.1 hopen)]
    rw [ReadingPlanner.placeGroup, if_neg (Nat.not_le.2 hlt), elementAt_of_lt hlt, helem, placeGroup]
    simp only [ok_bind, hfound]
    generalize st.assignments[st.tapeIndex]? = found
    change _ = Except.ok (if _ then _ else if _ then Except.ok ((st.opened text found barcode).extend request group) else _)
    have hindex := Sequential.tapeIndex_opened text st found barcode
    generalize hremaining : request.tapeCapacity barcode - (found.map TapeAssignment.estimatedBytes).getD 0 = remainingBytes
    by_cases hwait : found ≠ none ∧ request.totalSize group > remainingBytes ∧ request.totalSize group ≤ request.tapeCapacity barcode
    · rw [if_pos hwait, if_pos hwait]
      exact @ih st.nextTape group hnext hgroup
    rw [if_neg hwait, if_neg hwait]
    by_cases hfits : request.totalSize group ≤ remainingBytes
    · rw [if_pos hfits, if_pos hfits]
    rw [if_neg hfits, if_neg hfits]
    by_cases hsplit : request.firstSplitIndex remainingBytes 0 group = 0
    · rw [if_pos hsplit, if_pos hsplit]
      by_cases hused : (found.map TapeAssignment.files).getD [] ≠ []
      · rw [if_pos hused, if_pos hused]
        exact @ih (st.opened text found barcode).nextTape group (by rw [Sequential.nextTape, hindex]; exact hnext) hgroup
      · rw [if_neg hused, if_neg hused, elementAt_zero hgroup ""]
        rfl
    · rw [if_neg hsplit, if_neg hsplit]
      have hrest : group.drop (request.firstSplitIndex remainingBytes 0 group) ≠ [] := by
        rw [Ne, List.drop_eq_nil_iff, not_le]
        exact firstSplitIndex_lt request hgroup (by omega)
      exact @ih ((st.opened text found barcode).extend request _).nextTape _
        (by rw [Sequential.nextTape, Sequential.extend, hindex]; exact hnext) hrest

theorem placeGroups_reads {groups : List (List String)} {st : Sequential} (hgroups : ∀ group ∈ groups, group ≠ []) :
    ReadingPlanner.placeGroups text request tapes st groups = .ok (placeGroups text request tapes st groups) := by
  induction groups generalizing st with
  | nil => rfl
  | cons group groups ih =>
    rw [ReadingPlanner.placeGroups, placeGroup_reads rfl (hgroups group List.mem_cons_self), placeGroups]
    cases placeGroup text request (tapes.drop st.tapeIndex) st group with
    | error blocked => rfl
    | ok st' => exact ih fun group hgroup => hgroups group (List.mem_cons_of_mem _ hgroup)

theorem placeSequentially_reads (plan : ArchivePlan) :
    ReadingPlanner.placeSequentially text request plan = .ok (placeSequentially text request plan) := by
  unfold ReadingPlanner.placeSequentially placeSequentially
  dsimp only
  cases (orderedTapes text request).find? fun barcode => request.tapeCapacity barcode ≥ plan.totalBytes with
  | some fittingTape => rfl
  | none =>
    rw [placeGroups_reads fun group => ne_nil_of_mem_directoryGroups]
    simp only [ok_bind]
    cases placeGroups text request (orderedTapes text request) { plan := plan } (directoryGroups plan.files) with
    | error blocked => rfl
    | ok st => rfl

/-! ### Spread over the tapes -/

/-- The tables of the sharded planner have an entry for every tape, and files are put on these tapes only. -/
structure Covers (tapes : List Barcode) (st : Sharding) : Prop where
  remaining : ∀ barcode ∈ tapes, (st.remaining.get? barcode).isSome
  fills : ∀ barcode ∈ tapes, (st.shardFillBytes.get? barcode).isSome
  assigned : ∀ entry ∈ st.assignments, entry.1 ∈ tapes

/-- The table of positions has every tape. -/
def Positions (tapes : List Barcode) (positions : Dict Barcode Nat) : Prop :=
  ∀ barcode ∈ tapes, entryOf positions barcode = .ok (tapePosition tapes barcode)

variable {positions : Dict Barcode Nat} {st : Sharding} {barcode : Barcode} {size : Int} {file : String}

theorem positions_zipIdx (tapes : List Barcode) : Positions tapes (Dict.ofPairs tapes.zipIdx) := by
  intro barcode hmem
  refine entryOf_of_isSome (Dict.isSome_get?_ofPairs ?_) 0
  rw [List.zipIdx_map_fst]
  exact hmem

theorem covers_start (request : ArchivePlanRequest) (plan : ArchivePlan) (tapes : List Barcode) :
    Covers tapes (.start request plan tapes) where
  remaining := fun barcode hmem => Dict.isSome_get?_ofPairs (by simpa using hmem)
  fills := fun barcode hmem => Dict.isSome_get?_ofPairs (by simpa using hmem)
  assigned := fun _ h => absurd h List.not_mem_nil

theorem covers_noteOversized (h : Covers tapes st) : Covers tapes (st.noteOversized request file) := by
  unfold Sharding.noteOversized
  split
  · exact h
  · split
    · exact ⟨h.remaining, h.fills, h.assigned⟩
    · exact h

theorem covers_resetShards (h : Covers tapes st) : Covers tapes st.resetShards where
  remaining := h.remaining
  fills := by
    intro barcode hmem
    show (Dict.get? (Dict.mapValues (fun _ => (0 : Int)) st.shardFillBytes) barcode).isSome = true
    rw [Dict.get?_mapValues, Option.isSome_map]
    exact h.fills barcode hmem
  assigned := h.assigned

theorem isSome_get?_set {α : Type} {table : Dict Barcode α} {other : Barcode} (a : α) (h : (table.get? other).isSome) :
    ((table.set barcode a).get? other).isSome := by
  rw [Dict.get?_set]
  split
  · rfl
  · exact h

theorem covers_place (h : Covers tapes st) (hmem : barcode ∈ tapes) : Covers tapes (st.place request tapes barcode file) where
  remaining := fun other hother => isSome_get?_set _ (h.remaining other hother)
  fills := by
    intro other hother
    show ((if request.shardSizeBytes = none then st.shardFillBytes else st.shardFillBytes.set barcode _).get? other).isSome = true
    split
    · exact h.fills other hother
    · exact isSome_get?_set _ (h.fills other hother)
  assigned := by
    intro entry hentry
    rcases Dict.mem_set hentry with hentry | rfl
    · exact h.assigned entry hentry
    · exact hmem

theorem accepts_reads (h : Covers tapes st) (hmem : barcode ∈ tapes) :
    ReadingPlanner.accepts request st size barcode = .ok (st.accepts request size barcode) := by
  unfold ReadingPlanner.accepts Sharding.accepts
  rw [entryOf_of_isSome (h.remaining barcode hmem) 0, ok_bind, ← Sharding.remainingOf]
  by_cases hroom : st.remainingOf barcode < size
  · rw [if_pos hroom]
    simp [hroom]
  rw [if_neg hroom]
  cases request.shardSizeBytes with
  | none => simp [hroom]
  | some shardSizeBytes =>
    dsimp only
    rw [entryOf_of_isSome (h.fills barcode hmem) 0, ok_bind, ← Sharding.shardFillOf]
    simp [hroom]

theorem firstAccepting_reads (h : Covers tapes st) {choices : List Barcode} (hall : ∀ barcode ∈ choices, barcode ∈ tapes) :
    ReadingPlanner.firstAccepting request st size choices = .ok (choices.find? (st.accepts request size)) := by
  induction choices with
  | nil => rfl
  | cons barcode choices ih =>
    rw [ReadingPlanner.firstAccepting, accepts_reads h (hall barcode List.mem_cons_self), ok_bind, List.find?_cons]
    cases st.accepts request size barcode with
    | true => rfl
    | false => exact ih fun other hother => hall other (List.mem_cons_of_mem _ hother)

theorem getAssignment_reads (hpositions : Positions tapes positions) (hmem : barcode ∈ tapes) :
    ReadingPlanner.getAssignment positions st barcode = .ok ((Dict.get? st.assignments barcode).getD
      { barcode := barcode, files := [], shardIndex := some (tapePosition tapes barcode) }) := by
  unfold ReadingPlanner.getAssignment
  cases Dict.get? st.assignments barcode with
  | some assignment => rfl
  | none =>
    dsimp only
    rw [hpositions barcode hmem]
    rfl

theorem place_reads (h : Covers tapes st) (hpositions : Positions tapes positions) (hmem : barcode ∈ tapes) :
    ReadingPlanner.place request positions st barcode file = .ok (st.place request tapes barcode file) := by
  unfold ReadingPlanner.place Sharding.place
  rw [getAssignment_reads hpositions hmem, entryOf_of_isSome (h.remaining barcode hmem) 0]
  simp only [ok_bind]
  by_cases hnone : request.shardSizeBytes = none
  · rw [if_pos hnone, if_pos hnone]
    rfl
  · rw [if_neg hnone, if_neg hnone, entryOf_of_isSome (h.fills barcode hmem) 0]
    rfl

theorem assignFile_reads (request : ArchivePlanRequest) {preferredTape : Barcode} (file : String) (h : Covers tapes st) (hpositions : Positions tapes positions)
    (hpreferred : preferredTape ∈ tapes) :
    ReadingPlanner.assignFile request tapes positions preferredTape file st = .ok (assignFile request tapes preferredTape file st) ∧
      Covers tapes (assignFile request tapes preferredTape file st).2 := by
  have hall : ∀ barcode ∈ preferredTape :: tapes.filter (· ≠ preferredTape), barcode ∈ tapes := by
    intro barcode hmem
    rcases List.mem_cons.1 hmem with rfl | hmem
    · exact hpreferred
    · exact (List.mem_filter.1 hmem).1
  unfold ReadingPlanner.assignFile assignFile
  dsimp only
  have hnoted : Covers tapes (st.noteOversized request file) := covers_noteOversized h
  generalize st.noteOversized request file = noted at hnoted
  rw [firstAccepting_reads hnoted hall, ok_bind]
  cases hfirst : (preferredTape :: tapes.filter (· ≠ preferredTape)).find? (noted.accepts request (request.fileSize file)) with
  | some barcode =>
    have hmem := hall barcode (List.mem_of_find?_eq_some hfirst)
    dsimp only
    rw [place_reads hnoted hpositions hmem]
    exact ⟨rfl, covers_place hnoted hmem⟩
  | none =>
    dsimp only
    have hagain : Covers tapes (if request.shardSizeBytes = none then noted else noted.resetShards) := by
      split
      · exact hnoted
      · exact covers_resetShards hnoted
    generalize (if request.shardSizeBytes = none then noted else noted.resetShards) = again at hagain
    rw [firstAccepting_reads hagain hall, ok_bind]
    cases hsecond : (preferredTape :: tapes.filter (· ≠ preferredTape)).find? (again.accepts request (request.fileSize file)) with
    | some barcode =>
      have hmem := hall barcode (List.mem_of_find?_eq_some hsecond)
      dsimp only
      rw [place_reads hagain hpositions hmem]
      exact ⟨rfl, covers_place hagain hmem⟩
    | none => exact ⟨rfl, hagain.remaining, hagain.fills, hagain.assigned⟩

/-- A loop that prefers the same tapes assigns the same files. -/
theorem assignFiles_reads (request : ArchivePlanRequest) (prefer : Nat → String → Sharding → Except Exn Barcode)
    {prefer' : Nat → String → Sharding → Except Exn Barcode} (index : Nat) (files : List String) (hpositions : Positions tapes positions)
    (hsame : ∀ index file st, Covers tapes st → prefer' index file st = prefer index file st)
    (hprefer : ∀ index file st barcode, prefer index file st = .ok barcode → barcode ∈ tapes) (h : Covers tapes st) :
    ReadingPlanner.assignFiles request tapes positions prefer' index files st = assignFiles request tapes prefer index files st ∧
      ∀ st', assignFiles request tapes prefer index files st = .ok st' → Covers tapes st' := by
  induction files generalizing index st with
  | nil =>
    refine ⟨rfl, fun st' hrun => ?_⟩
    rw [← Except.ok.inj hrun]
    exact h
  | cons file files ih =>
    rw [ReadingPlanner.assignFiles, assignFiles, hsame index file st h]
    cases hchoice : prefer index file st with
    | error exc =>
      simp only [error_bind]
      exact ⟨trivial, fun st' hrun => by cases hrun⟩
    | ok preferredTape =>
      obtain ⟨hassigned, hcovers⟩ := assignFile_reads request file h hpositions (hprefer _ _ _ _ hchoice)
      simp only [ok_bind, hassigned]
      cases hrun : assignFile request tapes preferredTape file st with
      | mk taken st₁ =>
        rw [hrun] at hcovers
        cases taken with
        | true => exact ih (index + 1) hcovers
        | false =>
          refine ⟨rfl, fun st' hend => ?_⟩
          rw [← Except.ok.inj hend]
          exact hcovers

theorem tapeAt_reads (tapes : List Barcode) (index : Nat) : ReadingPlanner.tapeAt tapes index = tapeAt tapes index := by
  unfold ReadingPlanner.tapeAt tapeAt
  by_cases hnil : tapes = []
  · rw [if_pos hnil, if_pos (by rw [hnil]; rfl)]
  · have hlt := Nat.mod_lt index (List.length_pos_iff.2 hnil)
    rw [if_neg hnil, if_neg (fun h => hnil (List.length_eq_zero_iff.1 h)), elementAt_of_lt hlt, List.getD_eq_getElem?_getD,
      List.getElem?_eq_getElem hlt, Option.getD_some]

/-- The keys of all tapes can be read. -/
theorem forM_reads {f : Barcode → Except Exn Unit} (h : ∀ barcode ∈ tapes, f barcode = .ok ()) : tapes.forM f = .ok () := by
  induction tapes with
  | nil => rfl
  | cons barcode tapes ih =>
    show (f barcode >>= fun _ => tapes.forM f) = .ok ()
    rw [h barcode List.mem_cons_self, ok_bind]
    exact ih fun other hother => h other (List.mem_cons_of_mem _ hother)

theorem roomiestTape_reads (h : Covers tapes st) (hpositions : Positions tapes positions) :
    ReadingPlanner.roomiestTape tapes positions st = roomiestTape tapes st := by
  unfold ReadingPlanner.roomiestTape
  rw [forM_reads, ok_bind]
  intro barcode hmem
  rw [entryOf_of_isSome (h.remaining barcode hmem) 0, hpositions barcode hmem]
  rfl

theorem hashedTape_reads (text : PlannerText) (tapes : List Barcode) (file : String) :
    ReadingPlanner.hashedTape text tapes file = hashedTape text tapes file := by
  unfold ReadingPlanner.hashedTape hashedTape
  dsimp only
  generalize (if basename file = "" then file else basename file) = filename
  cases hletters : filename.toList with
  | nil =>
    have hempty : filename = "" := String.toList_inj.1 hletters
    rw [if_pos hempty]
    exact tapeAt_reads tapes 0
  | cons letter letters =>
    have hne : filename ≠ "" := by
      rintro rfl
      cases hletters
    have hletter : elementAt (letter :: letters) 0 = .ok letter := rfl
    rw [if_neg hne, hletter, ok_bind]
    dsimp only
    generalize (text.lower (String.ofList [letter])).toList = chars
    rcases chars with _ | ⟨c, _ | ⟨d, chars⟩⟩
    · rfl
    · exact tapeAt_reads tapes c.toNat
    · rfl

theorem assignGroups_reads {groups : List (List String)} (hpositions : Positions tapes positions) (h : Covers tapes st) :
    ReadingPlanner.assignGroups request tapes positions groups st = assignGroups request tapes groups st := by
  induction groups generalizing st with
  | nil => rfl
  | cons group groups ih =>
    rw [ReadingPlanner.assignGroups, assignGroups, roomiestTape_reads h hpositions]
    cases hroomiest : roomiestTape tapes st with
    | error exc => rfl
    | ok preferredTape =>
      have hmem := mem_of_roomiestTape hroomiest
      simp only [ok_bind]
      rw [entryOf_of_isSome (h.remaining preferredTape hmem) 0, ok_bind, ← Sharding.remainingOf]
      obtain ⟨hwhole, hcovers⟩ := assignFiles_reads request (fun _ _ _ => .ok preferredTape) 0 group hpositions (fun _ _ _ _ => rfl)
        (fun _ _ _ _ hpick => Except.ok.inj hpick ▸ hmem) h
      obtain ⟨hspread, hcovers'⟩ := assignFiles_reads request (fun _ _ st => roomiestTape tapes st) 0 group hpositions
        (fun _ _ st hst => roomiestTape_reads hst hpositions) (fun _ _ _ _ => mem_of_roomiestTape) h
      rw [hwhole, hspread]
      by_cases hroom : st.remainingOf preferredTape ≥ request.totalSize group
      · rw [if_pos hroom, if_pos hroom]
        cases hrun : assignFiles request tapes (fun _ _ _ => .ok preferredTape) 0 group st with
        | error exc => rfl
        | ok st' => exact ih (hcovers st' hrun)
      · rw [if_neg hroom, if_neg hroom]
        cases hrun : assignFiles request tapes (fun _ _ st => roomiestTape tapes st) 0 group st with
        | error exc => rfl
        | ok st' =>
          simp only [ok_bind]
          split
          · rfl
          · exact ih (hcovers' st' hrun)

/-- The loads of the tapes, where none is missing. -/
def SameLoads (tapes : List Barcode) (tapeLoads tapeLoads' : Dict Barcode Int) : Prop :=
  ∀ barcode ∈ tapes, (tapeLoads'.get? barcode).isSome ∧ (tapeLoads'.get? barcode).getD 0 = (tapeLoads.get? barcode).getD 0

theorem SameLoads.set {tapeLoads tapeLoads' : Dict Barcode Int} (h : SameLoads tapes tapeLoads tapeLoads') (load : Int) :
    SameLoads tapes (tapeLoads.set barcode load) (tapeLoads'.set barcode load) := by
  intro other hmem
  rw [Dict.get?_set, Dict.get?_set]
  by_cases hsame : barcode = other
  · rw [if_pos hsame, if_pos hsame]
    exact ⟨rfl, rfl⟩
  · rw [if_neg hsame, if_neg hsame]
    exact h other hmem

/-- The least of a list depends on the keys of its elements. -/
theorem argmin_congr {α β : Type} [LinearOrder β] {f g : α → β} {xs : List α} (h : ∀ x ∈ xs, f x = g x) : xs.argmin f = xs.argmin g := by
  induction xs using List.reverseRecOn with
  | nil => rfl
  | append_singleton xs x ih =>
    rw [List.argmin_concat, List.argmin_concat, ih fun y hy => h y (List.mem_append_left _ hy)]
    cases hleast : xs.argmin g with
    | none => rfl
    | some least =>
      have hmem : least ∈ xs := List.argmin_mem hleast
      simp only [h x (by simp), h least (List.mem_append_left _ hmem)]

theorem assignByLoad_reads {files : List String} {tapeLoads tapeLoads' : Dict Barcode Int} (hpositions : Positions tapes positions)
    (hloads : SameLoads tapes tapeLoads tapeLoads') (h : Covers tapes st) :
    ReadingPlanner.assignByLoad request tapes positions files tapeLoads' st = assignByLoad request tapes files tapeLoads st := by
  induction files generalizing tapeLoads tapeLoads' st with
  | nil => rfl
  | cons file files ih =>
    have hkeys : tapes.forM (fun barcode => do
        let _ ← entryOf tapeLoads' barcode
        let _ ← entryOf st.remaining barcode
        let _ ← entryOf positions barcode
        .ok ()) = (.ok () : Except Exn Unit) := by
      refine forM_reads fun barcode hmem => ?_
      rw [entryOf_of_isSome (hloads barcode hmem).1 0, entryOf_of_isSome (h.remaining barcode hmem) 0, hpositions barcode hmem]
      rfl
    have hleast : (tapes.argmin fun barcode =>
        toLex ((tapeLoads'.get? barcode).getD 0, toLex (-(st.remainingOf barcode), tapePosition tapes barcode))) =
        tapes.argmin fun barcode =>
          toLex ((tapeLoads.get? barcode).getD 0, toLex (-(st.remainingOf barcode), tapePosition tapes barcode)) :=
      argmin_congr fun barcode hmem => by rw [(hloads barcode hmem).2]
    rw [ReadingPlanner.assignByLoad, ReadingPlanner.leastLoadedTape, hkeys, hleast, assignByLoad]
    simp only [ok_bind]
    generalize hargmin : (tapes.argmin fun barcode =>
        toLex ((tapeLoads.get? barcode).getD 0, toLex (-(st.remainingOf barcode), tapePosition tapes barcode))) = least
    cases least with
    | none => rfl
    | some preferredTape =>
      obtain ⟨hassigned, hcovers⟩ := assignFile_reads request file h hpositions (List.argmin_mem hargmin)
      simp only [ok_bind, hassigned]
      cases hrun : assignFile request tapes preferredTape file st with
      | mk taken st₁ =>
        rw [hrun] at hcovers
        cases taken with
        | false => rfl
        | true =>
          dsimp only
          cases hplaced : st₁.assignments.find? fun entry => makeRelative file request.sourcePath ∈ entry.2.files with
          | none => rfl
          | some entry =>
            obtain ⟨placedTape, assignment⟩ := entry
            have hmem : placedTape ∈ tapes := hcovers.assigned _ (List.mem_of_find?_eq_some hplaced)
            dsimp only
            rw [entryOf_of_isSome (hloads placedTape hmem).1 0, ok_bind, (hloads placedTape hmem).2]
            exact ih (hloads.set _) hcovers

theorem runStrategy_reads {files : List String} (h : Covers tapes st) :
    ReadingPlanner.runStrategy text request tapes files st = runStrategy text request tapes files st := by
  have hpositions := positions_zipIdx tapes
  unfold ReadingPlanner.runStrategy runStrategy
  dsimp only
  cases request.shardStrategy.getD .roundRobin with
  | roundRobin =>
    exact (assignFiles_reads request _ 0 files hpositions (fun index _ _ _ => tapeAt_reads tapes index)
      (fun _ _ _ _ => mem_of_tapeAt) h).1
  | capacityWeighted =>
    exact (assignFiles_reads request _ 0 files hpositions (fun _ _ _ hst => roomiestTape_reads hst hpositions)
      (fun _ _ _ _ => mem_of_roomiestTape) h).1
  | directoryBatch => exact assignGroups_reads hpositions h
  | hashPrefix =>
    exact (assignFiles_reads request _ 0 files hpositions (fun _ file _ _ => hashedTape_reads text tapes file)
      (fun _ _ _ _ => mem_of_hashedTape) h).1
  | restoreParallelismOptimized =>
    refine assignByLoad_reads hpositions (fun barcode hmem => ?_) h
    have hzero : ∀ entry ∈ tapes.map fun barcode => (barcode, (0 : Int)), entry.2 = 0 := by simp
    have hsome : (Dict.get? (Dict.ofPairs (tapes.map fun barcode => (barcode, (0 : Int)))) barcode).isSome :=
      Dict.isSome_get?_ofPairs (by simpa using hmem)
    refine ⟨hsome, ?_⟩
    obtain ⟨load, hload⟩ := Option.isSome_iff_exists.1 hsome
    rw [hload]
    exact hzero _ (Dict.mem_of_mem_ofPairs (Dict.mem_of_get? hload))

/-- The sharded planner reads nothing that is missing. -/
theorem planNoncriticalSharded_reads (plan : ArchivePlan) :
    ReadingPlanner.planNoncriticalSharded text request plan = planNoncriticalSharded text request plan := by
  unfold ReadingPlanner.planNoncriticalSharded planNoncriticalSharded
  dsimp only
  rw [runStrategy_reads (covers_start request plan _)]

/-! ### The loops of the strategies -/

theorem tapeAt_ok (hne : tapes ≠ []) (index : Nat) : ∃ tape, tapeAt tapes index = .ok tape := by
  unfold tapeAt
  rw [if_neg hne]
  exact ⟨_, rfl⟩

theorem roomiestTape_ok (hne : tapes ≠ []) (st : Sharding) : ∃ tape, roomiestTape tapes st = .ok tape := by
  unfold roomiestTape
  cases hmax : tapes.argmax fun barcode => toLex (st.remainingOf barcode, -(tapePosition tapes barcode : Int)) with
  | none => exact absurd (List.argmax_eq_none.1 hmax) hne
  | some tape => exact ⟨tape, rfl⟩

/-- A tape is told from the name, or the lower case of its first letter is no single character. -/
theorem hashedTape_cases (text : PlannerText) (hne : tapes ≠ []) (file : String) :
    (HasOneLower text file ∧ ∃ tape, hashedTape text tapes file = .ok tape) ∨
      ¬HasOneLower text file ∧ ∃ exc, hashedTape text tapes file = .error exc ∧ exc.cls = .other "TypeError" := by
  unfold hashedTape HasOneLower
  dsimp only
  rw [← hashedName]
  cases (hashedName file).toList with
  | nil => exact .inl ⟨fun _ h => (nomatch h), tapeAt_ok hne 0⟩
  | cons letter letters =>
    simp only [List.head?_cons, Option.mem_def, Option.some.injEq, forall_eq']
    generalize (text.lower (String.ofList [letter])).toList = chars
    rcases chars with _ | ⟨c, _ | ⟨d, chars⟩⟩
    · exact .inr ⟨fun ⟨c, h⟩ => (nomatch h), _, rfl, rfl⟩
    · exact .inl ⟨⟨c, rfl⟩, tapeAt_ok hne c.toNat⟩
    · exact .inr ⟨fun ⟨c, h⟩ => (nomatch h), _, rfl, rfl⟩

/-- A loop whose preferences never fail comes to its end. -/
theorem assignFiles_ok {prefer : Nat → String → Sharding → Except Exn Barcode} {index : Nat} {files : List String}
    (hprefer : ∀ index file st, ∃ tape, prefer index file st = .ok tape) (st : Sharding) :
    ∃ st', assignFiles request tapes prefer index files st = .ok st' := by
  induction files generalizing index st with
  | nil => exact ⟨st, rfl⟩
  | cons file files ih =>
    obtain ⟨tape, htape⟩ := hprefer index file st
    rw [assignFiles, htape]
    simp only [ok_bind]
    cases assignFile request tapes tape file st with
    | mk taken st₁ =>
      cases taken with
      | true => exact ih st₁
      | false => exact ⟨st₁, rfl⟩

/-- The loop of `HASH_PREFIX` ends, or it comes to a name whose letter it cannot hash. -/
theorem assignFiles_hashed (text : PlannerText) (request : ArchivePlanRequest) (index : Nat) (files : List String) (hne : tapes ≠ []) (st : Sharding) :
    ((∀ file, ComesTo text request tapes file st files → HasOneLower text file) ∧
        ∃ st', assignFiles request tapes (fun _ file _ => hashedTape text tapes file) index files st = .ok st') ∨
      ¬(∀ file, ComesTo text request tapes file st files → HasOneLower text file) ∧
        ∃ exc, assignFiles request tapes (fun _ file _ => hashedTape text tapes file) index files st = .error exc ∧
          exc.cls = .other "TypeError" := by
  induction files generalizing index st with
  | nil => exact .inl ⟨fun _ h => (nomatch h), st, rfl⟩
  | cons first files ih =>
    rw [assignFiles]
    rcases hashedTape_cases text hne first with ⟨hlower, tape, htape⟩ | ⟨hlower, exc, hexc, hcls⟩
    · simp only [htape, ok_bind]
      cases hassigned : assignFile request tapes tape first st with
      | mk taken st₁ =>
        have hcomes (file : String) : ComesTo text request tapes file st (first :: files) ↔
            file = first ∨ taken = true ∧ ComesTo text request tapes file st₁ files := by
          constructor
          · intro h
            cases h with
            | here => exact .inl rfl
            | next htape' hplaced h =>
              obtain rfl := Except.ok.inj (htape.symm.trans htape')
              obtain ⟨rfl, rfl⟩ := Prod.mk.inj (hassigned.symm.trans hplaced)
              exact .inr ⟨rfl, h⟩
          · rintro (rfl | ⟨rfl, h⟩)
            · exact .here
            · exact .next htape hassigned h
        cases taken with
        | true =>
          rcases ih (index + 1) st₁ with ⟨hall, hend⟩ | ⟨hnot, hend⟩
          · refine .inl ⟨fun file h => ?_, hend⟩
            rcases (hcomes file).1 h with rfl | ⟨-, h⟩
            · exact hlower
            · exact hall file h
          · exact .inr ⟨fun hall => hnot fun file h => hall file ((hcomes file).2 (.inr ⟨rfl, h⟩)), hend⟩
        | false =>
          refine .inl ⟨fun file h => ?_, st₁, rfl⟩
          rcases (hcomes file).1 h with rfl | ⟨hfalse, -⟩
          · exact hlower
          · cases hfalse
    · simp only [hexc, error_bind]
      exact .inr ⟨fun hall => hlower (hall first .here), exc, rfl, hcls⟩

theorem assignGroups_ok {groups : List (List String)} (hne : tapes ≠ []) (st : Sharding) :
    ∃ st', assignGroups request tapes groups st = .ok st' := by
  induction groups generalizing st with
  | nil => exact ⟨st, rfl⟩
  | cons group groups ih =>
    obtain ⟨tape, htape⟩ := roomiestTape_ok hne st
    rw [assignGroups, htape]
    simp only [ok_bind]
    split
    · obtain ⟨st', hrun⟩ := assignFiles_ok (fun _ _ _ => ⟨tape, rfl⟩) st
      rw [hrun]
      exact ih st'
    · obtain ⟨st', hrun⟩ := assignFiles_ok (fun _ _ st => roomiestTape_ok hne st) st
      rw [hrun]
      simp only [ok_bind]
      split
      · exact ⟨st', rfl⟩
      · exact ih st'

/-- A file that was placed is in an assignment. -/
theorem exists_assignment {preferredTape : Barcode} {file : String} {st st' : Sharding}
    (h : assignFile request tapes preferredTape file st = (true, st')) :
    ∃ entry ∈ st'.assignments, makeRelative file request.sourcePath ∈ entry.2.files := by
  have hplace (st : Sharding) (barcode : Barcode) : ∃ entry ∈ (st.place request tapes barcode file).assignments,
      makeRelative file request.sourcePath ∈ entry.2.files := by
    have hself : Dict.get? (st.place request tapes barcode file).assignments barcode = some _ :=
      (Dict.get?_set _ _ _ _).trans (if_pos rfl)
    exact ⟨_, Dict.mem_of_get? hself, List.mem_append_right _ (List.mem_singleton_self _)⟩
  unfold assignFile at h
  dsimp only at h
  split at h
  · obtain ⟨-, rfl⟩ := Prod.mk.inj h
    exact hplace _ _
  · split at h
    · obtain ⟨-, rfl⟩ := Prod.mk.inj h
      exact hplace _ _
    · cases (Prod.mk.inj h).1

theorem assignByLoad_ok {files : List String} {tapeLoads : Dict Barcode Int} (hne : tapes ≠ []) (st : Sharding) :
    ∃ st', assignByLoad request tapes files tapeLoads st = .ok st' := by
  induction files generalizing tapeLoads st with
  | nil => exact ⟨st, rfl⟩
  | cons file files ih =>
    rw [assignByLoad]
    dsimp only
    split
    · rename_i hnone
      exact absurd (List.argmin_eq_none.1 hnone) hne
    · rename_i preferredTape _
      cases hassigned : assignFile request tapes preferredTape file st with
      | mk taken st₁ =>
        cases taken with
        | false => exact ⟨st₁, rfl⟩
        | true =>
          dsimp only
          obtain ⟨entry, hmem, hfile⟩ := exists_assignment hassigned
          cases hplaced : st₁.assignments.find? fun entry => makeRelative file request.sourcePath ∈ entry.2.files with
          | none => exact absurd (decide_eq_true hfile) (List.find?_eq_none.1 hplaced entry hmem)
          | some found => exact ih st₁

/-- The sharded planner makes a plan, unless it hashes a name whose letter it cannot hash. -/
theorem planNoncriticalSharded_cases (text : PlannerText) (request : ArchivePlanRequest) (plan : ArchivePlan)
    (hne : orderedTapes text request ≠ []) :
    ((request.shardStrategy = some .hashPrefix → ∀ file, ComesTo text request (orderedTapes text request) file
        (.start request plan (orderedTapes text request)) plan.files → HasOneLower text file) ∧
        ∃ plan', planNoncriticalSharded text request plan = .ok plan') ∨
      ¬(request.shardStrategy = some .hashPrefix → ∀ file, ComesTo text request (orderedTapes text request) file
        (.start request plan (orderedTapes text request)) plan.files → HasOneLower text file) ∧
        ∃ exc, planNoncriticalSharded text request plan = .error exc ∧ exc.cls = .other "TypeError" := by
  have hends {r : Except Exn Sharding} (h : ∃ st', r = .ok st') :
      ∃ plan', (r >>= fun st => (.ok (st.finish request (orderedTapes text request)) : Except Exn ArchivePlan)) = .ok plan' := by
    obtain ⟨st', rfl⟩ := h
    exact ⟨_, rfl⟩
  unfold planNoncriticalSharded runStrategy
  dsimp only
  cases hstrategy : request.shardStrategy with
  | none => exact .inl ⟨fun h => (nomatch h), hends (assignFiles_ok (fun index _ _ => tapeAt_ok hne index) _)⟩
  | some strategy =>
    cases strategy with
    | roundRobin => exact .inl ⟨fun h => (nomatch h), hends (assignFiles_ok (fun index _ _ => tapeAt_ok hne index) _)⟩
    | capacityWeighted => exact .inl ⟨fun h => (nomatch h), hends (assignFiles_ok (fun _ _ st => roomiestTape_ok hne st) _)⟩
    | directoryBatch => exact .inl ⟨fun h => (nomatch h), hends (assignGroups_ok hne _)⟩
    | restoreParallelismOptimized => exact .inl ⟨fun h => (nomatch h), hends (assignByLoad_ok hne _)⟩
    | hashPrefix =>
      rcases assignFiles_hashed text request 0 plan.files hne
        (.start request plan (orderedTapes text request)) with ⟨hall, hend⟩ | ⟨hnot, exc, hexc, hcls⟩
      · exact .inl ⟨fun _ => hall, hends hend⟩
      · refine .inr ⟨fun hall => hnot (hall rfl), exc, ?_, hcls⟩
        show (assignFiles request _ _ 0 plan.files _ >>= _) = _
        rw [hexc]
        rfl

/-! ### The plan -/

theorem toFloat_cases (n : Int) :
    n.natAbs < floatLimit ∧ toFloat n = .ok () ∨
      ¬n.natAbs < floatLimit ∧ ∃ exc, toFloat n = .error exc ∧ exc.cls = .other "OverflowError" := by
  unfold toFloat
  by_cases h : n.natAbs < floatLimit
  · rw [if_pos h]
    exact .inl ⟨h, rfl⟩
  · rw [if_neg h]
    exact .inr ⟨h, _, rfl, rfl⟩

theorem trueDivide_cases (a d : Int) :
    a.natAbs < floatLimit * d.natAbs ∧ trueDivide a d = .ok () ∨
      ¬a.natAbs < floatLimit * d.natAbs ∧ ∃ exc, trueDivide a d = .error exc ∧ exc.cls = .other "OverflowError" := by
  unfold trueDivide
  by_cases h : a.natAbs < floatLimit * d.natAbs
  · rw [if_pos h]
    exact .inl ⟨h, rfl⟩
  · rw [if_neg h]
    exact .inr ⟨h, _, rfl, rfl⟩

/-- Without tapes no plan is safe. -/
theorem orderedTapes_ne_nil {plan : ArchivePlan} (hsafe : (applyCommonChecks request plan).isSafeToEnqueue = true) :
    orderedTapes text request ≠ [] := by
  intro hnil
  have hnone : request.availableTapes = [] := by
    rw [List.eq_nil_iff_forall_not_mem]
    intro barcode hmem
    have hordered : barcode ∈ orderedTapes text request := mem_orderedTapes.2 hmem
    rw [hnil] at hordered
    exact absurd hordered List.not_mem_nil
  have hunsafe (plan : ArchivePlan) (h : plan.isSafeToEnqueue = false) : (checkPoolBudget request plan).isSafeToEnqueue = false := by
    unfold checkPoolBudget
    split
    · exact h
    · split
      · rfl
      · exact h
  unfold applyCommonChecks at hsafe
  dsimp only at hsafe
  rw [if_pos hnone, hunsafe] at hsafe
  · cases hsafe
  · generalize (if request.files = [] then plan.block "No files to archive" else plan) = first
    split <;> rfl

/-- A failure that is none of the media. -/
theorem not_refusesMedia {exc : Exn} {cls : String} (h : exc.cls = .other cls) (hforeign : cls ≠ "ForeignMediaError")
    (hincompatible : cls ≠ "IncompatibleMediaError") : ¬RefusesMedia exc := by
  unfold RefusesMedia
  rw [h]
  simpa using ⟨hforeign, hincompatible⟩

/-- The outcome of a planner, if it plans under a condition only. -/
def Outcome (condition : Prop) (reading total : Except Exn ArchivePlan) : Prop :=
  condition ∧ (∃ plan, reading = .ok plan ∧ total = .ok plan) ∨ ¬condition ∧ ∃ exc, reading = .error exc ∧ ¬RefusesMedia exc

theorem Outcome.congr {condition condition' : Prop} {reading total : Except Exn ArchivePlan} (h : Outcome condition reading total)
    (hiff : condition ↔ condition') : Outcome condition' reading total := by
  rwa [← hiff]

/-- A number is made a float before anything else. -/
theorem Outcome.after {condition : Prop} {reading total : Except Exn ArchivePlan} {float : Except Exn Unit} {small : Prop}
    (hfloat : small ∧ float = .ok () ∨ ¬small ∧ ∃ exc, float = .error exc ∧ exc.cls = .other "OverflowError")
    (h : Outcome condition reading total) : Outcome (small ∧ condition) (float >>= fun _ => reading) total := by
  rcases hfloat with ⟨hsmall, rfl⟩ | ⟨hlarge, exc, rfl, hcls⟩
  · exact h.congr (and_iff_right hsmall).symm
  · exact .inr ⟨fun h => hlarge h.1, exc, rfl, not_refusesMedia hcls (by decide) (by decide)⟩

theorem planCriticalSequential_outcome (text : PlannerText) (request : ArchivePlanRequest) (plan : ArchivePlan) :
    Outcome (request.singleTapeCapacity.natAbs < floatLimit) (ReadingPlanner.planCriticalSequential text request plan)
      (.ok (planCriticalSequential text request plan)) := by
  have hplaced : Outcome True (ReadingPlanner.placeSequentially text request (warnSequential text request plan))
      (.ok (planCriticalSequential text request plan)) := .inl ⟨trivial, _, placeSequentially_reads _, rfl⟩
  exact (hplaced.after (toFloat_cases _)).congr (and_iff_left trivial)

/-- What the names of a sharded plan must satisfy. -/
def NamesHashed (text : PlannerText) (request : ArchivePlanRequest) (plan : ArchivePlan) : Prop :=
  request.shardStrategy = some .hashPrefix → ∀ file, ComesTo text request (orderedTapes text request) file
    (.start request plan (orderedTapes text request)) plan.files → HasOneLower text file

theorem planNoncriticalSharded_outcome {plan : ArchivePlan} (hne : orderedTapes text request ≠ []) :
    Outcome (NamesHashed text request plan) (ReadingPlanner.planNoncriticalSharded text request plan)
      (planNoncriticalSharded text request plan) := by
  rw [planNoncriticalSharded_reads]
  rcases planNoncriticalSharded_cases text request plan hne with ⟨hall, plan', hplan⟩ | ⟨hnot, exc, hexc, hcls⟩
  · exact .inl ⟨hall, plan', hplan, hplan⟩
  · exact .inr ⟨hnot, exc, hexc, not_refusesMedia hcls (by decide) (by decide)⟩

/-- The names of what the sharded planner is called with, if it is called. -/
theorem planBalanced_outcome {plan : ArchivePlan} (hne : orderedTapes text request ≠ [])
    (hpolicy : request.policyType.getD .balanced = .balanced) :
    Outcome (plan.totalBytes.natAbs < floatLimit * restoreThroughputBytesPerSecond.natAbs ∧
        request.singleTapeCapacity.natAbs < floatLimit ∧ ∀ call ∈ shardedCall text request plan, NamesHashed text call.1 call.2)
      (ReadingPlanner.planBalanced text request plan) (planBalanced text request plan) := by
  refine .after (trueDivide_cases _ _) ?_
  unfold planBalanced shardedCall
  rw [hpolicy]
  dsimp only
  by_cases hlarge : plan.totalBytes > text.percentOf 85 request.singleTapeCapacity
  · simp only [if_pos hlarge, Option.mem_def, Option.some.injEq, forall_eq']
    exact .after (toFloat_cases _) (planNoncriticalSharded_outcome hne)
  · simp only [if_neg hlarge, Option.mem_def, reduceCtorEq, false_imp_iff, implies_true, and_true]
    have hplanned := planCriticalSequential_outcome text (request.withPolicy .criticalSequential request.shardStrategy) plan
    exact (hplanned.after (toFloat_cases _)).congr (and_self_iff)

/-- A plan, or a failure that the media are not to blame for. -/
theorem archivePlan_outcome (hmedia : request.checkMedia = .ok ())
    (hsafe : (applyCommonChecks request (draftPlan request)).isSafeToEnqueue = true) :
    Outcome (PlansCleanly text request (applyCommonChecks request (draftPlan request))) (ReadingPlanner.archivePlan text request)
      (archivePlan text request) := by
  have hne : orderedTapes text request ≠ [] := orderedTapes_ne_nil hsafe
  unfold ReadingPlanner.archivePlan archivePlan
  simp only [hmedia, ok_bind, hsafe, Bool.not_true, Bool.false_eq_true, if_false]
  generalize applyCommonChecks request (draftPlan request) = plan
  cases hpolicy : request.policyType.getD .balanced with
  | criticalSequential =>
    have hcall : shardedCall text request plan = none := by
      unfold shardedCall
      rw [hpolicy]
    refine (planCriticalSequential_outcome text request plan).congr ⟨fun h => ⟨fun _ => h, fun hbal => ?_, ?_⟩, fun h => ?_⟩
    · rw [hpolicy] at hbal
      cases hbal
    · rw [hcall]
      intro _ h
      cases h
    · exact h.capacity (by rw [hpolicy]; intro h; cases h)
  | noncriticalSharded =>
    have hcall : shardedCall text request plan = some (request, plan) := by
      unfold shardedCall
      rw [hpolicy]
    refine (planNoncriticalSharded_outcome hne).congr ⟨fun h => ⟨fun hother => absurd hpolicy hother, fun hbal => ?_, ?_⟩, fun h => ?_⟩
    · rw [hpolicy] at hbal
      cases hbal
    · rw [hcall]
      rintro call ⟨⟩
      exact h
    · exact h.names (request, plan) (by rw [hcall]; rfl)
  | balanced =>
    refine (planBalanced_outcome hne hpolicy).congr ⟨fun h => ⟨fun _ => h.2.1, fun _ => h.1, h.2.2⟩, fun h => ?_⟩
    exact ⟨h.bytes hpolicy, h.capacity (by rw [hpolicy]; intro h; cases h), h.names⟩

theorem exists_of_forM_error {α : Type} {f : α → Except Exn Unit} {xs : List α} {exc : Exn} (h : xs.forM f = .error exc) :
    ∃ x ∈ xs, f x = .error exc := by
  induction xs with
  | nil => cases h
  | cons x xs ih =>
    change (f x >>= fun _ => xs.forM f) = .error exc at h
    cases hx : f x with
    | error exc' =>
      rw [hx, error_bind] at h
      exact ⟨x, List.mem_cons_self, by rw [hx, h]⟩
    | ok u =>
      rw [hx, ok_bind] at h
      obtain ⟨y, hy, hexc⟩ := ih h
      exact ⟨y, List.mem_cons_of_mem _ hy, hexc⟩

theorem refusesMedia_of_checkMedia {exc : Exn} (h : request.checkMedia = .error exc) : RefusesMedia exc := by
  obtain ⟨barcode, -, hbarcode⟩ := exists_of_forM_error h
  split at hbarcode
  · cases hbarcode
  rename_i cartridge _
  split at hbarcode
  · rw [← Except.error.inj hbarcode]
    exact .inl rfl
  split at hbarcode
  · cases hbarcode
  unfold requireWritable at hbarcode
  split at hbarcode
  · rw [← Except.error.inj hbarcode]
    exact .inl rfl
  split at hbarcode
  · rw [← Except.error.inj hbarcode]
    exact .inr rfl
  · cases hbarcode

end PlannerErrorsAux

/-- The text functions where a capital I with a dot has an i and a dot of its own in lower case. -/
def PlannerText.dotted : PlannerText :=
  { PlannerText.ascii with lower := fun s => if s = "\u0130" then "i\u0307" else PlannerText.ascii.lower s }

/-- One file whose name begins with such an I. -/
def dottedRequest : ArchivePlanRequest where
  policyType := some .noncriticalSharded
  shardStrategy := some .hashPrefix
  files := ["/data/\u0130zmir.csv"]
  fileSizes := [("/data/\u0130zmir.csv", 10)]
  availableTapes := ["TAPE01"]

end OpenBlade
