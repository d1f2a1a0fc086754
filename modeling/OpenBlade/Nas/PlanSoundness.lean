import OpenBlade.Nas.Planner
import OpenBlade.Storage.Packing

/-!
# Archive plans are sound

Both planners keep a packing: which of the files a tape is to hold, by tape. What an assignment says of its tape, it says of the
tape's share, and no share outgrows what the tape has left.
-/

namespace OpenBlade

open Effects Storage

variable {text : PlannerText} {request : ArchivePlanRequest} {tapes : List Barcode} {placed : List String}
  {share : Barcode → List String}

/-! ### Reading a request -/

theorem totalSize_append (files more : List String) :
    request.totalSize (files ++ more) = request.totalSize files + request.totalSize more := by
  unfold ArchivePlanRequest.totalSize
  rw [List.map_append, List.sum_append]

theorem relativeFiles_append (files more : List String) (source : Option String) :
    relativeFiles (files ++ more) source = relativeFiles files source ++ relativeFiles more source :=
  List.map_append

theorem totalSize_perm {files files' : List String} (h : files.Perm files') : request.totalSize files = request.totalSize files' :=
  (h.map request.fileSize).sum_eq

theorem tapeCapacity_nonneg (barcode : Barcode) : 0 ≤ request.tapeCapacity barcode := le_max_left _ _

theorem mem_orderedTapes {barcode : Barcode} : barcode ∈ orderedTapes text request ↔ barcode ∈ request.availableTapes := by
  unfold orderedTapes
  rw [List.mem_append, List.mem_filter, List.mem_filter]
  cases isScratchTape text barcode <;> simp

theorem nodup_orderedTapes (text : PlannerText) (h : request.availableTapes.Nodup) : (orderedTapes text request).Nodup := by
  refine List.Nodup.append (h.filter _) (h.filter _) fun barcode hpreferred hscratch => ?_
  have hnot := (List.mem_filter.1 hpreferred).2
  have his := (List.mem_filter.1 hscratch).2
  simp [his] at hnot

/-- A step of the grouping adds its file at the end. -/
theorem flatten_directoryStep (acc : List (List String) × Option String × List String) (file : String) :
    (directoryStep acc file).1.flatten ++ (directoryStep acc file).2.2 = acc.1.flatten ++ acc.2.2 ++ [file] := by
  obtain ⟨groups, directory, group⟩ := acc
  simp only [directoryStep]
  split <;> simp

theorem flatten_foldl_directoryStep (files : List String) (acc : List (List String) × Option String × List String) :
    (files.foldl directoryStep acc).1.flatten ++ (files.foldl directoryStep acc).2.2 = acc.1.flatten ++ acc.2.2 ++ files := by
  induction files generalizing acc with
  | nil => exact (List.append_nil _).symm
  | cons file files ih =>
    rw [List.foldl_cons, ih, flatten_directoryStep, List.append_assoc, List.singleton_append]

/-- The groups are the files, in their order. -/
theorem flatten_directoryGroups (files : List String) : (directoryGroups files).flatten = files := by
  have hall := flatten_foldl_directoryStep files ([], none, [])
  unfold directoryGroups
  dsimp only at hall ⊢
  rw [List.flatten_nil, List.nil_append, List.nil_append] at hall
  split
  · rw [List.flatten_append, List.flatten_singleton]
    exact hall
  · rename_i hgroup
    rw [not_not.1 hgroup, List.append_nil] at hall
    exact hall

/-- What comes before the split fits. -/
theorem totalSize_take_firstSplitIndex (request : ArchivePlanRequest) (capacity : Int) (files : List String) (consumed : Int) (h : consumed ≤ capacity) :
    consumed + request.totalSize (files.take (request.firstSplitIndex capacity consumed files)) ≤ capacity := by
  induction files generalizing consumed with
  | nil => simpa [ArchivePlanRequest.totalSize, ArchivePlanRequest.firstSplitIndex] using h
  | cons file files ih =>
    unfold ArchivePlanRequest.firstSplitIndex
    split
    · simpa [ArchivePlanRequest.totalSize] using h
    · rename_i hfits
      have hrest := ih (consumed + request.fileSize file) (by omega)
      simp only [List.take_succ_cons, ArchivePlanRequest.totalSize, List.map_cons, List.sum_cons] at hrest ⊢
      omega

/-! ### What an assignment says -/

/-- An assignment says what its tape is to hold. -/
structure Records (request : ArchivePlanRequest) (share : Barcode → List String) (assignment : TapeAssignment) : Prop where
  files : assignment.files = relativeFiles (share assignment.barcode) request.sourcePath
  bytes : assignment.estimatedBytes = request.totalSize (share assignment.barcode)

/-- An assignment of another tape says what it said. -/
theorem Records.put_other {assignment : TapeAssignment} {barcode : Barcode} {added : List String}
    (h : Records request share assignment) (hne : assignment.barcode ≠ barcode) :
    Records request (Packing.put share barcode added) assignment where
  files := by
    rw [Packing.put_other hne]
    exact h.files
  bytes := by
    rw [Packing.put_other hne]
    exact h.bytes

/-- The assignments of a plan place the files: each on one tape, none on a tape without room for it. -/
structure Places (request : ArchivePlanRequest) (files : List String) (share : Barcode → List String)
    (assignments : List TapeAssignment) : Prop where
  holds : (assignments.flatMap fun assignment => share assignment.barcode).Perm files
  records : ∀ assignment ∈ assignments, Records request share assignment
  fits : ∀ assignment ∈ assignments, assignment.estimatedBytes ≤ request.tapeCapacity assignment.barcode
  nodup : (assignments.map TapeAssignment.barcode).Nodup
  available : ∀ assignment ∈ assignments, assignment.barcode ∈ request.availableTapes

/-- A packing and assignments that say what it puts on their tapes, when no other tape holds anything. -/
theorem Places.of_packing {assignments : List TapeAssignment} {used : List Barcode}
    (hpacking : Packing request.fileSize request.tapeCapacity tapes placed share)
    (hnamed : assignments.map TapeAssignment.barcode = used) (hused : used.Sublist tapes) (hnodup : tapes.Nodup)
    (hunused : used.flatMap share = tapes.flatMap share) (havailable : ∀ barcode ∈ tapes, barcode ∈ request.availableTapes)
    (hrecords : ∀ assignment ∈ assignments, Records request share assignment) :
    Places request placed share assignments where
  holds := by
    have hflat : (assignments.flatMap fun assignment => share assignment.barcode) = tapes.flatMap share := by
      rw [← hunused, ← hnamed, List.flatMap_map]
    rw [hflat]
    exact hpacking.holds
  records := hrecords
  fits assignment hm := by
    rw [(hrecords assignment hm).bytes]
    exact hpacking.fits _ (hused.subset (hnamed ▸ List.mem_map_of_mem hm))
  nodup := hnamed ▸ hused.nodup hnodup
  available assignment hm := havailable _ (hused.subset (hnamed ▸ List.mem_map_of_mem hm))

/-! ### Tape after tape -/

/-- The loop has placed these files, on the tapes up to the one at hand. -/
structure Sequential.Filled (request : ArchivePlanRequest) (tapes : List Barcode) (st : Sequential) (placed : List String)
    (share : Barcode → List String) : Prop where
  packing : Packing request.fileSize request.tapeCapacity tapes placed share
  named : st.assignments.map TapeAssignment.barcode = tapes.take st.assignments.length
  records : ∀ assignment ∈ st.assignments, Records request share assignment
  unopened : ∀ barcode ∈ tapes.drop st.assignments.length, share barcode = []
  atHand : st.assignments.length = st.tapeIndex ∨ st.assignments.length = st.tapeIndex + 1

namespace Sequential.Filled

variable {st : Sequential} {barcode : Barcode} {rest : List Barcode}

/-- The assignment at hand is of the tape at hand, and says what it holds. -/
theorem found (h : st.Filled request tapes placed share) (htape : tapes.drop st.tapeIndex = barcode :: rest)
    {assignment : TapeAssignment} (hfound : st.assignments[st.tapeIndex]? = some assignment) :
    assignment.barcode = barcode ∧ Records request share assignment := by
  refine ⟨?_, h.records _ (List.mem_of_getElem? hfound)⟩
  have hlt := (List.getElem?_eq_some_iff.1 hfound).1
  have hname : (st.assignments.map TapeAssignment.barcode)[st.tapeIndex]? = some assignment.barcode := by
    rw [List.getElem?_map, hfound, Option.map_some]
  have htape' : tapes[st.tapeIndex]? = some barcode := by
    rw [← Nat.add_zero st.tapeIndex, ← List.getElem?_drop, htape, List.getElem?_cons_zero]
  rw [h.named, List.getElem?_take_of_lt hlt, htape'] at hname
  exact (Option.some.inj hname).symm

/-- Without an assignment at hand, the tape at hand is the first that holds nothing. -/
theorem openTape (h : st.Filled request tapes placed share) (htape : tapes.drop st.tapeIndex = barcode :: rest)
    (hfound : st.assignments[st.tapeIndex]? = none) : (st.openTape text barcode).Filled request tapes placed share := by
  have hlength : st.assignments.length = st.tapeIndex := by
    have hle := List.getElem?_eq_none_iff.1 hfound
    have := h.atHand
    omega
  have hempty : share barcode = [] := h.unopened barcode (by rw [hlength, htape]; exact List.mem_cons_self)
  have hlt : st.tapeIndex < tapes.length := by
    by_contra hge
    rw [List.drop_eq_nil_of_le (Nat.not_lt.1 hge)] at htape
    cases htape
  have hget : tapes[st.tapeIndex] = barcode := by
    rw [List.drop_eq_getElem_cons hlt] at htape
    exact (List.cons.inj htape).1
  refine ⟨h.packing, ?_, ?_, ?_, ?_⟩
  · simp only [Sequential.openTape, List.map_append, List.map_cons, List.map_nil, List.length_append, List.length_singleton]
    rw [h.named, hlength, List.take_succ_eq_append_getElem hlt, hget]
  · intro assignment hm
    rcases List.mem_append.1 hm with hm | hm
    · exact h.records assignment hm
    · rw [List.mem_singleton.1 hm]
      exact ⟨by rw [hempty]; rfl, by rw [hempty]; rfl⟩
  · intro c hc
    refine h.unopened c (List.mem_of_mem_drop (i := 1) ?_)
    rw [List.drop_drop]
    simpa [Sequential.openTape, Nat.add_comm] using hc
  · exact .inr (by simp [Sequential.openTape, hlength])

/-- Files that fit on the tape at hand. -/
theorem extend (h : st.Filled request tapes placed share) (hnodup : tapes.Nodup)
    (htape : tapes.drop st.tapeIndex = barcode :: rest) (hopen : st.assignments.length = st.tapeIndex + 1) {files : List String}
    (hfits : request.totalSize (share barcode) + request.totalSize files ≤ request.tapeCapacity barcode) :
    (st.extend request files).Filled request tapes (placed ++ files) (Packing.put share barcode files) := by
  have hmem : barcode ∈ tapes := List.mem_of_mem_drop (htape ▸ List.mem_cons_self)
  have hrest : tapes.drop (st.tapeIndex + 1) = rest := by
    rw [← List.drop_drop, htape, List.drop_one, List.tail_cons]
  have hfresh : barcode ∉ rest := by
    have hdrop := hnodup.sublist (List.drop_sublist st.tapeIndex tapes)
    rw [htape] at hdrop
    exact (List.nodup_cons.1 hdrop).1
  have hlength : (st.extend request files).assignments.length = st.assignments.length := List.length_modify ..
  refine ⟨h.packing.grow hnodup hmem hfits, ?_, ?_, ?_, .inr (hlength.trans hopen)⟩
  · rw [hlength, ← h.named]
    refine List.ext_getElem? fun i => ?_
    simp only [Sequential.extend, List.getElem?_map, List.getElem?_modify]
    split <;> cases st.assignments[i]? <;> rfl
  · intro assignment hm
    obtain ⟨i, hi⟩ := List.mem_iff_getElem?.1 hm
    simp only [Sequential.extend, List.getElem?_modify] at hi
    obtain ⟨old, hold, hi⟩ := Option.map_eq_some_iff.1 hi
    by_cases hat : st.tapeIndex = i
    · subst hat
      obtain ⟨rfl, hrecords⟩ := h.found htape hold
      rw [if_pos rfl] at hi
      subst hi
      refine ⟨?_, ?_⟩
      · rw [Packing.put_same, relativeFiles_append, ← hrecords.files]
      · rw [Packing.put_same, totalSize_append, ← hrecords.bytes]
    · rw [if_neg hat] at hi
      subst hi
      refine (h.records _ (List.mem_of_getElem? hold)).put_other fun hsame => hat ?_
      have hname : (st.assignments.map TapeAssignment.barcode)[i]? = some barcode := by
        rw [List.getElem?_map, hold, Option.map_some, hsame]
      rw [h.named, List.getElem?_take_of_lt (List.getElem?_eq_some_iff.1 hold).1] at hname
      have htape' : tapes[st.tapeIndex]? = some barcode := by
        rw [← Nat.add_zero st.tapeIndex, ← List.getElem?_drop, htape, List.getElem?_cons_zero]
      exact (List.getElem?_inj (List.getElem?_eq_some_iff.1 htape').1 hnodup).1 (htape'.trans hname.symm)
  · intro c hc
    rw [hlength, hopen, hrest] at hc
    have hother : c ≠ barcode := fun hsame => hfresh (hsame ▸ hc)
    rw [Packing.put_other hother]
    exact h.unopened c (by rw [hopen, hrest]; exact hc)

theorem nextTape (h : st.Filled request tapes placed share) (hopen : st.assignments.length = st.tapeIndex + 1) :
    st.nextTape.Filled request tapes placed share :=
  ⟨h.packing, h.named, h.records, h.unopened, .inl hopen⟩

end Sequential.Filled

/-- What a plan is to place, and how often. -/
def ArchivePlan.terms (plan : ArchivePlan) : List String × Int × Int := (plan.files, plan.totalBytes, plan.copiesRequired)

/-- The terms of the plan in a loop, and whether it is blocked. -/
theorem terms_openTape (st : Sequential) (barcode : Barcode) : (st.openTape text barcode).plan.terms = st.plan.terms := by
  unfold Sequential.openTape
  split <;> rfl

/-- The assignment at hand, a new one if there is none, is that of the tape at hand. -/
theorem Sequential.Filled.current {st : Sequential} {barcode : Barcode} {rest : List Barcode}
    (h : st.Filled request tapes placed share) (htape : tapes.drop st.tapeIndex = barcode :: rest) {current : Sequential}
    (hcurrent : (if st.assignments[st.tapeIndex]? = none then st.openTape text barcode else st) = current) :
    current.Filled request tapes placed share ∧ current.assignments.length = current.tapeIndex + 1 ∧
      current.tapeIndex = st.tapeIndex ∧ current.plan.terms = st.plan.terms ∧
      ((st.assignments[st.tapeIndex]?).map TapeAssignment.estimatedBytes).getD 0 = request.totalSize (share barcode) := by
  subst hcurrent
  cases hfound : st.assignments[st.tapeIndex]? with
  | none =>
    rw [if_pos rfl]
    have hlength : st.assignments.length = st.tapeIndex := by
      have hle := List.getElem?_eq_none_iff.1 hfound
      have := h.atHand
      omega
    have hempty : share barcode = [] := h.unopened barcode (by rw [hlength, htape]; exact List.mem_cons_self)
    exact ⟨h.openTape htape hfound, by simp [Sequential.openTape, hlength], rfl, terms_openTape st barcode, by rw [hempty]; rfl⟩
  | some assignment =>
    rw [if_neg (fun h => nomatch h)]
    obtain ⟨rfl, hrecords⟩ := h.found htape hfound
    have hlt := (List.getElem?_eq_some_iff.1 hfound).1
    refine ⟨h, ?_, rfl, rfl, hrecords.bytes⟩
    have := h.atHand
    omega

/-- A group goes on the tapes from the one at hand on. -/
theorem placeGroup_ok {rest : List Barcode} {st : Sequential} {group : List String} (hnodup : tapes.Nodup)
    (h : st.Filled request tapes placed share) (htape : tapes.drop st.tapeIndex = rest) {st' : Sequential}
    (hrun : placeGroup text request rest st group = .ok st') :
    st'.plan.terms = st.plan.terms ∧ ∃ share', st'.Filled request tapes (placed ++ group) share' := by
  induction rest generalizing st group placed share with
  | nil => cases hrun
  | cons barcode rest ih =>
    have hnext : tapes.drop (st.tapeIndex + 1) = rest := by
      rw [← List.drop_drop, htape, List.drop_one, List.tail_cons]
    rw [placeGroup] at hrun
    dsimp only at hrun
    generalize hcurrent : (if st.assignments[st.tapeIndex]? = none then st.openTape text barcode else st) = current at hrun
    obtain ⟨hfilled, hopen, hindex, hterms, hused⟩ := h.current htape hcurrent
    rw [hused] at hrun
    have hcurrentTape : tapes.drop current.tapeIndex = barcode :: rest := hindex ▸ htape
    have hcurrentNext : tapes.drop (current.tapeIndex + 1) = rest := by
      rw [hindex]
      exact hnext
    split at hrun
    · rename_i hskip
      rw [if_neg hskip.1] at hcurrent
      subst hcurrent
      have hrest := ih (h.nextTape hopen) hnext hrun
      exact hrest
    · split at hrun
      · rename_i hfits
        obtain rfl := Except.ok.inj hrun
        exact ⟨hterms, _, hfilled.extend hnodup hcurrentTape hopen (by omega)⟩
      · split at hrun
        · split at hrun
          · have hrest := ih (hfilled.nextTape hopen) hcurrentNext hrun
            exact ⟨hrest.1.trans hterms, hrest.2⟩
          · cases hrun
        · have hhead : request.totalSize (share barcode) + request.totalSize
              (group.take (request.firstSplitIndex (request.tapeCapacity barcode - request.totalSize (share barcode)) 0 group)) ≤
              request.tapeCapacity barcode := by
            have hroom := hfilled.packing.fits barcode (List.mem_of_mem_drop (hcurrentTape ▸ List.mem_cons_self))
            have htake := totalSize_take_firstSplitIndex request
              (request.tapeCapacity barcode - request.totalSize (share barcode)) group 0 (by
                unfold ArchivePlanRequest.totalSize
                omega)
            omega
          have hsplit := hfilled.extend hnodup hcurrentTape hopen hhead
          have hlength : (current.extend request (group.take (request.firstSplitIndex
              (request.tapeCapacity barcode - request.totalSize (share barcode)) 0 group))).assignments.length =
              current.tapeIndex + 1 := (List.length_modify ..).trans hopen
          have hrest := ih (hsplit.nextTape hlength) hcurrentNext hrun
          rw [List.append_assoc, List.take_append_drop] at hrest
          exact ⟨hrest.1.trans hterms, hrest.2⟩

/-- A plan handed back early is not safe to enqueue. -/
theorem placeGroup_error {rest : List Barcode} {st : Sequential} {group : List String} {plan : ArchivePlan}
    (hrun : placeGroup text request rest st group = .error plan) : plan.isSafeToEnqueue = false := by
  induction rest generalizing st group with
  | nil =>
    obtain rfl := Except.error.inj hrun
    rfl
  | cons barcode rest ih =>
    rw [placeGroup] at hrun
    dsimp only at hrun
    split at hrun
    · exact ih hrun
    · split at hrun
      · cases hrun
      · split at hrun
        · split at hrun
          · exact ih hrun
          · obtain rfl := Except.error.inj hrun
            rfl
        · exact ih hrun

theorem placeGroups_ok {groups : List (List String)} {st : Sequential} (hnodup : tapes.Nodup)
    (h : st.Filled request tapes placed share) {st' : Sequential} (hrun : placeGroups text request tapes st groups = .ok st') :
    st'.plan.terms = st.plan.terms ∧ ∃ share', st'.Filled request tapes (placed ++ groups.flatten) share' := by
  induction groups generalizing st placed share with
  | nil =>
    obtain rfl := Except.ok.inj hrun
    exact ⟨rfl, share, by rwa [List.flatten_nil, List.append_nil]⟩
  | cons group groups ih =>
    rw [placeGroups] at hrun
    cases hgroup : placeGroup text request (tapes.drop st.tapeIndex) st group with
    | error plan =>
      rw [hgroup] at hrun
      cases hrun
    | ok st₁ =>
      rw [hgroup] at hrun
      obtain ⟨hterms, share₁, hfilled⟩ := placeGroup_ok hnodup h rfl hgroup
      obtain ⟨hterms', hrest⟩ := ih hfilled hrun
      rw [List.append_assoc] at hrest
      exact ⟨hterms'.trans hterms, hrest⟩

theorem placeGroups_error {groups : List (List String)} {st : Sequential} {plan : ArchivePlan}
    (hrun : placeGroups text request tapes st groups = .error plan) : plan.isSafeToEnqueue = false := by
  induction groups generalizing st with
  | nil => cases hrun
  | cons group groups ih =>
    rw [placeGroups] at hrun
    cases hgroup : placeGroup text request (tapes.drop st.tapeIndex) st group with
    | error blocked =>
      rw [hgroup] at hrun
      obtain rfl := Except.error.inj hrun
      exact placeGroup_error hgroup
    | ok st₁ =>
      rw [hgroup] at hrun
      exact ih hrun

/-- Marking the spillovers changes nothing else. -/
theorem markSpillovers_places {files : List String} {assignments : List TapeAssignment}
    (h : Places request files share assignments) : Places request files share (markSpillovers assignments) := by
  have hbarcodes : (markSpillovers assignments).map TapeAssignment.barcode = assignments.map TapeAssignment.barcode := by
    refine List.ext_getElem? fun i => ?_
    rw [markSpillovers, List.getElem?_map, List.getElem?_map, List.getElem?_mapIdx]
    cases assignments[i]? <;> rfl
  have hmem : ∀ assignment ∈ markSpillovers assignments, ∃ old ∈ assignments, assignment = { old with isSpillover := assignment.isSpillover } := by
    intro assignment hm
    obtain ⟨i, hi, rfl⟩ := List.mem_mapIdx.1 hm
    exact ⟨_, List.getElem_mem hi, rfl⟩
  refine ⟨?_, ?_, ?_, hbarcodes ▸ h.nodup, ?_⟩
  · have hflat : ∀ l : List TapeAssignment, (l.flatMap fun assignment => share assignment.barcode) =
        (l.map TapeAssignment.barcode).flatMap share := fun l => (List.flatMap_map ..).symm
    rw [hflat, hbarcodes, ← hflat]
    exact h.holds
  · intro assignment hm
    obtain ⟨old, hold, heq⟩ := hmem assignment hm
    rw [heq]
    exact ⟨(h.records old hold).files, (h.records old hold).bytes⟩
  · intro assignment hm
    obtain ⟨old, hold, heq⟩ := hmem assignment hm
    rw [heq]
    exact h.fits old hold
  · intro assignment hm
    obtain ⟨old, hold, heq⟩ := hmem assignment hm
    rw [heq]
    exact h.available old hold

theorem placeOnOneTape_places (text : PlannerText) {plan : ArchivePlan} {tape : Barcode} (htape : tape ∈ request.availableTapes)
    (htotal : plan.totalBytes = request.totalSize plan.files) (hfits : plan.totalBytes ≤ request.tapeCapacity tape) :
    (placeOnOneTape text request plan tape).terms = plan.terms ∧
      Places request plan.files (fun _ => plan.files) (placeOnOneTape text request plan tape).tapeAssignments := by
  have hassignments : (placeOnOneTape text request plan tape).tapeAssignments =
      [{ barcode := tape, files := relativeFiles plan.files request.sourcePath, estimatedBytes := plan.totalBytes }] := by
    unfold placeOnOneTape
    dsimp only [ArchivePlan.settle]
    split <;> rfl
  refine ⟨?_, ?_⟩
  · unfold placeOnOneTape
    dsimp only
    split <;> rfl
  · rw [hassignments]
    refine ⟨by simp, ?_, ?_, by simp, ?_⟩
    all_goals
      intro assignment hm
      rw [List.mem_singleton.1 hm]
    · exact ⟨rfl, htotal⟩
    · exact hfits
    · exact htape

theorem placeSequentially_places {plan : ArchivePlan} (hnodup : request.availableTapes.Nodup)
    (htotal : plan.totalBytes = request.totalSize plan.files)
    (hsafe : (placeSequentially text request plan).isSafeToEnqueue = true) :
    (placeSequentially text request plan).terms = plan.terms ∧
      ∃ share, Places request plan.files share (placeSequentially text request plan).tapeAssignments := by
  unfold placeSequentially at hsafe ⊢
  dsimp only at hsafe ⊢
  cases hfound : (orderedTapes text request).find? fun barcode => decide (request.tapeCapacity barcode ≥ plan.totalBytes) with
  | some tape =>
    have hfits : plan.totalBytes ≤ request.tapeCapacity tape := by simpa using List.find?_some hfound
    obtain ⟨hterms, hplaces⟩ :=
      placeOnOneTape_places text (mem_orderedTapes.1 (List.mem_of_find?_eq_some hfound)) htotal hfits
    exact ⟨hterms, _, hplaces⟩
  | none =>
    rw [hfound] at hsafe
    dsimp only at hsafe ⊢
    cases hrun : placeGroups text request (orderedTapes text request) { plan := plan } (directoryGroups plan.files) with
    | error blocked =>
      rw [hrun] at hsafe
      rw [placeGroups_error hrun] at hsafe
      cases hsafe
    | ok st =>
      have htapes := nodup_orderedTapes text hnodup
      have hstart : Sequential.Filled request (orderedTapes text request) { plan := plan } [] fun _ => [] :=
        { packing := .empty fun barcode _ => tapeCapacity_nonneg barcode
          named := by simp
          records := fun assignment hm => absurd hm List.not_mem_nil
          unopened := fun _ _ => rfl
          atHand := .inl rfl }
      obtain ⟨hterms, share, hfilled⟩ := placeGroups_ok htapes hstart hrun
      rw [List.nil_append, flatten_directoryGroups] at hfilled
      refine ⟨hterms, share, markSpillovers_places ?_⟩
      refine .of_packing hfilled.packing hfilled.named (List.take_sublist ..) htapes ?_ (fun barcode => mem_orderedTapes.1)
        hfilled.records
      nth_rewrite 2 [← List.take_append_drop st.assignments.length (orderedTapes text request)]
      rw [List.flatMap_append, List.flatMap_eq_nil_iff.2 hfilled.unopened, List.append_nil]

theorem terms_warnSequential (text : PlannerText) (request : ArchivePlanRequest) (plan : ArchivePlan) : (warnSequential text request plan).terms = plan.terms := by
  unfold warnSequential
  dsimp only
  split <;> split <;> rfl

/-- A safe sequential plan places its files. -/
theorem planCriticalSequential_places {plan : ArchivePlan} (hnodup : request.availableTapes.Nodup)
    (htotal : plan.totalBytes = request.totalSize plan.files)
    (hsafe : (planCriticalSequential text request plan).isSafeToEnqueue = true) :
    (planCriticalSequential text request plan).terms = plan.terms ∧
      ∃ share, Places request plan.files share (planCriticalSequential text request plan).tapeAssignments := by
  have hterms := terms_warnSequential text request plan
  have hfiles : (warnSequential text request plan).files = plan.files := congrArg Prod.fst hterms
  have hbytes : (warnSequential text request plan).totalBytes = plan.totalBytes := congrArg (fun t => t.2.1) hterms
  obtain ⟨hsame, hplaces⟩ := placeSequentially_places hnodup (by rw [hbytes, hfiles]; exact htotal) hsafe
  exact ⟨hsame.trans hterms, hfiles ▸ hplaces⟩

/-! ### Spread over the tapes -/

/-- The sharded planner has placed these files. -/
structure Sharding.Filled (request : ArchivePlanRequest) (tapes : List Barcode) (st : Sharding) (placed : List String)
    (share : Barcode → List String) : Prop where
  packing : Packing request.fileSize request.tapeCapacity tapes placed share
  remaining : ∀ barcode ∈ tapes, st.remainingOf barcode = request.tapeCapacity barcode - request.totalSize (share barcode)
  records : ∀ barcode assignment, Dict.get? st.assignments barcode = some assignment →
    assignment.barcode = barcode ∧ Records request share assignment
  unopened : ∀ barcode, Dict.get? st.assignments barcode = none → share barcode = []

/-- The sharded planner has placed these files, unless it has blocked the plan. -/
def Sharding.Good (request : ArchivePlanRequest) (tapes : List Barcode) (st : Sharding) (placed : List String) : Prop :=
  st.plan.enqueueBlockers ≠ [] ∨ ∃ share, st.Filled request tapes placed share

/-- A blocked plan has a blocker. -/
theorem enqueueBlockers_block (plan : ArchivePlan) (message : String) : (plan.block message).enqueueBlockers ≠ [] := by
  unfold ArchivePlan.block
  dsimp only
  split
  · rename_i hmem
    exact List.ne_nil_of_mem hmem
  · simp

/-- A file goes on a tape with room for it. -/
theorem Sharding.Filled.place {st : Sharding} {barcode : Barcode} {file : String} (h : st.Filled request tapes placed share)
    (hnodup : tapes.Nodup) (hmem : barcode ∈ tapes) (hroom : request.fileSize file ≤ st.remainingOf barcode) :
    (st.place request tapes barcode file).Filled request tapes (placed ++ [file]) (Packing.put share barcode [file]) where
  packing := by
    refine h.packing.grow hnodup hmem ?_
    rw [h.remaining barcode hmem] at hroom
    simp only [ArchivePlanRequest.totalSize, List.map_cons, List.map_nil, List.sum_cons, List.sum_nil] at hroom ⊢
    omega
  remaining c hc := by
    unfold Sharding.remainingOf Sharding.place
    dsimp only
    rw [Dict.get?_set]
    split
    · rename_i hsame
      subst hsame
      rw [Option.getD_some, h.remaining barcode hmem, Packing.put_same, totalSize_append]
      simp only [ArchivePlanRequest.totalSize, List.map_cons, List.map_nil, List.sum_cons, List.sum_nil]
      omega
    · rename_i hother
      rw [Packing.put_other (Ne.symm hother)]
      exact h.remaining c hc
  records c assignment hget := by
    unfold Sharding.place at hget
    dsimp only at hget
    rw [Dict.get?_set] at hget
    split at hget
    · rename_i hsame
      subst hsame
      obtain rfl := Option.some.inj hget
      cases hold : Dict.get? st.assignments barcode with
      | none =>
        refine ⟨rfl, ?_, ?_⟩
        · rw [Option.getD_none, Packing.put_same, h.unopened barcode hold]
          rfl
        · rw [Option.getD_none, Packing.put_same, h.unopened barcode hold]
          simp [ArchivePlanRequest.totalSize]
      | some old =>
        obtain ⟨rfl, hrecords⟩ := h.records barcode old hold
        refine ⟨rfl, ?_, ?_⟩
        · rw [Option.getD_some, Packing.put_same, relativeFiles_append, ← hrecords.files]
          rfl
        · rw [Option.getD_some, Packing.put_same, totalSize_append, ← hrecords.bytes]
          simp [ArchivePlanRequest.totalSize]
    · rename_i hother
      obtain ⟨rfl, hrecords⟩ := h.records c assignment hget
      exact ⟨rfl, hrecords.put_other (Ne.symm hother)⟩
  unopened c hget := by
    unfold Sharding.place at hget
    dsimp only at hget
    rw [Dict.get?_set] at hget
    split at hget
    · cases hget
    · rename_i hother
      rw [Packing.put_other (Ne.symm hother)]
      exact h.unopened c hget

/-- A tape that accepts a file has room for it. -/
theorem room_of_accepts {st : Sharding} {size : Int} {barcode : Barcode} (h : st.accepts request size barcode = true) :
    size ≤ st.remainingOf barcode := by
  unfold Sharding.accepts at h
  rw [Bool.and_eq_true] at h
  simpa using h.1

/-- What the shards count makes no difference to what is placed. -/
theorem Sharding.Filled.resetShards {st : Sharding} (h : st.Filled request tapes placed share) :
    st.resetShards.Filled request tapes placed share :=
  ⟨h.packing, h.remaining, h.records, h.unopened⟩

/-- A note of a large file makes no difference to what is placed. -/
theorem good_noteOversized {st : Sharding} (file : String) (h : st.Good request tapes placed) :
    (st.noteOversized request file).plan = st.plan ∧ (st.noteOversized request file).Good request tapes placed := by
  unfold Sharding.noteOversized
  split
  · exact ⟨rfl, h⟩
  · split
    · exact ⟨rfl, h.imp_right fun ⟨share, hf⟩ => ⟨share, hf.packing, hf.remaining, hf.records, hf.unopened⟩⟩
    · exact ⟨rfl, h⟩

/-- A tape found among the choices is a tape with room. -/
theorem mem_of_found {st : Sharding} {size : Int} {preferredTape barcode : Barcode} (hpreferred : preferredTape ∈ tapes)
    (h : (preferredTape :: tapes.filter (· ≠ preferredTape)).find? (st.accepts request size) = some barcode) :
    barcode ∈ tapes ∧ size ≤ st.remainingOf barcode := by
  refine ⟨?_, room_of_accepts (List.find?_some h)⟩
  rcases List.mem_cons.1 (List.mem_of_find?_eq_some h) with rfl | hm
  · exact hpreferred
  · exact (List.mem_filter.1 hm).1

/-- Assigning a file places it, or blocks the plan; the terms of the plan stay. -/
theorem good_assignFile {st : Sharding} {preferredTape : Barcode} (file : String) (hnodup : tapes.Nodup)
    (hpreferred : preferredTape ∈ tapes) (h : st.Good request tapes placed) :
    (assignFile request tapes preferredTape file st).2.Good request tapes (placed ++ [file]) ∧
      (assignFile request tapes preferredTape file st).2.plan.terms = st.plan.terms ∧
      ((assignFile request tapes preferredTape file st).1 = false →
        (assignFile request tapes preferredTape file st).2.plan.enqueueBlockers ≠ []) := by
  unfold assignFile
  dsimp only
  obtain ⟨hplan, hgood⟩ := good_noteOversized file h
  generalize st.noteOversized request file = noted at hplan hgood ⊢
  -- A tape that takes the file, whichever attempt found it.
  have htaken : ∀ (st' : Sharding) (barcode : Barcode), st'.Good request tapes placed → st'.plan = noted.plan →
      (preferredTape :: tapes.filter (· ≠ preferredTape)).find? (st'.accepts request (request.fileSize file)) = some barcode →
      (st'.place request tapes barcode file).Good request tapes (placed ++ [file]) ∧
        (st'.place request tapes barcode file).plan.terms = st.plan.terms := by
    intro st' barcode hgood' hplan' hfound
    obtain ⟨hmem, hroom⟩ := mem_of_found hpreferred hfound
    refine ⟨?_, by rw [← hplan, ← hplan']; rfl⟩
    exact hgood'.imp id fun ⟨share, hf⟩ => ⟨_, hf.place hnodup hmem hroom⟩
  split
  · rename_i barcode hfound
    obtain ⟨hplaced, hterms⟩ := htaken noted barcode hgood rfl hfound
    exact ⟨hplaced, hterms, fun h => nomatch h⟩
  · generalize hreset : (if request.shardSizeBytes = none then noted else noted.resetShards) = again
    have hplan' : again.plan = noted.plan := by
      rw [← hreset]
      split <;> rfl
    have hgood' : again.Good request tapes placed := by
      rw [← hreset]
      split
      · exact hgood
      · exact hgood.imp id fun ⟨share, hf⟩ => ⟨share, hf.resetShards⟩
    split
    · rename_i barcode hfound
      obtain ⟨hplaced, hterms⟩ := htaken again barcode hgood' hplan' hfound
      exact ⟨hplaced, hterms, fun h => nomatch h⟩
    · exact ⟨.inl (enqueueBlockers_block _ _), by rw [← hplan, ← hplan']; rfl, fun _ => enqueueBlockers_block _ _⟩

/-- A loop over files places them, or blocks the plan. -/
theorem good_assignFiles {prefer : Nat → String → Sharding → Except Exn Barcode} {index : Nat} {files : List String}
    {st st' : Sharding} (hnodup : tapes.Nodup)
    (hprefer : ∀ index file st barcode, prefer index file st = .ok barcode → barcode ∈ tapes)
    (h : st.Good request tapes placed) (hrun : assignFiles request tapes prefer index files st = .ok st') :
    st'.Good request tapes (placed ++ files) ∧ st'.plan.terms = st.plan.terms := by
  induction files generalizing index st placed with
  | nil =>
    obtain rfl := Except.ok.inj hrun
    exact ⟨by rwa [List.append_nil], rfl⟩
  | cons file files ih =>
    rw [assignFiles] at hrun
    cases hchoice : prefer index file st with
    | error exc =>
      rw [hchoice] at hrun
      cases hrun
    | ok preferredTape =>
      rw [hchoice] at hrun
      obtain ⟨hgood, hterms, hblocked⟩ := good_assignFile file hnodup (hprefer _ _ _ _ hchoice) h
      cases hassigned : assignFile request tapes preferredTape file st with
      | mk taken st₁ =>
        rw [hassigned] at hgood hterms hblocked
        cases taken with
        | true =>
          have hrest := ih hgood (by simpa [bind, Except.bind, hassigned] using hrun)
          rw [List.append_assoc] at hrest
          exact ⟨hrest.1, hrest.2.trans hterms⟩
        | false =>
          obtain rfl : st₁ = st' := by simpa [bind, Except.bind, hassigned] using hrun
          exact ⟨.inl (hblocked rfl), hterms⟩

/-! ### The preferred tape is one of the tapes -/

theorem mem_of_tapeAt {index : Nat} {barcode : Barcode} (h : tapeAt tapes index = .ok barcode) : barcode ∈ tapes := by
  unfold tapeAt at h
  split at h
  · cases h
  · rename_i hne
    obtain rfl := Except.ok.inj h
    rw [List.getD_eq_getElem?_getD, List.getElem?_eq_getElem (Nat.mod_lt _ (List.length_pos_iff.2 hne)), Option.getD_some]
    exact List.getElem_mem _

theorem mem_of_roomiestTape {st : Sharding} {barcode : Barcode} (h : roomiestTape tapes st = .ok barcode) : barcode ∈ tapes := by
  unfold roomiestTape at h
  split at h
  · rename_i hmax
    obtain rfl := Except.ok.inj h
    exact List.argmax_mem hmax
  · cases h

theorem mem_of_hashedTape {file : String} {barcode : Barcode} (h : hashedTape text tapes file = .ok barcode) :
    barcode ∈ tapes := by
  unfold hashedTape at h
  dsimp only at h
  split at h
  · exact mem_of_tapeAt h
  · split at h
    · exact mem_of_tapeAt h
    · cases h

/-! ### The strategies -/

theorem good_assignGroups {groups : List (List String)} {st st' : Sharding} (hnodup : tapes.Nodup)
    (h : st.Good request tapes placed) (hrun : assignGroups request tapes groups st = .ok st') :
    st'.Good request tapes (placed ++ groups.flatten) ∧ st'.plan.terms = st.plan.terms := by
  induction groups generalizing st placed with
  | nil =>
    obtain rfl := Except.ok.inj hrun
    exact ⟨by rwa [List.flatten_nil, List.append_nil], rfl⟩
  | cons group groups ih =>
    rw [assignGroups] at hrun
    cases hchoice : roomiestTape tapes st with
    | error exc =>
      rw [hchoice] at hrun
      cases hrun
    | ok preferredTape =>
      rw [hchoice] at hrun
      simp only [bind, Except.bind] at hrun
      split at hrun
      · cases hgroup : assignFiles request tapes (fun _ _ _ => .ok preferredTape) 0 group st with
        | error exc =>
          rw [hgroup] at hrun
          cases hrun
        | ok st₁ =>
          rw [hgroup] at hrun
          obtain ⟨hgood, hterms⟩ := good_assignFiles hnodup
            (fun _ _ _ _ hok => Except.ok.inj hok ▸ mem_of_roomiestTape hchoice) h hgroup
          have hrest := ih hgood hrun
          rw [List.append_assoc] at hrest
          exact ⟨hrest.1, hrest.2.trans hterms⟩
      · cases hgroup : assignFiles request tapes (fun _ _ st => roomiestTape tapes st) 0 group st with
        | error exc =>
          rw [hgroup] at hrun
          cases hrun
        | ok st₁ =>
          rw [hgroup] at hrun
          obtain ⟨hgood, hterms⟩ := good_assignFiles hnodup (fun _ _ _ _ hok => mem_of_roomiestTape hok) h hgroup
          dsimp only at hrun
          split at hrun
          · rename_i hblocked
            obtain rfl := Except.ok.inj hrun
            exact ⟨.inl hblocked, hterms⟩
          · have hrest := ih hgood hrun
            rw [List.append_assoc] at hrest
            exact ⟨hrest.1, hrest.2.trans hterms⟩

theorem good_assignByLoad {files : List String} {tapeLoads : Dict Barcode Int} {st st' : Sharding} (hnodup : tapes.Nodup)
    (h : st.Good request tapes placed) (hrun : assignByLoad request tapes files tapeLoads st = .ok st') :
    st'.Good request tapes (placed ++ files) ∧ st'.plan.terms = st.plan.terms := by
  induction files generalizing tapeLoads st placed with
  | nil =>
    obtain rfl := Except.ok.inj hrun
    exact ⟨by rwa [List.append_nil], rfl⟩
  | cons file files ih =>
    rw [assignByLoad] at hrun
    dsimp only at hrun
    split at hrun
    · cases hrun
    · rename_i preferredTape hmin
      obtain ⟨hgood, hterms, hblocked⟩ := good_assignFile file hnodup (List.argmin_mem hmin) h
      cases hassigned : assignFile request tapes preferredTape file st with
      | mk taken st₁ =>
        rw [hassigned] at hgood hterms hblocked hrun
        cases taken with
        | false =>
          obtain rfl := Except.ok.inj hrun
          exact ⟨.inl (hblocked rfl), hterms⟩
        | true =>
          dsimp only at hrun
          split at hrun
          · cases hrun
          · have hrest := ih hgood hrun
            rw [List.append_assoc] at hrest
            exact ⟨hrest.1, hrest.2.trans hterms⟩

/-- The assignments in the order of the tapes name the tapes that hold something, and what is on the others is nothing. -/
theorem Sharding.Filled.ordered {st : Sharding} (h : st.Filled request tapes placed share) (tapes' : List Barcode) :
    (tapes'.filterMap (Dict.get? st.assignments)).map TapeAssignment.barcode =
        tapes'.filter (fun barcode => (Dict.get? st.assignments barcode).isSome) ∧
      (tapes'.filter fun barcode => (Dict.get? st.assignments barcode).isSome).flatMap share = tapes'.flatMap share := by
  induction tapes' with
  | nil => exact ⟨rfl, rfl⟩
  | cons barcode tapes' ih =>
    cases hget : Dict.get? st.assignments barcode with
    | none => simp [hget, ih, h.unopened barcode hget]
    | some assignment => simp [hget, ih, (h.records barcode assignment hget).1]

/-- Before any file is placed, every tape has all it can take. -/
theorem filled_start (plan : ArchivePlan) (hnodup : tapes.Nodup) :
    (Sharding.start request plan tapes).Filled request tapes [] fun _ => [] where
  packing := .empty fun barcode _ => tapeCapacity_nonneg barcode
  remaining barcode hm := by
    have hkeys : (Dict.keys (tapes.map fun barcode => (barcode, request.tapeCapacity barcode))).Nodup := by
      simpa [Dict.keys, Function.comp_def] using hnodup
    unfold Sharding.remainingOf Sharding.start
    rw [Dict.ofPairs_self hkeys, Dict.get?_of_mem hkeys (List.mem_map_of_mem hm)]
    simp [ArchivePlanRequest.totalSize]
  records barcode assignment hget := nomatch hget
  unopened _ _ := rfl

/-- Every strategy places the files, or blocks the plan. -/
theorem good_runStrategy {files : List String} {st st' : Sharding} (hnodup : tapes.Nodup) (h : st.Good request tapes [])
    (hrun : runStrategy text request tapes files st = .ok st') :
    st'.plan.terms = st.plan.terms ∧ ∃ placed, placed.Perm files ∧ st'.Good request tapes placed := by
  unfold runStrategy at hrun
  split at hrun
  · obtain ⟨hgood, hterms⟩ := good_assignFiles hnodup (fun _ _ _ _ hok => mem_of_tapeAt hok) h hrun
    exact ⟨hterms, files, .refl _, hgood⟩
  · obtain ⟨hgood, hterms⟩ := good_assignFiles hnodup (fun _ _ _ _ hok => mem_of_roomiestTape hok) h hrun
    exact ⟨hterms, files, .refl _, hgood⟩
  · obtain ⟨hgood, hterms⟩ := good_assignGroups hnodup h hrun
    rw [List.nil_append, flatten_directoryGroups] at hgood
    exact ⟨hterms, files, .refl _, hgood⟩
  · obtain ⟨hgood, hterms⟩ := good_assignFiles hnodup (fun _ _ _ _ hok => mem_of_hashedTape hok) h hrun
    exact ⟨hterms, files, .refl _, hgood⟩
  · obtain ⟨hgood, hterms⟩ := good_assignByLoad hnodup h hrun
    exact ⟨hterms, _, List.perm_insertionSort .., hgood⟩

/-- A safe plan at the end of the loop places what the loop has placed. -/
theorem finish_places {st : Sharding} (hnodup : tapes.Nodup) (havailable : ∀ barcode ∈ tapes, barcode ∈ request.availableTapes)
    (h : st.Good request tapes placed) (hsafe : (st.finish request tapes).isSafeToEnqueue = true) :
    ∃ share, Places request placed share (st.finish request tapes).tapeAssignments := by
  have hfields : (st.finish request tapes).tapeAssignments = tapes.filterMap (Dict.get? st.assignments) ∧
      (st.finish request tapes).enqueueBlockers = st.plan.enqueueBlockers ∧
      (st.finish request tapes).isSafeToEnqueue = ((st.finish request tapes).enqueueBlockers.length == 0) := by
    unfold Sharding.finish
    dsimp only
    split
    · split <;> exact ⟨rfl, rfl, rfl⟩
    · exact ⟨rfl, rfl, rfl⟩
  obtain ⟨hassignments, hblockers, hsettled⟩ := hfields
  rw [hsafe, hblockers] at hsettled
  have hunblocked : st.plan.enqueueBlockers = [] := List.length_eq_zero_iff.1 (beq_iff_eq.1 hsettled.symm)
  obtain ⟨share, hfilled⟩ := h.resolve_left (not_not.2 hunblocked)
  obtain ⟨hnamed, hunused⟩ := hfilled.ordered tapes
  refine ⟨share, ?_⟩
  rw [hassignments]
  refine .of_packing hfilled.packing hnamed List.filter_sublist hnodup hunused havailable fun assignment hm => ?_
  obtain ⟨barcode, -, hget⟩ := List.mem_filterMap.1 hm
  exact (hfilled.records barcode assignment hget).2

theorem terms_finish (st : Sharding) : (st.finish request tapes).terms = st.plan.terms := by
  unfold Sharding.finish
  dsimp only
  split
  · split <;> rfl
  · rfl

/-- The files placed in another order are the files placed. -/
theorem Places.perm {files files' : List String} {assignments : List TapeAssignment} (h : Places request files share assignments)
    (hperm : files.Perm files') : Places request files' share assignments :=
  { h with holds := h.holds.trans hperm }

/-- A safe sharded plan places its files. -/
theorem planNoncriticalSharded_places {plan plan' : ArchivePlan} (hnodup : request.availableTapes.Nodup)
    (hrun : planNoncriticalSharded text request plan = .ok plan') (hsafe : plan'.isSafeToEnqueue = true) :
    plan'.terms = plan.terms ∧ ∃ share, Places request plan.files share plan'.tapeAssignments := by
  have htapes := nodup_orderedTapes text hnodup
  unfold planNoncriticalSharded at hrun
  dsimp only at hrun
  cases hloop : runStrategy text request (orderedTapes text request) plan.files
      (Sharding.start request plan (orderedTapes text request)) with
  | error exc =>
    rw [hloop] at hrun
    cases hrun
  | ok st =>
    rw [hloop] at hrun
    obtain rfl := Except.ok.inj hrun
    obtain ⟨hterms, placed, hperm, hgood⟩ := good_runStrategy htapes (.inr ⟨_, filled_start plan htapes⟩) hloop
    obtain ⟨share, hplaces⟩ := finish_places htapes (fun barcode => mem_orderedTapes.1) hgood hsafe
    exact ⟨(terms_finish st).trans hterms, share, hplaces.perm hperm⟩

/-! ### Either of the two -/

/-- What a request says of the policy makes no difference to what it is to place. -/
theorem Places.of_policy {files : List String} {assignments : List TapeAssignment} {policy : PolicyType}
    {strategy : Option ShardStrategy} (h : Places (request.withPolicy policy strategy) files share assignments) :
    Places request files share assignments :=
  ⟨h.holds, fun assignment hm => ⟨(h.records assignment hm).files, (h.records assignment hm).bytes⟩, h.fits, h.nodup,
    h.available⟩

theorem terms_warnSharding (plan : ArchivePlan) (reasons : List String) : (warnSharding plan reasons).terms = plan.terms := by
  induction reasons generalizing plan with
  | nil => rfl
  | cons reason reasons ih => exact ih _

/-- A safe balanced plan places its files. -/
theorem planBalanced_places {plan plan' : ArchivePlan} (hnodup : request.availableTapes.Nodup)
    (htotal : plan.totalBytes = request.totalSize plan.files) (hrun : planBalanced text request plan = .ok plan')
    (hsafe : plan'.isSafeToEnqueue = true) :
    plan'.terms = plan.terms ∧ ∃ share, Places request plan.files share plan'.tapeAssignments := by
  have hnodup' : ∀ policy strategy, (request.withPolicy policy strategy).availableTapes.Nodup := fun _ _ => hnodup
  unfold planBalanced at hrun
  split at hrun
  · obtain ⟨hterms, share, hplaces⟩ := planNoncriticalSharded_places (hnodup' _ _) hrun hsafe
    have hwarned := terms_warnSharding plan (shardingReasons request plan)
    have hfiles : (warnSharding plan (shardingReasons request plan)).files = plan.files := congrArg Prod.fst hwarned
    rw [hfiles] at hplaces
    exact ⟨hterms.trans hwarned, share, hplaces.of_policy⟩
  · obtain rfl := Except.ok.inj hrun
    obtain ⟨hterms, share, hplaces⟩ := planCriticalSequential_places (hnodup' _ _) htotal hsafe
    exact ⟨hterms, share, hplaces.of_policy⟩

/-! ### The plan -/

/-- A plan that the pool budget leaves safe keeps within it. -/
theorem checkPoolBudget_safe {plan : ArchivePlan} (hsafe : (checkPoolBudget request plan).isSafeToEnqueue = true)
    (hpool : request.pool ≠ none) :
    plan.totalBytes * plan.copiesRequired ≤ request.poolCapacityBytes - request.poolReservedBytes := by
  unfold checkPoolBudget at hsafe
  rw [if_neg hpool] at hsafe
  split at hsafe
  · cases hsafe
  · omega

theorem terms_checkPoolBudget (plan : ArchivePlan) : (checkPoolBudget request plan).terms = plan.terms := by
  unfold checkPoolBudget
  split
  · rfl
  · split <;> rfl

/-- The common checks keep the terms of the plan, and leave it safe only within the budget of its pool. -/
theorem applyCommonChecks_safe {plan : ArchivePlan} (hsafe : (applyCommonChecks request plan).isSafeToEnqueue = true) :
    (applyCommonChecks request plan).terms = plan.terms ∧
      (request.pool ≠ none → plan.totalBytes * plan.copiesRequired ≤ request.poolCapacityBytes - request.poolReservedBytes) := by
  obtain ⟨checked, heq, hterms⟩ : ∃ checked, applyCommonChecks request plan = checkPoolBudget request checked ∧
      checked.terms = plan.terms := ⟨_, rfl, by split <;> split <;> split <;> rfl⟩
  rw [heq] at hsafe ⊢
  refine ⟨(terms_checkPoolBudget checked).trans hterms, fun hpool => ?_⟩
  have hbudget := checkPoolBudget_safe hsafe hpool
  obtain ⟨-, hbytes, hcopies⟩ : checked.files = plan.files ∧ checked.totalBytes = plan.totalBytes ∧
      checked.copiesRequired = plan.copiesRequired := by simpa [ArchivePlan.terms] using hterms
  rwa [hbytes, hcopies] at hbudget

/-- A safe plan places the files requested, on the terms of its draft. -/
theorem archivePlan_places {plan : ArchivePlan} (hnodup : request.availableTapes.Nodup)
    (hplan : archivePlan text request = .ok plan) (hsafe : plan.isSafeToEnqueue = true) :
    plan.terms = (draftPlan request).terms ∧ (∃ share, Places request request.files share plan.tapeAssignments) ∧
      (request.pool ≠ none →
        plan.totalBytes * plan.copiesRequired ≤ request.poolCapacityBytes - request.poolReservedBytes) := by
  unfold archivePlan at hplan
  cases hmedia : request.checkMedia with
  | error exc =>
    rw [hmedia] at hplan
    cases hplan
  | ok u =>
    rw [hmedia] at hplan
    simp only [bind, Except.bind] at hplan
    have hdraft : (draftPlan request).files.Perm request.files := List.perm_insertionSort ..
    split at hplan
    · rename_i hunsafe
      obtain rfl := Except.ok.inj hplan
      rw [hsafe] at hunsafe
      cases hunsafe
    · rename_i hchecked
      obtain ⟨hterms, hbudget⟩ := applyCommonChecks_safe (by simpa using hchecked)
      generalize applyCommonChecks request (draftPlan request) = checked at hplan hterms
      obtain ⟨hfiles, hbytes, hcopies⟩ : checked.files = (draftPlan request).files ∧
          checked.totalBytes = (draftPlan request).totalBytes ∧ checked.copiesRequired = (draftPlan request).copiesRequired := by
        simpa [ArchivePlan.terms] using hterms
      have htotal : checked.totalBytes = request.totalSize checked.files := by
        rw [hbytes, hfiles]
        rfl
      have hplaced : plan.terms = checked.terms ∧ ∃ share, Places request checked.files share plan.tapeAssignments := by
        split at hplan
        · obtain rfl := Except.ok.inj hplan
          exact planCriticalSequential_places hnodup htotal hsafe
        · exact planNoncriticalSharded_places hnodup hplan hsafe
        · exact planBalanced_places hnodup htotal hplan hsafe
      obtain ⟨hsame, share, hplaces⟩ := hplaced
      rw [hfiles] at hplaces
      refine ⟨hsame.trans hterms, ⟨share, hplaces.perm hdraft⟩, fun hpool => ?_⟩
      obtain ⟨-, hbytes', hcopies'⟩ : plan.files = (draftPlan request).files ∧
          plan.totalBytes = (draftPlan request).totalBytes ∧ plan.copiesRequired = (draftPlan request).copiesRequired := by
        simpa [ArchivePlan.terms] using hsame.trans hterms
      rw [hbytes', hcopies']
      exact hbudget hpool

/-- A plan that is safe to enqueue places every requested file once, on one of the tapes it names; it names each tape once, and counts
on it what the files take, which is no more than the tape has left beside its reservation, nothing if that is more than it holds;
with a pool, its copies are within the budget of the pool. -/
theorem plan_sound {plan : ArchivePlan} (hfiles : request.files.Nodup) (htapes : request.availableTapes.Nodup)
    (hplan : archivePlan text request = .ok plan) (hsafe : plan.isSafeToEnqueue = true) :
    (∃ share : Barcode → List String,
      (∀ file, (plan.tapeAssignments.flatMap fun assignment => share assignment.barcode).count file =
        if file ∈ request.files then 1 else 0) ∧
      ∀ assignment ∈ plan.tapeAssignments,
        assignment.files = relativeFiles (share assignment.barcode) request.sourcePath ∧
        assignment.estimatedBytes = request.totalSize (share assignment.barcode) ∧
        assignment.estimatedBytes ≤ request.tapeCapacity assignment.barcode) ∧
    (plan.tapeAssignments.map TapeAssignment.barcode).Nodup ∧
    (∀ assignment ∈ plan.tapeAssignments, assignment.barcode ∈ request.availableTapes) ∧
    plan.totalBytes = request.totalSize request.files ∧
    (request.pool ≠ none → plan.totalBytes * plan.copiesRequired ≤ request.poolCapacityBytes - request.poolReservedBytes) := by
  obtain ⟨hterms, ⟨share, hplaces⟩, hbudget⟩ := archivePlan_places htapes hplan hsafe
  refine ⟨⟨share, fun file => ?_, fun assignment hm => ?_⟩, hplaces.nodup, hplaces.available, ?_, hbudget⟩
  · rw [hplaces.holds.count_eq]
    exact hfiles.count
  · exact ⟨(hplaces.records _ hm).files, (hplaces.records _ hm).bytes, hplaces.fits _ hm⟩
  · have hbytes : plan.totalBytes = (draftPlan request).totalBytes := congrArg (fun t => t.2.1) hterms
    rw [hbytes]
    exact totalSize_perm (List.perm_insertionSort ..)

/-- The planner on ASCII texts. -/
def PlannerText.ascii : PlannerText where
  upper s := String.ofList (s.toList.map Char.toUpper)
  lower s := String.ofList (s.toList.map Char.toLower)
  percentOf percent value := value * percent / 100

/-- More than fits on the first tape, in a pool. -/
def pooledRequest : ArchivePlanRequest where
  policyType := some .balanced
  sourcePath := some "/data"
  pool := some "archive"
  files := ["/data/b", "/data/a"]
  fileSizes := [("/data/a", 60), ("/data/b", 30)]
  availableTapes := ["SCR001", "TAPE01"]
  tapeCapacities := [("SCR001", 50), ("TAPE01", 80)]
  reservedBytes := [("TAPE01", 10)]
  poolReservedBytes := 5

theorem plan_sound_pooled :
    ∃ plan, archivePlan .ascii pooledRequest = .ok plan ∧ plan.totalBytes * plan.copiesRequired ≤ 115 ∧
      ∀ assignment ∈ plan.tapeAssignments, assignment.barcode ∈ ["SCR001", "TAPE01"] := by
  obtain ⟨plan, hplan, hsafe⟩ : ∃ plan, archivePlan .ascii pooledRequest = .ok plan ∧ plan.isSafeToEnqueue = true :=
    ⟨_, rfl, by decide +kernel⟩
  obtain ⟨-, -, havailable, -, hbudget⟩ := plan_sound (by decide) (by decide) hplan hsafe
  exact ⟨plan, hplan, hbudget (fun h => nomatch h), havailable⟩

/-- An empty file, and a tape whose reservation is more than it holds. -/
def overbookedRequest : ArchivePlanRequest where
  policyType := some .criticalSequential
  files := ["/data/empty"]
  availableTapes := ["TAPE01"]
  tapeCapacities := [("TAPE01", 10)]
  reservedBytes := [("TAPE01", 20)]

/-- What an overbooked tape has left is counted as nothing, so it still takes an empty file. -/
theorem overbooked_tape_takes_empty_file :
    ∃ plan ∈ (archivePlan .ascii overbookedRequest).toOption, plan.isSafeToEnqueue = true ∧
      ∃ assignment ∈ plan.tapeAssignments, ¬assignment.estimatedBytes ≤
        (Dict.get? overbookedRequest.tapeCapacities assignment.barcode).getD defaultTapeCapacity -
          (Dict.get? overbookedRequest.reservedBytes assignment.barcode).getD 0 :=
  ⟨_, rfl, by decide +kernel⟩

end OpenBlade
