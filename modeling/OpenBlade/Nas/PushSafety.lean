import OpenBlade.Domain.PathParts
import OpenBlade.Effects.Traverse
import OpenBlade.Nas.FileIdentity
import OpenBlade.Nas.SharePush

/-!
# What a push deletes

A push whose ingest ends as archived deletes the records of all its files, and partial success counts as archived. So the records
that are deleted are those of files on tape exactly if the ingest is broken off, archives nothing, or archives all of them; and the
files have names of their own exactly if no file is named like the second name of a later one.
-/

namespace OpenBlade

open Effects

/-! ### The names of the files -/

section names

variable (baseName : String → String) (ids : List String)

/-- The name of a file whose own is used. -/
def secondName (fileId : String) : String := fileId ++ "-" ++ baseName fileId

/-- The names that the first files of a push take: their own, and the second name of a file whose own was taken before it. -/
inductive NameTaken : Nat → String → Prop where
  | own {k n : Nat} {fileId : String} (before : k < n) (file : ids[k]? = some fileId) : NameTaken n (baseName fileId)
  | second {k n : Nat} {fileId : String} (before : k < n) (file : ids[k]? = some fileId) (taken : NameTaken k (baseName fileId)) :
      NameTaken n (secondName baseName fileId)

/-- No file has for its own the second name of a later one that needs it. -/
def NamesApart : Prop :=
  ∀ (i j : Nat) (fileId fileId' : String), i < j → ids[i]? = some fileId → ids[j]? = some fileId' → fileId ≠ fileId' →
    baseName fileId = secondName baseName fileId' → NameTaken baseName ids j (baseName fileId') →
    NameTaken baseName ids i (baseName fileId)

end names

/-- The name that a file of a push has by itself. -/
def SharePush.baseName (push : SharePush) (fileId : String) : String :=
  ((push.recordsById.get? fileId).map fun record => sanitizeFilename record.relativePath).getD ""

/-- A file is pushed under a path. -/
def PushStage.Pushed (stage : PushStage) (fileId path : String) : Prop :=
  ∃ k : Nat, stage.stagedFileIds[k]? = some fileId ∧ stage.relativeFiles[k]? = some path

/-! ### What the ingest meets -/

/-- Nothing keeps a copy from being archived, and what the write leaves on the tape has the checksum of the source. -/
structure CopyEvents.GoesThrough (sha256 : Bytes → String) (source : Bytes) (events : CopyEvents) : Prop where
  fault : events.fault = .none
  verified : sha256 (events.stored.getD source) = sha256 source
  lifecycle : events.lifecycleFails = false

namespace PushIngest

variable (sha256 : Bytes → String) (ingest : PushIngest)

/-- A file that the ingest is to write: its assignment and its place in it, its tape and its path. -/
structure Copying where
  assignment : Nat
  index : Nat
  barcode : Barcode
  path : String

/-- The files of an assignment. -/
def copyingsOf (assignment : TapeAssignment × Nat) : List Copying :=
  assignment.1.files.zipIdx.map fun file => ⟨assignment.2, file.2, assignment.1.barcode, file.1⟩

def copyings : List Copying := ingest.assignments.zipIdx.flatMap copyingsOf

/-- A file is archived where the ingest gets to it. -/
def Archives (c : Copying) : Prop :=
  (ingest.events.file c.assignment c.index).GoesThrough sha256 (ingest.readSourceBytes c.path)

/-- The ingest is given up at a file: before it, or because it fails and that cannot be recorded or is not allowed. -/
def StopsAt (c : Copying) : Prop :=
  (ingest.events.file c.assignment c.index).stops.isSome ∨
    ¬ingest.Archives sha256 c ∧
      ((ingest.events.file c.assignment c.index).recording.isSome ∨ ingest.allowPartialDatasetSuccess = false)

/-- The ingest is given up at an assignment. -/
def BreaksAt (assignment : TapeAssignment × Nat) : Prop :=
  ingest.events.cancelled assignment.2 = true ∨ (ingest.events.opening assignment.2).isSome ∨
    (ingest.events.closing assignment.2).isSome ∨ ∃ c ∈ copyingsOf assignment, ingest.StopsAt sha256 c

/-- The ingest does not get to its end: it is cancelled, or something raises outside of the `try` of a file. -/
def BrokenOff : Prop :=
  ingest.events.preparing.isSome ∨ (∃ path ∈ ingest.assignments.flatMap TapeAssignment.files, ingest.workspace.get? path = none) ∨
    (∃ assignment ∈ ingest.assignments.zipIdx, ingest.BreaksAt sha256 assignment) ∨ ingest.events.completing.isSome ∨
    ingest.events.finalizing.isSome

end PushIngest

namespace PushAux

/-! ### Texts -/

/-- A text of the form is as long as it, but for a line feed at its end. -/
theorem length_of_matchesForm {form text : List Char} (h : matchesForm form text = true) :
    text.length = form.length ∨ ∃ body, text = body ++ ['\n'] ∧ body.length = form.length := by
  induction form generalizing text with
  | nil =>
    simp only [matchesForm, decide_eq_true_eq] at h
    rcases h with rfl | rfl
    · exact .inl rfl
    · exact .inr ⟨[], rfl, rfl⟩
  | cons letter form ih =>
    cases text with
    | nil => cases h
    | cons c text =>
      simp only [matchesForm, Bool.and_eq_true] at h
      rcases ih h.2 with hlength | ⟨body, rfl, hlength⟩
      · exact .inl (by rw [List.length_cons, List.length_cons, hlength])
      · exact .inr ⟨c :: body, rfl, by rw [List.length_cons, List.length_cons, hlength]⟩

/-- Two ids with something behind a hyphen make one text only if they are one. -/
theorem id_of_hyphened {form id id' rest rest' : List Char} (h : matchesForm form id = true) (h' : matchesForm form id' = true)
    (heq : id ++ '-' :: rest = id' ++ '-' :: rest') : id = id' := by
  have key : ∀ {a b : List Char} {s s' : List Char}, a.length = form.length → b.length = form.length →
      a ++ '-' :: s = b ++ '\n' :: s' → False := by
    intro a b s s' ha hb hab
    have htail := (List.append_inj hab (ha.trans hb.symm)).2
    exact absurd (List.cons.inj htail).1 (by decide)
  rcases length_of_matchesForm h with hid | ⟨body, rfl, hbody⟩ <;>
    rcases length_of_matchesForm h' with hid' | ⟨body', rfl, hbody'⟩
  · exact (List.append_inj heq (hid.trans hid'.symm)).1
  · rw [List.append_assoc, List.singleton_append] at heq
    exact (key hid hbody' heq).elim
  · rw [List.append_assoc, List.singleton_append] at heq
    exact (key hid' hbody heq.symm).elim
  · rw [List.append_assoc, List.append_assoc] at heq
    rw [(List.append_inj heq (hbody.trans hbody'.symm)).1]

theorem matchesForm_of_validateFileId {fileId id : String} (h : validateFileId fileId = .ok id) :
    matchesForm uuid4Form fileId.toList = true := by
  unfold validateFileId at h
  split at h
  · assumption
  · cases h

/-- A valid id begins with a digit. -/
theorem head_of_matchesForm {fileId : String} (h : matchesForm uuid4Form fileId.toList = true) :
    ∃ c chars, fileId.toList = c :: chars ∧ c ≠ '/' := by
  obtain ⟨form, hform⟩ : ∃ form, uuid4Form = 'x' :: form := ⟨"xxxxxxx-xxxx-4xxx-yxxx-xxxxxxxxxxxx".toList, by decide⟩
  rw [hform] at h
  generalize fileId.toList = chars at h
  cases chars with
  | nil => cases h
  | cons c chars =>
    refine ⟨c, chars, rfl, ?_⟩
    rintro rfl
    simp only [matchesForm, Bool.and_eq_true] at h
    exact absurd h.1 (by decide)

/-- Two files have one second name only if they are one. -/
theorem secondName_inj {baseName : String → String} {fileId fileId' : String} (h : matchesForm uuid4Form fileId.toList = true)
    (h' : matchesForm uuid4Form fileId'.toList = true) (heq : secondName baseName fileId = secondName baseName fileId') :
    fileId = fileId' := by
  have hchars := congrArg String.toList heq
  simp only [secondName, String.toList_append, List.append_assoc] at hchars
  exact String.toList_inj.1 (id_of_hyphened h h' hchars)

/-- The name of a file has letters, and no slash. -/
theorem sanitizeFilename_spec (filename : String) :
    ∃ c chars, (sanitizeFilename filename).toList = c :: chars ∧ c ≠ '/' := by
  have hname : ∀ text, (PurePosixPath.ofString text).name ≠ "" →
      ∃ c chars, (PurePosixPath.ofString text).name.toList = c :: chars ∧ c ≠ '/' := by
    intro text hne
    obtain ⟨parts, hparts, hall⟩ := (wellFormed_ofString text).parts
    unfold PurePosixPath.name at hne ⊢
    rw [hparts, List.getLast?_map] at hne ⊢
    cases hlast : parts.getLast? with
    | none =>
      rw [hlast] at hne
      exact absurd rfl hne
    | some part =>
      obtain ⟨hpart, hslash⟩ := hall part (List.mem_of_getLast? hlast)
      obtain ⟨c, chars, rfl⟩ := List.exists_cons_of_ne_nil hpart.1
      exact ⟨c, chars, by simp, fun heq => hslash (heq ▸ List.mem_cons_self)⟩
  unfold sanitizeFilename
  generalize (if filename = "" then "unknown" else filename) = text
  dsimp only
  split
  · exact ⟨'u', "nknown".toList, by decide, by decide⟩
  · rename_i hne
    exact hname _ hne

/-- A prefix that is accepted begins with no slash. -/
theorem head_normalizeTargetPrefix {targetPrefix accepted : String} (h : normalizeTargetPrefix targetPrefix = .ok accepted) :
    accepted.toList.head? ≠ some '/' := by
  unfold normalizeTargetPrefix at h
  dsimp only at h
  split at h
  · obtain rfl := Except.ok.inj h
    exact fun h => nomatch h
  · split at h
    · cases h
    · obtain rfl := Except.ok.inj h
      obtain ⟨parts, hparts, hall⟩ := (wellFormed_ofString (stripSlashes (strip targetPrefix))).parts
      rw [hparts]
      cases parts with
      | nil => exact fun h => nomatch h
      | cons part parts =>
        obtain ⟨hpart, hslash⟩ := hall part List.mem_cons_self
        obtain ⟨c, part, rfl⟩ := List.exists_cons_of_ne_nil hpart.1
        have hc : c ≠ '/' := fun heq => hslash (heq ▸ List.mem_cons_self)
        cases parts <;> simpa [String.toList_intercalate, List.intercalate] using hc

theorem underPrefix_inj {targetPrefix name name' : String} (h : underPrefix targetPrefix name = underPrefix targetPrefix name') :
    name = name' := by
  unfold underPrefix at h
  split at h
  · exact h
  · exact String.toList_inj.1 (by simpa using congrArg String.toList h)

/-- A name under a prefix begins with no slash. -/
theorem head_underPrefix {targetPrefix name : String} (hpref : targetPrefix.toList.head? ≠ some '/')
    (hname : ∃ c chars, name.toList = c :: chars ∧ c ≠ '/') : (underPrefix targetPrefix name).toList.head? ≠ some '/' := by
  unfold underPrefix
  split
  · obtain ⟨c, chars, hchars, hc⟩ := hname
    rw [hchars]
    simpa using hc
  · rename_i hne
    cases hchars : targetPrefix.toList with
    | nil => exact absurd (String.toList_inj.1 hchars) hne
    | cons c chars =>
      rw [hchars] at hpref
      simpa [String.toList_append, hchars] using hpref

/-- A path of the workspace is planned under itself. -/
theorem makeRelative_eq_self {workspace path : String} (habs : workspace.toList.head? = some '/')
    (hpath : path.toList.head? ≠ some '/') : makeRelative path (some workspace) = path := by
  have hpref : workspace.toList.isPrefixOf path.toList = false := by
    cases hws : workspace.toList with
    | nil =>
      rw [hws] at habs
      cases habs
    | cons c chars =>
      obtain rfl : c = '/' := by simpa [hws] using habs
      cases hchars : path.toList with
      | nil => rfl
      | cons c' chars' =>
        rw [hchars] at hpath
        have hne : c' ≠ '/' := by simpa using hpath
        simp [List.isPrefixOf, Ne.symm hne]
  unfold makeRelative
  simp only [hpref, Bool.false_eq_true, and_false, if_false]
  have hstrip := lstripSlash_slashes 0 hpath
  simpa [slashes] using hstrip

/-! ### The copying loop -/

section copying

variable {push : SharePush} {targetPrefix : String} {ids : List String} {n : Nat} {stage : PushStage}

/-- What `checkStaged` has looked at. -/
structure Checked (push : SharePush) (fileId : String) (content : Bytes) : Prop where
  valid : matchesForm uuid4Form fileId.toList = true
  record : ∃ record ∈ push.records, record.id = fileId ∧ push.baseName fileId = sanitizeFilename record.relativePath
  staged : push.stagedContent fileId = some content

theorem checked_of_ok {fileId : String} {record : NasFileRecord} {content : Bytes} (h : push.checkStaged fileId = .ok (record, content)) :
    Checked push fileId content ∧ push.baseName fileId = sanitizeFilename record.relativePath := by
  unfold SharePush.checkStaged at h
  obtain ⟨id, hid, h⟩ := Effects.bind_eq_ok.1 h
  cases hget : push.recordsById.get? fileId with
  | none =>
    rw [hget] at h
    cases h
  | some found =>
    rw [hget] at h
    dsimp only at h
    split at h
    · cases h
    split at h
    · cases h
    cases hstaged : push.stagedContent fileId with
    | none =>
      rw [hstaged] at h
      cases h
    | some bytes =>
      rw [hstaged] at h
      obtain ⟨rfl, rfl⟩ := Prod.mk.inj (Except.ok.inj h)
      have hname : push.baseName fileId = sanitizeFilename found.relativePath := by
        unfold SharePush.baseName
        rw [hget]
        rfl
      obtain ⟨row, hrow, hpair⟩ := List.mem_map.1 (Dict.mem_of_mem_ofPairs (Dict.mem_of_get? hget))
      obtain ⟨rfl, rfl⟩ := Prod.mk.inj hpair
      exact ⟨⟨matchesForm_of_validateFileId hid, ⟨row, hrow, rfl, hname⟩, hstaged⟩, hname⟩

/-- The name that the file at a place gets. -/
structure NamedAt (baseName : String → String) (ids : List String) (n : Nat) (fileId name : String) : Prop where
  own : ¬NameTaken baseName ids n (baseName fileId) → name = baseName fileId
  second : NameTaken baseName ids n (baseName fileId) → name = secondName baseName fileId

/-- The loop has copied the first files. -/
structure Copied (push : SharePush) (targetPrefix : String) (ids : List String) (n : Nat) (stage : PushStage) : Prop where
  files : stage.stagedFileIds = ids.take n
  used : stage.usedPaths = stage.relativeFiles.reverse
  length : stage.relativeFiles.length = n
  checked : ∀ k fileId, k < n → ids[k]? = some fileId → ∃ content, Checked push fileId content
  named : ∀ k fileId, k < n → ids[k]? = some fileId → ∃ name, stage.relativeFiles[k]? = some (underPrefix targetPrefix name) ∧
    NamedAt push.baseName ids k fileId name
  inside : ∀ path ∈ stage.relativeFiles, path ≠ underPrefix targetPrefix ".." → ∃ fileId content, stage.Pushed fileId path ∧
    push.stagedContent fileId = some content ∧ stage.workspace.get? path = some content
  outside : stage.workspace.get? (underPrefix targetPrefix "..") = none

/-- The used paths are those of the names that are taken. -/
theorem Copied.mem_iff (h : Copied push targetPrefix ids n stage) (hn : n ≤ ids.length) (name : String) :
    underPrefix targetPrefix name ∈ stage.relativeFiles ↔ NameTaken push.baseName ids n name := by
  constructor
  · intro hmem
    obtain ⟨k, hk⟩ := List.mem_iff_getElem?.1 hmem
    have hlt : k < n := h.length ▸ (List.getElem?_eq_some_iff.1 hk).1
    obtain ⟨fileId, hfile⟩ : ∃ fileId, ids[k]? = some fileId := ⟨_, List.getElem?_eq_getElem (by omega)⟩
    obtain ⟨name', hname', hnamed⟩ := h.named k fileId hlt hfile
    obtain rfl := underPrefix_inj (Option.some.inj (hk.symm.trans hname'))
    by_cases htaken : NameTaken push.baseName ids k (push.baseName fileId)
    · rw [hnamed.second htaken]
      exact .second hlt hfile htaken
    · rw [hnamed.own htaken]
      exact .own hlt hfile
  · suffices hall : ∀ m ≤ n, ∀ name, NameTaken push.baseName ids m name → underPrefix targetPrefix name ∈ stage.relativeFiles from
      hall n le_rfl name
    intro m
    induction m using Nat.strong_induction_on with
    | _ m ih =>
      intro hm name htaken
      cases htaken with
      | @own k _ fileId hk hfile =>
        obtain ⟨name, hname, hnamed⟩ := h.named k fileId (by omega) hfile
        by_cases htaken : NameTaken push.baseName ids k (push.baseName fileId)
        · exact ih k hk (by omega) _ htaken
        · rw [← hnamed.own htaken]
          exact List.mem_of_getElem? hname
      | @second k _ fileId hk hfile htaken =>
        obtain ⟨name, hname, hnamed⟩ := h.named k fileId (by omega) hfile
        rw [← hnamed.second htaken]
        exact List.mem_of_getElem? hname

/-- The next path is that of the name the file gets. -/
theorem Copied.candidatePath_eq (h : Copied push targetPrefix ids n stage) (hn : n ≤ ids.length) (fileId : String) :
    ∃ name, candidatePath targetPrefix stage.usedPaths fileId (push.baseName fileId) = underPrefix targetPrefix name ∧
      NamedAt push.baseName ids n fileId name := by
  have hused : underPrefix targetPrefix (push.baseName fileId) ∈ stage.usedPaths ↔
      NameTaken push.baseName ids n (push.baseName fileId) := by
    rw [h.used, List.mem_reverse]
    exact h.mem_iff hn _
  unfold candidatePath
  split
  · rename_i hmem
    exact ⟨_, rfl, fun hno => absurd (hused.1 hmem) hno, fun _ => rfl⟩
  · rename_i hmem
    exact ⟨_, rfl, fun _ => rfl, fun htaken => absurd (hused.2 htaken) hmem⟩

/-- What a copy leaves of the workspace. -/
theorem copyStaged_cases {path fileId : String} {content : Bytes} {workspace workspace' : Dict String Bytes} {size : Int}
    (h : push.copyStaged targetPrefix path fileId content workspace = .ok (size, workspace')) :
    path ≠ underPrefix targetPrefix ".." ∧ workspace' = workspace.set path content ∨
      path = underPrefix targetPrefix ".." ∧ workspace' = workspace := by
  unfold SharePush.copyStaged at h
  split at h
  · cases h
  · split at h
    · rename_i hpath
      obtain ⟨-, rfl⟩ := Prod.mk.inj (Except.ok.inj h)
      exact .inl ⟨hpath, rfl⟩
    · rename_i hpath
      split at h
      · cases h
      · split at h
        · cases h
        · obtain ⟨-, rfl⟩ := Prod.mk.inj (Except.ok.inj h)
          exact .inr ⟨not_not.1 hpath, rfl⟩

theorem Copied.stageFile (h : Copied push targetPrefix ids n stage) {fileId : String} (hfile : ids[n]? = some fileId)
    {stage' : PushStage} (hok : push.stageFile targetPrefix stage fileId = .ok stage') : Copied push targetPrefix ids (n + 1) stage' := by
  have hn : n < ids.length := (List.getElem?_eq_some_iff.1 hfile).1
  unfold SharePush.stageFile at hok
  obtain ⟨⟨record, content⟩, hcheck, hok⟩ := Effects.bind_eq_ok.1 hok
  obtain ⟨⟨size, workspace⟩, hcopy, hok⟩ := Effects.bind_eq_ok.1 hok
  obtain rfl := Except.ok.inj hok
  obtain ⟨hchecked, hbase⟩ := checked_of_ok hcheck
  obtain ⟨name, hpath, hnamed⟩ := h.candidatePath_eq hn.le fileId
  rw [← hbase, hpath] at hcopy
  rw [← hbase, hpath]
  have hids : stage.stagedFileIds.length = n := by
    rw [h.files, List.length_take]
    omega
  have hlast : (stage.relativeFiles ++ [underPrefix targetPrefix name])[n]? = some (underPrefix targetPrefix name) := by
    rw [← h.length, List.getElem?_concat_length]
  have hlastId : (stage.stagedFileIds ++ [fileId])[n]? = some fileId := by
    rw [← hids, List.getElem?_concat_length]
  have hold : ∀ {fileId' path}, stage.Pushed fileId' path →
      ∃ k : Nat, (stage.stagedFileIds ++ [fileId])[k]? = some fileId' ∧
        (stage.relativeFiles ++ [underPrefix targetPrefix name])[k]? = some path := by
    rintro fileId' path ⟨k, hid, hpath'⟩
    exact ⟨k, by rw [List.getElem?_append_left (List.getElem?_eq_some_iff.1 hid).1, hid],
      by rw [List.getElem?_append_left (List.getElem?_eq_some_iff.1 hpath').1, hpath']⟩
  have hcases : ∀ k fileId', k < n + 1 → ids[k]? = some fileId' → k < n ∨ k = n ∧ fileId' = fileId := by
    intro k fileId' hk hfile'
    rcases Nat.lt_succ_iff_lt_or_eq.1 hk with hk | rfl
    · exact .inl hk
    · exact .inr ⟨rfl, Option.some.inj (hfile'.symm.trans hfile)⟩
  constructor
  · rw [h.files, List.take_add_one, hfile]
    rfl
  · rw [h.used, List.reverse_append]
    rfl
  · rw [List.length_append, h.length]
    rfl
  · intro k fileId' hk hfile'
    rcases hcases k fileId' hk hfile' with hk | ⟨rfl, rfl⟩
    · exact h.checked k fileId' hk hfile'
    · exact ⟨content, hchecked⟩
  · intro k fileId' hk hfile'
    rcases hcases k fileId' hk hfile' with hk | ⟨rfl, rfl⟩
    · obtain ⟨name', hname', hnamed'⟩ := h.named k fileId' hk hfile'
      exact ⟨name', by rw [List.getElem?_append_left (h.length ▸ hk), hname'], hnamed'⟩
    · exact ⟨name, hlast, hnamed⟩
  · intro path hmem hstray
    have hkept : path ∈ stage.relativeFiles → workspace.get? path = stage.workspace.get? path → ∃ fileId' content',
        (∃ k : Nat, (stage.stagedFileIds ++ [fileId])[k]? = some fileId' ∧
          (stage.relativeFiles ++ [underPrefix targetPrefix name])[k]? = some path) ∧
        push.stagedContent fileId' = some content' ∧ workspace.get? path = some content' := by
      intro hmem hget
      obtain ⟨fileId', content', hpushed, hstaged, hget'⟩ := h.inside path hmem hstray
      exact ⟨fileId', content', hold hpushed, hstaged, hget.trans hget'⟩
    rcases copyStaged_cases hcopy with ⟨-, rfl⟩ | ⟨hdots, rfl⟩
    · by_cases heq : underPrefix targetPrefix name = path
      · exact ⟨fileId, content, ⟨n, hlastId, heq ▸ hlast⟩, hchecked.staged, by rw [Dict.get?_set, if_pos heq]⟩
      · refine hkept ?_ (by rw [Dict.get?_set, if_neg heq])
        exact (List.mem_append.1 hmem).resolve_right fun hlast => heq (List.mem_singleton.1 hlast).symm
    · refine hkept ?_ rfl
      exact (List.mem_append.1 hmem).resolve_right fun hlast => hstray ((List.mem_singleton.1 hlast).trans hdots)
  · rcases copyStaged_cases hcopy with ⟨hne, rfl⟩ | ⟨-, rfl⟩
    · rw [Dict.get?_set, if_neg hne]
      exact h.outside
    · exact h.outside

theorem Copied.stageFiles (h : Copied push targetPrefix ids n stage) {stage' : PushStage}
    (hok : push.stageFiles targetPrefix (ids.drop n) stage = .ok stage') (hn : n ≤ ids.length) :
    Copied push targetPrefix ids ids.length stage' := by
  induction hrest : ids.drop n generalizing n stage with
  | nil =>
    rw [hrest] at hok
    obtain rfl := Except.ok.inj hok
    have hlength : ids.length ≤ n := List.drop_eq_nil_iff.1 hrest
    rwa [Nat.le_antisymm hn hlength] at h
  | cons fileId rest ih =>
    rw [hrest] at hok
    obtain ⟨next, hnext, hok⟩ := Effects.bind_eq_ok.1 hok
    have hfile : ids[n]? = some fileId := by
      rw [← Nat.add_zero n, ← List.getElem?_drop, hrest, List.getElem?_cons_zero]
    have hdrop : ids.drop (n + 1) = rest := by
      rw [← List.drop_drop, hrest, List.drop_one, List.tail_cons]
    have hlt : n < ids.length := (List.getElem?_eq_some_iff.1 hfile).1
    exact ih (h.stageFile hfile hnext) (hdrop ▸ hok) hlt hdrop

theorem copied_nil (push : SharePush) (targetPrefix : String) (ids : List String) : Copied push targetPrefix ids 0 {} where
  files := rfl
  used := rfl
  length := rfl
  checked k _ hk := absurd hk (Nat.not_lt_zero k)
  named k _ hk := absurd hk (Nat.not_lt_zero k)
  inside _ hmem := absurd hmem List.not_mem_nil
  outside := rfl

/-- Files of a push have names of their own exactly if no name is the second one of a later file that needs it. -/
theorem Copied.apart_iff (h : Copied push targetPrefix ids ids.length stage) :
    (∀ fileId path fileId' path', stage.Pushed fileId path → stage.Pushed fileId' path' → fileId ≠ fileId' → path ≠ path') ↔
      NamesApart push.baseName ids := by
  have hfiles : stage.stagedFileIds = ids := h.files.trans (List.take_length)
  have hlt : ∀ {k : Nat} {fileId : String}, ids[k]? = some fileId → k < ids.length := fun hk => (List.getElem?_eq_some_iff.1 hk).1
  have hvalid : ∀ {k : Nat} {fileId : String}, ids[k]? = some fileId → matchesForm uuid4Form fileId.toList = true := by
    intro k fileId hk
    obtain ⟨content, hchecked⟩ := h.checked k fileId (hlt hk) hk
    exact hchecked.valid
  constructor
  · intro hapart i j fileId fileId' hij hi hj hne heq htaken
    by_contra hplain
    obtain ⟨name, hname, hnamed⟩ := h.named i fileId (hlt hi) hi
    obtain ⟨name', hname', hnamed'⟩ := h.named j fileId' (hlt hj) hj
    refine hapart fileId _ fileId' _ ⟨i, hfiles ▸ hi, hname⟩ ⟨j, hfiles ▸ hj, hname'⟩ hne ?_
    rw [hnamed.own hplain, hnamed'.second htaken, heq]
  · intro hapart fileId path fileId' path' ⟨i, hi, hpath⟩ ⟨j, hj, hpath'⟩ hne heq
    rw [hfiles] at hi hj
    subst heq
    have key : ∀ {i j : Nat} {fileId fileId' : String}, ids[i]? = some fileId → ids[j]? = some fileId' → fileId ≠ fileId' →
        stage.relativeFiles[i]? = some path → stage.relativeFiles[j]? = some path → ¬i < j := by
      intro i j fileId fileId' hi hj hne hpath hpath' hij
      obtain ⟨name, hname, hnamed⟩ := h.named i fileId (hlt hi) hi
      obtain ⟨name', hname', hnamed'⟩ := h.named j fileId' (hlt hj) hj
      obtain rfl := Option.some.inj (hpath.symm.trans hname)
      obtain rfl := underPrefix_inj (Option.some.inj (hpath'.symm.trans hname'))
      have hearlier : NameTaken push.baseName ids j name := by
        by_cases htaken : NameTaken push.baseName ids i (push.baseName fileId)
        · rw [hnamed.second htaken]
          exact .second hij hi htaken
        · rw [hnamed.own htaken]
          exact .own hij hi
      by_cases htaken' : NameTaken push.baseName ids j (push.baseName fileId')
      · have hsecond := hnamed'.second htaken'
        by_cases htaken : NameTaken push.baseName ids i (push.baseName fileId)
        · exact hne (secondName_inj (hvalid hi) (hvalid hj) ((hnamed.second htaken).symm.trans hsecond))
        · exact htaken (hapart i j fileId fileId' hij hi hj hne ((hnamed.own htaken).symm.trans hsecond) htaken')
      · rw [hnamed'.own htaken'] at hearlier
        exact htaken' hearlier
    rcases Nat.lt_trichotomy i j with hij | rfl | hij
    · exact key hi hj hne hpath hpath' hij
    · exact hne (Option.some.inj (hi.symm.trans hj))
    · exact key hj hi (Ne.symm hne) hpath' hpath hij

end copying

/-! ### The ingest -/

section loops

variable {α β σ : Type} {f : α → σ → Except Exn Unit × σ} {xs : List α} {s : σ}

/-- What every pass keeps, a loop keeps, however it ends. -/
theorem untilRaised_keeps {J : σ → Prop} (h : ∀ x ∈ xs, ∀ s, J s → J (f x s).2) (hs : J s) : J (untilRaised f xs s).2 := by
  induction xs generalizing s with
  | nil => exact hs
  | cons x xs ih =>
    have hx := h x List.mem_cons_self s hs
    unfold untilRaised
    split
    · rename_i heq
      rwa [heq] at hx
    · rename_i heq
      rw [heq] at hx
      exact ih (fun y hy => h y (List.mem_cons_of_mem _ hy)) hx

/-- Where it is known of every element whether its pass raises, it is known of the loop. -/
theorem untilRaised_ok_iff {bad : α → Prop} (h : ∀ x ∈ xs, ∀ s, (f x s).1 = .ok () ↔ ¬bad x) :
    (untilRaised f xs s).1 = .ok () ↔ ∀ x ∈ xs, ¬bad x := by
  induction xs generalizing s with
  | nil => simp [untilRaised]
  | cons x xs ih =>
    have hx := h x List.mem_cons_self s
    unfold untilRaised
    split
    · rename_i heq
      rw [heq] at hx
      simp only [reduceCtorEq, false_iff, not_not] at hx
      simp [hx]
    · rename_i heq
      rw [heq] at hx
      simp only [true_iff] at hx
      rw [ih fun y hy => h y (List.mem_cons_of_mem _ hy)]
      simp [hx]

/-- Loop rule for a normal end: an invariant over what the passes have gone through. -/
theorem untilRaised_ok {I : List β → σ → Prop} {g : α → List β}
    (h : ∀ x ∈ xs, ∀ done s, I done s → (f x s).1 = .ok () → I (done ++ g x) (f x s).2) {done : List β} (hs : I done s)
    (hok : (untilRaised f xs s).1 = .ok ()) : I (done ++ xs.flatMap g) (untilRaised f xs s).2 := by
  induction xs generalizing done s with
  | nil => simpa [untilRaised] using hs
  | cons x xs ih =>
    have hx := h x List.mem_cons_self done s hs
    unfold untilRaised at hok ⊢
    split at hok
    · cases hok
    · rename_i heq
      rw [heq] at hx
      rw [List.flatMap_cons, ← List.append_assoc]
      exact ih (fun y hy => h y (List.mem_cons_of_mem _ hy)) (hx rfl) hok

end loops

section ingest

variable {sha256 : Bytes → String} {ingest : PushIngest}

/-- A copy that is archived, and only such a one, is on tape as archived. -/
theorem writeCopy_cases (sha256 : Bytes → String) (ingest : PushIngest) (events : CopyEvents) (barcode : Barcode) (path : String) :
    (events.GoesThrough sha256 (ingest.readSourceBytes path) ∧
      ∃ content, sha256 content = sha256 (ingest.readSourceBytes path) ∧
        ingest.writeCopy sha256 events barcode path = (true, [{ barcode, relativePath := path, content, archived := true }])) ∨
    (¬events.GoesThrough sha256 (ingest.readSourceBytes path) ∧
      ∃ copies, ingest.writeCopy sha256 events barcode path = (false, copies) ∧ ∀ copy ∈ copies, copy.archived = false) := by
  unfold PushIngest.writeCopy
  cases hfault : events.fault with
  | beforeWrite => exact .inr ⟨fun h => by simp [h.fault] at hfault, [], rfl, by simp⟩
  | afterWrite => exact .inr ⟨fun h => by simp [h.fault] at hfault, _, rfl, by simp⟩
  | none =>
    dsimp only
    by_cases hsame : sha256 (events.stored.getD (ingest.readSourceBytes path)) = sha256 (ingest.readSourceBytes path)
    · rw [if_neg fun h => h.2 hsame, if_neg (not_not.2 hsame)]
      cases hlifecycle : events.lifecycleFails with
      | false => exact .inl ⟨⟨hfault, hsame, hlifecycle⟩, _, hsame, rfl⟩
      | true => exact .inr ⟨fun h => by simp [h.lifecycle] at hlifecycle, _, rfl, by simp⟩
    · rw [if_pos hsame, ite_self]
      exact .inr ⟨fun h => hsame h.verified, _, rfl, by simp⟩

/-- Every copy that is archived has the checksum of its source. -/
def CopiesVerified (sha256 : Bytes → String) (ingest : PushIngest) (progress : PushProgress) : Prop :=
  ∀ copy ∈ progress.copies, copy.archived = true → sha256 copy.content = sha256 (ingest.readSourceBytes copy.relativePath)

/-- What an ingest has counted after some of the files. -/
structure Counted (sha256 : Bytes → String) (ingest : PushIngest) (done : List PushIngest.Copying) (progress : PushProgress) : Prop where
  processed : progress.filesProcessed = 0 ↔ ∀ c ∈ done, ¬ingest.Archives sha256 c
  failed : progress.filesFailed = 0 ↔ ∀ c ∈ done, ingest.Archives sha256 c
  copied : ∀ c ∈ done, ingest.Archives sha256 c → ∃ copy ∈ progress.copies, copy.archived = true ∧ copy.relativePath = c.path
  through : ∀ copy ∈ progress.copies, copy.archived = true → ∃ c ∈ done, ingest.Archives sha256 c ∧ c.path = copy.relativePath

theorem counted_nil (sha256 : Bytes → String) (ingest : PushIngest) : Counted sha256 ingest [] {} where
  processed := by simp
  failed := by simp
  copied c hc := absurd hc List.not_mem_nil
  through copy hcopy := absurd hcopy List.not_mem_nil

theorem Counted.concat_archived {done : List PushIngest.Copying} {progress : PushProgress} (h : Counted sha256 ingest done progress)
    {c : PushIngest.Copying} (hc : ingest.Archives sha256 c) {copy : TapeCopy} (harchived : copy.archived = true) (hpath : copy.relativePath = c.path) :
    Counted sha256 ingest (done ++ [c])
      { progress with copies := progress.copies ++ [copy], filesProcessed := progress.filesProcessed + 1 } where
  processed := by simp [List.forall_mem_append, hc]
  failed := by
    rw [List.forall_mem_append, List.forall_mem_singleton]
    exact h.failed.trans (and_iff_left hc).symm
  copied c' hc' harchives := by
    rcases List.mem_append.1 hc' with hc' | hc'
    · obtain ⟨copy', hcopy, hshown⟩ := h.copied c' hc' harchives
      exact ⟨copy', List.mem_append_left _ hcopy, hshown⟩
    · rw [List.mem_singleton.1 hc']
      exact ⟨copy, List.mem_append_right _ List.mem_cons_self, harchived, hpath⟩
  through copy' hcopy hthrough := by
    rcases List.mem_append.1 hcopy with hcopy | hcopy
    · obtain ⟨c', hc', hshown⟩ := h.through copy' hcopy hthrough
      exact ⟨c', List.mem_append_left _ hc', hshown⟩
    · rw [List.mem_singleton.1 hcopy]
      exact ⟨c, List.mem_append_right _ List.mem_cons_self, hc, hpath.symm⟩

theorem Counted.concat_failed {done : List PushIngest.Copying} {progress : PushProgress} (h : Counted sha256 ingest done progress)
    {c : PushIngest.Copying} (hc : ¬ingest.Archives sha256 c) {copies : List TapeCopy} (hnone : ∀ copy ∈ copies, copy.archived = false) :
    Counted sha256 ingest (done ++ [c])
      { progress with copies := progress.copies ++ copies, filesFailed := progress.filesFailed + 1 } where
  processed := by
    rw [List.forall_mem_append, List.forall_mem_singleton]
    exact h.processed.trans (and_iff_left hc).symm
  failed := by simp [List.forall_mem_append, hc]
  copied c' hc' harchives := by
    rcases List.mem_append.1 hc' with hc' | hc'
    · obtain ⟨copy, hcopy, hshown⟩ := h.copied c' hc' harchives
      exact ⟨copy, List.mem_append_left _ hcopy, hshown⟩
    · exact absurd (List.mem_singleton.1 hc' ▸ harchives) hc
  through copy hcopy hthrough := by
    rcases List.mem_append.1 hcopy with hcopy | hcopy
    · obtain ⟨c', hc', hshown⟩ := h.through copy hcopy hthrough
      exact ⟨c', List.mem_append_left _ hc', hshown⟩
    · rw [hnone copy hcopy] at hthrough
      cases hthrough

section file

variable (a : Nat) (barcode : Barcode) (file : String × Nat) (progress : PushProgress)

theorem ingestFile_verified (h : CopiesVerified sha256 ingest progress) :
    CopiesVerified sha256 ingest (ingest.ingestFile sha256 a barcode file progress).2 := by
  unfold PushIngest.ingestFile
  dsimp only
  split
  · exact h
  · have happend : ∀ copies : List TapeCopy, (∀ copy ∈ copies, copy.archived = true →
        sha256 copy.content = sha256 (ingest.readSourceBytes copy.relativePath)) →
        ∀ copy ∈ progress.copies ++ copies, copy.archived = true →
          sha256 copy.content = sha256 (ingest.readSourceBytes copy.relativePath) :=
      fun copies hcopies copy hcopy => (List.mem_append.1 hcopy).elim (h copy) (hcopies copy)
    rcases writeCopy_cases sha256 ingest (ingest.events.file a file.2) barcode file.1 with
      ⟨-, content, hsame, heq⟩ | ⟨-, copies, heq, hnone⟩
    · rw [heq]
      refine happend _ fun copy hcopy _ => ?_
      rw [List.mem_singleton.1 hcopy]
      exact hsame
    · rw [heq]
      dsimp only
      have hcopies := happend copies fun copy hcopy harchived => absurd harchived (by simp [hnone copy hcopy])
      rw [if_neg Bool.false_ne_true]
      split
      · exact hcopies
      · split <;> exact hcopies

theorem ingestFile_ok_iff :
    (ingest.ingestFile sha256 a barcode file progress).1 = .ok () ↔ ¬ingest.StopsAt sha256 ⟨a, file.2, barcode, file.1⟩ := by
  unfold PushIngest.ingestFile PushIngest.StopsAt PushIngest.Archives
  dsimp only
  cases hstops : (ingest.events.file a file.2).stops with
  | some e => simp
  | none =>
    rcases writeCopy_cases sha256 ingest (ingest.events.file a file.2) barcode file.1 with
      ⟨hthrough, content, hsame, heq⟩ | ⟨hfails, copies, heq, hnone⟩
    · rw [heq]
      simp [hthrough]
    · rw [heq]
      dsimp only
      rw [if_neg Bool.false_ne_true]
      cases hrecording : (ingest.events.file a file.2).recording with
      | some e => simp [hfails]
      | none => cases hpart : ingest.allowPartialDatasetSuccess <;> simp [hfails]

theorem ingestFile_counted {done : List PushIngest.Copying} (h : Counted sha256 ingest done progress)
    (hok : (ingest.ingestFile sha256 a barcode file progress).1 = .ok ()) :
    Counted sha256 ingest (done ++ [⟨a, file.2, barcode, file.1⟩]) (ingest.ingestFile sha256 a barcode file progress).2 := by
  unfold PushIngest.ingestFile at hok ⊢
  dsimp only at hok ⊢
  cases hstops : (ingest.events.file a file.2).stops with
  | some e =>
    rw [hstops] at hok
    cases hok
  | none =>
    rw [hstops] at hok
    rcases writeCopy_cases sha256 ingest (ingest.events.file a file.2) barcode file.1 with
      ⟨hthrough, content, hsame, heq⟩ | ⟨hfails, copies, heq, hnone⟩
    · rw [heq]
      exact h.concat_archived (c := ⟨a, file.2, barcode, file.1⟩) hthrough rfl rfl
    · have hcounted := h.concat_failed (c := ⟨a, file.2, barcode, file.1⟩) hfails hnone
      rw [heq] at hok ⊢
      dsimp only at hok ⊢
      rw [if_neg Bool.false_ne_true] at hok ⊢
      cases hrecording : (ingest.events.file a file.2).recording with
      | some e =>
        rw [hrecording] at hok
        cases hok
      | none =>
        dsimp only
        split <;> exact hcounted

end file

theorem mem_zipIdx_copyings {assignment : TapeAssignment × Nat} {c : PushIngest.Copying} :
    c ∈ PushIngest.copyingsOf assignment ↔
      ∃ file ∈ assignment.1.files.zipIdx, c = ⟨assignment.2, file.2, assignment.1.barcode, file.1⟩ := by
  unfold PushIngest.copyingsOf
  rw [List.mem_map]
  exact ⟨fun ⟨file, hfile, heq⟩ => ⟨file, hfile, heq.symm⟩, fun ⟨file, hfile, heq⟩ => ⟨file, hfile, heq.symm⟩⟩

section assignment

variable (assignment : TapeAssignment × Nat) (progress : PushProgress)

theorem writeAssignment_verified (h : CopiesVerified sha256 ingest progress) :
    CopiesVerified sha256 ingest (ingest.writeAssignment sha256 assignment progress).2 := by
  have hfiles : CopiesVerified sha256 ingest
      (untilRaised (ingest.ingestFile sha256 assignment.2 assignment.1.barcode) assignment.1.files.zipIdx progress).2 :=
    untilRaised_keeps (fun file _ progress h => ingestFile_verified assignment.2 assignment.1.barcode file progress h) h
  unfold PushIngest.writeAssignment
  split
  · exact h
  · split
    · exact h
    · dsimp only
      split <;> exact hfiles

theorem files_ok_iff :
    (untilRaised (ingest.ingestFile sha256 assignment.2 assignment.1.barcode) assignment.1.files.zipIdx progress).1 = .ok () ↔
      ∀ c ∈ PushIngest.copyingsOf assignment, ¬ingest.StopsAt sha256 c := by
  rw [untilRaised_ok_iff fun file _ progress => ingestFile_ok_iff assignment.2 assignment.1.barcode file progress]
  constructor
  · intro h c hc
    obtain ⟨file, hfile, rfl⟩ := mem_zipIdx_copyings.1 hc
    exact h file hfile
  · exact fun h file hfile => h _ (mem_zipIdx_copyings.2 ⟨file, hfile, rfl⟩)

theorem writeAssignment_ok_iff :
    (ingest.writeAssignment sha256 assignment progress).1 = .ok () ↔ ¬ingest.BreaksAt sha256 assignment := by
  have hfiles := @files_ok_iff sha256 ingest assignment progress
  unfold PushIngest.writeAssignment PushIngest.BreaksAt
  cases hcancelled : ingest.events.cancelled assignment.2 with
  | true => simp
  | false =>
    cases hopening : ingest.events.opening assignment.2 with
    | some e => simp
    | none =>
      cases hclosing : ingest.events.closing assignment.2 with
      | some e => simp
      | none =>
        simp only [Bool.false_eq_true, if_false, Option.isSome_none, false_or, not_exists, not_and]
        exact hfiles

theorem writeAssignment_counted {done : List PushIngest.Copying} (h : Counted sha256 ingest done progress)
    (hok : (ingest.writeAssignment sha256 assignment progress).1 = .ok ()) :
    Counted sha256 ingest (done ++ PushIngest.copyingsOf assignment) (ingest.writeAssignment sha256 assignment progress).2 := by
  have hbreaks := (writeAssignment_ok_iff assignment progress).1 hok
  simp only [PushIngest.BreaksAt, not_or, not_exists, not_and] at hbreaks
  obtain ⟨hcancelled, hopening, hclosing, hstops⟩ := hbreaks
  have hcounted := untilRaised_ok (I := Counted sha256 ingest)
    (g := fun file => [(⟨assignment.2, file.2, assignment.1.barcode, file.1⟩ : PushIngest.Copying)])
    (fun file _ done progress h hok => ingestFile_counted assignment.2 assignment.1.barcode file progress h hok) h
    ((files_ok_iff assignment progress).2 hstops)
  rw [Bool.not_eq_true] at hcancelled
  rw [Option.not_isSome_iff_eq_none] at hopening hclosing
  unfold PushIngest.writeAssignment
  rw [hcancelled, hopening, hclosing, if_neg Bool.false_ne_true]
  rwa [← List.map_eq_flatMap] at hcounted

end assignment

theorem prepare_ok_iff (ingest : PushIngest) : ingest.prepare = .ok () ↔
    ingest.events.preparing = none ∧ ∀ path ∈ ingest.assignments.flatMap TapeAssignment.files, ingest.workspace.get? path ≠ none := by
  unfold PushIngest.prepare
  cases hpreparing : ingest.events.preparing with
  | some e => simp
  | none =>
    dsimp only
    cases hfind : (ingest.assignments.flatMap TapeAssignment.files).find? fun path => ingest.workspace.get? path = none with
    | none =>
      rw [List.find?_eq_none] at hfind
      simpa using hfind
    | some path =>
      have hmissing := List.find?_some hfind
      simp only [reduceCtorEq, true_and, false_iff]
      exact fun h => h path (List.mem_of_find?_eq_some hfind) (of_decide_eq_true hmissing)

/-- The files that the ingest is to write are those of its assignments. -/
theorem exists_copying_iff (ingest : PushIngest) (path : String) :
    (∃ c ∈ ingest.copyings, c.path = path) ↔ path ∈ ingest.assignments.flatMap TapeAssignment.files := by
  constructor
  · rintro ⟨c, hc, rfl⟩
    obtain ⟨assignment, hassignment, hc⟩ := List.mem_flatMap.1 hc
    obtain ⟨file, hfile, rfl⟩ := mem_zipIdx_copyings.1 hc
    exact List.mem_flatMap.2 ⟨assignment.1, List.fst_mem_of_mem_zipIdx hassignment, List.fst_mem_of_mem_zipIdx hfile⟩
  · intro hpath
    obtain ⟨assignment, hassignment, hfile⟩ := List.mem_flatMap.1 hpath
    obtain ⟨a, ha⟩ := List.mem_iff_getElem?.1 hassignment
    obtain ⟨k, hk⟩ := List.mem_iff_getElem?.1 hfile
    exact ⟨⟨a, k, assignment.barcode, path⟩, List.mem_flatMap.2 ⟨(assignment, a), List.mem_zipIdx_iff_getElem?.2 ha,
      mem_zipIdx_copyings.2 ⟨(path, k), List.mem_zipIdx_iff_getElem?.2 hk, rfl⟩⟩, rfl⟩

/-- The loop over the assignments ends normally. -/
def LoopEnds (sha256 : Bytes → String) (ingest : PushIngest) : Prop :=
  ∀ assignment ∈ ingest.assignments.zipIdx, ¬ingest.BreaksAt sha256 assignment

theorem loop_ok_iff (sha256 : Bytes → String) (ingest : PushIngest) :
    (untilRaised (ingest.writeAssignment sha256) ingest.assignments.zipIdx {}).1 = .ok () ↔ LoopEnds sha256 ingest :=
  untilRaised_ok_iff fun assignment _ progress => writeAssignment_ok_iff assignment progress

theorem loop_counted (h : LoopEnds sha256 ingest) : Counted sha256 ingest ingest.copyings
    (untilRaised (ingest.writeAssignment sha256) ingest.assignments.zipIdx {}).2 := by
  have hcounted := untilRaised_ok (I := Counted sha256 ingest) (g := PushIngest.copyingsOf)
    (fun assignment _ done progress h hok => writeAssignment_counted assignment progress h hok) (counted_nil sha256 ingest)
    ((loop_ok_iff sha256 ingest).2 h)
  rwa [List.nil_append] at hcounted

theorem loop_verified (sha256 : Bytes → String) (ingest : PushIngest) : CopiesVerified sha256 ingest
    (untilRaised (ingest.writeAssignment sha256) ingest.assignments.zipIdx {}).2 :=
  untilRaised_keeps (fun assignment _ progress h => writeAssignment_verified assignment progress h)
    fun copy hcopy => absurd hcopy List.not_mem_nil

theorem not_brokenOff_iff (sha256 : Bytes → String) (ingest : PushIngest) : ¬ingest.BrokenOff sha256 ↔
    ingest.prepare = .ok () ∧ LoopEnds sha256 ingest ∧ ingest.events.completing = none ∧ ingest.events.finalizing = none := by
  rw [prepare_ok_iff]
  unfold PushIngest.BrokenOff LoopEnds
  simp only [not_or, Option.not_isSome_iff_eq_none, not_exists, not_and, and_assoc]

/-- The copies on tape are verified, and there are none if not every file is in the workspace. -/
theorem run_copies (sha256 : Bytes → String) (ingest : PushIngest) : CopiesVerified sha256 ingest (ingest.run sha256).2 ∧
    ((ingest.run sha256).2.copies ≠ [] → ingest.prepare = .ok ()) := by
  have hbody : CopiesVerified sha256 ingest (ingest.body sha256).2 ∧
      ((ingest.body sha256).2.copies ≠ [] → ingest.prepare = .ok ()) := by
    have hverified := loop_verified sha256 ingest
    unfold PushIngest.body
    cases hprepare : ingest.prepare with
    | error e => exact ⟨fun copy hcopy => absurd hcopy List.not_mem_nil, fun hne => absurd rfl hne⟩
    | ok u =>
      refine ⟨?_, fun _ => rfl⟩
      dsimp only
      split
      · rename_i heq
        rwa [heq] at hverified
      · rename_i heq
        rw [heq] at hverified
        split <;> exact hverified
  unfold PushIngest.run
  split
  · rename_i heq
    rwa [heq] at hbody
  · rename_i heq
    rw [heq] at hbody
    split
    · exact hbody
    · split <;> exact hbody

/-- The job ends as archived if the ingest is not broken off, and not all files fail; partial success is enough. -/
theorem run_archived_iff (sha256 : Bytes → String) (ingest : PushIngest) : (ingest.run sha256).1 = .ok .archived ↔
    ¬ingest.BrokenOff sha256 ∧ ((∀ c ∈ ingest.copyings, ingest.Archives sha256 c) → ingest.events.datasetMarkedArchived = true) ∧
      ((∀ c ∈ ingest.copyings, ¬ingest.Archives sha256 c) → ∀ c ∈ ingest.copyings, ingest.Archives sha256 c) := by
  have hrun : (ingest.run sha256).1 = .ok .archived ↔ (ingest.body sha256).1 = .ok .archived := by
    unfold PushIngest.run
    split
    · rename_i heq
      rw [heq]
    · rename_i heq
      rw [heq]
      simp only [reduceCtorEq, iff_false]
      split
      · exact fun h => nomatch h
      · split
        · exact fun h => nomatch h
        · split <;> exact fun h => nomatch h
  rw [hrun, not_brokenOff_iff]
  unfold PushIngest.body
  cases hprepare : ingest.prepare with
  | error e => simp
  | ok u =>
    have hok := loop_ok_iff sha256 ingest
    have hcounted := @loop_counted sha256 ingest
    dsimp only
    split
    · rename_i e progress heq
      rw [heq] at hok
      have hnot : ¬LoopEnds sha256 ingest := fun h => nomatch hok.2 h
      simp [hnot]
    · rename_i progress heq
      rw [heq] at hok hcounted
      have hends : LoopEnds sha256 ingest := hok.1 rfl
      obtain ⟨hprocessed, hfailed, -⟩ := hcounted hends
      split
      · rename_i hcompleting
        simp [hcompleting]
      · rename_i hcompleting
        simp only [hends, hcompleting, true_and, ← hprocessed, ← hfailed]
        unfold PushIngest.finalizeJob
        cases hfinalizing : ingest.events.finalizing with
        | some e =>
          simp only [reduceCtorEq, false_and, iff_false]
          split
          · exact fun h => nomatch h
          · split <;> exact fun h => nomatch h
        | none =>
          by_cases hp : progress.filesProcessed = 0 <;> by_cases hf : progress.filesFailed = 0 <;>
            cases hmarked : ingest.events.datasetMarkedArchived <;> simp [hp, hf]

/-- Where the job ends as archived, the files that go through are those with an archived copy on tape. -/
theorem run_counted (h : (ingest.run sha256).1 = .ok .archived) : Counted sha256 ingest ingest.copyings (ingest.run sha256).2 := by
  obtain ⟨hbroken, -, -⟩ := (run_archived_iff sha256 ingest).1 h
  obtain ⟨hprepare, hends, hcompleting, -⟩ := (not_brokenOff_iff sha256 ingest).1 hbroken
  have hok := (loop_ok_iff sha256 ingest).2 hends
  have hbody : (ingest.body sha256).2 = (untilRaised (ingest.writeAssignment sha256) ingest.assignments.zipIdx {}).2 := by
    unfold PushIngest.body
    rw [hprepare, hcompleting]
    dsimp only
    split <;> rename_i heq <;> rw [heq]
  have hrun : (ingest.run sha256).2 = (ingest.body sha256).2 := by
    unfold PushIngest.run
    split
    · rename_i heq
      rw [heq]
    · rename_i heq
      rw [heq]
      split
      · rfl
      · split <;> rfl
  rw [hrun, hbody]
  exact loop_counted hends

end ingest

/-! ### The push -/

section push

variable {push : SharePush} {text : PlannerText} {plan : ArchivePlan} {stage : PushStage}

theorem nodup_keys_foldl {α : Type} {f : Dict Barcode Int → α → Dict Barcode Int}
    (hf : ∀ d x, d.keys.Nodup → (f d x).keys.Nodup) {d : Dict Barcode Int} (hd : d.keys.Nodup) (xs : List α) :
    (xs.foldl f d).keys.Nodup := by
  induction xs generalizing d with
  | nil => exact hd
  | cons x xs ih => exact ih (hf d x hd)

theorem nodup_keys_serverDataTapes (upper : String → String) (cartridges : List Cartridge)
    (slots : Option (List (Nat × Option Barcode))) : (serverDataTapes upper cartridges slots).keys.Nodup := by
  have hknown : (knownCapacities cartridges slots).keys.Nodup := by
    have hnil : Dict.keys ([] : Dict Barcode Int) |>.Nodup := List.nodup_nil
    refine nodup_keys_foldl (fun d cartridge hd => ?_) (nodup_keys_foldl (fun d slot hd => ?_) hnil _) _
    · unfold addCartridgeCapacity
      split
      · exact hd
      · exact Dict.nodup_keys_set hd
    · unfold addSlotCapacity
      split
      · exact Dict.nodup_keys_set hd
      · exact hd
  unfold serverDataTapes Dict.keys
  rw [List.map_map]
  simp only [Function.comp_def, List.map_id']
  exact ((List.perm_insertionSort _ _).nodup_iff.2 hknown).filter _

/-- A push that starts a job has copied its files, and its plan is a safe one for them. -/
theorem pushed_of_ok (h : push.pushStagedFilesToShare text = .ok (plan, stage)) :
    ∃ targetPrefix, targetPrefix.toList.head? ≠ some '/' ∧ push.selectedIds ≠ [] ∧
      Copied push targetPrefix push.selectedIds push.selectedIds.length stage ∧
      archivePlan text (push.planRequest text.upper stage) = .ok plan ∧ plan.isSafeToEnqueue = true := by
  unfold SharePush.pushStagedFilesToShare at h
  split at h
  · cases h
  · rename_i hselected
    obtain ⟨targetPrefix, hpref, h⟩ := Effects.bind_eq_ok.1 h
    obtain ⟨stage', hstage, h⟩ := Effects.bind_eq_ok.1 h
    obtain ⟨plan', hplan, h⟩ := Effects.bind_eq_ok.1 h
    obtain ⟨u, -, h⟩ := Effects.bind_eq_ok.1 h
    obtain ⟨rfl, rfl⟩ := Prod.mk.inj (Except.ok.inj h)
    refine ⟨targetPrefix, head_normalizeTargetPrefix hpref, hselected,
      (copied_nil push targetPrefix push.selectedIds).stageFiles hstage (Nat.zero_le _), ?_⟩
    unfold SharePush.planSharePush at hplan
    split at hplan
    · cases hplan
    · rename_i found hfound
      split at hplan
      · cases hplan
      · rename_i hsafe
        obtain rfl := Except.ok.inj hplan
        exact ⟨hfound, by simpa using hsafe⟩

/-- The files of the plan are those that were copied. -/
theorem plan_files (h : push.pushStagedFilesToShare text = .ok (plan, stage)) (path : String) :
    path ∈ plan.tapeAssignments.flatMap TapeAssignment.files ↔ path ∈ stage.relativeFiles := by
  obtain ⟨targetPrefix, hpref, -, hcopied, hplan, hsafe⟩ := pushed_of_ok h
  have hrelative : ∀ path ∈ stage.relativeFiles, makeRelative path (some push.workspace) = path := by
    intro path hpath
    obtain ⟨k, hk⟩ := List.mem_iff_getElem?.1 hpath
    have hlt : k < push.selectedIds.length := hcopied.length ▸ (List.getElem?_eq_some_iff.1 hk).1
    have hfile : push.selectedIds[k]? = some push.selectedIds[k] := List.getElem?_eq_getElem hlt
    obtain ⟨name, hname, hnamed⟩ := hcopied.named k _ hlt hfile
    obtain ⟨content, hchecked⟩ := hcopied.checked k _ hlt hfile
    obtain ⟨record, -, -, hbase⟩ := hchecked.record
    obtain rfl := Option.some.inj (hk.symm.trans hname)
    refine makeRelative_eq_self push.absolute (head_underPrefix hpref ?_)
    by_cases htaken : NameTaken push.baseName push.selectedIds k (push.baseName push.selectedIds[k])
    · rw [hnamed.second htaken]
      obtain ⟨c, chars, hchars, hc⟩ := head_of_matchesForm hchecked.valid
      exact ⟨c, chars ++ "-".toList ++ (push.baseName push.selectedIds[k]).toList, by simp [secondName, hchars], hc⟩
    · rw [hnamed.own htaken, hbase]
      exact sanitizeFilename_spec _
  obtain ⟨-, ⟨share, hplaces⟩, -⟩ := archivePlan_places (nodup_keys_serverDataTapes ..) hplan hsafe
  have hsource : (push.planRequest text.upper stage).sourcePath = some push.workspace := rfl
  have hmem : ∀ {path assignment}, assignment ∈ plan.tapeAssignments → (path ∈ share assignment.barcode → path ∈ stage.relativeFiles) :=
    fun hassignment hshare => hplaces.holds.subset (List.mem_flatMap.2 ⟨_, hassignment, hshare⟩)
  constructor
  · intro hpath
    obtain ⟨assignment, hassignment, hfile⟩ := List.mem_flatMap.1 hpath
    rw [(hplaces.records assignment hassignment).files, hsource] at hfile
    obtain ⟨file, hshare, rfl⟩ := List.mem_map.1 hfile
    have hcopiedFile := hmem hassignment hshare
    rwa [hrelative file hcopiedFile]
  · intro hpath
    obtain ⟨assignment, hassignment, hshare⟩ := List.mem_flatMap.1 (hplaces.holds.symm.subset hpath)
    refine List.mem_flatMap.2 ⟨assignment, hassignment, ?_⟩
    rw [(hplaces.records assignment hassignment).files, hsource]
    exact List.mem_map.2 ⟨path, hshare, hrelative path hpath⟩

end push

end PushAux

/-! ### The push and its job -/

/-- Only the record of a file that is on tape with its own content is deleted, and every file is archived with its own content under
a name that no other file of the push has. -/
structure PushSafe (sha256 : Bytes → String) (push : SharePush) (ended : PushEnd) : Prop where
  deleted : ∀ record ∈ push.records, record ∉ ended.records → ∃ content path, push.stagedContent record.id = some content ∧
    ended.stage.Pushed record.id path ∧
    ∃ copy ∈ ended.copies, copy.archived = true ∧ copy.relativePath = path ∧ sha256 copy.content = sha256 content
  own : ∀ copy ∈ ended.copies, copy.archived = true → ∀ fileId, ended.stage.Pushed fileId copy.relativePath →
    ∃ content, push.stagedContent fileId = some content ∧ sha256 copy.content = sha256 content
  apart : ∀ fileId path fileId' path', ended.stage.Pushed fileId path → ended.stage.Pushed fileId' path' → fileId ≠ fileId' →
    path ≠ path'

/-- The ingest of a push does not succeed in part: it is broken off, or it archives nothing, or it archives every file whose record is
deleted then. -/
def PushJob.AllOrNone (sha256 : Bytes → String) (job : PushJob) (plan : ArchivePlan) (stage : PushStage) : Prop :=
  (job.ingest plan stage).BrokenOff sha256 ∨
    (∀ c ∈ (job.ingest plan stage).copyings, ¬(job.ingest plan stage).Archives sha256 c) ∨
    ∀ fileId ∈ job.deletedIds stage.stagedFileIds, ∃ c ∈ (job.ingest plan stage).copyings,
      (job.ingest plan stage).Archives sha256 c ∧ stage.Pushed fileId c.path

open PushAux

/-- A push deletes records of archived files only, and archives the files apart, exactly if its ingest does not succeed in part and no
file has the second name of a later one that needs it. -/
theorem push_safe_iff (sha256 : Bytes → String) (text : PlannerText) (push : SharePush) (job : PushJob) {plan : ArchivePlan}
    {stage : PushStage} (hpush : push.pushStagedFilesToShare text = .ok (plan, stage)) :
    PushSafe sha256 push (job.runSharePushIngestJob sha256 push.records plan stage) ↔
      NamesApart push.baseName push.selectedIds ∧ job.AllOrNone sha256 plan stage := by
  obtain ⟨targetPrefix, hpref, hselected, hcopied, hplan, hsafe⟩ := pushed_of_ok hpush
  have hfiles : stage.stagedFileIds = push.selectedIds := hcopied.files.trans List.take_length
  have hassigned : ∀ path, (∃ c ∈ (job.ingest plan stage).copyings, c.path = path) ↔ path ∈ stage.relativeFiles := by
    intro path
    rw [exists_copying_iff]
    exact plan_files hpush path
  have hpushed : ∀ fileId ∈ stage.stagedFileIds, ∃ path ∈ stage.relativeFiles, stage.Pushed fileId path := by
    intro fileId hfile
    obtain ⟨k, hk⟩ := List.mem_iff_getElem?.1 hfile
    have hlt : k < stage.relativeFiles.length := by
      rw [hcopied.length, ← hfiles]
      exact (List.getElem?_eq_some_iff.1 hk).1
    exact ⟨_, List.getElem_mem hlt, k, hk, List.getElem?_eq_getElem hlt⟩
  have hstaged : ∀ fileId ∈ job.deletedIds stage.stagedFileIds, fileId ∈ stage.stagedFileIds := by
    intro fileId hfile
    unfold PushJob.deletedIds at hfile
    split at hfile
    · exact List.mem_of_mem_take hfile
    · exact hfile
  constructor
  · intro hsafe'
    refine ⟨hcopied.apart_iff.1 hsafe'.apart, ?_⟩
    by_contra hnot
    simp only [PushJob.AllOrNone, not_or] at hnot
    obtain ⟨hbroken, hsome, hleft⟩ := hnot
    by_cases harchived : ((job.ingest plan stage).run sha256).1 = .ok .archived
    · refine hleft fun fileId hfile => ?_
      obtain ⟨k, hk⟩ := List.mem_iff_getElem?.1 (hfiles ▸ hstaged fileId hfile)
      obtain ⟨content, hchecked⟩ := hcopied.checked k fileId (List.getElem?_eq_some_iff.1 hk).1 hk
      obtain ⟨record, hrecord, rfl, -⟩ := hchecked.record
      have hgone : record ∉ (job.runSharePushIngestJob sha256 push.records plan stage).records := by
        simp [PushJob.runSharePushIngestJob, harchived, hfile]
      obtain ⟨content', path, -, hpath, copy, hcopy, hthrough, hname, -⟩ := hsafe'.deleted record hrecord hgone
      obtain ⟨c, hc, harchives, hcpath⟩ := (run_counted harchived).through copy hcopy hthrough
      exact ⟨c, hc, harchives, hcpath.trans hname ▸ hpath⟩
    · rw [run_archived_iff] at harchived
      have hall : ∀ c ∈ (job.ingest plan stage).copyings, (job.ingest plan stage).Archives sha256 c := by
        by_contra hnotall
        exact harchived ⟨hbroken, fun h => absurd h hnotall, fun hnone => absurd hnone hsome⟩
      refine hleft fun fileId hfile => ?_
      obtain ⟨path, hpath, hpush'⟩ := hpushed fileId (hstaged fileId hfile)
      obtain ⟨c, hc, rfl⟩ := (hassigned path).2 hpath
      exact ⟨c, hc, hall c hc, hpush'⟩
  · rintro ⟨hnames, hall⟩
    have hapart := hcopied.apart_iff.2 hnames
    have hown : ∀ copy ∈ ((job.ingest plan stage).run sha256).2.copies, copy.archived = true → ∀ fileId,
        stage.Pushed fileId copy.relativePath →
        ∃ content, push.stagedContent fileId = some content ∧ sha256 copy.content = sha256 content := by
      intro copy hcopy hthrough fileId hfile
      obtain ⟨hverified, havailable⟩ := run_copies sha256 (job.ingest plan stage)
      obtain ⟨-, hinside⟩ := (prepare_ok_iff _).1 (havailable (List.ne_nil_of_mem hcopy))
      have hmem : copy.relativePath ∈ stage.relativeFiles := by
        obtain ⟨k, -, hk⟩ := hfile
        exact List.mem_of_getElem? hk
      have hthere := hinside _ ((plan_files hpush _).2 hmem)
      obtain ⟨fileId', content, hfile', hcontent, hget⟩ := hcopied.inside _ hmem fun hstray => hthere (hstray ▸ hcopied.outside)
      obtain rfl : fileId' = fileId := by
        by_contra hne
        exact hapart fileId' _ fileId _ hfile' hfile hne rfl
      refine ⟨content, hcontent, (hverified copy hcopy hthrough).trans ?_⟩
      unfold PushIngest.readSourceBytes
      rw [show (job.ingest plan stage).workspace.get? copy.relativePath = some content from hget, Option.getD_some]
    refine ⟨?_, hown, hapart⟩
    intro record hrecord hgone
    by_cases harchived : ((job.ingest plan stage).run sha256).1 = .ok .archived
    · have hfile : record.id ∈ job.deletedIds stage.stagedFileIds := by
        simpa [PushJob.runSharePushIngestJob, harchived, hrecord] using hgone
      obtain ⟨hbroken, -, hpart⟩ := (run_archived_iff sha256 _).1 harchived
      obtain ⟨c, hc, harchives, hpath⟩ : ∃ c ∈ (job.ingest plan stage).copyings,
          (job.ingest plan stage).Archives sha256 c ∧ stage.Pushed record.id c.path := by
        rcases hall with hoff | hnone | heach
        · exact absurd hoff hbroken
        · obtain ⟨path, hpath, -⟩ := hpushed record.id (hstaged _ hfile)
          obtain ⟨c, hc, -⟩ := (hassigned path).2 hpath
          exact absurd (hpart hnone c hc) (hnone c hc)
        · exact heach _ hfile
      obtain ⟨copy, hcopy, hthrough, hname⟩ := (run_counted harchived).copied c hc harchives
      obtain ⟨content, hcontent, hsame⟩ := hown copy hcopy hthrough record.id (hname ▸ hpath)
      exact ⟨content, c.path, hcontent, hpath, copy, hcopy, hthrough, hname, hsame⟩
    · refine absurd ?_ hgone
      unfold PushJob.runSharePushIngestJob
      dsimp only
      split
      · rename_i heq
        exact absurd heq harchived
      · exact hrecord

/-! ### Pushes of letters -/

/-- A checksum that tells the bytes. -/
def letterSum (bytes : Bytes) : String := String.ofList (bytes.map fun byte => Char.ofNat byte.toNat)

def mayId : String := "00000000-0000-4000-8000-000000000001"

def juneId : String := "00000000-0000-4000-8000-000000000002"

/-- Two letters that are staged for a pool with one tape. -/
def letterPush (fileIds : List String) : SharePush where
  poolId := "mail"
  policy := { id := "keep" }
  fileIds := fileIds
  records :=
    [{ id := mayId, datasetId := "file-station-staging-mail", poolId := some "mail", relativePath := "may.txt", status := .onlineCached },
     { id := juneId, datasetId := "file-station-staging-mail", poolId := some "mail", relativePath := "june.txt", status := .onlineCached }]
  stagedContent fileId := if fileId = mayId then some [1] else if fileId = juneId then some [2] else none
  workspace := "/staging/push-jobs/1"
  absolute := by decide
  slots := some [(1, some "TAPE01")]
  now := .epoch

/-- One letter alone keeps its name, and is archived where nothing fails. -/
theorem push_safe_alone : ∃ plan stage, (letterPush [mayId]).pushStagedFilesToShare .ascii = .ok (plan, stage) ∧
    PushSafe letterSum (letterPush [mayId]) (PushJob.runSharePushIngestJob letterSum {} (letterPush [mayId]).records plan stage) := by
  obtain ⟨⟨plan, stage⟩, hpush, hassignments, hstage⟩ :
      ∃ started, (letterPush [mayId]).pushStagedFilesToShare .ascii = .ok started ∧
        "may.txt" ∈ started.1.tapeAssignments.flatMap TapeAssignment.files ∧
        started.2.stagedFileIds = [mayId] ∧ started.2.relativeFiles = ["may.txt"] :=
    ⟨_, rfl, by decide +kernel⟩
  refine ⟨plan, stage, hpush, (push_safe_iff letterSum .ascii (letterPush [mayId]) {} hpush).2 ⟨?_, .inr (.inr ?_)⟩⟩
  · intro i j fileId fileId' hij hi hj
    have hj' := (List.getElem?_eq_some_iff.1 hj).1
    simp [SharePush.selectedIds, letterPush] at hj'
    omega
  · intro fileId hfile
    have hids : stage.stagedFileIds = [mayId] := hstage.1
    obtain rfl : fileId = mayId := by simpa [PushJob.deletedIds, hids] using hfile
    obtain ⟨c, hc, hpath⟩ := (exists_copying_iff (PushJob.ingest {} plan stage) "may.txt").2 hassignments
    exact ⟨c, hc, ⟨rfl, rfl, rfl⟩, 0, by rw [hids]; rfl, by rw [show stage.relativeFiles = _ from hstage.2, hpath]; rfl⟩

/-- The record of a letter that was not written is deleted with that of the letter that was. -/
theorem unwritten_letter_dropped : ∃ ended, (letterPush []).run letterSum .ascii
      { allowPartialDatasetSuccess := true, events := { file := fun _ i => if i = 0 then { fault := .beforeWrite } else {} } } = .ok ended ∧
    ¬PushSafe letterSum (letterPush []) ended := by
  obtain ⟨ended, hrun, hrecords, hcopies, hfiles, hpaths⟩ : ∃ ended, (letterPush []).run letterSum .ascii
      { allowPartialDatasetSuccess := true, events := { file := fun _ i => if i = 0 then { fault := .beforeWrite } else {} } } = .ok ended ∧
      ended.records = [] ∧ ended.copies.map TapeCopy.relativePath = ["may.txt"] ∧ ended.stage.stagedFileIds = [mayId, juneId] ∧
      ended.stage.relativeFiles = ["may.txt", "june.txt"] :=
    ⟨_, rfl, by decide +kernel⟩
  refine ⟨ended, hrun, fun hsafe => ?_⟩
  obtain ⟨content, path, -, hpath, copy, hcopy, -, hname, -⟩ :=
    hsafe.deleted _ (List.mem_cons_of_mem _ List.mem_cons_self) (by rw [hrecords]; exact List.not_mem_nil)
  have hmay : path = "may.txt" := by
    have hmem := List.mem_map_of_mem (f := TapeCopy.relativePath) hcopy
    rwa [hcopies, hname, List.mem_singleton] at hmem
  obtain ⟨k, hid, hk⟩ := hpath
  rw [hfiles] at hid
  rw [hpaths, hmay] at hk
  match k with
  | 0 => exact absurd (Option.some.inj hid) (by decide)
  | 1 => exact absurd (Option.some.inj hk) (by decide)
  | k + 2 => cases hid

end OpenBlade
