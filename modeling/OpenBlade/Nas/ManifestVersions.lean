import OpenBlade.Domain.Models

/-!
# Versioned manifests

`VersionedManifestWriter` (`nas/manifest_validator.py`): a manifest is written to a temp path that is named by the second of the
clock, and a commit reads the temp path again and copies what stands there. `versions_unmixed_iff` says in which runs of calls a
commit publishes what its own begin was given, and no version is lost.
-/

namespace OpenBlade

open Effects

/-- `naive_utcnow()`. -/
structure UtcTime where
  year : Nat
  month : Nat
  day : Nat
  hour : Nat
  minute : Nat
  second : Nat
  microsecond : Nat := 0
  deriving Repr, DecidableEq

/-- `f"{n:02d}"`. -/
def pad2 (n : Nat) : String := if n < 10 then "0" ++ toString n else toString n

/-- `strftime("%Y%m%dT%H%M%SZ")`. -/
def UtcTime.stamp (now : UtcTime) : String :=
  pad4 now.year ++ pad2 now.month ++ pad2 now.day ++ "T" ++ pad2 now.hour ++ pad2 now.minute ++ pad2 now.second ++ "Z"

/-- The texts of manifests: `json.dumps` with sorted keys and `json.loads`, which reads what was dumped, and `sha256`. -/
structure ManifestText (M : Type) where
  dump : M → String
  loads : String → Option M
  loads_dump : ∀ manifest, loads (dump manifest) = some manifest
  digest : String → String

/-- The files of a tape. -/
abbrev TapeFiles := Dict String String

def versionsDir : String := "/.openblade/versions"

def manifestPath : String := "/.openblade/manifest.json"

def manifestChecksumPath : String := "/.openblade/manifest.sha256"

/-- `_ensure_dir`: a directory is marked by an empty file. -/
def ensureDir (files : TapeFiles) (directory : String) : TapeFiles :=
  if (files.get? (directory ++ "/")).isSome then files else files.set (directory ++ "/") ""

/-- `ensure_openblade_dirs` and `_ensure_dir(VERSIONS_DIR)`. -/
def ensureVersionDirs (files : TapeFiles) : TapeFiles :=
  ["/.openblade", "/.openblade/datasets", "/.openblade/tape-sets", "/.openblade/shard-sets", versionsDir].foldl ensureDir files

/-- The temp path of a second. -/
def tempPathOf (now : UtcTime) : String := versionsDir ++ "/manifest." ++ now.stamp ++ ".tmp"

/-- `_validate_temp_path`. -/
def validateTempPath (tempPath : String) : Bool :=
  "/.openblade/versions/manifest.".toList.isPrefixOf tempPath.toList && ".tmp".toList.isSuffixOf tempPath.toList

/-- `temp_path.removesuffix(".tmp") + ".json"`. -/
def versionPathOf (tempPath : String) : String :=
  String.ofList (if ".tmp".toList.isSuffixOf tempPath.toList then tempPath.toList.take (tempPath.length - 4) else tempPath.toList) ++ ".json"

section calls

variable {M : Type} (text : ManifestText M)

/-- `begin_write`. -/
def beginWrite (now : UtcTime) (manifest : M) (files : TapeFiles) : String × TapeFiles :=
  (tempPathOf now, (ensureVersionDirs files).set (tempPathOf now) (text.dump manifest))

/-- `commit_write`. -/
def commitWrite (tempPath : String) (files : TapeFiles) : Except Exn String × TapeFiles :=
  if validateTempPath tempPath = false then
    (.error (valueError ("temp_path must be under /.openblade/versions/ and end with .tmp, got: " ++ tempPath)), files)
  else
    match files.get? tempPath with
    | none => (.error (valueError ("temp manifest not found: " ++ tempPath)), files)
    | some content =>
      match text.loads content with
      | none => (.error (valueError ("temp manifest at " ++ tempPath ++ " contains invalid JSON")), files)
      | some payload =>
        let checksum := text.digest (text.dump payload)
        let files := (ensureVersionDirs files).set (versionPathOf tempPath) content
        (.ok checksum, (files.set manifestPath content).set manifestChecksumPath checksum)

/-- `abort_write`. -/
def abortWrite (tempPath : String) (files : TapeFiles) : Except Exn String :=
  if validateTempPath tempPath = false then
    .error (valueError ("temp_path must be under /.openblade/versions/ and end with .tmp, got: " ++ tempPath))
  else if (files.get? tempPath).isNone then .error (valueError ("temp manifest not found: " ++ tempPath))
  else .ok ""

/-- A call of one of the writers of a tape. -/
inductive VersionCall (M : Type) where
  | beginWrite (now : UtcTime) (manifest : M)
  | commitWrite (tempPath : String)
  | abortWrite (tempPath : String)

namespace VersionCall

def isCommit : VersionCall M → Bool
  | commitWrite _ => true
  | _ => false

def isBegin : VersionCall M → Bool
  | beginWrite _ _ => true
  | _ => false

/-- What a call answers, and the files it leaves. -/
def step (files : TapeFiles) : VersionCall M → Except Exn String × TapeFiles
  | beginWrite now manifest => (.ok (OpenBlade.beginWrite text now manifest files).1, (OpenBlade.beginWrite text now manifest files).2)
  | commitWrite tempPath => OpenBlade.commitWrite text tempPath files
  | abortWrite tempPath => (OpenBlade.abortWrite tempPath files, files)

end VersionCall

/-- The files after calls of any writers, in the order in which they were made. -/
def filesAfter (start : TapeFiles) (calls : List (VersionCall M)) : TapeFiles := calls.foldl (fun files call => (call.step text files).2) start

/-- The temp paths that were given out, with the manifests they were given out for. -/
def begun (calls : List (VersionCall M)) : List (String × M) :=
  calls.filterMap fun
    | .beginWrite now manifest => some (tempPathOf now, manifest)
    | _ => none

/-- What writers rely on after a run of calls. -/
structure VersionsKept (start : TapeFiles) (calls : List (VersionCall M)) : Prop where
  /-- The last commit has made current the manifest that its begin was passed. -/
  current : ∀ before tempPath since manifest, calls = before ++ .commitWrite tempPath :: since → (∀ call ∈ since, call.isCommit = false) →
    (tempPath, manifest) ∈ begun before → (filesAfter text start calls).get? manifestPath = some (text.dump manifest) ∧
      (filesAfter text start calls).get? manifestChecksumPath = some (text.digest (text.dump manifest))
  /-- Every committed manifest is there as its own version. -/
  versions : ∀ before tempPath since manifest, calls = before ++ .commitWrite tempPath :: since → (tempPath, manifest) ∈ begun before →
    (filesAfter text start calls).get? (versionPathOf tempPath) = some (text.dump manifest)
  /-- No commit and no abort touches a pending version, or the committed version of another temp path. -/
  untouched : ∀ before call since, calls = before ++ call :: since → call.isBegin = false → ∀ tempPath manifest, (tempPath, manifest) ∈ begun before →
    (filesAfter text start (before ++ [call])).get? tempPath = (filesAfter text start before).get? tempPath ∧
      ((∀ other, call = .commitWrite other → other ≠ tempPath) →
        (filesAfter text start (before ++ [call])).get? (versionPathOf tempPath) = (filesAfter text start before).get? (versionPathOf tempPath))

/-- No temp path is committed after it was given out for two manifests. -/
def CommitsApart (calls : List (VersionCall M)) : Prop :=
  ∀ before tempPath since manifest other, calls = before ++ .commitWrite tempPath :: since →
    (tempPath, manifest) ∈ begun before → (tempPath, other) ∈ begun before → manifest = other

end calls

namespace VersionsAux

/-! ### Paths -/

theorem validateTempPath_iff {tempPath : String} :
    validateTempPath tempPath = true ↔ "/.openblade/versions/manifest.".toList <+: tempPath.toList ∧ ".tmp".toList <:+ tempPath.toList := by
  unfold validateTempPath
  rw [Bool.and_eq_true, List.isPrefixOf_iff_prefix, List.isSuffixOf_iff_suffix]

theorem suffix_tempPathOf (now : UtcTime) : ".tmp".toList <:+ (tempPathOf now).toList := by
  unfold tempPathOf
  rw [String.toList_append]
  exact List.suffix_append _ _

theorem validateTempPath_tempPathOf (now : UtcTime) : validateTempPath (tempPathOf now) = true := by
  refine validateTempPath_iff.2 ⟨?_, suffix_tempPathOf now⟩
  unfold tempPathOf
  rw [String.toList_append, String.toList_append, List.append_assoc]
  exact List.prefix_append _ _

/-- A path that marks no directory. -/
def IsFile (path : String) : Prop := path.toList.getLast? ≠ some '/'

instance (path : String) : Decidable (IsFile path) := inferInstanceAs (Decidable (_ ≠ _))

theorem isFile_append {path : String} (suffix : String) (h : suffix ≠ "") (hfile : IsFile suffix) : IsFile (path ++ suffix) := by
  unfold IsFile at hfile ⊢
  rw [String.toList_append, List.getLast?_append_of_ne_nil _ fun hnil => h (String.toList_inj.1 hnil)]
  exact hfile

theorem isFile_tempPathOf (now : UtcTime) : IsFile (tempPathOf now) := isFile_append ".tmp" (by decide) (by decide)

theorem isFile_versionPathOf (tempPath : String) : IsFile (versionPathOf tempPath) := isFile_append ".json" (by decide) (by decide)

/-- The last letter of a path, which tells temp paths and versions apart. -/
theorem last_tempPathOf (now : UtcTime) : (tempPathOf now).toList.getLast? = some 'p' := by
  unfold tempPathOf
  rw [String.toList_append, List.getLast?_append_of_ne_nil _ (by decide)]
  rfl

theorem last_versionPathOf (tempPath : String) : (versionPathOf tempPath).toList.getLast? = some 'n' := by
  unfold versionPathOf
  rw [String.toList_append, List.getLast?_append_of_ne_nil _ (by decide)]
  rfl

theorem tempPathOf_ne_versionPathOf (now : UtcTime) (tempPath : String) : tempPathOf now ≠ versionPathOf tempPath := fun h =>
  absurd ((last_tempPathOf now).symm.trans ((congrArg (fun p : String => p.toList.getLast?) h).trans (last_versionPathOf tempPath))) (by decide)

theorem tempPathOf_ne {now : UtcTime} {path : String} (h : path.toList.getLast? ≠ some 'p') : tempPathOf now ≠ path := fun heq =>
  h (heq ▸ last_tempPathOf now)

theorem toList_versionPathOf {tempPath : String} (h : ".tmp".toList <:+ tempPath.toList) :
    (versionPathOf tempPath).toList = tempPath.toList.take (tempPath.toList.length - 4) ++ ".json".toList := by
  unfold versionPathOf
  rw [if_pos (List.isSuffixOf_iff_suffix.2 h), String.toList_append, String.toList_ofList, String.length_toList]

theorem take_append_tmp {tempPath : String} (h : ".tmp".toList <:+ tempPath.toList) :
    tempPath.toList.take (tempPath.toList.length - 4) ++ ".tmp".toList = tempPath.toList := by
  obtain ⟨stem, hstem⟩ := h
  rw [← hstem, List.length_append]
  show (stem ++ _).take (stem.length + 4 - 4) ++ _ = _
  rw [Nat.add_sub_cancel, List.take_left]

/-- A version stands below the directory of versions, so it is none of the two current files. -/
theorem versionPathOf_ne {tempPath path : String} (hvalid : validateTempPath tempPath = true) (hpath : ¬"/.openblade/versions/".toList <+: path.toList) :
    versionPathOf tempPath ≠ path := by
  rintro rfl
  refine hpath ?_
  obtain ⟨hstart, hend⟩ := validateTempPath_iff.1 hvalid
  have hlong : 30 ≤ tempPath.toList.length := hstart.length_le
  rw [toList_versionPathOf hend]
  refine .trans ?_ (List.prefix_append _ _)
  refine List.prefix_of_prefix_length_le (.trans (List.prefix_append _ "manifest.".toList) hstart) (List.take_prefix _ _) ?_
  rw [List.length_take]
  exact le_min (show 21 ≤ _ by omega) (show 21 ≤ _ by omega)

/-- Temp paths that have one version are one. -/
theorem versionPathOf_inj {a b : String} (ha : validateTempPath a = true) (hb : validateTempPath b = true) (h : versionPathOf a = versionPathOf b) :
    a = b := by
  have hlists := congrArg String.toList h
  rw [toList_versionPathOf (validateTempPath_iff.1 ha).2, toList_versionPathOf (validateTempPath_iff.1 hb).2] at hlists
  rw [← String.toList_inj, ← take_append_tmp (validateTempPath_iff.1 ha).2, ← take_append_tmp (validateTempPath_iff.1 hb).2]
  rw [List.append_cancel_right hlists]

/-! ### Calls -/

section calls

variable {M : Type} {text : ManifestText M} {files : TapeFiles} {path : String}

theorem get?_ensureDir (h : IsFile path) (directory : String) : (ensureDir files directory).get? path = files.get? path := by
  unfold ensureDir
  split
  · rfl
  · rw [Dict.get?_set, if_neg]
    rintro rfl
    exact h (by rw [String.toList_append, List.getLast?_append_of_ne_nil _ (by decide)]; rfl)

theorem get?_ensureVersionDirs (h : IsFile path) : (ensureVersionDirs files).get? path = files.get? path := by
  simp only [ensureVersionDirs, List.foldl_cons, List.foldl_nil, get?_ensureDir h]

theorem get?_beginWrite (h : IsFile path) (now : UtcTime) (manifest : M) :
    (beginWrite text now manifest files).2.get? path = if tempPathOf now = path then some (text.dump manifest) else files.get? path := by
  unfold beginWrite
  rw [Dict.get?_set, get?_ensureVersionDirs h]

variable (text files) in
/-- A commit is refused and changes nothing, or copies what stands at the temp path. -/
theorem commitWrite_cases (tempPath : String) :
    (∃ e, commitWrite text tempPath files = (.error e, files)) ∨
    validateTempPath tempPath = true ∧ ∃ content payload, files.get? tempPath = some content ∧ text.loads content = some payload ∧
      (commitWrite text tempPath files).1 = .ok (text.digest (text.dump payload)) ∧
      ∀ path, IsFile path → (commitWrite text tempPath files).2.get? path =
        if manifestChecksumPath = path then some (text.digest (text.dump payload))
        else if manifestPath = path then some content else if versionPathOf tempPath = path then some content else files.get? path := by
  unfold commitWrite
  split
  · exact .inl ⟨_, rfl⟩
  · rename_i hvalid
    cases hcontent : files.get? tempPath with
    | none => exact .inl ⟨_, rfl⟩
    | some content =>
      dsimp only
      cases hpayload : text.loads content with
      | none => exact .inl ⟨_, rfl⟩
      | some payload =>
        refine .inr ⟨by simpa using hvalid, content, payload, rfl, hpayload, rfl, fun path hpath => ?_⟩
        dsimp only
        rw [Dict.get?_set, Dict.get?_set, Dict.get?_set, get?_ensureVersionDirs hpath]

/-- A pending version that is there is committed. -/
theorem commitWrite_pending {tempPath : String} {manifest : M} (hvalid : validateTempPath tempPath = true)
    (hcontent : files.get? tempPath = some (text.dump manifest)) (path : String) (hpath : IsFile path) :
    (commitWrite text tempPath files).2.get? path =
      if manifestChecksumPath = path then some (text.digest (text.dump manifest))
      else if manifestPath = path then some (text.dump manifest)
      else if versionPathOf tempPath = path then some (text.dump manifest) else files.get? path := by
  unfold commitWrite
  rw [if_neg (by simp [hvalid]), hcontent]
  dsimp only
  rw [text.loads_dump]
  dsimp only
  rw [Dict.get?_set, Dict.get?_set, Dict.get?_set, get?_ensureVersionDirs hpath]

/-- A pending version is changed by no commit and no abort. -/
theorem step_pending (now : UtcTime) {call : VersionCall M} (h : call.isBegin = false) :
    (call.step text files).2.get? (tempPathOf now) = files.get? (tempPathOf now) := by
  cases call with
  | beginWrite now manifest => cases h
  | abortWrite tempPath => rfl
  | commitWrite tempPath =>
    rcases commitWrite_cases text files tempPath with ⟨e, hrefused⟩ | ⟨-, content, payload, -, -, -, hget⟩
    · show (commitWrite text tempPath files).2.get? _ = _
      rw [hrefused]
    · refine (hget _ (isFile_tempPathOf now)).trans ?_
      rw [if_neg (tempPathOf_ne (by decide)).symm, if_neg (tempPathOf_ne (by decide)).symm, if_neg (tempPathOf_ne_versionPathOf now _).symm]

/-- A version is changed by no call but a commit of its own temp path. -/
theorem step_version {tempPath : String} (hvalid : validateTempPath tempPath = true) {call : VersionCall M}
    (h : ∀ other, call = .commitWrite other → other ≠ tempPath) :
    (call.step text files).2.get? (versionPathOf tempPath) = files.get? (versionPathOf tempPath) := by
  cases call with
  | beginWrite now manifest =>
    refine (get?_beginWrite (isFile_versionPathOf tempPath) now manifest).trans ?_
    rw [if_neg (tempPathOf_ne_versionPathOf now tempPath)]
  | abortWrite tempPath => rfl
  | commitWrite other =>
    rcases commitWrite_cases text files other with ⟨e, hrefused⟩ | ⟨hother, content, payload, -, -, -, hget⟩
    · show (commitWrite text other files).2.get? _ = _
      rw [hrefused]
    · refine (hget _ (isFile_versionPathOf tempPath)).trans ?_
      rw [if_neg (versionPathOf_ne hvalid (by decide)).symm, if_neg (versionPathOf_ne hvalid (by decide)).symm,
        if_neg fun heq => h other rfl (versionPathOf_inj hother hvalid heq)]

/-- What is current is changed by commits only. -/
theorem step_current {call : VersionCall M} (h : call.isCommit = false) (hpath : path = manifestPath ∨ path = manifestChecksumPath) :
    (call.step text files).2.get? path = files.get? path := by
  have hfile : IsFile path := by rcases hpath with rfl | rfl <;> decide
  have hlast : path.toList.getLast? ≠ some 'p' := by rcases hpath with rfl | rfl <;> decide
  cases call with
  | commitWrite tempPath => cases h
  | abortWrite tempPath => rfl
  | beginWrite now manifest =>
    refine (get?_beginWrite hfile now manifest).trans ?_
    rw [if_neg (tempPathOf_ne hlast)]

end calls

/-! ### Runs -/

section runs

variable {M : Type} {text : ManifestText M} {start : TapeFiles} {calls : List (VersionCall M)} {tempPath : String} {manifest : M}

theorem filesAfter_concat (calls : List (VersionCall M)) (call : VersionCall M) :
    filesAfter text start (calls ++ [call]) = (call.step text (filesAfter text start calls)).2 := by
  unfold filesAfter
  rw [List.foldl_append]
  rfl

theorem begun_append (calls more : List (VersionCall M)) : begun (calls ++ more) = begun calls ++ begun more := List.filterMap_append

theorem mem_begun_begin {now : UtcTime} {latest : M} : (tempPath, manifest) ∈ begun [.beginWrite now latest] ↔ tempPath = tempPathOf now ∧ manifest = latest := by
  show _ ∈ [(tempPathOf now, latest)] ↔ _
  rw [List.mem_singleton, Prod.mk.injEq]

theorem begun_other {call : VersionCall M} (h : call.isBegin = false) : begun [call] = [] := by
  cases call with
  | beginWrite now manifest => cases h
  | commitWrite path => rfl
  | abortWrite path => rfl

theorem exists_now (h : (tempPath, manifest) ∈ begun calls) : ∃ now, tempPath = tempPathOf now := by
  obtain ⟨call, -, hcall⟩ := List.mem_filterMap.1 h
  cases call with
  | beginWrite now manifest => exact ⟨now, (congrArg Prod.fst (Option.some.inj hcall)).symm⟩
  | commitWrite path => cases hcall
  | abortWrite path => cases hcall

variable (text start) in
/-- At a temp path that was given out stands a manifest that it was given out for: begins of one second write over each other, and
nothing else writes there. -/
theorem pending_content (h : (tempPath, manifest) ∈ begun calls) :
    ∃ written, (tempPath, written) ∈ begun calls ∧ (filesAfter text start calls).get? tempPath = some (text.dump written) := by
  induction calls using List.reverseRecOn generalizing manifest with
  | nil => cases h
  | append_singleton calls call ih =>
    obtain ⟨now, rfl⟩ := exists_now h
    rw [begun_append, List.mem_append] at h
    rw [filesAfter_concat]
    cases hbegin : call.isBegin with
    | true =>
      cases call with
      | commitWrite path => cases hbegin
      | abortWrite path => cases hbegin
      | beginWrite other latest =>
        rcases eq_or_ne (tempPathOf other) (tempPathOf now) with hsame | hother
        · refine ⟨latest, ?_, ?_⟩
          · rw [begun_append, List.mem_append, mem_begun_begin]
            exact .inr ⟨hsame.symm, rfl⟩
          · refine (get?_beginWrite (isFile_tempPathOf now) other latest).trans ?_
            rw [if_pos hsame]
        · have hbefore : (tempPathOf now, manifest) ∈ begun calls := h.resolve_right fun hlast => hother (mem_begun_begin.1 hlast).1.symm
          obtain ⟨written, hmem, hfile⟩ := ih hbefore
          refine ⟨written, ?_, ?_⟩
          · rw [begun_append]
            exact List.mem_append_left _ hmem
          · refine (get?_beginWrite (isFile_tempPathOf now) other latest).trans ?_
            rw [if_neg hother, hfile]
    | false =>
      have hbefore : (tempPathOf now, manifest) ∈ begun calls := h.resolve_right (by rw [begun_other hbegin]; exact List.not_mem_nil)
      obtain ⟨written, hmem, hfile⟩ := ih hbefore
      refine ⟨written, ?_, ?_⟩
      · rw [begun_append]
        exact List.mem_append_left _ hmem
      · rw [step_pending now hbegin, hfile]

variable (text start) in
/-- What a commit publishes, in the run up to it. -/
theorem committed_content (h : (tempPath, manifest) ∈ begun calls) :
    ∃ written, (tempPath, written) ∈ begun calls ∧ ∀ path, IsFile path →
      (filesAfter text start (calls ++ [.commitWrite tempPath])).get? path =
        if manifestChecksumPath = path then some (text.digest (text.dump written))
        else if manifestPath = path then some (text.dump written)
        else if versionPathOf tempPath = path then some (text.dump written) else (filesAfter text start calls).get? path := by
  obtain ⟨written, hmem, hfile⟩ := pending_content text start h
  obtain ⟨now, rfl⟩ := exists_now h
  refine ⟨written, hmem, fun path hpath => ?_⟩
  rw [filesAfter_concat]
  exact commitWrite_pending (validateTempPath_tempPathOf now) hfile path hpath

variable (text start) in
/-- What is current stays so until the next commit. -/
theorem current_stays {path : String} (hpath : path = manifestPath ∨ path = manifestChecksumPath) {since : List (VersionCall M)}
    (h : ∀ call ∈ since, call.isCommit = false) (calls : List (VersionCall M)) :
    (filesAfter text start (calls ++ since)).get? path = (filesAfter text start calls).get? path := by
  induction since using List.reverseRecOn with
  | nil => rw [List.append_nil]
  | append_singleton since call ih =>
    rw [← List.append_assoc, filesAfter_concat, step_current (h call (by simp)) hpath]
    exact ih fun call hmem => h call (List.mem_append_left _ hmem)

variable (text start) in
/-- A committed version is that of a commit of its own temp path. -/
theorem version_content {before : List (VersionCall M)} (since : List (VersionCall M)) (h : (tempPath, manifest) ∈ begun before) :
    ∃ earlier later written, before ++ .commitWrite tempPath :: since = earlier ++ .commitWrite tempPath :: later ∧
      (tempPath, written) ∈ begun earlier ∧ before <+: earlier ∧
      (filesAfter text start (before ++ .commitWrite tempPath :: since)).get? (versionPathOf tempPath) = some (text.dump written) := by
  have hcommit {calls : List (VersionCall M)} (h : (tempPath, manifest) ∈ begun calls) :
      ∃ written, (tempPath, written) ∈ begun calls ∧
        (filesAfter text start (calls ++ [.commitWrite tempPath])).get? (versionPathOf tempPath) = some (text.dump written) := by
    obtain ⟨written, hmem, hfiles⟩ := committed_content text start h
    obtain ⟨now, rfl⟩ := exists_now h
    have hvalid := validateTempPath_tempPathOf now
    refine ⟨written, hmem, (hfiles _ (isFile_versionPathOf _)).trans ?_⟩
    rw [if_neg (versionPathOf_ne hvalid (by decide)).symm, if_neg (versionPathOf_ne hvalid (by decide)).symm, if_pos rfl]
  induction since using List.reverseRecOn with
  | nil =>
    obtain ⟨written, hmem, hfile⟩ := hcommit h
    exact ⟨before, [], written, rfl, hmem, List.prefix_rfl, hfile⟩
  | append_singleton since call ih =>
    obtain ⟨earlier, later, written, hcalls, hmem, hbefore, hfile⟩ := ih
    rw [← List.cons_append, ← List.append_assoc]
    by_cases hown : call = .commitWrite tempPath
    · subst hown
      have hbegun : (tempPath, manifest) ∈ begun (before ++ .commitWrite tempPath :: since) := by
        rw [begun_append]
        exact List.mem_append_left _ h
      obtain ⟨again, hagain, hfile⟩ := hcommit hbegun
      exact ⟨_, [], again, rfl, hagain, List.prefix_append _ _, hfile⟩
    · obtain ⟨now, hnow⟩ := exists_now h
      refine ⟨earlier, later ++ [call], written, by rw [hcalls, List.append_assoc, List.cons_append], hmem, hbefore, ?_⟩
      rw [filesAfter_concat, step_version (hnow ▸ validateTempPath_tempPathOf now) ?_, hfile]
      rintro other rfl rfl
      exact hown rfl

end runs

end VersionsAux

open VersionsAux in
/-- In every interleaving of writers of a tape, with any clock and at every moment: a commit makes current what its begin was passed,
committed manifests stay available as their own versions, and commits and aborts touch no other writer's, exactly if no temp path is
committed that was given out for two manifests. -/
theorem versions_unmixed_iff {M : Type} (text : ManifestText M) (start : TapeFiles) (calls : List (VersionCall M)) :
    (∀ upTo, upTo <+: calls → VersionsKept text start upTo) ↔ CommitsApart calls := by
  constructor
  · intro hkept before tempPath since manifest other hcalls hmanifest hother
    have hupTo : before ++ [.commitWrite tempPath] <+: calls := ⟨since, by rw [hcalls, List.append_assoc]; rfl⟩
    have hcurrent {m : M} (h : (tempPath, m) ∈ begun before) :
        (filesAfter text start (before ++ [.commitWrite tempPath])).get? manifestPath = some (text.dump m) :=
      ((hkept _ hupTo).current before tempPath [] m rfl (fun _ h => nomatch h) h).1
    have hdump : text.dump manifest = text.dump other := Option.some.inj ((hcurrent hmanifest).symm.trans (hcurrent hother))
    have hloads := text.loads_dump manifest
    rw [hdump, text.loads_dump] at hloads
    exact (Option.some.inj hloads).symm
  · rintro hapart upTo ⟨rest, rfl⟩
    have hsame {before : List (VersionCall M)} {tempPath : String} {since : List (VersionCall M)} {manifest other : M}
        (hcalls : upTo = before ++ .commitWrite tempPath :: since) (hmanifest : (tempPath, manifest) ∈ begun before)
        (hother : (tempPath, other) ∈ begun before) : manifest = other :=
      hapart before tempPath (since ++ rest) manifest other (by rw [hcalls, List.append_assoc, List.cons_append]) hmanifest hother
    constructor
    · intro before tempPath since manifest hcalls hsince hmem
      obtain ⟨written, hwritten, hfiles⟩ := committed_content text start hmem
      obtain rfl := hsame hcalls hmem hwritten
      have hcurrent {path : String} (hpath : path = manifestPath ∨ path = manifestChecksumPath) :
          (filesAfter text start upTo).get? path = (filesAfter text start (before ++ [.commitWrite tempPath])).get? path := by
        have hstays := current_stays text start hpath hsince (before ++ [.commitWrite tempPath])
        rwa [List.append_assoc, List.singleton_append, ← hcalls] at hstays
      refine ⟨(hcurrent (.inl rfl)).trans ((hfiles _ (by decide)).trans ?_), (hcurrent (.inr rfl)).trans ((hfiles _ (by decide)).trans ?_)⟩
      · rw [if_neg (by decide), if_pos rfl]
      · rw [if_pos rfl]
    · intro before tempPath since manifest hcalls hmem
      obtain ⟨earlier, later, written, hlast, hwritten, hbefore, hfile⟩ := version_content text start since hmem
      have hearlier : (tempPath, manifest) ∈ begun earlier := by
        obtain ⟨more, rfl⟩ := hbefore
        rw [begun_append]
        exact List.mem_append_left _ hmem
      obtain rfl := hsame (hcalls.trans hlast) hearlier hwritten
      rw [hcalls, hfile]
    · intro before call since hcalls hbegin tempPath manifest hmem
      obtain ⟨now, rfl⟩ := exists_now hmem
      rw [filesAfter_concat]
      exact ⟨step_pending now hbegin, step_version (validateTempPath_tempPathOf now)⟩

/-- Manifests that are their own texts. -/
def plainManifests : ManifestText String where
  dump manifest := manifest
  loads := some
  loads_dump _ := rfl
  digest content := content

/-- Two manifests are begun within one second, and the first of them is committed. -/
def sameSecond : List (VersionCall String) :=
  let now : UtcTime := { year := 2026, month := 1, day := 1, hour := 12, minute := 0, second := 0 }
  [.beginWrite now "first", .beginWrite { now with microsecond := 500000 } "second", .commitWrite (tempPathOf now)]

/-- The commit makes the second manifest current, which its begin was never passed. -/
theorem same_second_mixes : ¬VersionsKept plainManifests [] sameSecond := by
  intro hkept
  have hfirst := (hkept.current (sameSecond.take 2) _ [] "first" rfl (fun _ h => nomatch h) (.head _)).1
  have hsecond : (filesAfter plainManifests [] sameSecond).get? manifestPath = some "second" := by decide +kernel
  exact absurd (hfirst.symm.trans hsecond) (by decide)

end OpenBlade
