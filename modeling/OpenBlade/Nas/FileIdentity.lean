import OpenBlade.Domain.PathParts
import OpenBlade.Nas.PlanSoundness

/-!
# Which file a relative name is

The planner turns the path of a file into a name relative to the source (`_make_relative`), and the ingest turns the name back into a
path (`_resolve_source_path`). The planner strips a prefix of the text and the ingest joins paths, so the two agree only where the
prefix ends at a component of the path.
-/

namespace OpenBlade

/-- `_resolve_source_path`. -/
def resolveSourcePath (sourcePath : Option String) (relativePath : String) : String :=
  let sourceRoot := sourcePath.getD ""
  if ['/'].isPrefixOf relativePath.toList then relativePath
  else if sourceRoot ≠ "" then ((PurePosixPath.ofString sourceRoot).join (.ofString relativePath)).toString
  else relativePath

/-- `_read_source_bytes`, of a file system that tells the content of each file. -/
def readSourceBytes (files : PurePosixPath → Option (List UInt8)) (sourcePath : String) : List UInt8 :=
  (files (.ofString sourcePath)).getD ("simulated:" ++ sourcePath).toUTF8.toList

/-- Two texts are paths of one file. -/
def SameFile (a b : String) : Prop := PurePosixPath.ofString a = PurePosixPath.ofString b

instance (a b : String) : Decidable (SameFile a b) := inferInstanceAs (Decidable (_ = _))

/-- `path.is_absolute()`. -/
def IsAbsolute (path : String) : Prop := (PurePosixPath.ofString path).root ≠ ""

instance (path : String) : Decidable (IsAbsolute path) := inferInstanceAs (Decidable (_ ≠ _))

/-- The source root is given, is under the same root as the file, and the file goes on from it at a component; or its text does not
begin the path of the file, and it names no component. -/
def LeadsTo (sourcePath : Option String) (file : String) : Prop :=
  match sourcePath with
  | none => False
  | some source =>
    source ≠ "" ∧ (PurePosixPath.ofString source).root = (PurePosixPath.ofString file).root ∧
      if source.toList.isPrefixOf file.toList then MeetAtSlash source.toList (file.toList.drop source.toList.length)
      else (PurePosixPath.ofString source).parts = []

instance (sourcePath : Option String) (file : String) : Decidable (LeadsTo sourcePath file) := by
  unfold LeadsTo
  cases sourcePath <;> infer_instance

/-! ### What a relative name resolves to -/

/-- A name without slashes in front is relative. -/
theorem root_lstripSlash (text : String) : (PurePosixPath.ofString (lstripSlash text)).root = "" := by
  unfold PurePosixPath.ofString
  dsimp only
  rw [slashes_eq_empty_iff, leadingSlashes_eq_zero_iff]
  exact head_lstripSlash text

theorem parts_lstripSlash (text : String) :
    (PurePosixPath.ofString (lstripSlash text)).parts = (PurePosixPath.ofString text).parts := by
  rw [parts_ofString, parts_ofString, toList_lstripSlash, partsOf_dropWhile]

/-- What the planner leaves of a path. -/
def remainder (file : String) (source : String) : String :=
  if source.toList.isPrefixOf file.toList then String.ofList (file.toList.drop source.toList.length) else file

/-- A relative name has no slash in front. -/
theorem makeRelative_eq_lstripSlash (file : String) (sourcePath : Option String) :
    ∃ text, makeRelative file sourcePath = lstripSlash text := by
  unfold makeRelative
  split
  · exact ⟨_, rfl⟩
  · split <;> exact ⟨_, rfl⟩

theorem makeRelative_some {source : String} (hsource : source ≠ "") (file : String) :
    makeRelative file (some source) = lstripSlash (remainder file source) := by
  unfold makeRelative remainder
  simp only [hsource, ne_eq, not_false_eq_true, true_and]
  split <;> rfl

theorem not_isPrefixOf_lstripSlash (text : String) : ['/'].isPrefixOf (lstripSlash text).toList = false := by
  have hroot := root_lstripSlash text
  unfold PurePosixPath.ofString at hroot
  dsimp only at hroot
  rw [slashes_eq_empty_iff, leadingSlashes_eq_zero_iff] at hroot
  cases hchars : (lstripSlash text).toList with
  | nil => rfl
  | cons c chars =>
    rw [hchars] at hroot
    have hc : c ≠ '/' := fun heq => hroot (by rw [heq]; rfl)
    simp [List.isPrefixOf, Ne.symm hc]

/-- Under a source root, a name resolves to its parts under those of the root. -/
theorem ofString_resolveSourcePath {source : String} (hsource : source ≠ "") (text : String) :
    PurePosixPath.ofString (resolveSourcePath (some source) (lstripSlash text)) =
      { root := (PurePosixPath.ofString source).root
        parts := (PurePosixPath.ofString source).parts ++ (PurePosixPath.ofString text).parts } := by
  unfold resolveSourcePath
  dsimp only
  rw [not_isPrefixOf_lstripSlash, if_neg Bool.false_ne_true, Option.getD_some, if_pos hsource,
    ofString_toString ((wellFormed_ofString source).join (wellFormed_ofString _)), PurePosixPath.join,
    if_pos (root_lstripSlash text), parts_lstripSlash]

/-- Without a source root, a name resolves to itself, a relative path. -/
theorem root_resolveSourcePath {sourcePath : Option String} (hsource : sourcePath.getD "" = "") (text : String) :
    (PurePosixPath.ofString (resolveSourcePath sourcePath (lstripSlash text))).root = "" := by
  unfold resolveSourcePath
  dsimp only
  rw [not_isPrefixOf_lstripSlash, if_neg Bool.false_ne_true, hsource, if_neg (not_not.2 rfl)]
  exact root_lstripSlash text

theorem parts_remainder_iff (file source : String) :
    (PurePosixPath.ofString source).parts ++ (PurePosixPath.ofString (remainder file source)).parts =
        (PurePosixPath.ofString file).parts ↔
      if source.toList.isPrefixOf file.toList then MeetAtSlash source.toList (file.toList.drop source.toList.length)
      else (PurePosixPath.ofString source).parts = [] := by
  unfold remainder
  split
  · rename_i hprefix
    obtain ⟨rest, hrest⟩ := List.isPrefixOf_iff_prefix.1 hprefix
    have hdrop : file.toList.drop source.toList.length = rest := by
      rw [← hrest, List.drop_left]
    rw [parts_ofString, parts_ofString, parts_ofString, String.toList_ofList, hdrop, ← hrest, ← partsOf_append_iff,
      ← List.map_append, (List.map_injective_iff.2 fun _ _ h => String.ofList_inj.1 h).eq_iff, eq_comm]
  · exact List.append_left_eq_self

/-- A relative name resolves to the file it came from exactly when the source root leads to the file. -/
theorem sameFile_resolve_iff {sourcePath : Option String} {file : String} (habs : IsAbsolute file) :
    SameFile (resolveSourcePath sourcePath (makeRelative file sourcePath)) file ↔ LeadsTo sourcePath file := by
  by_cases hsource : sourcePath.getD "" = ""
  · have hnot : ¬LeadsTo sourcePath file := by
      cases sourcePath with
      | none => exact id
      | some source => exact fun h => h.1 hsource
    obtain ⟨text, htext⟩ := makeRelative_eq_lstripSlash file sourcePath
    refine ⟨fun h => absurd ?_ habs, fun h => absurd h hnot⟩
    rw [← show _ = PurePosixPath.ofString file from h, htext]
    exact root_resolveSourcePath hsource text
  · cases sourcePath with
    | none => exact absurd rfl hsource
    | some source =>
      replace hsource : source ≠ "" := hsource
      unfold SameFile LeadsTo
      rw [makeRelative_some hsource, ofString_resolveSourcePath hsource]
      dsimp only
      rw [← parts_remainder_iff]
      generalize PurePosixPath.ofString file = path
      cases path
      simp [hsource]

/-- The names of a set of absolute files resolve to the files they came from, and no two of the files have one name, exactly when the
source root leads to every one of them. -/
theorem file_identity_iff (sourcePath : Option String) (files : List String) (habs : ∀ file ∈ files, IsAbsolute file) :
    ((∀ file ∈ files, SameFile (resolveSourcePath sourcePath (makeRelative file sourcePath)) file) ∧
      ∀ file ∈ files, ∀ other ∈ files, ¬SameFile file other →
        makeRelative file sourcePath ≠ makeRelative other sourcePath) ↔
      ∀ file ∈ files, LeadsTo sourcePath file := by
  constructor
  · exact fun h file hfile => (sameFile_resolve_iff (habs file hfile)).1 (h.1 file hfile)
  · intro h
    have hresolves : ∀ file ∈ files, SameFile (resolveSourcePath sourcePath (makeRelative file sourcePath)) file :=
      fun file hfile => (sameFile_resolve_iff (habs file hfile)).2 (h file hfile)
    refine ⟨hresolves, fun file hfile other hother hne hsame => hne ?_⟩
    have hfirst := hresolves file hfile
    rw [hsame] at hfirst
    exact hfirst.symm.trans (hresolves other hother)

theorem file_identity_iff_rooted :
    (∀ file ∈ ["/data/a", "/data//b/c"], SameFile (resolveSourcePath (some "/data") (makeRelative file (some "/data"))) file) ∧
      ∀ file ∈ ["/data/a", "/data//b/c"], ∀ other ∈ ["/data/a", "/data//b/c"], ¬SameFile file other →
        makeRelative file (some "/data") ≠ makeRelative other (some "/data") :=
  (file_identity_iff (some "/data") ["/data/a", "/data//b/c"] (by decide)).2 (by decide)

/-- A file beside the source root is taken for the file of that name in it. -/
theorem stray_file_takes_name :
    ¬SameFile "/x" "/data/x" ∧ makeRelative "/x" (some "/data") = makeRelative "/data/x" (some "/data") ∧
      ¬SameFile (resolveSourcePath (some "/data") (makeRelative "/x" (some "/data"))) "/x" := by
  decide

end OpenBlade
