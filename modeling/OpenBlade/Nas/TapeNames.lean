import OpenBlade.Domain.Normpath
import OpenBlade.Nas.Datasets

/-!
# The names of NAS data on tape

Where `dataset_tape_path` puts a file, and where a tape that is mounted has it: the place is told by the components of the mount
point, of the dataset's name and of the relative path, once ".." is resolved. Names are free text, so that two records may share a
place and a data file may take that of a manifest; `tape_names_iff` says exactly when they do not.
-/

namespace OpenBlade

/-! ### Names -/

/-- `_strip_required_string`. -/
def stripRequiredString (value fieldName : String) (maxLength : Nat) : Except Exn String :=
  if strip value = "" then .error { cls := .valueError, message := fieldName ++ " must be non-empty" }
  else if maxLength < (strip value).length then
    .error { cls := .valueError, message := fieldName ++ " must be at most " ++ toString maxLength ++ " characters" }
  else .ok (strip value)

/-- A name that a dataset may have: what `validate_name` makes of a text. -/
structure DatasetName where
  text : String
  accepted : ∃ value, stripRequiredString value "name" 128 = .ok text

/-- A file record that is archived to a tape. -/
structure TapeFile where
  datasetId : String
  relativePath : String
  barcode : Barcode
  named : relativePath ≠ ""

instance : DecidableEq TapeFile := fun f g =>
  decidable_of_iff (f.datasetId = g.datasetId ∧ f.relativePath = g.relativePath ∧ f.barcode = g.barcode) (by
    cases f
    cases g
    simp)

/-- One record. A dataset has one record of a relative path. -/
def TapeFile.SameRecord (f g : TapeFile) : Prop := f.datasetId = g.datasetId ∧ f.relativePath = g.relativePath

/-- Where a tape is mounted, an absolute path that is resolved. -/
structure MountPoint where
  parts : List String
  isPart : ∀ part ∈ parts, IsPart part.toList ∧ '/' ∉ part.toList
  isResolved : ".." ∉ parts

/-- The path of a place. -/
def placePath (comps : List String) : PurePosixPath := { root := "/", parts := comps }

variable (mount : Barcode → MountPoint) (names : String → DatasetName)

/-- Where an ingest writes a file. -/
def TapeFile.tapePath (f : TapeFile) : String := datasetTapePath (names f.datasetId).text f.relativePath

/-- Where a mounted tape has a path: `mount_path / _relative_tape_path(path)`, as the file system resolves it. -/
def MountPoint.target (mount : MountPoint) (path : String) : String :=
  normpath ((placePath mount.parts).join (.ofString (lstripSlash path))).toString

/-- `METADATA_ROOT`. -/
def metadataRoot : String := "/.openblade"

/-- The path lies with the metadata of a mounted tape. -/
def MountPoint.underMetadata (mount : MountPoint) (path : String) : Bool :=
  ((PurePosixPath.ofString (mount.target path)).relativeTo (.ofString (mount.target metadataRoot))).isSome

/-- Archived files have places of their own on their tapes, and none lies with the metadata. -/
structure TapeNamesKept (files : List TapeFile) : Prop where
  unique : ∀ f ∈ files, ∀ g ∈ files, f.barcode = g.barcode → ¬f.SameRecord g → f.tapePath names ≠ g.tapePath names ∧
    (mount f.barcode).target (f.tapePath names) ≠ (mount f.barcode).target (g.tapePath names)
  confined : ∀ f ∈ files, (mount f.barcode).underMetadata (f.tapePath names) = false

/-! ### Components -/

/-- The components of a text, without empty ones and ".". -/
def components (text : String) : List String := (PurePosixPath.ofString text).parts

/-- The components under a mount point with ".." resolved; nothing is above the root. -/
def MountPoint.resolved (mount : MountPoint) (comps : List String) : List String := comps.foldl (normpathStep true) mount.parts

/-- The components of a dataset's name and of a relative path, or of the relative path alone where it is absolute. -/
def namedComponents (name relativePath : String) : List String :=
  if relativePath.toList.head? = some '/' then components relativePath else components name ++ components relativePath

/-- No two records of a tape come to one place, and none comes to that of the metadata. -/
structure PlacesApart (files : List TapeFile) : Prop where
  unique : ∀ f ∈ files, ∀ g ∈ files, f.barcode = g.barcode → ¬f.SameRecord g →
    (mount f.barcode).resolved (namedComponents (names f.datasetId).text f.relativePath) ≠
      (mount f.barcode).resolved (namedComponents (names g.datasetId).text g.relativePath)
  confined : ∀ f ∈ files, ¬(mount f.barcode).parts ++ [".openblade"] <+:
    (mount f.barcode).resolved (namedComponents (names f.datasetId).text f.relativePath)

namespace TapeNamesAux

/-- What is resolved is made of the components. -/
theorem mem_of_mem_foldl {comps acc : List String} {comp : String} (h : comp ∈ comps.foldl (normpathStep true) acc) :
    comp ∈ acc ∨ comp ∈ comps := by
  induction comps generalizing acc with
  | nil => exact .inl h
  | cons first comps ih =>
    rcases ih h with hacc | hcomps
    · unfold normpathStep at hacc
      split at hacc
      · exact .inl hacc
      · split at hacc
        · rcases List.mem_append.1 hacc with hacc | hfirst
          · exact .inl hacc
          · exact .inr (List.mem_singleton.1 hfirst ▸ List.mem_cons_self)
        · exact .inl (List.mem_of_mem_dropLast hacc)
    · exact .inr (List.mem_cons_of_mem _ hcomps)

/-- Plain components are resolved as they stand. -/
theorem foldl_normpathStep_plain {comps : List String} (acc : List String) (hpart : ∀ comp ∈ comps, IsPart comp.toList)
    (hup : ".." ∉ comps) : comps.foldl (normpathStep true) acc = acc ++ comps := by
  induction comps generalizing acc with
  | nil => exact (List.append_nil acc).symm
  | cons comp comps ih =>
    have hcomp := hpart comp List.mem_cons_self
    have hstep : normpathStep true acc comp = acc ++ [comp] := by
      unfold normpathStep
      rw [if_neg, if_pos (.inl fun heq => hup (heq ▸ List.mem_cons_self))]
      rintro (rfl | rfl)
      · exact hcomp.1 rfl
      · exact hcomp.2 rfl
    rw [List.foldl_cons, hstep, ih _ (fun comp h => hpart comp (List.mem_cons_of_mem _ h)) (fun h => hup (List.mem_cons_of_mem _ h)),
      List.append_assoc, List.singleton_append]

theorem wellFormed_placePath {comps : List String} (h : ∀ comp ∈ comps, IsPart comp.toList ∧ '/' ∉ comp.toList) :
    (placePath comps).WellFormed := by
  refine ⟨⟨1, by omega, rfl⟩, comps.map String.toList, ?_, ?_⟩
  · simp [placePath, Function.comp_def]
  · intro part hpart
    obtain ⟨comp, hcomp, rfl⟩ := List.mem_map.1 hpart
    exact h comp hcomp

theorem isPart_of_wellFormed {path : PurePosixPath} (h : path.WellFormed) {comp : String} (hcomp : comp ∈ path.parts) :
    IsPart comp.toList ∧ '/' ∉ comp.toList := by
  obtain ⟨parts, hparts, hall⟩ := h.parts
  rw [hparts] at hcomp
  obtain ⟨part, hmem, rfl⟩ := List.mem_map.1 hcomp
  simpa using hall part hmem

/-- The text of an absolute path is resolved component by component. -/
theorem normpath_toString {comps : List String} (h : (placePath comps).WellFormed) :
    normpath (placePath comps).toString = (placePath (comps.foldl (normpathStep true) [])).toString := by
  have hread := ofString_toString h
  have hparts : (splitSlash (placePath comps).toString).filter (fun comp => comp ≠ "" ∧ comp ≠ ".") = comps :=
    congrArg PurePosixPath.parts hread
  have hslashes : slashes (leadingSlashes (placePath comps).toString.toList) = slashes 1 := congrArg PurePosixPath.root hread
  have hone : leadingSlashes (placePath comps).toString.toList = 1 := by
    have hlength := congrArg (fun text => text.toList.length) hslashes
    simpa only [slashes, String.toList_ofList, List.length_replicate] using hlength
  have hfold := foldl_filter_normpathStep true (splitSlash (placePath comps).toString) []
  rw [hparts] at hfold
  unfold normpath
  rw [hone]
  dsimp only
  rw [show decide (1 ≠ 0) = true from rfl, ← hfold]
  have hroot : slashes 1 = "/" := rfl
  unfold PurePosixPath.toString placePath
  simp [hroot]

/-- A text read without the slashes in front of it. -/
theorem ofString_lstripSlash (path : String) :
    PurePosixPath.ofString (lstripSlash path) = { root := "", parts := components path } := by
  have hroot : (PurePosixPath.ofString (lstripSlash path)).root = "" :=
    (slashes_eq_empty_iff _).2 ((leadingSlashes_eq_zero_iff _).2 (head_lstripSlash path))
  have hparts : (PurePosixPath.ofString (lstripSlash path)).parts = components path := by
    unfold components
    rw [parts_ofString, parts_ofString, toList_lstripSlash, partsOf_dropWhile]
  rw [← hroot, ← hparts]

section

variable (mount : MountPoint)

theorem wellFormed_mounted (path : String) : (placePath (mount.parts ++ components path)).WellFormed :=
  wellFormed_placePath fun _ hcomp => (List.mem_append.1 hcomp).elim (mount.isPart _) (isPart_of_wellFormed (wellFormed_ofString path))

/-- A mounted tape has a path at the place of its components. -/
theorem target_eq (path : String) : mount.target path = (placePath (mount.resolved (components path))).toString := by
  have hjoin : (placePath mount.parts).join (.ofString (lstripSlash path)) = placePath (mount.parts ++ components path) := by
    rw [ofString_lstripSlash]
    exact if_pos rfl
  unfold MountPoint.target MountPoint.resolved
  rw [hjoin, normpath_toString (wellFormed_mounted mount path), List.foldl_append,
    foldl_normpathStep_plain [] (fun part h => (mount.isPart part h).1) mount.isResolved, List.nil_append]

theorem ofString_target (path : String) :
    PurePosixPath.ofString (mount.target path) = placePath (mount.resolved (components path)) := by
  rw [target_eq]
  refine ofString_toString (wellFormed_placePath fun comp hcomp => ?_)
  rcases mem_of_mem_foldl hcomp with hcomp | hcomp
  · exact mount.isPart comp hcomp
  · exact isPart_of_wellFormed (wellFormed_ofString path) hcomp

/-- Places are one when their components are. -/
theorem target_eq_iff (path path' : String) :
    mount.target path = mount.target path' ↔ mount.resolved (components path) = mount.resolved (components path') := by
  constructor
  · intro h
    have hread := ofString_target mount path
    rw [h, ofString_target] at hread
    exact (congrArg PurePosixPath.parts hread).symm
  · intro h
    rw [target_eq, target_eq, h]

theorem underMetadata_eq_false_iff (path : String) :
    mount.underMetadata path = false ↔ ¬mount.parts ++ [".openblade"] <+: mount.resolved (components path) := by
  have hroot : mount.resolved (components metadataRoot) = mount.parts ++ [".openblade"] := by
    have hcomps : components metadataRoot = [".openblade"] := by decide
    rw [hcomps]
    rfl
  unfold MountPoint.underMetadata
  rw [ofString_target, ofString_target, hroot, ← List.isPrefixOf_iff_prefix]
  unfold PurePosixPath.relativeTo placePath
  by_cases hbelow : (mount.parts ++ [".openblade"]).isPrefixOf (mount.resolved (components path)) = true <;> simp [hbelow]

end

/-- The components of the path of a file. -/
theorem components_datasetTapePath (name relativePath : String) :
    components (datasetTapePath name relativePath) = namedComponents name relativePath := by
  have hroot : ∀ text : String, (PurePosixPath.ofString text).root = "" ↔ text.toList.head? ≠ some '/' := fun text =>
    (slashes_eq_empty_iff _).trans (leadingSlashes_eq_zero_iff _)
  have hname : ((PurePosixPath.ofString "/").join (.ofString name)).parts = components name := by
    unfold PurePosixPath.join
    split <;> rfl
  unfold components datasetTapePath namedComponents
  rw [ofString_toString (((wellFormed_ofString _).join (wellFormed_ofString _)).join (wellFormed_ofString _))]
  rw [PurePosixPath.join]
  by_cases habsolute : relativePath.toList.head? = some '/'
  · rw [if_neg (fun h => (hroot _).1 h habsolute), if_pos habsolute]
    rfl
  · rw [if_pos ((hroot _).2 habsolute), if_neg habsolute]
    exact congrArg (· ++ components relativePath) hname

end TapeNamesAux

/-! ### Names that keep files apart -/

open TapeNamesAux in
/-- Archived files keep places of their own exactly as far as the names keep them apart. -/
theorem tape_names_iff (files : List TapeFile) : TapeNamesKept mount names files ↔ PlacesApart mount names files := by
  have hplace : ∀ f : TapeFile, components (f.tapePath names) = namedComponents (names f.datasetId).text f.relativePath := fun f =>
    components_datasetTapePath _ _
  constructor
  · intro h
    constructor
    · intro f hf g hg hbarcode hsame heq
      refine (h.unique f hf g hg hbarcode hsame).2 ((target_eq_iff _ _ _).2 ?_)
      rw [hplace, hplace, heq]
    · intro f hf
      rw [← hplace]
      exact (underMetadata_eq_false_iff _ _).1 (h.confined f hf)
  · intro h
    constructor
    · intro f hf g hg hbarcode hsame
      have htarget : (mount f.barcode).target (f.tapePath names) ≠ (mount f.barcode).target (g.tapePath names) := by
        rw [Ne, target_eq_iff, hplace, hplace]
        exact h.unique f hf g hg hbarcode hsame
      exact ⟨fun heq => htarget (congrArg _ heq), htarget⟩
    · intro f hf
      rw [underMetadata_eq_false_iff, hplace]
      exact h.confined f hf

/-- Names of one plain component, one for each dataset, with relative paths that stay below it and are told apart by their components. -/
structure PlainNames (files : List TapeFile) : Prop where
  plain : ∀ f ∈ files, components (names f.datasetId).text = [(names f.datasetId).text]
  below : ∀ f ∈ files, (names f.datasetId).text ≠ ".." ∧ (names f.datasetId).text ≠ ".openblade"
  apart : ∀ f ∈ files, ∀ g ∈ files, (names f.datasetId).text = (names g.datasetId).text → f.datasetId = g.datasetId
  relative : ∀ f ∈ files, f.relativePath.toList.head? ≠ some '/' ∧ ".." ∉ components f.relativePath
  told : ∀ f ∈ files, ∀ g ∈ files, f.datasetId = g.datasetId → components f.relativePath = components g.relativePath →
    f.relativePath = g.relativePath

open TapeNamesAux in
theorem PlainNames.resolved_eq {files : List TapeFile} (h : PlainNames names files) {f : TapeFile} (hf : f ∈ files) (place : MountPoint) :
    place.resolved (namedComponents (names f.datasetId).text f.relativePath) =
      place.parts ++ (names f.datasetId).text :: components f.relativePath := by
  obtain ⟨hrelative, hup⟩ := h.relative f hf
  have hname : (names f.datasetId).text ∈ components (names f.datasetId).text := by
    rw [h.plain f hf]
    exact List.mem_singleton_self _
  unfold MountPoint.resolved namedComponents
  rw [if_neg hrelative, h.plain f hf, List.singleton_append]
  refine foldl_normpathStep_plain _ (fun comp hcomp => ?_) fun hcomp => ?_
  · rcases List.mem_cons.1 hcomp with rfl | hcomp
    · exact (isPart_of_wellFormed (wellFormed_ofString _) hname).1
    · exact (isPart_of_wellFormed (wellFormed_ofString _) hcomp).1
  · rcases List.mem_cons.1 hcomp with heq | hcomp
    · exact (h.below f hf).1 heq.symm
    · exact hup hcomp

/-- Plain names are enough. -/
theorem PlainNames.placesApart {files : List TapeFile} (h : PlainNames names files) : PlacesApart mount names files where
  unique f hf g hg _ hsame heq := by
    rw [h.resolved_eq names hf, h.resolved_eq names hg] at heq
    obtain ⟨hname, hcomps⟩ := List.cons.inj (List.append_cancel_left heq)
    have hdataset := h.apart f hf g hg hname
    exact hsame ⟨hdataset, h.told f hf g hg hdataset hcomps⟩
  confined f hf hbelow := by
    rw [h.resolved_eq names hf, List.prefix_append_right_inj] at hbelow
    exact (h.below f hf).2 (List.cons_prefix_cons.1 hbelow).1.symm

/-! ### Names that do not -/

namespace TapeNamesAux

def photos : DatasetName := { text := "photos", accepted := ⟨"photos", by decide +kernel⟩ }

def reserved : DatasetName := { text := ".openblade", accepted := ⟨" .openblade", by decide +kernel⟩ }

def mounted : MountPoint := { parts := ["mnt", "ltfs", "A00001L8"], isPart := by decide, isResolved := by decide }

/-- The file `tape.json` of a dataset. -/
def tapeJsonOf (datasetId : String) : TapeFile :=
  { datasetId := datasetId, relativePath := "tape.json", barcode := "A00001L8", named := by decide }

end TapeNamesAux

open TapeNamesAux in
/-- Two files of one dataset. -/
theorem photos_placesApart : PlacesApart (fun _ => mounted) (fun _ => photos)
    [tapeJsonOf "d1", { tapeJsonOf "d1" with relativePath := "a/b", named := by decide }] :=
  PlainNames.placesApart _ _ ⟨by decide +kernel, by decide +kernel, by decide +kernel, by decide +kernel, by decide +kernel⟩

open TapeNamesAux in
/-- Two datasets of one name share a place, and a dataset may be named as the metadata is. -/
theorem names_collide :
    ¬TapeNamesKept (fun _ => mounted) (fun _ => photos) [tapeJsonOf "d1", tapeJsonOf "d2"] ∧
      ¬TapeNamesKept (fun _ => mounted) (fun _ => reserved) [tapeJsonOf "d1"] := by
  constructor
  · intro h
    refine (h.unique _ List.mem_cons_self _ (List.mem_cons_of_mem _ List.mem_cons_self) rfl ?_).1 rfl
    rintro ⟨hdataset, -⟩
    exact absurd hdataset (by decide)
  · intro h
    have hunder : mounted.underMetadata ((tapeJsonOf "d1").tapePath fun _ => reserved) = true := by decide +kernel
    have hconfined := h.confined _ List.mem_cons_self
    exact Bool.false_ne_true (hconfined.symm.trans hunder)

end OpenBlade
