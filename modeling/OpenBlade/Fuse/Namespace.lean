import OpenBlade.Effects.Protocol
import OpenBlade.Fuse.Mount
import OpenBlade.Jobs.GroupIsolation
import OpenBlade.Nas.TapeNames

/-!
# The mounted namespace

`listdir` and `stat` of `fuse/filesystem.py`, the metadata operations of `fuse/mount.py` over them, and the prefix query of
`catalog/repository.py` they rest on. A directory is nothing but a beginning that the paths of file records share: the listing of
one is read off the records of users, while a path is looked up among all records, those of shards too. When the mount is a tree
with the archived files as its leaves, is said of the paths of the records alone.
-/

namespace OpenBlade

open Effects

/-! ## The prefix query -/

/-- `text LIKE pattern`: "%" stands for any letters, "_" for any one, and the case of the letters A to Z does not count. -/
def sqlLike : List Char → List Char → Bool
  | [], text => text.isEmpty
  | '%' :: pattern, text => text.tails.any fun rest => sqlLike pattern rest
  | '_' :: pattern, text =>
    match text with
    | [] => false
    | _ :: rest => sqlLike pattern rest
  | c :: pattern, text =>
    match text with
    | [] => false
    | d :: rest => c.toLower = d.toLower ∧ sqlLike pattern rest

/-- A pattern begins as a text does when it is written in the letters the text begins with, whichever of them are wildcards. -/
theorem sqlLike_append (letters rest : List Char) : sqlLike (letters ++ ['%']) (letters ++ rest) = true := by
  induction letters with
  | nil =>
    rw [List.nil_append, List.nil_append, sqlLike, List.any_eq_true]
    exact ⟨[], by simp, rfl⟩
  | cons c letters ih =>
    rw [List.cons_append, List.cons_append]
    by_cases hmany : c = '%'
    · subst hmany
      rw [sqlLike, List.any_eq_true]
      exact ⟨letters ++ rest, by simp, ih⟩
    by_cases hone : c = '_'
    · subst hone
      rw [sqlLike]
      exact ih
    rw [sqlLike]
    · simpa using ih
    · exact hmany
    · exact hone

namespace Catalog

/-- `list_file_records`: the records of files, not of shards, whose path is like the prefix. -/
def listFileRecords (cat : Catalog) (pathPrefix : String) : List FileRecord :=
  let likePrefix := if posix pathPrefix = "/" then "%" else posix pathPrefix ++ "%"
  (cat.records.filter fun record => record.parentId = none ∧ sqlLike likePrefix.toList record.path.toList).insertionSort
    fun a b => a.path ≤ b.path

end Catalog

/-! ## The filesystem of a catalog -/

structure VirtualDirEntry where
  name : String
  isDir : Bool
  sizeBytes : Nat
  path : PurePosixPath
  deriving Repr, DecidableEq

namespace CatalogFilesystem

variable (cat : Catalog)

/-- The entry of a name in a directory. -/
def childEntry (normalized : PurePosixPath) (name : String) (isDir : Bool) (sizeBytes : Nat) : VirtualDirEntry :=
  let child := if normalized.toString ≠ "/" then normalized.join (.ofString name) else (PurePosixPath.ofString "/").join (.ofString name)
  { name := name, isDir := isDir, sizeBytes := sizeBytes, path := child }

/-- What a record adds to the listing of a directory: a file takes the place of what has its name, a directory does not. -/
def addEntry (normalized : PurePosixPath) (entries : Dict String VirtualDirEntry) (record : FileRecord) :
    Dict String VirtualDirEntry :=
  match (PurePosixPath.ofString record.path).relativeTo normalized with
  | none => entries
  | some relative =>
    match relative.parts with
    | [] => entries
    | [name] => entries.set name (childEntry normalized name false record.sizeBytes)
    | name :: _ => if entries.get? name = none then entries.set name (childEntry normalized name true 0) else entries

/-- `listdir`: directories first, each kind by name. -/
def listdir (path : String) : List VirtualDirEntry :=
  let given := PurePosixPath.ofString path
  let normalized := if given.toString = "." then PurePosixPath.ofString "/" else given
  let entries := (cat.listFileRecords normalized.toString).foldl (addEntry normalized) []
  (entries.map Prod.snd).insertionSort fun a b => (a.isDir ∧ ¬b.isDir) ∨ (a.isDir = b.isDir ∧ a.name ≤ b.name)

/-- `stat`. -/
def stat (path : String) : Option VirtualDirEntry :=
  let normalized := PurePosixPath.ofString path
  match cat.getFileRecord normalized.toString with
  | some record =>
    some { name := if normalized.name = "" then "/" else normalized.name, isDir := false, sizeBytes := record.sizeBytes
           path := normalized }
  | none =>
    if normalized.toString = "/" then some { name := "/", isDir := true, sizeBytes := 0, path := .ofString "/" }
    else if listdir cat normalized.toString = [] then none
    else some { name := normalized.name, isDir := true, sizeBytes := 0, path := normalized }

end CatalogFilesystem

/-! ## The operations of the mount -/

/-- `S_IFDIR | 0o555`. -/
def dirMode : Nat := 0o40555

/-- `S_IFREG | 0o444`. -/
def fileMode : Nat := 0o100444

structure FileAttributes where
  stMode : Nat
  stNlink : Nat
  stSize : Nat
  stUid : Nat
  stGid : Nat
  stCtime : Int
  stMtime : Int
  stAtime : Int
  deriving Repr, DecidableEq

def permissionDenied (path : String) : Exn := osError 13 "Permission denied" path

def notDirectory (path : String) : Exn := osError 20 "Not a directory" path

/-- `_catalog_path`. -/
def catalogPath (path : String) : Except Exn String :=
  let normalized := (PurePosixPath.ofString "/").join (.ofString (lstripSlash path))
  if ".." ∈ normalized.parts then .error (permissionDenied path) else .ok normalized.toString

/-- A mounted catalog, and the user it is mounted for. -/
structure CatalogFuseOperations where
  catalog : Catalog
  uid : Nat
  gid : Nat

namespace CatalogFuseOperations

variable (ops : CatalogFuseOperations)

/-- `_entry`. -/
def entry (path : String) : Except Exn VirtualDirEntry := do
  match CatalogFilesystem.stat ops.catalog (← catalogPath path) with
  | none => .error (noEntry path)
  | some found => .ok found

/-- `getattr`; the time of a file is when its record was made, in whole seconds. -/
def getattr (path : String) : Except Exn FileAttributes := do
  let found ← ops.entry path
  let record := if found.isDir then none else ops.catalog.getFileRecord found.path.toString
  let timestamp := match record with
    | some record => record.createdAt.tdiv 1000000
    | none => 0
  .ok { stMode := if found.isDir then dirMode else fileMode, stNlink := if found.isDir then 2 else 1
        stSize := if found.isDir then 0 else found.sizeBytes, stUid := ops.uid, stGid := ops.gid
        stCtime := timestamp, stMtime := timestamp, stAtime := timestamp }

/-- The entries whose names `readdir` gives after "." and "..". -/
def children (path : String) : Except Exn (List VirtualDirEntry) := do
  let found ← ops.entry path
  if !found.isDir then .error (notDirectory path)
  else return CatalogFilesystem.listdir ops.catalog (← catalogPath path)

/-- `readdir`. -/
def readdir (path : String) : Except Exn (List String) := do
  return "." :: ".." :: (← ops.children path).map VirtualDirEntry.name

/-- `open` to read, as far as the record whose content it serves; the content is `mountOpen`'s. -/
def openRecord (path : String) : Except Exn FileRecord := do
  let found ← ops.entry path
  if found.isDir then .error (isDirectory path)
  else
    match ops.catalog.getFileRecord found.path.toString with
    | none => .error (noEntry path)
    | some record => .ok record

end CatalogFuseOperations

/-! ## Places -/

/-- The path of the mount at these names below its root. -/
def mountPath (comps : List String) : String := (placePath comps).toString

/-- The records of files have paths that are read back from their text, no two of them the same. -/
structure PathsKept (cat : Catalog) : Prop where
  normalised : ∀ record ∈ cat.records, posix record.path = record.path
  distinct : (cat.records.map FileRecord.path).Nodup

theorem PathsKept.of_records {cat cat' : Catalog} (h : PathsKept cat) (hrecords : cat'.records = cat.records) : PathsKept cat' :=
  ⟨hrecords ▸ h.normalised, hrecords ▸ h.distinct⟩

/-- A record at a place of the mount. -/
def FileRecord.IsAt (record : FileRecord) (comps : List String) : Prop := PurePosixPath.ofString record.path = placePath comps

instance (record : FileRecord) (comps : List String) : Decidable (record.IsAt comps) := inferInstanceAs (Decidable (_ = _))

namespace Catalog

variable (cat : Catalog)

/-- The file of a user is recorded at the place. -/
def UserFile (comps : List String) : Prop := ∃ record ∈ cat.records, record.parentId = none ∧ record.IsAt comps

/-- The file of a user is recorded at the name in the directory, or below it. -/
def LeadsOn (dir : List String) (name : String) : Prop := ∃ rest, cat.UserFile (dir ++ name :: rest)

/-- Some record is at the place. -/
def Recorded (comps : List String) : Prop := ∃ record ∈ cat.records, record.IsAt comps

/-- What is at the place is a directory. -/
def IsDirectory (comps : List String) : Prop := ¬cat.Recorded comps ∧ (comps = [] ∨ ∃ name, cat.LeadsOn comps name)

/-- The record of a user's file that has an archived instance. -/
def ArchivedFile (record : FileRecord) : Prop :=
  record.parentId = none ∧ ∃ row ∈ cat.instances, row.fileRecordId = record.id ∧ row.state = .archived

end Catalog

namespace CatalogFuseOperations

variable (ops : CatalogFuseOperations)

/-- `getattr` answers for the path, and says of which kind it is. -/
def HasKind (path : String) (isDir : Bool) : Prop :=
  ∃ attributes, ops.getattr path = .ok attributes ∧ attributes.stMode = if isDir then dirMode else fileMode

/-- The directories that a walk from the root comes to. -/
inductive Reached : List String → Prop where
  | root : ops.HasKind "/" true → Reached []
  | step {dir : List String} {listing : List VirtualDirEntry} {child : VirtualDirEntry} : Reached dir →
      ops.children (mountPath dir) = .ok listing → child ∈ listing → ops.HasKind (mountPath (dir ++ [child.name])) true →
      Reached (dir ++ [child.name])

/-- The files that the walk sees. -/
def Seen (comps : List String) : Prop :=
  ∃ dir listing child, ops.Reached dir ∧ ops.children (mountPath dir) = .ok listing ∧ child ∈ listing ∧ child.isDir = false ∧
    comps = dir ++ [child.name]

/-- The mount is a tree that has the archived files as files. -/
structure FaithfulTree : Prop where
  rooted : ops.HasKind "/" true
  /-- What a directory lists is there, under one name each and of the kind listed. -/
  resolved : ∀ dir, ops.Reached dir → ∀ listing, ops.children (mountPath dir) = .ok listing →
    (listing.map VirtualDirEntry.name).Nodup ∧ ∀ child ∈ listing, ops.HasKind (mountPath (dir ++ [child.name])) child.isDir
  /-- What is there is listed. -/
  listed : ∀ path attributes, ops.getattr path = .ok attributes → ∀ dir name, components path = dir ++ [name] →
    ∃ names, ops.readdir (mountPath dir) = .ok names ∧ name ∈ names
  /-- The walk comes to every archived file once, and the file opens there as it is. -/
  archived : ∀ record ∈ ops.catalog.records, ops.catalog.ArchivedFile record →
    ∃! comps, ops.Seen comps ∧ ops.openRecord (mountPath comps) = .ok record

end CatalogFuseOperations

/-- The paths of the records make a tree: no file at the root, no record of a shard at a place the mount gives out, no way past a
file but by "..", and by ".." past nothing else, and every archived file below "/" with no ".." on the way. -/
structure TreeShaped (cat : Catalog) : Prop where
  rooted : ¬cat.UserFile []
  unsharded : ∀ record ∈ cat.records, ∀ comps, record.IsAt comps → record.parentId ≠ none → ".." ∈ comps
  onward : ∀ dir name, ".." ∉ dir → cat.LeadsOn dir name → (cat.UserFile dir ↔ name = "..")
  plain : ∀ record ∈ cat.records, cat.ArchivedFile record → ∃ comps, record.IsAt comps ∧ ".." ∉ comps

namespace NamespaceAux

open TapeNamesAux

variable {cat : Catalog} {comps dir : List String}

theorem mountPath_nil : mountPath [] = "/" := by decide

theorem ofString_mountPath (h : (placePath comps).WellFormed) : PurePosixPath.ofString (mountPath comps) = placePath comps :=
  ofString_toString h

theorem posix_mountPath (h : (placePath comps).WellFormed) : posix (mountPath comps) = mountPath comps := by
  unfold posix
  rw [ofString_mountPath h]
  rfl

theorem components_mountPath (h : (placePath comps).WellFormed) : components (mountPath comps) = comps := by
  unfold components
  rw [ofString_mountPath h]
  rfl

/-- Names read off a text stand at a place. -/
theorem wellFormed_components (path : String) : (placePath (components path)).WellFormed :=
  wellFormed_placePath fun _ hcomp => isPart_of_wellFormed (wellFormed_ofString path) hcomp

theorem wellFormed_of_prefix {rest : List String} (h : (placePath (dir ++ rest)).WellFormed) : (placePath dir).WellFormed :=
  wellFormed_placePath fun _ hcomp => isPart_of_wellFormed h (List.mem_append_left _ hcomp)

theorem mountPath_eq_root_iff (h : (placePath comps).WellFormed) : mountPath comps = "/" ↔ comps = [] := by
  constructor
  · intro heq
    have hread := ofString_mountPath h
    rw [heq] at hread
    exact (congrArg PurePosixPath.parts hread).symm
  · rintro rfl
    exact mountPath_nil

theorem catalogPath_eq (path : String) :
    catalogPath path = if ".." ∈ components path then .error (permissionDenied path) else .ok (mountPath (components path)) := by
  have hjoin : (PurePosixPath.ofString "/").join (.ofString (lstripSlash path)) = placePath (components path) := by
    rw [ofString_lstripSlash]
    exact if_pos rfl
  unfold catalogPath
  rw [hjoin]
  rfl

/-- A place and what is below it have a text that begins alike. -/
theorem toList_mountPath_append (rest : List String) (hdir : dir ≠ []) :
    ∃ letters, (mountPath (dir ++ rest)).toList = (mountPath dir).toList ++ letters := by
  cases rest with
  | nil => exact ⟨[], by rw [List.append_nil, List.append_nil]⟩
  | cons name rest =>
    refine ⟨("/" ++ "/".intercalate (name :: rest)).toList, ?_⟩
    have hroot : ¬("/" = "" ∧ dir ++ name :: rest = []) := fun h => absurd h.1 (by decide)
    have hroot' : ¬("/" = "" ∧ dir = []) := fun h => absurd h.1 (by decide)
    unfold mountPath placePath PurePosixPath.toString
    rw [if_neg hroot, if_neg hroot', intercalate_append hdir (List.cons_ne_nil _ _), ← String.toList_append]
    simp [String.append_assoc]

/-! ### Records -/

theorem path_eq_mountPath (h : PathsKept cat) {record : FileRecord} (hrecord : record ∈ cat.records) (hat : record.IsAt comps) :
    record.path = mountPath comps := by
  rw [← h.normalised record hrecord, posix, hat]
  rfl

/-- The place of a record is one that a path can have. -/
theorem wellFormed_of_isAt {record : FileRecord} (h : record.IsAt comps) : (placePath comps).WellFormed := by
  rw [← h]
  exact wellFormed_ofString _

theorem isAt_unique (h : PathsKept cat) {record other : FileRecord} (hrecord : record ∈ cat.records) (hother : other ∈ cat.records)
    (hat : record.IsAt comps) (hat' : other.IsAt comps) : record = other :=
  List.inj_on_of_nodup_map h.distinct hrecord hother
    ((path_eq_mountPath h hrecord hat).trans (path_eq_mountPath h hother hat').symm)

/-- A path is looked up among all records. -/
theorem getFileRecord_mountPath (h : PathsKept cat) (hcomps : (placePath comps).WellFormed) (record : FileRecord) :
    cat.getFileRecord (mountPath comps) = some record ↔ record ∈ cat.records ∧ record.IsAt comps := by
  have hfound : ∀ found, cat.getFileRecord (mountPath comps) = some found → found ∈ cat.records ∧ found.IsAt comps := by
    intro found hget
    have hpath : found.path = posix (mountPath comps) := by simpa using List.find?_some hget
    refine ⟨List.mem_of_find?_eq_some hget, ?_⟩
    unfold FileRecord.IsAt
    rw [hpath, posix_mountPath hcomps, ofString_mountPath hcomps]
  refine ⟨hfound record, fun ⟨hrecord, hat⟩ => ?_⟩
  cases hget : cat.getFileRecord (mountPath comps) with
  | none =>
    have hpath : record.path = posix (mountPath comps) := (path_eq_mountPath h hrecord hat).trans (posix_mountPath hcomps).symm
    exact absurd (decide_eq_true hpath) (List.find?_eq_none.1 hget record hrecord)
  | some found =>
    obtain ⟨hmem, hfoundAt⟩ := hfound found hget
    rw [isAt_unique h hmem hrecord hfoundAt hat]

/-! ### Listings -/

/-- What a record has below a directory. -/
def restOf (normalized : PurePosixPath) (record : FileRecord) : Option (List String) :=
  ((PurePosixPath.ofString record.path).relativeTo normalized).map PurePosixPath.parts

theorem restOf_placePath {record : FileRecord} {rest : List String} :
    restOf (placePath dir) record = some rest ↔ record.IsAt (dir ++ rest) := by
  unfold restOf PurePosixPath.relativeTo FileRecord.IsAt
  generalize PurePosixPath.ofString record.path = path
  obtain ⟨root, parts⟩ := path
  constructor
  · intro h
    split at h
    · rename_i hbelow
      obtain ⟨hroot, hparts⟩ := hbelow
      have hrest : parts.drop dir.length = rest := Option.some.inj h
      obtain ⟨rest', hrest'⟩ := List.isPrefixOf_iff_prefix.1 hparts
      have hroot : root = "/" := hroot
      have hparts : parts = dir ++ rest := by
        rw [← hrest, ← (show dir ++ rest' = parts from hrest'), List.drop_left]
      rw [hroot, hparts]
      rfl
    · cases h
  · intro h
    obtain ⟨rfl, rfl⟩ := PurePosixPath.mk.inj h
    have hbelow : dir.isPrefixOf (dir ++ rest) = true := List.isPrefixOf_iff_prefix.2 (List.prefix_append _ _)
    rw [if_pos ⟨rfl, hbelow⟩]
    exact congrArg some (List.drop_left ..)

/-- The entries that a list of records makes in a directory. -/
structure ListingOf (normalized : PurePosixPath) (records : List FileRecord) (entries : Dict String VirtualDirEntry) : Prop where
  nodup : (Dict.keys entries).Nodup
  named : ∀ p ∈ entries, p.2.name = p.1
  keys : ∀ name, (∃ found, entries.get? name = some found) ↔ ∃ record ∈ records, ∃ rest, restOf normalized record = some (name :: rest)
  kind : ∀ name found, entries.get? name = some found →
    (found.isDir = false ↔ ∃ record ∈ records, restOf normalized record = some [name])

theorem exists_mem_concat {α : Type} {P : α → Prop} {xs : List α} {y : α} :
    (∃ x ∈ xs ++ [y], P x) ↔ (∃ x ∈ xs, P x) ∨ P y := by
  simp [or_and_right, exists_or]

/-- What an assignment to a name makes of a listing. -/
theorem ListingOf.set {normalized : PurePosixPath} {records : List FileRecord} {entries : Dict String VirtualDirEntry}
    (h : ListingOf normalized records entries) {record : FileRecord} {name : String} {rest : List String} {found : VirtualDirEntry}
    (hrest : restOf normalized record = some (name :: rest)) (hname : found.name = name)
    (hkind : found.isDir = false ↔ (∃ r ∈ records, restOf normalized r = some [name]) ∨ rest = []) :
    ListingOf normalized (records ++ [record]) (entries.set name found) := by
  have honly : ∀ other rest', restOf normalized record = some (other :: rest') ↔ other = name ∧ rest' = rest := by
    intro other rest'
    rw [hrest]
    simp [eq_comm]
  refine { nodup := Dict.nodup_keys_set h.nodup, named := ?_, keys := fun other => ?_, kind := fun other found' hget => ?_ }
  · intro p hp
    rcases Dict.mem_set hp with hp | rfl
    · exact h.named p hp
    · exact hname
  · rw [Dict.get?_set, exists_mem_concat]
    by_cases hother : name = other
    · subst hother
      rw [if_pos rfl]
      exact ⟨fun _ => .inr ⟨rest, hrest⟩, fun _ => ⟨found, rfl⟩⟩
    · rw [if_neg hother, h.keys other]
      refine ⟨.inl, fun hor => hor.resolve_right ?_⟩
      rintro ⟨rest', hrec⟩
      exact hother ((honly other rest').1 hrec).1.symm
  · rw [Dict.get?_set] at hget
    rw [exists_mem_concat]
    by_cases hother : name = other
    · subst hother
      rw [if_pos rfl] at hget
      rw [← Option.some.inj hget, hkind, honly]
      simp [eq_comm]
    · rw [if_neg hother] at hget
      rw [h.kind other found' hget]
      refine ⟨.inl, fun hor => hor.resolve_right fun hrec => ?_⟩
      exact hother ((honly other []).1 hrec).1.symm

/-- A record that adds no name leaves the listing as it is. -/
theorem ListingOf.keep {normalized : PurePosixPath} {records : List FileRecord} {entries : Dict String VirtualDirEntry}
    (h : ListingOf normalized records entries) {record : FileRecord}
    (hrest : ∀ name rest, restOf normalized record = some (name :: rest) → rest ≠ [] ∧ ∃ found, entries.get? name = some found) :
    ListingOf normalized (records ++ [record]) entries := by
  refine { nodup := h.nodup, named := h.named, keys := fun name => ?_, kind := fun name found hget => ?_ }
  · rw [exists_mem_concat, ← h.keys name]
    refine ⟨.inl, fun hor => hor.elim id ?_⟩
    rintro ⟨rest, hrec⟩
    exact (hrest name rest hrec).2
  · rw [exists_mem_concat, h.kind name found hget]
    exact ⟨.inl, fun hor => hor.resolve_right fun hrec => (hrest name [] hrec).1 rfl⟩

theorem ListingOf.addEntry {normalized : PurePosixPath} {records : List FileRecord} {entries : Dict String VirtualDirEntry}
    (h : ListingOf normalized records entries) (record : FileRecord) :
    ListingOf normalized (records ++ [record]) (CatalogFilesystem.addEntry normalized entries record) := by
  unfold CatalogFilesystem.addEntry
  cases hrelative : (PurePosixPath.ofString record.path).relativeTo normalized with
  | none =>
    refine h.keep fun name rest hrec => ?_
    rw [restOf, hrelative] at hrec
    cases hrec
  | some relative =>
    obtain ⟨root, parts⟩ := relative
    have hrest : restOf normalized record = some parts := by rw [restOf, hrelative]; rfl
    rcases parts with _ | ⟨name, _ | ⟨next, rest⟩⟩
    · refine h.keep fun name rest hrec => ?_
      rw [hrest] at hrec
      cases hrec
    · exact h.set hrest rfl ⟨fun _ => .inr rfl, fun _ => rfl⟩
    · dsimp only
      split
      · rename_i hnew
        refine h.set hrest rfl ⟨fun hdir => (by cases hdir), fun hor => ?_⟩
        rcases hor with ⟨r, hr, hrec⟩ | hnil
        · obtain ⟨found, hfound⟩ := (h.keys name).2 ⟨r, hr, [], hrec⟩
          rw [hnew] at hfound
          cases hfound
        · cases hnil
      · rename_i hold
        refine h.keep fun other rest' hrec => ?_
        rw [hrest] at hrec
        obtain ⟨rfl, rfl⟩ := List.cons.inj (Option.some.inj hrec)
        exact ⟨List.cons_ne_nil _ _, Option.ne_none_iff_exists'.1 hold⟩

theorem listingOf_foldl (normalized : PurePosixPath) (records : List FileRecord) :
    ListingOf normalized records (records.foldl (CatalogFilesystem.addEntry normalized) []) := by
  induction records using List.reverseRecOn with
  | nil =>
    refine { nodup := List.nodup_nil, named := fun _ hp => absurd hp List.not_mem_nil, keys := fun name => ?_, kind := fun name found h => ?_ }
    · exact ⟨fun ⟨_, h⟩ => (nomatch h), fun ⟨_, h, _⟩ => absurd h List.not_mem_nil⟩
    · cases h
  | append_singleton records record ih =>
    rw [List.foldl_append]
    exact ih.addEntry record

/-- The prefix query leaves out no record below the directory. -/
theorem mem_listFileRecords (h : PathsKept cat) {record : FileRecord} (hrecord : record ∈ cat.records) {name : String}
    {rest : List String} (hat : record.IsAt (dir ++ name :: rest)) :
    record ∈ cat.listFileRecords (mountPath dir) ↔ record.parentId = none := by
  have hdir : (placePath dir).WellFormed := wellFormed_of_prefix (wellFormed_of_isAt hat)
  have hlike : sqlLike (if posix (mountPath dir) = "/" then "%" else posix (mountPath dir) ++ "%").toList record.path.toList = true := by
    rw [posix_mountPath hdir]
    split
    · exact sqlLike_append [] record.path.toList
    · rename_i hroot
      have hne : dir ≠ [] := fun hnil => hroot ((mountPath_eq_root_iff hdir).2 hnil)
      obtain ⟨letters, htext⟩ := toList_mountPath_append (name :: rest) hne
      rw [path_eq_mountPath h hrecord hat, htext, String.toList_append]
      exact sqlLike_append _ _
  unfold Catalog.listFileRecords
  rw [List.mem_insertionSort, List.mem_filter]
  simp [hrecord, hlike]

theorem mem_records_of_listed {record : FileRecord} {text : String} (hrecord : record ∈ cat.listFileRecords text) :
    record ∈ cat.records := by
  unfold Catalog.listFileRecords at hrecord
  rw [List.mem_insertionSort] at hrecord
  exact (List.mem_filter.1 hrecord).1

/-- Records of users below a directory, as the query gives them. -/
theorem exists_listed_iff (h : PathsKept cat) {name : String} {rest : List String} :
    (∃ record ∈ cat.listFileRecords (mountPath dir), restOf (placePath dir) record = some (name :: rest)) ↔
      cat.UserFile (dir ++ name :: rest) := by
  constructor
  · rintro ⟨record, hlisted, hrest⟩
    have hat := restOf_placePath.1 hrest
    have hrecord := mem_records_of_listed hlisted
    exact ⟨record, hrecord, (mem_listFileRecords h hrecord hat).1 hlisted, hat⟩
  · rintro ⟨record, hrecord, huser, hat⟩
    exact ⟨record, (mem_listFileRecords h hrecord hat).2 huser, restOf_placePath.2 hat⟩

/-- The listing of a directory. -/
structure Lists (cat : Catalog) (dir : List String) (listing : List VirtualDirEntry) : Prop where
  nodup : (listing.map VirtualDirEntry.name).Nodup
  names : ∀ name, name ∈ listing.map VirtualDirEntry.name ↔ cat.LeadsOn dir name
  kind : ∀ child ∈ listing, child.isDir = false ↔ cat.UserFile (dir ++ [child.name])

theorem lists_listdir (h : PathsKept cat) (hdir : (placePath dir).WellFormed) :
    Lists cat dir (CatalogFilesystem.listdir cat (mountPath dir)) := by
  have hgiven : PurePosixPath.ofString (mountPath dir) = placePath dir := ofString_mountPath hdir
  have hroot : (placePath dir).toString ≠ "." := by
    intro hdot
    have hread := ofString_toString hdir
    rw [hdot] at hread
    have hread' : (PurePosixPath.ofString ".").root = "/" := congrArg PurePosixPath.root hread
    exact absurd hread' (by decide)
  have hlisting := listingOf_foldl (placePath dir) (cat.listFileRecords (placePath dir).toString)
  unfold CatalogFilesystem.listdir
  dsimp only
  rw [hgiven, if_neg hroot]
  generalize List.foldl _ _ _ = entries at hlisting ⊢
  have hsorted := List.perm_insertionSort (fun a b : VirtualDirEntry => (a.isDir ∧ ¬b.isDir) ∨ (a.isDir = b.isDir ∧ a.name ≤ b.name))
    (entries.map Prod.snd)
  have hnames : (entries.map Prod.snd).map VirtualDirEntry.name = Dict.keys entries := by
    unfold Dict.keys
    rw [List.map_map]
    exact List.map_congr_left hlisting.named
  refine { nodup := ?_, names := fun name => ?_, kind := fun child hchild => ?_ }
  · rw [(hsorted.map _).nodup_iff, hnames]
    exact hlisting.nodup
  · rw [(hsorted.map _).mem_iff, hnames]
    have hkey : name ∈ Dict.keys entries ↔ ∃ found, entries.get? name = some found := by
      constructor
      · intro hname
        obtain ⟨p, hp, rfl⟩ := List.mem_map.1 hname
        exact ⟨p.2, Dict.get?_of_mem hlisting.nodup hp⟩
      · rintro ⟨found, hfound⟩
        exact List.mem_map.2 ⟨_, Dict.mem_of_get? hfound, rfl⟩
    rw [hkey, hlisting.keys name]
    constructor
    · rintro ⟨record, hrecord, rest, hrest⟩
      exact ⟨rest, (exists_listed_iff h).1 ⟨record, hrecord, hrest⟩⟩
    · rintro ⟨rest, hfile⟩
      obtain ⟨record, hrecord, hrest⟩ := (exists_listed_iff h).2 hfile
      exact ⟨record, hrecord, rest, hrest⟩
  · obtain ⟨p, hp, rfl⟩ := List.mem_map.1 (hsorted.mem_iff.1 hchild)
    have hget : entries.get? p.2.name = some p.2 := by
      rw [hlisting.named p hp]
      exact Dict.get?_of_mem hlisting.nodup hp
    rw [hlisting.kind _ _ hget]
    exact exists_listed_iff h

/-! ### What the mount answers -/

section answers

variable {ops : CatalogFuseOperations}

/-- A directory is empty when the paths of no records lead on from it. -/
theorem listdir_eq_nil_iff (h : PathsKept cat) (hcomps : (placePath comps).WellFormed) :
    CatalogFilesystem.listdir cat (mountPath comps) = [] ↔ ¬∃ name, cat.LeadsOn comps name := by
  have hlists := lists_listdir h hcomps
  rw [← List.map_eq_nil_iff (f := VirtualDirEntry.name), List.eq_nil_iff_forall_not_mem, not_exists]
  exact forall_congr' fun name => not_congr (hlists.names name)

/-- What is found at a path: nothing above the root, the file recorded there, the directory, or nothing. -/
theorem entry_cases (h : PathsKept ops.catalog) (path : String) :
    (".." ∈ components path ∧ ∃ e, ops.entry path = .error e) ∨
    (".." ∉ components path ∧ ∃ record ∈ ops.catalog.records, record.IsAt (components path) ∧
      ∃ found, ops.entry path = .ok found ∧ found.isDir = false ∧ found.path = placePath (components path)) ∨
    (".." ∉ components path ∧ ops.catalog.IsDirectory (components path) ∧ ∃ found, ops.entry path = .ok found ∧ found.isDir = true) ∨
    (".." ∉ components path ∧ ¬ops.catalog.Recorded (components path) ∧ ¬ops.catalog.IsDirectory (components path) ∧
      ∃ e, ops.entry path = .error e) := by
  have hcomps := wellFormed_components path
  have hentry : ops.entry path = catalogPath path >>= fun text =>
      match CatalogFilesystem.stat ops.catalog text with
      | none => .error (noEntry path)
      | some found => .ok found := rfl
  by_cases hup : ".." ∈ components path
  · refine .inl ⟨hup, permissionDenied path, ?_⟩
    rw [hentry, catalogPath_eq, if_pos hup]
    rfl
  rw [catalogPath_eq, if_neg hup] at hentry
  replace hentry : ops.entry path =
      match CatalogFilesystem.stat ops.catalog (mountPath (components path)) with
      | none => .error (noEntry path)
      | some found => .ok found := hentry
  refine .inr ?_
  generalize components path = comps at hcomps hup hentry ⊢
  have hread : PurePosixPath.ofString (mountPath comps) = placePath comps := ofString_mountPath hcomps
  have htext : (placePath comps).toString = mountPath comps := rfl
  unfold CatalogFilesystem.stat at hentry
  dsimp only at hentry
  rw [hread, htext] at hentry
  cases hget : ops.catalog.getFileRecord (mountPath comps) with
  | some record =>
    rw [hget] at hentry
    obtain ⟨hrecord, hat⟩ := (getFileRecord_mountPath h hcomps record).1 hget
    exact .inl ⟨hup, record, hrecord, hat, _, hentry, rfl, rfl⟩
  | none =>
    have hnot : ¬ops.catalog.Recorded comps := by
      rintro ⟨record, hrecord, hat⟩
      rw [(getFileRecord_mountPath h hcomps record).2 ⟨hrecord, hat⟩] at hget
      cases hget
    rw [hget] at hentry
    refine .inr ?_
    dsimp only at hentry
    by_cases hroot : mountPath comps = "/"
    · rw [if_pos hroot] at hentry
      exact .inl ⟨hup, ⟨hnot, .inl ((mountPath_eq_root_iff hcomps).1 hroot)⟩, _, hentry, rfl⟩
    rw [if_neg hroot] at hentry
    have hne : comps ≠ [] := fun hnil => hroot ((mountPath_eq_root_iff hcomps).2 hnil)
    by_cases hempty : CatalogFilesystem.listdir ops.catalog (mountPath comps) = []
    · rw [if_pos hempty] at hentry
      have hleads := (listdir_eq_nil_iff h hcomps).1 hempty
      exact .inr ⟨hup, hnot, fun hdir => hdir.2.elim hne hleads, _, hentry⟩
    · rw [if_neg hempty] at hentry
      have hleads := not_not.1 (mt (listdir_eq_nil_iff h hcomps).2 hempty)
      exact .inl ⟨hup, ⟨hnot, .inr hleads⟩, _, hentry, rfl⟩

theorem getattr_eq (path : String) (found : VirtualDirEntry) (h : ops.entry path = .ok found) :
    ∃ attributes, ops.getattr path = .ok attributes ∧ attributes.stMode = if found.isDir then dirMode else fileMode := by
  unfold CatalogFuseOperations.getattr
  rw [h]
  exact ⟨_, rfl, rfl⟩

theorem hasKind_iff (path : String) (isDir : Bool) :
    ops.HasKind path isDir ↔ ∃ found, ops.entry path = .ok found ∧ found.isDir = isDir := by
  constructor
  · rintro ⟨attributes, hget, hmode⟩
    cases hentry : ops.entry path with
    | error e =>
      unfold CatalogFuseOperations.getattr at hget
      rw [hentry] at hget
      cases hget
    | ok found =>
      obtain ⟨attributes', hget', hmode'⟩ := getattr_eq path found hentry
      rw [hget] at hget'
      obtain rfl := Except.ok.inj hget'
      refine ⟨found, rfl, ?_⟩
      rw [hmode] at hmode'
      revert hmode'
      cases isDir <;> cases found.isDir <;> decide
  · rintro ⟨found, hentry, rfl⟩
    exact getattr_eq path found hentry

/-- A path resolves when it has a kind. -/
theorem exists_hasKind {path : String} {attributes : FileAttributes} (h : ops.getattr path = .ok attributes) :
    ∃ isDir, ops.HasKind path isDir := by
  cases hentry : ops.entry path with
  | error e =>
    unfold CatalogFuseOperations.getattr at h
    rw [hentry] at h
    cases h
  | ok found => exact ⟨found.isDir, (hasKind_iff path _).2 ⟨found, hentry, rfl⟩⟩

theorem hasKind_file_iff (h : PathsKept ops.catalog) (path : String) :
    ops.HasKind path false ↔ ".." ∉ components path ∧ ops.catalog.Recorded (components path) := by
  rw [hasKind_iff]
  rcases entry_cases h path with ⟨hup, e, he⟩ | ⟨hup, record, hrecord, hat, found, hfound, hkind, -⟩ |
      ⟨hup, hdir, found, hfound, hkind⟩ | ⟨hup, hnot, -, e, he⟩
  · simp [he, hup]
  · exact iff_of_true ⟨found, hfound, hkind⟩ ⟨hup, record, hrecord, hat⟩
  · refine iff_of_false ?_ fun h => hdir.1 h.2
    rintro ⟨found', hfound', hkind'⟩
    rw [hfound] at hfound'
    rw [← Except.ok.inj hfound', hkind] at hkind'
    cases hkind'
  · simp [he, hnot]

theorem hasKind_directory_iff (h : PathsKept ops.catalog) (path : String) :
    ops.HasKind path true ↔ ".." ∉ components path ∧ ops.catalog.IsDirectory (components path) := by
  rw [hasKind_iff]
  rcases entry_cases h path with ⟨hup, e, he⟩ | ⟨hup, record, hrecord, hat, found, hfound, hkind, -⟩ |
      ⟨hup, hdir, found, hfound, hkind⟩ | ⟨hup, -, hnot, e, he⟩
  · simp [he, hup]
  · refine iff_of_false ?_ fun h => h.2.1 ⟨record, hrecord, hat⟩
    rintro ⟨found', hfound', hkind'⟩
    rw [hfound] at hfound'
    rw [← Except.ok.inj hfound', hkind] at hkind'
    cases hkind'
  · exact iff_of_true ⟨found, hfound, hkind⟩ ⟨hup, hdir⟩
  · simp [he, hnot]

/-- A directory gives its listing, and nothing else does. -/
theorem children_ok_iff (path : String) (listing : List VirtualDirEntry) :
    ops.children path = .ok listing ↔
      ops.HasKind path true ∧ listing = CatalogFilesystem.listdir ops.catalog (mountPath (components path)) := by
  rw [hasKind_iff]
  unfold CatalogFuseOperations.children
  cases hentry : ops.entry path with
  | error e =>
    refine iff_of_false nofun ?_
    rintro ⟨⟨found, hfound, -⟩, -⟩
    cases hfound
  | ok found =>
    have hup : ".." ∉ components path := by
      intro hup
      unfold CatalogFuseOperations.entry at hentry
      rw [catalogPath_eq, if_pos hup] at hentry
      cases hentry
    cases hkind : found.isDir with
    | false =>
      refine iff_of_false ?_ ?_
      · intro h
        replace h : (if !found.isDir then Except.error (notDirectory path) else
          (catalogPath path).bind fun text => .ok (CatalogFilesystem.listdir ops.catalog text)) = .ok listing := h
        rw [hkind] at h
        cases h
      · rintro ⟨⟨found', hfound, hkind'⟩, -⟩
        rw [← Except.ok.inj hfound, hkind] at hkind'
        cases hkind'
    | true =>
      have hdone : (Except.ok found >>= fun found => if !found.isDir then Except.error (notDirectory path) else
          (do return CatalogFilesystem.listdir ops.catalog (← catalogPath path)) : Except Exn (List VirtualDirEntry)) =
          .ok (CatalogFilesystem.listdir ops.catalog (mountPath (components path))) := by
        show (if !found.isDir then _ else _) = _
        rw [hkind, catalogPath_eq, if_neg hup]
        rfl
      rw [hdone]
      constructor
      · intro h
        exact ⟨⟨found, rfl, hkind⟩, (Except.ok.inj h).symm⟩
      · rintro ⟨-, rfl⟩
        rfl

/-- A path opens as the record that is there. -/
theorem openRecord_ok_iff (h : PathsKept ops.catalog) (path : String) (record : FileRecord) :
    ops.openRecord path = .ok record ↔ ".." ∉ components path ∧ record ∈ ops.catalog.records ∧ record.IsAt (components path) := by
  have hopen : ops.openRecord path = ops.entry path >>= fun found =>
      if found.isDir then .error (isDirectory path)
      else match ops.catalog.getFileRecord found.path.toString with
        | none => .error (noEntry path)
        | some record => .ok record := rfl
  rw [hopen]
  rcases entry_cases h path with ⟨hup, e, he⟩ | ⟨hup, other, hother, hat, found, hfound, hkind, hpath⟩ |
      ⟨hup, hdir, found, hfound, hkind⟩ | ⟨hup, hnot, -, e, he⟩
  · rw [he]
    exact iff_of_false nofun fun h => h.1 hup
  · have hget := (getFileRecord_mountPath h (wellFormed_components path) other).2 ⟨hother, hat⟩
    have hdone : (ops.entry path >>= fun found =>
        if found.isDir then .error (isDirectory path)
        else match ops.catalog.getFileRecord found.path.toString with
          | none => .error (noEntry path)
          | some record => .ok record) = .ok other := by
      rw [hfound]
      show (if found.isDir then _ else _) = _
      rw [hkind, hpath, if_neg Bool.false_ne_true]
      rw [mountPath] at hget
      rw [hget]
    rw [hdone]
    constructor
    · intro heq
      obtain rfl := Except.ok.inj heq
      exact ⟨hup, hother, hat⟩
    · rintro ⟨-, hrecord, hat'⟩
      rw [isAt_unique h hrecord hother hat' hat]
  · rw [hfound]
    refine iff_of_false ?_ fun h => hdir.1 ⟨record, h.2⟩
    show ¬(if found.isDir then _ else _) = _
    rw [hkind, if_pos rfl]
    nofun
  · rw [he]
    exact iff_of_false nofun fun h => hnot ⟨record, h.2⟩

theorem readdir_ok_iff (path : String) (names : List String) :
    ops.readdir path = .ok names ↔ ∃ listing, ops.children path = .ok listing ∧ names = "." :: ".." :: listing.map VirtualDirEntry.name := by
  unfold CatalogFuseOperations.readdir
  cases ops.children path with
  | error e => exact iff_of_false nofun fun ⟨_, h, _⟩ => nomatch h
  | ok listing =>
    constructor
    · intro h
      exact ⟨listing, rfl, (Except.ok.inj h).symm⟩
    · rintro ⟨listing', hlisting, rfl⟩
      rw [Except.ok.inj hlisting]
      rfl

/-! ### Walks -/

theorem wellFormed_of_leadsOn {name : String} (h : cat.LeadsOn dir name) : (placePath (dir ++ [name])).WellFormed := by
  obtain ⟨rest, record, -, -, hat⟩ := h
  have hwell : (placePath (dir ++ [name] ++ rest)).WellFormed := by
    rw [List.append_assoc]
    exact wellFormed_of_isAt hat
  exact wellFormed_of_prefix hwell

theorem leadsOn_of_userFile {name : String} (h : cat.UserFile (dir ++ [name])) : cat.LeadsOn dir name := ⟨[], h⟩

theorem leadsOn_of_leadsOn {name next : String} (h : cat.LeadsOn (dir ++ [name]) next) : cat.LeadsOn dir name := by
  obtain ⟨rest, hfile⟩ := h
  rw [List.append_assoc] at hfile
  exact ⟨next :: rest, hfile⟩

/-- Where paths lead there is a user's file, or paths lead on. -/
theorem leadsOn_cases {name : String} (h : cat.LeadsOn dir name) :
    cat.UserFile (dir ++ [name]) ∨ ∃ next, cat.LeadsOn (dir ++ [name]) next := by
  obtain ⟨rest, hfile⟩ := h
  cases rest with
  | nil => exact .inl hfile
  | cons next rest => exact .inr ⟨next, rest, by rw [List.append_assoc]; exact hfile⟩

theorem recorded_of_userFile (h : cat.UserFile comps) : cat.Recorded comps := by
  obtain ⟨record, hrecord, -, hat⟩ := h
  exact ⟨record, hrecord, hat⟩

/-- Where paths lead, the mount has something. -/
theorem hasKind_of_leadsOn (h : PathsKept ops.catalog) {name : String} (hleads : ops.catalog.LeadsOn dir name)
    (hup : ".." ∉ dir ++ [name]) : ∃ isDir, ops.HasKind (mountPath (dir ++ [name])) isDir := by
  have hread := components_mountPath (wellFormed_of_leadsOn hleads)
  by_cases hrecorded : ops.catalog.Recorded (dir ++ [name])
  · exact ⟨false, (hasKind_file_iff h _).2 (by rw [hread]; exact ⟨hup, hrecorded⟩)⟩
  · refine ⟨true, (hasKind_directory_iff h _).2 ?_⟩
    rw [hread]
    exact ⟨hup, hrecorded, .inr ((leadsOn_cases hleads).resolve_left fun hfile => hrecorded (recorded_of_userFile hfile))⟩

theorem lists_of_children (h : PathsKept ops.catalog) (hdir : (placePath dir).WellFormed) {listing : List VirtualDirEntry}
    (hlisting : ops.children (mountPath dir) = .ok listing) : Lists ops.catalog dir listing := by
  obtain ⟨-, rfl⟩ := (children_ok_iff _ _).1 hlisting
  rw [components_mountPath hdir]
  exact lists_listdir h hdir

/-- A directory of plain names gives its listing. -/
theorem children_of_directory (h : PathsKept ops.catalog) (hdir : (placePath dir).WellFormed) (hup : ".." ∉ dir)
    (hkind : ops.catalog.IsDirectory dir) : ∃ listing, ops.children (mountPath dir) = .ok listing ∧ Lists ops.catalog dir listing := by
  have hread := components_mountPath hdir
  have hlisting := (children_ok_iff (mountPath dir) _).2 ⟨(hasKind_directory_iff h _).2 (by rw [hread]; exact ⟨hup, hkind⟩), rfl⟩
  exact ⟨_, hlisting, lists_of_children h hdir hlisting⟩

/-- What is reached is a directory of plain names. -/
theorem directory_of_reached (h : PathsKept ops.catalog) (hreached : ops.Reached dir) :
    (placePath dir).WellFormed ∧ ".." ∉ dir ∧ ops.catalog.IsDirectory dir := by
  induction hreached with
  | root hkind =>
    have hroot : components "/" = [] := by decide
    have hdir := (hasKind_directory_iff h "/").1 hkind
    rw [hroot] at hdir
    exact ⟨wellFormed_placePath fun _ hcomp => absurd hcomp List.not_mem_nil, hdir⟩
  | step hparent hlisting hchild hkind ih =>
    have hlists := lists_of_children h ih.1 hlisting
    have hwell := wellFormed_of_leadsOn ((hlists.names _).1 (List.mem_map_of_mem hchild))
    have hdir := (hasKind_directory_iff h _).1 hkind
    rw [components_mountPath hwell] at hdir
    exact ⟨hwell, hdir⟩

/-! ### From the paths to the tree -/

section shaped

variable (h : PathsKept ops.catalog) (hshape : TreeShaped ops.catalog)

include hshape

theorem userFile_of_recorded (hrecorded : ops.catalog.Recorded comps) (hup : ".." ∉ comps) : ops.catalog.UserFile comps := by
  obtain ⟨record, hrecord, hat⟩ := hrecorded
  by_cases huser : record.parentId = none
  · exact ⟨record, hrecord, huser, hat⟩
  · exact absurd (hshape.unsharded record hrecord comps hat huser) hup

/-- What leads on by a name is a directory. -/
theorem directory_of_leadsOn {name : String} (hleads : ops.catalog.LeadsOn dir name) (hup : ".." ∉ dir) (hname : name ≠ "..") :
    ops.catalog.IsDirectory dir :=
  ⟨fun hrecorded => hname ((hshape.onward dir name hup hleads).1 (userFile_of_recorded hshape hrecorded hup)), .inr ⟨name, hleads⟩⟩

include h

/-- Plain names that lead on are reached. -/
theorem reached_of_leadsOn {name : String} (hleads : ops.catalog.LeadsOn dir name) (hup : ".." ∉ dir ++ [name]) :
    ops.Reached dir := by
  induction dir using List.reverseRecOn generalizing name with
  | nil =>
    have hroot : components "/" = [] := by decide
    refine .root ((hasKind_directory_iff h "/").2 ?_)
    rw [hroot]
    exact ⟨List.not_mem_nil, fun hrecorded => hshape.rooted (userFile_of_recorded hshape hrecorded List.not_mem_nil), .inl rfl⟩
  | append_singleton dir comp ih =>
    have hdir : ".." ∉ dir ++ [comp] := fun hm => hup (List.mem_append_left _ hm)
    have hname : name ≠ ".." := fun heq => hup (heq ▸ List.mem_append_right _ List.mem_cons_self)
    have hparent := leadsOn_of_leadsOn hleads
    have hreached := ih hparent hdir
    obtain ⟨hwell, hplain, hkind⟩ := directory_of_reached h hreached
    obtain ⟨listing, hlisting, hlists⟩ := children_of_directory h hwell hplain hkind
    obtain ⟨child, hchild, hcomp⟩ := List.mem_map.1 ((hlists.names comp).2 hparent)
    subst hcomp
    refine .step hreached hlisting hchild ((hasKind_directory_iff h _).2 ?_)
    rw [components_mountPath (wellFormed_of_leadsOn hparent)]
    exact ⟨hdir, directory_of_leadsOn hshape hleads hdir hname⟩

theorem faithful_of_shaped : ops.FaithfulTree := by
  have hroot : components "/" = [] := by decide
  refine { rooted := ?_, resolved := fun dir hreached listing hlisting => ?_, listed := fun path attributes hget dir name hpath => ?_
           archived := fun record hrecord harchived => ?_ }
  · refine (hasKind_directory_iff h "/").2 ?_
    rw [hroot]
    exact ⟨List.not_mem_nil, fun hrecorded => hshape.rooted (userFile_of_recorded hshape hrecorded List.not_mem_nil), .inl rfl⟩
  · obtain ⟨hwell, hplain, hkind⟩ := directory_of_reached h hreached
    have hlists := lists_of_children h hwell hlisting
    refine ⟨hlists.nodup, fun child hchild => ?_⟩
    have hleads := (hlists.names _).1 (List.mem_map_of_mem hchild)
    -- nothing leads up from a directory, as only files do
    have hname : child.name ≠ ".." := fun heq =>
      hkind.1 (recorded_of_userFile ((hshape.onward dir _ hplain hleads).2 heq))
    have hup : ".." ∉ dir ++ [child.name] := by simpa using ⟨hplain, Ne.symm hname⟩
    have hread := components_mountPath (wellFormed_of_leadsOn hleads)
    cases hdir : child.isDir with
    | false =>
      refine (hasKind_file_iff h _).2 ?_
      rw [hread]
      exact ⟨hup, recorded_of_userFile ((hlists.kind child hchild).1 hdir)⟩
    | true =>
      refine (hasKind_directory_iff h _).2 ?_
      rw [hread]
      have hnot : ¬ops.catalog.UserFile (dir ++ [child.name]) := by
        rw [← hlists.kind child hchild, hdir]
        exact Bool.noConfusion
      exact ⟨hup, fun hrecorded => hnot (userFile_of_recorded hshape hrecorded hup), .inr ((leadsOn_cases hleads).resolve_left hnot)⟩
  · obtain ⟨isDir, hkind⟩ := exists_hasKind hget
    have hleads : ".." ∉ dir ++ [name] ∧ ops.catalog.LeadsOn dir name := by
      cases isDir with
      | false =>
        obtain ⟨hup, hrecorded⟩ := (hasKind_file_iff h path).1 hkind
        rw [hpath] at hup hrecorded
        exact ⟨hup, leadsOn_of_userFile (userFile_of_recorded hshape hrecorded hup)⟩
      | true =>
        obtain ⟨hup, -, hdir⟩ := (hasKind_directory_iff h path).1 hkind
        rw [hpath] at hup hdir
        obtain ⟨next, hnext⟩ := hdir.resolve_left (by simp)
        exact ⟨hup, leadsOn_of_leadsOn hnext⟩
    obtain ⟨hwell, hplain, hdir⟩ := directory_of_reached h (reached_of_leadsOn h hshape hleads.2 hleads.1)
    obtain ⟨listing, hlisting, hlists⟩ := children_of_directory h hwell hplain hdir
    refine ⟨_, (readdir_ok_iff _ _).2 ⟨listing, hlisting, rfl⟩, ?_⟩
    exact List.mem_cons_of_mem _ (List.mem_cons_of_mem _ ((hlists.names name).2 hleads.2))
  · obtain ⟨comps, hat, hup⟩ := hshape.plain record hrecord harchived
    have hfile : ops.catalog.UserFile comps := ⟨record, hrecord, harchived.1, hat⟩
    have hread := components_mountPath (wellFormed_of_isAt hat)
    refine ⟨comps, ⟨?_, (openRecord_ok_iff h _ record).2 (by rw [hread]; exact ⟨hup, hrecord, hat⟩)⟩, ?_⟩
    · rcases List.eq_nil_or_concat comps with rfl | ⟨dir, name, rfl⟩
      · exact absurd hfile hshape.rooted
      rw [List.concat_eq_append] at hfile hup ⊢
      have hleads := leadsOn_of_userFile hfile
      have hreached := reached_of_leadsOn h hshape hleads hup
      obtain ⟨hwell, hplain, hdir⟩ := directory_of_reached h hreached
      obtain ⟨listing, hlisting, hlists⟩ := children_of_directory h hwell hplain hdir
      obtain ⟨child, hchild, rfl⟩ := List.mem_map.1 ((hlists.names name).2 hleads)
      exact ⟨dir, listing, child, hreached, hlisting, hchild, (hlists.kind child hchild).2 hfile, rfl⟩
    · rintro other ⟨⟨dir, listing, child, hreached, hlisting, hchild, -, rfl⟩, hopen⟩
      obtain ⟨hwell, -⟩ := directory_of_reached h hreached
      have hleads := ((lists_of_children h hwell hlisting).names _).1 (List.mem_map_of_mem hchild)
      obtain ⟨-, -, hat'⟩ := (openRecord_ok_iff h _ record).1 hopen
      rw [components_mountPath (wellFormed_of_leadsOn hleads)] at hat'
      have hsame : placePath (dir ++ [child.name]) = placePath comps := hat'.symm.trans hat
      exact congrArg PurePosixPath.parts hsame

end shaped

/-! ### From the tree to the paths -/

section faithful

variable (h : PathsKept ops.catalog) (hfaithful : ops.FaithfulTree)

include h hfaithful

/-- A plain path that resolves is listed in a directory above it. -/
theorem listed_of_hasKind {name : String} {isDir : Bool} (hwell : (placePath (dir ++ [name])).WellFormed)
    (hkind : ops.HasKind (mountPath (dir ++ [name])) isDir) :
    ops.catalog.IsDirectory dir ∧ ops.catalog.LeadsOn dir name := by
  have hdir : (placePath dir).WellFormed := wellFormed_of_prefix hwell
  have hup : name ≠ ".." ∧ name ≠ "." := by
    have hplain : ".." ∉ components (mountPath (dir ++ [name])) := by
      cases isDir with
      | false => exact ((hasKind_file_iff h _).1 hkind).1
      | true => exact ((hasKind_directory_iff h _).1 hkind).1
    rw [components_mountPath hwell] at hplain
    refine ⟨fun heq => hplain (heq ▸ List.mem_append_right _ List.mem_cons_self), fun heq => ?_⟩
    have hpart := (isPart_of_wellFormed hwell (List.mem_append_right _ List.mem_cons_self)).1.2
    rw [heq] at hpart
    exact hpart rfl
  obtain ⟨attributes, hget, -⟩ := hkind
  obtain ⟨names, hnames, hname⟩ := hfaithful.listed _ attributes hget dir name (components_mountPath hwell)
  obtain ⟨listing, hlisting, rfl⟩ := (readdir_ok_iff _ _).1 hnames
  have hkind := (hasKind_directory_iff h _).1 ((children_ok_iff _ _).1 hlisting).1
  rw [components_mountPath hdir] at hkind
  refine ⟨hkind.2, ((lists_of_children h hdir hlisting).names name).1 ?_⟩
  have hname := (List.mem_cons.1 hname).resolve_left hup.2
  exact (List.mem_cons.1 hname).resolve_left hup.1

/-- Every directory of plain names is reached. -/
theorem reached_of_directory (hwell : (placePath dir).WellFormed) (hup : ".." ∉ dir) (hdir : ops.catalog.IsDirectory dir) :
    ops.Reached dir := by
  induction dir using List.reverseRecOn with
  | nil => exact .root hfaithful.rooted
  | append_singleton dir name ih =>
    have hkind : ops.HasKind (mountPath (dir ++ [name])) true := (hasKind_directory_iff h _).2 (by
      rw [components_mountPath hwell]
      exact ⟨hup, hdir⟩)
    obtain ⟨hparent, hleads⟩ := listed_of_hasKind h hfaithful hwell hkind
    have hparentWell : (placePath dir).WellFormed := wellFormed_of_prefix hwell
    have hparentUp : ".." ∉ dir := fun hm => hup (List.mem_append_left _ hm)
    obtain ⟨listing, hlisting, hlists⟩ := children_of_directory h hparentWell hparentUp hparent
    obtain ⟨child, hchild, rfl⟩ := List.mem_map.1 ((hlists.names name).2 hleads)
    exact .step (ih hparentWell hparentUp hparent) hlisting hchild hkind

theorem rooted_of_faithful : ¬ops.catalog.Recorded [] := by
  have hroot : components "/" = [] := by decide
  have hdir := ((hasKind_directory_iff h "/").1 hfaithful.rooted).2
  rw [hroot] at hdir
  exact hdir.1

/-- What is recorded at a plain path is a user's file: it is listed, and as a file. -/
theorem userFile_of_faithful (hwell : (placePath comps).WellFormed) (hup : ".." ∉ comps) (hrecorded : ops.catalog.Recorded comps) :
    ops.catalog.UserFile comps := by
  rcases List.eq_nil_or_concat comps with rfl | ⟨dir, name, rfl⟩
  · exact absurd hrecorded (rooted_of_faithful h hfaithful)
  rw [List.concat_eq_append] at *
  have hkind : ops.HasKind (mountPath (dir ++ [name])) false := (hasKind_file_iff h _).2 (by
    rw [components_mountPath hwell]
    exact ⟨hup, hrecorded⟩)
  obtain ⟨hdir, hleads⟩ := listed_of_hasKind h hfaithful hwell hkind
  have hdirWell : (placePath dir).WellFormed := wellFormed_of_prefix hwell
  have hdirUp : ".." ∉ dir := fun hm => hup (List.mem_append_left _ hm)
  obtain ⟨listing, hlisting, hlists⟩ := children_of_directory h hdirWell hdirUp hdir
  obtain ⟨child, hchild, rfl⟩ := List.mem_map.1 ((hlists.names name).2 hleads)
  have hresolved := (hfaithful.resolved dir (reached_of_directory h hfaithful hdirWell hdirUp hdir) listing hlisting).2 child hchild
  cases hfile : child.isDir with
  | false => exact (hlists.kind child hchild).1 hfile
  | true =>
    rw [hfile] at hresolved
    have hnot := ((hasKind_directory_iff h _).1 hresolved).2.1
    rw [components_mountPath hwell] at hnot
    exact absurd hrecorded hnot

theorem shaped_of_faithful : TreeShaped ops.catalog := by
  refine { rooted := fun hfile => rooted_of_faithful h hfaithful (recorded_of_userFile hfile)
           unsharded := fun record hrecord comps hat hshard => ?_, onward := fun dir name hup hleads => ⟨fun hfile => ?_, fun hname => ?_⟩
           plain := fun record hrecord harchived => ?_ }
  · by_contra hup
    obtain ⟨other, hother, huser, hat'⟩ := userFile_of_faithful h hfaithful (wellFormed_of_isAt hat) hup ⟨record, hrecord, hat⟩
    exact hshard (isAt_unique h hrecord hother hat hat' ▸ huser)
  · by_contra hname
    have hplain : ".." ∉ dir ++ [name] := by simpa using ⟨hup, Ne.symm hname⟩
    obtain ⟨isDir, hkind⟩ := hasKind_of_leadsOn h hleads hplain
    exact (listed_of_hasKind h hfaithful (wellFormed_of_leadsOn hleads) hkind).1.1 (recorded_of_userFile hfile)
  · by_contra hfile
    have hwell : (placePath dir).WellFormed := wellFormed_of_prefix (wellFormed_of_leadsOn hleads)
    have hdir : ops.catalog.IsDirectory dir :=
      ⟨fun hrecorded => hfile (userFile_of_faithful h hfaithful hwell hup hrecorded), .inr ⟨name, hleads⟩⟩
    obtain ⟨listing, hlisting, hlists⟩ := children_of_directory h hwell hup hdir
    obtain ⟨child, hchild, hchildName⟩ := List.mem_map.1 ((hlists.names name).2 hleads)
    have hresolved := (hfaithful.resolved dir (reached_of_directory h hfaithful hwell hup hdir) listing hlisting).2 child hchild
    rw [hchildName] at hresolved
    have hplain : ".." ∉ components (mountPath (dir ++ [name])) := by
      cases hkind : child.isDir with
      | false => exact ((hasKind_file_iff h _).1 (hkind ▸ hresolved)).1
      | true => exact ((hasKind_directory_iff h _).1 (hkind ▸ hresolved)).1
    rw [components_mountPath (wellFormed_of_leadsOn hleads), hname] at hplain
    exact hplain (List.mem_append_right _ List.mem_cons_self)
  · obtain ⟨comps, ⟨-, hopen⟩, -⟩ := hfaithful.archived record hrecord harchived
    obtain ⟨hup, -, hat⟩ := (openRecord_ok_iff h _ record).1 hopen
    exact ⟨_, hat, hup⟩

end faithful

end answers

/-! ### What jobs leave in the catalog -/

section jobs

variable {sha256 : Bytes → String} {w : World}

/-- A path is recorded once, as it is read back. -/
theorem pathsKept_createFileRecord (h : PathsKept cat) (now : Int) (fields : Catalog.FileRecordFields) :
    PathsKept (cat.createFileRecord now fields).2 := by
  unfold Catalog.createFileRecord
  cases hget : cat.getFileRecord fields.path with
  | none =>
    refine { normalised := fun record hrecord => ?_, distinct := ?_ }
    · rcases List.mem_append.1 hrecord with hrecord | hrecord
      · exact h.normalised record hrecord
      · rw [List.mem_singleton.1 hrecord]
        show posix (posix fields.path) = posix fields.path
        rw [posix, posix, ofString_toString (wellFormed_ofString _)]
    · show ((cat.records ++ [_]).map FileRecord.path).Nodup
      rw [List.map_append]
      refine List.nodup_append.2 ⟨h.distinct, List.nodup_singleton _, fun path hpath other hother => ?_⟩
      obtain ⟨record, hrecord, rfl⟩ := List.mem_map.1 hpath
      rw [List.mem_singleton.1 hother]
      exact fun heq => List.find?_eq_none.1 hget record hrecord (decide_eq_true heq)
  | some found =>
    have hpath : ∀ record : FileRecord, (if record.id = found.id then fields.overwrite record else record).path = record.path := by
      intro record
      split <;> rfl
    refine { normalised := fun record hrecord => ?_, distinct := ?_ }
    · obtain ⟨old, hold, rfl⟩ := List.mem_map.1 hrecord
      rw [hpath]
      exact h.normalised old hold
    · show ((cat.records.map fun record => if record.id = found.id then fields.overwrite record else record).map FileRecord.path).Nodup
      rw [List.map_map]
      have hpaths := h.distinct
      rw [← List.map_congr_left fun record _ => hpath record] at hpaths
      exact hpaths

/-- Every call keeps the paths in order. -/
theorem pathsKept_exec (h : PathsKept w.catalog) (o : Op) (c : Choice) : PathsKept (w.exec sha256 o c).2.catalog := by
  by_cases hquiet : World.writesFiles o = false
  · exact h.of_records (World.exec_files sha256 hquiet).1
  by_cases hneutral : o.isNeutral = true
  · exact h.of_records (IsolationAux.exec_neutral hneutral).records
  refine World.exec_post sha256 (fun w' => PathsKept w'.catalog) (h.of_records rfl) ?_
  cases o with
  | catalog o =>
    cases o with
    | createFileRecord fields =>
      have hkept : PathsKept (w.elapse c).catalog := h.of_records rfl
      exact pathsKept_createFileRecord hkept (w.elapse c).clock fields
    | createFileInstance id barcode path => exact h.of_records rfl
    | createStagedInstance jobId id barcode path =>
      show PathsKept ((w.elapse c).execCatalog c (.createStagedInstance jobId id barcode path)).2
      rcases Catalog.createStagedInstance_cases (w.elapse c).catalog (w.elapse c).clock jobId id barcode path with
        ⟨e, he⟩ | ⟨cat', he, hs⟩
      · have hpost : ((w.elapse c).execCatalog c (.createStagedInstance jobId id barcode path)).2 = (w.elapse c).catalog :=
          congrArg Prod.snd he
        exact h.of_records ((congrArg Catalog.records hpost).trans rfl)
      · have hpost : ((w.elapse c).execCatalog c (.createStagedInstance jobId id barcode path)).2 = cat' := congrArg Prod.snd he
        exact h.of_records ((congrArg Catalog.records hpost).trans hs.records)
    | _ => first | exact absurd rfl hquiet | exact absurd rfl hneutral
  | _ => exact absurd rfl hquiet

theorem pathsKept_run {α : Type} (h : PathsKept w.catalog) (cs : List Choice) (p : Prog Op (fun o => Except Exn o.Ans) α) :
    PathsKept ((machine sha256).run cs p w).2.catalog := by
  by_contra hlost
  obtain ⟨st, -, ⟨c, hst⟩, hpre, hpost⟩ :=
    Machine.exists_step_of_run (J := fun w : World => ¬PathsKept w.catalog) (not_not.2 h) hlost
  rw [hst] at hpost
  exact hpost (pathsKept_exec (not_not.1 hpre) st.op c)

theorem pathsKept_after (h : PathsKept w.catalog) (event : ArchiveEvent) (cs : List Choice) :
    PathsKept (event.after sha256 cs w).catalog := by
  cases event with
  | archive request scheduler jobId => exact pathsKept_run h cs _
  | shardedArchive request scheduler jobId => exact pathsKept_run h cs _
  | mark barcode state =>
    have hadded := Catalog.sameFiles_addCartridge w.catalog barcode none
    have hmarked := Catalog.sameFiles_setCartridgeState (w.catalog.addCartridge barcode none).2 barcode state
    exact h.of_records (hmarked.records.trans hadded.records)

theorem pathsKept_history (history : List (ArchiveEvent × List Choice)) (hw : PathsKept w.catalog) :
    PathsKept (history.foldl (fun w entry => entry.1.after sha256 entry.2 w) w).catalog := by
  induction history generalizing w with
  | nil => exact hw
  | cons entry history ih => exact ih (pathsKept_after hw entry.1 entry.2)

end jobs

end NamespaceAux

open NamespaceAux in
/-- What archive jobs of both kinds leave in an empty catalog, in any history and cut anywhere, is mounted as a faithful tree exactly
when the paths of the records make a tree. -/
theorem namespace_faithful_iff (sha256 : Bytes → String) (history : List (ArchiveEvent × List Choice)) (w : World)
    (hw : w.catalog.records = []) (uid gid : Nat) :
    let cat := (history.foldl (fun w entry => entry.1.after sha256 entry.2 w) w).catalog
    CatalogFuseOperations.FaithfulTree { catalog := cat, uid := uid, gid := gid } ↔ TreeShaped cat := by
  intro cat
  have hempty : PathsKept w.catalog :=
    ⟨fun _ hrecord => absurd (hw ▸ hrecord) List.not_mem_nil, by rw [hw]; exact List.nodup_nil⟩
  have hkept : PathsKept (CatalogFuseOperations.mk cat uid gid).catalog := pathsKept_history history hempty
  exact ⟨shaped_of_faithful hkept, faithful_of_shaped hkept⟩

/-- Files of users at plain places, none of them above another, make a tree. -/
theorem NamespaceAux.treeShaped_of_plain {cat : Catalog}
    (hplain : ∀ record ∈ cat.records, record.parentId = none ∧ (PurePosixPath.ofString record.path).root = "/" ∧
      (PurePosixPath.ofString record.path).parts ≠ [] ∧ ".." ∉ (PurePosixPath.ofString record.path).parts)
    (hapart : ∀ record ∈ cat.records, ∀ other ∈ cat.records,
      (PurePosixPath.ofString record.path).parts <+: (PurePosixPath.ofString other.path).parts →
        (PurePosixPath.ofString record.path).parts = (PurePosixPath.ofString other.path).parts) : TreeShaped cat := by
  have hparts : ∀ {record : FileRecord} {comps : List String}, record.IsAt comps →
      (PurePosixPath.ofString record.path).parts = comps := fun hat => congrArg PurePosixPath.parts hat
  refine { rooted := ?_, unsharded := fun record hrecord comps _ hshard => absurd (hplain record hrecord).1 hshard
           onward := fun dir name hup hleads => ⟨?_, ?_⟩, plain := fun record hrecord _ => ?_ }
  · rintro ⟨record, hrecord, -, hat⟩
    exact (hplain record hrecord).2.2.1 (hparts hat)
  · rintro ⟨record, hrecord, -, hat⟩
    obtain ⟨rest, other, hother, -, hat'⟩ := hleads
    have hsame := hapart record hrecord other hother (by rw [hparts hat, hparts hat']; exact List.prefix_append _ _)
    rw [hparts hat, hparts hat'] at hsame
    have hlength := congrArg List.length hsame
    simp at hlength
  · rintro rfl
    obtain ⟨rest, other, hother, -, hat⟩ := hleads
    refine absurd ?_ (hplain other hother).2.2.2
    rw [hparts hat]
    simp
  · obtain ⟨-, hroot, -, hup⟩ := hplain record hrecord
    refine ⟨_, ?_, hup⟩
    unfold FileRecord.IsAt placePath
    rw [← hroot]

namespace MountedJobs

open TwoGroups

/-- The tape is known to the group. -/
def ready : World :=
  { world with catalog := { world.catalog with
      nextId := 1, volumeGroups := [{ id := 0, name := "vg" }], cartridges := [{ barcode := "T1", volumeGroupId := some 0 }] } }

def classicHistory : List (ArchiveEvent × List Choice) := [(.archive classic scheduler "J", List.replicate 60 {})]

def shardedHistory : List (ArchiveEvent × List Choice) := [(.shardedArchive lane scheduler "J", List.replicate 60 {})]

/-- The catalog after a history, mounted. -/
def mountedAfter (history : List (ArchiveEvent × List Choice)) (w : World) : CatalogFuseOperations :=
  { catalog := (history.foldl (fun w entry => entry.1.after bytesSum entry.2 w) w).catalog, uid := 1000, gid := 1000 }

end MountedJobs

open MountedJobs TwoGroups in
/-- An archived file is mounted in the directory of its group. -/
theorem namespace_faithful_classic :
    (mountedAfter classicHistory ready).readdir "/vg" = .ok [".", "..", "b"] ∧ (mountedAfter classicHistory ready).FaithfulTree :=
  ⟨by decide +kernel, (namespace_faithful_iff bytesSum classicHistory ready rfl 1000 1000).2
    (NamespaceAux.treeShaped_of_plain (by decide +kernel) (by decide +kernel))⟩

open MountedJobs TwoGroups in
/-- The record of a shard is a file that its directory does not list. -/
theorem shard_not_listed : ¬∀ (sha256 : Bytes → String) (history : List (ArchiveEvent × List Choice)) (w : World),
    w.catalog.records = [] → ∀ uid gid, CatalogFuseOperations.FaithfulTree
      { catalog := (history.foldl (fun w entry => entry.1.after sha256 entry.2 w) w).catalog, uid := uid, gid := gid } := by
  intro h
  have hfaithful : (mountedAfter shardedHistory world).FaithfulTree := h bytesSum shardedHistory world rfl 1000 1000
  have hkind : ((mountedAfter shardedHistory world).getattr "/src/a#shard0000").toOption.map FileAttributes.stMode = some fileMode := by
    decide +kernel
  have hnames : (mountedAfter shardedHistory world).readdir (mountPath ["src"]) = .ok [".", "..", "a"] := by decide +kernel
  cases hget : (mountedAfter shardedHistory world).getattr "/src/a#shard0000" with
  | error e =>
    rw [hget] at hkind
    cases hkind
  | ok attributes =>
    obtain ⟨names, hread, hname⟩ := hfaithful.listed _ _ hget ["src"] "a#shard0000" (by decide)
    rw [hnames] at hread
    obtain rfl := Except.ok.inj hread
    exact absurd hname (by decide)

end OpenBlade
