import Mathlib
import OpenBlade.Fuse.Namespace

/-!
# What a tree restore is to restore

`jobs/tree_restore.py`, up to the plan: the files below a prefix of the catalog, each with the cartridge it is read from first and the
place under the destination directory it goes to.
-/

namespace OpenBlade

/-- `TreeRestoreRequest`. -/
structure TreeRestoreRequest where
  catalogPrefix : String
  destDir : PurePosixPath
  dryRun : Bool := false
  deriving Repr, DecidableEq

/-- `_PlannedFile`. -/
structure PlannedFile where
  catalogPath : String
  destPath : PurePosixPath
  sizeBytes : Nat
  barcode : Barcode
  sharded : Bool
  deriving Repr, DecidableEq

/-- `_normalize_prefix`. -/
def normalizePrefix (text : String) : String := ((PurePosixPath.ofString "/").join (.ofString (lstripSlash (strip text)))).toString

/-- `path.parts`: the root is the first of them, if there is one. -/
def PurePosixPath.allParts (path : PurePosixPath) : List String := (if path.root = "" then [] else [path.root]) ++ path.parts

def unsafeCatalogPath (message : String) : Exn := { cls := .typed "UnsafeCatalogPathError", message := message }

section

-- `repr` of a text.
variable (quote : String → String)

/-- The parts of a catalog path that come after the prefix. -/
def partsUnder (catalogPath pre : String) : Except Exn (List String) :=
  let path := PurePosixPath.ofString catalogPath
  if pre = "/" then .ok (path.allParts.drop 1)
  else if catalogPath = pre then .ok [path.name]
  else
    match path.relativeTo (.ofString pre) with
    | some relative => .ok relative.allParts
    | none => .error (valueError (quote path.toString ++ " is not in the subpath of " ++ quote (posix pre)))

/-- `_relative_parts`: where a file goes under the destination directory. -/
def relativeParts (catalogPath pre : String) : Except Exn (List String) := do
  let parts ← partsUnder quote catalogPath pre
  if ".." ∈ parts then
    .error (unsafeCatalogPath ("Catalog path " ++ quote catalogPath ++ " contains a '..' component; refusing " ++
      "rather than rewriting it into a different destination"))
  else
    let safe := parts.filter fun part => part ≠ "" ∧ part ≠ "/" ∧ part ≠ "."
    if safe = [] then
      .error (unsafeCatalogPath ("Catalog path " ++ quote catalogPath ++ " has no component that can be written " ++
        "safely under a destination directory (prefix " ++ quote pre ++ "); refusing rather than writing outside --dest"))
    else .ok safe

/-- `_select_records`: the query gives records whose path is like the prefix; those count that are the prefix or begin with it and a
slash. -/
def selectRecords (cat : Catalog) (pre : String) : List FileRecord :=
  (cat.listFileRecords pre).filter fun record =>
    pre = "/" ∨ record.path = pre ∨ (String.ofList (pre.toList.rdropWhile (· = '/')) ++ "/").toList.isPrefixOf record.path.toList

/-- The barcodes of instances that were archived, in their order. -/
def archivedBarcodes (rows : List FileInstance) : List Barcode :=
  ((rows.filter fun row => row.state = .archived ∨ row.state = .verified).map FileInstance.barcode).dedup.insertionSort (· ≤ ·)

/-- The shards of a record make it sharded, and so does their count. -/
def isSharded (cat : Catalog) (record : FileRecord) : Bool :=
  !(cat.listShardRecords record.id).isEmpty || decide (1 < if record.shardCount.getD 0 = 0 then 1 else record.shardCount.getD 0)

/-- The cartridges a record is on; of a sharded one that is on none, those its shards are on. -/
def restoreBarcodes (cat : Catalog) (record : FileRecord) : List Barcode :=
  let barcodes := archivedBarcodes (cat.instancesOf record.id)
  if barcodes = [] ∧ isSharded cat record then
    archivedBarcodes ((cat.listShardRecords record.id).flatMap fun shard => cat.instancesOf shard.id)
  else barcodes

/-- What is planned for a record; one that was never archived is skipped. -/
def planRecord (cat : Catalog) (destDir : PurePosixPath) (pre : String) (record : FileRecord) : Except Exn (PlannedFile ⊕ String) :=
  match restoreBarcodes cat record with
  | [] => .ok (.inr record.path)
  | barcode :: _ => do
    let parts ← relativeParts quote record.path pre
    .ok (.inl
      { catalogPath := record.path
        destPath := parts.foldl (fun path part => path.join (.ofString part)) destDir
        sizeBytes := record.sizeBytes
        barcode := barcode
        sharded := isSharded cat record })

/-- `plan_tree_restore`: the files in the order of their cartridges, and the paths that are skipped. -/
def planTreeRestore (request : TreeRestoreRequest) (cat : Catalog) : Except Exn (List PlannedFile × List String) := do
  let pre := normalizePrefix request.catalogPrefix
  let found ← (selectRecords cat pre).mapM (planRecord quote cat request.destDir pre)
  .ok ((found.filterMap Sum.getLeft?).insertionSort fun a b => toLex (a.barcode, a.catalogPath) ≤ toLex (b.barcode, b.catalogPath),
    (found.filterMap Sum.getRight?).insertionSort (· ≤ ·))

end

end OpenBlade
