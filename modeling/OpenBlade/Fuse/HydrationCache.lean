import Mathlib
import OpenBlade.Codec.Hex
import OpenBlade.Domain.Models

/-!
# The hydration cache

`HydrationCache` of `fuse/cache.py`: files under the checksum of their content, an integrity record beside each, the order of use
with the size of every entry, and how many open handles an entry has. Files are known by their directory and name, so an
integrity record and an entry of that name are one file. A temporary file has a name of its own and is gone when the operation
ends.
-/

namespace OpenBlade

open Effects Codec

namespace Cache

/-- A file of the cache directory, and when it was last written. -/
structure File where
  bytes : Bytes
  mtimeNs : Nat
  deriving Repr, DecidableEq

/-- The integrity record of an entry. -/
structure Record where
  size : Nat
  mtimeNs : Nat
  offset : Nat
  length : Nat
  sha256 : String
  deriving Repr, DecidableEq

/-- An item of `index.json`: a checksum with its size, if `int` reads one; a pair whose first is no text; anything else. -/
inductive IndexItem where
  | entry (checksum : String) (size : Option Int)
  | unnamed
  | malformed
  deriving Repr, DecidableEq

/-- What `index.json` holds. -/
inductive Index where
  | unreadable
  | items (entries : List IndexItem)
  deriving Repr, DecidableEq

/-- A file by its directory and name. -/
abbrev Key : Type := String × String

/-- The cache directory. -/
structure Directory where
  files : Dict Key File := []
  index : Option Index := none
  /-- A directory has one file of a name. -/
  distinct : files.keys.Nodup := by decide
  deriving Repr, DecidableEq

namespace Directory

def write (dir : Directory) (key : Key) (file : File) : Directory :=
  { dir with files := dir.files.set key file, distinct := Dict.nodup_keys_set dir.distinct }

/-- `path.unlink(missing_ok=True)`. -/
def unlink (dir : Directory) (key : Key) : Directory :=
  { dir with files := dir.files.erase key, distinct := Dict.nodup_keys_erase dir.distinct }

end Directory

/-- SHA-256, and the text of an integrity record as `json` writes and reads it. -/
structure Libraries where
  digest : Bytes → Bytes
  dumps : Record → Bytes
  loads : Bytes → Option Record

/-- `hashlib.sha256(data).hexdigest()`. -/
def Libraries.hexdigest (lib : Libraries) (data : Bytes) : String := String.ofList (toHex (lib.digest data))

/-- `SAMPLE_BYTES`. -/
def sampleBytes : Nat := 64 * 1024

/-- `_sample_offset`. -/
def sampleOffset (lib : Libraries) (checksum : String) (size : Nat) : Nat :=
  if size ≤ sampleBytes then 0
  else
    let seed := ofDigits 256 (((lib.digest checksum.toUTF8.toList).take 8).map UInt8.toNat)
    seed % max 1 (size - sampleBytes)

/-- `_sample_digest`. -/
def sampleDigest (lib : Libraries) (file : File) (offset length : Nat) : String :=
  lib.hexdigest ((file.bytes.drop offset).take length)

def unsafeName : Exn := { cls := .typed "CacheError", message := "checksum is not a safe cache path component" }

def inUse (checksum : String) : Exn :=
  { cls := .other "CacheEntryInUseError", message := checksum ++ " has open handles" }

def unverified (checksum : String) : Exn :=
  { cls := .typed "CacheChecksumError", message := "staged bytes for " ++ checksum ++ " failed verification" }

def evictedEntry : Exn :=
  { cls := .typed "CacheIntegrityError", message := "cached entry failed integrity verification and was evicted" }

def mismatch (checksum actual : String) : Exn :=
  { cls := .typed "CacheChecksumError", message := "Cache integrity failure: expected " ++ checksum ++ ", got " ++ actual }

def notInCache (checksum : String) : Exn := { cls := .other "FileNotFoundError", message := "Not in cache: " ++ checksum }

def invalidRange (offset length : Int) : Exn :=
  { cls := .typed "CacheError", message := "invalid range offset=" ++ toString offset ++ " length=" ++ toString length }

def ioError (message : String) : Exn := { cls := .other "OSError", message := message }

/-- What `cache_key` accepts as one component of a path. -/
def isSafe (checksum : String) : Bool :=
  checksum ∉ ["", ".", ".."] ∧ checksum.toList.all fun c => c ∉ ['/', '\\', Char.ofNat 0]

/-- The file of a checksum. -/
def entryKey (checksum : String) : Key := (String.ofList (checksum.toList.take 2), checksum)

/-- `meta_key`: beside the file of the checksum. -/
def metaKey (checksum : String) : Key := ((entryKey checksum).1, checksum ++ ".meta.json")

/-- Names the scan of the directory passes over. -/
def isHidden (name : String) : Bool := (['.'].isPrefixOf name.toList) || (".meta.json".toList.isSuffixOf name.toList)

end Cache

open Cache

structure HydrationCache where
  maxBytes : Option Int := none
  /-- `_lru`, the least recently used first. -/
  lru : Dict String Int := []
  /-- `_refs`. -/
  refs : Dict String Nat := []
  dir : Directory := {}
  deriving Repr, DecidableEq

namespace HydrationCache

/-- `cache_key`. -/
def cacheKey (checksum : String) : Except Exn Key := if isSafe checksum then .ok (entryKey checksum) else .error unsafeName

variable (cache : HydrationCache)

/-- The file of an entry, if it is there. -/
def file? (checksum : String) : Option File := cache.dir.files.get? (entryKey checksum)

/-- `is_cached`. -/
def isCached (checksum : String) : Except Exn Bool := do
  let key ← cacheKey checksum
  pure (cache.dir.files.get? key).isSome

def writeFile (key : Key) (file : File) : HydrationCache :=
  { cache with dir := cache.dir.write key file }

def unlink (key : Key) : HydrationCache := { cache with dir := cache.dir.unlink key }

/-- `_persist_index`. -/
def persistIndex : HydrationCache :=
  { cache with dir := { cache.dir with index := some (.items (cache.lru.map fun entry => .entry entry.1 (some entry.2))) } }

/-- `open_count`. -/
def openCount (checksum : String) : Nat := (cache.refs.get? checksum).getD 0

/-- `used_bytes`. -/
def usedBytes : Int := (cache.lru.map Prod.snd).sum

/-- `_lru.move_to_end`, of an entry that may not be there. -/
def moveToEnd (checksum : String) : HydrationCache :=
  match cache.lru.get? checksum with
  | some size => { cache with lru := cache.lru.erase checksum ++ [(checksum, size)] }
  | none => cache

/-- An entry leaves the order of use and the disk, with its integrity record. -/
def forget (checksum : String) : HydrationCache :=
  ({ cache with lru := cache.lru.erase checksum }.unlink (entryKey checksum)).unlink (metaKey checksum)

/-- An entry is forgotten, and the index is written. -/
def dropEntry (checksum : String) : HydrationCache := (cache.forget checksum).persistIndex

/-- `evict`. -/
def evict (checksum : String) : Except Exn Unit × HydrationCache :=
  if 0 < cache.openCount checksum then (.error (inUse checksum), cache)
  else
    match cacheKey checksum with
    | .error e => (.error e, { cache with lru := cache.lru.erase checksum })
    | .ok _ => (.ok (), cache.dropEntry checksum)

/-- The loop of `_enforce_budget` over entries, the oldest first. -/
def evictOldest (budget : Int) : List String → HydrationCache → Except Exn Unit × HydrationCache
  | [], cache => (.ok (), cache)
  | checksum :: rest, cache =>
    if cache.usedBytes ≤ budget then (.ok (), cache)
    else if 0 < cache.openCount checksum then evictOldest budget rest cache
    else
      match cache.evict checksum with
      | (.ok (), cache) => evictOldest budget rest cache
      | (.error e, cache) => (.error e, cache)

/-- `_enforce_budget`; the newest entry is exempt. -/
def enforceBudget : Except Exn Unit × HydrationCache :=
  match cache.maxBytes with
  | none => (.ok (), cache)
  | some budget => evictOldest budget (cache.lru.keys.dropLast) cache

/-- `acquire`. -/
def acquire (checksum : String) : HydrationCache :=
  { cache with refs := cache.refs.set checksum (cache.openCount checksum + 1) }.moveToEnd checksum

/-- A handle less, before the budget is looked at. -/
def unpin (checksum : String) : HydrationCache :=
  if cache.openCount checksum ≤ 1 then { cache with refs := cache.refs.erase checksum }
  else { cache with refs := cache.refs.set checksum (cache.openCount checksum - 1) }

/-- `release`. -/
def release (checksum : String) : Except Exn Unit × HydrationCache := (cache.unpin checksum).enforceBudget

/-- An entry is counted with its size, as the newest. -/
def count (checksum : String) (size : Nat) : HydrationCache :=
  { cache with lru := cache.lru.set checksum size }.moveToEnd checksum

/-- `_track`. -/
def track (checksum : String) (size : Nat) : Except Exn Unit × HydrationCache :=
  match (cache.count checksum size).enforceBudget with
  | (.error e, cache) => (.error e, cache)
  | (.ok (), cache) => (.ok (), cache.persistIndex)

variable (lib : Libraries)

/-- The integrity record of a file. -/
def recordOf (checksum : String) (file : File) : Record :=
  let offset := sampleOffset lib checksum file.bytes.length
  let length := min sampleBytes file.bytes.length
  { size := file.bytes.length, mtimeNs := file.mtimeNs, offset, length, sha256 := sampleDigest lib file offset length }

/-- `_write_meta` beside a file just written. -/
def writeMeta (checksum : String) (file : File) (now : Nat) : HydrationCache :=
  cache.writeFile (metaKey checksum) { bytes := lib.dumps (recordOf lib checksum file), mtimeNs := now }

/-- Where an operation that writes may be stopped by an I/O error: in the write of the file, or of its integrity record. -/
inductive StoreFault where
  | atFile (written : Nat)
  | atRecord
  deriving Repr, DecidableEq

/-- `store`. -/
def store (checksum : String) (data : Bytes) (now : Nat) (fault : Option StoreFault) : Except Exn Unit × HydrationCache :=
  match cacheKey checksum with
  | .error e => (.error e, cache)
  | .ok key =>
    let file : File := { bytes := data, mtimeNs := now }
    match fault with
    | some (.atFile written) => (.error (ioError "write"), cache.writeFile key { bytes := data.take written, mtimeNs := now })
    | some .atRecord => (.error (ioError "write"), cache.writeFile key file)
    | none => ((cache.writeFile key file).writeMeta lib checksum file now).track checksum data.length

/-- `store_verified`, of a staged file. The file gets its name only when all of it is written and verified. -/
def storeVerified (checksum : String) (staged : Option Bytes) (now : Nat) (fault : Option StoreFault) :
    Except Exn Unit × HydrationCache :=
  match cacheKey checksum with
  | .error e => (.error e, cache)
  | .ok key =>
    match staged with
    | none => (.error (ioError "staged file is missing"), cache)
    | some data =>
      let file : File := { bytes := data, mtimeNs := now }
      match fault with
      | some (.atFile _) => (.error (ioError "write"), cache)
      | some .atRecord =>
        if lib.hexdigest data ≠ checksum then (.error (unverified checksum), cache)
        else (.error (ioError "write"), cache.writeFile key file)
      | none =>
        if lib.hexdigest data ≠ checksum then (.error (unverified checksum), cache)
        else ((cache.writeFile key file).writeMeta lib checksum file now).track checksum data.length

/-- `_entry_matches`. -/
def entryMatches (checksum : String) : Bool :=
  match (cache.dir.files.get? (metaKey checksum)).bind (fun file => lib.loads file.bytes), cache.file? checksum with
  | some record, some file =>
    let offset := sampleOffset lib checksum file.bytes.length
    let length := min sampleBytes file.bytes.length
    file.bytes.length = record.size ∧ file.mtimeNs = record.mtimeNs ∧ record.offset = offset ∧ record.length = length ∧
      sampleDigest lib file offset length = record.sha256
  | _, _ => false

/-- `verify_entry`. -/
def verifyEntry (checksum : String) : Except Exn Bool × HydrationCache :=
  match cacheKey checksum with
  | .error e => (.error e, cache)
  | .ok _ => if cache.entryMatches lib checksum then (.ok true, cache) else (.error evictedEntry, cache.dropEntry checksum)

/-- `retrieve`. -/
def retrieve (checksum : String) : Except Exn Bytes × HydrationCache :=
  match cacheKey checksum with
  | .error e => (.error e, cache)
  | .ok key =>
    match cache.dir.files.get? key with
    | none => (.error (notInCache checksum), cache)
    | some file =>
      if lib.hexdigest file.bytes ≠ checksum then
        (.error (mismatch checksum (lib.hexdigest file.bytes)), cache.unlink key)
      else (.ok file.bytes, cache)

/-- `read_range`. -/
def readRange (checksum : String) (offset length : Int) : Except Exn Bytes :=
  if offset < 0 ∨ length < 0 then .error (invalidRange offset length)
  else do
    let key ← cacheKey checksum
    match cache.dir.files.get? key with
    | none => .error (notInCache checksum)
    | some file => .ok ((file.bytes.drop offset.toNat).take length.toNat)

/-! ## Opening a directory -/

/-- An item of the index, as `_load_index` takes it; anything unexpected ends the reading. -/
def readItem (dir : Directory) (lru : Dict String Int) : IndexItem → Option (Dict String Int)
  | .unnamed => some lru
  | .malformed => none
  | .entry checksum size =>
    match cacheKey checksum with
    | .error _ => none
    | .ok key => if (dir.files.get? key).isSome then size.map fun size => lru.set checksum size else some lru

/-- What the index says of the files that are there. -/
def readIndex (dir : Directory) : Dict String Int :=
  match dir.index with
  | none | some .unreadable => []
  | some (.items entries) => (entries.foldlM (readItem dir) []).getD []

/-- The order in which `sorted` has two paths. -/
def keyLE (a b : Key) : Prop := a.1 < b.1 ∨ a.1 = b.1 ∧ a.2 ≤ b.2

instance (a b : Key) : Decidable (keyLE a b) := inferInstanceAs (Decidable (_ ∨ _))

/-- The files of `glob("??/*")` that count as entries, in order. -/
def scan (dir : Directory) : List (Key × File) :=
  (dir.files.filter fun entry => entry.1.1.length = 2 ∧ isHidden entry.1.2 = false).insertionSort fun a b => keyLE a.1 b.1

/-- `_load_index`. -/
def loadIndex (dir : Directory) : Dict String Int :=
  (scan dir).foldl (fun lru entry => if (lru.get? entry.1.2).isSome then lru else lru.set entry.1.2 entry.2.bytes.length)
    (readIndex dir)

/-- `HydrationCache(cache_dir, max_bytes)`. -/
def openDirectory (maxBytes : Option Int) (dir : Directory) : Except Exn Unit × HydrationCache :=
  ({ maxBytes, lru := loadIndex dir, dir } : HydrationCache).enforceBudget

end HydrationCache

end OpenBlade
