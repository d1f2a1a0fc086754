import OpenBlade.Domain.Normpath
import OpenBlade.Effects.Possible
import OpenBlade.Effects.Traverse
import OpenBlade.Nas.SharePush
import OpenBlade.Nas.TapeOrchestrator

/-!
# Where the real LTFS backend looks on the host

The file calls of `RealLTFSBackend` (`hardware/ltfs.py`) join a tape path to the directory the cartridge is mounted at. The path is
stripped of its leading slashes and nothing else is asked of it, so that ".." climbs out of the mount; `tape_paths_confined_iff` says
which paths stay inside, whether they are handed to the backend or come through a request to the orchestrator.
-/

namespace OpenBlade

open Effects Proc

/-! ### Paths -/

/-- Where the process runs and where it mounts tapes. -/
structure LtfsHost where
  cwd : String
  isAbsolute : cwd.toList.head? = some '/'
  /-- `config.ltfs_mount_root`. -/
  mountRoot : String
  /-- `str.upper`. -/
  upper : String → String
  /-- `hashlib.sha256(content).hexdigest()`. -/
  digest : Bytes → String

/-- `_relative_tape_path`. -/
def relativeTapePath (path : String) : PurePosixPath := .ofString (lstripSlash path)

/-- `self.mount_root / Barcode(barcode).value`. -/
def LtfsHost.mountPath (host : LtfsHost) (barcode : Barcode) : PurePosixPath :=
  (PurePosixPath.ofString host.mountRoot).join (.ofString barcode)

/-- The place a host path names, with "." and ".." resolved. -/
def LtfsHost.place (host : LtfsHost) (path : PurePosixPath) : PurePosixPath :=
  resolvedPath ((PurePosixPath.ofString host.cwd).join path).toString

/-- A host path that is accessed for a tape path. -/
structure HostAccess where
  mountPath : PurePosixPath
  path : PurePosixPath
  deriving DecidableEq

/-- The path lies strictly inside the mount directory. -/
def HostAccess.Confined (host : LtfsHost) (access : HostAccess) : Prop :=
  (host.place access.path).root = (host.place access.mountPath).root ∧
    ∃ name rest, (host.place access.path).parts = (host.place access.mountPath).parts ++ name :: rest

/-- One component read from inside a directory: how many levels were climbed above it, and the names below. -/
def climbStep (climbed : Nat × List String) (comp : String) : Nat × List String :=
  if comp = ".." then (if climbed.2 = [] then (climbed.1 + 1, []) else (climbed.1, climbed.2.dropLast))
  else (climbed.1, climbed.2 ++ [comp])

/-- Where a tape path leads, seen from the directory it starts in. -/
def climb (path : String) : Nat × List String := (PurePosixPath.ofString path).parts.foldl climbStep (0, [])

/-- The path names something in the directory whose components are `dir`; where it climbs out, it comes back by the names it has
climbed over. -/
def StaysBelow (dir : List String) (path : String) : Prop :=
  ∃ name rest, (climb path).2 = dir.drop (dir.length - (climb path).1) ++ name :: rest

/-! ### The backend -/

inductive HostNode where
  | file (content : Bytes)
  | directory
  deriving DecidableEq

/-- What others answer while a call runs. -/
structure LtfsEnvironment where
  /-- `library.find_drive_by_barcode`. -/
  driveOf : Barcode → Option Int
  /-- The drive has a device and the mount command succeeds. -/
  mounts : PurePosixPath → MountMode → Bool
  unmounts : PurePosixPath → Bool
  /-- The host's file system refuses an access. -/
  refuses : PurePosixPath → Bool

structure RealLtfs where
  /-- `_active_mounts`, in the order of mounting. -/
  activeMounts : List MountHandle := []
  minted : Nat := 0
  /-- A handle's id is drawn anew. -/
  isMinted : ∀ active ∈ activeMounts, active.handleId < minted := by simp
  files : PurePosixPath → Option HostNode
  /-- The host paths that were accessed for tape paths. -/
  accessed : List HostAccess := []

def hostError (message : String) : Exn := { cls := .other "OSError", message := message }

namespace RealLtfs

variable (host : LtfsHost) (env : LtfsEnvironment)

/-- `_require_active_mount`. -/
def requireActiveMount (s : RealLtfs) (handle : MountHandle) : Except Exn MountHandle :=
  match s.activeMounts.find? fun active => active.handleId = handle.handleId with
  | none => .error (valueError ("Mount handle " ++ toString handle.handleId ++ " is not active"))
  | some active => .ok active

/-- `mount`. -/
def mount (barcode : Barcode) (mode : MountMode) (s : RealLtfs) : Except Exn MountHandle × RealLtfs :=
  match env.driveOf barcode with
  | none => (.error (valueError ("Barcode " ++ barcode ++ " is not loaded in a drive")), s)
  | some driveId =>
    match normalizeBarcode host.upper barcode with
    | .error e => (.error e, s)
    | .ok value =>
      if env.mounts (host.mountPath value) mode then
        let handle := { handleId := s.minted, barcode := value, driveId := driveId, mode := mode }
        (.ok handle, { s with
          activeMounts := s.activeMounts ++ [handle]
          minted := s.minted + 1
          isMinted := by
            intro active hactive
            rcases List.mem_append.1 hactive with h | h
            · exact Nat.lt_succ_of_lt (s.isMinted active h)
            · rw [List.mem_singleton.1 h]
              exact Nat.lt_succ_self _ })
      else (.error { cls := .other "RuntimeError", message := "mount failed" }, s)

/-- `unmount`. -/
def unmount (handle : MountHandle) (s : RealLtfs) : Except Exn OperationResult × RealLtfs :=
  match s.requireActiveMount handle with
  | .error e => (.error e, s)
  | .ok active =>
    if env.unmounts (host.mountPath active.barcode) then
      (.ok ⟨true, "unmounted"⟩, { s with
        activeMounts := s.activeMounts.filter fun other => other.handleId ≠ active.handleId
        isMinted := fun other hother => s.isMinted other (List.mem_of_mem_filter hother) })
    else (.ok ⟨false, "unmount failed"⟩, s)

/-- `handle.mount_path / _relative_tape_path(path)`. -/
def target (barcode : Barcode) (path : String) : PurePosixPath := (host.mountPath barcode).join (relativeTapePath path)

/-- The access to that path. -/
def access (barcode : Barcode) (path : String) : HostAccess := ⟨host.mountPath barcode, target host barcode path⟩

def touch (barcode : Barcode) (path : String) (s : RealLtfs) : RealLtfs :=
  { s with accessed := s.accessed ++ [access host barcode path] }

/-- The directories above a place. -/
def parents (place : PurePosixPath) : List PurePosixPath :=
  (List.range place.parts.length).map fun n => { place with parts := place.parts.take n }

/-- `target.parent.mkdir(parents=True, exist_ok=True)` and `target.write_bytes(content)`. -/
def writeHost (path : PurePosixPath) (content : Bytes) (s : RealLtfs) : Except Exn Unit × RealLtfs :=
  let place := host.place path
  if env.refuses path then (.error (hostError "refused"), s)
  else if (parents place).any fun dir => (s.files dir).any fun node => node ≠ .directory then (.error (hostError "Not a directory"), s)
  else
    let made := fun other => if other ∈ parents place then some .directory else s.files other
    if s.files place = some .directory then (.error (hostError "Is a directory"), { s with files := made })
    else (.ok (), { s with files := fun other => if other = place then some (.file content) else made other })

/-- `path.exists()` and `path.read_bytes()`. -/
def readHost (path : PurePosixPath) (s : RealLtfs) : Except Exn (Option Bytes) :=
  match s.files (host.place path) with
  | none => .ok none
  | some node =>
    if env.refuses path then .error (hostError "refused")
    else
      match node with
      | .directory => .error (hostError "Is a directory")
      | .file content => .ok (some content)

/-- `write_bytes`, of a destination that is given as text. -/
def writeBytes (handle : MountHandle) (dest : String) (content : Bytes) (s : RealLtfs) : Except Exn Unit × RealLtfs :=
  match s.requireActiveMount handle with
  | .error e => (.error e, s)
  | .ok active =>
    if active.mode ≠ .readWrite then
      (.error { cls := .other "PermissionError", message := "Cannot write to a read-only LTFS mount" }, s)
    else writeHost host env (target host active.barcode dest) content (s.touch host active.barcode dest)

/-- `write_file`; a source that cannot be read is none. -/
def writeFile (handle : MountHandle) (source : Option Bytes) (dest : String) (s : RealLtfs) : Except Exn Unit × RealLtfs :=
  match source with
  | none => (.error (hostError "No such file"), s)
  | some content => writeBytes host env handle dest content s

/-- `read_bytes(path)`: what the first active mount that has the path holds there. -/
def readActive (path : String) : List MountHandle → RealLtfs → Except Exn (Option Bytes) × RealLtfs
  | [], s => (.ok none, s)
  | active :: rest, s =>
    let touched := s.touch host active.barcode path
    match readHost host env (target host active.barcode path) touched with
    | .ok none => readActive path rest touched
    | found => (found, touched)

/-- `read_bytes(barcode, path)`. -/
def readBytes (barcode : Barcode) (path : String) (s : RealLtfs) : Except Exn (Option Bytes) × RealLtfs :=
  match mount host env barcode .readOnly s with
  | (.error e, s) => (.error e, s)
  | (.ok handle, s) =>
    let touched := s.touch host handle.barcode path
    let found := readHost host env (target host handle.barcode path) touched
    match unmount host env handle touched with
    | (.error e, s) => (.error e, s)
    | (.ok _, s) => (found, s)

/-- What `read_file` and `stat` find at a path of a mounted tape. -/
def readMounted (handle : MountHandle) (path : String) (s : RealLtfs) : Except Exn Bytes × RealLtfs :=
  match s.requireActiveMount handle with
  | .error e => (.error e, s)
  | .ok active =>
    let touched := s.touch host active.barcode path
    match readHost host env (target host active.barcode path) touched with
    | .error e => (.error e, touched)
    | .ok none => (.error { cls := .other "FileNotFoundError", message := "Tape path " ++ path ++ " not found" }, touched)
    | .ok (some content) => (.ok content, touched)

/-- `read_file`: what is found is written to a path of the host. -/
def readFile (handle : MountHandle) (source dest : String) (s : RealLtfs) : Except Exn OperationResult × RealLtfs :=
  match readMounted host env handle source s with
  | (.error e, s) => (.error e, s)
  | (.ok payload, s) =>
    match writeHost host env (.ofString dest) payload s with
    | (.error e, s) => (.error e, s)
    | (.ok _, s) => (.ok ⟨true, "read"⟩, s)

/-- `stat`. -/
def stat (handle : MountHandle) (path : String) (s : RealLtfs) : Except Exn LTFSFileStat × RealLtfs :=
  match readMounted host env handle path s with
  | (.error e, s) => (.error e, s)
  | (.ok payload, s) => (.ok { sizeBytes := payload.length, checksumSha256 := host.digest payload }, s)

/-- The tapes whose mount directories are looked into for a path, one after the other, until one has it. -/
def searched (files : PurePosixPath → Option HostNode) (path : String) : List MountHandle → List Barcode
  | [] => []
  | active :: rest => active.barcode :: if (files (host.place (target host active.barcode path))).isSome then [] else searched files path rest

end RealLtfs

/-- The file calls of the backend; a path is its text. -/
inductive FileCall where
  | writeBytes (handle : MountHandle) (dest : String) (content : Bytes)
  | writeFile (handle : MountHandle) (source : Option Bytes) (dest : String)
  | readActive (path : String)
  | readBytes (barcode : Barcode) (path : String)
  | readFile (handle : MountHandle) (source dest : String)
  | stat (handle : MountHandle) (path : String)

namespace FileCall

variable (host : LtfsHost) (env : LtfsEnvironment)

/-- The tape path a call is handed. -/
def path : FileCall → String
  | writeBytes _ dest _ | writeFile _ _ dest => dest
  | readActive path => posix path
  | readBytes _ path | readFile _ path _ | stat _ path => path

/-- The state a call leaves. -/
def after (s : RealLtfs) : FileCall → RealLtfs
  | writeBytes handle dest content => (s.writeBytes host env handle dest content).2
  | writeFile handle source dest => (s.writeFile host env handle source dest).2
  | readActive path => (RealLtfs.readActive host env (posix path) s.activeMounts s).2
  | readBytes barcode path => (s.readBytes host env barcode path).2
  | readFile handle source dest => (s.readFile host env handle source dest).2
  | stat handle path => (s.stat host env handle path).2

/-- The host paths that are accessed for the tape path of a call. -/
def accesses (s : RealLtfs) (call : FileCall) : List HostAccess := (call.after host env { s with accessed := [] }).accessed

/-- The tapes whose mount directories a call looks into: none when it is refused before. -/
def opens (s : RealLtfs) : FileCall → List Barcode
  | writeBytes handle _ _ | writeFile handle (some _) _ =>
    match s.requireActiveMount handle with
    | .ok active => if active.mode = .readWrite then [active.barcode] else []
    | .error _ => []
  | writeFile _ none _ => []
  | readActive path => RealLtfs.searched host s.files (posix path) s.activeMounts
  | readBytes barcode _ =>
    match (s.mount host env barcode .readOnly).1 with
    | .ok handle => [handle.barcode]
    | .error _ => []
  | readFile handle _ _ | stat handle _ =>
    match s.requireActiveMount handle with
    | .ok active => [active.barcode]
    | .error _ => []

end FileCall

/-- The backend among the rest of the world, which answers every other call. -/
def realMachine {τ C : Type} (host : LtfsHost) (rest : Machine τ Op (fun o => Except Exn o.Ans) C) :
    Machine (τ × RealLtfs) Op (fun o => Except Exn o.Ans) (LtfsEnvironment × C) where
  exec s o c :=
    match o with
    | .ltfs (.mount barcode mode) => ((s.2.mount host c.1 barcode mode).1, s.1, (s.2.mount host c.1 barcode mode).2)
    | .ltfs (.unmount handle) => ((s.2.unmount host c.1 handle).1, s.1, (s.2.unmount host c.1 handle).2)
    | .ltfs (.writeFile handle content path) =>
      ((s.2.writeBytes host c.1 handle path content).1, s.1, (s.2.writeBytes host c.1 handle path content).2)
    | .ltfs (.stat handle path) => ((s.2.stat host c.1 handle path).1, s.1, (s.2.stat host c.1 handle path).2)
    | .ltfs (.readFile handle path dest) => ((s.2.readFile host c.1 handle path dest).1, s.1, (s.2.readFile host c.1 handle path dest).2)
    | .ltfs (.readBytes barcode path) =>
      ((s.2.readBytes host c.1 barcode path).1.map fun found => found.map fun content => (content, host.digest content), s.1,
        (s.2.readBytes host c.1 barcode path).2)
    | o => ((rest.exec s.1 o c.2).1, (rest.exec s.1 o c.2).2, s.2)

/-! ### Metadata -/

/-- `_safe_name`. -/
def safeName (value : String) : Except Exn String :=
  let name := stripSlashes (strip value)
  if name = "" ∨ name = "." ∨ name = ".." ∨ '/' ∈ name.toList then .error (valueError ("invalid metadata name: " ++ value)) else .ok name

/-- `_metadata_path`: `/.openblade` and below it the names. -/
def metadataPath (parts : List String) : Except Exn String := do
  let names ← parts.mapM safeName
  let path := names.foldl (fun path name => path.join (.ofString name)) (PurePosixPath.ofString "/.openblade")
  if path.toString ≠ "/.openblade" ∧ ¬"/.openblade/".toList <+: path.toString.toList then
    throw (valueError "metadata path must stay under /.openblade")
  pure path.toString


namespace LtfsPathsAux

/-! ### Climbing -/

theorem climb_posix (path : String) : climb (posix path) = climb path := by
  unfold climb posix
  rw [ofString_toString (wellFormed_ofString path)]

/-- A component that is resolved in a directory below which some names were read. -/
theorem normpathStep_climbStep {dir : List String} (hdir : ".." ∉ dir) {climbed : Nat × List String} (hnames : ".." ∉ climbed.2)
    {comp : String} (hcomp : comp ≠ "" ∧ comp ≠ ".") :
    normpathStep true (dir.take (dir.length - climbed.1) ++ climbed.2) comp =
      dir.take (dir.length - (climbStep climbed comp).1) ++ (climbStep climbed comp).2 ∧ ".." ∉ (climbStep climbed comp).2 := by
  obtain ⟨n, names⟩ := climbed
  have hplain : ¬(comp = "" ∨ comp = ".") := not_or.2 hcomp
  have hlast : (dir.take (dir.length - n) ++ names).getLast? ≠ some ".." := by
    intro h
    rcases List.mem_append.1 (List.mem_of_getLast? h) with h | h
    · exact hdir (List.mem_of_mem_take h)
    · exact hnames h
  unfold normpathStep climbStep
  rw [if_neg hplain]
  by_cases hup : comp = ".."
  · have hkept : ¬(comp ≠ ".." ∨ (!true) = true ∧ dir.take (dir.length - n) ++ names = [] ∨
        (dir.take (dir.length - n) ++ names).getLast? = some "..") := by
      rintro (h | ⟨h, -⟩ | h)
      · exact h hup
      · cases h
      · exact hlast h
    rw [if_neg hkept, if_pos hup]
    by_cases hnil : names = []
    · subst hnil
      simp only [List.append_nil, if_pos]
      refine ⟨?_, List.not_mem_nil⟩
      rw [List.dropLast_eq_take, List.take_take, List.length_take]
      congr 1
      omega
    · simp only [if_neg hnil]
      exact ⟨List.dropLast_append_of_ne_nil hnil, fun h => hnames (List.mem_of_mem_dropLast h)⟩
  · rw [if_pos (.inl hup), if_neg hup]
    refine ⟨List.append_assoc _ _ _, fun h => ?_⟩
    rcases List.mem_append.1 h with h | h
    · exact hnames h
    · exact hup (List.mem_singleton.1 h).symm

/-- Components that are resolved in a directory leave what is not climbed over, and the names below. -/
theorem foldl_climbStep {dir : List String} (hdir : ".." ∉ dir) {comps : List String} (hcomps : ∀ comp ∈ comps, comp ≠ "" ∧ comp ≠ ".")
    {climbed : Nat × List String} (hnames : ".." ∉ climbed.2) :
    comps.foldl (normpathStep true) (dir.take (dir.length - climbed.1) ++ climbed.2) =
      dir.take (dir.length - (comps.foldl climbStep climbed).1) ++ (comps.foldl climbStep climbed).2 := by
  induction comps generalizing climbed with
  | nil => rfl
  | cons comp comps ih =>
    obtain ⟨hstep, hnames'⟩ := normpathStep_climbStep hdir hnames (hcomps comp List.mem_cons_self)
    rw [List.foldl_cons, hstep, ih (fun c hc => hcomps c (List.mem_cons_of_mem _ hc)) hnames', List.foldl_cons]

/-! ### Places -/

variable {host : LtfsHost}

theorem ofString_place (host : LtfsHost) {path : PurePosixPath} (h : path.WellFormed) :
    PurePosixPath.ofString ((PurePosixPath.ofString host.cwd).join path).toString = (PurePosixPath.ofString host.cwd).join path :=
  ofString_toString ((wellFormed_ofString _).join h)

theorem root_place {path : PurePosixPath} (h : path.WellFormed) :
    (host.place path).root = ((PurePosixPath.ofString host.cwd).join path).root := by
  rw [LtfsHost.place, resolvedPath_root, ofString_place host h]

theorem join_root_ne_empty (host : LtfsHost) (path : PurePosixPath) : ((PurePosixPath.ofString host.cwd).join path).root ≠ "" := by
  unfold PurePosixPath.join
  split
  · intro h
    exact (leadingSlashes_eq_zero_iff _).1 ((slashes_eq_empty_iff _).1 h) host.isAbsolute
  · assumption

theorem parts_place {path : PurePosixPath} (h : path.WellFormed) :
    (host.place path).parts = ((PurePosixPath.ofString host.cwd).join path).parts.foldl (normpathStep true) [] := by
  rw [LtfsHost.place, resolvedPath_parts, ofString_place host h, decide_eq_true (join_root_ne_empty host path)]

/-- Nothing above the root is left of a place. -/
theorem not_mem_place (host : LtfsHost) {path : PurePosixPath} (h : path.WellFormed) : ".." ∉ (host.place path).parts := by
  obtain ⟨parts, hparts, hall⟩ := ((wellFormed_ofString host.cwd).join h).parts
  rw [parts_place h]
  intro hmem
  refine (isComponent_foldl (fun _ h => absurd h List.not_mem_nil) (fun comp hcomp => ?_) _ hmem).ne_up rfl
  rw [hparts] at hcomp
  obtain ⟨part, hpart, rfl⟩ := List.mem_map.1 hcomp
  rw [String.toList_ofList]
  exact (hall part hpart).2

/-- A relative path is joined to what a path is joined to. -/
theorem join_join {path below : PurePosixPath} (h : below.root = "") (cwd : PurePosixPath) :
    cwd.join (path.join below) = (cwd.join path).join below := by
  simp only [PurePosixPath.join, if_pos h]
  by_cases hroot : path.root = ""
  · simp [hroot, List.append_assoc]
  · simp [hroot]

theorem relativeTapePath_root (path : String) : (relativeTapePath path).root = "" :=
  (slashes_eq_empty_iff _).2 ((leadingSlashes_eq_zero_iff _).2 (head_lstripSlash path))

theorem relativeTapePath_parts (path : String) : (relativeTapePath path).parts = (PurePosixPath.ofString path).parts := by
  rw [relativeTapePath, parts_ofString, parts_ofString, toList_lstripSlash, partsOf_dropWhile]

theorem ne_dot_of_mem_parts {path comp : String} (h : comp ∈ (PurePosixPath.ofString path).parts) : comp ≠ "" ∧ comp ≠ "." :=
  of_decide_eq_true (List.mem_filter.1 h).2

theorem wellFormed_mountPath (host : LtfsHost) (barcode : Barcode) : (host.mountPath barcode).WellFormed :=
  (wellFormed_ofString _).join (wellFormed_ofString _)

/-- Where a path of a mounted tape lies. -/
theorem parts_target (host : LtfsHost) (barcode : Barcode) (path : String) :
    (host.place (RealLtfs.target host barcode path)).root = (host.place (host.mountPath barcode)).root ∧
      (host.place (RealLtfs.target host barcode path)).parts =
        (host.place (host.mountPath barcode)).parts.take
          ((host.place (host.mountPath barcode)).parts.length - (climb path).1) ++ (climb path).2 := by
  have hmount := wellFormed_mountPath host barcode
  have hrelative := relativeTapePath_root path
  have htarget : (RealLtfs.target host barcode path).WellFormed := hmount.join (wellFormed_ofString _)
  have hjoin : (PurePosixPath.ofString host.cwd).join (RealLtfs.target host barcode path) =
      ((PurePosixPath.ofString host.cwd).join (host.mountPath barcode)).join (relativeTapePath path) := join_join hrelative _
  have hup := not_mem_place host hmount
  have hstart : ".." ∉ ((0, []) : Nat × List String).2 := List.not_mem_nil
  have hclimb := foldl_climbStep hup (fun comp (h : comp ∈ (PurePosixPath.ofString path).parts) => ne_dot_of_mem_parts h) hstart
  rw [Nat.sub_zero, List.take_length, List.append_nil] at hclimb
  refine ⟨?_, ?_⟩
  · rw [root_place htarget, root_place hmount, hjoin, PurePosixPath.join, if_pos hrelative]
  · rw [parts_place htarget, hjoin]
    conv_lhs => rw [PurePosixPath.join, if_pos hrelative]
    rw [List.foldl_append, ← parts_place hmount, relativeTapePath_parts, hclimb]
    rfl

/-- An access stays inside exactly when the path does. -/
theorem confined_iff (barcode : Barcode) (path : String) :
    (RealLtfs.access host barcode path).Confined host ↔ StaysBelow (host.place (host.mountPath barcode)).parts path := by
  obtain ⟨hroot, hparts⟩ := parts_target host barcode path
  unfold HostAccess.Confined RealLtfs.access StaysBelow
  dsimp only
  rw [and_iff_right hroot]
  refine exists_congr fun name => exists_congr fun rest => ?_
  rw [hparts]
  generalize (host.place (host.mountPath barcode)).parts = dir
  have hsplit : dir ++ name :: rest =
      dir.take (dir.length - (climb path).1) ++ (dir.drop (dir.length - (climb path).1) ++ name :: rest) := by
    rw [← List.append_assoc, List.take_append_drop]
  rw [hsplit]
  exact List.append_right_inj _

/-! ### What the calls access -/

variable (host : LtfsHost) (env : LtfsEnvironment)

theorem accessed_mount (barcode : Barcode) (mode : MountMode) (s : RealLtfs) :
    (s.mount host env barcode mode).2.accessed = s.accessed := by
  unfold RealLtfs.mount
  split
  · rfl
  · split
    · rfl
    · split <;> rfl

theorem accessed_unmount (handle : MountHandle) (s : RealLtfs) : (s.unmount host env handle).2.accessed = s.accessed := by
  unfold RealLtfs.unmount
  split
  · rfl
  · split <;> rfl

theorem accessed_writeHost (path : PurePosixPath) (content : Bytes) (s : RealLtfs) :
    (s.writeHost host env path content).2.accessed = s.accessed := by
  unfold RealLtfs.writeHost
  dsimp only
  split
  · rfl
  · split
    · rfl
    · split <;> rfl

/-- The tape a handle writes to, when the call comes to write. -/
def writable (s : RealLtfs) (handle : MountHandle) : List Barcode :=
  match s.requireActiveMount handle with
  | .ok active => if active.mode = .readWrite then [active.barcode] else []
  | .error _ => []

/-- The tape a handle reads from. -/
def readable (s : RealLtfs) (handle : MountHandle) : List Barcode :=
  match s.requireActiveMount handle with
  | .ok active => [active.barcode]
  | .error _ => []

theorem accessed_writeBytes (handle : MountHandle) (dest : String) (content : Bytes) (s : RealLtfs) :
    (s.writeBytes host env handle dest content).2.accessed =
      s.accessed ++ (writable s handle).map fun barcode => RealLtfs.access host barcode dest := by
  unfold RealLtfs.writeBytes writable
  cases s.requireActiveMount handle with
  | error e => simp
  | ok active =>
    by_cases hmode : active.mode = .readWrite
    · simp only [hmode, ne_eq, not_true_eq_false, if_false, if_true]
      rw [accessed_writeHost host env]
      rfl
    · simp [hmode]

theorem accessed_readMounted (handle : MountHandle) (path : String) (s : RealLtfs) :
    (s.readMounted host env handle path).2.accessed =
      s.accessed ++ (readable s handle).map fun barcode => RealLtfs.access host barcode path := by
  unfold RealLtfs.readMounted readable
  cases s.requireActiveMount handle with
  | error e => simp
  | ok active =>
    dsimp only
    split <;> rfl

theorem accessed_readFile (handle : MountHandle) (source dest : String) (s : RealLtfs) :
    (s.readFile host env handle source dest).2.accessed =
      s.accessed ++ (readable s handle).map fun barcode => RealLtfs.access host barcode source := by
  have hread := accessed_readMounted host env handle source s
  unfold RealLtfs.readFile
  split
  · rename_i heq
    rw [← hread, heq]
  · rename_i payload s' heq
    have hwrite := accessed_writeHost host env (.ofString dest) payload s'
    rw [heq] at hread
    split
    · rename_i heq'
      rw [heq'] at hwrite
      exact hwrite.trans hread
    · rename_i heq'
      rw [heq'] at hwrite
      exact hwrite.trans hread

theorem accessed_stat (handle : MountHandle) (path : String) (s : RealLtfs) :
    (s.stat host env handle path).2.accessed =
      s.accessed ++ (readable s handle).map fun barcode => RealLtfs.access host barcode path := by
  rw [← accessed_readMounted host env]
  unfold RealLtfs.stat
  split <;> rename_i heq <;> rw [heq]

theorem readHost_eq_none_iff (path : PurePosixPath) (s : RealLtfs) :
    s.readHost host env path = .ok none ↔ (s.files (host.place path)).isSome = false := by
  unfold RealLtfs.readHost
  cases s.files (host.place path) with
  | none => simp
  | some node =>
    cases node with
    | file content => by_cases h : env.refuses path = true <;> simp [h]
    | directory => by_cases h : env.refuses path = true <;> simp [h]

/-- The mounts are searched one after the other; nothing is changed but what was accessed. -/
theorem accessed_readActive (path : String) (mounts : List MountHandle) (s : RealLtfs) :
    (s.readActive host env path mounts).2.accessed =
      s.accessed ++ (RealLtfs.searched host s.files path mounts).map fun barcode => RealLtfs.access host barcode path := by
  induction mounts generalizing s with
  | nil => simp [RealLtfs.readActive, RealLtfs.searched]
  | cons active rest ih =>
    have hfound := readHost_eq_none_iff host env (RealLtfs.target host active.barcode path) (s.touch host active.barcode path)
    unfold RealLtfs.readActive RealLtfs.searched
    dsimp only
    split
    · rename_i hnone
      have hmissing : (s.files (host.place (RealLtfs.target host active.barcode path))).isSome = false := hfound.1 hnone
      rw [ih, hmissing]
      simp [RealLtfs.touch]
    · rename_i hsome
      have hmissing : (s.files (host.place (RealLtfs.target host active.barcode path))).isSome = true :=
        (Bool.eq_false_or_eq_true _).resolve_right fun h => hsome (hfound.2 h)
      rw [hmissing]
      rfl

theorem accessed_readBytes (barcode : Barcode) (path : String) (s : RealLtfs) :
    (s.readBytes host env barcode path).2.accessed = s.accessed ++
      (match (s.mount host env barcode .readOnly).1 with
        | .ok handle => [handle.barcode]
        | .error _ => []).map fun barcode => RealLtfs.access host barcode path := by
  have hmount := accessed_mount host env barcode .readOnly s
  unfold RealLtfs.readBytes
  split
  · rename_i heq
    rw [heq] at hmount ⊢
    simpa using hmount
  · rename_i handle s' heq
    have hunmount := accessed_unmount host env handle (s'.touch host handle.barcode path)
    rw [heq] at hmount ⊢
    dsimp only at hmount ⊢
    split <;> rename_i heq' <;> rw [heq'] at hunmount
    · exact hunmount.trans (by simp [RealLtfs.touch, hmount])
    · exact hunmount.trans (by simp [RealLtfs.touch, hmount])

/-- A call accesses its path in the mount directories it looks into. -/
theorem accesses_eq (s : RealLtfs) (call : FileCall) : call.accesses host env s =
    (call.opens host env s).map fun barcode => RealLtfs.access host barcode call.path := by
  unfold FileCall.accesses FileCall.after
  cases call with
  | writeBytes handle dest content => exact accessed_writeBytes host env handle dest content _
  | writeFile handle source dest =>
    cases source with
    | none => rfl
    | some content => exact accessed_writeBytes host env handle dest content _
  | readActive path => exact accessed_readActive host env _ _ _
  | readBytes barcode path =>
    have hmount : (RealLtfs.mount host env barcode .readOnly { s with accessed := [] }).1 = (s.mount host env barcode .readOnly).1 := by
      unfold RealLtfs.mount
      split
      · rfl
      · split
        · rfl
        · split <;> rfl
    exact (accessed_readBytes host env barcode path _).trans (by rw [hmount]; rfl)
  | readFile handle source dest => exact accessed_readFile host env handle source dest _
  | stat handle path => exact accessed_stat host env handle path _

/-! ### Requests -/

section requests

variable {τ C L : Type} (rest : Machine τ Op (fun o => Except Exn o.Ans) C) {request : TapeOpRequest} {l : L}

/-- Everything that was accessed lies inside. -/
def Safe (host : LtfsHost) (s : τ × RealLtfs) : Prop := ∀ access ∈ s.2.accessed, access.Confined host

/-- The calls of a request that looks at its tape path, with the mount it has made if it has made one. -/
def LooksAt (request : TapeOpRequest) (handle : Option MountHandle) : Op → Prop
  | .ltfs (.writeFile h _ path) | .ltfs (.stat h path) => handle = some h ∧ path = posix (request.tapePath.getD "/")
  | .ltfs (.unmount h) => handle = some h
  | .ltfs (.readBytes barcode path) => handle = none ∧ barcode = request.barcode ∧ path = request.tapePath.getD ""
  | .ltfs _ => False
  | _ => True

/-- The mount is one of the tape that is asked for. -/
def MountedFor (host : LtfsHost) (request : TapeOpRequest) (handle : Option MountHandle) (s : RealLtfs) : Prop :=
  ∀ h, handle = some h → ∀ active, s.requireActiveMount h = .ok active → normalizeBarcode host.upper request.barcode = .ok active.barcode

theorem barcode_mount {barcode : Barcode} {mode : MountMode} {s : RealLtfs} {handle : MountHandle}
    (h : (s.mount host env barcode mode).1 = .ok handle) :
    normalizeBarcode host.upper barcode = .ok handle.barcode ∧
      ∀ active, (s.mount host env barcode mode).2.requireActiveMount handle = .ok active → active = handle := by
  unfold RealLtfs.mount at h ⊢
  split at h
  · cases h
  · rename_i driveId hdrive
    split at h
    · cases h
    · rename_i value hvalue
      split at h
      · rename_i hmounts
        cases h
        simp only [hvalue, hmounts, if_true]
        refine ⟨trivial, fun active hactive => ?_⟩
        unfold RealLtfs.requireActiveMount at hactive
        rw [List.find?_append] at hactive
        have hnone : (s.activeMounts.find? fun active => active.handleId = s.minted) = none :=
          List.find?_eq_none.2 fun a ha => by simpa using (s.isMinted a ha).ne
        rw [hnone] at hactive
        simpa using hactive.symm
      · cases h

theorem activeMounts_writeBytes (handle : MountHandle) (dest : String) (content : Bytes) (s : RealLtfs) :
    (s.writeBytes host env handle dest content).2.activeMounts = s.activeMounts := by
  unfold RealLtfs.writeBytes
  split
  · rfl
  · split
    · rfl
    · unfold RealLtfs.writeHost
      dsimp only
      split
      · rfl
      · split
        · rfl
        · split <;> rfl

theorem activeMounts_stat (handle : MountHandle) (path : String) (s : RealLtfs) :
    (s.stat host env handle path).2.activeMounts = s.activeMounts := by
  have hread : (s.readMounted host env handle path).2.activeMounts = s.activeMounts := by
    unfold RealLtfs.readMounted
    split
    · rfl
    · dsimp only
      split <;> rfl
  unfold RealLtfs.stat
  split <;> rename_i heq <;> rw [heq] at hread <;> exact hread

/-- A handle that was released is active no more. -/
theorem requireActiveMount_unmount {handle active : MountHandle} {s : RealLtfs}
    (h : (s.unmount host env handle).2.requireActiveMount handle = .ok active) : s.requireActiveMount handle = .ok active := by
  unfold RealLtfs.unmount at h
  split at h
  · exact h
  · rename_i released hreleased
    split at h
    · exfalso
      have hid : released.handleId = handle.handleId := by
        unfold RealLtfs.requireActiveMount at hreleased
        split at hreleased
        · cases hreleased
        · rename_i found hfound
          cases hreleased
          simpa using List.find?_some hfound
      unfold RealLtfs.requireActiveMount at h
      split at h
      · cases h
      · rename_i found hfound
        have hkept := List.mem_filter.1 (List.mem_of_find?_eq_some hfound)
        have hsame : found.handleId = handle.handleId := by simpa using List.find?_some hfound
        simp [hsame, hid] at hkept
    · exact h

theorem climb_requested (request : TapeOpRequest) : climb (posix (request.tapePath.getD "/")) = climb (request.tapePath.getD "") := by
  rw [climb_posix]
  cases request.tapePath with
  | none => decide
  | some path => rfl

/-- What is accessed for a path that stays below is confined. -/
theorem safe_append {s s' : RealLtfs} {barcodes : List Barcode} {path : String} (hs : ∀ access ∈ s.accessed, access.Confined host)
    (h : s'.accessed = s.accessed ++ barcodes.map fun barcode => RealLtfs.access host barcode path)
    (hbelow : ∀ barcode ∈ barcodes, StaysBelow (host.place (host.mountPath barcode)).parts path) :
    ∀ access ∈ s'.accessed, access.Confined host := by
  rw [h]
  intro access haccess
  rcases List.mem_append.1 haccess with haccess | haccess
  · exact hs access haccess
  · obtain ⟨barcode, hbarcode, rfl⟩ := List.mem_map.1 haccess
    exact (confined_iff barcode path).2 (hbelow barcode hbarcode)

theorem mem_writable {s : RealLtfs} {handle : MountHandle} {barcode : Barcode} (h : barcode ∈ writable s handle) :
    ∃ active, s.requireActiveMount handle = .ok active ∧ active.barcode = barcode := by
  unfold writable at h
  split at h
  · rename_i active hactive
    split at h
    · exact ⟨active, hactive, (List.mem_singleton.1 h).symm⟩
    · cases h
  · cases h

theorem mem_readable {s : RealLtfs} {handle : MountHandle} {barcode : Barcode} (h : barcode ∈ readable s handle) :
    ∃ active, s.requireActiveMount handle = .ok active ∧ active.barcode = barcode := by
  unfold readable at h
  split at h
  · rename_i active hactive
    exact ⟨active, hactive, (List.mem_singleton.1 h).symm⟩
  · cases h

theorem requireActiveMount_congr {s s' : RealLtfs} (h : s'.activeMounts = s.activeMounts) (handle : MountHandle) :
    s'.requireActiveMount handle = s.requireActiveMount handle := by
  unfold RealLtfs.requireActiveMount
  rw [h]

/-- What a request accesses lies inside when its path stays below the mount directory of its tape. -/
theorem stable_looksAt (handle : Option MountHandle)
    (hpath : ∀ barcode, normalizeBarcode host.upper request.barcode = .ok barcode →
      StaysBelow (host.place (host.mountPath barcode)).parts (request.tapePath.getD "")) :
    Stable (realMachine host rest) (.keeps (fun _ => True) (Safe host)) (LooksAt request handle)
      fun s => Safe host s ∧ MountedFor host request handle s.2 := by
  rintro o ho s s₁ c ⟨hsafe, hmounted⟩ hrely -
  obtain rfl : s = s₁ := hrely
  suffices h : Safe host ((realMachine host rest).exec s o c).2 ∧
      MountedFor host request handle ((realMachine host rest).exec s o c).2.2 from ⟨h.1, h⟩
  have hposix : ∀ dir, StaysBelow dir (request.tapePath.getD "") → StaysBelow dir (posix (request.tapePath.getD "/")) := by
    intro dir h
    unfold StaysBelow at h ⊢
    rwa [climb_requested]
  cases o with
  | catalog o => exact ⟨hsafe, hmounted⟩
  | lease o => exact ⟨hsafe, hmounted⟩
  | library o => exact ⟨hsafe, hmounted⟩
  | host o => exact ⟨hsafe, hmounted⟩
  | ltfs o =>
    cases o with
    | ensureTape barcode => cases ho
    | mount barcode mode => cases ho
    | readFile h path dest => cases ho
    | format barcode confirmation => cases ho
    | unmount h =>
      refine ⟨?_, fun h' hh' active hactive => ?_⟩
      · intro access haccess
        exact hsafe access (accessed_unmount host c.1 h s.2 ▸ haccess)
      · obtain rfl : h = h' := Option.some.inj (ho.symm.trans hh')
        exact hmounted h ho active (requireActiveMount_unmount host c.1 hactive)
    | writeFile h content path =>
      obtain ⟨rfl, rfl⟩ := ho
      refine ⟨safe_append host hsafe (accessed_writeBytes host c.1 h _ content s.2) fun barcode hbarcode => ?_, fun h' hh' active hactive => ?_⟩
      · obtain ⟨active, hactive, rfl⟩ := mem_writable hbarcode
        exact hposix _ (hpath _ (hmounted h rfl active hactive))
      · exact hmounted h' hh' active ((requireActiveMount_congr (activeMounts_writeBytes host c.1 h _ content s.2) h').symm.trans hactive)
    | stat h path =>
      obtain ⟨rfl, rfl⟩ := ho
      refine ⟨safe_append host hsafe (accessed_stat host c.1 h _ s.2) fun barcode hbarcode => ?_, fun h' hh' active hactive => ?_⟩
      · obtain ⟨active, hactive, rfl⟩ := mem_readable hbarcode
        exact hposix _ (hpath _ (hmounted h rfl active hactive))
      · exact hmounted h' hh' active ((requireActiveMount_congr (activeMounts_stat host c.1 h _ s.2) h').symm.trans hactive)
    | readBytes barcode path =>
      obtain ⟨rfl, rfl, rfl⟩ := ho
      refine ⟨safe_append host hsafe (accessed_readBytes host c.1 _ _ s.2) fun barcode hbarcode => ?_, fun h hh => nomatch hh⟩
      split at hbarcode
      · rename_i mounted hmount
        rw [List.mem_singleton.1 hbarcode]
        exact hpath _ (barcode_mount host c.1 hmount).1
      · cases hbarcode

/-- A write mounts the tape, and looks at the path in that mount. -/
theorem wp_orchestratorWrite
    (hpath : ∀ barcode, normalizeBarcode host.upper request.barcode = .ok barcode →
      StaysBelow (host.place (host.mountPath barcode)).parts (request.tapePath.getD ""))
    {s : τ × RealLtfs} (hs : Safe host s) :
    wp (realMachine host rest) (.keeps (fun _ => True) (Safe host)) (orchestratorWrite request : JobM L JsonObject)
      (fun _ l' s' => l' = l ∧ Safe host s') (fun _ l' s' => l' = l ∧ Safe host s') l s := by
  have hplain := stable_looksAt host rest none hpath
  have hlibrary : ∀ o, LooksAt request none (.library o) := fun _ => trivial
  unfold orchestratorWrite
  rw [wp_bind]
  refine wp_mono ((reads_orchestratorEnsureLoaded hlibrary _ _).keeps hplain ⟨hs, fun h hh => nomatch hh⟩) ?_
    fun e l' s' h => ⟨h.1.symm, h.2.1⟩
  rintro ⟨driveId, loadedSlot⟩ l' s' ⟨rfl, hs', -⟩
  rw [wp_bind]
  refine wp_call fun s₁ hrely c _ => ?_
  obtain rfl : s' = s₁ := hrely
  have hsafe : Safe host ((realMachine host rest).exec s' (.ltfs (.mount request.barcode .readWrite)) c).2 := by
    intro access haccess
    exact hs' access (accessed_mount host c.1 request.barcode .readWrite s'.2 ▸ haccess)
  refine ⟨hsafe, fun handle hhandle => ?_, fun e _ => ⟨rfl, hsafe⟩⟩
  have hmount := barcode_mount host c.1 (s := s'.2) hhandle
  have hmounted : MountedFor host request (some handle)
      ((realMachine host rest).exec s' (.ltfs (.mount request.barcode .readWrite)) c).2.2 := by
    intro h hh active hactive
    obtain rfl : handle = h := Option.some.inj hh
    rw [hmount.2 active hactive]
    exact hmount.1
  refine wp_mono (Only.keeps (R := Eq) ?_ (stable_looksAt host rest (some handle) hpath) ⟨hsafe, hmounted⟩)
    (fun _ l'' s'' h => ⟨h.1.symm, h.2.1⟩) fun _ l'' s'' h => ⟨h.1.symm, h.2.1⟩
  refine only_ensure ?_ fun _ => ?_
  · exact only_bind (only_perform ⟨rfl, rfl⟩) fun _ => only_bind (only_perform ⟨rfl, rfl⟩) fun _ => only_pure _
  · exact only_bind (only_perform rfl) fun _ => reads_unloadIfLoaded (fun _ => trivial) _ _

/-- Reads look at the path in a mount of their own. -/
theorem reads_dispatch_looksAt (hop : request.opType = .read ∨ request.opType = .verify) :
    Reads (LooksAt request none) (dispatch request : JobM L JsonObject) := by
  have hread : Reads (LooksAt request none) (readTapePath request : JobM L (Bytes × String)) := by
    refine only_bind (only_perform ⟨rfl, rfl, rfl⟩) fun found => ?_
    cases found with
    | none => exact only_raise _
    | some found => exact only_pure found
  unfold dispatch
  rcases hop with hop | hop
  · rw [hop]
    exact only_bind hread fun _ => only_pure _
  · rw [hop]
    exact only_bind hread fun _ => only_ite (fun _ => only_raise _) fun _ => only_pure _

theorem looksAt_row {handle : Option MountHandle} {o : Op} (h : o.isRowOf request = true) : LooksAt request handle o := by
  cases o with
  | ltfs o => cases h
  | _ => trivial

/-- A request whose path stays below accesses nothing outside. -/
theorem wp_request (hop : request.opType ∈ [.read, .write, .verify])
    (hpath : ∀ barcode, normalizeBarcode host.upper request.barcode = .ok barcode →
      StaysBelow (host.place (host.mountPath barcode)).parts (request.tapePath.getD ""))
    (raiseOnFailed : Bool) {s : τ × RealLtfs} (hs : Safe host s) :
    wp (realMachine host rest) (.keeps (fun _ => True) (Safe host)) (executeTapeRequest request raiseOnFailed : JobM L TapeOpRecord)
      (fun _ _ _ => True) (fun _ _ _ => True) l s := by
  have hplain := stable_looksAt host rest none hpath
  have hrow : Stable (realMachine host rest) (.keeps (fun _ => True) (Safe host)) (fun o => o.isRowOf request = true) (Safe host) :=
    fun o ho s s₁ c hJ hrely hassume =>
      (hplain o (looksAt_row ho) s s₁ c ⟨hJ, fun h hh => nomatch hh⟩ hrely hassume).imp_right And.left
  have hmove : request.opType ≠ .move := fun h => by rw [h] at hop; exact absurd hop (by decide)
  refine wp_mono (wp_executeTapeRequest_ends raiseOnFailed hmove hrow hrow hs fun s hs => ?_) (fun _ _ _ _ => trivial) fun _ _ _ _ => trivial
  have hlooks : request.opType = .read ∨ request.opType = .verify → wp (realMachine host rest) (.keeps (fun _ => True) (Safe host))
      (dispatch request : JobM L JsonObject) (fun _ l' s' => l' = l ∧ Safe host s') (fun _ l' s' => l' = l ∧ Safe host s') l s :=
    fun hop => wp_mono ((reads_dispatch_looksAt hop).keeps hplain ⟨hs, fun h hh => nomatch hh⟩) (fun _ _ _ h => ⟨h.1.symm, h.2.1⟩)
      fun _ _ _ h => ⟨h.1.symm, h.2.1⟩
  simp only [List.mem_cons, List.not_mem_nil, or_false] at hop
  rcases hop with hop | hop | hop
  · exact hlooks (.inl hop)
  · unfold dispatch
    rw [hop, wp_bind]
    have hdrive : Reads (LooksAt request none) (resolveDriveForWrite request : JobM L Int) := reads_resolveDriveForWrite (fun _ => trivial) request
    refine wp_mono (hdrive.keeps hplain ⟨hs, fun h hh => nomatch hh⟩) ?_ fun _ _ _ h => ⟨h.1.symm, h.2.1⟩
    rintro _ l' s' ⟨rfl, hs', -⟩
    exact wp_orchestratorWrite host rest hpath hs'
  · exact hlooks (.inr hop)

/-- A world in which the tape is in a drive and every call is answered. -/
def willing : Machine Unit Op (fun o => Except Exn o.Ans) Unit where
  exec s o _ :=
    match o with
    | .catalog (.createTapeOp request) => (.ok { opId := 0, request := request, status := .queued, createdAt := 0 }, s)
    | .catalog (.updateTapeOp _ _) => (.ok none, s)
    | .library (.findDriveByBarcode _) => (.ok (some 0), s)
    | _ => (.error (valueError "not answered"), s)

def willingEnvironment : LtfsEnvironment :=
  { driveOf := fun _ => some 0, mounts := fun _ _ => true, unmounts := fun _ => true, refuses := fun _ => false }

/-- A state in which a tape path was accessed that leads where the path of the request leads. -/
def Accessed (host : LtfsHost) (request : TapeOpRequest) (barcode : Barcode) (s : Unit × RealLtfs) : Prop :=
  ∃ path, climb path = climb (request.tapePath.getD "") ∧ RealLtfs.access host barcode path ∈ s.2.accessed

/-- In a willing world a tape is mounted. -/
theorem mount_willing {upper : Barcode} {barcode : Barcode} (hbarcode : normalizeBarcode host.upper upper = .ok barcode) (mode : MountMode)
    (s : RealLtfs) : ∃ handle, (s.mount host willingEnvironment upper mode).1 = .ok handle ∧ handle.barcode = barcode ∧ handle.mode = mode ∧
      (s.mount host willingEnvironment upper mode).2.requireActiveMount handle = .ok handle := by
  refine ⟨{ handleId := s.minted, barcode := barcode, driveId := 0, mode := mode }, ?_⟩
  have hnone : (s.activeMounts.find? fun active => active.handleId = s.minted) = none :=
    List.find?_eq_none.2 fun a ha => by simpa using (s.isMinted a ha).ne
  simp [RealLtfs.mount, willingEnvironment, hbarcode, RealLtfs.requireActiveMount, List.find?_append, hnone]

/-- Whatever comes to the dispatch of a request, the request does. -/
theorem canPass_request (hvalid : validateRequest request = .ok ()) (hmove : request.opType ≠ .move) (raiseOnFailed : Bool)
    {Q : Unit × RealLtfs → Prop} {s : Unit × RealLtfs} (h : canPass (realMachine host willing) (dispatch request) Q l s) :
    canPass (realMachine host willing) (executeTapeRequest request raiseOnFailed) Q l s := by
  unfold executeTapeRequest executeTapeOp
  rw [hvalid, validateMove_of_ne hmove]
  refine canPass_first (canPass_bind (can_pure (canPass_bind (can_pure ?_))))
  refine canPass_bind (can_perform (willingEnvironment, ()) rfl ?_)
  refine canPass_bind (can_perform (willingEnvironment, ()) rfl ?_)
  exact canPass_handle (canPass_first h)

theorem canPass_write {barcode : Barcode} (hbarcode : normalizeBarcode host.upper request.barcode = .ok barcode) (s : Unit × RealLtfs) :
    canPass (realMachine host willing) (orchestratorWrite request : JobM L JsonObject) (Accessed host request barcode) l s := by
  obtain ⟨handle, hmount, rfl, hmode, hactive⟩ := mount_willing host hbarcode .readWrite s.2
  have hloaded : can (realMachine host willing) (orchestratorEnsureLoaded request.barcode request.driveId : JobM L (Int × Option Nat))
      (fun loaded l' s' => loaded = (0, none) ∧ l' = l ∧ s' = s) (fun _ _ _ => False) l s :=
    can_bind (can_perform (willingEnvironment, ()) rfl (can_pure ⟨rfl, rfl, rfl⟩))
  unfold orchestratorWrite
  refine canPass_bind (can_mono hloaded ?_ fun _ _ _ h => h)
  rintro _ l' s' ⟨rfl, rfl, rfl⟩
  refine canPass_bind (can_perform (willingEnvironment, ()) (Prod.ext hmount rfl) ?_)
  refine canPass_ensure (canPass_first (canPass_perform (willingEnvironment, ()) ⟨posix (request.tapePath.getD "/"), ?_, ?_⟩))
  · exact climb_requested request
  · have haccessed := accessed_writeBytes host willingEnvironment handle (posix (request.tapePath.getD "/")) (request.content.getD [])
      (s'.2.mount host willingEnvironment request.barcode .readWrite).2
    have hwritable : writable (s'.2.mount host willingEnvironment request.barcode .readWrite).2 handle = [handle.barcode] := by
      unfold writable
      rw [hactive]
      simp only [hmode, if_true]
    rw [hwritable] at haccessed
    show _ ∈ ((s'.2.mount host willingEnvironment request.barcode .readWrite).2.writeBytes host willingEnvironment handle
      (posix (request.tapePath.getD "/")) (request.content.getD [])).2.accessed
    rw [haccessed]
    exact List.mem_append_right _ List.mem_cons_self

theorem canPass_dispatch (hop : request.opType ∈ [.read, .write, .verify]) {barcode : Barcode}
    (hbarcode : normalizeBarcode host.upper request.barcode = .ok barcode) (s : Unit × RealLtfs) :
    canPass (realMachine host willing) (dispatch request : JobM L JsonObject) (Accessed host request barcode) l s := by
  obtain ⟨handle, hmount, rfl, -, -⟩ := mount_willing host hbarcode .readOnly s.2
  have hread : canPass (realMachine host willing) (readTapePath request : JobM L (Bytes × String)) (Accessed host request handle.barcode) l s := by
    refine canPass_first (canPass_perform (willingEnvironment, ()) ⟨request.tapePath.getD "", rfl, ?_⟩)
    have haccessed := accessed_readBytes host willingEnvironment request.barcode (request.tapePath.getD "") s.2
    rw [hmount] at haccessed
    show _ ∈ (s.2.readBytes host willingEnvironment request.barcode (request.tapePath.getD "")).2.accessed
    rw [haccessed]
    exact List.mem_append_right _ List.mem_cons_self
  unfold dispatch
  simp only [List.mem_cons, List.not_mem_nil, or_false] at hop
  rcases hop with hop | hop | hop
  · rw [hop]
    exact canPass_first hread
  · rw [hop]
    have hdrive : can (realMachine host willing) (resolveDriveForWrite request : JobM L Int) (fun _ l' s' => l' = l ∧ s' = s)
        (fun _ _ _ => False) l s := by
      unfold resolveDriveForWrite
      cases request.driveId with
      | some d => exact can_pure ⟨rfl, rfl⟩
      | none => exact can_bind (can_perform (willingEnvironment, ()) rfl (can_pure ⟨rfl, rfl⟩))
    refine canPass_bind (can_mono hdrive ?_ fun _ _ _ h => h)
    rintro _ l' s' ⟨rfl, rfl⟩
    exact canPass_write host hbarcode s'
  · rw [hop]
    exact canPass_first hread

end requests

/-! ### Metadata -/

theorem isComponent_of_safeName {value name : String} (h : safeName value = .ok name) : IsComponent name := by
  unfold safeName at h
  dsimp only at h
  split at h
  · cases h
  · rename_i hplain
    obtain ⟨hempty, hplain⟩ := not_or.1 hplain
    obtain ⟨hdot, hplain⟩ := not_or.1 hplain
    obtain ⟨hup, hslash⟩ := not_or.1 hplain
    obtain rfl := Except.ok.inj h
    exact ⟨hempty, hdot, hup, hslash⟩

theorem foldl_join {names : List String} (h : ∀ name ∈ names, IsComponent name) (path : PurePosixPath) :
    names.foldl (fun path name => path.join (.ofString name)) path = { path with parts := path.parts ++ names } := by
  induction names generalizing path with
  | nil => simp
  | cons name names ih =>
    have hjoin : path.join (.ofString name) = { path with parts := path.parts ++ [name] } := by
      rw [(h name List.mem_cons_self).ofString, PurePosixPath.join, if_pos rfl]
    rw [List.foldl_cons, hjoin, ih fun n hn => h n (List.mem_cons_of_mem _ hn), List.append_assoc, List.singleton_append]

/-- Metadata is kept under its root by names. -/
theorem metadataPath_spec {parts : List String} {path : String} (h : metadataPath parts = .ok path) :
    ∃ names : List String, (∀ name ∈ names, IsComponent name) ∧ (PurePosixPath.ofString path).parts = ".openblade" :: names := by
  obtain ⟨names, hnames, h⟩ := Effects.bind_eq_ok.1 h
  have hcomponents : ∀ name ∈ names, IsComponent name := fun name hname => by
    obtain ⟨value, -, hvalue⟩ := Effects.mem_of_mapM_ok hnames hname
    exact isComponent_of_safeName hvalue
  refine ⟨names, hcomponents, ?_⟩
  have hroot : PurePosixPath.ofString "/.openblade" = { root := "/", parts := [".openblade"] } := by decide
  have hopenblade : IsComponent ".openblade" := ⟨by decide, by decide, by decide, by decide⟩
  rw [hroot, foldl_join hcomponents] at h
  have hwell : PurePosixPath.WellFormed { root := "/", parts := [".openblade"] ++ names } := by
    refine ⟨⟨1, by decide, rfl⟩, (".openblade" :: names).map String.toList, by simp [Function.comp_def], fun part hpart => ?_⟩
    obtain ⟨name, hname, rfl⟩ := List.mem_map.1 hpart
    have hcomponent : IsComponent name := (List.mem_cons.1 hname).elim (fun h => h ▸ hopenblade) (hcomponents name)
    exact ⟨hcomponent.isPart, hcomponent.no_slash⟩
  dsimp only at h
  split at h
  · cases h
  · cases h
    rw [ofString_toString hwell]
    rfl

theorem foldl_climbStep_components {comps : List String} (h : ∀ comp ∈ comps, IsComponent comp) (climbed : Nat × List String) :
    comps.foldl climbStep climbed = (climbed.1, climbed.2 ++ comps) := by
  induction comps generalizing climbed with
  | nil => simp
  | cons comp comps ih =>
    have hstep : climbStep climbed comp = (climbed.1, climbed.2 ++ [comp]) := if_neg (h comp List.mem_cons_self).ne_up
    rw [List.foldl_cons, hstep, ih fun c hc => h c (List.mem_cons_of_mem _ hc), List.append_assoc, List.singleton_append]

/-- A path of names stays below any directory. -/
theorem staysBelow_metadataPath {parts : List String} {path : String} (h : metadataPath parts = .ok path) (dir : List String) :
    StaysBelow dir path := by
  obtain ⟨names, hnames, hparts⟩ := metadataPath_spec h
  have hcomponents : ∀ comp ∈ (PurePosixPath.ofString path).parts, IsComponent comp := by
    rw [hparts]
    intro comp hcomp
    rcases List.mem_cons.1 hcomp with rfl | hcomp
    · exact ⟨by decide, by decide, by decide, by decide⟩
    · exact hnames comp hcomp
  refine ⟨".openblade", names, ?_⟩
  rw [climb, foldl_climbStep_components hcomponents, hparts, Nat.sub_zero, List.drop_length]

end LtfsPathsAux

open LtfsPathsAux

/-- A file call of the backend accesses host paths strictly inside the mount directories it looks into exactly when its path stays
below each of them; a READ, WRITE or VERIFY does so in every world exactly when it is refused by its form, its barcode is none, or its
path stays below the mount directory of the tape; and the paths of metadata stay below any. -/
theorem tape_paths_confined_iff (host : LtfsHost) :
    (∀ env s (call : FileCall), (∀ access ∈ call.accesses host env s, access.Confined host) ↔
      ∀ barcode ∈ call.opens host env s, StaysBelow (host.place (host.mountPath barcode)).parts call.path) ∧
    (∀ (request : TapeOpRequest) raiseOnFailed, request.opType ∈ [.read, .write, .verify] →
      ((∀ (τ C : Type) (rest : Machine τ Op (fun o => Except Exn o.Ans) C) choices t s, s.accessed = [] →
        ∀ access ∈ ((realMachine host rest).run choices (executeTapeRequest request raiseOnFailed ()) (t, s)).2.2.accessed,
          access.Confined host) ↔
      (validateRequest request = .ok () → ∀ barcode, normalizeBarcode host.upper request.barcode = .ok barcode →
        StaysBelow (host.place (host.mountPath barcode)).parts (request.tapePath.getD "")))) ∧
    ∀ parts path dir, metadataPath parts = .ok path → StaysBelow dir path := by
  refine ⟨fun env s call => ?_, fun request raiseOnFailed hop => ⟨fun h hvalid barcode hbarcode => ?_, fun h => ?_⟩, fun parts path dir h =>
    staysBelow_metadataPath h dir⟩
  · rw [accesses_eq, List.forall_mem_map]
    exact forall₂_congr fun barcode _ => confined_iff barcode _
  · have hmove : request.opType ≠ .move := fun h => by rw [h] at hop; exact absurd hop (by decide)
    have hpass : canPass (realMachine host willing) (executeTapeRequest request raiseOnFailed) (Accessed host request barcode) ()
        ((), { files := fun _ => none }) :=
      canPass_request host hvalid hmove raiseOnFailed (canPass_dispatch host hop hbarcode _)
    obtain ⟨choices, path, hclimb, haccess⟩ := hpass
    have hbelow := (confined_iff barcode path).1 (h Unit Unit willing choices () _ rfl _ haccess)
    unfold StaysBelow at hbelow ⊢
    rwa [hclimb] at hbelow
  · intro τ C rest choices t s hempty
    have hs : Safe host (t, s) := by
      intro access haccess
      rw [hempty] at haccess
      cases haccess
    cases hvalid : validateRequest request with
    | error e =>
      -- a request that is refused calls nothing
      have hrun : executeTapeRequest request raiseOnFailed () = (.ret (.error e, ()) : Prog _ _ _) := by
        unfold executeTapeRequest executeTapeOp
        rw [hvalid]
        rfl
      rw [hrun, Machine.run_ret]
      exact hs
    | ok u => exact cut_of_wp (wp_request host rest hop (h hvalid) raiseOnFailed hs) hs choices fun _ _ => trivial

namespace LtfsPathsExample

def host : LtfsHost := { cwd := "/", isAbsolute := rfl, mountRoot := "/mnt/ltfs", upper := id, digest := fun _ => "" }

end LtfsPathsExample

open LtfsPathsExample in
/-- A read of "/../VOL002L8/x" on the tape VOL001L8 looks into the mount directory of another tape. -/
theorem climbing_read_leaves_mount :
    ¬∀ access ∈ (FileCall.readBytes "VOL001L8" "/../VOL002L8/x").accesses host willingEnvironment { files := fun _ => none },
      access.Confined host := by
  rw [accesses_eq, List.forall_mem_map]
  intro h
  have hopens : "VOL001L8" ∈ (FileCall.readBytes "VOL001L8" "/../VOL002L8/x").opens host willingEnvironment { files := fun _ => none } := by
    decide +kernel
  obtain ⟨name, rest, hnames⟩ := (confined_iff _ _).1 (h _ hopens)
  have hclimb : climb "/../VOL002L8/x" = (1, ["VOL002L8", "x"]) := by decide +kernel
  have hdir : (host.place (host.mountPath "VOL001L8")).parts = ["mnt", "ltfs", "VOL001L8"] := by decide +kernel
  rw [FileCall.path, hclimb, hdir] at hnames
  simp at hnames

end OpenBlade
