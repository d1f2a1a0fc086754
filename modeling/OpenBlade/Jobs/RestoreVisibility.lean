import OpenBlade.Effects.Possible
import OpenBlade.Jobs.Restore

/-!
# What a restore leaves at its destination

`run_restore_job` reads straight into the destination and verifies afterwards; `_restore_one_verified` of a batch reads into a name of
its own and renames. What is at a destination when a run is over, however it went, is compared with what was there before, and with
the file of the catalog.
-/

namespace OpenBlade

open Effects Proc

/-- A choice, and what a write that breaks off has left of the file. -/
structure CutChoice where
  choice : RestoreChoice := {}
  cut : Option Bytes := none
  deriving Repr, DecidableEq

namespace RestoreWorld

variable (sha256 : Bytes → String) (w : RestoreWorld)

/-- One step; a `write_bytes` may break off. -/
def execCut (o : RestoreOp) (c : CutChoice) : Except Exn o.Ans × RestoreWorld :=
  match o, c.choice.fails, c.cut with
  | .readFile _ dest, some e, some data => (.error e, { w with files := w.files.set dest.location data })
  | o, _, _ => w.exec sha256 c.choice o

/-- `final_dest`. -/
def destOf (request : RestoreJobRequest) : PurePosixPath :=
  if request.destPath.location ∈ w.dirs then request.destPath.join (.ofString (PurePosixPath.ofString request.catalogPath).name)
  else request.destPath

/-- The record and the instance that a request is served from: its cartridge is not exported. -/
def sourceOf (request : RestoreJobRequest) : Option (FileRecord × FileInstance) :=
  match w.catalog.getLatestInstanceForPath request.catalogPath with
  | .error _ => none
  | .ok (record, row) => if (w.catalog.getCartridge row.barcode).map Cartridge.state = some "exported" then none else some (record, row)

/-- The request is not answered without a tape. -/
def ReadsTape (request : RestoreJobRequest) : Prop := request.dryRun = false ∧ (w.sourceOf request).isSome = true

/-- The names a batch uses next to a destination: where it reads to, and where it puts what is not verified. -/
def stagedPaths (request : RestoreJobRequest) : List PurePosixPath :=
  let dest := w.destOf request
  ["." ++ dest.name ++ ".restoring", dest.name ++ ".quarantine"].filterMap dest.withName

/-- The destination of a request has the verified content of its file. -/
def HoldsOwn (files : Dict Location Bytes) (request : RestoreJobRequest) : Prop :=
  ∃ record row data, w.sourceOf request = some (record, row) ∧ files.get? (w.destOf request).location = some data ∧
    sha256 data = record.checksumSha256

/-- The destination is as it was, or has the verified content of a request for it. -/
def Settled (requests : List RestoreJobRequest) (files : Dict Location Bytes) (request : RestoreJobRequest) : Prop :=
  files.get? (w.destOf request).location = w.files.get? (w.destOf request).location ∨
    ∃ other ∈ requests, (w.destOf other).location = (w.destOf request).location ∧ w.HoldsOwn sha256 files other

/-- The items that are reported ok are those of requests whose destination has the content. -/
def ReportsOwn (requests : List RestoreJobRequest) (files : Dict Location Bytes) (items : List RestoreItemResult) : Prop :=
  ∃ served : List RestoreJobRequest, List.Subperm served requests ∧
    served.map RestoreJobRequest.catalogPath = (items.filter RestoreItemResult.ok).map RestoreItemResult.catalogPath ∧
    ∀ request ∈ served, w.HoldsOwn sha256 files request

/-- The requests of a batch do not come between one another. -/
structure Apart (requests : List RestoreJobRequest) : Prop where
  /-- No request goes where another is staged. -/
  staged : ∀ reader ∈ requests, w.ReadsTape reader → ∀ path ∈ w.stagedPaths reader, ∀ request ∈ requests,
    (w.destOf request).location ≠ path.location
  /-- Requests for one destination are for files of one checksum, if there are such files at all. -/
  same : ∀ reader ∈ requests, w.ReadsTape reader → ∀ request ∈ requests, (w.destOf reader).location = (w.destOf request).location →
    ∀ source found, w.sourceOf reader = some source → w.sourceOf request = some found → source.1.checksumSha256 ∈ Set.range sha256 →
      found.1.checksumSha256 ∈ Set.range sha256 → source.1.checksumSha256 = found.1.checksumSha256
  /-- What a dry run reports is there already. -/
  simulated : ∀ request ∈ requests, request.dryRun = true → (w.sourceOf request).isSome = true → w.HoldsOwn sha256 w.files request

end RestoreWorld

/-- The steps as a machine, with writes that break off. -/
def restoreCutMachine (sha256 : Bytes → String) : Machine RestoreWorld RestoreOp (fun o => Except Exn o.Ans) CutChoice where
  exec w o c := w.execCut sha256 o c

/-- A step without the paths of files it is about. -/
def RestoreOp.unplaced : RestoreOp → RestoreOp
  | readFile row _ => readFile row (.ofString "")
  | isDir _ => isDir (.ofString "")
  | sha256sum _ => sha256sum (.ofString "")
  | rename _ _ => rename (.ofString "") (.ofString "")
  | unlink _ => unlink (.ofString "")
  | makeDir _ => makeDir (.ofString "")
  | o => o

/-- The machine where the first, the second, ... step of a kind meets what `trouble` has for it, whatever files it is about; the steps
that were made are remembered. -/
def troubledMachine (sha256 : Bytes → String) (trouble : RestoreOp → Nat → CutChoice) :
    Machine (RestoreWorld × List RestoreOp) RestoreOp (fun o => Except Exn o.Ans) Unit where
  exec s o _ :=
    let (answer, w) := s.1.execCut sha256 o (trouble o.unplaced (s.2.count o.unplaced))
    (answer, w, o.unplaced :: s.2)

/-- After the same troubles, the single job and the batch of the request leave the destination alike: both as it was, or both with the
verified content. -/
def RestoresAgree (sha256 : Bytes → String) (w : RestoreWorld) (request : RestoreJobRequest) (jobId : Nat) : Prop :=
  ∀ trouble cs cs' a l s a' l' s',
    (troubledMachine sha256 trouble).run cs (runRestoreJob request jobId {}) (w, []) = (.ret (a, l), s) →
    (troubledMachine sha256 trouble).run cs' (runRestoreBatch [request] jobId {}) (w, []) = (.ret (a', l'), s') →
      let dest := (w.destOf request).location
      (s.1.files.get? dest = w.files.get? dest ↔ s'.1.files.get? dest = w.files.get? dest) ∧
        (w.HoldsOwn sha256 s.1.files request ↔ w.HoldsOwn sha256 s'.1.files request)

namespace VisibilityAux

variable {sha256 : Bytes → String} {w s : RestoreWorld} {files : Dict Location Bytes} {l : TapeLocals}

/-! ### Steps -/

/-- The catalog and the directories are those of `w`. -/
structure Stands (w : RestoreWorld) (files : Dict Location Bytes) (s : RestoreWorld) : Prop where
  catalog : s.catalog = w.catalog
  dirs : s.dirs = w.dirs
  files : s.files = files

/-- A step that changes no file. -/
def IsQuiet : RestoreOp → Prop
  | .readFile _ _ | .rename _ _ | .unlink _ => False
  | _ => True

/-- What is known of an answer. -/
def Answers (sha256 : Bytes → String) (w : RestoreWorld) (files : Dict Location Bytes) : (o : RestoreOp) → o.Ans → Prop
  | .latestInstance path, a => w.catalog.getLatestInstanceForPath path = .ok a
  | .cartridge barcode, a => a = w.catalog.getCartridge barcode
  | .isDir path, a => a = decide (path.location ∈ w.dirs)
  | .sha256sum path, a => ∃ data, files.get? path.location = some data ∧ a = sha256 data
  | _, _ => True

theorem execCut_quiet {o : RestoreOp} (ho : IsQuiet o) (hs : Stands w files s) (c : CutChoice) :
    Stands w files (s.execCut sha256 o c).2 ∧ ∀ a, (s.execCut sha256 o c).1 = .ok a → Answers sha256 w files o a := by
  obtain ⟨hcatalog, hdirs, rfl⟩ := hs
  have hstays : Stands w s.files s := ⟨hcatalog, hdirs, rfl⟩
  have hexec : s.execCut sha256 o c = s.exec sha256 c.choice o := by
    cases o with
    | readFile row dest => exact ho.elim
    | _ => rfl
  rw [hexec]
  unfold RestoreWorld.exec
  cases c.choice.fails with
  | some e => exact ⟨hstays, fun a ha => by cases ha⟩
  | none =>
    cases o with
    | readFile | rename | unlink => exact ho.elim
    | updateJobState jobId state error =>
      simp only [RestoreWorld.perform]
      split
      · exact ⟨⟨hcatalog, hdirs, rfl⟩, fun a _ => trivial⟩
      · exact ⟨hstays, fun a _ => trivial⟩
    | latestInstance path =>
      refine ⟨hstays, fun a ha => ?_⟩
      rw [Answers, ← hcatalog]
      exact ha
    | cartridge barcode =>
      refine ⟨hstays, fun a ha => ?_⟩
      cases ha
      rw [Answers, hcatalog]
    | isDir path =>
      refine ⟨hstays, fun a ha => ?_⟩
      cases ha
      simp only [Answers, hdirs]
    | sha256sum path =>
      simp only [RestoreWorld.perform, RestoreWorld.file?]
      cases hdata : s.files.get? path.location with
      | none => exact ⟨hstays, fun a ha => by cases ha⟩
      | some data =>
        refine ⟨hstays, fun a ha => ?_⟩
        cases ha
        exact ⟨data, hdata, rfl⟩
    | createJob metadata => exact ⟨⟨hcatalog, hdirs, rfl⟩, fun a _ => trivial⟩
    | _ => exact ⟨hstays, fun a _ => trivial⟩

/-- Nothing is assumed of the environment. -/
abbrev free : Contract RestoreWorld RestoreOp fun o => Except Exn o.Ans := .alone (fun _ => True) fun _ => True

theorem wp_quiet {o : RestoreOp} {N : o.Ans → TapeLocals → RestoreWorld → Prop} {E : Exn → TapeLocals → RestoreWorld → Prop} (ho : IsQuiet o)
    (hs : Stands w files s) (hN : ∀ a s', Stands w files s' → Answers sha256 w files o a → N a l s')
    (hE : ∀ e s', Stands w files s' → E e l s') : wp (restoreCutMachine sha256) free (perform o) N E l s := by
  refine wp_call fun s₁ hr c _ => ?_
  obtain rfl : s = s₁ := hr
  obtain ⟨hpost, hanswer⟩ := execCut_quiet ho hs c
  exact ⟨trivial, fun a ha => hN a _ hpost (hanswer a ha), fun e _ => hE e _ hpost⟩

theorem wp_readFile {row : FileInstance} {dest : PurePosixPath} {N : Unit → TapeLocals → RestoreWorld → Prop}
    {E : Exn → TapeLocals → RestoreWorld → Prop} (hs : Stands w files s)
    (hN : ∀ data s', Stands w (files.set dest.location data) s' → N () l s') (hsame : ∀ e s', Stands w files s' → E e l s')
    (hcut : ∀ e data s', Stands w (files.set dest.location data) s' → E e l s') :
    wp (restoreCutMachine sha256) free (step (.readFile row dest)) N E l s := by
  obtain ⟨hcatalog, hdirs, rfl⟩ := hs
  refine wp_call fun s₁ hr c _ => ?_
  obtain rfl : s = s₁ := hr
  obtain ⟨⟨fails, bytes, fromSlot⟩, cut⟩ := c
  refine ⟨trivial, fun a _ => ?_, fun e he => ?_⟩
  · cases fails with
    | none =>
      refine hN bytes _ ?_
      exact ⟨hcatalog, hdirs, rfl⟩
    | some e => cases cut <;> rename_i ha <;> cases ha
  · cases fails with
    | none => cases he
    | some e' =>
      cases cut with
      | none =>
        refine hsame e _ ?_
        exact ⟨hcatalog, hdirs, rfl⟩
      | some data =>
        refine hcut e data _ ?_
        exact ⟨hcatalog, hdirs, rfl⟩

theorem wp_rename {path target : PurePosixPath} {N : Unit → TapeLocals → RestoreWorld → Prop} {E : Exn → TapeLocals → RestoreWorld → Prop}
    (hs : Stands w files s)
    (hN : ∀ data s', files.get? path.location = some data → Stands w ((files.erase path.location).set target.location data) s' → N () l s')
    (hE : ∀ e s', Stands w files s' → E e l s') : wp (restoreCutMachine sha256) free (step (.rename path target)) N E l s := by
  obtain ⟨hcatalog, hdirs, rfl⟩ := hs
  refine wp_call fun s₁ hr c _ => ?_
  obtain rfl : s = s₁ := hr
  have hexec : (restoreCutMachine sha256).exec s (.rename path target) c = s.exec sha256 c.choice (.rename path target) := rfl
  rw [hexec]
  unfold RestoreWorld.exec
  cases c.choice.fails with
  | some e => exact ⟨trivial, fun a ha => (by cases ha), fun e' _ => hE e' _ ⟨hcatalog, hdirs, rfl⟩⟩
  | none =>
    simp only [RestoreWorld.perform, RestoreWorld.file?]
    cases hdata : s.files.get? path.location with
    | none => exact ⟨trivial, fun a ha => (by cases ha), fun e' _ => hE e' _ ⟨hcatalog, hdirs, rfl⟩⟩
    | some data => exact ⟨trivial, fun a _ => hN data _ hdata ⟨hcatalog, hdirs, rfl⟩, fun e' he => by cases he⟩

theorem wp_unlink {path : PurePosixPath} {N : Unit → TapeLocals → RestoreWorld → Prop} {E : Exn → TapeLocals → RestoreWorld → Prop} (hs : Stands w files s)
    (hN : ∀ s', Stands w (files.erase path.location) s' → N () l s') (hE : ∀ e s', Stands w files s' → E e l s') :
    wp (restoreCutMachine sha256) free (step (.unlink path)) N E l s := by
  obtain ⟨hcatalog, hdirs, rfl⟩ := hs
  refine wp_call fun s₁ hr c _ => ?_
  obtain rfl : s = s₁ := hr
  have hexec : (restoreCutMachine sha256).exec s (.unlink path) c = s.exec sha256 c.choice (.unlink path) := rfl
  rw [hexec]
  unfold RestoreWorld.exec
  cases c.choice.fails with
  | some e => exact ⟨trivial, fun a ha => (by cases ha), fun e' _ => hE e' _ ⟨hcatalog, hdirs, rfl⟩⟩
  | none => exact ⟨trivial, fun a _ => hN _ ⟨hcatalog, hdirs, rfl⟩, fun e' he => by cases he⟩

theorem wp_batchDest {request : RestoreJobRequest} {l : TapeLocals} {N : PurePosixPath → TapeLocals → RestoreWorld → Prop}
    {E : Exn → TapeLocals → RestoreWorld → Prop} (hs : Stands w files s) (hN : ∀ s', Stands w files s' → N (w.destOf request) l s')
    (hE : ∀ e s', Stands w files s' → E e l s') : wp (restoreCutMachine sha256) free (batchDest request) N E l s := by
  unfold batchDest
  rw [wp_bind]
  refine wp_quiet trivial hs (fun isDir s' hs' hanswer => ?_) hE
  obtain rfl : isDir = decide (request.destPath.location ∈ w.dirs) := hanswer
  have hdest := hN s' hs'
  unfold RestoreWorld.destOf at hdest
  by_cases hdir : request.destPath.location ∈ w.dirs
  · rw [if_pos hdir] at hdest
    rw [if_pos (decide_eq_true hdir)]
    exact hdest
  · rw [if_neg hdir] at hdest
    rw [if_neg (by simpa using hdir)]
    exact hdest

/-! ### A single job that reads no tape -/

/-- Where a request reads no tape, no file changes. -/
theorem wp_runRestoreJob_quiet (sha256 : Bytes → String) (jobId : Nat) (l : TapeLocals) {request : RestoreJobRequest} (hquiet : ¬w.ReadsTape request) (hs : Stands w files s) :
    wp (restoreCutMachine sha256) free (runRestoreJob request jobId) (fun _ _ s' => Stands w files s') (fun _ _ s' => Stands w files s')
      l s := by
  unfold runRestoreJob setJobState
  rw [wp_scope, wp_bind]
  refine wp_quiet trivial hs (fun _ s₁ hs₁ _ => ?_) fun _ _ h => h
  rw [wp_bind]
  refine wp_quiet trivial hs₁ (fun found s₂ hs₂ hfound => ?_) fun _ _ h => h
  obtain ⟨record, row⟩ := found
  rw [wp_bind]
  refine wp_quiet trivial hs₂ (fun cartridge s₃ hs₃ hcartridge => ?_) fun _ _ h => h
  obtain rfl : cartridge = w.catalog.getCartridge row.barcode := hcartridge
  split
  · rw [wp_bind]
    exact wp_quiet trivial hs₃ (fun _ _ h _ => h) fun _ _ h => h
  · rename_i hexported
    split
    · exact wp_quiet trivial hs₃ (fun _ _ h _ => h) fun _ _ h => h
    · rename_i hdry
      refine absurd ⟨by simpa using hdry, ?_⟩ hquiet
      have hlatest : w.catalog.getLatestInstanceForPath request.catalogPath = .ok (record, row) := hfound
      unfold RestoreWorld.sourceOf
      rw [hlatest]
      dsimp only
      rw [if_neg hexported]
      rfl

/-! ### What the files of a batch are -/

section batch

variable {requests served : List RestoreJobRequest} {files' : Dict Location Bytes} {request reader : RestoreJobRequest}
  {source : FileRecord × FileInstance}

/-- Every destination is as it should be, and those of `served` have the content. -/
structure Kept (sha256 : Bytes → String) (w : RestoreWorld) (requests served : List RestoreJobRequest) (files : Dict Location Bytes) :
    Prop where
  settled : ∀ request ∈ requests, w.Settled sha256 requests files request
  own : ∀ request ∈ served, w.HoldsOwn sha256 files request

theorem holdsOwn_congr (h : files'.get? (w.destOf request).location = files.get? (w.destOf request).location)
    (hown : w.HoldsOwn sha256 files request) : w.HoldsOwn sha256 files' request := by
  obtain ⟨record, row, data, hsource, hdata, hsum⟩ := hown
  exact ⟨record, row, data, hsource, h.trans hdata, hsum⟩

/-- What changes no destination keeps it. -/
theorem Kept.of_agree (h : Kept sha256 w requests served files) (hserved : ∀ request ∈ served, request ∈ requests)
    (hsame : ∀ request ∈ requests, files'.get? (w.destOf request).location = files.get? (w.destOf request).location) :
    Kept sha256 w requests served files' := by
  refine ⟨fun request hrequest => ?_, fun request hrequest => holdsOwn_congr (hsame request (hserved request hrequest)) (h.own request hrequest)⟩
  rcases h.settled request hrequest with hbefore | ⟨other, hother, hdest, hown⟩
  · exact .inl ((hsame request hrequest).trans hbefore)
  · exact .inr ⟨other, hother, hdest, holdsOwn_congr (hsame other hother) hown⟩

/-- The names a request is staged under are nobody's destination. -/
theorem Kept.set_staged (h : Kept sha256 w requests served files) (hserved : ∀ request ∈ served, request ∈ requests)
    (hapart : w.Apart sha256 requests) (hreader : reader ∈ requests) (hreads : w.ReadsTape reader) {path : PurePosixPath}
    (hpath : path ∈ w.stagedPaths reader) (data : Bytes) : Kept sha256 w requests served (files.set path.location data) := by
  refine h.of_agree hserved fun request hrequest => ?_
  rw [Dict.get?_set, if_neg fun heq => hapart.staged reader hreader hreads path hpath request hrequest heq.symm]

theorem Kept.erase_staged (h : Kept sha256 w requests served files) (hserved : ∀ request ∈ served, request ∈ requests)
    (hapart : w.Apart sha256 requests) (hreader : reader ∈ requests) (hreads : w.ReadsTape reader) {path : PurePosixPath}
    (hpath : path ∈ w.stagedPaths reader) : Kept sha256 w requests served (files.erase path.location) := by
  refine h.of_agree hserved fun request hrequest => ?_
  rw [Dict.get?_erase, if_neg fun heq => hapart.staged reader hreader hreads path hpath request hrequest heq.symm]

/-- A file whose checksum is right can be put at its destination. -/
theorem Kept.publish (h : Kept sha256 w requests served files) (hserved : ∀ request ∈ served, request ∈ requests)
    (hapart : w.Apart sha256 requests) (hreader : reader ∈ requests) (hreads : w.ReadsTape reader)
    (hsource : w.sourceOf reader = some source) {data : Bytes} (hdata : sha256 data = source.1.checksumSha256) :
    Kept sha256 w requests (served ++ [reader]) (files.set (w.destOf reader).location data) := by
  have hset : ∀ request : RestoreJobRequest, (w.destOf reader).location = (w.destOf request).location →
      (files.set (w.destOf reader).location data).get? (w.destOf request).location = some data := by
    intro request hdest
    rw [Dict.get?_set, if_pos hdest]
  have hother : ∀ request : RestoreJobRequest, (w.destOf reader).location ≠ (w.destOf request).location →
      (files.set (w.destOf reader).location data).get? (w.destOf request).location = files.get? (w.destOf request).location := by
    intro request hdest
    rw [Dict.get?_set, if_neg hdest]
  have hown : w.HoldsOwn sha256 (files.set (w.destOf reader).location data) reader :=
    ⟨source.1, source.2, data, hsource, hset reader rfl, hdata⟩
  constructor
  · intro request hrequest
    by_cases hdest : (w.destOf reader).location = (w.destOf request).location
    · exact .inr ⟨reader, hreader, hdest, hown⟩
    · rcases h.settled request hrequest with hbefore | ⟨other, hmem, hsame, hholds⟩
      · exact .inl ((hother request hdest).trans hbefore)
      · refine .inr ⟨other, hmem, hsame, holdsOwn_congr (hother other ?_) hholds⟩
        rw [hsame]
        exact hdest
  · intro request hrequest
    rcases List.mem_append.1 hrequest with hmem | hmem
    · by_cases hdest : (w.destOf reader).location = (w.destOf request).location
      · obtain ⟨record, row, old, hfound, -, hold⟩ := h.own request hmem
        have hsum : source.1.checksumSha256 = record.checksumSha256 :=
          hapart.same reader hreader hreads request (hserved request hmem) hdest source (record, row) hsource hfound ⟨data, hdata⟩
            ⟨old, hold⟩
        exact ⟨record, row, data, hfound, hset request hdest, hdata.trans hsum⟩
      · exact holdsOwn_congr (hother request hdest) (h.own request hmem)
    · obtain rfl : request = reader := by simpa using hmem
      exact hown

/-! ### One file -/

/-- The state of a batch: where its files are, and who has been served. -/
structure Now (sha256 : Bytes → String) (w : RestoreWorld) (requests served : List RestoreJobRequest) (s : RestoreWorld) : Prop where
  catalog : s.catalog = w.catalog
  dirs : s.dirs = w.dirs
  kept : Kept sha256 w requests served s.files

theorem Now.stands (h : Now sha256 w requests served s) : Stands w s.files s := ⟨h.catalog, h.dirs, rfl⟩

theorem Stands.now (h : Stands w files s) (hkept : Kept sha256 w requests served files) : Now sha256 w requests served s := by
  obtain ⟨hcatalog, hdirs, rfl⟩ := h
  exact ⟨hcatalog, hdirs, hkept⟩

theorem wp_now {o : RestoreOp} {N : o.Ans → TapeLocals → RestoreWorld → Prop} {E : Exn → TapeLocals → RestoreWorld → Prop}
    (ho : IsQuiet o) (hs : Now sha256 w requests served s) (hN : ∀ a s', Now sha256 w requests served s' → N a l s')
    (hE : ∀ e s', Now sha256 w requests served s' → E e l s') : wp (restoreCutMachine sha256) free (perform o) N E l s :=
  wp_quiet ho hs.stands (fun a s' hs' _ => hN a s' (hs'.now hs.kept)) fun e s' hs' => hE e s' (hs'.now hs.kept)

/-- The requests that a list of results is about, in their order. -/
def okPaths (results : List RestoreItemResult) : List String := (results.filter RestoreItemResult.ok).map RestoreItemResult.catalogPath

theorem okPaths_append (results results' : List RestoreItemResult) : okPaths (results ++ results') = okPaths results ++ okPaths results' := by
  rw [okPaths, List.filter_append, List.map_append]
  rfl

theorem wp_withName {path : PurePosixPath} {name : String} {N : PurePosixPath → TapeLocals → RestoreWorld → Prop}
    {E : Exn → TapeLocals → RestoreWorld → Prop} (hN : ∀ target, path.withName name = some target → N target l s) (hE : ∀ e, E e l s) :
    wp (restoreCutMachine sha256) free (withName path name) N E l s := by
  unfold withName
  cases htarget : path.withName name with
  | none => exact hE _
  | some target => exact hN target htarget

/-- A file of a batch: nothing at a destination changes unless the file is verified, and then it is there. -/
theorem wp_restoreOneVerified {record : FileRecord} {row : FileInstance} (hserved : ∀ request ∈ served, request ∈ requests)
    (hapart : w.Apart sha256 requests) (hreader : reader ∈ requests) (hreads : w.ReadsTape reader)
    (hsource : w.sourceOf reader = some (record, row)) (hs : Now sha256 w requests served s) :
    wp (restoreCutMachine sha256) free (restoreOneVerified (reader, record, row))
      (fun result l' s' => l' = l ∧ result.catalogPath = reader.catalogPath ∧
        Now sha256 w requests (served ++ if result.ok then [reader] else []) s')
      (fun _ l' s' => l' = l ∧ Now sha256 w requests served s') l s := by
  unfold restoreOneVerified
  rw [wp_bind]
  refine wp_batchDest hs.stands (fun s₁ hs₁ => ?_) fun e s' hs' => ⟨rfl, hs'.now hs.kept⟩
  rw [wp_bind]
  refine wp_withName (fun temp htemp => ?_) fun e => ⟨rfl, hs₁.now hs.kept⟩
  have hstaged : temp ∈ w.stagedPaths reader := List.mem_filterMap.2 ⟨_, List.mem_cons_self, htemp⟩
  have hread : ∀ data, Kept sha256 w requests served (s.files.set temp.location data) := fun data =>
    hs.kept.set_staged hserved hapart hreader hreads hstaged data
  -- what a read leaves is removed, unless the lease is lost
  have hunread : ∀ e files s', Stands w files s' → Kept sha256 w requests served files →
      wp (restoreCutMachine sha256) free
        (if isStaleLease e then raise e
        else do
          step (.unlink temp)
          pure (some { catalogPath := reader.catalogPath, ok := false, error := some (safeJobError e) : RestoreItemResult }))
        (fun failed l' s' => ∃ result, failed = some result ∧ l' = l ∧ result.catalogPath = reader.catalogPath ∧ result.ok = false ∧
          Now sha256 w requests served s')
        (fun _ l' s' => l' = l ∧ Now sha256 w requests served s') l s' := by
    intro e files s' hs' hkept
    split
    · exact ⟨rfl, hs'.now hkept⟩
    · rw [wp_bind]
      refine wp_unlink hs' (fun s'' hs'' => ?_) fun _ s'' hs'' => ⟨rfl, hs''.now hkept⟩
      exact ⟨_, rfl, rfl, rfl, rfl, hs''.now (hkept.erase_staged hserved hapart hreader hreads hstaged)⟩
  have hfailed : ∀ {k : Option RestoreItemResult → RestoreM RestoreItemResult}, (∀ result, k (some result) = pure result) → ∀ (failed : Option RestoreItemResult) l' s',
      (∃ result, failed = some result ∧ l' = l ∧ result.catalogPath = reader.catalogPath ∧ result.ok = false ∧
        Now sha256 w requests served s') →
      wp (restoreCutMachine sha256) free (k failed)
        (fun result l' s' => l' = l ∧ result.catalogPath = reader.catalogPath ∧
          Now sha256 w requests (served ++ if result.ok then [reader] else []) s')
        (fun _ l' s' => l' = l ∧ Now sha256 w requests served s') l' s' := by
    rintro k hk _ l' s' ⟨result, rfl, rfl, hpath, hok, hnow⟩
    rw [hk]
    refine ⟨rfl, hpath, ?_⟩
    rw [hok]
    simpa using hnow
  rw [wp_bind, wp_handle, wp_bind]
  refine wp_readFile hs₁ (fun data s₂ hs₂ => ?_)
    (fun e s' hs' => wp_mono (hunread e _ s' hs' hs.kept) (hfailed fun _ => rfl) fun _ _ _ h => h)
    fun e data s' hs' => wp_mono (hunread e _ s' hs' (hread data)) (hfailed fun _ => rfl) fun _ _ _ h => h
  rw [wp_pure]
  dsimp only
  rw [wp_bind]
  refine wp_quiet trivial hs₂ (fun actual s₃ hs₃ hactual => ?_) fun _ s' hs' => ⟨rfl, hs'.now (hread data)⟩
  obtain ⟨stored, hstored, rfl⟩ := hactual
  rw [Dict.get?_set, if_pos rfl] at hstored
  obtain rfl : data = stored := Option.some.inj hstored
  split
  · rw [wp_bind]
    refine wp_withName (fun quarantine hquarantine => ?_) fun e => ⟨rfl, hs₃.now (hread data)⟩
    have hother : quarantine ∈ w.stagedPaths reader :=
      List.mem_filterMap.2 ⟨_, List.mem_cons_of_mem _ List.mem_cons_self, hquarantine⟩
    rw [wp_bind]
    refine wp_rename hs₃ (fun moved s₄ _ hs₄ => ?_) fun _ s' hs' => ⟨rfl, hs'.now (hread data)⟩
    refine ⟨rfl, rfl, hs₄.now ?_⟩
    simpa using ((hread data).erase_staged hserved hapart hreader hreads hstaged).set_staged hserved hapart hreader hreads hother moved
  · rename_i hsum
    rw [wp_bind]
    refine wp_rename hs₃ (fun moved s₄ hmoved hs₄ => ?_) fun _ s' hs' => ⟨rfl, hs'.now (hread data)⟩
    rw [Dict.get?_set, if_pos rfl] at hmoved
    obtain rfl : data = moved := Option.some.inj hmoved
    exact ⟨rfl, rfl, hs₄.now (((hread data).erase_staged hserved hapart hreader hreads hstaged).publish hserved hapart hreader hreads
      hsource (not_not.1 hsum))⟩

/-! ### One tape -/

/-- The files of a tape that were served, in their order. -/
def Progress (sha256 : Bytes → String) (w : RestoreWorld) (requests served : List RestoreJobRequest) (group : List Located) (l : TapeLocals)
    (s : RestoreWorld) : Prop :=
  ∃ mine : List RestoreJobRequest, mine.Sublist (group.map Prod.fst) ∧ mine.map RestoreJobRequest.catalogPath = okPaths l.results ∧
    Now sha256 w requests (served ++ mine) s

/-- What is known of what is read from the tapes. -/
def Located.IsSourced (w : RestoreWorld) (requests : List RestoreJobRequest) (x : Located) : Prop :=
  x.1 ∈ requests ∧ w.ReadsTape x.1 ∧ w.sourceOf x.1 = some x.2

theorem mem_of_sublist {group : List Located} (hserved : ∀ request ∈ served, request ∈ requests)
    (hgroup : ∀ x ∈ group, Located.IsSourced w requests x) {mine : List RestoreJobRequest} (hmine : mine.Sublist (group.map Prod.fst)) :
    ∀ request ∈ served ++ mine, request ∈ requests := by
  intro request hrequest
  rcases List.mem_append.1 hrequest with hmem | hmem
  · exact hserved request hmem
  · obtain ⟨x, hx, rfl⟩ := List.mem_map.1 (hmine.subset hmem)
    exact (hgroup x hx).1

theorem wp_noteFenced {α : Type} {e : Exn} {N : α → TapeLocals → RestoreWorld → Prop} {E : Exn → TapeLocals → RestoreWorld → Prop}
    (hE : ∀ l', l'.results = l.results → E e l' s) : wp (restoreCutMachine sha256) free (noteFenced e : RestoreM α) N E l s := by
  unfold noteFenced
  split
  · exact hE _ rfl
  · exact hE _ rfl

theorem wp_unloadTape {barcode : Barcode} (hs : Now sha256 w requests served s) :
    wp (restoreCutMachine sha256) free (unloadTape barcode) (fun _ l' s' => l'.results = l.results ∧ Now sha256 w requests served s')
      (fun _ l' s' => l'.results = l.results ∧ Now sha256 w requests served s') l s := by
  unfold unloadTape
  rw [wp_bind, wp_locals]
  split
  · exact ⟨rfl, hs⟩
  · rw [wp_bind, wp_handle]
    refine wp_now trivial hs (fun _ s₁ hs₁ => ?_) fun e s₁ hs₁ => wp_noteFenced fun l' hl => ⟨hl, hs₁⟩
    split
    · exact wp_now trivial hs₁ (fun _ _ h => ⟨rfl, h⟩) fun _ _ h => ⟨rfl, h⟩
    · exact ⟨rfl, hs₁⟩

/-- The files of a tape, one after the other. -/
theorem wp_readFiles {group : List Located} (hserved : ∀ request ∈ served, request ∈ requests) (hapart : w.Apart sha256 requests)
    (hgroup : ∀ x ∈ group, Located.IsSourced w requests x) (hs : Progress sha256 w requests served [] l s) :
    wp (restoreCutMachine sha256) free
      (forEach (fun x => do
        let result ← restoreOneVerified x
        assign fun l => { l with results := l.results ++ [result] }) group)
      (fun _ l' s' => Progress sha256 w requests served group l' s') (fun _ l' s' => Progress sha256 w requests served group l' s') l s := by
  refine wp_forEach _ group (Progress sha256 w requests served) hs ?_ fun _ _ h => h
  rintro pre ⟨reader, record, row⟩ post l s hsplit ⟨mine, hmine, hpaths, hnow⟩
  have hx : (reader, record, row) ∈ group := by
    rw [hsplit]
    exact List.mem_append_right _ List.mem_cons_self
  have hpre : ∀ x ∈ pre, Located.IsSourced w requests x := fun x hx => hgroup x (by rw [hsplit]; exact List.mem_append_left _ hx)
  obtain ⟨hreader, hreads, hsource⟩ := hgroup _ hx
  rw [wp_bind]
  refine wp_mono (wp_restoreOneVerified (mem_of_sublist hserved hpre hmine) hapart hreader hreads hsource hnow) ?_ ?_
  · rintro result l' s' ⟨rfl, hpath, hnow'⟩
    refine ⟨mine ++ (if result.ok then [reader] else []), ?_, ?_, ?_⟩
    · rw [List.map_append]
      refine hmine.append ?_
      split
      · exact List.Sublist.refl _
      · exact List.nil_sublist _
    · rw [List.map_append, hpaths]
      show okPaths l'.results ++ _ = okPaths (l'.results ++ [result])
      rw [okPaths_append]
      cases hok : result.ok <;> simp [okPaths, hok, hpath]
    · rw [← List.append_assoc]
      exact hnow'
  · rintro e l' s' ⟨rfl, hnow'⟩
    refine ⟨mine, hmine.trans ?_, hpaths, hnow'⟩
    rw [hsplit, List.map_append]
    exact List.sublist_append_left _ _

theorem okPaths_notDone (results : List RestoreItemResult) (group : List Located) (message : String) :
    okPaths (notDone results group message) = [] := by
  have hnone : (notDone results group message).filter RestoreItemResult.ok = [] := by
    refine List.filter_eq_nil_iff.2 fun result hresult => ?_
    obtain ⟨x, -, rfl⟩ := List.mem_map.1 hresult
    simp
  rw [okPaths, hnone]
  rfl

/-- A tape of the batch. -/
theorem wp_restoreTapeGroup {barcode : Barcode} {group : List Located} (hserved : ∀ request ∈ served, request ∈ requests)
    (hapart : w.Apart sha256 requests) (hgroup : ∀ x ∈ group, Located.IsSourced w requests x)
    (hs : Now sha256 w requests served s) :
    wp (restoreCutMachine sha256) free (restoreTapeGroup barcode group)
      (fun done l' s' => l' = l ∧ ∃ mine : List RestoreJobRequest, mine.Sublist (group.map Prod.fst) ∧
        mine.map RestoreJobRequest.catalogPath = okPaths done.1 ∧ Now sha256 w requests (served ++ mine) s')
      (fun _ l' s' => l' = l ∧ ∃ served', Now sha256 w requests served' s') l s := by
  have hstart : ∀ {l' : TapeLocals} {s'}, l'.results = [] → Now sha256 w requests served s' → Progress sha256 w requests served [] l' s' := by
    intro l' s' hresults h
    refine ⟨[], List.Sublist.refl _, by rw [hresults]; rfl, ?_⟩
    rw [List.append_nil]
    exact h
  -- the calls that follow the files change no file
  have hcall : ∀ {o : RestoreOp} {l' s'} {E : Exn → TapeLocals → RestoreWorld → Prop}, IsQuiet o →
      Progress sha256 w requests served group l' s' → (∀ e s'', Progress sha256 w requests served group l' s'' → E e l' s'') →
      wp (restoreCutMachine sha256) free (perform o) (fun _ l'' s'' => l'' = l' ∧ Progress sha256 w requests served group l' s'') E l' s' := by
    rintro o l' s' E ho ⟨mine, hmine, hpaths, hnow⟩ hE
    exact wp_now ho hnow (fun _ s'' h => ⟨rfl, mine, hmine, hpaths, h⟩) fun e s'' h => hE e s'' ⟨mine, hmine, hpaths, h⟩
  have hwiden : ∀ {l' s'}, Progress sha256 w requests served [] l' s' → Progress sha256 w requests served group l' s' := by
    rintro l' s' ⟨mine, hmine, hpaths, hnow⟩
    exact ⟨mine, hmine.trans (List.nil_sublist _), hpaths, hnow⟩
  have hunmount : ∀ {l' s'} {N : Unit → TapeLocals → RestoreWorld → Prop} {E : Exn → TapeLocals → RestoreWorld → Prop},
      Progress sha256 w requests served group l' s' →
      (∀ l'' s'', Progress sha256 w requests served group l'' s'' → N () l'' s'') →
      (∀ e l'' s'', Progress sha256 w requests served group l'' s'' → E e l'' s'') →
      wp (restoreCutMachine sha256) free
        (do
          step (.verifyLease barcode)
          handle (step (.unmount barcode)) fun _ =>
            assign fun l =>
              { l with unmountFailed := true, tapeError := some ("Unmount of " ++ barcode ++ " failed; left in drive for reconcile") })
        N E l' s' := by
    intro l' s' N E h hN hE
    rw [wp_bind]
    refine wp_mono (hcall (E := E) trivial h fun e s'' h' => hE e l' s'' h') ?_ fun _ _ _ h => h
    rintro _ l'' s'' ⟨rfl, h'⟩
    rw [wp_handle]
    refine wp_mono (hcall (o := .unmount barcode) trivial h' fun e s₃ h₃ => ?_) ?_ fun _ _ _ h => h
    · exact hN _ _ h₃
    · rintro _ l₃ s₃ ⟨rfl, h₃⟩
      exact hN _ _ h₃
  have hread : ∀ {l' : TapeLocals} {s'}, l'.results = [] → Now sha256 w requests served s' →
      wp (restoreCutMachine sha256) free (readGroup barcode group) (fun _ l'' s'' => Progress sha256 w requests served group l'' s'')
        (fun _ _ s'' => ∃ served', Now sha256 w requests served' s'') l' s' := by
    intro l' s' hresults h
    have hunload : ∀ {l₁ s₁} {N : Unit → TapeLocals → RestoreWorld → Prop}, Progress sha256 w requests served group l₁ s₁ →
        (∀ l₂ s₂, Progress sha256 w requests served group l₂ s₂ → N () l₂ s₂) →
        wp (restoreCutMachine sha256) free (unloadTape barcode) N (fun _ _ s₂ => ∃ served', Now sha256 w requests served' s₂) l₁ s₁ := by
      rintro l₁ s₁ N ⟨mine, hmine, hpaths, hnow⟩ hN
      refine wp_mono (wp_unloadTape hnow) ?_ fun _ _ _ h => ⟨_, h.2⟩
      rintro _ l₂ s₂ ⟨hl, hnow'⟩
      exact hN l₂ s₂ ⟨mine, hmine, by rw [hl]; exact hpaths, hnow'⟩
    -- an exception on the way is noted, or it is a lost lease
    have hexcept : ∀ (e : Exn) (l₁ : TapeLocals) s₁, Progress sha256 w requests served group l₁ s₁ →
        wp (restoreCutMachine sha256) free
          (if isStaleLease e then noteFenced e
          else assign fun l => { l with results := l.results ++ notDone l.results group (safeJobError e) })
          (fun _ l₂ s₂ => wp (restoreCutMachine sha256) free (unloadTape barcode)
            (fun _ l'' s'' => Progress sha256 w requests served group l'' s'') (fun _ _ s'' => ∃ served', Now sha256 w requests served' s'')
            l₂ s₂)
          (fun e l₂ s₂ => wp (restoreCutMachine sha256) free (unloadTape barcode) (fun _ _ s'' => ∃ served', Now sha256 w requests served' s'')
            (fun _ _ s'' => ∃ served', Now sha256 w requests served' s'') l₂ s₂) l₁ s₁ := by
      rintro e l₁ s₁ ⟨mine, hmine, hpaths, hnow⟩
      split
      · refine wp_noteFenced fun l₂ _ => ?_
        exact wp_mono (wp_unloadTape hnow) (fun _ _ _ h => ⟨_, h.2⟩) fun _ _ _ h => ⟨_, h.2⟩
      · refine hunload ⟨mine, hmine, ?_, hnow⟩ fun _ _ h => h
        show _ = okPaths (l₁.results ++ notDone l₁.results group (safeJobError e))
        rw [okPaths_append, okPaths_notDone, List.append_nil]
        exact hpaths
    unfold readGroup
    rw [wp_ensure, wp_handle, wp_bind]
    refine wp_now trivial h (fun fromSlot s₁ h₁ => ?_) fun e s₁ h₁ => hexcept e l' s₁ (hwiden (hstart hresults h₁))
    rw [wp_bind, wp_assign, wp_bind]
    refine wp_now trivial h₁ (fun _ s₂ h₂ => ?_) fun e s₂ h₂ => hexcept e _ s₂ (hwiden (hstart hresults h₂))
    rw [wp_bind]
    refine wp_now trivial h₂ (fun _ s₃ h₃ => ?_) fun e s₃ h₃ => hexcept e _ s₃ (hwiden (hstart hresults h₃))
    rw [wp_ensure]
    refine wp_mono (wp_readFiles hserved hapart hgroup (hstart hresults h₃)) ?_ ?_
    · exact fun _ l₄ s₄ h₄ => hunmount h₄ (fun l₅ s₅ h₅ => hunload h₅ fun _ _ h => h) fun e l₅ s₅ h₅ => hexcept e l₅ s₅ h₅
    · exact fun e l₄ s₄ h₄ => hunmount h₄ (fun l₅ s₅ h₅ => hexcept e l₅ s₅ h₅) fun e' l₅ s₅ h₅ => hexcept e' l₅ s₅ h₅
  unfold restoreTapeGroup
  rw [wp_scope, wp_bind]
  refine wp_now trivial hs (fun _ s₁ h₁ => ?_) fun _ _ h => ⟨rfl, _, h⟩
  rw [wp_bind, wp_ensure]
  refine wp_mono (hread rfl h₁) ?_ ?_
  · rintro _ l₂ s₂ ⟨mine, hmine, hpaths, hnow⟩
    refine wp_now trivial hnow (fun _ s₃ h₃ => ?_) fun _ _ h => ⟨rfl, _, h⟩
    rw [wp_bind, wp_locals]
    exact ⟨rfl, mine, hmine, hpaths, h₃⟩
  · rintro e l₂ s₂ ⟨served', h₂⟩
    exact wp_now trivial h₂ (fun _ _ h => ⟨rfl, _, h⟩) fun _ _ h => ⟨rfl, _, h⟩

/-! ### A batch -/

/-- What is settled of a request before a tape is used. -/
inductive LocatedAs (w : RestoreWorld) : RestoreJobRequest → RestoreItemResult ⊕ Located → Prop
  | refused {request : RestoreJobRequest} (error : Option String) :
    LocatedAs w request (.inl { catalogPath := request.catalogPath, ok := false, error := error })
  | simulated {request : RestoreJobRequest} (hdry : request.dryRun = true) (hsource : (w.sourceOf request).isSome = true) :
    LocatedAs w request (.inl { catalogPath := request.catalogPath, ok := true })
  | reads {request : RestoreJobRequest} {source : FileRecord × FileInstance} (hreads : w.ReadsTape request)
    (hsource : w.sourceOf request = some source) : LocatedAs w request (.inr (request, source))

theorem sourceOf_of_latest {record : FileRecord} {row : FileInstance}
    (hlatest : w.catalog.getLatestInstanceForPath request.catalogPath = .ok (record, row))
    (hexported : (w.catalog.getCartridge row.barcode).map Cartridge.state ≠ some "exported") : w.sourceOf request = some (record, row) := by
  unfold RestoreWorld.sourceOf
  rw [hlatest]
  exact if_neg hexported

theorem wp_locate (hs : Stands w files s) :
    wp (restoreCutMachine sha256) free (locate request) (fun y l' s' => l' = l ∧ Stands w files s' ∧ LocatedAs w request y)
      (fun _ _ s' => Stands w files s') l s := by
  unfold locate
  rw [wp_bind, wp_handle, wp_bind]
  refine wp_quiet trivial hs (fun found s₁ hs₁ hfound => ?_) fun e s₁ hs₁ => ?_
  · obtain ⟨record, row⟩ := found
    rw [wp_pure]
    dsimp only
    rw [wp_bind]
    refine wp_quiet trivial hs₁ (fun cartridge s₂ hs₂ hcartridge => ?_) fun _ _ h => h
    obtain rfl : cartridge = w.catalog.getCartridge row.barcode := hcartridge
    split
    · exact ⟨rfl, hs₂, .refused _⟩
    · rename_i hexported
      have hsource := sourceOf_of_latest hfound hexported
      split
      · rename_i hdry
        exact ⟨rfl, hs₂, .simulated hdry (by rw [hsource]; rfl)⟩
      · rename_i hdry
        exact ⟨rfl, hs₂, .reads ⟨by simpa using hdry, by rw [hsource]; rfl⟩ hsource⟩
  · split
    · exact ⟨rfl, hs₁, .refused _⟩
    · exact hs₁

/-- The requests that a batch splits into: those that are answered, and those that wait for their tape. -/
theorem split_located {located : List (RestoreItemResult ⊕ Located)} (h : List.Forall₂ (LocatedAs w) requests located) :
    ∃ dry : List RestoreJobRequest, (∀ request ∈ dry, request.dryRun = true ∧ (w.sourceOf request).isSome = true) ∧
      List.Subperm (dry ++ (located.filterMap Sum.getRight?).map Prod.fst) requests ∧
      dry.map RestoreJobRequest.catalogPath = okPaths (located.filterMap Sum.getLeft?) ∧
      ∀ x ∈ located.filterMap Sum.getRight?, x.1 ∈ requests ∧ w.ReadsTape x.1 ∧ w.sourceOf x.1 = some x.2 := by
  induction h with
  | nil =>
    refine ⟨[], fun r hr => absurd hr List.not_mem_nil, ?_, ?_, fun x hx => ?_⟩
    · simp
    · simp [okPaths]
    · simp at hx
  | cons hy _ ih =>
    rename_i request y requests located _
    obtain ⟨dry, hdry, hperm, hpaths, hreads⟩ := ih
    have hreads' : ∀ x ∈ located.filterMap Sum.getRight?, x.1 ∈ request :: requests ∧ w.ReadsTape x.1 ∧ w.sourceOf x.1 = some x.2 := by
      intro x hx
      obtain ⟨hmem, hrest⟩ := hreads x hx
      exact ⟨List.mem_cons_of_mem _ hmem, hrest⟩
    cases hy with
    | refused error => exact ⟨dry, hdry, hperm.cons_right request, hpaths, hreads'⟩
    | simulated hd hsource =>
      refine ⟨request :: dry, ?_, (List.subperm_cons request).2 hperm, ?_, hreads'⟩
      · intro r hr
        rcases List.mem_cons.1 hr with rfl | hr
        · exact ⟨hd, hsource⟩
        · exact hdry r hr
      · rw [List.map_cons, hpaths]
        rfl
    | reads hr hsource =>
      rename_i source
      refine ⟨dry, hdry, ?_, hpaths, ?_⟩
      · show List.Subperm (dry ++ request :: (located.filterMap Sum.getRight?).map Prod.fst) (request :: requests)
        exact (List.perm_middle.subperm).trans ((List.subperm_cons request).2 hperm)
      · intro x hx
        rcases List.mem_cons.1 (show x ∈ (request, source) :: located.filterMap Sum.getRight? from hx) with rfl | hx
        · exact ⟨List.mem_cons_self, hr, hsource⟩
        · exact hreads' x hx

/-- The groups of a batch hold what waits, each item once. -/
theorem perm_groups (located : List Located) : ((located.foldl addToGroup []).flatMap Prod.snd).Perm located ∧
    (Dict.keys (located.foldl addToGroup [])).Nodup := by
  suffices h : ∀ (groups : Dict Barcode (List Located)), (Dict.keys groups).Nodup →
      ((located.foldl addToGroup groups).flatMap Prod.snd).Perm (groups.flatMap Prod.snd ++ located) ∧
        (Dict.keys (located.foldl addToGroup groups)).Nodup from h [] List.nodup_nil
  induction located with
  | nil =>
    intro groups hn
    rw [List.append_nil]
    exact ⟨List.Perm.refl _, hn⟩
  | cons x located ih =>
    intro groups hn
    have hn' : (Dict.keys (addToGroup groups x)).Nodup := Dict.nodup_keys_set hn
    obtain ⟨hperm, hkeys⟩ := ih (addToGroup groups x) hn'
    refine ⟨hperm.trans ?_, hkeys⟩
    have hset := Dict.flatMap_set_perm hn x.2.2.barcode ((groups.get? x.2.2.barcode).getD [] ++ [x])
    rw [List.append_assoc, List.perm_append_left_iff] at hset
    rw [← List.singleton_append (l := located), ← List.append_assoc]
    exact (hset.trans List.perm_append_comm).append_right located

/-- Whatever happens to a batch whose requests are apart, every destination is as it should be, and what is reported is there. -/
theorem wp_runRestoreBatch (jobId : Nat) (l : TapeLocals) (hapart : w.Apart sha256 requests) (hs : Stands w w.files s) :
    wp (restoreCutMachine sha256) free (runRestoreBatch requests jobId)
      (fun result _ s' => (∀ request ∈ requests, w.Settled sha256 requests s'.files request) ∧
        w.ReportsOwn sha256 requests s'.files result.items)
      (fun _ _ s' => ∀ request ∈ requests, w.Settled sha256 requests s'.files request) l s := by
  have hbefore : ∀ {s'}, Stands w w.files s' → ∀ request ∈ requests, w.Settled sha256 requests s'.files request := by
    intro s' hs' request _
    rw [hs'.files]
    exact .inl rfl
  unfold runRestoreBatch setJobState
  rw [wp_bind]
  refine wp_quiet trivial hs (fun _ s₁ hs₁ _ => ?_) fun _ _ h => hbefore h
  rw [wp_bind]
  refine wp_mapEach _ requests (fun pre ys _ s => Stands w w.files s ∧ List.Forall₂ (LocatedAs w) pre ys) ⟨hs₁, .nil⟩ ?_ ?_
  · rintro pre ys request post l s - ⟨hs, hlocated⟩
    refine wp_mono (wp_locate hs) ?_ fun _ _ _ h => hbefore h
    rintro y _ s' ⟨-, hs', hy⟩
    exact ⟨hs', List.rel_append hlocated (.cons hy .nil)⟩
  rintro located l s ⟨hs, hlocated⟩
  obtain ⟨dry, hdry, hperm, hpaths, hreads⟩ := split_located hlocated
  obtain ⟨hgroups, -⟩ := perm_groups (located.filterMap Sum.getRight?)
  have hdrymem : ∀ request ∈ dry, request ∈ requests := fun request hrequest => hperm.subset (List.mem_append_left _ hrequest)
  have hsourced : ∀ g ∈ (located.filterMap Sum.getRight?).foldl addToGroup [], ∀ x ∈ g.2, Located.IsSourced w requests x := by
    intro g hg x hx
    exact hreads x (hgroups.subset (List.mem_flatMap.2 ⟨g, hg, hx⟩))
  have hkept : Kept sha256 w requests dry w.files :=
    ⟨fun request _ => .inl rfl, fun request hrequest => hapart.simulated request (hdrymem request hrequest) (hdry request hrequest).1
      (hdry request hrequest).2⟩
  dsimp only
  generalize hgroup : (located.filterMap Sum.getRight?).foldl addToGroup [] = groups at hgroups hsourced
  rw [wp_bind]
  refine wp_mapEach _ groups
    (fun pre done _ s => ∃ mine : List RestoreJobRequest, mine.Sublist ((pre.flatMap Prod.snd).map Prod.fst) ∧
      mine.map RestoreJobRequest.catalogPath = okPaths (done.flatMap Prod.fst) ∧ Now sha256 w requests (dry ++ mine) s)
    ⟨[], List.Sublist.refl _, rfl, by rw [List.append_nil]; exact hs.now hkept⟩ ?_ ?_
  · rintro pre done g post l s hsplit ⟨mine, hmine, hmpaths, hnow⟩
    have hg : g ∈ groups := by
      rw [hsplit]
      exact List.mem_append_right _ List.mem_cons_self
    have hmem : ∀ request ∈ dry ++ mine, request ∈ requests := by
      refine @mem_of_sublist w requests dry (pre.flatMap Prod.snd) hdrymem (fun x hx => ?_) mine hmine
      obtain ⟨g', hg', hx⟩ := List.mem_flatMap.1 hx
      exact hsourced g' (by rw [hsplit]; exact List.mem_append_left _ hg') x hx
    rw [wp_handle]
    refine wp_mono (wp_restoreTapeGroup hmem hapart (hsourced g hg) hnow) ?_ ?_
    · rintro answer _ s' ⟨-, more, hmore, hpaths', hnow'⟩
      refine ⟨mine ++ more, ?_, ?_, by rw [← List.append_assoc]; exact hnow'⟩
      · rw [List.flatMap_append, List.map_append]
        refine hmine.append ?_
        simpa using hmore
      · rw [List.map_append, hmpaths, hpaths', List.flatMap_append, okPaths_append]
        simp
    · rintro e _ s' ⟨-, served', hnow'⟩
      split
      · rw [wp_bind]
        exact wp_now trivial hnow' (fun _ _ h => h.kept.settled) fun _ _ h => h.kept.settled
      · exact hnow'.kept.settled
  rintro done l s ⟨mine, hmine, hmpaths, hnow⟩
  have hreport : ∀ {s' : RestoreWorld}, Now sha256 w requests (dry ++ mine) s' →
      w.ReportsOwn sha256 requests s'.files (located.filterMap Sum.getLeft? ++ done.flatMap Prod.fst) := by
    intro s' hnow'
    refine ⟨dry ++ mine, ?_, ?_, hnow'.kept.own⟩
    · exact ((List.subperm_append_left dry).2 (hmine.subperm.trans (hgroups.map _).subperm)).trans hperm
    · rw [List.map_append, hpaths, hmpaths]
      exact (okPaths_append _ _).symm
  split
  · rw [wp_bind]
    exact wp_now trivial hnow (fun _ _ h => ⟨h.kept.settled, hreport h⟩) fun _ _ h => h.kept.settled
  · rw [wp_bind]
    exact wp_now trivial hnow (fun _ _ h => ⟨h.kept.settled, hreport h⟩) fun _ _ h => h.kept.settled

end batch

/-! ### The names next to a destination -/

/-- A path with another name, which is no reference to a directory, is elsewhere. -/
theorem location_withName_ne {path target : PurePosixPath} {name : String} (h : path.withName name = some target) (hne : name ≠ path.name)
    (hempty : name ≠ "") (hdot : name ≠ ".") (hdots : name ≠ "..") : path.location ≠ target.location := by
  unfold PurePosixPath.withName at h
  split at h
  · cases h
  rename_i hname
  cases h
  have hparts : path.parts ≠ [] := by
    intro hnil
    refine hname ?_
    rw [PurePosixPath.name, hnil]
    rfl
  have hlast : path.name = path.parts.getLast hparts := by rw [PurePosixPath.name, List.getLast?_eq_some_getLast hparts, Option.getD_some]
  unfold PurePosixPath.location
  rw [← List.dropLast_append_getLast hparts, ← hlast]
  simp only [List.foldl_append, List.foldl_cons, List.foldl_nil, List.dropLast_concat]
  generalize path.parts.dropLast.foldl (normpathStep true) [] = comps
  have htarget : normpathStep true comps name = comps ++ [name] := by
    unfold normpathStep
    rw [if_neg (by simp [hempty, hdot]), if_pos (.inl hdots)]
  rw [htarget]
  unfold normpathStep
  intro heq
  split at heq
  · exact absurd (congrArg List.length heq) (by simp)
  split at heq
  · exact hne (by simpa using heq.symm)
  · have hlen := congrArg List.length heq
    simp only [List.length_dropLast, List.length_append, List.length_singleton] at hlen
    omega

theorem length_ne {a b : String} (h : a.length ≠ b.length) : a ≠ b := fun heq => h (congrArg String.length heq)

theorem stagedPaths_apart {request : RestoreJobRequest} {path : PurePosixPath} (h : path ∈ w.stagedPaths request) :
    (w.destOf request).location ≠ path.location := by
  obtain ⟨name, hname, hpath⟩ := List.mem_filterMap.1 h
  have hrestoring : (".restoring" : String).length = 10 := by decide
  have hquarantine : (".quarantine" : String).length = 11 := by decide
  have hone : ("." : String).length = 1 := by decide
  have htwo : (".." : String).length = 2 := by decide
  have hnone : ("" : String).length = 0 := by decide
  have hlength : (w.destOf request).name.length + 11 ≤ name.length := by
    rcases List.mem_cons.1 hname with rfl | hname
    · simp only [String.length_append]
      omega
    · obtain rfl := List.mem_singleton.1 hname
      simp only [String.length_append]
      omega
  exact location_withName_ne hpath (length_ne (by omega)) (length_ne (by omega)) (length_ne (by omega)) (length_ne (by omega))

/-! ### A single job whose read breaks off -/

/-- Reads break off, and leave `data`. -/
def brokenReads (data : Bytes) : RestoreOp → Nat → CutChoice
  | .readFile _ _, _ => { choice := { fails := some (osFailure "No space left on device") }, cut := some data }
  | _, _ => {}

/-- What a job with troubles can do, a job can do. -/
theorem run_troubled (trouble : RestoreOp → Nat → CutChoice) {α : Type} {cs : List Unit}
    {p : Prog RestoreOp (fun o => Except Exn o.Ans) α} {s s' : RestoreWorld × List RestoreOp} {a : α}
    (h : (troubledMachine sha256 trouble).run cs p s = (.ret a, s')) : ∃ cs', (restoreCutMachine sha256).run cs' p s.1 = (.ret a, s'.1) := by
  obtain ⟨cs', hcs'⟩ := Machine.run_projects (troubledMachine sha256 trouble) (restoreCutMachine sha256) Prod.fst
    (fun s o _ => ⟨trouble o.unplaced (s.2.count o.unplaced), rfl⟩) cs p s
  rw [h] at hcs'
  exact ⟨cs', hcs'⟩

section broken

variable {data : Bytes} {σ : RestoreWorld × List RestoreOp} {request : RestoreJobRequest} {jobId : Nat}

def HasJob (jobId : Nat) (s : RestoreWorld) : Prop := (s.jobs.any fun job => job.id = jobId) = true

/-- A step that is no read is answered. -/
theorem can_unbroken {o : RestoreOp} {a : o.Ans} {v : RestoreWorld} {N : o.Ans → TapeLocals → RestoreWorld × List RestoreOp → Prop}
    {E : Exn → TapeLocals → RestoreWorld × List RestoreOp → Prop} (ho : IsQuiet o) (h : σ.1.perform sha256 {} o = (.ok a, v))
    (hN : ∀ done, N a l (v, done)) : can (troubledMachine sha256 (brokenReads data)) (perform o) N E l σ := by
  refine can_perform () ?_ (hN (o.unplaced :: σ.2))
  have hexec : σ.1.execCut sha256 o (brokenReads data o.unplaced (σ.2.count o.unplaced)) = (.ok a, v) := by
    cases o with
    | readFile | rename | unlink => exact ho.elim
    | _ => exact h
  have hanswer := congrArg Prod.fst hexec
  have hworld := congrArg Prod.snd hexec
  exact Prod.ext hanswer (Prod.ext hworld rfl)

theorem can_jobState {state : String} {error : Option String} {N : Unit → TapeLocals → RestoreWorld × List RestoreOp → Prop}
    {E : Exn → TapeLocals → RestoreWorld × List RestoreOp → Prop} (hjob : HasJob jobId σ.1) (hs : Stands w files σ.1)
    (hN : ∀ σ' : RestoreWorld × List RestoreOp, Stands w files σ'.1 → N () l σ') :
    can (troubledMachine sha256 (brokenReads data)) (setJobState jobId state error) N E l σ := by
  obtain ⟨hcatalog, hdirs, rfl⟩ := hs
  have hexec : σ.1.perform sha256 {} (.updateJobState jobId state error) =
      (.ok (), { σ.1 with jobs := σ.1.jobs.map fun job => if job.id = jobId then { job with state := state, error := error } else job }) :=
    if_pos hjob
  refine can_unbroken trivial hexec fun done => hN _ ?_
  exact ⟨hcatalog, hdirs, rfl⟩

/-- A job that reads a tape can leave anything at its destination. -/
theorem can_runRestoreJob (sha256 : Bytes → String) (data : Bytes) (l : TapeLocals) (hjob : HasJob jobId w) (hreads : w.ReadsTape request) :
    can (troubledMachine sha256 (brokenReads data)) (runRestoreJob request jobId) (fun _ _ _ => False)
      (fun _ _ σ' => σ'.1.files = w.files.set (w.destOf request).location data) l (w, []) := by
  obtain ⟨hdry, hsome⟩ := hreads
  obtain ⟨⟨record, row⟩, hsource⟩ := Option.isSome_iff_exists.1 hsome
  have hlatest : w.catalog.getLatestInstanceForPath request.catalogPath = .ok (record, row) ∧
      (w.catalog.getCartridge row.barcode).map Cartridge.state ≠ some "exported" := by
    unfold RestoreWorld.sourceOf at hsource
    split at hsource
    · cases hsource
    · rename_i record' row' hlatest
      split at hsource
      · cases hsource
      · rename_i hexported
        cases hsource
        exact ⟨hlatest, hexported⟩
  unfold runRestoreJob
  refine can_scope (can_bind (can_jobState hjob ⟨rfl, rfl, rfl⟩ ?_))
  rintro ⟨s, done⟩ ⟨hcatalog, hdirs, hfiles⟩
  dsimp only at hcatalog hdirs hfiles
  have hfound : s.perform sha256 {} (.latestInstance request.catalogPath) = (.ok (record, row), s) := by
    show (s.catalog.getLatestInstanceForPath request.catalogPath, s) = _
    rw [hcatalog, hlatest.1]
  refine can_bind (can_unbroken trivial hfound fun done => ?_)
  refine can_bind (can_unbroken (v := s) trivial rfl fun done => ?_)
  dsimp only
  rw [hcatalog, if_neg hlatest.2, if_neg (by simp [hdry])]
  refine can_bind (can_unbroken (v := s) trivial rfl fun done => ?_)
  have hdest : ∀ {done : List RestoreOp} {N : PurePosixPath → TapeLocals → RestoreWorld × List RestoreOp → Prop}
      {E : Exn → TapeLocals → RestoreWorld × List RestoreOp → Prop} {l : TapeLocals}, (∀ done, N (w.destOf request) l (s, done)) →
      can (troubledMachine sha256 (brokenReads data)) (batchDest request) N E l (s, done) := by
    intro done N E l hN
    refine can_bind (can_unbroken (v := s) trivial rfl fun done => ?_)
    have hN' := hN done
    simp only [RestoreWorld.destOf, ← hdirs] at hN'
    by_cases hdir : request.destPath.location ∈ s.dirs
    · rw [if_pos hdir] at hN'
      rw [if_pos (decide_eq_true hdir)]
      exact hN'
    · rw [if_neg hdir] at hN'
      rw [if_neg (by simpa using hdir)]
      exact hN'
  refine can_bind (hdest fun done => ?_)
  refine can_bind (can_ensure (can_handle (can_ensure (can_handle (can_bind ?_)))))
  refine can_unbroken (v := s) trivial rfl fun done => ?_
  refine can_bind (can_assign (can_bind ?_))
  refine can_unbroken (v := s) trivial rfl fun done => ?_
  refine can_bind (can_unbroken (v := s) trivial rfl fun done => ?_)
  refine can_ensure (can_fail () rfl ?_)
  refine can_bind (can_unbroken trivial rfl fun done => ?_)
  refine can_unbroken trivial rfl fun done => ?_
  -- no lease was lost: the cartridge is unloaded and the drive released
  show can _ (noteFenced _) _ _ _ _
  refine can_raise (can_bind (can_locals ?_))
  refine can_bind (can_handle (can_unbroken trivial rfl fun done => ?_))
  refine can_unbroken trivial rfl fun done => ?_
  refine can_raise (can_unbroken trivial rfl fun done => ?_)
  show s.files.set _ _ = _
  rw [hfiles]

end broken

/-! ### Content that is nobody's -/

section fresh

variable {requests : List RestoreJobRequest} {request : RestoreJobRequest} {data : Bytes} {files' : Dict Location Bytes} {jobId : Nat}

/-- Content that is in no file of the requests, and was not at the destination. -/
def Foreign (sha256 : Bytes → String) (w : RestoreWorld) (requests : List RestoreJobRequest) (request : RestoreJobRequest) (data : Bytes) :
    Prop :=
  (∀ other ∈ requests, ∀ source, w.sourceOf other = some source → sha256 data ≠ source.1.checksumSha256) ∧
    w.files.get? (w.destOf request).location ≠ some data

theorem exists_foreign (requests : List RestoreJobRequest)
    (hsha : ∀ known : List String, known.length ≤ requests.length + 1 → ∃ data, sha256 data ∉ known)
    (w : RestoreWorld) (request : RestoreJobRequest) : ∃ data, Foreign sha256 w requests request data := by
  obtain ⟨data, hdata⟩ := hsha
    (requests.filterMap (fun other => (w.sourceOf other).map fun source => source.1.checksumSha256) ++
      ((w.files.get? (w.destOf request).location).map sha256).toList) (by
    have hone := List.length_filterMap_le (fun other => (w.sourceOf other).map fun source => source.1.checksumSha256) requests
    rw [List.length_append]
    cases w.files.get? (w.destOf request).location <;> simp <;> omega)
  refine ⟨data, fun other hother source hsource heq => hdata (List.mem_append_left _ ?_), fun hbefore => hdata (List.mem_append_right _ ?_)⟩
  · exact List.mem_filterMap.2 ⟨other, hother, by rw [hsource, heq]; rfl⟩
  · rw [hbefore]
    exact List.mem_singleton.2 rfl

theorem Foreign.not_settled (h : Foreign sha256 w requests request data)
    (hfiles : files'.get? (w.destOf request).location = some data) : ¬w.Settled sha256 requests files' request := by
  rintro (hbefore | ⟨other, hother, hdest, record, row, stored, hsource, hstored, hsum⟩)
  · exact h.2 (hbefore.symm.trans hfiles)
  · rw [hdest, hfiles] at hstored
    cases hstored
    exact h.1 other hother _ hsource hsum

/-- A single job settles its destination, whatever happens, exactly where it reads no tape. -/
theorem single_iff (hsha : ∀ known : List String, known.length ≤ 2 → ∃ data, sha256 data ∉ known) (hjob : HasJob jobId w) :
    (∀ cs a l s, (restoreCutMachine sha256).run cs (runRestoreJob request jobId {}) w = (.ret (a, l), s) →
      w.Settled sha256 [request] s.files request) ↔ ¬w.ReadsTape request := by
  constructor
  · intro hlaw hreads
    obtain ⟨data, hforeign⟩ := exists_foreign [request] hsha w request
    obtain ⟨cs, ⟨a, l⟩, σ, hrun, hend⟩ := Prog.ends_of_can (can_runRestoreJob sha256 data {} hjob hreads)
    obtain ⟨cs', hrun'⟩ := run_troubled _ hrun
    refine hforeign.not_settled ?_ (hlaw cs' a l σ.1 hrun')
    cases a with
    | ok a => exact hend.elim
    | error e =>
      have hfiles : σ.1.files = w.files.set (w.destOf request).location data := hend
      rw [hfiles, Dict.get?_set, if_pos rfl]
  · intro hquiet cs a l s hrun
    have hend := (run_of_wp (wp_runRestoreJob_quiet sha256 jobId {} hquiet ⟨rfl, rfl, rfl⟩) cs
      fun _ _ => trivial).2 (a, l) s hrun
    cases a with
    | ok a => exact .inl (by rw [Stands.files hend])
    | error e => exact .inl (by rw [Stands.files hend])

theorem settled_of_batch (hapart : w.Apart sha256 requests) {cs : List CutChoice} {a : Except Exn RestoreBatchResult} {l : TapeLocals}
    {s : RestoreWorld} (hrun : (restoreCutMachine sha256).run cs (runRestoreBatch requests jobId {}) w = (.ret (a, l), s)) :
    (∀ request ∈ requests, w.Settled sha256 requests s.files request) ∧
      ∀ result, a = .ok result → w.ReportsOwn sha256 requests s.files result.items := by
  have hend := (run_of_wp (wp_runRestoreBatch jobId {} hapart ⟨rfl, rfl, rfl⟩) cs
    fun _ _ => trivial).2 (a, l) s hrun
  cases a with
  | ok result =>
    refine ⟨And.left hend, ?_⟩
    rintro _ ⟨⟩
    exact And.right hend
  | error e => exact ⟨hend, nofun⟩

theorem apart_single (hreads : w.ReadsTape request) : w.Apart sha256 [request] := by
  constructor
  · intro reader hreader _ path hpath other hother
    obtain rfl := List.mem_singleton.1 hreader
    obtain rfl := List.mem_singleton.1 hother
    exact stagedPaths_apart hpath
  · intro reader hreader _ other hother _ source found hsource hfound _ _
    obtain rfl := List.mem_singleton.1 hreader
    obtain rfl := List.mem_singleton.1 hother
    obtain rfl : source = found := Option.some.inj (hsource.symm.trans hfound)
    rfl
  · intro other hother hdry
    obtain rfl := List.mem_singleton.1 hother
    exact absurd (hreads.1.symm.trans hdry) (by simp)

/-- Where a request reads no tape, a batch of it changes no file either. -/
theorem files_of_quiet_batch (hquiet : ¬w.ReadsTape request) {cs : List CutChoice} {a : Except Exn RestoreBatchResult} {l : TapeLocals}
    {s : RestoreWorld} (hrun : (restoreCutMachine sha256).run cs (runRestoreBatch [request] jobId {}) w = (.ret (a, l), s)) :
    s.files = w.files := by
  have hwp : wp (restoreCutMachine sha256) free (runRestoreBatch [request] jobId) (fun _ _ s' => Stands w w.files s')
      (fun _ _ s' => Stands w w.files s') {} w := by
    unfold runRestoreBatch
    rw [setJobState, wp_bind]
    refine wp_quiet trivial ⟨rfl, rfl, rfl⟩ (fun _ s₁ hs₁ _ => ?_) fun _ _ h => h
    rw [wp_bind, mapEach, wp_bind]
    refine wp_mono (wp_locate hs₁) ?_ fun _ _ _ h => h
    rintro y l' s₂ ⟨-, hs₂, hy⟩
    rw [mapEach, wp_bind, wp_pure, wp_pure]
    have hnone : ([y].filterMap Sum.getRight?).foldl addToGroup [] = [] := by
      cases hy with
      | refused error => rfl
      | simulated hdry hsource => rfl
      | reads hreads hsource => exact absurd hreads hquiet
    dsimp only
    rw [hnone, mapEach, wp_bind, wp_pure]
    unfold setJobState
    split
    · rw [wp_bind]
      exact wp_quiet trivial hs₂ (fun _ _ h _ => h) fun _ _ h => h
    · rw [wp_bind]
      exact wp_quiet trivial hs₂ (fun _ _ h _ => h) fun _ _ h => h
  have hend := (run_of_wp hwp cs fun _ _ => trivial).2 (a, l) s hrun
  cases a with
  | ok a => exact Stands.files hend
  | error e => exact Stands.files hend

/-- The two runners leave a destination alike after every trouble exactly where they read no tape. -/
theorem agree_iff (hsha : ∀ known : List String, known.length ≤ 2 → ∃ data, sha256 data ∉ known) (hjob : HasJob jobId w) :
    RestoresAgree sha256 w request jobId ↔ ¬w.ReadsTape request := by
  constructor
  · intro hagree hreads
    obtain ⟨data, hforeign⟩ := exists_foreign [request] hsha w request
    obtain ⟨cs, ⟨a, l⟩, σ, hrun, hend⟩ := Prog.ends_of_can (can_runRestoreJob sha256 data {} hjob hreads)
    obtain ⟨cs', ⟨a', l'⟩, σ', hrun', -⟩ := Prog.ends_of_can
      (Prog.can_true (M := troubledMachine sha256 (brokenReads data)) (runRestoreBatch [request] jobId {}) (w, []))
    obtain ⟨hbefore, hown⟩ := hagree _ _ _ _ _ _ _ _ _ hrun hrun'
    obtain ⟨cs'', hbatch⟩ := run_troubled _ hrun'
    have hsettled := (settled_of_batch (apart_single hreads) hbatch).1 request (List.mem_singleton.2 rfl)
    have hnot : σ.1.files.get? (w.destOf request).location = some data → ¬w.Settled sha256 [request] σ.1.files request :=
      hforeign.not_settled
    refine hnot ?_ ?_
    · cases a with
      | ok a => exact hend.elim
      | error e =>
        have hfiles : σ.1.files = w.files.set (w.destOf request).location data := hend
        rw [hfiles, Dict.get?_set, if_pos rfl]
    · rcases hsettled with hsame | ⟨other, hother, -, hholds⟩
      · exact .inl (hbefore.2 hsame)
      · obtain rfl := List.mem_singleton.1 hother
        exact .inr ⟨other, hother, rfl, hown.2 hholds⟩
  · intro hquiet trouble cs cs' a l s a' l' s' hrun hrun'
    obtain ⟨cs₁, hrun₁⟩ := run_troubled _ hrun
    obtain ⟨cs₂, hrun₂⟩ := run_troubled _ hrun'
    have hfiles : s.1.files = w.files := by
      have hend := (run_of_wp (wp_runRestoreJob_quiet sha256 jobId {} hquiet ⟨rfl, rfl, rfl⟩) cs₁
        fun _ _ => trivial).2 (a, l) s.1 hrun₁
      cases a with
      | ok a => exact Stands.files hend
      | error e => exact Stands.files hend
    rw [hfiles, files_of_quiet_batch hquiet hrun₂]
    exact ⟨Iff.rfl, Iff.rfl⟩

end fresh

end VisibilityAux

end OpenBlade
