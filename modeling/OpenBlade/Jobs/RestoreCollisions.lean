import OpenBlade.Jobs.RestoreVisibility

/-!
# Requests that come between one another

Where the requests of a batch are not apart, some run of the batch leaves a destination with what belongs nowhere, or reports a file
that is not there.
-/

namespace OpenBlade

open Effects Proc

namespace VisibilityAux

variable {sha256 : Bytes → String} {w s : RestoreWorld} {l : TapeLocals} {request : RestoreJobRequest} {jobId : Nat}

/-! ### Steps that can be made -/

theorem can_does {o : RestoreOp} {a : o.Ans} {v : RestoreWorld} {N : o.Ans → TapeLocals → RestoreWorld → Prop}
    {E : Exn → TapeLocals → RestoreWorld → Prop} (c : RestoreChoice) (hc : c.fails = none) (h : s.perform sha256 c o = (.ok a, v))
    (hN : N a l v) : can (restoreCutMachine sha256) (perform o) N E l s := by
  refine can_perform { choice := c } ?_ hN
  obtain ⟨fails, bytes, fromSlot⟩ := c
  cases hc
  cases o <;> exact h

theorem can_refuses {o : RestoreOp} {N : o.Ans → TapeLocals → RestoreWorld → Prop} {E : Exn → TapeLocals → RestoreWorld → Prop} (e : Exn)
    (hE : E e l s) : can (restoreCutMachine sha256) (perform o) N E l s :=
  can_fail { choice := { fails := some e } } (by cases o <;> rfl) hE

/-- The state of jobs and catalog that a batch needs. -/
structure Ready (w : RestoreWorld) (jobId : Nat) (s : RestoreWorld) : Prop where
  catalog : s.catalog = w.catalog
  dirs : s.dirs = w.dirs
  hasJob : HasJob jobId s

theorem Ready.withFiles (h : Ready w jobId s) (files : Dict Location Bytes) : Ready w jobId { s with files := files } :=
  ⟨h.catalog, h.dirs, h.hasJob⟩

theorem can_setJobState {state : String} {error : Option String} {N : Unit → TapeLocals → RestoreWorld → Prop}
    {E : Exn → TapeLocals → RestoreWorld → Prop} (hs : Ready w jobId s) (hN : ∀ s', Ready w jobId s' → s'.files = s.files → N () l s') :
    can (restoreCutMachine sha256) (setJobState jobId state error) N E l s := by
  have hexec : s.perform sha256 {} (.updateJobState jobId state error) =
      (.ok (), { s with jobs := s.jobs.map fun job => if job.id = jobId then { job with state := state, error := error } else job }) :=
    if_pos hs.hasJob
  refine can_does {} rfl hexec (hN _ ⟨hs.catalog, hs.dirs, ?_⟩ rfl)
  have hjob := hs.hasJob
  unfold HasJob at hjob ⊢
  obtain ⟨job, hmem, hid⟩ := List.any_eq_true.1 hjob
  refine List.any_eq_true.2 ⟨_, List.mem_map.2 ⟨job, hmem, rfl⟩, ?_⟩
  rw [if_pos (of_decide_eq_true hid)]
  exact hid

theorem can_batchDest {N : PurePosixPath → TapeLocals → RestoreWorld → Prop} {E : Exn → TapeLocals → RestoreWorld → Prop}
    (hdirs : s.dirs = w.dirs) (hN : N (w.destOf request) l s) : can (restoreCutMachine sha256) (batchDest request) N E l s := by
  unfold batchDest
  refine can_bind (can_does {} rfl (v := s) rfl ?_)
  simp only [RestoreWorld.destOf, ← hdirs] at hN
  by_cases hdir : request.destPath.location ∈ s.dirs
  · rw [if_pos hdir] at hN
    rw [if_pos (decide_eq_true hdir)]
    exact hN
  · rw [if_neg hdir] at hN
    rw [if_neg (by simpa using hdir)]
    exact hN

/-! ### Where requests go when nothing fails -/

/-- What is settled of a request when nothing fails. -/
def natural (w : RestoreWorld) (request : RestoreJobRequest) : RestoreItemResult ⊕ Located :=
  match w.catalog.getLatestInstanceForPath request.catalogPath with
  | .error _ => .inl { catalogPath := request.catalogPath, ok := false, error := some ("No archived instance for " ++ request.catalogPath) }
  | .ok (record, row) =>
    if (w.catalog.getCartridge row.barcode).map Cartridge.state = some "exported" then
      .inl { catalogPath := request.catalogPath, ok := false, error := some ("Cartridge " ++ row.barcode ++ " is offline") }
    else if request.dryRun then .inl { catalogPath := request.catalogPath, ok := true }
    else .inr (request, record, row)

theorem natural_of_none (h : w.sourceOf request = none) :
    ∃ error, natural w request = .inl { catalogPath := request.catalogPath, ok := false, error := error } := by
  unfold RestoreWorld.sourceOf at h
  unfold natural
  cases hlatest : w.catalog.getLatestInstanceForPath request.catalogPath with
  | error e => exact ⟨_, rfl⟩
  | ok found =>
    obtain ⟨record, row⟩ := found
    rw [hlatest] at h
    dsimp only at h ⊢
    split at h
    · rename_i hexported
      rw [if_pos hexported]
      exact ⟨_, rfl⟩
    · cases h

theorem natural_of_some {source : FileRecord × FileInstance} (h : w.sourceOf request = some source) :
    natural w request =
      if request.dryRun then .inl { catalogPath := request.catalogPath, ok := true } else .inr (request, source) := by
  unfold RestoreWorld.sourceOf at h
  unfold natural
  cases hlatest : w.catalog.getLatestInstanceForPath request.catalogPath with
  | error e =>
    rw [hlatest] at h
    cases h
  | ok found =>
    obtain ⟨record, row⟩ := found
    rw [hlatest] at h
    dsimp only at h ⊢
    split at h
    · cases h
    · rename_i hexported
      cases h
      exact if_neg hexported

theorem natural_reads {source : FileRecord × FileInstance} (hreads : w.ReadsTape request) (h : w.sourceOf request = some source) :
    natural w request = .inr (request, source) := by
  rw [natural_of_some h, if_neg (by simp [hreads.1])]

theorem locatedAs_natural (w : RestoreWorld) (request : RestoreJobRequest) : LocatedAs w request (natural w request) := by
  cases hsource : w.sourceOf request with
  | none =>
    obtain ⟨error, h⟩ := natural_of_none hsource
    rw [h]
    exact .refused error
  | some source =>
    have hsome : (w.sourceOf request).isSome = true := by rw [hsource]; rfl
    rw [natural_of_some hsource]
    split
    · rename_i hdry
      exact .simulated hdry hsome
    · rename_i hdry
      exact .reads ⟨by simpa using hdry, hsome⟩ hsource

theorem can_locate {N : RestoreItemResult ⊕ Located → TapeLocals → RestoreWorld → Prop} {E : Exn → TapeLocals → RestoreWorld → Prop}
    (hcatalog : s.catalog = w.catalog) (hN : N (natural w request) l s) : can (restoreCutMachine sha256) (locate request) N E l s := by
  unfold locate natural at *
  rw [← hcatalog] at hN
  have hexec : s.perform sha256 {} (.latestInstance request.catalogPath) =
      (s.catalog.getLatestInstanceForPath request.catalogPath, s) := rfl
  cases hlatest : s.catalog.getLatestInstanceForPath request.catalogPath with
  | error e =>
    rw [hlatest] at hN
    have hcls : e.cls = .fileNotFound := by
      unfold Catalog.getLatestInstanceForPath at hlatest
      split at hlatest
      · cases hlatest
        rfl
      · split at hlatest
        · cases hlatest
          rfl
        · cases hlatest
    refine can_bind (can_handle (can_bind (can_refuses e ?_)))
    rw [if_pos hcls]
    exact hN
  | ok found =>
    obtain ⟨record, row⟩ := found
    rw [hlatest] at hN hexec
    refine can_bind (can_handle (can_bind (can_does {} rfl hexec (can_pure ?_))))
    dsimp only at hN ⊢
    refine can_bind (can_does {} rfl (v := s) rfl ?_)
    split
    · rename_i hexported
      rw [if_pos hexported] at hN
      exact hN
    · rename_i hexported
      rw [if_neg hexported] at hN
      split
      · rename_i hdry
        rw [if_pos hdry] at hN
        exact hN
      · rename_i hdry
        rw [if_neg hdry] at hN
        exact hN

/-! ### A batch that gives up where a file is staged -/

section abandon

variable {x : Located} {loc : Location} {data : Bytes}

/-- An exception that is no lost lease. -/
def diskFull : Exn := osFailure "No space left on device"

def lostLease : Exn := { cls := .staleLease, message := "lease lost" }

/-- A file that cannot be read is passed over. -/
theorem can_pass (hs : Ready w jobId s) (hnamed : (w.destOf x.1).name ≠ "")
    {N : RestoreItemResult → TapeLocals → RestoreWorld → Prop} {E : Exn → TapeLocals → RestoreWorld → Prop}
    (hN : ∀ result files, result.catalogPath = x.1.catalogPath → result.ok = false →
      (∀ loc, (∀ path ∈ w.stagedPaths x.1, loc ≠ path.location) → files.get? loc = s.files.get? loc) →
      N result l { s with files := files }) :
    can (restoreCutMachine sha256) (restoreOneVerified x) N E l s := by
  obtain ⟨request, record, row⟩ := x
  obtain ⟨temp, htemp⟩ : ∃ temp, (w.destOf request).withName ("." ++ (w.destOf request).name ++ ".restoring") = some temp :=
    ⟨_, if_neg hnamed⟩
  have hstaged : temp ∈ w.stagedPaths request := List.mem_filterMap.2 ⟨_, List.mem_cons_self, htemp⟩
  refine can_bind (can_batchDest hs.dirs (can_bind ?_))
  rw [withName, htemp]
  refine can_pure (can_bind (can_handle (can_bind (can_refuses diskFull ?_))))
  refine can_bind (can_does {} rfl rfl (can_pure (can_pure ?_)))
  refine hN _ _ rfl rfl fun loc hloc => ?_
  rw [Dict.get?_erase, if_neg fun heq => hloc temp hstaged heq.symm]

/-- A file can come to lie where its request is staged, and the batch give up. -/
theorem can_leave_staged (hs : Ready w jobId s) (hnamed : (w.destOf x.1).name ≠ "") (hdata : sha256 data ≠ x.2.1.checksumSha256)
    {path : PurePosixPath} (hpath : path ∈ w.stagedPaths x.1) {N : RestoreItemResult → TapeLocals → RestoreWorld → Prop}
    {E : Exn → TapeLocals → RestoreWorld → Prop}
    (hN : ∀ result files, files.get? path.location = some data → N result l { s with files := files })
    (hE : ∀ files, files.get? path.location = some data → E diskFull l { s with files := files }) :
    can (restoreCutMachine sha256) (restoreOneVerified x) N E l s := by
  obtain ⟨request, record, row⟩ := x
  obtain ⟨temp, htemp⟩ : ∃ temp, (w.destOf request).withName ("." ++ (w.destOf request).name ++ ".restoring") = some temp :=
    ⟨_, if_neg hnamed⟩
  obtain ⟨name, hname, hpath⟩ := List.mem_filterMap.1 hpath
  have hset : (s.files.set temp.location data).get? temp.location = some data := by rw [Dict.get?_set, if_pos rfl]
  refine can_bind (can_batchDest hs.dirs (can_bind ?_))
  rw [withName, htemp]
  refine can_pure (can_bind (can_handle (can_bind (can_does { bytes := data } rfl rfl (can_pure (can_bind ?_))))))
  rcases List.mem_cons.1 hname with rfl | hname
  · -- it is where the file is read to: it cannot be read back
    obtain rfl : temp = path := Option.some.inj (htemp.symm.trans hpath)
    exact can_refuses diskFull (hE _ hset)
  · -- it is where the file goes that is not verified
    obtain rfl := List.mem_singleton.1 hname
    have hsum : ({ s with files := s.files.set temp.location data } : RestoreWorld).perform sha256 {} (.sha256sum temp) =
        (.ok (sha256 data), { s with files := s.files.set temp.location data }) := by
      simp only [RestoreWorld.perform, RestoreWorld.file?, hset]
    have hrename : ({ s with files := s.files.set temp.location data } : RestoreWorld).perform sha256 {} (.rename temp path) =
        (.ok (), { s with files := ((s.files.set temp.location data).erase temp.location).set path.location data }) := by
      simp only [RestoreWorld.perform, RestoreWorld.file?, hset]
    refine can_does {} rfl hsum ?_
    rw [if_pos hdata]
    refine can_bind ?_
    rw [withName, hpath]
    refine can_pure (can_bind (can_does {} rfl hrename (can_pure ?_)))
    exact hN _ _ (by rw [Dict.get?_set, if_pos rfl])

/-- The tape of a file that is left so. -/
theorem can_abandon_group {barcode : Barcode} {group : List Located} (hx : x ∈ group) (hs : Ready w jobId s)
    (hnamed : ∀ y ∈ group, (w.destOf y.1).name ≠ "") (hdata : sha256 data ≠ x.2.1.checksumSha256) {path : PurePosixPath}
    (hpath : path ∈ w.stagedPaths x.1) :
    can (restoreCutMachine sha256) (restoreTapeGroup barcode group) (fun _ _ _ => False)
      (fun e _ s' => isStaleLease e = true ∧ s'.files.get? path.location = some data) l s := by
  obtain ⟨pre, post, rfl⟩ := List.append_of_mem hx
  let unmounting : RestoreM Unit := do
    step (.verifyLease barcode)
    handle (step (.unmount barcode)) fun _ =>
      assign fun l =>
        { l with unmountFailed := true, tapeError := some ("Unmount of " ++ barcode ++ " failed; left in drive for reconcile") }
  -- however the files end, the lease is then lost
  have hlost : ∀ {l' : TapeLocals} {s' : RestoreWorld} {N : Unit → TapeLocals → RestoreWorld → Prop}, s'.files.get? path.location = some data →
      can (restoreCutMachine sha256) unmounting N (fun e _ s' => e = lostLease ∧ s'.files.get? path.location = some data) l' s' :=
    fun hfile => can_bind (can_refuses lostLease ⟨rfl, hfile⟩)
  have hreading : ∀ l', can (restoreCutMachine sha256)
      (ensure
        (forEach (fun x => do
          let result ← restoreOneVerified x
          assign fun l => { l with results := l.results ++ [result] }) (pre ++ x :: post))
        fun _ => unmounting)
      (fun _ _ _ => False) (fun e _ s' => e = lostLease ∧ s'.files.get? path.location = some data) l' s := by
    intro l'
    refine can_ensure (can_leave_forEach (I := fun _ s' => Ready w jobId s') hs (fun y hy l' s' hs' => ?_) fun l' s' hs' => ?_)
    · refine can_bind (can_pass hs' (hnamed y (List.mem_append_left _ hy)) fun result files _ _ _ => can_assign ?_)
      exact hs'.withFiles files
    · refine can_bind (can_leave_staged hs' (hnamed x (List.mem_append_right _ List.mem_cons_self)) hdata hpath
        (fun result files hfile => can_assign ?_) fun files hfile => hlost hfile)
      -- the files behind it are not tried
      cases post with
      | nil => exact can_pure (hlost hfile)
      | cons y post => exact can_bind (can_bind (can_bind (can_bind (can_refuses diskFull (hlost hfile)))))
  refine can_scope (can_bind (can_does {} rfl rfl (can_bind (can_ensure (can_ensure (can_handle (can_bind ?_)))))))
  refine can_does {} rfl rfl (can_bind (can_assign (can_bind (can_does {} rfl rfl (can_bind (can_does {} rfl rfl ?_))))))
  refine can_mono (hreading _) (fun _ _ _ h => h.elim) ?_
  rintro _ l' s' ⟨rfl, hfile⟩
  show can _ (noteFenced lostLease) _ _ _ _
  refine can_bind (can_assign (can_raise (can_bind (can_locals ?_))))
  rw [if_pos (.inl rfl)]
  exact can_pure (can_does {} rfl rfl ⟨rfl, hfile⟩)

/-- A tape that cannot be loaded is passed over. -/
theorem can_pass_group {barcode : Barcode} {group : List Located} {N : List RestoreItemResult × Option String → TapeLocals → RestoreWorld → Prop}
    {E : Exn → TapeLocals → RestoreWorld → Prop} (hN : ∀ done, N done l s) :
    can (restoreCutMachine sha256) (restoreTapeGroup barcode group) N E l s := by
  refine can_scope (can_bind (can_does {} rfl rfl (can_bind (can_ensure (can_ensure (can_handle (can_bind ?_)))))))
  refine can_refuses diskFull ?_
  show can _ (assign _) _ _ _ _
  refine can_assign (can_bind (can_locals ?_))
  rw [if_pos (.inr (.inr rfl))]
  exact can_pure (can_does {} rfl rfl (can_bind (can_locals (can_pure (hN _)))))

variable {requests : List RestoreJobRequest} {reader : RestoreJobRequest}

/-- The start of a batch. -/
theorem can_start {N : RestoreBatchResult → TapeLocals → RestoreWorld → Prop} {E : Exn → TapeLocals → RestoreWorld → Prop}
    (hs : Ready w jobId s)
    (hN : ∀ s', Ready w jobId s' → s'.files = s.files →
      can (restoreCutMachine sha256)
        (do
          let done ← mapEach
            (fun g => handle (restoreTapeGroup g.1 g.2) fun e =>
              if isStaleLease e then do
                setJobState jobId "failed" (some (safeJobError e))
                raise e
              else raise e)
            (((requests.map (natural w)).filterMap Sum.getRight?).foldl addToGroup [])
          let result : RestoreBatchResult :=
            { jobId := jobId
              items := (requests.map (natural w)).filterMap Sum.getLeft? ++ done.flatMap Prod.fst
              tapeErrors := done.filterMap Prod.snd }
          if result.allOk then setJobState jobId "completed" none else setJobState jobId "failed" (some (batchDetail result))
          pure result)
        N E l s') :
    can (restoreCutMachine sha256) (runRestoreBatch requests jobId) N E l s := by
  refine can_bind (can_setJobState hs fun s₁ hs₁ hfiles => can_bind ?_)
  refine can_mapEach (I := fun pre ys l' s' => ys = pre.map (natural w) ∧ l' = l ∧ s' = s₁) ⟨rfl, rfl, rfl⟩ ?_ ?_
  · rintro pre ys request post l' s' - ⟨rfl, rfl, rfl⟩
    refine can_locate hs₁.catalog ⟨?_, rfl, rfl⟩
    rw [List.map_append]
    rfl
  · rintro ys l' s' ⟨rfl, rfl, rfl⟩
    exact hN _ hs₁ hfiles

theorem forall₂_natural (requests : List RestoreJobRequest) : List.Forall₂ (LocatedAs w) requests (requests.map (natural w)) := by
  induction requests with
  | nil => exact .nil
  | cons request requests ih => exact .cons (locatedAs_natural w request) ih

/-- A batch can leave a file where one of its requests is staged. -/
theorem can_abandon (sha256 : Bytes → String) (l : TapeLocals) (hs : Ready w jobId s) (hnamed : ∀ request ∈ requests, (w.destOf request).name ≠ "") (hreader : reader ∈ requests)
    (hreads : w.ReadsTape reader) {source : FileRecord × FileInstance} (hsource : w.sourceOf reader = some source)
    (hdata : sha256 data ≠ source.1.checksumSha256) {path : PurePosixPath} (hpath : path ∈ w.stagedPaths reader) :
    can (restoreCutMachine sha256) (runRestoreBatch requests jobId) (fun _ _ _ => False)
      (fun _ _ s' => s'.files.get? path.location = some data) l s := by
  refine can_start hs fun s₁ hs₁ _ => can_bind ?_
  obtain ⟨-, -, -, -, hlocated⟩ := split_located (forall₂_natural (w := w) requests)
  have hgroups := (perm_groups ((requests.map (natural w)).filterMap Sum.getRight?)).1
  have hx : (reader, source) ∈ (((requests.map (natural w)).filterMap Sum.getRight?).foldl addToGroup []).flatMap Prod.snd := by
    refine hgroups.symm.subset (List.mem_filterMap.2 ⟨.inr (reader, source), List.mem_map.2 ⟨reader, hreader, ?_⟩, rfl⟩)
    exact natural_reads hreads hsource
  obtain ⟨g, hg, hx⟩ := List.mem_flatMap.1 hx
  have hnames : ∀ y ∈ g.2, (w.destOf y.1).name ≠ "" := fun y hy =>
    hnamed y.1 (hlocated y (hgroups.subset (List.mem_flatMap.2 ⟨g, hg, hy⟩))).1
  obtain ⟨pre, post, hsplit⟩ := List.append_of_mem hg
  rw [hsplit]
  refine can_leave_mapEach (I := fun _ s' => Ready w jobId s') hs₁ (fun g' _ l' s' hs' => ?_) fun l' s' hs' => ?_
  · exact can_handle (can_pass_group fun _ => hs')
  · refine can_handle (can_mono (can_abandon_group hx hs' hnames hdata hpath) (fun _ _ _ h => h) ?_)
    rintro e l₂ s₂ ⟨hstale, hfile⟩
    rw [if_pos hstale]
    exact can_bind (can_refuses diskFull hfile)

end abandon

/-! ### A batch that serves whom it likes -/

section serve

variable {x : Located} {loc : Location} {select : RestoreJobRequest → Bool} {bytes : RestoreJobRequest → Bytes}
  {requests : List RestoreJobRequest} {before : Option Bytes}

/-- Neither what is staged for the request nor, if it is served, what it asks for comes to lie at `loc`. -/
structure Off (w : RestoreWorld) (select : RestoreJobRequest → Bool) (loc : Location) (request : RestoreJobRequest) : Prop where
  staged : ∀ path ∈ w.stagedPaths request, loc ≠ path.location
  served : select request = true → loc ≠ (w.destOf request).location

/-- A batch so far: `loc` is as it was. -/
structure Serving (w : RestoreWorld) (jobId : Nat) (loc : Location) (before : Option Bytes) (s : RestoreWorld) : Prop where
  ready : Ready w jobId s
  file : s.files.get? loc = before

theorem can_serve_one (hs : Serving w jobId loc before s) (hnamed : (w.destOf x.1).name ≠ "") (hoff : Off w select loc x.1)
    (hbytes : select x.1 = true → sha256 (bytes x.1) = x.2.1.checksumSha256)
    {N : RestoreItemResult → TapeLocals → RestoreWorld → Prop} {E : Exn → TapeLocals → RestoreWorld → Prop}
    (hN : ∀ result s', result.catalogPath = x.1.catalogPath → result.ok = select x.1 → Serving w jobId loc before s' → N result l s') :
    can (restoreCutMachine sha256) (restoreOneVerified x) N E l s := by
  cases hselect : select x.1 with
  | false =>
    refine can_pass hs.ready hnamed fun result files hpath hok hfiles => ?_
    exact hN _ _ hpath (hok.trans hselect.symm) ⟨hs.ready.withFiles files, (hfiles loc hoff.staged).trans hs.file⟩
  | true =>
    obtain ⟨request, record, row⟩ := x
    obtain ⟨temp, htemp⟩ : ∃ temp, (w.destOf request).withName ("." ++ (w.destOf request).name ++ ".restoring") = some temp :=
      ⟨_, if_neg hnamed⟩
    have hstaged : temp ∈ w.stagedPaths request := List.mem_filterMap.2 ⟨_, List.mem_cons_self, htemp⟩
    have hsum : sha256 (bytes request) = record.checksumSha256 := hbytes hselect
    have hset : (s.files.set temp.location (bytes request)).get? temp.location = some (bytes request) := by rw [Dict.get?_set, if_pos rfl]
    have hread : ({ s with files := s.files.set temp.location (bytes request) } : RestoreWorld).perform sha256 {} (.sha256sum temp) =
        (.ok record.checksumSha256, { s with files := s.files.set temp.location (bytes request) }) := by
      simp only [RestoreWorld.perform, RestoreWorld.file?, hset, hsum]
    have hrename : ({ s with files := s.files.set temp.location (bytes request) } : RestoreWorld).perform sha256 {}
        (.rename temp (w.destOf request)) = (.ok (), { s with
          files := ((s.files.set temp.location (bytes request)).erase temp.location).set (w.destOf request).location (bytes request) }) := by
      simp only [RestoreWorld.perform, RestoreWorld.file?, hset]
    refine can_bind (can_batchDest hs.ready.dirs (can_bind ?_))
    rw [withName, htemp]
    refine can_pure (can_bind (can_handle (can_bind (can_does { bytes := bytes request } rfl rfl (can_pure (can_bind ?_))))))
    refine can_does {} rfl hread ?_
    rw [if_neg (by simp)]
    refine can_bind (can_does {} rfl hrename (can_pure (hN _ _ rfl hselect.symm ⟨hs.ready.withFiles _, ?_⟩)))
    rw [Dict.get?_set, if_neg fun heq => hoff.served hselect heq.symm, Dict.get?_erase, if_neg fun heq => hoff.staged temp hstaged heq.symm,
      Dict.get?_set, if_neg fun heq => hoff.staged temp hstaged heq.symm]
    exact hs.file

/-- The paths of the requests that are served. -/
def servedPaths (select : RestoreJobRequest → Bool) (group : List Located) : List String :=
  (group.filter fun x => select x.1).map fun x => x.1.catalogPath

theorem servedPaths_append (select : RestoreJobRequest → Bool) (group group' : List Located) :
    servedPaths select (group ++ group') = servedPaths select group ++ servedPaths select group' := by
  rw [servedPaths, List.filter_append, List.map_append]
  rfl

theorem can_serve_group {barcode : Barcode} {group : List Located} (hs : Serving w jobId loc before s)
    (hnamed : ∀ x ∈ group, (w.destOf x.1).name ≠ "") (hoff : ∀ x ∈ group, Off w select loc x.1)
    (hbytes : ∀ x ∈ group, select x.1 = true → sha256 (bytes x.1) = x.2.1.checksumSha256)
    {N : List RestoreItemResult × Option String → TapeLocals → RestoreWorld → Prop} {E : Exn → TapeLocals → RestoreWorld → Prop}
    (hN : ∀ done s', okPaths done.1 = servedPaths select group → Serving w jobId loc before s' → N done l s') :
    can (restoreCutMachine sha256) (restoreTapeGroup barcode group) N E l s := by
  refine can_scope (can_bind (can_does {} rfl rfl (can_bind (can_ensure (can_ensure (can_handle (can_bind ?_)))))))
  refine can_does {} rfl rfl (can_bind (can_assign (can_bind (can_does {} rfl rfl (can_bind (can_does {} rfl rfl (can_ensure ?_)))))))
  refine can_forEach (I := fun pre (l : TapeLocals) s => okPaths l.results = servedPaths select pre ∧ Serving w jobId loc before s)
    ⟨rfl, hs⟩ ?_ ?_
  · rintro pre x post l s rfl ⟨hresults, hs⟩
    have hx : x ∈ pre ++ x :: post := List.mem_append_right _ List.mem_cons_self
    refine can_bind (can_serve_one hs (hnamed x hx) (hoff x hx) (hbytes x hx) fun result s' hpath hok hs' => can_assign ⟨?_, hs'⟩)
    rw [okPaths_append, servedPaths_append, hresults]
    cases hselect : select x.1 <;> simp [okPaths, servedPaths, hok, hselect, hpath]
  · rintro l₁ s₁ ⟨hresults, hs⟩
    have hend : ∀ {l' : TapeLocals} {s'}, l'.results = l₁.results → Serving w jobId loc before s' →
        can (restoreCutMachine sha256) (do
          let l ← locals
          pure (l.results, l.tapeError)) (fun done _ s' => N done l s') (fun e _ s' => E e l s') l' s' := by
      intro l' s' hl hs'
      refine can_bind (can_locals (can_pure (hN _ s' ?_ hs')))
      rw [hl]
      exact hresults
    refine can_bind (can_does {} rfl rfl (can_handle (can_does {} rfl rfl (can_bind (can_locals ?_)))))
    split
    · exact can_pure (can_does {} rfl rfl (hend rfl hs))
    · refine can_bind (can_handle (can_does {} rfl rfl ?_))
      split
      · exact can_does {} rfl rfl (can_does {} rfl rfl (hend rfl hs))
      · exact can_pure (can_does {} rfl rfl (hend rfl hs))

/-- A batch can serve just those of its requests that are chosen, where there are files for them. -/
theorem can_serve (sha256 : Bytes → String) (l : TapeLocals) (hs : Serving w jobId loc before s) (hnamed : ∀ request ∈ requests, (w.destOf request).name ≠ "")
    (hoff : ∀ request ∈ requests, w.ReadsTape request → Off w select loc request)
    (hbytes : ∀ request source, w.sourceOf request = some source → select request = true → sha256 (bytes request) = source.1.checksumSha256) :
    can (restoreCutMachine sha256) (runRestoreBatch requests jobId)
      (fun result _ s' => (okPaths result.items).Perm (okPaths ((requests.map (natural w)).filterMap Sum.getLeft?) ++
        servedPaths select ((requests.map (natural w)).filterMap Sum.getRight?)) ∧ s'.files.get? loc = before)
      (fun _ _ _ => False) l s := by
  refine can_start hs.ready fun s₁ hs₁ hfiles => can_bind ?_
  obtain ⟨-, -, -, -, hlocated⟩ := split_located (forall₂_natural (w := w) requests)
  have hgroups := (perm_groups ((requests.map (natural w)).filterMap Sum.getRight?)).1
  generalize hgroup : ((requests.map (natural w)).filterMap Sum.getRight?).foldl addToGroup [] = groups at hgroups
  have hmem : ∀ g ∈ groups, ∀ x ∈ g.2, x.1 ∈ requests ∧ w.ReadsTape x.1 ∧ w.sourceOf x.1 = some x.2 := fun g hg x hx =>
    hlocated x (hgroups.subset (List.mem_flatMap.2 ⟨g, hg, hx⟩))
  refine can_mapEach
    (I := fun pre done _ s => okPaths (done.flatMap Prod.fst) = servedPaths select (pre.flatMap Prod.snd) ∧ Serving w jobId loc before s)
    ⟨rfl, hs₁, (by rw [hfiles]; exact hs.file)⟩ ?_ ?_
  · rintro pre done g post l s hsplit ⟨hdone, hs⟩
    have hg : g ∈ groups := by
      rw [hsplit]
      exact List.mem_append_right _ List.mem_cons_self
    refine can_handle (can_serve_group hs (fun x hx => hnamed x.1 (hmem g hg x hx).1)
      (fun x hx => hoff x.1 (hmem g hg x hx).1 (hmem g hg x hx).2.1) (fun x hx => hbytes x.1 x.2 (hmem g hg x hx).2.2)
      fun answer s' hanswer hs' => ⟨?_, hs'⟩)
    rw [List.flatMap_append, List.flatMap_append, okPaths_append, servedPaths_append, hdone]
    simp [hanswer]
  · rintro done l s ⟨hdone, hs⟩
    have hitems : (okPaths ((requests.map (natural w)).filterMap Sum.getLeft? ++ done.flatMap Prod.fst)).Perm
        (okPaths ((requests.map (natural w)).filterMap Sum.getLeft?) ++
          servedPaths select ((requests.map (natural w)).filterMap Sum.getRight?)) := by
      rw [okPaths_append, hdone]
      exact ((hgroups.filter _).map _).append_left _
    dsimp only
    split
    · refine can_bind (can_setJobState hs.ready fun s' _ hsame => can_pure ⟨hitems, ?_⟩)
      rw [hsame]
      exact hs.file
    · refine can_bind (can_setJobState hs.ready fun s' _ hsame => can_pure ⟨hitems, ?_⟩)
      rw [hsame]
      exact hs.file

end serve

/-! ### Who is reported -/

section reported

variable {requests served : List RestoreJobRequest} {select : RestoreJobRequest → Bool} {path : String} {files : Dict Location Bytes}
  {items : List RestoreItemResult}

theorem sourceOf_congr {request other : RestoreJobRequest} (h : request.catalogPath = other.catalogPath) :
    w.sourceOf request = w.sourceOf other := by
  unfold RestoreWorld.sourceOf
  rw [h]

theorem okPaths_cons (item : RestoreItemResult) (items : List RestoreItemResult) :
    okPaths (item :: items) = (if item.ok = true then [item.catalogPath] else []) ++ okPaths items := by
  rw [← List.singleton_append, okPaths_append]
  cases hok : item.ok <;> simp [okPaths, hok]

theorem servedPaths_cons (x : Located) (group : List Located) :
    servedPaths select (x :: group) = (if select x.1 = true then [x.1.catalogPath] else []) ++ servedPaths select group := by
  rw [← List.singleton_append, servedPaths_append]
  cases hselect : select x.1 <;> simp [servedPaths, hselect]

/-- As often as a path is reported ok, as many requests for it are dry runs or served. -/
theorem count_okPaths (hsourced : ∀ request ∈ requests, request.catalogPath = path → (w.sourceOf request).isSome = true) :
    (okPaths ((requests.map (natural w)).filterMap Sum.getLeft?) ++
        servedPaths select ((requests.map (natural w)).filterMap Sum.getRight?)).count path =
      (requests.filter fun request => request.catalogPath = path ∧ (request.dryRun = true ∨ select request = true)).length := by
  induction requests with
  | nil => rfl
  | cons request requests ih =>
    have hrest := ih fun other hother => hsourced other (List.mem_cons_of_mem _ hother)
    rw [List.count_append] at hrest ⊢
    rw [List.map_cons]
    cases hsource : w.sourceOf request with
    | none =>
      obtain ⟨error, hnatural⟩ := natural_of_none hsource
      have hpath : request.catalogPath ≠ path := by
        intro hpath
        have hsome := hsourced request List.mem_cons_self hpath
        rw [hsource] at hsome
        cases hsome
      rw [hnatural, List.filter_cons_of_neg (by simp [hpath]), ← hrest]
      rfl
    | some source =>
      have hnatural := natural_of_some hsource
      by_cases hdry : request.dryRun = true
      · rw [if_pos hdry] at hnatural
        rw [hnatural, List.filterMap_cons_some (f := Sum.getLeft?) rfl, List.filterMap_cons_none (f := Sum.getRight?) rfl,
          okPaths_cons, if_pos rfl, List.count_append]
        by_cases hpath : request.catalogPath = path
        · rw [List.filter_cons_of_pos (by simp [hpath, hdry]), List.length_cons, ← hrest, hpath, List.count_singleton_self]
          omega
        · rw [List.filter_cons_of_neg (by simp [hpath]), ← hrest, List.count_singleton, if_neg (by simpa using hpath)]
          omega
      · rw [if_neg hdry] at hnatural
        rw [hnatural, List.filterMap_cons_none (f := Sum.getLeft?) rfl, List.filterMap_cons_some (f := Sum.getRight?) rfl,
          servedPaths_cons, List.count_append]
        by_cases hserved : request.catalogPath = path ∧ select request = true
        · rw [List.filter_cons_of_pos (by simp [hserved.1, hserved.2]), List.length_cons, ← hrest, if_pos hserved.2, hserved.1,
            List.count_singleton_self]
          omega
        · rw [List.filter_cons_of_neg (by simpa [hdry] using hserved), ← hrest]
          split
          · rename_i hselect
            rw [List.count_singleton, if_neg (by simpa using fun hpath => hserved ⟨hpath, hselect⟩)]
            omega
          · rw [List.count_nil]
            omega

/-- Those who are reported, for one path. -/
theorem length_served (hpaths : served.map RestoreJobRequest.catalogPath = okPaths items)
    (hperm : (okPaths items).Perm (okPaths ((requests.map (natural w)).filterMap Sum.getLeft?) ++
      servedPaths select ((requests.map (natural w)).filterMap Sum.getRight?)))
    (hsourced : ∀ request ∈ requests, request.catalogPath = path → (w.sourceOf request).isSome = true) :
    (served.filter fun request => request.catalogPath = path).length =
      (requests.filter fun request => request.catalogPath = path ∧ (request.dryRun = true ∨ select request = true)).length := by
  rw [← count_okPaths hsourced, ← hperm.count_eq, ← hpaths, List.count_eq_countP, List.countP_map, List.countP_eq_length_filter]
  congr 1

/-- A path whose requests are all reported: each of them has been served. -/
theorem mem_served (hsub : List.Subperm served requests)
    (hlength : (served.filter fun request => request.catalogPath = path).length =
      (requests.filter fun request => request.catalogPath = path ∧ (request.dryRun = true ∨ select request = true)).length)
    (hall : ∀ request ∈ requests, request.catalogPath = path → request.dryRun = true ∨ select request = true)
    (hrequest : request ∈ requests) (hpath : request.catalogPath = path) : request ∈ served := by
  have hsame : (requests.filter fun request => request.catalogPath = path ∧ (request.dryRun = true ∨ select request = true)) =
      requests.filter fun request => request.catalogPath = path := by
    refine List.filter_congr fun other hother => ?_
    by_cases h : other.catalogPath = path
    · simpa [h] using hall other hother h
    · simp [h]
  rw [hsame] at hlength
  have hperm := (hsub.filter fun request => request.catalogPath = path).perm_of_length_le hlength.ge
  exact (List.mem_filter.1 (hperm.symm.subset (List.mem_filter.2 ⟨hrequest, decide_eq_true hpath⟩))).1

theorem exists_bound (lengths : List Nat) : ∃ bound, ∀ n ∈ lengths, n < bound := by
  induction lengths with
  | nil => exact ⟨0, nofun⟩
  | cons n lengths ih =>
    obtain ⟨bound, hbound⟩ := ih
    refine ⟨bound + n + 1, fun m hm => ?_⟩
    rcases List.mem_cons.1 hm with rfl | hmem
    · omega
    · have hlt := hbound m hmem
      omega

/-- Where the law holds of every run of a batch, its requests are apart. -/
theorem apart_of_law (hsha : ∀ known : List String, known.length ≤ requests.length + 1 → ∃ data, sha256 data ∉ known)
    (hjob : HasJob jobId w) (hnamed : ∀ request ∈ requests, (w.destOf request).name ≠ "")
    (hlaw : ∀ cs a l s, (restoreCutMachine sha256).run cs (runRestoreBatch requests jobId {}) w = (.ret (a, l), s) →
      (∀ request ∈ requests, w.Settled sha256 requests s.files request) ∧
        ∀ result, a = .ok result → w.ReportsOwn sha256 requests s.files result.items) : w.Apart sha256 requests := by
  have hready : Ready w jobId w := ⟨rfl, rfl, hjob⟩
  have hstaged : ∀ reader ∈ requests, w.ReadsTape reader → ∀ path ∈ w.stagedPaths reader, ∀ request ∈ requests,
      (w.destOf request).location ≠ path.location := by
    intro reader hreader hreads path hpath request hrequest hdest
    obtain ⟨data, hforeign⟩ := exists_foreign requests hsha w request
    obtain ⟨source, hsource⟩ := Option.isSome_iff_exists.1 hreads.2
    have hcan := can_abandon sha256 {} hready hnamed hreader hreads hsource
      (hforeign.1 reader hreader source hsource) hpath
    obtain ⟨cs, ⟨a, l⟩, s, hrun, hend⟩ := Prog.ends_of_can hcan
    cases a with
    | ok result => exact hend.elim
    | error e =>
      have hfile : s.files.get? path.location = some data := hend
      exact hforeign.not_settled (hdest ▸ hfile) ((hlaw cs _ l s hrun).1 request hrequest)
  -- a batch that serves whom it likes, where `loc` is nobody's
  have hserve : ∀ (select : RestoreJobRequest → Bool) (bytes : RestoreJobRequest → Bytes) (loc : Location),
      (∀ request ∈ requests, w.ReadsTape request → Off w select loc request) →
      (∀ request source, w.sourceOf request = some source → select request = true → sha256 (bytes request) = source.1.checksumSha256) →
      ∃ files served, files.get? loc = w.files.get? loc ∧ List.Subperm served requests ∧
        (∀ request ∈ served, w.HoldsOwn sha256 files request) ∧
        ∀ path, (∀ request ∈ requests, request.catalogPath = path → (w.sourceOf request).isSome = true) →
          (served.filter fun request => request.catalogPath = path).length =
            (requests.filter fun request => request.catalogPath = path ∧ (request.dryRun = true ∨ select request = true)).length := by
    intro select bytes loc hoff hbytes
    have hcan := can_serve sha256 {} ⟨hready, rfl⟩ hnamed hoff hbytes
    obtain ⟨cs, ⟨a, l⟩, s, hrun, hend⟩ := Prog.ends_of_can hcan
    cases a with
    | error e => exact hend.elim
    | ok result =>
      obtain ⟨served, hsub, hpaths, hown⟩ := (hlaw cs _ l s hrun).2 result rfl
      exact ⟨s.files, served, And.right hend, hsub, hown, fun path => length_served hpaths (And.left hend)⟩
  refine ⟨hstaged, ?_, ?_⟩
  · rintro reader hreader hreads request hrequest hdest source found hsource hfound ⟨data, hdata⟩ ⟨other, hother⟩
    obtain ⟨bound, hbound⟩ : ∃ bound, ∀ request ∈ requests, ∀ path ∈ w.destOf request :: w.stagedPaths request,
        path.location.length < bound := by
      obtain ⟨bound, hbound⟩ := exists_bound ((requests.flatMap fun request => w.destOf request :: w.stagedPaths request).map
        fun path => path.location.length)
      exact ⟨bound, fun request hrequest path hpath => hbound _ (List.mem_map.2 ⟨path, List.mem_flatMap.2 ⟨request, hrequest, hpath⟩, rfl⟩)⟩
    obtain ⟨files, served, -, hsub, hown, hlength⟩ := hserve
      (fun q => decide (q.catalogPath = reader.catalogPath ∨ q.catalogPath = request.catalogPath))
      (fun q => if q.catalogPath = reader.catalogPath then data else other) (List.replicate bound "")
      (fun q hq _ => ⟨fun path hpath heq => absurd (hbound q hq path (List.mem_cons_of_mem _ hpath)) (by rw [← heq]; simp),
        fun _ heq => absurd (hbound q hq _ List.mem_cons_self) (by rw [← heq]; simp)⟩)
      (fun q qsource hq hselect => by
        split
        · rename_i hpath
          rw [sourceOf_congr hpath, hsource] at hq
          cases hq
          exact hdata
        · rename_i hpath
          have hpath' : q.catalogPath = request.catalogPath := by simpa [hpath] using hselect
          rw [sourceOf_congr hpath', hfound] at hq
          cases hq
          exact hother)
    have hreported : ∀ q ∈ requests, (q.catalogPath = reader.catalogPath ∨ q.catalogPath = request.catalogPath) →
        (w.sourceOf q).isSome = true → q ∈ served := by
      intro q hq hpath hsome
      refine mem_served hsub (hlength q.catalogPath fun r _ hr => by rw [sourceOf_congr hr]; exact hsome) (fun r _ hr => ?_) hq rfl
      right
      rw [hr]
      exact decide_eq_true hpath
    obtain ⟨record, row, stored, hrecord, hstored, hsum⟩ := hown reader (hreported reader hreader (.inl rfl) (by rw [hsource]; rfl))
    obtain ⟨record', row', stored', hrecord', hstored', hsum'⟩ := hown request (hreported request hrequest (.inr rfl) (by rw [hfound]; rfl))
    rw [hsource] at hrecord
    rw [hfound] at hrecord'
    cases hrecord
    cases hrecord'
    rw [hdest, hstored'] at hstored
    cases hstored
    exact hsum.symm.trans hsum'
  · intro request hrequest hdry hsome
    by_contra hno
    obtain ⟨source, hsource⟩ := Option.isSome_iff_exists.1 hsome
    classical
    let select : RestoreJobRequest → Bool := fun q => decide (q.catalogPath = request.catalogPath ∧
      (w.destOf q).location ≠ (w.destOf request).location ∧ ∃ data, sha256 data = source.1.checksumSha256)
    have hselect : ∀ q, select q = true ↔ q.catalogPath = request.catalogPath ∧
        (w.destOf q).location ≠ (w.destOf request).location ∧ ∃ data, sha256 data = source.1.checksumSha256 := fun q => decide_eq_true_iff
    obtain ⟨files, served, hbefore, hsub, hown, hlength⟩ := hserve select
      (fun _ => if h : ∃ data, sha256 data = source.1.checksumSha256 then h.choose else []) (w.destOf request).location
      (fun q hq hreads => ⟨fun path hpath => hstaged q hq hreads path hpath request hrequest, fun h => ((hselect q).1 h).2.1.symm⟩)
      (fun q qsource hq h => by
        obtain ⟨hpath, -, hdata⟩ := (hselect q).1 h
        rw [sourceOf_congr hpath, hsource] at hq
        cases hq
        rw [dif_pos hdata]
        exact hdata.choose_spec)
    -- a request for the path that is served has a destination of its own
    have hserved : ∀ q ∈ served, q.catalogPath = request.catalogPath → select q = true := by
      intro q hq hpath
      obtain ⟨record, row, data, hqsource, hdata, hsum⟩ := hown q hq
      have hqsource' := hqsource
      rw [sourceOf_congr hpath, hsource] at hqsource'
      cases hqsource'
      refine (hselect q).2 ⟨hpath, fun hdest => hno ⟨_, _, data, hsource, ?_, hsum⟩, data, hsum⟩
      rw [hdest, hbefore] at hdata
      exact hdata
    have hcount := hlength request.catalogPath fun r _ hr => by
      rw [sourceOf_congr hr]
      exact hsome
    have hle : (served.filter fun q => q.catalogPath = request.catalogPath).length ≤
        (requests.filter fun q => q.catalogPath = request.catalogPath ∧ select q = true).length := by
      rw [← List.countP_eq_length_filter, ← List.countP_eq_length_filter]
      have hmono : served.countP (fun q => q.catalogPath = request.catalogPath) ≤
          served.countP fun q => q.catalogPath = request.catalogPath ∧ select q = true := by
        refine List.countP_mono_left fun q hq hpath => ?_
        have hpath := of_decide_eq_true hpath
        exact decide_eq_true ⟨hpath, hserved q hq hpath⟩
      exact hmono.trans (hsub.countP_le _)
    have hsublist : (requests.filter fun q => q.catalogPath = request.catalogPath ∧ select q = true).Sublist
        (requests.filter fun q => q.catalogPath = request.catalogPath ∧ (q.dryRun = true ∨ select q = true)) := by
      refine List.monotone_filter_right _ fun q hq => ?_
      have hq := of_decide_eq_true hq
      exact decide_eq_true ⟨hq.1, .inr hq.2⟩
    have heq := hsublist.eq_of_length_le (hcount.symm.trans_le hle)
    have hmem : request ∈ requests.filter fun q => q.catalogPath = request.catalogPath ∧ select q = true := by
      rw [heq]
      exact List.mem_filter.2 ⟨hrequest, decide_eq_true ⟨rfl, .inl hdry⟩⟩
    exact ((hselect request).1 (of_decide_eq_true (List.mem_filter.1 hmem).2).2).2.1 rfl

end reported

end VisibilityAux

open VisibilityAux

/-- A single job can leave anything at its destination as soon as it reads a tape, and then a batch of the same request, after the same
troubles, leaves it otherwise. A batch leaves every destination as it should be, and what it reports in place, whatever happens, exactly
where its requests are apart. -/
theorem restore_visible_iff (sha256 : Bytes → String) (w : RestoreWorld) (requests : List RestoreJobRequest) (jobId : Nat)
    (hsha : ∀ known : List String, known.length ≤ requests.length + 2 → ∃ data, sha256 data ∉ known)
    (hjob : ∃ job ∈ w.jobs, job.id = jobId) (hnamed : ∀ request ∈ requests, (w.destOf request).name ≠ "") :
    (∀ request,
      ((∀ cs a l s, (restoreCutMachine sha256).run cs (runRestoreJob request jobId {}) w = (.ret (a, l), s) →
        w.Settled sha256 [request] s.files request) ↔ ¬w.ReadsTape request) ∧
      (RestoresAgree sha256 w request jobId ↔ ¬w.ReadsTape request)) ∧
    ((∀ cs a l s, (restoreCutMachine sha256).run cs (runRestoreBatch requests jobId {}) w = (.ret (a, l), s) →
      (∀ request ∈ requests, w.Settled sha256 requests s.files request) ∧
        ∀ result, a = .ok result → w.ReportsOwn sha256 requests s.files result.items) ↔ w.Apart sha256 requests) := by
  have hany : HasJob jobId w := by
    obtain ⟨job, hmem, hid⟩ := hjob
    exact List.any_eq_true.2 ⟨job, hmem, decide_eq_true hid⟩
  have htwo : ∀ known : List String, known.length ≤ 2 → ∃ data, sha256 data ∉ known := fun known h => hsha known (by omega)
  refine ⟨fun request => ⟨single_iff htwo hany, agree_iff htwo hany⟩, ?_, ?_⟩
  · exact apart_of_law (fun known h => hsha known (by omega)) hany hnamed
  · exact fun hapart cs a l s hrun => settled_of_batch hapart hrun

/-- A checksum that can be computed by hand. -/
def textSum (bytes : Bytes) : String := String.ofList (bytes.map fun byte => Char.ofNat byte.toNat)

/-- Two files of one tape, and an older file at the destination. -/
def olderCopy : RestoreWorld where
  catalog :=
    { records := [("/vg/a", "a"), ("/vg/b", "b")].zipIdx.map fun entry =>
        { id := entry.2, path := entry.1.1, sizeBytes := 1, checksumSha256 := entry.1.2, volumeGroupId := 0, shardCount := none
          shardIndex := none, blockSize := none, shardProfile := none, parentId := none, createdAt := 0 }
      instances := ["/vg/a", "/vg/b"].zipIdx.map fun entry =>
        { id := entry.2, fileRecordId := entry.2, barcode := "TAPE01L8", tapePath := entry.1, state := .archived, createdAt := 0 } }
  jobs := [{ id := 0, metadata := {} }]
  files := [(["restore", "a"], [111])]
  dirs := [[], ["restore"]]

def restoreTo (catalogPath destPath : String) : RestoreJobRequest := { catalogPath := catalogPath, destPath := .ofString destPath }

def tapeGives (data : Bytes) : CutChoice := { choice := { bytes := data } }

def twoReads : List CutChoice :=
  List.replicate 10 (tapeGives []) ++ [tapeGives [97]] ++ List.replicate 3 (tapeGives []) ++ [tapeGives [98]] ++ List.replicate 8 (tapeGives [])

/-- What stands at `/restore/a` after a job of `/vg/a` whose tape gives something else, and after a batch of it. -/
theorem older_copy_lost :
    (¬∀ cs a l s, (restoreCutMachine textSum).run cs (runRestoreJob (restoreTo "/vg/a" "/restore/a") 0 {}) olderCopy = (.ret (a, l), s) →
      olderCopy.Settled textSum [restoreTo "/vg/a" "/restore/a"] s.files (restoreTo "/vg/a" "/restore/a")) ∧
    ¬∀ cs a l s, (restoreCutMachine textSum).run cs
        (runRestoreBatch [restoreTo "/vg/a" "/restore/a", restoreTo "/vg/b" "/restore/a"] 0 {}) olderCopy = (.ret (a, l), s) →
      ∀ result, a = .ok result →
        olderCopy.ReportsOwn textSum [restoreTo "/vg/a" "/restore/a", restoreTo "/vg/b" "/restore/a"] s.files result.items := by
  constructor
  · intro hlaw
    have hold : olderCopy.files.get? (olderCopy.destOf (restoreTo "/vg/a" "/restore/a")).location = some [111] := by decide +kernel
    have hend : ((restoreCutMachine textSum).run (List.replicate 17 (tapeGives [122])) (runRestoreJob (restoreTo "/vg/a" "/restore/a") 0 {})
        olderCopy).1.value?.isSome = true := by decide +kernel
    have hgone : ((restoreCutMachine textSum).run (List.replicate 17 (tapeGives [122])) (runRestoreJob (restoreTo "/vg/a" "/restore/a") 0 {})
        olderCopy).2.files.get? (olderCopy.destOf (restoreTo "/vg/a" "/restore/a")).location = none := by decide +kernel
    generalize hrun : (restoreCutMachine textSum).run (List.replicate 17 (tapeGives [122]))
      (runRestoreJob (restoreTo "/vg/a" "/restore/a") 0 {}) olderCopy = final at hend hgone
    obtain ⟨p, s⟩ := final
    obtain ⟨⟨a, l⟩, hvalue⟩ := Option.isSome_iff_exists.1 hend
    obtain rfl := Prog.value?_eq_some.1 hvalue
    rcases hlaw _ a l s hrun with hbefore | ⟨other, hother, hdest, record, row, data, -, hdata, -⟩
    · rw [hold] at hbefore
      exact absurd (hgone.symm.trans hbefore) (by simp)
    · rw [hdest] at hdata
      exact absurd (hgone.symm.trans hdata) (by simp)
  · intro hlaw
    have hpaths : ((restoreCutMachine textSum).run twoReads
        (runRestoreBatch [restoreTo "/vg/a" "/restore/a", restoreTo "/vg/b" "/restore/a"] 0 {}) olderCopy).1.value?.map
          (fun x => x.1.toOption.map fun result => okPaths result.items) = some (some ["/vg/a", "/vg/b"]) := by decide +kernel
    have hfile : ((restoreCutMachine textSum).run twoReads
        (runRestoreBatch [restoreTo "/vg/a" "/restore/a", restoreTo "/vg/b" "/restore/a"] 0 {}) olderCopy).2.files.get?
          (olderCopy.destOf (restoreTo "/vg/a" "/restore/a")).location = some [98] := by decide +kernel
    have hsum : (olderCopy.sourceOf (restoreTo "/vg/a" "/restore/a")).map (fun source => source.1.checksumSha256) = some "a" := by
      decide +kernel
    generalize hrun : (restoreCutMachine textSum).run twoReads
      (runRestoreBatch [restoreTo "/vg/a" "/restore/a", restoreTo "/vg/b" "/restore/a"] 0 {}) olderCopy = final at hpaths hfile
    obtain ⟨p, s⟩ := final
    obtain ⟨⟨a, l⟩, hvalue, ha⟩ := Option.map_eq_some_iff.1 hpaths
    obtain rfl := Prog.value?_eq_some.1 hvalue
    cases a with
    | error e => cases ha
    | ok result =>
      have hok : okPaths result.items = ["/vg/a", "/vg/b"] := Option.some.inj ha
      obtain ⟨served, hsub, hserved, hown⟩ := hlaw _ _ l s hrun result rfl
      have hmem : "/vg/a" ∈ served.map RestoreJobRequest.catalogPath := by
        rw [hserved]
        show "/vg/a" ∈ okPaths result.items
        rw [hok]
        exact List.mem_cons_self
      obtain ⟨request, hrequest, hpath⟩ := List.mem_map.1 hmem
      obtain rfl : request = restoreTo "/vg/a" "/restore/a" := by
        rcases List.mem_cons.1 (hsub.subset hrequest) with heq | hlast
        · exact heq
        · rw [List.mem_singleton.1 hlast] at hpath
          exact absurd hpath (by decide)
      obtain ⟨record, row, data, hsource, hdata, hchecksum⟩ := hown _ hrequest
      rw [hsource] at hsum
      obtain rfl : [98] = data := Option.some.inj (hfile.symm.trans hdata)
      have hrecord : record.checksumSha256 = "a" := Option.some.inj hsum
      rw [hrecord] at hchecksum
      exact absurd hchecksum (by decide)

/-- One request, and a checksum that tells texts apart by their length. -/
theorem one_request_apart :
    (¬∀ cs a l s, (restoreCutMachine textSum).run cs (runRestoreJob (restoreTo "/vg/a" "/restore/a") 0 {}) olderCopy = (.ret (a, l), s) →
      olderCopy.Settled textSum [restoreTo "/vg/a" "/restore/a"] s.files (restoreTo "/vg/a" "/restore/a")) ∧
    ∀ cs a l s, (restoreCutMachine textSum).run cs (runRestoreBatch [restoreTo "/vg/a" "/restore/a"] 0 {}) olderCopy = (.ret (a, l), s) →
      olderCopy.Settled textSum [restoreTo "/vg/a" "/restore/a"] s.files (restoreTo "/vg/a" "/restore/a") := by
  have hreads : olderCopy.ReadsTape (restoreTo "/vg/a" "/restore/a") := ⟨rfl, by decide +kernel⟩
  have hsha : ∀ known : List String, known.length ≤ [restoreTo "/vg/a" "/restore/a"].length + 2 → ∃ data, textSum data ∉ known := by
    intro known _
    obtain ⟨bound, hbound⟩ := exists_bound (known.map String.length)
    refine ⟨List.replicate bound 97, fun hmem => ?_⟩
    have hlt := hbound _ (List.mem_map.2 ⟨_, hmem, rfl⟩)
    simp [textSum] at hlt
  obtain ⟨hsingle, hbatch⟩ := restore_visible_iff textSum olderCopy [restoreTo "/vg/a" "/restore/a"] 0 hsha ⟨_, List.mem_cons_self, rfl⟩
    (by decide +kernel)
  refine ⟨fun hlaw => (hsingle _).1.1 hlaw hreads, fun cs a l s hrun => ?_⟩
  exact (hbatch.2 (apart_single hreads) cs a l s hrun).1 _ List.mem_cons_self

end OpenBlade
