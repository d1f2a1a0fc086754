import OpenBlade.Domain.PathParts
import OpenBlade.Fuse.Hydrator

/-!
# Staged files

What the hydrator removes. A restore job of its own reads, renames and unlinks under the staging root only. A worker that has
attached to a job takes the staged path from the row of the job, whoever wrote it, and unlinks what it has read from there.
-/

namespace OpenBlade

open Effects Proc

/-- The path leads under `root`, or to it. -/
def Under (root path : PurePosixPath) : Prop := root.location <+: path.location

instance (root path : PurePosixPath) : Decidable (Under root path) := inferInstanceAs (Decidable (_ <+: _))

/-- The calls that are the hydrator's; the threads it starts are too. -/
def HydratorCall.isHydration : HydratorCall → Bool
  | request _ | shutdown => true
  | _ => false

/-- The thread is one of the hydration data plane. -/
def Hydrating (calls : List HydratorCall) (thread : Nat) : Prop :=
  ∀ call, calls[thread]? = some call → call.isHydration = true

/-- The data plane removes and changes nothing outside of the staging root. -/
def StagedOnly (config : HydratorConfig) (calls : List HydratorCall) (turns : List HydratorTurn) : Prop :=
  ∀ x ∈ turns, Hydrating calls x.thread → ∀ loc, ¬config.stagingRoot.location <+: loc →
    x.step.post.world.files.get? loc = x.step.pre.world.files.get? loc

/-- Where a worker is sent by the row of a job that is completed, either is under the staging root, or has no file when the worker
comes to store it. -/
def ResumesStaged (config : HydratorConfig) (turns : List HydratorTurn) : Prop :=
  ∀ y ∈ turns, ∀ x ∈ turns, y.thread = x.thread → ∀ jobId path checksum staged, y.step.op = .resumeJob jobId path →
    y.step.pre.resumeJob jobId path = .ok staged → x.step.op = .storeVerified checksum staged →
    Under config.stagingRoot staged ∨ x.step.pre.world.file? staged = none

namespace StagedAux

/-! ## Paths under the staging root -/

/-- A name that stays in its directory. -/
def IsName (part : String) : Prop := part ≠ "" ∧ part ≠ "." ∧ part ≠ ".."

/-- A name in the root, and one part below it at most. -/
def Within (root path : PurePosixPath) : Prop :=
  ∃ part rest, path.parts = root.parts ++ part :: rest ∧ IsName part ∧ rest.length ≤ 1

theorem normpathStep_name {part : String} (h : IsName part) (loc : Location) : normpathStep true loc part = loc ++ [part] := by
  rw [normpathStep, if_neg (not_or.2 ⟨h.1, h.2.1⟩), if_pos (.inl h.2.2)]

/-- The last part may be "..": it leads back to the root, not out of it. -/
theorem Within.under {root path : PurePosixPath} (h : Within root path) : Under root path := by
  obtain ⟨part, rest, hparts, hpart, hrest⟩ := h
  have hlocation : path.location = rest.foldl (normpathStep true) (root.location ++ [part]) := by
    rw [PurePosixPath.location, hparts, List.foldl_append, List.foldl_cons, normpathStep_name hpart]
    rfl
  rw [Under, hlocation]
  match rest, hrest with
  | [], _ => exact List.prefix_append _ _
  | [last], _ =>
    show root.location <+: normpathStep true (root.location ++ [part]) last
    unfold normpathStep
    split
    · exact List.prefix_append _ _
    · split
      · exact (List.prefix_append _ _).trans (List.prefix_append _ _)
      · have hback : (root.location ++ [part]).dropLast = root.location := List.dropLast_concat
        exact ⟨[], by rw [hback, List.append_nil]⟩

theorem isName_toString (id : Nat) : IsName (toString id) := by
  have hdigits : ∀ c ∈ (toString id).toList, c.isDigit = true := fun c hc =>
    Nat.isDigit_of_mem_toDigits (b := 10) (by decide) (by decide) (by simpa using hc)
  refine ⟨Nat.repr_ne_empty, fun h => ?_, fun h => ?_⟩
  · have hdot := hdigits '.' (by rw [h]; decide)
    exact absurd hdot (by decide)
  · have hdot := hdigits '.' (by rw [h]; decide)
    exact absurd hdot (by decide)

theorem within_staged (root : PurePosixPath) (id : Nat) : Within root (root.join { root := "", parts := [toString id] }) :=
  ⟨toString id, [], by rw [PurePosixPath.join, if_pos rfl], isName_toString id, Nat.zero_le _⟩

/-- A path of one part at most, as the name of a file gives it. -/
theorem ofString_name (path : PurePosixPath) (hpath : path.WellFormed) :
    (PurePosixPath.ofString path.name).root = "" ∧ (PurePosixPath.ofString path.name).parts.length ≤ 1 := by
  have hslash : '/' ∉ path.name.toList := by
    obtain ⟨parts, hparts, hpart⟩ := hpath.parts
    rw [PurePosixPath.name, hparts]
    cases hlast : (parts.map String.ofList).getLast? with
    | none => exact List.not_mem_nil
    | some name =>
      obtain ⟨part, hmem, rfl⟩ := List.mem_map.1 (List.mem_of_getLast? hlast)
      simpa using (hpart part hmem).2
  constructor
  · show slashes (leadingSlashes path.name.toList) = ""
    rw [slashes_eq_empty_iff, leadingSlashes_eq_zero_iff]
    exact fun h => hslash (List.mem_of_head? h)
  · show ((splitSlash path.name).filter _).length ≤ 1
    refine (List.length_filter_le _ _).trans ?_
    rw [splitSlash, List.length_map, List.splitOn_eq_singleton hslash]
    exact Nat.le_refl 1

/-! ## What a batch of the hydrator calls -/

/-- Steps of a restore job that change no file outside of the root. -/
def InPlane (root : PurePosixPath) : RestoreOp → Prop
  | .readFile _ dest => Under root dest
  | .rename path target => Under root path ∧ Under root target
  | .unlink path => Under root path
  | _ => True

/-- The request is one the hydrator makes: its destination is the place of a record under the root. -/
def Stages (root : PurePosixPath) (request : RestoreJobRequest) : Prop :=
  ∃ id : Nat, request.destPath = root.join { root := "", parts := [toString id] }

theorem isName_suffix {suffix : String} (h : 3 ≤ suffix.length) (name : String) : IsName (name ++ suffix) := by
  have hlength : 3 ≤ (name ++ suffix).length := by
    rw [String.length_append]
    omega
  refine ⟨?_, ?_, ?_⟩ <;> (intro heq; rw [heq] at hlength; exact absurd hlength (by decide))

section batch

variable {root : PurePosixPath}

theorem yields_withName {path : PurePosixPath} (h : Within root path) {name : String} (hname : IsName name) :
    Yields (InPlane root) (Within root) (withName path name) := by
  obtain ⟨part, rest, hparts, hpart, hrest⟩ := h
  unfold withName PurePosixPath.withName
  by_cases hempty : path.name = ""
  · rw [if_pos hempty]
    exact yields_raise _
  · rw [if_neg hempty]
    refine yields_pure ?_
    match rest, hrest with
    | [], _ => exact ⟨name, [], by simp [hparts], hname, Nat.zero_le _⟩
    | [last], _ => exact ⟨part, [name], by simp [hparts, List.dropLast_append], hpart, Nat.le_refl 1⟩

theorem yields_batchDest {request : RestoreJobRequest} (h : Stages root request) :
    Yields (InPlane root) (Within root) (batchDest request) := by
  obtain ⟨id, hdest⟩ := h
  refine yields_bind (Only.yields (R := fun _ _ => True) (only_perform trivial)) fun isDir _ => ?_
  refine yields_ite (fun _ => yields_pure ?_) fun _ => yields_pure (hdest ▸ within_staged root id)
  obtain ⟨hroot, hparts⟩ := ofString_name (.ofString request.catalogPath) (wellFormed_ofString _)
  refine ⟨toString id, (PurePosixPath.ofString (PurePosixPath.ofString request.catalogPath).name).parts, ?_, isName_toString id, hparts⟩
  rw [PurePosixPath.join, if_pos hroot, hdest, PurePosixPath.join, if_pos rfl]
  simp

/-- A step that touches no file. -/
theorem calls_step {o : RestoreOp} (h : InPlane root o) : Calls (InPlane root) (step o) := only_perform h

theorem calls_restoreOneVerified {x : Located} (h : Stages root x.1) : Calls (InPlane root) (restoreOneVerified x) := by
  obtain ⟨request, record, row⟩ := x
  refine Yields.calls (Q := fun _ => True) ?_
  refine yields_bind (yields_batchDest h) fun finalDest hfinal => ?_
  refine yields_bind (yields_withName hfinal (isName_suffix (by decide) _)) fun temp htemp => ?_
  have htempUnder := htemp.under
  refine yields_bind (Q := fun _ => True) ?_ fun failed _ => ?_
  · refine Only.yields (R := fun _ _ => True) (only_handle ?_ fun e => ?_)
    · exact only_bind (calls_step htempUnder) fun _ => only_pure _
    · exact only_ite (fun _ => only_raise _) fun _ => only_bind (calls_step htempUnder) fun _ => only_pure _
  · cases failed with
    | some result => exact yields_pure trivial
    | none =>
      refine yields_bind (Only.yields (calls_step trivial)) fun actual _ => yields_ite (fun _ => ?_) fun _ => ?_
      · refine yields_bind (yields_withName hfinal (isName_suffix (by decide) _)) fun quarantine hquarantine => ?_
        exact Only.yields (only_bind (R := fun _ _ => True) (calls_step ⟨htempUnder, hquarantine.under⟩) fun _ => only_pure _)
      · exact Only.yields (only_bind (R := fun _ _ => True) (calls_step ⟨htempUnder, hfinal.under⟩) fun _ => only_pure _)

theorem calls_noteFenced (e : Exn) : Calls (InPlane root) (noteFenced e : RestoreM Unit) :=
  only_ite (fun _ => only_bind (only_assign fun _ => trivial) fun _ => only_raise _) fun _ => only_raise _

theorem calls_unloadTape (barcode : Barcode) : Calls (InPlane root) (unloadTape barcode) := by
  refine only_bind only_locals fun l => only_ite (fun _ => only_pure _) fun _ => ?_
  refine only_bind (only_handle (calls_step trivial) calls_noteFenced) fun _ => ?_
  exact only_ite (fun _ => calls_step trivial) fun _ => only_pure _

theorem calls_readGroup (barcode : Barcode) {group : List Located} (h : ∀ x ∈ group, Stages root x.1) :
    Calls (InPlane root) (readGroup barcode group) := by
  refine only_ensure (only_handle ?_ fun e => ?_) fun _ => calls_unloadTape barcode
  · refine only_bind (calls_step trivial) fun fromSlot => only_bind (only_assign fun _ => trivial) fun _ => ?_
    refine only_bind (calls_step trivial) fun _ => only_bind (calls_step trivial) fun _ => only_ensure ?_ fun _ => ?_
    · refine calls_forEach fun x hx => only_bind (calls_restoreOneVerified (h x hx)) fun result => ?_
      exact only_assign fun _ => trivial
    · refine only_bind (calls_step trivial) fun _ => only_handle (calls_step trivial) fun _ => ?_
      exact only_assign fun _ => trivial
  · exact only_ite (fun _ => calls_noteFenced e) fun _ => only_assign fun _ => trivial

theorem calls_restoreTapeGroup (barcode : Barcode) {group : List Located} (h : ∀ x ∈ group, Stages root x.1) :
    Calls (InPlane root) (restoreTapeGroup barcode group) := by
  refine calls_scope (only_bind (calls_step trivial) fun _ => ?_)
  refine only_bind (only_ensure (calls_readGroup barcode h) fun _ => calls_step trivial) fun _ => ?_
  exact only_bind only_locals fun l => only_pure _

/-- What a request waits with is the request. -/
theorem yields_locate (request : RestoreJobRequest) :
    Yields (InPlane root) (fun x => ∀ y, x.getRight? = some y → y.1 = request) (locate request) := by
  have hleft : ∀ {item : RestoreItemResult} (y : Located), (Sum.inl item : RestoreItemResult ⊕ Located).getRight? = some y →
      y.1 = request := by
    intro item y h
    cases h
  refine yields_bind (Q := fun _ => True) (Only.yields (R := fun _ _ => True) ?_) fun found _ => ?_
  · refine only_handle (only_bind (calls_step trivial) fun _ => only_pure _) fun e => ?_
    exact only_ite (fun _ => only_pure _) fun _ => only_raise _
  · cases found with
    | none => exact yields_pure hleft
    | some x =>
      refine yields_bind (Only.yields (calls_step trivial)) fun cartridge _ => yields_ite (fun _ => yields_pure hleft) fun _ => ?_
      refine yields_ite (fun _ => yields_pure hleft) fun _ => yields_pure ?_
      rintro y ⟨⟩
      rfl

/-- The groups hold what was put into them. -/
theorem mem_groups {xs : List Located} {groups : Dict Barcode (List Located)} {g : Barcode × List Located}
    (h : g ∈ xs.foldl addToGroup groups) {x : Located} (hx : x ∈ g.2) : x ∈ xs ∨ ∃ g' ∈ groups, x ∈ g'.2 := by
  induction xs generalizing groups with
  | nil => exact .inr ⟨g, h, hx⟩
  | cons x₀ xs ih =>
    rcases ih h with hlater | ⟨g', hg', hin⟩
    · exact .inl (List.mem_cons_of_mem _ hlater)
    · rcases Dict.mem_set hg' with hold | rfl
      · exact .inr ⟨g', hold, hin⟩
      · rcases List.mem_append.1 hin with hin | hin
        · cases hgroup : groups.get? x₀.2.2.barcode with
          | none =>
            rw [hgroup] at hin
            cases hin
          | some group =>
            rw [hgroup] at hin
            exact .inr ⟨_, Dict.mem_of_get? hgroup, hin⟩
        · rw [List.mem_singleton.1 hin]
          exact .inl List.mem_cons_self

theorem calls_setJobState (jobId : Nat) (state : String) (error : Option String) :
    Calls (InPlane root) (setJobState jobId state error) :=
  calls_step trivial

theorem calls_runRestoreBatch {requests : List RestoreJobRequest} (h : ∀ request ∈ requests, Stages root request) (jobId : Nat) :
    Calls (InPlane root) (runRestoreBatch requests jobId) := by
  refine Yields.calls (Q := fun _ => True) ?_
  refine yields_bind (Only.yields (calls_setJobState _ _ _)) fun _ _ => ?_
  refine yields_bind (Q := fun located => ∀ x ∈ located, ∀ y : Located, x.getRight? = some y → Stages root y.1) ?_
    fun located hlocated => ?_
  · refine yields_mapEach fun request hrequest => (yields_locate request).mono (fun _ ho => ho) fun x hx y hy => ?_
    exact hx y hy ▸ h request hrequest
  · have hgroups : ∀ g ∈ (located.filterMap Sum.getRight?).foldl addToGroup [], ∀ x ∈ g.2, Stages root x.1 := by
      intro g hg x hx
      rcases mem_groups hg hx with hx | ⟨_, hnone, _⟩
      · obtain ⟨y, hy, hright⟩ := List.mem_filterMap.1 hx
        exact hlocated y hy x hright
      · cases hnone
    refine yields_bind (yields_mapEach (Q := fun _ => True) fun g hg => Only.yields (R := fun _ _ => True) ?_) fun done _ => ?_
    · refine only_handle (calls_restoreTapeGroup g.1 (hgroups g hg)) fun e => ?_
      exact only_ite (fun _ => only_bind (calls_setJobState _ _ _) fun _ => only_raise _) fun _ => only_raise _
    · have hset : ∀ (state : String) (error : Option String) (result : RestoreBatchResult),
          Calls (InPlane root) (do setJobState jobId state error; pure result) :=
        fun _ _ _ => only_bind (calls_setJobState _ _ _) fun _ => only_pure _
      exact Only.yields (only_ite (fun _ => hset _ _ _) fun _ => hset _ _ _)

/-- A batch of the hydrator changes files under the staging root only. -/
theorem calls_enqueueRestoreBatch {requests : List RestoreJobRequest} (h : ∀ request ∈ requests, Stages root request) :
    Calls (InPlane root) (enqueueRestoreBatch requests) := by
  refine only_bind (calls_step trivial) fun jobId => only_bind (calls_step trivial) fun _ => ?_
  refine only_bind (calls_runRestoreBatch h jobId) fun result => only_bind ?_ fun state => only_pure _
  refine only_bind (calls_step trivial) fun found => ?_
  cases found with
  | some state => exact only_pure _
  | none => exact only_raise _

end batch

/-! ## The threads -/

/-- What is noted of a thread: whether it is of the data plane, where a job sent it last, and what it has read last. -/
structure PlaneNote where
  mine : Bool
  resumed : Option PurePosixPath := none
  read : Option PurePosixPath := none
  deriving Repr, DecidableEq

/-- A store that raises for the checksum has read the file, too. -/
def planeNote (n : PlaneNote) : (o : HydratorOp) → Except Exn o.Ans → PlaneNote
  | .resumeJob .., .ok staged => { n with resumed := some staged }
  | .storeVerified _ staged, .ok _ => { n with read := some staged }
  | .storeVerified _ staged, .error e => if isChecksumError e then { n with read := some staged } else n
  | _, _ => n

/-- A thread of the data plane stores what is under the root, or where a job sent it, and discards what it has read. -/
def PlaneAllowed (root : PurePosixPath) (n : PlaneNote) : HydratorOp → Prop
  | .job o => n.mine = true → InPlane root o
  | .storeVerified _ staged => n.mine = true → Under root staged ∨ n.resumed = some staged
  | .discardStaged staged => n.mine = true → n.read = some staged
  | .writeFile .. | .removeFile _ => n.mine = false
  | _ => True

/-- The steps that are allowed always, and of which nothing is noted. -/
def IsTame (root : PurePosixPath) : HydratorOp → Prop
  | .job o => InPlane root o
  | .resumeJob .. | .storeVerified .. | .discardStaged _ | .writeFile .. | .removeFile _ => False
  | _ => True

section threads

variable {α : Type} {root : PurePosixPath}

/-- The weakest precondition of a procedure that keeps to the plane. -/
abbrev Keeping (root : PurePosixPath) (m : HydratorM α) (N : α → TapeLocals → PlaneNote → Prop)
    (E : Exn → TapeLocals → PlaneNote → Prop) (l : TapeLocals) (n : PlaneNote) : Prop :=
  Proc.wp (havoc planeNote) (.protocolFor (fun _ _ => True) (PlaneAllowed root)) m N E l n

theorem keeping_bind {β : Type} {m : HydratorM α} {f : α → HydratorM β} {N : β → TapeLocals → PlaneNote → Prop}
    {E : Exn → TapeLocals → PlaneNote → Prop} {l : TapeLocals} {n : PlaneNote} :
    Keeping root (m >>= f) N E l n ↔ Keeping root m (fun a => Keeping root (f a) N E) E l n := wp_bind m f

theorem keeping_handle {m : HydratorM α} {h : Exn → HydratorM α} {N : α → TapeLocals → PlaneNote → Prop}
    {E : Exn → TapeLocals → PlaneNote → Prop} {l : TapeLocals} {n : PlaneNote} :
    Keeping root (handle m h) N E l n ↔ Keeping root m N (fun e => Keeping root (h e) N E) l n := wp_handle m h

theorem tame_allowed {o : HydratorOp} (h : IsTame root o) (n : PlaneNote) : PlaneAllowed root n o ∧ ∀ a, planeNote n o a = n := by
  cases o with
  | job o => exact ⟨fun _ => h, fun _ => rfl⟩
  | resumeJob | storeVerified | discardStaged | writeFile | removeFile => exact h.elim
  | _ => exact ⟨trivial, fun _ => rfl⟩

theorem keeping_tame {m : HydratorM α} {Q : α → Prop} (h : Yields (IsTame root) Q m) {N : α → TapeLocals → PlaneNote → Prop}
    {E : Exn → TapeLocals → PlaneNote → Prop} {l : TapeLocals} {n : PlaneNote} (hN : ∀ a l', Q a → N a l' n)
    (hE : ∀ e l', E e l' n) : Keeping root m N E l n :=
  h.wp_obeys (fun _ ho => tame_allowed ho n) hN hE

theorem calls_tame {o : HydratorOp} (h : IsTame root o) : Calls (IsTame root) (hydrator o) := only_perform h

theorem calls_tameJob {m : RestoreM α} (h : Calls (InPlane root) m) : Calls (IsTame root) (ofJob m) := Only.embed h fun _ ho => ho

theorem calls_failAll (batch : List Ticket) (reason : String) : Calls (IsTame root) (failAll batch reason) :=
  only_forEach (fun t => calls_tame (show IsTame root (.fail t reason) from trivial)) batch

/-- Whatever becomes of the store, only what was read is discarded. -/
theorem keeping_commit {t : Ticket} {staged : Option PurePosixPath} {n : PlaneNote}
    (h : ∀ path, staged = some path → Under root path ∨ n.resumed = some path) {N : Unit → TapeLocals → PlaneNote → Prop}
    {E : Exn → TapeLocals → PlaneNote → Prop} {l : TapeLocals} (hN : ∀ l' read, N () l' { n with read := read })
    (hE : ∀ e l' read, E e l' { n with read := read }) : Keeping root (commit t staged) N E l n := by
  have hfail : ∀ (reason : String) (read : Option PurePosixPath) (l' : TapeLocals),
      Keeping root (hydrator (.fail t reason)) N E l' { n with read := read } := fun reason read l' =>
    keeping_tame (Only.yields (calls_tame (show IsTame root (.fail t reason) from trivial))) (fun _ l'' _ => hN l'' read)
      fun e l'' => hE e l'' read
  cases staged with
  | none => exact hfail _ n.read l
  | some path =>
    -- what is read is what may be discarded
    have hdiscard : ∀ (N' : Unit → TapeLocals → PlaneNote → Prop) (l' : TapeLocals),
        N' () l' { n with read := some path } →
        Keeping root (hydrator (.discardStaged path)) N' E l' { n with read := some path } := fun N' l' hN' =>
      Proc.wp_obeys (show PlaneAllowed root { n with read := some path } (.discardStaged path) from fun _ => rfl)
        (fun _ _ => hN') fun e _ => hE e l' (some path)
    rw [commit, keeping_bind, tryStore, keeping_handle, keeping_bind]
    refine Proc.wp_obeys (show PlaneAllowed root n (.storeVerified t.checksum path) from fun _ => h path rfl) (fun _ _ => ?_) fun e _ => ?_
    · refine keeping_bind.2 (hdiscard _ l ?_)
      exact keeping_tame (Only.yields (calls_tame (show IsTame root (.finish t) from trivial))) (fun _ l'' _ => hN l'' (some path))
        fun e l'' => hE e l'' (some path)
    · show Keeping root (if isChecksumError e = true then _ else _) N E l (if isChecksumError e = true then _ else n)
      by_cases hchecksum : isChecksumError e = true
      · rw [if_pos hchecksum, if_pos hchecksum, keeping_bind]
        exact hdiscard _ l (hfail _ (some path) l)
      · rw [if_neg hchecksum, if_neg hchecksum]
        by_cases hos : isOSError e = true
        · rw [if_pos hos]
          exact hfail _ n.read l
        · rw [if_neg hos]
          exact hE e l n.read

/-- A batch is staged under the root. -/
theorem yields_restoreBatch (config : HydratorConfig) (paths : List String) :
    Yields (IsTame config.stagingRoot) (fun staged => ∀ p ∈ staged, Under config.stagingRoot p.2) (restoreBatch config paths) := by
  have hplace : ∀ id : Nat, Under config.stagingRoot (config.stagingRoot.join { root := "", parts := [toString id] }) := fun id =>
    (within_staged _ id).under
  refine yields_bind (Q := fun pairs : List (String × PurePosixPath) => ∀ p ∈ pairs, ∃ id : Nat,
    p.2 = config.stagingRoot.join { root := "", parts := [toString id] }) ?_ fun pairs hpairs => ?_
  · refine yields_mapEach fun path _ => yields_bind (Only.yields (calls_tameJob (calls_step trivial))) fun found _ => ?_
    cases found with
    | none => exact yields_raise _
    | some record =>
      exact yields_bind (Only.yields (calls_tameJob (calls_step trivial))) fun _ _ => yields_pure ⟨record.id, rfl⟩
  · have hstaged : ∀ p ∈ Dict.ofPairs pairs, ∃ id : Nat, p.2 = config.stagingRoot.join { root := "", parts := [toString id] } :=
      fun p hp => hpairs p (Dict.mem_of_mem_ofPairs hp)
    refine yields_bind (Only.yields (calls_tameJob (calls_enqueueRestoreBatch ?_))) fun outcome _ => ?_
    · intro request hrequest
      obtain ⟨p, hp, rfl⟩ := List.mem_map.1 hrequest
      exact hstaged p hp
    · refine yields_ite (fun _ => yields_raise _) fun _ => yields_pure fun p hp => ?_
      obtain ⟨id, hid⟩ := hstaged p hp
      exact hid ▸ hplace id

theorem keeping_flush (config : HydratorConfig) (tapeKey : String) (l : TapeLocals) (n : PlaneNote) :
    Keeping config.stagingRoot (flush config tapeKey) (fun _ _ _ => True) (fun _ _ _ => True) l n := by
  have hfailAll : ∀ (batch : List Ticket) (reason : String) (l' : TapeLocals),
      Keeping config.stagingRoot (failAll batch reason) (fun _ _ _ => True) (fun _ _ _ => True) l' n := fun batch reason l' =>
    keeping_tame (Only.yields (calls_failAll batch reason)) (fun _ _ _ => trivial) fun _ _ => trivial
  rw [flush, keeping_bind]
  refine keeping_tame (Only.yields (calls_tame (show IsTame _ (.takeBatch tapeKey) from trivial))) ?_ fun _ _ => trivial
  rintro ⟨closed, batch⟩ l' -
  show Keeping config.stagingRoot (if closed = true then _ else _) _ _ l' n
  by_cases hclosed : closed = true
  · rw [if_pos hclosed]
    exact hfailAll batch _ l'
  · rw [if_neg hclosed]
    by_cases hbatch : batch = []
    · rw [if_pos hbatch]
      exact trivial
    · rw [if_neg hbatch, keeping_bind, tryRestore, keeping_handle, keeping_bind]
      refine keeping_tame (yields_restoreBatch config _) (fun staged l'' hstaged => ?_) fun e l'' => hfailAll batch _ l''
      -- each commit leaves the note as it is, but for what was read last
      refine wp_forEach _ batch (fun _ _ n' => ∃ read, n' = { n with read := read }) ⟨n.read, rfl⟩ ?_ fun _ _ _ => trivial
      rintro _ t _ l₁ _ _ ⟨read, rfl⟩
      refine keeping_commit (fun path hpath => .inl ?_) (fun _ read' => ⟨read', rfl⟩) fun _ _ _ => trivial
      exact hstaged _ (Dict.mem_of_get? hpath)

theorem keeping_resume (t : Ticket) (jobId : Nat) (l : TapeLocals) (n : PlaneNote) :
    Keeping root (resume t jobId) (fun _ _ _ => True) (fun _ _ _ => True) l n := by
  have hfail : ∀ (reason : String) (n' : PlaneNote) (l' : TapeLocals),
      Keeping root (hydrator (.fail t reason)) (fun _ _ _ => True) (fun _ _ _ => True) l' n' := fun reason n' l' =>
    keeping_tame (Only.yields (calls_tame (show IsTame root (.fail t reason) from trivial))) (fun _ _ _ => trivial) fun _ _ => trivial
  have hfails : ∀ (e : Exn) (l' : TapeLocals) (n' : PlaneNote), Keeping root
      (if e.cls = .other "HydrationTimeoutError" then hydrator (.fail t ("restore job " ++ toString jobId ++ " timed out"))
        else if e.cls = .other "HydrationFailedError" ∨ e.cls.isOpenBladeError ∨ isOSError e ∨ e.cls = .keyError then
          hydrator (.fail t ("restore job " ++ toString jobId ++ " did not complete"))
        else hydrator (.fail t unexpected)) (fun _ _ _ => True) (fun _ _ _ => True) l' n' := by
    intro e l' n'
    split
    · exact hfail _ n' l'
    · split
      · exact hfail _ n' l'
      · exact hfail _ n' l'
  rw [resume, keeping_handle, keeping_bind]
  refine Proc.wp_obeys (show PlaneAllowed root n (.resumeJob jobId t.catalogPath) from trivial) (fun staged _ => ?_) fun e _ => ?_
  · have hsent : ∀ path, some staged = some path → Under root path ∨ ({ n with resumed := some staged } : PlaneNote).resumed = some path :=
      fun _ hpath => .inr hpath
    exact keeping_commit hsent (fun _ _ => trivial) fun e l' read => hfails e l' _
  · exact hfails e l n

theorem calls_tameLookup (path : String) (record : FileRecord) : Calls (IsTame root) (lookup path record) := by
  refine only_bind (calls_tame (show IsTame root (.findActiveJob path) from trivial)) fun found => ?_
  cases found with
  | some jobId => exact only_pure _
  | none =>
    refine only_bind (only_handle ?_ fun e => ?_) fun tapeKey => only_pure _
    · exact only_bind (calls_tameJob (calls_step trivial)) fun _ => only_pure _
    · exact only_ite (fun _ => only_pure _) fun _ => only_raise _

/-- A request changes no file at all. -/
theorem calls_request (path : String) : Calls (IsTame root) (request path) := by
  refine only_bind (calls_tameJob (calls_step trivial)) fun found => ?_
  cases found with
  | none => exact only_raise _
  | some record =>
    refine only_bind (calls_tame (show IsTame root (.claim path record.checksumSha256) from trivial)) fun answer => ?_
    cases answer with
    | existing t => exact only_pure t
    | cached t => exact only_pure t
    | fresh t =>
      refine only_bind (only_handle (calls_tameLookup path record) fun e => ?_) fun found => ?_
      · exact only_bind (calls_tame (show IsTame root (.forget t) from trivial)) fun _ => only_raise _
      · cases found with
        | inl jobId => exact only_bind (calls_tame (show IsTame root (.spawnResume t jobId) from trivial)) fun _ => only_pure _
        | inr tapeKey =>
          refine only_bind (calls_tame (show IsTame root (.enqueue t tapeKey) from trivial)) fun queued => ?_
          cases queued with
          | closed => exact only_bind (calls_tame (show IsTame root (.fail t unmounting) from trivial)) fun _ => only_pure _
          | waiting => exact only_pure t
          | armed => exact only_pure t

/-- A thread may end in any way. -/
theorem obeys_background {m : HydratorM α} {n : PlaneNote}
    (h : Keeping root m (fun _ _ _ => True) (fun _ _ _ => True) {} n) :
    (background m).Obeys planeNote (fun _ _ => True) (PlaneAllowed root) (fun _ _ => True) n := by
  have hbind : Keeping root (do let _ ← m; pure none : HydratorM (Option Ticket)) (fun _ _ _ => True) (fun _ _ _ => True) {} n :=
    keeping_bind.2 h
  exact Prog.wp_mono hbind fun _ _ _ => trivial

/-- What is not of the data plane may do anything. -/
theorem obeys_other (p : HydratorThread) {n : PlaneNote} (hn : n.mine = false) :
    p.Obeys planeNote (fun _ _ => True) (PlaneAllowed root) (fun _ _ => True) n := by
  have hstable : Stable (havoc planeNote) (.protocolFor (fun _ _ => True) (PlaneAllowed root)) (fun _ => True)
      (fun n' => n'.mine = false) := by
    rintro o - n' _ c hn' rfl -
    have hallowed : PlaneAllowed root n' o := by
      cases o <;> simp [PlaneAllowed, hn']
    refine ⟨hallowed, ?_⟩
    show (planeNote n' o (c o)).mine = false
    unfold planeNote
    split <;> first | exact hn' | (split <;> exact hn')
  exact Prog.wp_mono (p.only_any.wp hstable hn) fun _ _ _ => trivial

theorem obeys_thread (call : HydratorCall) :
    call.thread.Obeys planeNote (fun _ _ => True) (PlaneAllowed root) (fun _ _ => True) { mine := call.isHydration } := by
  cases call with
  | request path =>
    have hrequest : Calls (IsTame root) (do let t ← request path; pure (some t) : HydratorM (Option Ticket)) :=
      only_bind (calls_request path) fun _ => only_pure _
    have hkeeping : Keeping root _ (fun _ _ _ => True) (fun _ _ _ => True) {} { mine := true } :=
      keeping_tame (Only.yields hrequest) (fun _ _ _ => trivial) fun _ _ => trivial
    exact Prog.wp_mono hkeeping fun _ _ _ => trivial
  | shutdown =>
    have hshutdown : Calls (IsTame root) shutdown :=
      only_bind (calls_tame (show IsTame root .close from trivial)) fun pending => calls_failAll pending _
    exact obeys_background (keeping_tame (Only.yields hshutdown) (fun _ _ _ => trivial) fun _ _ => trivial)
  | enqueueRestore | enqueueRestoreBatch | insertJob | setJob | setCatalog | writeFile | removeFile | evict => exact obeys_other _ rfl

/-- The notes of the threads a step starts. -/
def planeGiven : (o : HydratorOp) → Except Exn o.Ans → List PlaneNote
  | .spawnResume .., .ok _ => [{ mine := true }]
  | .enqueue .., .ok .armed => [{ mine := true }]
  | _, _ => []

theorem planeGiven_mine {o : HydratorOp} {a : Except Exn o.Ans} {n : PlaneNote} (h : n ∈ planeGiven o a) : n = { mine := true } := by
  unfold planeGiven at h
  split at h
  · exact List.mem_singleton.1 h
  · exact List.mem_singleton.1 h
  · cases h

theorem obeys_forks (config : HydratorConfig) (o : HydratorOp) (a : Except Exn o.Ans) :
    System.Obeying planeNote (fun _ _ => True) (PlaneAllowed config.stagingRoot) (fun _ _ => True) (hydratorForks config o a)
      (planeGiven o a) := by
  cases o with
  | spawnResume t jobId =>
    cases a with
    | error e => exact .nil
    | ok _ => exact .cons (obeys_background (keeping_resume t jobId {} _)) .nil
  | enqueue t tapeKey =>
    match a with
    | .error e => exact .nil
    | .ok .closed => exact .nil
    | .ok .waiting => exact .nil
    | .ok .armed => exact .cons (obeys_background (keeping_flush config tapeKey {} _)) .nil
  | _ => exact .nil

end threads

/-! ## Steps -/

section steps

variable {config : HydratorConfig} {s : HydratorState} {choice : RestoreChoice} {n : PlaneNote} {loc : Location}

theorem get?_set_outside {root path : PurePosixPath} (hpath : Under root path) (hloc : ¬root.location <+: loc)
    (files : Dict Location Bytes) (data : Bytes) : (files.set path.location data).get? loc = files.get? loc := by
  rw [Dict.get?_set, if_neg]
  exact fun h => hloc (h ▸ hpath)

theorem get?_erase_outside {root path : PurePosixPath} (hpath : Under root path) (hloc : ¬root.location <+: loc)
    (files : Dict Location Bytes) : (files.erase path.location).get? loc = files.get? loc := by
  rw [Dict.get?_erase, if_neg]
  exact fun h => hloc (h ▸ hpath)

theorem files_restoreExec {root : PurePosixPath} {o : RestoreOp} (ho : InPlane root o) (hloc : ¬root.location <+: loc)
    (sha256 : Bytes → String) (w : RestoreWorld) : (w.exec sha256 choice o).2.files.get? loc = w.files.get? loc := by
  unfold RestoreWorld.exec
  split
  · rfl
  · cases o with
    | readFile row dest => exact get?_set_outside ho hloc _ _
    | unlink path => exact get?_erase_outside ho hloc _
    | rename path target =>
      simp only [RestoreWorld.perform]
      split
      · rfl
      · exact (get?_set_outside ho.2 hloc _ _).trans (get?_erase_outside ho.1 hloc _)
    | updateJobState jobId state error =>
      simp only [RestoreWorld.perform]
      split <;> rfl
    | sha256sum path =>
      simp only [RestoreWorld.perform]
      split <;> rfl
    | _ => rfl

/-- What a thread of the data plane is allowed to do changes no file outside of the root, if what it has read is not outside. -/
theorem files_exec {o : HydratorOp} (hmine : n.mine = true) (ho : PlaneAllowed config.stagingRoot n o)
    (hread : ∀ path, n.read = some path → Under config.stagingRoot path) (hloc : ¬config.stagingRoot.location <+: loc) :
    (s.exec config choice o).2.world.files.get? loc = s.world.files.get? loc := by
  cases o with
  | job o => exact files_restoreExec (ho hmine) hloc _ _
  | discardStaged path =>
    have hpath := hread path (ho hmine)
    unfold HydratorState.exec
    split
    · rfl
    · exact get?_erase_outside hpath hloc _
  | writeFile | removeFile =>
    rw [show n.mine = false from ho] at hmine
    cases hmine
  | claim path checksum =>
    show (s.claim choice path checksum).2.world.files.get? loc = _
    unfold HydratorState.claim
    split
    · rfl
    · split
      · rfl
      · split
        · rfl
        · split <;> rfl
  | forget t =>
    show (if _ then { s with tickets := _ } else s : HydratorState).world.files.get? loc = _
    split <;> rfl
  | enqueue t tapeKey =>
    show (s.enqueue t tapeKey).2.world.files.get? loc = _
    simp only [HydratorState.enqueue]
    split
    · rfl
    · split <;> rfl
  | findActiveJob path =>
    unfold HydratorState.exec
    split <;> rfl
  | resumeJob jobId path =>
    unfold HydratorState.exec
    split <;> rfl
  | storeVerified checksum staged =>
    show (s.storeVerified config choice checksum staged).2.world.files.get? loc = _
    unfold HydratorState.storeVerified
    split
    · rfl
    · rfl
    · split <;> rfl
  | _ => rfl

theorem planeNote_mine (n : PlaneNote) (o : HydratorOp) (a : Except Exn o.Ans) : (planeNote n o a).mine = n.mine := by
  unfold planeNote
  split <;> first | rfl | (split <;> rfl)

/-- Where a thread was sent, the row of a job has sent it. -/
theorem resumed_exec {o : HydratorOp} {path : PurePosixPath} (h : (planeNote n o (s.exec config choice o).1).resumed = some path) :
    n.resumed = some path ∨ ∃ jobId name, o = .resumeJob jobId name ∧ s.resumeJob jobId name = .ok path := by
  cases o with
  | resumeJob jobId name =>
    cases hans : (s.exec config choice (.resumeJob jobId name)).1 with
    | error e =>
      rw [hans] at h
      exact .inl h
    | ok staged =>
      rw [hans] at h
      obtain rfl : staged = path := Option.some.inj h
      refine .inr ⟨jobId, name, rfl, ?_⟩
      simp only [HydratorState.exec] at hans
      split at hans
      · cases hans
      · exact hans
  | storeVerified checksum staged =>
    have hsame : ∀ a, (planeNote n (.storeVerified checksum staged) a).resumed = n.resumed := by
      intro a
      cases a with
      | ok _ => rfl
      | error e =>
        simp only [planeNote]
        split <;> rfl
    exact .inl (hsame _ ▸ h)
  | _ => exact .inl h

/-- What a thread has read was there. -/
theorem read_exec {o : HydratorOp} {path : PurePosixPath} (h : (planeNote n o (s.exec config choice o).1).read = some path) :
    n.read = some path ∨ ∃ checksum, o = .storeVerified checksum path ∧ s.world.file? path ≠ none := by
  cases o with
  | resumeJob jobId name =>
    have hsame : ∀ a, (planeNote n (.resumeJob jobId name) a).read = n.read := by
      intro a
      cases a <;> rfl
    exact .inl (hsame _ ▸ h)
  | storeVerified checksum staged =>
    replace h : (planeNote n (.storeVerified checksum staged) (s.storeVerified config choice checksum staged).1).read = some path := h
    unfold HydratorState.storeVerified at h
    split at h
    · exact .inl h
    · exact .inl h
    · rename_i data _ hfile
      have hthere : s.world.file? staged ≠ none := by
        rw [hfile]
        exact Option.some_ne_none data
      split at h
      · obtain rfl : staged = path := Option.some.inj h
        exact .inr ⟨checksum, rfl, hthere⟩
      · obtain rfl : staged = path := Option.some.inj h
        exact .inr ⟨checksum, rfl, hthere⟩
  | _ => exact .inl h

end steps

/-! ## Runs -/

section runs

variable {config : HydratorConfig} {calls : List HydratorCall} {turns : List HydratorTurn}

/-- What holds after every turn. -/
structure PlaneTracked (config : HydratorConfig) (calls : List HydratorCall) (turns : List HydratorTurn) (notes : List PlaneNote) :
    Prop where
  mine : ∀ (i : Nat) (n : PlaneNote), notes[i]? = some n → n.mine = false → ¬Hydrating calls i
  sent : ∀ (i : Nat) (n : PlaneNote) (path : PurePosixPath), notes[i]? = some n → n.resumed = some path →
    ∃ y ∈ turns, y.thread = i ∧ ∃ jobId name, y.step.op = .resumeJob jobId name ∧ y.step.pre.resumeJob jobId name = .ok path
  read : ResumesStaged config turns → ∀ n ∈ notes, n.mine = true → ∀ path, n.read = some path → Under config.stagingRoot path
  staged : ResumesStaged config turns → StagedOnly config calls turns

/-- The note at a place after a turn: the new one, one that was there, or one of a thread that was started. -/
theorem note_at {notes notes' more : List PlaneNote} {m m' n : PlaneNote} {i : Nat}
    (h : (notes ++ m' :: notes' ++ more)[i]? = some n) :
    (i = notes.length ∧ n = m') ∨ (notes ++ m :: notes')[i]? = some n ∨ n ∈ more := by
  rcases Nat.lt_trichotomy i notes.length with hlt | rfl | hgt
  · rw [List.append_assoc, List.getElem?_append_left hlt] at h
    exact .inr (.inl (by rw [List.getElem?_append_left hlt, h]))
  · rw [List.append_assoc, List.getElem?_append_right (Nat.le_refl _), Nat.sub_self, List.cons_append, List.getElem?_cons_zero] at h
    exact .inl ⟨rfl, (Option.some.inj h).symm⟩
  · obtain ⟨k, rfl⟩ : ∃ k, i = notes.length + (k + 1) := ⟨i - notes.length - 1, by omega⟩
    rw [List.append_assoc, List.getElem?_append_right (by omega), Nat.add_sub_cancel_left, List.cons_append,
      List.getElem?_cons_succ] at h
    rw [List.getElem?_append_right (by omega), Nat.add_sub_cancel_left, List.getElem?_cons_succ]
    by_cases hk : k < notes'.length
    · rw [List.getElem?_append_left hk] at h
      exact .inr (.inl h)
    · rw [List.getElem?_append_right (by omega)] at h
      exact .inr (.inr (List.mem_of_getElem? h))

theorem PlaneTracked.step {s : HydratorState} {before after : List HydratorThread} {o : HydratorOp}
    {k : Except Exn o.Ans → HydratorThread} {notes notes' : List PlaneNote} {n : PlaneNote} (choice : RestoreChoice)
    (h : PlaneTracked config calls turns (notes ++ n :: notes')) (hlength : before.length = notes.length)
    (hallowed : PlaneAllowed config.stagingRoot n o) :
    PlaneTracked config calls
      (turns ++ [{ before := { state := s, threads := before ++ .call o k :: after }, thread := before.length
                   step := (hydratorMachine config).step s o choice }])
      (notes ++ planeNote n o (s.exec config choice o).1 :: notes' ++ planeGiven o (s.exec config choice o).1) := by
  generalize hx : ({ before := { state := s, threads := before ++ .call o k :: after }, thread := before.length
                     step := (hydratorMachine config).step s o choice } : HydratorTurn) = x
  have hthread : x.thread = notes.length := by rw [← hx, ← hlength]
  have hop : x.step.op = o ∧ x.step.pre = s ∧ x.step.post = (s.exec config choice o).2 := by
    rw [← hx]
    exact ⟨rfl, rfl, rfl⟩
  have hn : (notes ++ n :: notes')[notes.length]? = some n := by simp
  have hearlier : ResumesStaged config (turns ++ [x]) → ResumesStaged config turns := fun hres y hy z hz =>
    hres y (List.mem_append_left _ hy) z (List.mem_append_left _ hz)
  refine ⟨fun i n' hi hfalse => ?_, fun i n' path hi hpath => ?_, fun hres n' hn' hmine path hpath => ?_, fun hres z hz hydrating => ?_⟩
  · rcases note_at (m := n) hi with ⟨rfl, rfl⟩ | hold | hgiven
    · exact h.mine _ n hn (planeNote_mine n o _ ▸ hfalse)
    · exact h.mine i n' hold hfalse
    · rw [planeGiven_mine hgiven] at hfalse
      cases hfalse
  · have hlater : (∃ y ∈ turns, y.thread = i ∧ ∃ jobId name, y.step.op = .resumeJob jobId name ∧
        y.step.pre.resumeJob jobId name = .ok path) → ∃ y ∈ turns ++ [x], y.thread = i ∧ ∃ jobId name,
          y.step.op = .resumeJob jobId name ∧ y.step.pre.resumeJob jobId name = .ok path :=
      fun ⟨y, hy, hsent⟩ => ⟨y, List.mem_append_left _ hy, hsent⟩
    rcases note_at (m := n) hi with ⟨rfl, rfl⟩ | hold | hgiven
    · rcases resumed_exec hpath with hsame | ⟨jobId, name, rfl, hresume⟩
      · exact hlater (h.sent _ n path hn hsame)
      · exact ⟨x, List.mem_append_right _ (List.mem_singleton.2 rfl), hthread, jobId, name, hop.1, by rw [hop.2.1, hresume]⟩
    · exact hlater (h.sent i n' path hold hpath)
    · rw [planeGiven_mine hgiven] at hpath
      cases hpath
  · have hold := h.read (hearlier hres)
    obtain ⟨i, hi⟩ := List.mem_iff_getElem?.1 hn'
    rcases note_at (m := n) hi with ⟨rfl, rfl⟩ | hbefore | hgiven
    · rw [planeNote_mine] at hmine
      rcases read_exec hpath with hsame | ⟨checksum, rfl, hthere⟩
      · exact hold n (by simp) hmine path hsame
      · rcases hallowed hmine with hunder | hsent
        · exact hunder
        · -- a job has sent the thread to this file
          obtain ⟨y, hy, hythread, jobId, name, hyop, hysent⟩ := h.sent _ n path hn hsent
          refine (hres y (List.mem_append_left _ hy) x (List.mem_append_right _ (List.mem_singleton.2 rfl)) (by rw [hythread, hthread])
            jobId name checksum path hyop hysent hop.1).resolve_right ?_
          rw [hop.2.1]
          exact hthere
    · exact hold n' (List.mem_of_getElem? hbefore) hmine path hpath
    · rw [planeGiven_mine hgiven] at hpath
      cases hpath
  · rcases List.mem_append.1 hz with hz | hz
    · exact h.staged (hearlier hres) z hz hydrating
    · obtain rfl := List.mem_singleton.1 hz
      intro loc hloc
      have hmine : n.mine = true := by
        by_contra hfalse
        exact h.mine _ n hn (by simpa using hfalse) (hthread ▸ hydrating)
      rw [hop.2.1, hop.2.2]
      exact files_exec hmine hallowed (h.read (hearlier hres) n (by simp) hmine) hloc

theorem planeTracked_start (config : HydratorConfig) (calls : List HydratorCall) :
    PlaneTracked config calls [] (calls.map fun call => { mine := call.isHydration }) := by
  refine ⟨fun i n hi hmine hydrating => ?_, fun i n path hi hpath => ?_, fun _ n hn _ path hpath => ?_, fun _ _ hx => nomatch hx⟩
  · rw [List.getElem?_map] at hi
    obtain ⟨call, hcall, rfl⟩ := Option.map_eq_some_iff.1 hi
    rw [hydrating call hcall] at hmine
    cases hmine
  · rw [List.getElem?_map] at hi
    obtain ⟨call, -, rfl⟩ := Option.map_eq_some_iff.1 hi
    cases hpath
  · obtain ⟨call, -, rfl⟩ := List.mem_map.1 hn
    cases hpath

end runs

end StagedAux

open StagedAux

/-- **The hydrator removes no file that it did not stage, where jobs send it to none.** Requests, timers, workers, restore jobs of
others and whoever else changes jobs and files run in any interleaving, over any jobs table, and whatever is outside may fail. If
every destination that a completed job gives to a worker is under the staging root, or has no file when the worker comes to store
it, no step of the hydrator removes or changes a file outside of the staging root. -/
theorem plane_removes_staged_only (config : HydratorConfig) (world : RestoreWorld) (cached : Dict String Bytes)
    (calls : List HydratorCall) (sched : List (Nat × RestoreChoice))
    (h : ResumesStaged config (System.trace (hydratorMachine config) (hydratorForks config) sched (hydratorSystem world cached calls))) :
    StagedOnly config calls
      (System.trace (hydratorMachine config) (hydratorForks config) sched (hydratorSystem world cached calls)) := by
  have hstart : System.Obeying planeNote (fun _ _ => True) (PlaneAllowed config.stagingRoot) (fun _ _ => True)
      (hydratorSystem world cached calls).threads (calls.map fun call => { mine := call.isHydration }) :=
    List.forall₂_map_left_iff.2 (List.forall₂_map_right_iff.2 (List.forall₂_same.2 fun call _ => obeys_thread call))
  obtain ⟨notes, htracked, -⟩ := System.invariant_of_obeys (M := hydratorMachine config)
    (I := fun turns _ notes => PlaneTracked config calls turns notes) (fun o => ⟨.error { cls := .assertion, message := "" }⟩)
    (fun _ _ _ => trivial) (fun o a _ => obeys_forks config o a)
    (fun _ _ _ _ _ _ _ _ _ choice hlength _ htracked hallowed => htracked.step choice hlength hallowed) hstart
    (planeTracked_start config calls) sched
  exact htracked.staged h

/-- A file that is archived. -/
def attachedRecord : FileRecord where
  id := 1
  path := "/a"
  sizeBytes := 1
  checksumSha256 := "c"
  volumeGroupId := 0
  shardCount := none
  shardIndex := none
  blockSize := none
  shardProfile := none
  parentId := none
  createdAt := 0

def attachedWorld : RestoreWorld where
  catalog :=
    { records := [attachedRecord]
      instances := [{ id := 2, fileRecordId := 1, barcode := "T1", tapePath := "/a", state := .archived, createdAt := 0 }] }

def attachedConfig : HydratorConfig where
  sha256 _ := "c"
  stagingRoot := { root := "/", parts := ["staging"] }

/-- A restore of the file to `dest`, and a request for it. -/
def attachedCalls (dest : PurePosixPath) : List HydratorCall := [.enqueueRestore "/a" dest, .request "/a"]

/-- The restore has its job; the request finds it; the restore goes on to its end, and then the worker of the request. -/
def attachedSchedule : List (Nat × RestoreChoice) :=
  let idle : RestoreChoice := {}
  let reads : RestoreChoice := { bytes := [7] }
  List.replicate 3 (0, idle) ++ List.replicate 4 (1, idle) ++ List.replicate 20 (0, reads) ++ List.replicate 4 (2, idle)

def attachedTurns (dest : PurePosixPath) : List HydratorTurn :=
  System.trace (hydratorMachine attachedConfig) (hydratorForks attachedConfig) attachedSchedule
    (hydratorSystem attachedWorld [] (attachedCalls dest))

/-- A job that restores into the staging root, as one of the hydrator from before a restart does. -/
theorem plane_removes_staged_only_attached :
    StagedOnly attachedConfig (attachedCalls { root := "/", parts := ["staging", "1"] })
      (attachedTurns { root := "/", parts := ["staging", "1"] }) := by
  refine plane_removes_staged_only attachedConfig attachedWorld [] _ attachedSchedule fun y hy x _ _ jobId path checksum staged hop hsent _ => ?_
  have hunder : ((attachedTurns { root := "/", parts := ["staging", "1"] }).all fun y =>
      match y.step.op with
      | .resumeJob jobId path =>
        match y.step.pre.resumeJob jobId path with
        | .ok staged => decide (Under attachedConfig.stagingRoot staged)
        | .error _ => true
      | _ => true) = true := by decide +kernel
  have hy' := List.all_eq_true.1 hunder y hy
  rw [hop] at hy'
  simp only [hsent] at hy'
  exact .inl (of_decide_eq_true hy')

/-- A user restores a file to a place of their own, a hydration attaches to the job, and removes the user's file. -/
theorem commit_removes_user_file :
    let dest : PurePosixPath := { root := "/", parts := ["home", "x"] }
    (∃ x ∈ attachedTurns dest, x.thread = 2 ∧ x.step.pre.world.file? dest = some [7] ∧ x.step.post.world.file? dest = none) ∧
      ¬StagedOnly attachedConfig (attachedCalls dest) (attachedTurns dest) := by
  intro dest
  have hturn : ∃ x ∈ attachedTurns dest, x.thread = 2 ∧ x.step.pre.world.file? dest = some [7] ∧
      x.step.post.world.file? dest = none := by
    have hseen : (attachedTurns dest)[25]?.map (fun x => (x.thread, x.step.pre.world.file? dest, x.step.post.world.file? dest)) =
        some (2, some [7], none) := by
      subst dest
      decide +kernel
    obtain ⟨x, hx, hseen⟩ := Option.map_eq_some_iff.1 hseen
    obtain ⟨hthread, hfiles⟩ := Prod.mk.inj hseen
    obtain ⟨hpre, hpost⟩ := Prod.mk.inj hfiles
    exact ⟨x, List.mem_of_getElem? hx, hthread, hpre, hpost⟩
  refine ⟨hturn, fun h => ?_⟩
  obtain ⟨x, hx, hthread, hpre, hpost⟩ := hturn
  have hkept := h x hx (by rw [hthread]; exact nofun) dest.location (by subst dest; decide)
  rw [RestoreWorld.file?] at hpre hpost
  rw [hpre, hpost] at hkept
  cases hkept

end OpenBlade
