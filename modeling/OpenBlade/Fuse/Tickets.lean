import OpenBlade.Fuse.Hydrator

/-!
# Tickets

Requests, timers, workers and restore jobs in any interleaving. A ticket that was given to a caller is done, waits for an armed
timer, or is held by one thread that will see to it; and for each path one ticket at most is under way. That is so unless a lookup
raises in the request that took a ticket when another request has joined it: the ticket is taken back, but it was given away.
-/

namespace OpenBlade

open Effects Proc

/-- What a thread has to do with tickets: it works on those it holds, it is a request with a ticket of its own, or it is a request
that has its answer. -/
inductive TicketRole where
  | working (held : List Ticket)
  | requesting (t : Ticket)
  | returning (t : Ticket)
  deriving Repr, DecidableEq

namespace TicketRole

def held : TicketRole → List Ticket
  | working held => held
  | requesting t => [t]
  | returning _ => []

/-- What a step makes of the role. -/
def note (role : TicketRole) : (o : HydratorOp) → Except Exn o.Ans → TicketRole
  | .claim .., .ok (.existing t) => returning t
  | .claim .., .ok (.cached t) => returning t
  | .claim .., .ok (.fresh t) => requesting t
  | .forget _, _ => working []
  | .enqueue _ _, .ok .closed => role
  | .enqueue t _, _ => returning t
  | .spawnResume t _, _ => returning t
  | .fail t _, _ =>
    match role with
    | working held => working (held.erase t)
    | _ => returning t
  | .finish t, _ => working (role.held.erase t)
  | .takeBatch _, .ok (_, batch) => working batch
  | .close, .ok pending => working pending
  | _, _ => role

/-- A thread takes tickets while it has none, and completes or hands on those it has. -/
def Allowed : TicketRole → HydratorOp → Prop
  | returning _, _ => False
  | working held, .claim .. | working held, .takeBatch _ | working held, .close => held = []
  | working held, .fail t _ | working held, .finish t => t ∈ held
  | working _, .forget _ | working _, .enqueue .. | working _, .spawnResume .. => False
  | requesting t, .forget t' | requesting t, .enqueue t' _ | requesting t, .spawnResume t' _ | requesting t, .fail t' _ => t' = t
  | requesting _, .claim .. | requesting _, .takeBatch _ | requesting _, .close | requesting _, .finish _ => False
  | _, _ => True

/-- What a step can answer: what works on the tables of the hydrator does not raise, and a store raises what `_commit` sees to. -/
def Possible : (o : HydratorOp) → Except Exn o.Ans → Prop
  | .forget _, a | .enqueue .., a | .spawnResume .., a | .takeBatch _, a | .close, a | .fail .., a | .finish _, a
  | .discardStaged _, a => ∃ x, a = .ok x
  | .storeVerified .., a => ∀ e, a = .error e → isChecksumError e = true ∨ isOSError e = true
  | _, _ => True

/-- A thread ends with no ticket on its hands; a request that has its answer gives it. -/
def Done (value : Except Exn (Option Ticket) × TapeLocals) : TicketRole → Prop
  | working held => held = [] ∧ ∀ t, value.1 ≠ .ok (some t)
  | requesting _ => False
  | returning t => value.1 = .ok (some t)

/-- The roles of the threads a step starts. -/
def given : (o : HydratorOp) → Except Exn o.Ans → List TicketRole
  | .spawnResume t _, .ok _ => [working [t]]
  | .enqueue .., .ok .armed => [working []]
  | _, _ => []

/-- However a thread goes on, it sees to every ticket it holds: it completes it, hands it on, or takes it back and raises. -/
def SeesTo (role : TicketRole) (p : HydratorThread) : Prop := p.Obeys note Possible Allowed Done role

end TicketRole

/-- The role of each thread after some turns. -/
def rolesOf (calls : List HydratorCall) (turns : List HydratorTurn) : List TicketRole :=
  turns.foldl
    (fun roles x =>
      roles.modify x.thread (fun role => role.note x.step.op x.step.ans) ++ TicketRole.given x.step.op x.step.ans)
    (calls.map fun _ => .working [])

/-- The ticket was given to a caller. -/
def Returned (sys : HydratorSystem) (t : Ticket) : Prop := ∃ l, Prog.ret (.ok (some t), l) ∈ sys.threads

/-- The ticket waits for its tape, whose timer is armed. -/
def Waits (config : HydratorConfig) (sys : HydratorSystem) (t : Ticket) : Prop :=
  ∃ tapeKey batch, sys.state.pending.get? tapeKey = some batch ∧ t ∈ batch ∧ tapeKey ∈ sys.state.timers ∧
    background (flush config tapeKey) ∈ sys.threads

/-- One running thread holds the ticket, and will see to it. -/
def Owned (sys : HydratorSystem) (roles : List TicketRole) (t : Ticket) : Prop :=
  ∃ (i : Nat) (p : HydratorThread) (role : TicketRole), sys.threads[i]? = some p ∧ roles[i]? = some role ∧ t ∈ role.held ∧
    p.value? = none ∧ role.SeesTo p ∧ ∀ (j : Nat) (role' : TicketRole), roles[j]? = some role' → t ∈ role'.held → j = i

/-- Somebody has the ticket: a caller, the registry, a waiting list or a thread. -/
def InUse (sys : HydratorSystem) (roles : List TicketRole) (t : Ticket) : Prop :=
  Returned sys t ∨ sys.state.tickets.get? t.catalogPath = some t ∨ t ∈ sys.state.pending.flatMap Prod.snd ∨
    t ∈ roles.flatMap TicketRole.held

/-- What is asked of the tickets. -/
structure TicketsKept (config : HydratorConfig) (sys : HydratorSystem) (roles : List TicketRole) : Prop where
  returned : ∀ t, Returned sys t → sys.state.isDone t = true ∨ Waits config sys t ∨ Owned sys roles t
  single : ∀ t t', InUse sys roles t → InUse sys roles t' → sys.state.isDone t = false → sys.state.isDone t' = false →
    t.catalogPath = t'.catalogPath → t = t'

/-- No request takes back a ticket that was given to a caller. -/
def TakesBackNone (x : HydratorTurn) : Prop := ∀ t, x.step.op = .forget t → ¬Returned x.before t

namespace TicketAux

open TicketRole

/-! ## What the threads do -/

section threads

variable {α β : Type}

/-- The weakest precondition of a procedure that has the tickets of a role to see to. -/
abbrev Sees (m : HydratorM α) (N : α → TapeLocals → TicketRole → Prop) (E : Exn → TapeLocals → TicketRole → Prop)
    (l : TapeLocals) (role : TicketRole) : Prop :=
  Proc.wp (havoc note) (.protocolFor Possible Allowed) m N E l role

theorem sees_bind {m : HydratorM α} {f : α → HydratorM β} {N : β → TapeLocals → TicketRole → Prop}
    {E : Exn → TapeLocals → TicketRole → Prop} {l : TapeLocals} {role : TicketRole} :
    Sees (m >>= f) N E l role ↔ Sees m (fun a => Sees (f a) N E) E l role := wp_bind m f

theorem sees_handle {m : HydratorM α} {h : Exn → HydratorM α} {N : α → TapeLocals → TicketRole → Prop}
    {E : Exn → TapeLocals → TicketRole → Prop} {l : TapeLocals} {role : TicketRole} :
    Sees (handle m h) N E l role ↔ Sees m N (fun e => Sees (h e) N E) l role := wp_handle m h

/-- Steps that neither take a ticket nor give one up. -/
def isQuiet : HydratorOp → Bool
  | .claim .. | .forget _ | .enqueue .. | .spawnResume .. | .takeBatch _ | .close | .fail .. | .finish _ => false
  | _ => true

theorem note_quiet {o : HydratorOp} (h : isQuiet o = true) (role : TicketRole) (a : Except Exn o.Ans) : role.note o a = role := by
  cases o <;> first | rfl | cases h

theorem allowed_quiet {o : HydratorOp} (h : isQuiet o = true) {role : TicketRole} (hrole : ∀ t, role ≠ returning t) :
    Allowed role o := by
  cases role with
  | returning t => exact absurd rfl (hrole t)
  | working held => cases o <;> first | trivial | cases h
  | requesting t => cases o <;> first | trivial | cases h

/-- A procedure of such steps leaves the role as it is. -/
theorem sees_quiet {R : TapeLocals → TapeLocals → Prop} {m : HydratorM α} (h : Only (fun o => isQuiet o = true) R m) {role : TicketRole}
    (hrole : ∀ t, role ≠ returning t) {N : α → TapeLocals → TicketRole → Prop} {E : Exn → TapeLocals → TicketRole → Prop}
    {l : TapeLocals} (hN : ∀ a l', N a l' role) (hE : ∀ e l', E e l' role) : Sees m N E l role :=
  h.yields.wp_obeys (fun _ ho => ⟨allowed_quiet ho hrole, note_quiet ho role⟩) (fun a l' _ => hN a l') hE

/-- A step that cannot raise. -/
theorem sees_sure {o : HydratorOp} {role : TicketRole} (ha : Allowed role o) (hsure : ∀ a, Possible o a → ∃ x, a = .ok x)
    {N : o.Ans → TapeLocals → TicketRole → Prop} {E : Exn → TapeLocals → TicketRole → Prop} {l : TapeLocals}
    (hN : ∀ x, N x l (role.note o (.ok x))) : Sees (hydrator o) N E l role := by
  refine wp_obeys ha (fun x _ => hN x) fun e he => ?_
  obtain ⟨x, hx⟩ := hsure _ he
  cases hx

/-- A held ticket is completed. -/
theorem sees_fail {t : Ticket} {reason : String} {held : List Ticket} (ht : t ∈ held) {N : Unit → TapeLocals → TicketRole → Prop}
    {E : Exn → TapeLocals → TicketRole → Prop} {l : TapeLocals} (hN : N () l (working (held.erase t))) :
    Sees (hydrator (.fail t reason)) N E l (working held) :=
  sees_sure (show Allowed (working held) (.fail t reason) from ht) (fun _ h => h) fun _ => hN

theorem sees_finish {t : Ticket} {held : List Ticket} (ht : t ∈ held) {N : Unit → TapeLocals → TicketRole → Prop}
    {E : Exn → TapeLocals → TicketRole → Prop} {l : TapeLocals} (hN : N () l (working (held.erase t))) :
    Sees (hydrator (.finish t)) N E l (working held) :=
  sees_sure (show Allowed (working held) (.finish t) from ht) (fun _ h => h) fun _ => hN

theorem working_ne {held : List Ticket} (t : Ticket) : working held ≠ returning t := nofun

theorem requesting_ne {t' : Ticket} (t : Ticket) : requesting t' ≠ returning t := nofun

/-- Whatever becomes of the store, the ticket is completed and nothing is raised. -/
theorem sees_commit {t : Ticket} {staged : Option PurePosixPath} {held : List Ticket} (ht : t ∈ held)
    {N : Unit → TapeLocals → TicketRole → Prop} {E : Exn → TapeLocals → TicketRole → Prop} {l : TapeLocals}
    (hN : ∀ l', N () l' (working (held.erase t))) : Sees (commit t staged) N E l (working held) := by
  have hdiscard : ∀ (path : PurePosixPath) (l' : TapeLocals) {N' : Unit → TapeLocals → TicketRole → Prop}, N' () l' (working held) →
      Sees (hydrator (.discardStaged path)) N' E l' (working held) :=
    fun path l' N' h =>
      sees_sure (show Allowed (working held) (.discardStaged path) from trivial) (fun _ h => h) fun _ => h
  cases staged with
  | none => exact sees_fail ht (hN l)
  | some path =>
    rw [commit, sees_bind, tryStore, sees_handle, sees_bind]
    refine wp_obeys (show Allowed (working held) (.storeVerified t.checksum path) from trivial) (fun _ _ => ?_) fun e he => ?_
    · refine sees_bind.2 (hdiscard path l ?_)
      exact sees_finish ht (hN l)
    · have hraised : isChecksumError e = true ∨ isOSError e = true := he e rfl
      show Sees (if isChecksumError e = true then _ else _) N E l (working held)
      by_cases hchecksum : isChecksumError e = true
      · rw [if_pos hchecksum, sees_bind]
        exact hdiscard path l (sees_fail ht (hN l))
      · rw [if_neg hchecksum, if_pos (hraised.resolve_left hchecksum)]
        exact sees_fail ht (hN l)

/-- A batch that is seen to one by one is seen to. -/
theorem sees_forEach {f : Ticket → HydratorM Unit} {E : Exn → TapeLocals → TicketRole → Prop}
    (hf : ∀ t held l (N : Unit → TapeLocals → TicketRole → Prop), t ∈ held → (∀ l', N () l' (working (held.erase t))) →
      Sees (f t) N E l (working held)) (batch : List Ticket) {N : Unit → TapeLocals → TicketRole → Prop} {l : TapeLocals}
    (hN : ∀ l', N () l' (working [])) : Sees (forEach f batch) N E l (working batch) := by
  induction batch generalizing l with
  | nil => exact hN l
  | cons t batch ih =>
    rw [forEach, sees_bind]
    refine hf t _ l _ List.mem_cons_self fun l' => ?_
    rw [List.erase_cons_head]
    exact ih

theorem sees_failAll (batch : List Ticket) (reason : String) {N : Unit → TapeLocals → TicketRole → Prop}
    {E : Exn → TapeLocals → TicketRole → Prop} {l : TapeLocals} (hN : ∀ l', N () l' (working [])) :
    Sees (failAll batch reason) N E l (working batch) :=
  sees_forEach (fun _ _ l _ ht hN => sees_fail ht (hN l)) batch hN

/-- A restore job does nothing about tickets. -/
theorem calls_ofJob (m : RestoreM α) : Calls (fun o => isQuiet o = true) (ofJob m) :=
  calls_embed HydratorOp.Ans HydratorOp.job (fun _ => rfl) m

theorem calls_restoreBatch (config : HydratorConfig) (paths : List String) :
    Calls (fun o => isQuiet o = true) (restoreBatch config paths) := by
  refine only_bind (only_mapEach (fun path => only_bind (calls_ofJob _) fun found => ?_) paths) fun pairs => ?_
  · cases found with
    | none => exact only_raise _
    | some record => exact only_bind (calls_ofJob _) fun _ => only_pure _
  · exact only_bind (calls_ofJob _) fun outcome => only_ite (fun _ => only_raise _) fun _ => only_pure _

theorem sees_flush (config : HydratorConfig) (tapeKey : String) {N : Unit → TapeLocals → TicketRole → Prop}
    {E : Exn → TapeLocals → TicketRole → Prop} {l : TapeLocals} (hN : ∀ l', N () l' (working [])) :
    Sees (flush config tapeKey) N E l (working []) := by
  rw [flush, sees_bind]
  refine sees_sure (show Allowed (working []) (.takeBatch tapeKey) from rfl) (fun _ h => h) ?_
  rintro ⟨closed, batch⟩
  show Sees (if closed = true then _ else _) N E l (working batch)
  by_cases hclosed : closed = true
  · rw [if_pos hclosed]
    exact sees_failAll batch _ hN
  · rw [if_neg hclosed]
    by_cases hbatch : batch = []
    · rw [if_pos hbatch, hbatch]
      exact hN l
    · rw [if_neg hbatch, sees_bind, tryRestore, sees_handle, sees_bind]
      refine sees_quiet (calls_restoreBatch config _) working_ne (fun staged l' => ?_) fun e l' => ?_
      · exact sees_forEach (fun t held l N ht hN => sees_commit ht hN) batch hN
      · exact sees_failAll batch _ hN

theorem sees_resume (t : Ticket) (jobId : Nat) {N : Unit → TapeLocals → TicketRole → Prop}
    {E : Exn → TapeLocals → TicketRole → Prop} {l : TapeLocals} (hN : ∀ l', N () l' (working [])) :
    Sees (resume t jobId) N E l (working [t]) := by
  have hgone : ∀ l', N () l' (working ([t].erase t)) := fun l' => by
    rw [List.erase_cons_head]
    exact hN l'
  have hfail : ∀ (reason : String) (l' : TapeLocals), Sees (hydrator (.fail t reason)) N E l' (working [t]) :=
    fun reason l' => sees_fail List.mem_cons_self (hgone l')
  rw [resume, sees_handle, sees_bind]
  refine wp_obeys (show Allowed (working [t]) (.resumeJob jobId t.catalogPath) from trivial) (fun staged _ => ?_) fun e _ => ?_
  · exact sees_commit List.mem_cons_self hgone
  · show Sees (if _ then _ else if _ then _ else _) N E l (working [t])
    split
    · exact hfail _ l
    · split
      · exact hfail _ l
      · exact hfail _ l

theorem sees_shutdown {N : Unit → TapeLocals → TicketRole → Prop} {E : Exn → TapeLocals → TicketRole → Prop} {l : TapeLocals}
    (hN : ∀ l', N () l' (working [])) : Sees shutdown N E l (working []) := by
  rw [shutdown, sees_bind]
  refine sees_sure (show Allowed (working []) .close from rfl) (fun _ h => h) fun pending => ?_
  exact sees_failAll pending _ hN

theorem calls_lookup (path : String) (record : FileRecord) : Calls (fun o => isQuiet o = true) (lookup path record) := by
  refine only_bind (only_perform rfl) fun found => ?_
  cases found with
  | some jobId => exact only_pure _
  | none =>
    refine only_bind (only_handle ?_ fun e => only_ite (fun _ => only_pure _) fun _ => only_raise _) fun _ => only_pure _
    exact only_bind (calls_ofJob _) fun _ => only_pure _

/-- A request ends with the ticket it was given, or raises and has none. -/
theorem sees_request (path : String) {N : Ticket → TapeLocals → TicketRole → Prop} {E : Exn → TapeLocals → TicketRole → Prop}
    {l : TapeLocals} (hN : ∀ t l', N t l' (returning t)) (hE : ∀ e l', E e l' (working [])) :
    Sees (request path) N E l (working []) := by
  rw [request, sees_bind]
  refine sees_quiet (calls_ofJob _) working_ne (fun found l' => ?_) hE
  cases found with
  | none => exact hE _ l'
  | some record =>
    refine sees_bind.2 (wp_obeys (show Allowed (working []) (.claim path record.checksumSha256) from rfl) (fun answer _ => ?_)
      fun e _ => hE e l')
    cases answer with
    | existing t => exact hN t l'
    | cached t => exact hN t l'
    | fresh t =>
      show Sees _ N E l' (requesting t)
      refine sees_bind.2 (sees_handle.2 (sees_quiet (calls_lookup path record) requesting_ne (fun found l'' => ?_) fun e l'' => ?_))
      · cases found with
        | inl jobId =>
          exact sees_bind.2 (sees_sure (show Allowed (requesting t) (.spawnResume t jobId) from rfl) (fun _ h => h) fun _ => hN t l'')
        | inr tapeKey =>
          refine sees_bind.2 (sees_sure (show Allowed (requesting t) (.enqueue t tapeKey) from rfl) (fun _ h => h) fun queued => ?_)
          cases queued with
          | closed =>
            exact sees_bind.2 (sees_sure (show Allowed (requesting t) (.fail t unmounting) from rfl) (fun _ h => h) fun _ => hN t l'')
          | waiting => exact hN t l''
          | armed => exact hN t l''
      · exact sees_bind.2 (sees_sure (show Allowed (requesting t) (.forget t) from rfl) (fun _ h => h) fun _ => hE e l'')

/-- A thread of the background that gives back its tickets. -/
theorem seesTo_background {m : HydratorM α} {held : List Ticket}
    (h : Sees m (fun _ _ role => role = working []) (fun _ _ role => role = working []) {} (working held)) :
    (working held).SeesTo (background m) := by
  have hbind : Sees (do let _ ← m; pure none : HydratorM (Option Ticket)) (fun a _ role => a = none ∧ role = working [])
      (fun _ _ role => role = working []) {} (working held) := by
    rw [sees_bind]
    refine wp_mono h ?_ fun _ _ _ h => h
    rintro _ l' _ rfl
    exact ⟨rfl, rfl⟩
  refine Prog.wp_mono hbind ?_
  rintro ⟨_ | a, l⟩ role hrole
  · obtain rfl : role = working [] := hrole
    exact ⟨rfl, nofun⟩
  · obtain ⟨rfl, rfl⟩ : a = none ∧ role = working [] := hrole
    exact ⟨rfl, nofun⟩

/-- A procedure without steps on tickets, as a thread. -/
theorem seesTo_quiet {m : HydratorM α} (h : Calls (fun o => isQuiet o = true) m) : (working []).SeesTo (background m) :=
  seesTo_background (sees_quiet h working_ne (fun _ _ => rfl) fun _ _ => rfl)

theorem seesTo_thread (call : HydratorCall) : (working []).SeesTo call.thread := by
  cases call with
  | request path =>
    have hrequest : Sees (do let t ← request path; pure (some t)) (fun a _ role => ∃ t, a = some t ∧ role = returning t)
        (fun _ _ role => role = working []) {} (working []) :=
      sees_bind.2 (sees_request path (fun t _ => ⟨t, rfl, rfl⟩) fun _ _ => rfl)
    refine Prog.wp_mono hrequest ?_
    rintro ⟨_ | a, l⟩ role hrole
    · obtain rfl : role = working [] := hrole
      exact ⟨rfl, nofun⟩
    · obtain ⟨t, rfl, rfl⟩ : ∃ t, a = some t ∧ role = returning t := hrole
      exact rfl
  | shutdown => exact seesTo_background (sees_shutdown fun _ => rfl)
  | enqueueRestore path dest => exact seesTo_quiet (calls_ofJob _)
  | enqueueRestoreBatch requests => exact seesTo_quiet (calls_ofJob _)
  | insertJob | setJob | setCatalog | writeFile | removeFile | evict => exact seesTo_quiet (only_perform rfl)

/-- A thread that is started has no ticket to give. -/
theorem returning_not_given (t : Ticket) (o : HydratorOp) (a : Except Exn o.Ans) : returning t ∉ given o a := by
  cases o with
  | spawnResume t' jobId => cases a <;> simp [given]
  | enqueue t' tapeKey =>
    match a with
    | .error e => simp [given]
    | .ok .closed => simp [given]
    | .ok .waiting => simp [given]
    | .ok .armed => simp [given]
  | _ => simp [given]

theorem forall₂_forks (config : HydratorConfig) (o : HydratorOp) (a : Except Exn o.Ans) :
    System.Obeying note Possible Allowed Done (hydratorForks config o a) (given o a) := by
  cases o with
  | spawnResume t jobId =>
    cases a with
    | error e => exact .nil
    | ok _ => exact .cons (seesTo_background (sees_resume t jobId fun _ => rfl)) .nil
  | enqueue t tapeKey =>
    match a with
    | .error e => exact .nil
    | .ok .closed => exact .nil
    | .ok .waiting => exact .nil
    | .ok .armed => exact .cons (seesTo_background (sees_flush config tapeKey fun _ => rfl)) .nil
  | _ => exact .nil

end threads

/-! ## The tables -/

section tables

variable {s s' : HydratorState} {held rest : List Ticket} {t : Ticket}

def queued (s : HydratorState) : List Ticket := s.pending.flatMap Prod.snd

/-- The tables are sound for the tickets that threads hold: what is held or waits is registered and not done, once, and what is
registered and not done is held or waits. -/
structure Sound (s : HydratorState) (held : List Ticket) : Prop where
  once : ∀ t, held.count t + (queued s).count t ≤ 1
  keys : s.pending.keys.Nodup
  registered : ∀ t, t ∈ held ∨ t ∈ queued s → s.tickets.get? t.catalogPath = some t ∧ s.isDone t = false
  registry : ∀ path t, s.tickets.get? path = some t →
    t.catalogPath = path ∧ t.id < s.nextTicket ∧ (s.isDone t = true ∨ t ∈ held ∨ t ∈ queued s)
  numbered : ∀ t, s.isDone t = true → t.id < s.nextTicket

/-- A ticket that was taken back: it is not done and never will be. -/
def Gone (s : HydratorState) (t : Ticket) : Prop :=
  t.id < s.nextTicket ∧ s.isDone t = false ∧ s.tickets.get? t.catalogPath ≠ some t

/-- A ticket that is done or registered. -/
def Settled (s : HydratorState) (t : Ticket) : Prop := s.isDone t = true ∨ s.tickets.get? t.catalogPath = some t

/-- What a step keeps of the tables. -/
structure Moves (s s' : HydratorState) (held' : List Ticket) : Prop where
  sound : Sound s' held'
  gone : ∀ t, Gone s t → Gone s' t
  settled : ∀ t, Settled s t → Settled s' t

theorem Sound.perm (h : Sound s held) (hperm : held.Perm rest) : Sound s rest := by
  refine ⟨fun t => ?_, h.keys, fun t ht => h.registered t ?_, fun path t ht => ?_, h.numbered⟩
  · rw [← hperm.count_eq]
    exact h.once t
  · rw [hperm.mem_iff]
    exact ht
  · rw [← hperm.mem_iff]
    exact h.registry path t ht

/-- Tickets go from the hands of threads to the waiting lists, or the other way. -/
theorem Sound.shift (h : Sound s held) (htickets : s'.tickets = s.tickets) (hdone : ∀ t, s'.isDone t = s.isDone t)
    (hnext : s'.nextTicket = s.nextTicket) (hkeys : s'.pending.keys.Nodup)
    (hperm : (rest ++ queued s').Perm (held ++ queued s)) : Moves s s' rest := by
  have hmem : ∀ t, t ∈ rest ∨ t ∈ queued s' ↔ t ∈ held ∨ t ∈ queued s := fun t => by
    rw [← List.mem_append, hperm.mem_iff, List.mem_append]
  refine ⟨⟨fun t => ?_, hkeys, fun t ht => ?_, fun path t ht => ?_, fun t ht => ?_⟩, fun t ht => ?_, fun t ht => ?_⟩
  · rw [← List.count_append, hperm.count_eq, List.count_append]
    exact h.once t
  · rw [htickets, hdone]
    exact h.registered t ((hmem t).1 ht)
  · rw [htickets] at ht
    rw [hnext, hdone, hmem]
    exact h.registry path t ht
  · rw [hdone] at ht
    rw [hnext]
    exact h.numbered t ht
  · unfold Gone
    rw [hnext, hdone, htickets]
    exact ht
  · unfold Settled
    rw [hdone, htickets]
    exact ht

/-- A step that changes nothing the tables say. -/
theorem Sound.same (h : Sound s held) (htickets : s'.tickets = s.tickets) (hdone : ∀ t, s'.isDone t = s.isDone t)
    (hnext : s'.nextTicket = s.nextTicket) (hpending : s'.pending = s.pending) : Moves s s' held := by
  refine h.shift htickets hdone hnext (hpending ▸ h.keys) ?_
  rw [queued, hpending]
  exact List.Perm.refl _

theorem isDone_update (s : HydratorState) (t t' : Ticket) (f : TicketData → TicketData) :
    (s.update t f).isDone t' = if t = t' then (f ((s.data.get? t).getD {})).done else s.isDone t' := by
  unfold HydratorState.update HydratorState.isDone
  dsimp only
  rw [Dict.get?_set]
  by_cases ht : t = t'
  · rw [if_pos ht, if_pos ht]
    rfl
  · rw [if_neg ht, if_neg ht]

/-- A change of other data of a ticket leaves it done, or not. -/
theorem isDone_update_same (s : HydratorState) (t t' : Ticket) {f : TicketData → TicketData} (hf : ∀ data, (f data).done = data.done) :
    (s.update t f).isDone t' = s.isDone t' := by
  rw [isDone_update]
  split
  · rename_i ht
    rw [hf, ← ht]
    unfold HydratorState.isDone
    cases s.data.get? t <;> rfl
  · rfl

/-- A ticket is made and registered. -/
theorem Sound.fresh (h : Sound s held) {path checksum : String}
    (hfree : (s.tickets.get? path).filter (fun t => !s.isDone t) = none) :
    let t : Ticket := { id := s.nextTicket, catalogPath := path, checksum := checksum }
    Moves s { s with tickets := s.tickets.set path t, nextTicket := s.nextTicket + 1 } (t :: held) := by
  intro t
  have hnew : ∀ t' : Ticket, t'.id < s.nextTicket → t ≠ t' := by
    rintro t' hlt rfl
    exact absurd hlt (Nat.lt_irrefl _)
  -- the ticket that was registered for the path is done
  have hold : ∀ t', s.tickets.get? path = some t' → s.isDone t' = true := by
    intro t' ht'
    rw [ht', Option.filter_some] at hfree
    by_contra hundone
    rw [if_pos (by simpa using hundone)] at hfree
    cases hfree
  have hlt : ∀ t', t' ∈ held ∨ t' ∈ queued s → t'.id < s.nextTicket := fun t' ht' =>
    (h.registry _ t' (h.registered t' ht').1).2.1
  have hnone : t ∉ held ∧ t ∉ queued s := ⟨fun hm => hnew t (hlt t (.inl hm)) rfl, fun hm => hnew t (hlt t (.inr hm)) rfl⟩
  have hundone : s.isDone t = false := by
    cases hdone : s.isDone t with
    | false => rfl
    | true => exact absurd rfl (hnew t (h.numbered t hdone))
  have hother : ∀ t', t ≠ t' → s.isDone t' = false → (s.tickets.set path t).get? t'.catalogPath = some t' ∨
      (s.tickets.set path t).get? t'.catalogPath ≠ some t' ∧ s.tickets.get? t'.catalogPath ≠ some t' := by
    intro t' hne hopen
    rw [Dict.get?_set]
    by_cases hpath : path = t'.catalogPath
    · rw [if_pos hpath]
      refine .inr ⟨fun he => hne (Option.some.inj he), fun he => ?_⟩
      rw [← hpath] at he
      rw [hold t' he] at hopen
      cases hopen
    · rw [if_neg hpath]
      by_cases he : s.tickets.get? t'.catalogPath = some t'
      · exact .inl he
      · exact .inr ⟨he, he⟩
  refine ⟨⟨fun t' => ?_, h.keys, fun t' ht' => ?_, fun path' t' ht' => ?_, fun t' ht' => Nat.lt_succ_of_lt (h.numbered t' ht')⟩,
    fun t' ht' => ⟨Nat.lt_succ_of_lt ht'.1, ht'.2.1, ?_⟩, fun t' ht' => ?_⟩
  · have honce := h.once t'
    show (t :: held).count t' + (queued s).count t' ≤ 1
    by_cases ht : t = t'
    · subst ht
      have hheld := List.count_eq_zero.2 hnone.1
      have hqueued := List.count_eq_zero.2 hnone.2
      rw [List.count_cons_self]
      omega
    · rw [List.count_cons_of_ne ht]
      exact honce
  · by_cases ht : t = t'
    · subst ht
      refine ⟨?_, hundone⟩
      show (s.tickets.set path t).get? path = some t
      rw [Dict.get?_set, if_pos rfl]
    · have hin : t' ∈ held ∨ t' ∈ queued s := ht'.imp_left fun hm => (List.mem_cons.1 hm).resolve_left (Ne.symm ht)
      obtain ⟨hreg, hopen⟩ := h.registered t' hin
      exact ⟨(hother t' ht hopen).resolve_right fun hno => hno.2 hreg, hopen⟩
  · replace ht' : (s.tickets.set path t).get? path' = some t' := ht'
    rw [Dict.get?_set] at ht'
    by_cases hpath : path = path'
    · rw [if_pos hpath] at ht'
      obtain rfl := Option.some.inj ht'
      exact ⟨hpath, Nat.lt_succ_self _, .inr (.inl List.mem_cons_self)⟩
    · rw [if_neg hpath] at ht'
      obtain ⟨hp, hid, hcase⟩ := h.registry path' t' ht'
      exact ⟨hp, Nat.lt_succ_of_lt hid, hcase.imp_right fun hin => hin.imp_left (List.mem_cons_of_mem _)⟩
  · show (s.tickets.set path t).get? t'.catalogPath ≠ some t'
    rcases hother t' (hnew t' ht'.1) ht'.2.1 with hreg | hno
    · rw [Dict.get?_set] at hreg
      by_cases hpath : path = t'.catalogPath
      · rw [if_pos hpath] at hreg
        exact absurd (Option.some.inj hreg) (hnew t' ht'.1)
      · rw [if_neg hpath] at hreg
        exact absurd hreg ht'.2.2
    · exact hno.1
  · cases hdone : s.isDone t' with
    | true => exact .inl hdone
    | false =>
      have hreg := ht'.resolve_left (by simp [hdone])
      have hne := hnew t' (h.registry _ t' hreg).2.1
      exact .inr ((hother t' hne hdone).resolve_right fun hno => hno.2 hreg)

/-- A ticket is made, and done at once. -/
theorem Sound.cached (h : Sound s held) {path checksum : String} :
    let t : Ticket := { id := s.nextTicket, catalogPath := path, checksum := checksum }
    Moves s { s.update t fun data => { data with done := true } with nextTicket := s.nextTicket + 1 } held := by
  intro t
  have hnew : ∀ t' : Ticket, t'.id < s.nextTicket → t ≠ t' := by
    rintro t' hlt rfl
    exact absurd hlt (Nat.lt_irrefl _)
  have hdone : ∀ t', HydratorState.isDone { s.update t fun data => { data with done := true } with nextTicket := s.nextTicket + 1 } t' =
      if t = t' then true else s.isDone t' := fun t' =>
    isDone_update s t t' fun data => { data with done := true }
  refine ⟨⟨h.once, h.keys, fun t' ht' => ?_, fun path' t' ht' => ?_, fun t' ht' => ?_⟩, fun t' ht' => ⟨Nat.lt_succ_of_lt ht'.1, ?_, ht'.2.2⟩,
    fun t' ht' => ?_⟩
  · obtain ⟨hreg, hopen⟩ := h.registered t' ht'
    refine ⟨hreg, ?_⟩
    rw [hdone, if_neg (hnew t' (h.registry _ t' hreg).2.1)]
    exact hopen
  · obtain ⟨hp, hid, hcase⟩ := h.registry path' t' ht'
    refine ⟨hp, Nat.lt_succ_of_lt hid, ?_⟩
    rw [hdone, if_neg (hnew t' hid)]
    exact hcase
  · rw [hdone] at ht'
    by_cases ht : t = t'
    · exact ht ▸ Nat.lt_succ_self _
    · rw [if_neg ht] at ht'
      exact Nat.lt_succ_of_lt (h.numbered t' ht')
  · rw [hdone, if_neg (hnew t' ht'.1)]
    exact ht'.2.1
  · refine ht'.imp_left fun hd => ?_
    rw [hdone]
    split
    · rfl
    · exact hd

/-- A held ticket is done. -/
theorem Sound.complete (h : Sound s (t :: rest)) (htickets : s'.tickets = s.tickets) (hnext : s'.nextTicket = s.nextTicket)
    (hpending : s'.pending = s.pending) (hdone : ∀ t', s'.isDone t' = if t = t' then true else s.isDone t') : Moves s s' rest := by
  have hqueued : queued s' = queued s := by rw [queued, hpending, queued]
  have hreg := (h.registered t (.inl List.mem_cons_self)).1
  have honce : t ∉ rest ∧ t ∉ queued s := by
    have hcount := h.once t
    rw [List.count_cons_self] at hcount
    exact ⟨List.count_eq_zero.1 (by omega), List.count_eq_zero.1 (by omega)⟩
  refine ⟨⟨fun t' => ?_, hpending ▸ h.keys, fun t' ht' => ?_, fun path t' ht' => ?_, fun t' ht' => ?_⟩, fun t' ht' => ?_,
    fun t' ht' => ?_⟩
  · have hcount := h.once t'
    rw [hqueued]
    rw [List.count_cons] at hcount
    omega
  · rw [hqueued] at ht'
    have hne : t ≠ t' := by
      rintro rfl
      exact ht'.elim honce.1 honce.2
    rw [htickets, hdone, if_neg hne]
    exact h.registered t' (ht'.imp_left (List.mem_cons_of_mem _))
  · rw [htickets] at ht'
    obtain ⟨hp, hid, hcase⟩ := h.registry path t' ht'
    rw [hnext, hdone, hqueued]
    refine ⟨hp, hid, ?_⟩
    by_cases ht : t = t'
    · exact .inl (if_pos ht)
    · rw [if_neg ht]
      exact hcase.imp_right fun hin => hin.imp_left fun hm => (List.mem_cons.1 hm).resolve_left (Ne.symm ht)
  · rw [hdone] at ht'
    rw [hnext]
    by_cases ht : t = t'
    · exact ht ▸ (h.registry _ t hreg).2.1
    · rw [if_neg ht] at ht'
      exact h.numbered t' ht'
  · have hne : t ≠ t' := by
      rintro rfl
      exact ht'.2.2 hreg
    unfold Gone
    rw [hnext, hdone, if_neg hne, htickets]
    exact ht'
  · unfold Settled
    rw [htickets, hdone]
    refine ht'.imp_left fun hd => ?_
    split
    · rfl
    · exact hd

/-- A held ticket is taken back: the others stay as they are. -/
theorem Sound.forget (h : Sound s (t :: rest)) :
    Sound { s with tickets := s.tickets.erase t.catalogPath } rest ∧
      (∀ t', t' = t ∨ Gone s t' → Gone { s with tickets := s.tickets.erase t.catalogPath } t') ∧
      ∀ t', t' ≠ t → Settled s t' → Settled { s with tickets := s.tickets.erase t.catalogPath } t' := by
  have hreg := h.registered t (.inl List.mem_cons_self)
  have hget : ∀ path, (s.tickets.erase t.catalogPath).get? path = if t.catalogPath = path then none else s.tickets.get? path :=
    Dict.get?_erase _ _
  have hkeep : ∀ t', t' ≠ t → s.tickets.get? t'.catalogPath = some t' → (s.tickets.erase t.catalogPath).get? t'.catalogPath = some t' := by
    intro t' hne ht'
    rw [hget, if_neg]
    · exact ht'
    · intro hpath
      rw [← hpath, hreg.1] at ht'
      exact hne (Option.some.inj ht').symm
  have honce : t ∉ rest ∧ t ∉ queued s := by
    have hcount := h.once t
    rw [List.count_cons_self] at hcount
    exact ⟨List.count_eq_zero.1 (by omega), List.count_eq_zero.1 (by omega)⟩
  refine ⟨⟨fun t' => ?_, h.keys, fun t' ht' => ?_, fun path t' ht' => ?_, h.numbered⟩, fun t' ht' => ?_, fun t' hne ht' =>
    ht'.imp_right (hkeep t' hne)⟩
  · have hcount := h.once t'
    rw [List.count_cons] at hcount
    show rest.count t' + (queued s).count t' ≤ 1
    omega
  · have hne : t' ≠ t := by
      rintro rfl
      exact ht'.elim honce.1 honce.2
    obtain ⟨hr, hopen⟩ := h.registered t' (ht'.imp_left (List.mem_cons_of_mem _))
    exact ⟨hkeep t' hne hr, hopen⟩
  · replace ht' : (s.tickets.erase t.catalogPath).get? path = some t' := ht'
    rw [hget] at ht'
    by_cases hpath : t.catalogPath = path
    · rw [if_pos hpath] at ht'
      cases ht'
    · rw [if_neg hpath] at ht'
      obtain ⟨hp, hid, hcase⟩ := h.registry path t' ht'
      refine ⟨hp, hid, hcase.imp_right fun hin => hin.imp_left fun hm => ?_⟩
      refine (List.mem_cons.1 hm).resolve_left ?_
      rintro rfl
      exact hpath hp
  · rcases ht' with rfl | ⟨hid, hopen, hno⟩
    · refine ⟨(h.registry _ _ hreg.1).2.1, hreg.2, ?_⟩
      show (s.tickets.erase t'.catalogPath).get? t'.catalogPath ≠ some t'
      rw [hget, if_pos rfl]
      nofun
    · refine ⟨hid, hopen, ?_⟩
      show (s.tickets.erase t.catalogPath).get? t'.catalogPath ≠ some t'
      rw [hget]
      split
      · nofun
      · exact hno

end tables

/-! ## One step -/

section step

variable {config : HydratorConfig} {s : HydratorState} {choice : RestoreChoice} {role : TicketRole} {rest : List Ticket}

variable (config s choice) in
/-- What a quiet step leaves alone. -/
theorem tables_quiet {o : HydratorOp} (h : isQuiet o = true) :
    (s.exec config choice o).2.tickets = s.tickets ∧ (s.exec config choice o).2.data = s.data ∧
      (s.exec config choice o).2.nextTicket = s.nextTicket ∧ (s.exec config choice o).2.pending = s.pending ∧
      (s.exec config choice o).2.timers = s.timers := by
  cases o with
  | claim | forget | enqueue | spawnResume | takeBatch | close | fail | finish => cases h
  | storeVerified checksum staged =>
    simp only [HydratorState.exec, HydratorState.storeVerified]
    split
    · exact ⟨rfl, rfl, rfl, rfl, rfl⟩
    · exact ⟨rfl, rfl, rfl, rfl, rfl⟩
    · split <;> exact ⟨rfl, rfl, rfl, rfl, rfl⟩
  | discardStaged | findActiveJob | resumeJob =>
    simp only [HydratorState.exec]
    split <;> exact ⟨rfl, rfl, rfl, rfl, rfl⟩
  | job | insertJob | setJob | setCatalog | writeFile | removeFile | evict => exact ⟨rfl, rfl, rfl, rfl, rfl⟩

theorem held_of_allowed_quiet {o : HydratorOp} (h : Allowed role o) (t : Ticket) : role ≠ returning t := by
  rintro rfl
  exact h

/-- A step on the tables, by what the threads hold before it and after it. -/
def StepSound (s : HydratorState) (role : TicketRole) (rest : List Ticket) (o : HydratorOp) (a : Except Exn o.Ans) (s' : HydratorState) :
    Prop :=
  Moves s s' ((role.note o a).held ++ ((given o a).flatMap held ++ rest)) ∧ ∀ t, role.note o a = returning t → Settled s' t

theorem stepSound_claim (h : Sound s (role.held ++ rest)) {path checksum : String} (hallowed : Allowed role (.claim path checksum)) :
    StepSound s role rest (.claim path checksum) (s.claim choice path checksum).1 (s.claim choice path checksum).2 := by
  obtain rfl : role = working [] := by
    cases role with
    | working held => rw [show held = [] from hallowed]
    | requesting t => exact hallowed.elim
    | returning t => exact hallowed.elim
  have hsame : Moves s s rest := h.same rfl (fun _ => rfl) rfl rfl
  unfold HydratorState.claim
  split
  · exact ⟨hsame, fun _ h => by cases h⟩
  · split
    · rename_i t hexisting
      refine ⟨hsame, ?_⟩
      rintro t' ⟨⟩
      obtain ⟨hget, -⟩ := Option.filter_eq_some_iff.1 hexisting
      have hpath := (h.registry path t hget).1
      exact .inr (hpath ▸ hget)
    · rename_i hfree
      dsimp only
      cases choice.fails with
      | some e => exact ⟨hsame, fun _ h => by cases h⟩
      | none =>
        dsimp only
        split
        · refine ⟨Sound.cached h, ?_⟩
          rintro t ⟨⟩
          refine .inl ((isDone_update s _ _ fun data => { data with done := true }).trans ?_)
          rw [if_pos rfl]
        · exact ⟨Sound.fresh h hfree, fun _ h => by cases h⟩

/-- The three ends of the second section of a request. -/
theorem enqueue_closed {t : Ticket} {tapeKey : String} (h : s.closed = true) :
    s.enqueue t tapeKey = (.closed, s.update t fun data => { data with tapeKey := tapeKey }) := if_pos h

theorem enqueue_waiting {t : Ticket} {tapeKey : String} (h : s.closed = false) (htimer : tapeKey ∈ s.timers) :
    s.enqueue t tapeKey = (.waiting,
      { s.update t fun data => { data with tapeKey := tapeKey } with
        pending := s.pending.set tapeKey ((s.pending.get? tapeKey).getD [] ++ [t]) }) :=
  (if_neg (by rw [show (s.update t _).closed = s.closed from rfl, h]; exact Bool.false_ne_true)).trans (if_pos htimer)

theorem enqueue_armed {t : Ticket} {tapeKey : String} (h : s.closed = false) (htimer : tapeKey ∉ s.timers) :
    s.enqueue t tapeKey = (.armed,
      { s.update t fun data => { data with tapeKey := tapeKey } with
        pending := s.pending.set tapeKey ((s.pending.get? tapeKey).getD [] ++ [t]), timers := s.timers ++ [tapeKey] }) :=
  (if_neg (by rw [show (s.update t _).closed = s.closed from rfl, h]; exact Bool.false_ne_true)).trans (if_neg htimer)

theorem stepSound_enqueue (h : Sound s (role.held ++ rest)) {t : Ticket} {tapeKey : String}
    (hallowed : Allowed role (.enqueue t tapeKey)) :
    StepSound s role rest (.enqueue t tapeKey) (.ok (s.enqueue t tapeKey).1) (s.enqueue t tapeKey).2 := by
  obtain rfl : role = requesting t := by
    cases role with
    | requesting t' => rw [show t = t' from hallowed]
    | working held => exact hallowed.elim
    | returning t' => exact hallowed.elim
  have hdone : ∀ t', (s.update t fun data => { data with tapeKey := tapeKey }).isDone t' = s.isDone t' := fun t' =>
    isDone_update_same s t t' fun _ => rfl
  have hreg := (h.registered t (.inl List.mem_cons_self)).1
  cases hclosed : s.closed with
  | true =>
    rw [enqueue_closed hclosed]
    exact ⟨h.same rfl hdone rfl rfl, nofun⟩
  | false =>
    have hperm : (rest ++ (s.pending.set tapeKey ((s.pending.get? tapeKey).getD [] ++ [t])).flatMap Prod.snd).Perm
        (t :: rest ++ queued s) := by
      have hset := Dict.flatMap_set_perm h.keys tapeKey ((s.pending.get? tapeKey).getD [] ++ [t])
      rw [List.append_assoc] at hset
      have hadd := ((List.perm_append_left_iff _).1 hset).append_left rest
      exact hadd.trans List.perm_middle
    have hreturns : ∀ s' : HydratorState, s'.tickets = s.tickets → ∀ t', returning t = returning t' → Settled s' t' := by
      rintro s' htickets t' ⟨⟩
      exact .inr (htickets ▸ hreg)
    by_cases htimer : tapeKey ∈ s.timers
    · rw [enqueue_waiting hclosed htimer]
      exact ⟨h.shift rfl hdone rfl (Dict.nodup_keys_set h.keys) hperm, hreturns _ rfl⟩
    · rw [enqueue_armed hclosed htimer]
      exact ⟨h.shift rfl hdone rfl (Dict.nodup_keys_set h.keys) hperm, hreturns _ rfl⟩

/-- A ticket that a thread completes. -/
theorem stepSound_complete {t : Ticket} {held : List Ticket} {s' : HydratorState} (h : Sound s (held ++ rest)) (ht : t ∈ held)
    (htickets : s'.tickets = s.tickets) (hnext : s'.nextTicket = s.nextTicket) (hpending : s'.pending = s.pending)
    (hdone : ∀ t', s'.isDone t' = if t = t' then true else s.isDone t') : Moves s s' (held.erase t ++ rest) :=
  (h.perm ((List.perm_cons_erase ht).append_right rest)).complete htickets hnext hpending hdone

theorem stepSound_exec (h : Sound s (role.held ++ rest)) {o : HydratorOp} (hallowed : Allowed role o) (hforget : ∀ t, o ≠ .forget t) :
    StepSound s role rest o (s.exec config choice o).1 (s.exec config choice o).2 := by
  cases hquiet : isQuiet o with
  | true =>
    obtain ⟨htickets, hdata, hnext, hpending, -⟩ := tables_quiet config s choice hquiet
    have hgiven : given o (s.exec config choice o).1 = [] := by
      cases o <;> first | rfl | cases hquiet
    have hdone : ∀ t, (s.exec config choice o).2.isDone t = s.isDone t := fun t => by
      rw [HydratorState.isDone, hdata, HydratorState.isDone]
    unfold StepSound
    rw [note_quiet hquiet, hgiven]
    exact ⟨h.same htickets hdone hnext hpending, fun t ht => absurd ht (held_of_allowed_quiet hallowed t)⟩
  | false =>
    cases o with
    | claim path checksum => exact stepSound_claim h hallowed
    | forget t => exact absurd rfl (hforget t)
    | enqueue t tapeKey => exact stepSound_enqueue h hallowed
    | spawnResume t jobId =>
      obtain rfl : role = requesting t := by
        cases role with
        | requesting t' => rw [show t = t' from hallowed]
        | working held => exact hallowed.elim
        | returning t' => exact hallowed.elim
      refine ⟨h.same rfl (fun t' => isDone_update_same s t t' fun _ => rfl) rfl rfl, ?_⟩
      rintro t' ⟨⟩
      exact .inr (h.registered t (.inl List.mem_cons_self)).1
    | takeBatch tapeKey =>
      obtain rfl : role = working [] := by
        cases role with
        | working held => rw [show held = [] from hallowed]
        | requesting t => exact hallowed.elim
        | returning t => exact hallowed.elim
      refine ⟨h.shift rfl (fun _ => rfl) rfl (Dict.nodup_keys_erase h.keys) ?_, nofun⟩
      have herase := (Dict.flatMap_erase_perm h.keys tapeKey).append_left rest
      refine List.Perm.trans ?_ herase
      rw [List.append_assoc]
      exact List.perm_append_comm_assoc _ _ _
    | close =>
      obtain rfl : role = working [] := by
        cases role with
        | working held => rw [show held = [] from hallowed]
        | requesting t => exact hallowed.elim
        | returning t => exact hallowed.elim
      refine ⟨h.shift rfl (fun _ => rfl) rfl List.nodup_nil ?_, nofun⟩
      show (s.pending.flatMap Prod.snd ++ rest ++ []).Perm (rest ++ s.pending.flatMap Prod.snd)
      rw [List.append_nil]
      exact List.perm_append_comm
    | fail t reason =>
      have hdone := fun t' => isDone_update s t t' fun data => { data with error := some reason, done := true }
      cases role with
      | working held => exact ⟨stepSound_complete h hallowed rfl rfl rfl hdone, nofun⟩
      | requesting t' =>
        obtain rfl : t = t' := hallowed
        have hmoves : Moves s (s.exec config choice (.fail t reason)).2 ([t].erase t ++ rest) :=
          stepSound_complete h List.mem_cons_self rfl rfl rfl hdone
        rw [List.erase_cons_head] at hmoves
        refine ⟨hmoves, ?_⟩
        rintro t' ⟨⟩
        refine .inl ((hdone t).trans ?_)
        rw [if_pos rfl]
      | returning t' => exact hallowed.elim
    | finish t =>
      have hdone := fun t' => isDone_update s t t' fun data => { data with done := true }
      cases role with
      | working held => exact ⟨stepSound_complete h hallowed rfl rfl rfl hdone, nofun⟩
      | requesting t' => exact hallowed.elim
      | returning t' => exact hallowed.elim
    | _ => cases hquiet

theorem exec_forget {t : Ticket} (h : Sound s ([t] ++ rest)) :
    (s.exec config choice (.forget t)).2 = { s with tickets := s.tickets.erase t.catalogPath } := by
  show (if _ then _ else s) = _
  rw [if_pos (h.registered t (.inl List.mem_cons_self)).1]

end step

/-! ## Runs -/

section runs

variable {config : HydratorConfig} {calls : List HydratorCall} {turns : List HydratorTurn}

theorem exists_possible (o : HydratorOp) : ∃ a, Possible o a := by
  cases o with
  | forget | spawnResume | fail | finish | discardStaged => exact ⟨.ok (), (), rfl⟩
  | enqueue => exact ⟨.ok .closed, .closed, rfl⟩
  | takeBatch => exact ⟨.ok (false, []), (false, []), rfl⟩
  | close => exact ⟨.ok [], [], rfl⟩
  | storeVerified => exact ⟨.ok (), nofun⟩
  | _ => exact ⟨.error { cls := .assertion, message := "" }, trivial⟩

/-- The threads that have given a ticket are those whose role it is to give it. -/
theorem returned_iff {sys : HydratorSystem} {roles : List TicketRole} (h : System.Obeying note Possible Allowed Done sys.threads roles)
    (t : Ticket) : Returned sys t ↔ returning t ∈ roles := by
  constructor
  · rintro ⟨l, hl⟩
    obtain ⟨role, hrole, hdone⟩ := h.of_thread hl
    cases role with
    | working held => exact absurd rfl (hdone.2 t)
    | requesting t' => exact hdone.elim
    | returning t' =>
      have ht : Except.ok (some t) = (.ok (some t') : Except Exn (Option Ticket)) := hdone
      rw [Option.some.inj (Except.ok.inj ht)]
      exact hrole
  · intro hrole
    obtain ⟨p, hp, hobeys⟩ := h.of_note hrole
    cases p with
    | ret value =>
      obtain ⟨outcome, l⟩ := value
      obtain rfl : outcome = .ok (some t) := hobeys
      exact ⟨l, hp⟩
    | call o k =>
      obtain ⟨a, ha⟩ := exists_possible o
      exact ((Prog.obeys_call fun o => ⟨.error { cls := .assertion, message := "" }⟩).1 hobeys a ha).1.elim

theorem returned_step {s s' : HydratorState} {before after more : List HydratorThread} {p : HydratorThread} {o : HydratorOp}
    {k : Except Exn o.Ans → HydratorThread} {t : Ticket}
    (h : Returned { state := s, threads := before ++ .call o k :: after } t) :
    Returned { state := s', threads := before ++ p :: after ++ more } t := by
  obtain ⟨l, hl⟩ := h
  refine ⟨l, ?_⟩
  rcases List.mem_append.1 hl with hl | hl
  · simp [hl]
  · rcases List.mem_cons.1 hl with hl | hl
    · cases hl
    · simp [hl]

theorem flush_eq (config : HydratorConfig) (tapeKey : String) : ∃ k, background (flush config tapeKey) = .call (.takeBatch tapeKey) k :=
  ⟨_, rfl⟩

/-- The timers that are armed: each tape with a waiting list has one, and the thread of each has not run. -/
structure Armed (config : HydratorConfig) (s : HydratorState) (threads : List HydratorThread) : Prop where
  timed : ∀ tapeKey batch, s.pending.get? tapeKey = some batch → tapeKey ∈ s.timers
  armed : ∀ tapeKey ∈ s.timers, background (flush config tapeKey) ∈ threads

/-- A thread that runs a step other than that of the timer leaves the timer armed. -/
theorem armed_mem {before after more : List HydratorThread} {p : HydratorThread} {o : HydratorOp} {k : Except Exn o.Ans → HydratorThread}
    {tapeKey : String} (ho : o ≠ .takeBatch tapeKey) (h : background (flush config tapeKey) ∈ before ++ .call o k :: after) :
    background (flush config tapeKey) ∈ before ++ p :: after ++ more := by
  rcases List.mem_append.1 h with hm | hm
  · simp [hm]
  · rcases List.mem_cons.1 hm with hm | hm
    · obtain ⟨k', hk'⟩ := flush_eq config tapeKey
      rw [hk'] at hm
      injection hm with hop
      exact absurd hop.symm ho
    · simp [hm]

theorem armed_exec {s : HydratorState} {choice : RestoreChoice} {before after : List HydratorThread} {o : HydratorOp}
    {k : Except Exn o.Ans → HydratorThread} (h : Armed config s (before ++ .call o k :: after)) :
    Armed config (s.exec config choice o).2
      (before ++ k (s.exec config choice o).1 :: after ++ hydratorForks config o (s.exec config choice o).1) := by
  have hsame : ∀ s' : HydratorState, s'.pending = s.pending → s'.timers = s.timers → (∀ tapeKey, o ≠ .takeBatch tapeKey) →
      ∀ p more, Armed config s' (before ++ p :: after ++ more) := by
    intro s' hpending htimers ho p more
    refine ⟨fun tapeKey batch hbatch => ?_, fun tapeKey hkey => armed_mem (ho tapeKey) (h.armed tapeKey (htimers ▸ hkey))⟩
    rw [hpending] at hbatch
    exact htimers ▸ h.timed tapeKey batch hbatch
  cases hquiet : isQuiet o with
  | true =>
    obtain ⟨-, -, -, hpending, htimers⟩ := tables_quiet config s choice hquiet
    refine hsame _ hpending htimers ?_ _ _
    rintro tapeKey rfl
    cases hquiet
  | false =>
    cases o with
    | claim path checksum =>
      refine hsame _ ?_ ?_ (by rintro _ ⟨⟩) _ _
      all_goals
        simp only [HydratorState.exec, HydratorState.claim]
        split
        · rfl
        · split
          · rfl
          · split
            · rfl
            · split <;> rfl
    | forget t =>
      refine hsame _ ?_ ?_ (by rintro _ ⟨⟩) _ _
      all_goals
        simp only [HydratorState.exec]
        split <;> rfl
    | spawnResume t jobId => exact hsame (s.exec config choice (.spawnResume t jobId)).2 rfl rfl (by rintro _ ⟨⟩) _ _
    | fail t reason => exact hsame (s.exec config choice (.fail t reason)).2 rfl rfl (by rintro _ ⟨⟩) _ _
    | finish t => exact hsame (s.exec config choice (.finish t)).2 rfl rfl (by rintro _ ⟨⟩) _ _
    | enqueue t tapeKey =>
      have hne : ∀ other, HydratorOp.enqueue t tapeKey ≠ .takeBatch other := by rintro _ ⟨⟩
      have hkeys : ∀ other batch, (s.pending.set tapeKey ((s.pending.get? tapeKey).getD [] ++ [t])).get? other = some batch →
          other = tapeKey ∨ other ∈ s.timers := by
        intro other batch hbatch
        rw [Dict.get?_set] at hbatch
        by_cases hk : tapeKey = other
        · exact .inl hk.symm
        · rw [if_neg hk] at hbatch
          exact .inr (h.timed other batch hbatch)
      show Armed config (s.enqueue t tapeKey).2 (_ ++ hydratorForks config (.enqueue t tapeKey) (.ok (s.enqueue t tapeKey).1))
      cases hclosed : s.closed with
      | true =>
        rw [enqueue_closed hclosed]
        exact hsame (s.update t fun data => { data with tapeKey := tapeKey }) rfl rfl hne _ _
      | false =>
        by_cases htimer : tapeKey ∈ s.timers
        · rw [enqueue_waiting hclosed htimer]
          refine ⟨fun other batch hbatch => ?_, fun other hother => armed_mem (hne other) (h.armed other hother)⟩
          rcases hkeys other batch hbatch with rfl | hmem
          · exact htimer
          · exact hmem
        · rw [enqueue_armed hclosed htimer]
          refine ⟨fun other batch hbatch => ?_, fun other hother => ?_⟩
          · rcases hkeys other batch hbatch with rfl | hmem
            · exact List.mem_append_right _ List.mem_cons_self
            · exact List.mem_append_left _ hmem
          · rcases List.mem_append.1 hother with hother | hother
            · exact armed_mem (hne other) (h.armed other hother)
            · rw [List.mem_singleton.1 hother]
              exact List.mem_append_right _ List.mem_cons_self
    | takeBatch tapeKey =>
      refine ⟨fun other batch hbatch => ?_, fun other hother => ?_⟩
      · replace hbatch : (s.pending.erase tapeKey).get? other = some batch := hbatch
        rw [Dict.get?_erase] at hbatch
        by_cases hk : tapeKey = other
        · rw [if_pos hk] at hbatch
          cases hbatch
        · rw [if_neg hk] at hbatch
          exact List.mem_filter.2 ⟨h.timed other batch hbatch, by simpa using Ne.symm hk⟩
      · obtain ⟨hmem, hne⟩ := List.mem_filter.1 (show other ∈ s.timers.filter (· ≠ tapeKey) from hother)
        refine armed_mem ?_ (h.armed other hmem)
        rintro ⟨⟩
        simp at hne
    | close => exact ⟨by rintro _ _ ⟨⟩, by rintro _ ⟨⟩⟩
    | _ => cases hquiet

/-- What holds after every turn, whoever takes it. -/
structure Tracked (config : HydratorConfig) (calls : List HydratorCall) (turns : List HydratorTurn) (sys : HydratorSystem)
    (roles : List TicketRole) : Prop where
  noted : rolesOf calls turns = roles
  sound : Sound sys.state (roles.flatMap held)
  armed : Armed config sys.state sys.threads
  stays : ∀ x ∈ turns, ∀ t, Returned x.before t → Returned sys t
  gone : ∀ x ∈ turns, ∀ t, x.step.op = .forget t → Gone sys.state t
  settled : (∀ x ∈ turns, TakesBackNone x) → ∀ t, returning t ∈ roles → Settled sys.state t

theorem rolesOf_concat (x : HydratorTurn) {notes notes' : List TicketRole} {role : TicketRole}
    (h : rolesOf calls turns = notes ++ role :: notes') (hlength : x.thread = notes.length) :
    rolesOf calls (turns ++ [x]) = notes ++ role.note x.step.op x.step.ans :: notes' ++ given x.step.op x.step.ans := by
  have hmodify : ∀ f : TicketRole → TicketRole, (notes ++ role :: notes').modify notes.length f = notes ++ f role :: notes' := by
    intro f
    clear h hlength
    induction notes with
    | nil => rfl
    | cons a notes ih => exact congrArg (a :: ·) ih
  unfold rolesOf at h ⊢
  rw [List.foldl_append, h, List.foldl_cons, List.foldl_nil, hlength, hmodify]

/-- What the threads hold, with the one whose turn it is in front. -/
theorem held_perm (notes notes' more : List TicketRole) (role : TicketRole) :
    ((notes ++ role :: notes' ++ more).flatMap held).Perm
      (role.held ++ (more.flatMap held ++ (notes.flatMap held ++ notes'.flatMap held))) := by
  simp only [List.flatMap_append, List.flatMap_cons, List.append_assoc]
  refine (List.perm_append_comm_assoc _ _ _).trans (List.Perm.append_left _ ?_)
  rw [← List.append_assoc]
  exact List.perm_append_comm

theorem Tracked.step {s : HydratorState} {before after : List HydratorThread} {o : HydratorOp}
    {k : Except Exn o.Ans → HydratorThread} {notes notes' : List TicketRole} {role : TicketRole} (choice : RestoreChoice)
    (h : Tracked config calls turns { state := s, threads := before ++ .call o k :: after } (notes ++ role :: notes'))
    (hlength : before.length = notes.length)
    (hobeys : System.Obeying note Possible Allowed Done (before ++ .call o k :: after) (notes ++ role :: notes'))
    (hallowed : Allowed role o) :
    Tracked config calls
      (turns ++ [{ before := { state := s, threads := before ++ .call o k :: after }, thread := before.length
                   step := (hydratorMachine config).step s o choice }])
      { state := (s.exec config choice o).2
        threads := before ++ k (s.exec config choice o).1 :: after ++ hydratorForks config o (s.exec config choice o).1 }
      (notes ++ role.note o (s.exec config choice o).1 :: notes' ++ given o (s.exec config choice o).1) := by
  have hsound : Sound s (role.held ++ (notes.flatMap held ++ notes'.flatMap held)) := by
    have hperm := held_perm notes notes' [] role
    rw [List.append_nil] at hperm
    exact h.sound.perm hperm
  have hnoted := rolesOf_concat { before := { state := s, threads := before ++ .call o k :: after }, thread := before.length
                                  step := (hydratorMachine config).step s o choice } h.noted hlength
  have hreturned : ∀ x ∈ turns ++ [{ before := { state := s, threads := before ++ .call o k :: after }, thread := before.length
                                     step := (hydratorMachine config).step s o choice }], ∀ t, Returned x.before t →
      Returned { state := (s.exec config choice o).2
                 threads := before ++ k (s.exec config choice o).1 :: after ++ hydratorForks config o (s.exec config choice o).1 } t := by
    intro x hx t ht
    rcases List.mem_append.1 hx with hx | hx
    · exact returned_step (h.stays x hx t ht)
    · rw [List.mem_singleton.1 hx] at ht
      exact returned_step ht
  by_cases hforget : ∃ t, o = .forget t
  · obtain ⟨t, rfl⟩ := hforget
    obtain rfl : role = requesting t := by
      cases role with
      | requesting t' => rw [show t = t' from hallowed]
      | working held => exact hallowed.elim
      | returning t' => exact hallowed.elim
    obtain ⟨hkeeps, hgone, hsettled⟩ := Sound.forget hsound
    have hstate : (s.exec config choice (.forget t)).2 = { s with tickets := s.tickets.erase t.catalogPath } := exec_forget hsound
    refine ⟨hnoted, ?_, armed_exec h.armed, hreturned, fun x hx t' ht' => ?_, fun hnone t' ht' => ?_⟩
    · show Sound (s.exec config choice (.forget t)).2 _
      rw [hstate]
      exact hkeeps.perm (held_perm notes notes' [] (working [])).symm
    · show Gone (s.exec config choice (.forget t)).2 t'
      rw [hstate]
      rcases List.mem_append.1 hx with hx | hx
      · exact hgone t' (.inr (h.gone x hx t' ht'))
      · rw [List.mem_singleton.1 hx] at ht'
        have hop : HydratorOp.forget t = .forget t' := ht'
        injection hop with hop
        exact hgone t' (.inl hop.symm)
    · show Settled (s.exec config choice (.forget t)).2 t'
      rw [hstate]
      have hrole : returning t' ∈ notes ++ requesting t :: notes' := by
        have hmem : returning t' ∈ notes ++ working [] :: notes' ++ [] := ht'
        simpa using hmem
      refine hsettled t' ?_ (h.settled (fun x hx => hnone x (List.mem_append_left _ hx)) t' hrole)
      rintro rfl
      exact hnone _ (List.mem_append_right _ List.mem_cons_self) t' rfl ((returned_iff hobeys t').2 hrole)
  · obtain ⟨hmoves, hreturning⟩ : StepSound s role _ o (s.exec config choice o).1 (s.exec config choice o).2 :=
      stepSound_exec hsound hallowed fun t ht => hforget ⟨t, ht⟩
    refine ⟨hnoted, hmoves.sound.perm (held_perm notes notes' _ _).symm, armed_exec h.armed, hreturned, fun x hx t ht => ?_,
      fun hnone t ht => ?_⟩
    · rcases List.mem_append.1 hx with hx | hx
      · exact hmoves.gone t (h.gone x hx t ht)
      · rw [List.mem_singleton.1 hx] at ht
        exact absurd ⟨t, ht⟩ hforget
    · have hold := h.settled fun x hx => hnone x (List.mem_append_left _ hx)
      rcases List.mem_append.1 ht with ht | ht
      · rcases List.mem_append.1 ht with ht | ht
        · exact hmoves.settled t (hold t (List.mem_append_left _ ht))
        · rcases List.mem_cons.1 ht with ht | ht
          · exact hreturning t ht.symm
          · exact hmoves.settled t (hold t (List.mem_append_right _ (List.mem_cons_of_mem _ ht)))
      · exact absurd ht (returning_not_given t o _)

theorem possible_exec (config : HydratorConfig) (s : HydratorState) (choice : RestoreChoice) (o : HydratorOp) :
    Possible o (s.exec config choice o).1 := by
  cases o with
  | forget | spawnResume | takeBatch | close | fail | finish | enqueue => exact ⟨_, rfl⟩
  | discardStaged staged => exact ⟨(), rfl⟩
  | storeVerified checksum staged =>
    intro e he
    replace he : (s.storeVerified config choice checksum staged).1 = .error e := he
    unfold HydratorState.storeVerified at he
    split at he
    · exact .inr (Except.error.inj he ▸ rfl)
    · exact .inr (Except.error.inj he ▸ rfl)
    · split at he
      · exact .inl (Except.error.inj he ▸ rfl)
      · cases he
  | _ => trivial

/-- What is held at all is held at one place. -/
theorem place_unique {roles : List TicketRole} {t : Ticket} (hcount : (roles.flatMap held).count t ≤ 1) {i j : Nat}
    {role role' : TicketRole} (hi : roles[i]? = some role) (ht : t ∈ role.held) (hj : roles[j]? = some role') (ht' : t ∈ role'.held) :
    j = i := by
  induction roles generalizing i j with
  | nil => simp at hi
  | cons first roles ih =>
    rw [List.flatMap_cons, List.count_append] at hcount
    have hlater : ∀ (n : Nat) (r : TicketRole), roles[n]? = some r → t ∈ r.held → 0 < (roles.flatMap held).count t := fun n r hn hr =>
      List.count_pos_iff.2 (List.mem_flatMap.2 ⟨r, List.mem_of_getElem? hn, hr⟩)
    cases i with
    | zero =>
      obtain rfl : first = role := by simpa using hi
      have hpos := List.count_pos_iff.2 ht
      cases j with
      | zero => rfl
      | succ j =>
        have hpos' := hlater j role' (by simpa using hj) ht'
        omega
    | succ i =>
      have hpos := hlater i role (by simpa using hi) ht
      cases j with
      | zero =>
        obtain rfl : first = role' := by simpa using hj
        have hpos' := List.count_pos_iff.2 ht'
        omega
      | succ j => exact congrArg (· + 1) (ih (by omega) (by simpa using hi) (by simpa using hj))

/-- A held ticket is held by one running thread, which will see to it. -/
theorem owned_of_held {sys : HydratorSystem} {roles : List TicketRole} {t : Ticket}
    (hobeys : System.Obeying note Possible Allowed Done sys.threads roles) (hcount : (roles.flatMap held).count t ≤ 1)
    (h : t ∈ roles.flatMap held) : Owned sys roles t := by
  obtain ⟨role, hrole, ht⟩ := List.mem_flatMap.1 h
  obtain ⟨i, hi⟩ := List.mem_iff_getElem?.1 hrole
  obtain ⟨hlt, hget⟩ := List.getElem?_eq_some_iff.1 hi
  have hlt' : i < sys.threads.length := by rw [hobeys.length_eq]; exact hlt
  have hsees : role.SeesTo sys.threads[i] := hget ▸ List.Forall₂.get hobeys hlt' hlt
  refine ⟨i, sys.threads[i], role, List.getElem?_eq_getElem hlt', hi, ht, ?_, hsees, fun j role' hj ht' =>
    place_unique hcount hi ht hj ht'⟩
  cases hp : sys.threads[i] with
  | call o k => rfl
  | ret value =>
    rw [hp] at hsees
    have hdone : Done value role := hsees
    cases role with
    | working tickets =>
      rw [show tickets = [] from hdone.1] at ht
      cases ht
    | requesting t' => exact hdone.elim
    | returning t' => cases ht

theorem waits_of_queued {sys : HydratorSystem} {t : Ticket} (harmed : Armed config sys.state sys.threads)
    (hkeys : sys.state.pending.keys.Nodup) (h : t ∈ queued sys.state) : Waits config sys t := by
  obtain ⟨⟨tapeKey, batch⟩, hmem, ht⟩ := List.mem_flatMap.1 h
  have hget := Dict.get?_of_mem hkeys hmem
  have htimer := harmed.timed tapeKey batch hget
  exact ⟨tapeKey, batch, hget, ht, htimer, harmed.armed tapeKey htimer⟩

theorem tracked_start (world : RestoreWorld) (cached : Dict String Bytes) :
    Tracked config calls [] (hydratorSystem world cached calls) (calls.map fun _ => working []) := by
  have hheld : (calls.map fun _ => working []).flatMap held = [] := by
    simp [TicketRole.held]
  have hempty : ∀ {β : Type} {x : β}, x ∉ ([] : List β) := List.not_mem_nil
  refine ⟨rfl, ?_, ⟨fun tapeKey batch hbatch => ?_, fun _ h => absurd h hempty⟩, fun _ h => absurd h hempty,
    fun _ h => absurd h hempty, fun _ t ht => ?_⟩
  · rw [hheld]
    refine ⟨fun _ => Nat.zero_le _, List.nodup_nil, fun t ht => ht.elim (absurd · hempty) (absurd · hempty), fun path t ht => ?_,
      fun t ht => ?_⟩
    · rw [show (hydratorSystem world cached calls).state.tickets = [] from rfl, Dict.get?_nil] at ht
      cases ht
    · rw [HydratorState.isDone, show (hydratorSystem world cached calls).state.data = [] from rfl, Dict.get?_nil] at ht
      cases ht
  · rw [show (hydratorSystem world cached calls).state.pending = [] from rfl, Dict.get?_nil] at hbatch
    cases hbatch
  · obtain ⟨_, -, hcall⟩ := List.mem_map.1 ht
    cases hcall

end runs

end TicketAux

open TicketAux

/-- **No ticket is lost or doubled, unless one is taken back that was given away.** Calls of any number, the timers and the workers
they start, restore jobs of others and a shutdown run in any interleaving, and whatever is outside may fail. Every ticket that was
given to a caller is done, waits for an armed timer, or is held by just one running thread that will see to it, and of each path
one ticket at most that somebody has is not done, if and only if no request whose lookup raised took back a ticket that another
request had been given. -/
theorem tickets_kept_iff (config : HydratorConfig) (world : RestoreWorld) (cached : Dict String Bytes) (calls : List HydratorCall)
    (sched : List (Nat × RestoreChoice)) :
    let turns := System.trace (hydratorMachine config) (hydratorForks config) sched (hydratorSystem world cached calls)
    let sys := System.run (hydratorMachine config) (hydratorForks config) sched (hydratorSystem world cached calls)
    TicketsKept config sys (rolesOf calls turns) ↔ ∀ x ∈ turns, TakesBackNone x := by
  intro turns sys
  have hstart : System.Obeying TicketRole.note TicketRole.Possible TicketRole.Allowed TicketRole.Done
      (hydratorSystem world cached calls).threads (calls.map fun _ => .working []) :=
    List.forall₂_map_left_iff.2 (List.forall₂_map_right_iff.2 (List.forall₂_same.2 fun call _ => seesTo_thread call))
  obtain ⟨roles, htracked, hobeys⟩ := System.invariant_of_obeys (M := hydratorMachine config) (I := Tracked config calls)
    (fun o => ⟨.error { cls := .assertion, message := "" }⟩) (fun s o choice => possible_exec config s choice o) (fun o a _ => forall₂_forks config o a)
    (fun _ _ _ _ _ _ _ _ _ choice hlength hobeys h hallowed => h.step choice hlength hobeys hallowed) hstart
    (tracked_start world cached) sched
  rw [htracked.noted]
  constructor
  · intro h x hx t ht hreturned
    obtain ⟨-, hopen, hno⟩ := htracked.gone x hx t ht
    rcases h.returned t (htracked.stays x hx t hreturned) with hdone | ⟨tapeKey, batch, hbatch, hmem, -⟩ | ⟨i, p, role, -, hi, hmem, -⟩
    · rw [hopen] at hdone
      cases hdone
    · exact hno (htracked.sound.registered t (.inr (List.mem_flatMap.2 ⟨_, Dict.mem_of_get? hbatch, hmem⟩))).1
    · exact hno (htracked.sound.registered t (.inl (List.mem_flatMap.2 ⟨role, List.mem_of_getElem? hi, hmem⟩))).1
  · intro h
    have hsettled := htracked.settled h
    have hregistered : ∀ t, InUse sys roles t → sys.state.isDone t = false → sys.state.tickets.get? t.catalogPath = some t := by
      rintro t (hreturned | hreg | hqueued | hheld) hopen
      · exact (hsettled t ((returned_iff hobeys t).1 hreturned)).resolve_left (by rw [hopen]; exact Bool.false_ne_true)
      · exact hreg
      · exact (htracked.sound.registered t (.inr hqueued)).1
      · exact (htracked.sound.registered t (.inl hheld)).1
    refine ⟨fun t hreturned => ?_, fun t t' ht ht' hopen hopen' hpath => ?_⟩
    · cases hdone : sys.state.isDone t with
      | true => exact .inl rfl
      | false =>
        have hreg := hregistered t (.inl hreturned) hdone
        obtain ⟨-, -, hcase⟩ := htracked.sound.registry _ t hreg
        rcases hcase with hdone' | hheld | hqueued
        · rw [hdone] at hdone'
          cases hdone'
        · refine .inr (.inr (owned_of_held hobeys ?_ hheld))
          have honce := htracked.sound.once t
          omega
        · exact .inr (.inl (waits_of_queued htracked.armed htracked.sound.keys hqueued))
    · have hreg := hregistered t ht hopen
      rw [hpath, hregistered t' ht' hopen'] at hreg
      exact (Option.some.inj hreg).symm

/-- A file that is catalogued. -/
def strandedRecord : FileRecord where
  id := 1
  path := "/a"
  sizeBytes := 1
  checksumSha256 := "c"
  volumeGroupId := 0
  shardCount := none
  shardIndex := none
  blockSize := none
  shardProfile := none
  parentId := none
  createdAt := 0

/-- It has no archived instance. -/
def strandedWorld : RestoreWorld := { catalog := { records := [strandedRecord] } }

def strandedConfig : HydratorConfig where
  sha256 _ := ""
  stagingRoot := { root := "/", parts := ["staging"] }

/-- The first request takes a ticket, the second joins it, the first looks up the tape in vain, and a third request is made. -/
def strandedSchedule : List (Nat × RestoreChoice) :=
  [(0, {}), (0, {}), (1, {}), (1, {}), (0, {}), (0, {}), (0, {}), (2, {}), (2, {})]

/-- The ticket that the second request was given will never be done, and there is another for its path. -/
theorem request_strands_joined_ticket :
    let calls := [HydratorCall.request "/a", .request "/a", .request "/a"]
    let turns := System.trace (hydratorMachine strandedConfig) (hydratorForks strandedConfig) strandedSchedule
      (hydratorSystem strandedWorld [] calls)
    let sys := System.run (hydratorMachine strandedConfig) (hydratorForks strandedConfig) strandedSchedule
      (hydratorSystem strandedWorld [] calls)
    let t : Ticket := { id := 0, catalogPath := "/a", checksum := "c" }
    let t' : Ticket := { id := 1, catalogPath := "/a", checksum := "c" }
    Returned sys t ∧ sys.state.isDone t = false ∧ sys.state.pending = [] ∧ sys.state.tickets = [("/a", t')] ∧
      sys.state.isDone t' = false ∧ ¬TicketsKept strandedConfig sys (rolesOf calls turns) := by
  intro calls turns sys t t'
  have hstate : sys.state.isDone t = false ∧ sys.state.pending = [] ∧ sys.state.tickets = [("/a", t')] ∧ sys.state.isDone t' = false := by
    subst sys
    decide +kernel
  have hvalue : (sys.threads[1]?.bind Prog.value?).map (fun value => value.1.toOption) = some (some (some t)) := by
    subst sys
    decide +kernel
  obtain ⟨hopen, hpending, htickets, hopen'⟩ := hstate
  have hreturned : Returned sys t := by
    obtain ⟨⟨outcome, l⟩, hthread, houtcome⟩ := Option.map_eq_some_iff.1 hvalue
    obtain ⟨p, hp, hended⟩ := Option.bind_eq_some_iff.1 hthread
    rw [Prog.value?_eq_some.1 hended] at hp
    cases outcome with
    | error e => cases houtcome
    | ok given =>
      obtain rfl : given = some t := Option.some.inj houtcome
      exact ⟨l, List.mem_of_getElem? hp⟩
  refine ⟨hreturned, hopen, hpending, htickets, hopen', fun h => ?_⟩
  have hreg : sys.state.tickets.get? t'.catalogPath = some t' := by
    rw [htickets]
    rfl
  have hsame : t = t' := h.single t t' (.inl hreturned) (.inr (.inl hreg)) hopen hopen' rfl
  exact Nat.zero_ne_one (congrArg Ticket.id hsame)

end OpenBlade
