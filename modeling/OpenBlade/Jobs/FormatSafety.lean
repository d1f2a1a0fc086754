import OpenBlade.Effects.Protocol
import OpenBlade.Jobs.Format

/-!
# Formats are authorised

Clients call `dry_run` and `confirm` side by side, in any interleaving of their single steps. A call follows a protocol: it saves
only a token it has just drawn, and formats only under a token it has looked up, consumed and found unexpired, once. Tokens are
drawn once and consumed once, so no two formats are authorised by one.
-/

namespace OpenBlade

open Effects Proc

namespace ClientStep

variable {ι : Type}

/-- The client saves the token. -/
def Issues (token : SafetyToken) (x : ClientStep ι) : Prop := x.2.op = .catalog (.saveSafetyToken token)

/-- The client deletes the row of a token, and is told that it did. -/
def Consumes (tokenValue : String) : ClientStep ι → Prop
  | ⟨_, _, .catalog (.deleteSafetyToken value), .ok (deleted : Bool), _⟩ => value = tokenValue ∧ deleted = true
  | _ => False

theorem op_of_consumes {tokenValue : String} {x : ClientStep ι} (h : x.Consumes tokenValue) :
    x.2.op = .catalog (.deleteSafetyToken tokenValue) := by
  unfold Consumes at h
  split at h
  · rw [h.1]
  · exact h.elim

/-- The client has a cartridge formatted under the confirmation. -/
def Formats (barcode : Barcode) (confirmation : FormatConfirmation) (x : ClientStep ι) : Prop :=
  x.2.op = .ltfs (.format barcode confirmation)

end ClientStep

section Authorised

variable {ι : Type} (svc : FormatService) (calls : ι → FormatCall) (hist : List (ClientStep ι))

/-- A dry run for the cartridge of the token has saved it. -/
def Issued (token : SafetyToken) : Prop :=
  ∃ x ∈ hist, x.Issues token ∧ ∃ barcode, calls x.1 = .dryRun barcode ∧ svc.normalizeBarcode barcode = token.targetBarcode

/-- The token was issued, and after that the client consumed it, at a time that has `P`. -/
def Consumed (i : ι) (token : SafetyToken) (P : Int → Prop) : Prop :=
  ∃ past x, past ++ [x] <+: hist ∧ x.1 = i ∧ x.Consumes token.token ∧ P x.2.post.clock ∧ Issued svc calls past token

/-- The token was issued, and the client consumed it when it had not expired. -/
abbrev Authorised (i : ι) (token : SafetyToken) : Prop := Consumed svc calls hist i token fun now => now < token.expiresAt

end Authorised

/-! ### The protocol of a call -/

/-- How far a call has come. -/
inductive FormatPhase where
  | idle
  /-- It has drawn the text of a token. -/
  | drawn (tokenValue : String)
  /-- It has looked the token of a text up. -/
  | looked (tokenValue : String) (token : SafetyToken)
  /-- It has consumed the token. -/
  | holding (token : SafetyToken)
  /-- It has then found the token unexpired. -/
  | cleared (token : SafetyToken)
  | ended
  deriving Repr, DecidableEq

namespace FormatPhase

/-- What the time says of the token a call holds. -/
def check : FormatPhase → Int → FormatPhase
  | .holding token, now => if now < token.expiresAt then .cleared token else .ended
  | phase, _ => phase

/-- The token a call has looked up is consumed, or was consumed before. -/
def consume : FormatPhase → Bool → FormatPhase
  | .looked _ token, deleted => if deleted then .holding token else .ended
  | phase, _ => phase

/-- What is noted of a call and its answer. -/
def note (phase : FormatPhase) : (o : Op) → Except Exn o.Ans → FormatPhase
  | .host .uuid4, .ok (tokenValue : String) => .drawn tokenValue
  | .catalog (.saveSafetyToken _), _ => .ended
  | .catalog (.getSafetyToken tokenValue), .ok (some (token : SafetyToken)) => .looked tokenValue token
  | .catalog (.deleteSafetyToken _), .ok (deleted : Bool) => phase.consume deleted
  | .host .time, .ok (now : Int) => phase.check now
  | .ltfs (.format _ _), _ => .ended
  | _, _ => phase

/-- What a call of the service may do next. -/
def allows (svc : FormatService) (call : FormatCall) (phase : FormatPhase) : Op → Prop
  | .host .uuid4 | .catalog (.getSafetyToken _) => phase = .idle
  | .catalog (.saveSafetyToken token) =>
    phase = .drawn token.token ∧ ∃ barcode, call = .dryRun barcode ∧ svc.normalizeBarcode barcode = token.targetBarcode
  | .catalog (.deleteSafetyToken tokenValue) => ∃ token, phase = .looked tokenValue token
  | .ltfs (.format barcode confirmation) =>
    phase = .cleared confirmation.safetyToken ∧ confirmation.safetyToken.targetBarcode = barcode
  | _ => True

/-- Calls that say nothing of tokens. -/
def isPlain : Op → Bool
  | .host .uuid4 | .host .time | .catalog (.saveSafetyToken _) | .catalog (.getSafetyToken _) | .catalog (.deleteSafetyToken _)
  | .ltfs (.format _ _) => false
  | _ => true

/-- A plain call may be made at any time. -/
theorem allows_plain {svc : FormatService} {call : FormatCall} {phase : FormatPhase} {o : Op} (h : isPlain o = true) :
    phase.allows svc call o := by
  cases o with
  | catalog o => cases o <;> trivial
  | lease o => trivial
  | library o => trivial
  | ltfs o => cases o <;> trivial
  | host o => cases o <;> trivial

/-- A plain call is not noted. -/
theorem note_plain {phase : FormatPhase} {o : Op} (h : isPlain o = true) (a : Except Exn o.Ans) : phase.note o a = phase := by
  cases o with
  | catalog o => cases o <;> first | rfl | cases h
  | lease o => rfl
  | library o => rfl
  | ltfs o => cases o <;> first | rfl | cases h
  | host o => cases o <;> first | rfl | cases h

variable {svc : FormatService} {call : FormatCall} {L : Type} {l : L}

/-- Whatever is true of a phase stays true over plain calls. -/
theorem stable_plain (J : FormatPhase → Prop) :
    Stable (havoc note) (.protocol (allows svc call)) (fun o => isPlain o = true) J :=
  stable_follows fun _ ho phase hJ => ⟨allows_plain ho, fun a => by rwa [note_plain ho a]⟩

theorem plain_of_isRowOf {request : TapeOpRequest} {o : Op} (h : o.isRowOf request = true) : isPlain o = true := by
  unfold Op.isRowOf at h
  split at h
  · rfl
  · rfl
  · cases h

/-- The token is held and unexpired, or a format has been made under it. -/
def Spent (token : SafetyToken) (phase : FormatPhase) : Prop := phase = .cleared token ∨ phase = .ended

/-- Plain calls with a token that is cleared leave it so, or spent. -/
theorem wp_plain {α : Type} {m : JobM L α} (h : Reads (fun o => isPlain o = true) m) (J : FormatPhase → Prop) {phase : FormatPhase}
    (hJ : J phase) :
    wp (havoc note) (.protocol (allows svc call)) m (fun _ l' phase' => l' = l ∧ J phase') (fun _ l' phase' => l' = l ∧ J phase') l
      phase := by
  refine wp_mono (h.keeps (stable_plain J) hJ) ?_ ?_
  · exact fun _ l' phase' h => ⟨h.1.symm, h.2⟩
  · exact fun _ l' phase' h => ⟨h.1.symm, h.2⟩

/-- The orchestrator formats once, under the confirmation of the request. -/
theorem wp_orchestratorFormat {request : TapeOpRequest} {confirmation : FormatConfirmation}
    (hconf : request.formatConfirmation = some confirmation) (hb : confirmation.safetyToken.targetBarcode = request.barcode) :
    wp (havoc note) (.protocol (allows svc call)) (orchestratorFormat request)
      (fun _ l' phase => l' = l ∧ Spent confirmation.safetyToken phase)
      (fun _ l' phase => l' = l ∧ Spent confirmation.safetyToken phase) l (.cleared confirmation.safetyToken) := by
  unfold orchestratorFormat
  rw [hconf]
  simp only []
  rw [wp_bind]
  refine wp_follows trivial (fun now => ?_) fun e => ⟨rfl, .inl rfl⟩
  show wp _ _ _ _ _ l (FormatPhase.cleared confirmation.safetyToken)
  rw [wp_bind, wp_ofExcept]
  cases confirmation.validate now request.barcode with
  | error e => exact ⟨rfl, .inl rfl⟩
  | ok u =>
    simp only []
    rw [wp_bind]
    refine wp_mono (wp_plain (reads_orchestratorEnsureLoaded (fun _ => rfl) _ _) (fun phase => phase = .cleared confirmation.safetyToken) rfl)
      ?_ fun _ l' phase h => ⟨h.1, .inl h.2⟩
    intro loaded l' phase h
    obtain ⟨rfl, rfl⟩ := h
    obtain ⟨driveId, loadedSlot⟩ := loaded
    have hunload : wp (havoc note) (.protocol (allows svc call)) (unloadIfLoaded driveId loadedSlot : JobM L Unit)
        (fun _ l₁ phase => l₁ = l' ∧ Spent confirmation.safetyToken phase)
        (fun _ l₁ phase => l₁ = l' ∧ Spent confirmation.safetyToken phase) l' .ended :=
      wp_plain (reads_unloadIfLoaded (fun _ => rfl) _ _) (Spent confirmation.safetyToken) (.inr rfl)
    rw [wp_bind, wp_ensure]
    refine wp_follows ⟨rfl, hb⟩ (fun result => ?_) fun e => ?_
    · exact wp_mono hunload (fun _ l' phase h => h) fun _ l' phase h => h
    · exact wp_mono hunload (fun _ l' phase h => h) fun _ l' phase h => h

/-- The job formats at most once, under the token that was consumed for the cartridge, unless it has expired. -/
theorem wp_runFormatJob {barcode : Barcode} {confirmation : FormatConfirmation}
    (hb : confirmation.safetyToken.targetBarcode = barcode) :
    wp (havoc note) (.protocol (allows svc call)) (runFormatJob barcode confirmation : JobM L OperationResult)
      (fun _ _ phase => Spent confirmation.safetyToken phase) (fun _ _ _ => True) l (.holding confirmation.safetyToken) := by
  unfold runFormatJob
  rw [wp_bind]
  refine wp_follows trivial (fun now => ?_) fun e => trivial
  rw [wp_bind, wp_ofExcept]
  cases hv : confirmation.validate now barcode with
  | error e => trivial
  | ok u =>
    have hnow := FormatConfirmation.unexpired_of_validate hv
    have hcleared : (FormatPhase.holding confirmation.safetyToken).note (.host .time) (.ok now) =
        .cleared confirmation.safetyToken := if_pos hnow
    rw [hcleared]
    simp only []
    rw [wp_bind]
    refine wp_mono (wp_executeTapeRequest_ends true (I := fun phase => phase = .cleared confirmation.safetyToken)
      (J := Spent confirmation.safetyToken) (fun h => TapeOpType.noConfusion h) ?_ ?_ rfl ?_) ?_ fun _ _ _ _ => trivial
    · exact fun o ho => stable_plain _ o (plain_of_isRowOf ho)
    · exact fun o ho => stable_plain _ o (plain_of_isRowOf ho)
    · rintro phase rfl
      simp only [dispatch]
      rw [wp_bind]
      refine wp_mono (wp_plain (reads_resolveDriveForWrite (fun _ => rfl) _)
        (fun phase => phase = .cleared confirmation.safetyToken) rfl) ?_ fun _ l' phase h => ⟨h.1, .inl h.2⟩
      intro _ l' phase h
      obtain ⟨rfl, rfl⟩ := h
      exact wp_orchestratorFormat rfl hb
    · exact fun record l' phase h => h.2

theorem follows_confirm (barcode tokenValue : String) :
    wp (havoc note) (.protocol (allows svc call)) (svc.confirm barcode tokenValue : JobM L OperationResult)
      (fun _ _ _ => True) (fun _ _ _ => True) l .idle := by
  unfold FormatService.confirm
  rw [wp_bind, wp_ofExcept]
  cases svc.requireScratchMedia (svc.normalizeBarcode barcode) with
  | error e => trivial
  | ok u =>
    simp only []
    rw [wp_bind]
    refine wp_follows rfl (fun found => ?_) fun e => trivial
    cases found with
    | none => trivial
    | some token =>
      show wp _ _ (ite _ _ _) _ _ l (FormatPhase.looked tokenValue token)
      by_cases hauth : token.operation ≠ "format" ∨ token.targetBarcode ≠ svc.normalizeBarcode barcode
      · rw [if_pos hauth]
        trivial
      rw [if_neg hauth, wp_bind]
      refine wp_follows ⟨token, rfl⟩ (fun deleted => ?_) fun e => trivial
      cases deleted with
      | false => trivial
      | true =>
        have hb : token.targetBarcode = svc.normalizeBarcode barcode := by
          by_contra hne
          exact hauth (.inr hne)
        show wp _ _ _ _ _ l (FormatPhase.holding token)
        rw [if_neg (fun h => Bool.noConfusion h), wp_bind]
        refine wp_mono (wp_runFormatJob hb) ?_ fun _ _ _ _ => trivial
        intro result l' phase hspent
        have hrest : Reads (fun o => isPlain o = true)
            ((do
              let cartridge ← addCartridge (svc.normalizeBarcode barcode) none
              saveCartridge { cartridge with formatted := true, usedBytes := 0 }
              pure result) : JobM L OperationResult) :=
          only_bind (only_perform rfl) fun cartridge => only_bind (only_perform rfl) fun _ => only_pure _
        exact wp_mono (wp_plain hrest (fun _ => True) trivial) (fun _ _ _ _ => trivial) fun _ _ _ _ => trivial

theorem follows_dryRun (barcode : String) :
    wp (havoc note) (.protocol (allows svc (.dryRun barcode))) (svc.dryRun barcode : JobM L (DryRunPlan × SafetyToken))
      (fun _ _ _ => True) (fun _ _ _ => True) l .idle := by
  unfold FormatService.dryRun
  rw [wp_bind, wp_ofExcept]
  cases svc.requireScratchMedia (svc.normalizeBarcode barcode) with
  | error e => trivial
  | ok u =>
    simp only []
    rw [wp_bind]
    refine wp_follows trivial (fun inv => ?_) fun e => trivial
    show wp _ _ (ite _ _ _) _ _ l FormatPhase.idle
    by_cases hknown : svc.normalizeBarcode barcode ∉ FormatService.knownBarcodes inv
    · rw [if_pos hknown]
      trivial
    rw [if_neg hknown, wp_bind]
    unfold SafetyToken.generate
    rw [wp_bind]
    refine wp_follows rfl (fun tokenValue => ?_) fun e => trivial
    rw [wp_bind]
    refine wp_follows trivial (fun now => ?_) fun e => trivial
    rw [wp_pure, wp_bind]
    exact wp_follows ⟨rfl, barcode, rfl, rfl⟩ (fun _ => trivial) fun e => trivial

/-- Every call follows its protocol. -/
theorem follows_call (svc : FormatService) (call : FormatCall) : (svc.call call ()).Follows note (allows svc call) .idle := by
  have hall : wp (havoc note) (.protocol (allows svc call)) (svc.call call) (fun _ _ _ => True) (fun _ _ _ => True) () .idle := by
    cases call with
    | dryRun barcode => exact (wp_bind _ _).2 (wp_mono (follows_dryRun barcode) (fun _ _ _ _ => trivial) fun _ _ _ _ => trivial)
    | confirm barcode tokenValue =>
      exact (wp_bind _ _).2 (wp_mono (follows_confirm barcode tokenValue) (fun _ _ _ _ => trivial) fun _ _ _ _ => trivial)
  exact Prog.wp_mono hall fun _ _ _ => trivial

end FormatPhase

/-! ### The tokens of an interleaving -/

namespace FormatAux

variable {ι : Type} {svc : FormatService} {calls : ι → FormatCall} {hist : List (ClientStep ι)} {x : ClientStep ι} {i : ι}
  {token : SafetyToken} {w w' : World} {phase : ι → FormatPhase} {next : FormatPhase}

theorem issued_concat (h : Issued svc calls hist token) : Issued svc calls (hist ++ [x]) token := by
  obtain ⟨y, hy, hissue⟩ := h
  exact ⟨y, List.mem_append_left _ hy, hissue⟩

theorem consumed_concat {P : Int → Prop} (h : Consumed svc calls hist i token P) : Consumed svc calls (hist ++ [x]) i token P := by
  obtain ⟨past, y, hpre, hrest⟩ := h
  exact ⟨past, y, hpre.trans (List.prefix_append _ _), hrest⟩

theorem consumed_mono {P Q : Int → Prop} (h : Consumed svc calls hist i token P) (hPQ : ∀ now, P now → Q now) :
    Consumed svc calls hist i token Q := by
  obtain ⟨past, y, hpre, hi, hy, hP, hissued⟩ := h
  exact ⟨past, y, hpre, hi, hy, hPQ _ hP, hissued⟩

/-- The text was drawn, and is neither in the table nor consumed. -/
structure Fresh (hist : List (ClientStep ι)) (w : World) (tokenValue : String) : Prop where
  drawn : ∃ n < w.draws, tokenValue = toString n
  unsaved : ∀ row ∈ w.catalog.safetyTokens, row.token ≠ tokenValue
  unconsumed : ∀ x ∈ hist, ¬x.Consumes tokenValue

/-- What a call that has come to the phase has behind it. -/
def PhaseOk (svc : FormatService) (calls : ι → FormatCall) (hist : List (ClientStep ι)) (w : World) (i : ι) : FormatPhase → Prop
  | .drawn tokenValue => Fresh hist w tokenValue
  | .looked tokenValue token => token.token = tokenValue ∧ Issued svc calls hist token
  | .holding token => Consumed svc calls hist i token fun now => now ≤ w.clock
  | .cleared token => Authorised svc calls hist i token
  | _ => True

/-- The invariant of tokens and formats. -/
structure Vouched (svc : FormatService) (calls : ι → FormatCall) (hist : List (ClientStep ι)) (w : World) (phase : ι → FormatPhase) :
    Prop where
  phases : ∀ i, PhaseOk svc calls hist w i (phase i)
  distinct : ∀ i j tokenValue, phase i = .drawn tokenValue → phase j = .drawn tokenValue → i = j
  issued : ∀ row ∈ w.catalog.safetyTokens ++ w.catalog.seenTokens, Issued svc calls hist row
  saved : ∀ row ∈ w.catalog.safetyTokens, ∃ n < w.draws, row.token = toString n
  gone : ∀ x ∈ hist, ∀ tokenValue, x.Consumes tokenValue →
    (∃ n < w.draws, tokenValue = toString n) ∧ ∀ row ∈ w.catalog.safetyTokens, row.token ≠ tokenValue
  once : Throughout (fun pre x => ∀ tokenValue, x.Consumes tokenValue → ∀ y ∈ pre, ¬y.Consumes tokenValue) hist
  authorised : Throughout (fun pre x => ∀ barcode confirmation, x.Formats barcode confirmation →
    confirmation.safetyToken.targetBarcode = barcode ∧ Authorised svc calls pre x.1 confirmation.safetyToken) hist
  formatted : ∀ x ∈ hist, ∀ barcode confirmation, x.Formats barcode confirmation → phase x.1 = .ended
  single : Throughout (fun pre x => ∀ barcode confirmation, x.Formats barcode confirmation →
    ∀ y ∈ pre, ∀ barcode' confirmation', y.Formats barcode' confirmation' → y.1 ≠ x.1) hist

theorem Fresh.concat {tokenValue : String} (h : Fresh hist w tokenValue) (hdraws : w.draws ≤ w'.draws)
    (hrows : ∀ row ∈ w'.catalog.safetyTokens, row ∈ w.catalog.safetyTokens ∨ row.token ≠ tokenValue)
    (hcons : x.Consumes tokenValue → ∃ row ∈ w.catalog.safetyTokens, row.token = tokenValue) :
    Fresh (hist ++ [x]) w' tokenValue := by
  obtain ⟨n, hn, heq⟩ := h.drawn
  refine ⟨⟨n, Nat.lt_of_lt_of_le hn hdraws, heq⟩, fun row hrow => ?_, fun y hy hyc => ?_⟩
  · exact (hrows row hrow).elim (h.unsaved row) id
  · rcases List.mem_append.1 hy with hy | hy
    · exact h.unconsumed y hy hyc
    · obtain rfl := List.mem_singleton.1 hy
      obtain ⟨row, hrow, hrt⟩ := hcons hyc
      exact h.unsaved row hrow hrt

theorem PhaseOk.concat (h : PhaseOk svc calls hist w i next) (hclock : w.clock ≤ w'.clock)
    (hdrawn : ∀ tokenValue, next = .drawn tokenValue → Fresh (hist ++ [x]) w' tokenValue) :
    PhaseOk svc calls (hist ++ [x]) w' i next := by
  cases next with
  | idle => trivial
  | drawn tokenValue => exact hdrawn tokenValue rfl
  | looked tokenValue token => exact ⟨h.1, issued_concat h.2⟩
  | holding token =>
    have hheld : Consumed svc calls hist i token fun now => now ≤ w.clock := h
    exact consumed_mono (consumed_concat hheld) fun now hnow => Int.le_trans hnow hclock
  | cleared token =>
    have hauth : Authorised svc calls hist i token := h
    exact consumed_concat hauth
  | ended => trivial

/-- One step of an interleaving: rows are saved under a text that was drawn, a text is consumed while its row is there, a format
is made under a token that was cleared, and the phase the client comes to is backed by what it has done. -/
theorem Vouched.step [DecidableEq ι] (h : Vouched svc calls hist w phase) (hclock : w.clock ≤ w'.clock) (hdraws : w.draws ≤ w'.draws)
    (hrows : ∀ row ∈ w'.catalog.safetyTokens, row ∈ w.catalog.safetyTokens ∨ x.Issues row)
    (hseen : ∀ row ∈ w'.catalog.seenTokens, row ∈ w.catalog.seenTokens ∨ x.Issues row)
    (hissue : ∀ row, x.Issues row → phase x.1 = .drawn row.token ∧ next = .ended ∧
      ∃ barcode, calls x.1 = .dryRun barcode ∧ svc.normalizeBarcode barcode = row.targetBarcode)
    (hcons : ∀ tokenValue, x.Consumes tokenValue → (∃ row ∈ w.catalog.safetyTokens, row.token = tokenValue) ∧
      ∀ row ∈ w'.catalog.safetyTokens, row.token ≠ tokenValue)
    (hformat : ∀ barcode confirmation, x.Formats barcode confirmation → phase x.1 = .cleared confirmation.safetyToken ∧
      confirmation.safetyToken.targetBarcode = barcode ∧ next = .ended)
    (hnext : PhaseOk svc calls (hist ++ [x]) w' x.1 next) (hended : phase x.1 = .ended → next = .ended)
    (hdistinct : ∀ tokenValue, next = .drawn tokenValue → ∀ j, phase j = .drawn tokenValue → j = x.1) :
    Vouched svc calls (hist ++ [x]) w' (Function.update phase x.1 next) := by
  have hdrawn_of_lt : ∀ tokenValue, (∃ n < w.draws, tokenValue = toString n) → ∃ n < w'.draws, tokenValue = toString n :=
    fun tokenValue ⟨n, hn, heq⟩ => ⟨n, Nat.lt_of_lt_of_le hn hdraws, heq⟩
  have hnew : ∀ row, x.Issues row → Issued svc calls (hist ++ [x]) row := fun row hrow =>
    ⟨x, by simp, hrow, (hissue row hrow).2.2⟩
  have hfresh : ∀ row, x.Issues row → Fresh hist w row.token := by
    intro row hrow
    have hok := h.phases x.1
    rwa [(hissue row hrow).1] at hok
  refine ⟨fun j => ?_, fun j k tokenValue hj hk => ?_, fun row hrow => ?_, fun row hrow => ?_, fun y hy tokenValue hyc => ?_, ?_, ?_,
    fun y hy barcode confirmation hyf => ?_, ?_⟩
  · by_cases hj : j = x.1
    · rw [hj, Function.update_self]
      exact hnext
    · rw [Function.update_of_ne hj]
      refine (h.phases j).concat hclock fun tokenValue hdr => ?_
      have hok := h.phases j
      rw [hdr] at hok
      refine Fresh.concat hok hdraws (fun row hrow => ?_) fun hc => (hcons _ hc).1
      refine (hrows row hrow).imp_right fun hi heq => hj ?_
      exact h.distinct j x.1 tokenValue hdr (heq ▸ (hissue row hi).1)
  · by_cases hjx : j = x.1 <;> by_cases hkx : k = x.1
    · rw [hjx, hkx]
    · rw [hjx, Function.update_self] at hj
      rw [Function.update_of_ne hkx] at hk
      exact absurd (hdistinct tokenValue hj k hk) hkx
    · rw [hkx, Function.update_self] at hk
      rw [Function.update_of_ne hjx] at hj
      exact absurd (hdistinct tokenValue hk j hj) hjx
    · rw [Function.update_of_ne hjx] at hj
      rw [Function.update_of_ne hkx] at hk
      exact h.distinct j k tokenValue hj hk
  · rcases List.mem_append.1 hrow with hrow | hrow
    · exact (hrows row hrow).elim (fun hr => issued_concat (h.issued row (List.mem_append_left _ hr))) (hnew row)
    · exact (hseen row hrow).elim (fun hr => issued_concat (h.issued row (List.mem_append_right _ hr))) (hnew row)
  · exact hdrawn_of_lt _ ((hrows row hrow).elim (h.saved row) fun hi => (hfresh row hi).drawn)
  · rcases List.mem_append.1 hy with hy | hy
    · obtain ⟨hnum, hrow⟩ := h.gone y hy tokenValue hyc
      refine ⟨hdrawn_of_lt _ hnum, fun row hr => ?_⟩
      exact (hrows row hr).elim (hrow row) fun hi heq => (hfresh row hi).unconsumed y hy (heq ▸ hyc)
    · obtain rfl := List.mem_singleton.1 hy
      obtain ⟨⟨row, hr, hrt⟩, hgone⟩ := hcons tokenValue hyc
      exact ⟨hdrawn_of_lt _ (hrt ▸ h.saved row hr), hgone⟩
  · refine throughout_concat h.once fun tokenValue hc y hy hyc => ?_
    obtain ⟨⟨row, hr, hrt⟩, -⟩ := hcons tokenValue hc
    exact (h.gone y hy tokenValue hyc).2 row hr hrt
  · refine throughout_concat h.authorised fun barcode confirmation hf => ?_
    obtain ⟨hcleared, hb, -⟩ := hformat barcode confirmation hf
    have hok := h.phases x.1
    rw [hcleared] at hok
    exact ⟨hb, hok⟩
  · rcases List.mem_append.1 hy with hy | hy
    · have hend := h.formatted y hy barcode confirmation hyf
      by_cases hyx : y.1 = x.1
      · rw [hyx, Function.update_self]
        exact hended (hyx ▸ hend)
      · rw [Function.update_of_ne hyx]
        exact hend
    · obtain rfl := List.mem_singleton.1 hy
      rw [Function.update_self]
      exact (hformat barcode confirmation hyf).2.2
  · refine throughout_concat h.single fun barcode confirmation hf y hy barcode' confirmation' hyf heq => ?_
    have hend := h.formatted y hy barcode' confirmation' hyf
    rw [heq, (hformat barcode confirmation hf).1] at hend
    cases hend

/-! ### The steps of a call -/

theorem draws_le (sha256 : Bytes → String) (c : Choice) (o : Op) : w.draws ≤ (w.exec sha256 o c).2.draws := by
  by_cases ho : o = .host .uuid4
  · subst ho
    exact (World.exec_uuid4 sha256).1
  · exact Nat.le_of_eq (World.exec_draws sha256 ho).symm

theorem clock_le (sha256 : Bytes → String) (c : Choice) (o : Op) : w.clock ≤ (w.exec sha256 o c).2.clock := by
  rw [World.exec_clock]
  omega

theorem toString_injective {m n : Nat} (h : toString m = toString n) : m = n := by
  have hdigits := congrArg String.toList (show m.repr = n.repr from h)
  rw [Nat.toList_repr, Nat.toList_repr] at hdigits
  simpa using congrArg (fun digits => Nat.ofDigitChars 10 digits 0) hdigits

section exec

variable (sha256 : Bytes → String) (c : Choice) {o : Op}

/-- A text that is fresh stays fresh over a call that saves and deletes nothing. -/
theorem fresh_exec {tokenValue : String} (h : Fresh hist w tokenValue) (hw : World.writesTokens o = false) :
    Fresh (hist ++ [(i, (machine sha256).step w o c)]) (w.exec sha256 o c).2 tokenValue := by
  refine h.concat (draws_le sha256 c o) (fun row hrow => .inl ?_) fun hc => ?_
  · rwa [(World.exec_tokens sha256 hw).1] at hrow
  · have ho : o = .catalog (.deleteSafetyToken tokenValue) := ClientStep.op_of_consumes hc
    subst ho
    cases hw

variable [DecidableEq ι]

/-- A call that neither saves nor deletes a token and formats nothing. -/
theorem vouched_quiet (h : Vouched svc calls hist w phase) (hw : World.writesTokens o = false)
    (hf : ∀ barcode confirmation, o ≠ .ltfs (.format barcode confirmation))
    (hnext : PhaseOk svc calls (hist ++ [(i, (machine sha256).step w o c)]) (w.exec sha256 o c).2 i next)
    (hended : phase i = .ended → next = .ended)
    (hdistinct : ∀ tokenValue, next = .drawn tokenValue → ∀ j, phase j = .drawn tokenValue → j = i) :
    Vouched svc calls (hist ++ [(i, (machine sha256).step w o c)]) (w.exec sha256 o c).2 (Function.update phase i next) := by
  obtain ⟨hrows, hseen⟩ := World.exec_tokens (w := w) sha256 (c := c) hw
  refine h.step (x := (i, (machine sha256).step w o c)) (clock_le sha256 c o) (draws_le sha256 c o) (fun row hrow => .inl (hrows ▸ hrow))
    (fun row hrow => .inl (hseen ▸ hrow)) (fun row hrow => ?_) (fun tokenValue hc => ?_)
    (fun barcode confirmation hfmt => absurd hfmt (hf barcode confirmation)) hnext hended hdistinct
  · have ho : o = .catalog (.saveSafetyToken row) := hrow
    subst ho
    cases hw
  · have ho : o = .catalog (.deleteSafetyToken tokenValue) := ClientStep.op_of_consumes hc
    subst ho
    cases hw

/-- A call after which the client is where it was. -/
theorem vouched_same (h : Vouched svc calls hist w phase) (hw : World.writesTokens o = false)
    (hf : ∀ barcode confirmation, o ≠ .ltfs (.format barcode confirmation)) (hnext : next = phase i) :
    Vouched svc calls (hist ++ [(i, (machine sha256).step w o c)]) (w.exec sha256 o c).2 (Function.update phase i next) := by
  subst hnext
  refine vouched_quiet sha256 c h hw hf ?_ id fun tokenValue hi j hj => h.distinct j i tokenValue hj hi
  refine (h.phases i).concat (clock_le sha256 c o) fun tokenValue hi => fresh_exec sha256 c ?_ hw
  have hok := h.phases i
  rwa [hi] at hok

theorem vouched_uuid4 (h : Vouched svc calls hist w phase) (ha : (phase i).allows svc (calls i) (.host .uuid4)) :
    Vouched svc calls (hist ++ [(i, (machine sha256).step w (.host .uuid4) c)]) (w.exec sha256 (.host .uuid4) c).2
      (Function.update phase i ((phase i).note (.host .uuid4) (w.exec sha256 (.host .uuid4) c).1)) := by
  have hidle : phase i = .idle := ha
  cases hans : (w.exec sha256 (.host .uuid4) c).1 with
  | error e => exact vouched_same sha256 c h rfl (fun _ _ ho => by cases ho) rfl
  | ok tokenValue =>
    obtain ⟨hval, hdraws⟩ := (World.exec_uuid4 sha256).2 tokenValue hans
    have hlt : ∀ {n : Nat}, n < w.draws → toString n ≠ tokenValue := by
      rintro n hn heq
      exact absurd (toString_injective (heq.trans hval)) (Nat.ne_of_lt hn)
    have hfresh : Fresh hist { w with draws := w.draws + 1 } tokenValue := by
      refine ⟨⟨w.draws, Nat.lt_succ_self _, hval⟩, fun row hrow heq => ?_, fun x hx hc => ?_⟩
      · obtain ⟨n, hn, hrn⟩ := h.saved row hrow
        exact hlt hn (hrn ▸ heq)
      · obtain ⟨⟨n, hn, hxn⟩, -⟩ := h.gone x hx tokenValue hc
        exact hlt hn hxn.symm
    refine vouched_quiet sha256 c h rfl (fun _ _ ho => by cases ho) ?_ (fun he => by rw [hidle] at he; cases he) ?_
    · refine hfresh.concat (Nat.le_of_eq hdraws.symm) (fun row hrow => .inl ?_) fun hc => ?_
      · rwa [(World.exec_tokens sha256 rfl).1] at hrow
      · cases ClientStep.op_of_consumes hc
    · intro text htext j hj
      obtain rfl : tokenValue = text := FormatPhase.drawn.inj htext
      have hok := h.phases j
      rw [hj] at hok
      obtain ⟨n, hn, heq⟩ := hok.drawn
      exact absurd heq.symm (hlt hn)

theorem vouched_time (h : Vouched svc calls hist w phase) :
    Vouched svc calls (hist ++ [(i, (machine sha256).step w (.host .time) c)]) (w.exec sha256 (.host .time) c).2
      (Function.update phase i ((phase i).note (.host .time) (w.exec sha256 (.host .time) c).1)) := by
  cases hans : (w.exec sha256 (.host .time) c).1 with
  | error e => exact vouched_same sha256 c h rfl (fun _ _ ho => by cases ho) rfl
  | ok now =>
    obtain rfl := World.exec_time sha256 hans
    show Vouched _ _ _ _ (Function.update phase i ((phase i).check (w.clock + c.elapsed)))
    have hnow : w.clock ≤ w.clock + c.elapsed := by omega
    generalize w.clock + (c.elapsed : Int) = now at hnow ⊢
    cases hphase : phase i with
    | holding token =>
      have hok := h.phases i
      rw [hphase] at hok
      have hheld : Consumed svc calls hist i token fun now => now ≤ w.clock := hok
      refine vouched_quiet sha256 c h rfl (fun _ _ ho => by cases ho) ?_ (fun he => by rw [hphase] at he; cases he) ?_
      · by_cases hlt : now < token.expiresAt
        · simp only [FormatPhase.check, if_pos hlt]
          exact consumed_concat (consumed_mono hheld fun t ht => Int.lt_of_le_of_lt (Int.le_trans ht hnow) hlt)
        · simp only [FormatPhase.check, if_neg hlt]
          trivial
      · intro tokenValue hd
        simp only [FormatPhase.check] at hd
        split at hd <;> cases hd
    | _ => exact vouched_same sha256 c h rfl (fun _ _ ho => by cases ho) hphase.symm

theorem vouched_getSafetyToken {tokenValue : String} (h : Vouched svc calls hist w phase)
    (ha : (phase i).allows svc (calls i) (.catalog (.getSafetyToken tokenValue))) :
    Vouched svc calls (hist ++ [(i, (machine sha256).step w (.catalog (.getSafetyToken tokenValue)) c)])
      (w.exec sha256 (.catalog (.getSafetyToken tokenValue)) c).2
      (Function.update phase i ((phase i).note _ (w.exec sha256 (.catalog (.getSafetyToken tokenValue)) c).1)) := by
  have hidle : phase i = .idle := ha
  cases hans : (w.exec sha256 (.catalog (.getSafetyToken tokenValue)) c).1 with
  | error e => exact vouched_same sha256 c h rfl (fun _ _ ho => by cases ho) rfl
  | ok found =>
    cases found with
    | none => exact vouched_same sha256 c h rfl (fun _ _ ho => by cases ho) rfl
    | some token =>
      have hfind : w.catalog.getSafetyToken c.stale tokenValue = some token := Except.ok.inj (World.exec_ok sha256 hans).1
      have hmem : token ∈ w.catalog.safetyTokens ++ w.catalog.seenTokens := by
        have := List.mem_of_find?_eq_some hfind
        split at this
        · exact List.mem_append_right _ this
        · exact List.mem_append_left _ this
      have htext : token.token = tokenValue := by simpa using List.find?_some hfind
      refine vouched_quiet sha256 c h rfl (fun _ _ ho => by cases ho) ⟨htext, issued_concat (h.issued token hmem)⟩
        (fun he => by rw [hidle] at he; cases he) fun _ hd => by cases hd

theorem vouched_saveSafetyToken {token : SafetyToken} (h : Vouched svc calls hist w phase)
    (ha : (phase i).allows svc (calls i) (.catalog (.saveSafetyToken token))) :
    Vouched svc calls (hist ++ [(i, (machine sha256).step w (.catalog (.saveSafetyToken token)) c)])
      (w.exec sha256 (.catalog (.saveSafetyToken token)) c).2 (Function.update phase i .ended) := by
  obtain ⟨hdrawn, hrun⟩ := ha
  obtain ⟨hsaved, hshown⟩ := World.exec_saveSafetyToken (w := w) sha256 (c := c) token
  refine h.step (x := (i, (machine sha256).step w (.catalog (.saveSafetyToken token)) c)) (clock_le sha256 c _) (draws_le sha256 c _)
    ?_ ?_ ?_ (fun tokenValue hc => by cases ClientStep.op_of_consumes hc) (fun _ _ hf => by cases hf) trivial (fun _ => rfl)
    fun _ hd => by cases hd
  · exact fun row hrow => (hsaved row hrow).imp_right fun heq => by rw [heq]; rfl
  · exact fun row hrow => (hshown row hrow).imp_right fun heq => by rw [heq]; rfl
  · intro row hrow
    obtain rfl : token = row := CatalogOp.saveSafetyToken.inj (Op.catalog.inj hrow)
    exact ⟨hdrawn, rfl, hrun⟩

theorem vouched_deleteSafetyToken {tokenValue : String} (h : Vouched svc calls hist w phase)
    (ha : (phase i).allows svc (calls i) (.catalog (.deleteSafetyToken tokenValue))) :
    Vouched svc calls (hist ++ [(i, (machine sha256).step w (.catalog (.deleteSafetyToken tokenValue)) c)])
      (w.exec sha256 (.catalog (.deleteSafetyToken tokenValue)) c).2
      (Function.update phase i ((phase i).note _ (w.exec sha256 (.catalog (.deleteSafetyToken tokenValue)) c).1)) := by
  obtain ⟨token, hlooked⟩ := ha
  have hok := h.phases i
  rw [hlooked] at hok
  obtain ⟨htext, hissued⟩ := hok
  obtain ⟨hrows, hseen, hdeleted⟩ := World.exec_deleteSafetyToken (w := w) sha256 (c := c) tokenValue
  refine h.step (x := (i, (machine sha256).step w (.catalog (.deleteSafetyToken tokenValue)) c)) (clock_le sha256 c _)
    (draws_le sha256 c _) (fun row hrow => .inl (hrows row hrow)) (fun row hrow => .inl (hseen ▸ hrow)) (fun _ hi => by cases hi) ?_
    (fun _ _ hf => by cases hf) ?_ (fun he => by rw [hlooked] at he; cases he) ?_
  · intro text hc
    obtain rfl : tokenValue = text := CatalogOp.deleteSafetyToken.inj (Op.catalog.inj (ClientStep.op_of_consumes hc))
    cases hans : (w.exec sha256 (.catalog (.deleteSafetyToken tokenValue)) c).1 with
    | error e =>
      simp only [ClientStep.Consumes, Machine.step, machine, hans] at hc
    | ok deleted =>
      simp only [ClientStep.Consumes, Machine.step, machine, hans] at hc
      exact hdeleted deleted hans hc.2
  · rw [hlooked]
    cases hans : (w.exec sha256 (.catalog (.deleteSafetyToken tokenValue)) c).1 with
    | error e => exact ⟨htext, issued_concat hissued⟩
    | ok deleted =>
      cases deleted with
      | false => trivial
      | true =>
        refine ⟨hist, _, List.prefix_refl _, rfl, ?_, Int.le_refl _, hissued⟩
        simp only [ClientStep.Consumes, Machine.step, machine, hans]
        exact ⟨htext.symm, trivial⟩
  · rw [hlooked]
    intro text hd
    cases hans : (w.exec sha256 (.catalog (.deleteSafetyToken tokenValue)) c).1 with
    | error e =>
      rw [hans] at hd
      cases hd
    | ok deleted =>
      rw [hans] at hd
      cases deleted <;> cases hd

theorem vouched_format {barcode : Barcode} {confirmation : FormatConfirmation} (h : Vouched svc calls hist w phase)
    (ha : (phase i).allows svc (calls i) (.ltfs (.format barcode confirmation))) :
    Vouched svc calls (hist ++ [(i, (machine sha256).step w (.ltfs (.format barcode confirmation)) c)])
      (w.exec sha256 (.ltfs (.format barcode confirmation)) c).2 (Function.update phase i .ended) := by
  obtain ⟨hcleared, hb⟩ := ha
  have htokens := World.exec_tokens (w := w) sha256 (c := c) (o := .ltfs (.format barcode confirmation)) rfl
  refine h.step (x := (i, (machine sha256).step w (.ltfs (.format barcode confirmation)) c)) (clock_le sha256 c _)
    (draws_le sha256 c _) (fun row hrow => .inl (htokens.1 ▸ hrow)) (fun row hrow => .inl (htokens.2 ▸ hrow)) (fun _ hi => by cases hi)
    (fun _ hc => by cases ClientStep.op_of_consumes hc) ?_ trivial (fun _ => rfl) fun _ hd => by cases hd
  intro barcode' confirmation' hf
  obtain ⟨rfl, rfl⟩ := LtfsOp.format.inj (Op.ltfs.inj hf)
  exact ⟨hcleared, hb, rfl⟩

/-- An allowed call keeps the invariant. -/
theorem vouched_exec (h : Vouched svc calls hist w phase) (ha : (phase i).allows svc (calls i) o) :
    Vouched svc calls (hist ++ [(i, (machine sha256).step w o c)]) (w.exec sha256 o c).2
      (Function.update phase i ((phase i).note o (w.exec sha256 o c).1)) := by
  by_cases hplain : FormatPhase.isPlain o = true
  · refine vouched_same sha256 c h ?_ ?_ (FormatPhase.note_plain hplain _)
    · unfold World.writesTokens
      split
      · cases hplain
      · cases hplain
      · rfl
    · rintro barcode confirmation rfl
      cases hplain
  · unfold FormatPhase.isPlain at hplain
    split at hplain
    · exact vouched_uuid4 sha256 c h ha
    · exact vouched_time sha256 c h
    · exact vouched_saveSafetyToken sha256 c h ha
    · exact vouched_getSafetyToken sha256 c h ha
    · exact vouched_deleteSafetyToken sha256 c h ha
    · exact vouched_format sha256 c h ha
    · exact absurd rfl hplain

end exec

/-- The invariant holds over every interleaving of calls that starts without tokens. -/
theorem vouched_trace [DecidableEq ι] (sha256 : Bytes → String) (svc : FormatService) (calls : ι → FormatCall)
    (htokens : w.catalog.safetyTokens = []) (hseen : w.catalog.seenTokens = []) (sched : List (ι × Choice)) :
    ∃ w' phase, Vouched svc calls (Pool.trace (machine sha256) sched (fun i => svc.call (calls i) ()) w) w' phase := by
  have hstart : Vouched svc calls [] w fun _ => .idle := by
    constructor <;> simp [PhaseOk, htokens, hseen, throughout_nil]
  obtain ⟨phase, h⟩ := Pool.invariant_of_follows (M := machine sha256) (I := Vouched svc calls)
    (fun o => ⟨.error { cls := .assertion, message := "" }⟩) (fun _ _ _ _ _ c h ha => vouched_exec sha256 c h ha)
    (fun i => FormatPhase.follows_call svc (calls i)) hstart sched
  exact ⟨_, phase, h⟩

end FormatAux

/-- In every interleaving of calls, by any clients, a format of a cartridge is made under a token of that cartridge which a dry run
for it has saved and which its client has consumed, unexpired; and no two formats, carried out or not, are made under one token. -/
theorem formats_authorised {ι : Type} [DecidableEq ι] (sha256 : Bytes → String) (svc : FormatService) (calls : ι → FormatCall)
    (w : World) (htokens : w.catalog.safetyTokens = []) (hseen : w.catalog.seenTokens = []) (sched : List (ι × Choice))
    (pre post : List (ClientStep ι)) (x : ClientStep ι) (barcode : Barcode) (confirmation : FormatConfirmation)
    (htrace : Pool.trace (machine sha256) sched (fun i => svc.call (calls i) ()) w = pre ++ x :: post)
    (hformat : x.Formats barcode confirmation) :
    confirmation.safetyToken.targetBarcode = barcode ∧ Authorised svc calls pre x.1 confirmation.safetyToken ∧
      ∀ y ∈ pre, ∀ barcode' confirmation', y.Formats barcode' confirmation' →
        confirmation'.safetyToken.token ≠ confirmation.safetyToken.token := by
  obtain ⟨w', phase, h⟩ := FormatAux.vouched_trace sha256 svc calls htokens hseen sched
  rw [htrace] at h
  obtain ⟨hb, hauth⟩ := h.authorised pre x post rfl barcode confirmation hformat
  refine ⟨hb, hauth, fun y hy barcode' confirmation' hy' heq => ?_⟩
  refine h.single pre x post rfl barcode confirmation hformat y hy barcode' confirmation' hy' ?_
  obtain ⟨before, between, rfl⟩ := List.append_of_mem hy
  obtain ⟨-, hauth'⟩ := h.authorised before y (between ++ x :: post) (by simp) barcode' confirmation' hy'
  obtain ⟨past, z, hpre, hzi, hz, -⟩ := hauth
  obtain ⟨past', z', hpre', hzi', hz', -⟩ := hauth'
  have honce : Throughout (fun pre z => z.Consumes confirmation.safetyToken.token → ∀ z' ∈ pre, ¬z'.Consumes confirmation.safetyToken.token)
      (before ++ y :: between ++ x :: post) := fun pre z post hsplit => h.once pre z post hsplit _
  have hsame : z = z' := by
    refine honce.unique (List.mem_append_left _ (hpre.subset (by simp))) ?_ hz (heq ▸ hz')
    exact List.mem_append_left _ (List.mem_append_left _ (hpre'.subset (by simp)))
  rw [← hzi', ← hsame, hzi]

/-- Client 0 has a scratch tape approved, and client 1 formats it. -/
theorem formats_authorised_scratch :
    let svc : FormatService := { realBackend := false, scratchBarcodes := [], upper := id }
    let calls : Nat → FormatCall := fun i => if i = 0 then .dryRun " T1" else .confirm "T1" "0"
    let fine : Choice := {}
    let steps := Pool.trace (machine fun _ => "") (List.replicate 4 (0, fine) ++ List.replicate 20 (1, fine))
      (fun i => svc.call (calls i) ()) { library := { slots := [(1, some "T1")], drives := [(0, {})] } }
    let token : SafetyToken := { token := "0", operation := "format", targetBarcode := "T1", expiresAt := safetyTokenTtl }
    ∃ pre x post, steps = pre ++ x :: post ∧ x.Formats "T1" { expectedBarcode := "T1", safetyToken := token } ∧
      Authorised svc calls pre x.1 token := by
  intro svc calls fine steps token
  have hat : steps[14]?.map (fun x => x.2.op) = some (.ltfs (.format "T1" { expectedBarcode := "T1", safetyToken := token })) := by
    decide +kernel
  obtain ⟨x, hx, hop⟩ := Option.map_eq_some_iff.1 hat
  obtain ⟨hlen, rfl⟩ := List.getElem?_eq_some_iff.1 hx
  have hsplit : steps = steps.take 14 ++ steps[14] :: steps.drop 15 := by
    rw [List.getElem_cons_drop, List.take_append_drop]
  exact ⟨_, _, _, hsplit, hop, (formats_authorised _ svc calls _ rfl rfl _ _ _ _ _ _ hsplit hop).2.1⟩

end OpenBlade
