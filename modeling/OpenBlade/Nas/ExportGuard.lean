import OpenBlade.Effects.Protocol
import OpenBlade.Jobs.ShardedArchive
import OpenBlade.Nas.NamedCartridge

/-!
# What an export takes out

A cartridge that is exported is one nobody restores from, so an export that is not confirmed is to take out only a cartridge
without data, finished or in flight, and only a cartridge that was taken out is to be called exported. The request runs alone, from
whatever the jobs before it left, finished or cut. Its guard does not count the instances a sharded archive has staged, and it
records a cartridge as exported although the library has refused the move.
-/

namespace OpenBlade

open Effects Proc Storage

/-- One call of a request and what it did. -/
abbrev WorldStep : Type := Step World Op fun o => Except Exn o.Ans

/-- An instance in this state is data on the cartridge, finished or in flight. -/
def FileInstanceState.isCarried : FileInstanceState → Bool
  | .pending | .staging | .verifying | .archived | .verified => true
  | .failed | .quarantined => false

namespace Catalog

/-- No instance of the cartridge is data on it. -/
def Bare (cat : Catalog) (barcode : Barcode) : Prop :=
  ∀ row ∈ cat.instances, row.barcode = barcode → row.state.isCarried = false

/-- An instance of the cartridge is staged or being verified. -/
def Staged (cat : Catalog) (barcode : Barcode) : Prop :=
  ∃ row ∈ cat.instances, row.barcode = barcode ∧ row.state.isStaged = true

/-- The catalog calls the cartridge exported. -/
def Exported (cat : Catalog) (barcode : Barcode) : Prop :=
  ∃ cartridge, cat.getCartridge barcode = some cartridge ∧ cartridge.state = "exported"

variable {cat : Catalog} {barcode other : Barcode}

theorem getCartridge_setState (state : String) :
    (cat.updateCartridge barcode fun c => { c with state := state }).getCartridge other =
      (cat.getCartridge other).map fun c => if c.barcode = barcode then { c with state := state } else c :=
  getCartridge_updateCartridge cat barcode other fun _ h => h

/-- A cartridge that is added is not exported. -/
theorem exported_addCartridge : (cat.addCartridge barcode none).2.Exported other ↔ cat.Exported other := by
  unfold addCartridge
  cases hget : cat.getCartridge barcode with
  | some cartridge => exact Iff.rfl
  | none =>
    unfold Exported getCartridge
    simp only [List.find?_append, List.find?_singleton]
    constructor
    · rintro ⟨cartridge, hfind, hstate⟩
      rcases Option.or_eq_some_iff.1 hfind with h | ⟨-, h⟩
      · exact ⟨cartridge, h, hstate⟩
      · split at h
        · obtain rfl := Option.some.inj h
          simp at hstate
        · cases h
    · rintro ⟨cartridge, hfind, hstate⟩
      exact ⟨cartridge, Option.or_eq_some_iff.2 (.inl hfind), hstate⟩

/-- Setting the state of a cartridge exports no other. -/
theorem exported_setCartridgeState {state : String} (h : (cat.setCartridgeState barcode state).2.Exported other) :
    other = barcode ∨ cat.Exported other := by
  unfold setCartridgeState at h
  cases hget : cat.getCartridge barcode with
  | none =>
    rw [hget] at h
    exact .inr h
  | some cartridge =>
    rw [hget] at h
    obtain ⟨found, hfound, hstate⟩ := (h : (cat.updateCartridge barcode fun c => { c with state := state }).Exported other)
    replace hfound := (getCartridge_setState state).symm.trans hfound
    obtain ⟨row, hrow, rfl⟩ := Option.map_eq_some_iff.1 hfound
    by_cases hb : row.barcode = barcode
    · exact .inl ((barcode_of_getCartridge hrow).symm.trans hb)
    · rw [if_neg hb] at hstate
      exact .inr ⟨row, hrow, hstate⟩

/-- A cartridge that is known and set to exported is exported. -/
theorem exported_of_set (h : (cat.getCartridge barcode).isSome) : (cat.setCartridgeState barcode "exported").2.Exported barcode := by
  obtain ⟨cartridge, hget⟩ := Option.isSome_iff_exists.1 h
  unfold setCartridgeState
  rw [hget]
  show (cat.updateCartridge barcode fun c => { c with state := "exported" }).Exported barcode
  refine ⟨{ cartridge with state := "exported" }, ?_, rfl⟩
  rw [getCartridge_setState, hget, Option.map_some, if_pos (barcode_of_getCartridge hget)]

/-- A cartridge that was added is known. -/
theorem isSome_getCartridge_addCartridge : ((cat.addCartridge barcode none).2.getCartridge barcode).isSome := by
  unfold addCartridge
  cases hget : cat.getCartridge barcode with
  | some cartridge => exact Option.isSome_iff_exists.2 ⟨cartridge, hget⟩
  | none =>
    unfold getCartridge
    simp [List.find?_append]

end Catalog

/-- The step asks the library to take a cartridge out. -/
def TakesOut (st : WorldStep) : Prop := ∃ source ieSlot, st.op = .library (.exportCartridgeToIe source ieSlot)

/-- The call of a step was answered. -/
def Answered (st : WorldStep) : Prop := ∃ a, st.ans = .ok a

/-- The step took the cartridge to an import/export element of the library that held nothing. -/
def MovedOut (st : WorldStep) (barcode : Barcode) : Prop :=
  ∃ source ieSlot, st.op = .library (.exportCartridgeToIe source ieSlot) ∧
    st.pre.library.contents (.slot source) = some barcode ∧ st.pre.library.Free (.ieSlot ieSlot) ∧
    st.post.library.contents (.ieSlot ieSlot) = some barcode

/-- What is asked of every step of an export that is not confirmed: a cartridge is taken out only if the named cartridge is bare,
and a cartridge becomes exported only after it was taken out. -/
structure ExportGuarded (barcode : Barcode) (hist : List WorldStep) (st : WorldStep) : Prop where
  bare : TakesOut st → st.pre.catalog.Bare barcode
  moved : ∀ other, ¬st.pre.catalog.Exported other → st.post.catalog.Exported other → ∃ mv ∈ hist, MovedOut mv other

namespace ExportAux

/-- Calls that write no files, move nothing and export nothing. -/
def isCalm : Op → Bool
  | .catalog (.createTapeOp _) | .catalog (.updateTapeOp _ _) | .catalog (.addCartridge _ none) => true
  | o => o.isRead

section Calm

variable (sha256 : Bytes → String) {w : World} {c : Choice} {o : Op}

theorem isCalm_of_isRead (h : o.isRead = true) : isCalm o = true := by
  unfold isCalm
  split
  · rfl
  · rfl
  · rfl
  · exact h

theorem instances_calm (h : isCalm o = true) : (w.exec sha256 o c).2.catalog.instances = w.catalog.instances := by
  refine (World.exec_files sha256 ?_).2
  cases o with
  | catalog o => cases o <;> first | rfl | cases h
  | _ => rfl

theorem library_calm (h : isCalm o = true) : (w.exec sha256 o c).2.library = w.library := by
  refine World.exec_library sha256 ?_
  cases o with
  | library o => cases o <;> first | rfl | cases h
  | ltfs o => cases o <;> first | rfl | cases h
  | _ => rfl

theorem exported_calm (h : isCalm o = true) (other : Barcode) :
    (w.exec sha256 o c).2.catalog.Exported other ↔ w.catalog.Exported other := by
  refine World.exec_post sha256 (fun w' => w'.catalog.Exported other ↔ w.catalog.Exported other) Iff.rfl ?_
  cases o with
  | catalog o =>
    cases o with
    | addCartridge barcode vg =>
      cases vg with
      | none => exact Catalog.exported_addCartridge
      | some vg => cases h
    | updateTapeOp opId update =>
      show (((w.elapse c).catalog.updateTapeOp (w.elapse c).clock opId update).2).Exported other ↔ _
      unfold Catalog.updateTapeOp
      split <;> exact Iff.rfl
    | _ => first | exact Iff.rfl | cases h
  | host o =>
    obtain ⟨host, draws, hh⟩ := World.attempt_host sha256 (w := w.elapse c) (c := c) o
    rw [hh]
    exact Iff.rfl
  | _ => exact Iff.rfl

theorem not_takesOut_calm (h : isCalm o = true) : ¬TakesOut ((machine sha256).step w o c) := by
  rintro ⟨source, ieSlot, rfl⟩
  cases h

end Calm

/-- The call that took the named cartridge out of the library the request found, or failed to. -/
structure Sent (w : World) (barcode : Barcode) (mv : WorldStep) : Prop where
  library : mv.pre.library = w.library
  route : ∃ source ieSlot, mv.op = .library (.exportCartridgeToIe source ieSlot) ∧
    w.library.contents (.slot source) = some barcode ∧ w.library.Free (.ieSlot ieSlot) ∧
    (mv.post.library.contents = w.library.contents ∨
      mv.post.library.contents = w.library.contents.transfer (.slot source) (.ieSlot ieSlot))

/-- No instance of the cartridge is one that the guard counts. -/
def Assessed (w : World) (barcode : Barcode) : Prop :=
  ∀ row ∈ w.catalog.instances, row.barcode = barcode → row.state.isArchived = false ∧ row.state ≠ .pending

/-- What can be said of every step of a request that is not confirmed. -/
structure Told (w : World) (barcode : Barcode) (hist : List WorldStep) (st : WorldStep) : Prop where
  taken : TakesOut st → st.pre.catalog.instances = w.catalog.instances ∧ Assessed w barcode
  exported : ∀ other, ¬st.pre.catalog.Exported other → st.post.catalog.Exported other →
    other = barcode ∧ ¬w.catalog.Exported barcode ∧ ∃ mv ∈ hist, Sent w barcode mv ∧ Answered mv

/-- Nothing was taken out so far. -/
structure Before (w : World) (s : World × List WorldStep) : Prop where
  instances : s.1.catalog.instances = w.catalog.instances
  library : s.1.library = w.library
  exported : ∀ other, s.1.catalog.Exported other ↔ w.catalog.Exported other
  inside : ∀ st ∈ s.2, ¬TakesOut st

/-- One call was made to take the cartridge out, and was answered. -/
def Out (w : World) (barcode : Barcode) (hist : List WorldStep) : Prop :=
  ∃ mv ∈ hist, Sent w barcode mv ∧ Answered mv ∧ ∀ st ∈ hist, TakesOut st → st = mv

/-- It was, and the cartridge was recorded as exported. -/
structure Done (w : World) (barcode : Barcode) (s : World × List WorldStep) : Prop where
  out : Out w barcode s.2
  recorded : ¬w.catalog.Exported barcode → ∃ st ∈ s.2, ¬st.pre.catalog.Exported barcode ∧ st.post.catalog.Exported barcode

section Request

variable {L : Type} (sha256 : Bytes → String) {w : World} {barcode : Barcode} {hist : List WorldStep} {st : WorldStep} {l : L}

theorem Out.concat (h : Out w barcode hist) (hst : ¬TakesOut st) : Out w barcode (hist ++ [st]) := by
  obtain ⟨mv, hmv, hsent, hans, honly⟩ := h
  refine ⟨mv, List.mem_append_left _ hmv, hsent, hans, ?_⟩
  intro st' hst' htakes
  rcases List.mem_append.1 hst' with h | h
  · exact honly st' h htakes
  · obtain rfl := List.mem_singleton.1 h
    exact absurd htakes hst

/-- Of a calm step there is nothing to say. -/
theorem told_calm {s : World} {c : Choice} {o : Op} (h : isCalm o = true) : Told w barcode hist ((machine sha256).step s o c) :=
  ⟨fun htakes => absurd htakes (not_takesOut_calm sha256 h), fun other hpre hpost => absurd ((exported_calm sha256 h other).1 hpost) hpre⟩

/-- What a calm step keeps. -/
theorem stable_calm {J : World × List WorldStep → Prop}
    (h : ∀ o, isCalm o = true → ∀ s hist c, J (s, hist) → J (((machine sha256).exec s o c).2, hist ++ [(machine sha256).step s o c])) :
    Stable (machine sha256).recorded (.history (Told w barcode)) (fun o => isCalm o = true) J := by
  intro o ho s s₁ c hJ hr _
  obtain rfl : s = s₁ := hr
  exact ⟨told_calm sha256 ho, h o ho s.1 s.2 c hJ⟩

theorem Before.calm {s : World × List WorldStep} (h : Before w s) {o : Op} (ho : isCalm o = true) (c : Choice) :
    Before w (((machine sha256).exec s.1 o c).2, s.2 ++ [(machine sha256).step s.1 o c]) := by
  refine ⟨(instances_calm sha256 ho).trans h.instances, (library_calm sha256 ho).trans h.library, fun other =>
    (exported_calm sha256 ho other).trans (h.exported other), ?_⟩
  intro st hst
  rcases List.mem_append.1 hst with hst | hst
  · exact h.inside st hst
  · obtain rfl := List.mem_singleton.1 hst
    exact not_takesOut_calm sha256 ho

theorem stable_before : Stable (machine sha256).recorded (.history (Told w barcode)) (fun o => isCalm o = true) (Before w) :=
  stable_calm sha256 fun _ ho _ _ c h => h.calm sha256 ho c

theorem stable_done : Stable (machine sha256).recorded (.history (Told w barcode)) (fun o => isCalm o = true) (Done w barcode) := by
  refine stable_calm sha256 fun o ho s hist c h => ⟨h.out.concat (not_takesOut_calm sha256 ho), fun hw => ?_⟩
  obtain ⟨st, hst, hexported⟩ := h.recorded hw
  exact ⟨st, List.mem_append_left _ hst, hexported⟩

theorem stable_true : Stable (machine sha256).recorded (.history (Told w barcode)) (fun o => isCalm o = true) (fun _ => True) :=
  stable_calm sha256 fun _ _ _ _ _ _ => trivial

/-- A calm call before anything was taken out. -/
theorem wp_calm {s : World × List WorldStep} {o : Op} (ho : isCalm o = true) (hs : Before w s) :
    wp (machine sha256).recorded (.history (Told w barcode)) (perform o : JobM L o.Ans)
      (fun _ l' s' => l' = l ∧ Before w s') (fun _ l' s' => l' = l ∧ Before w s') l s := by
  have hreads : Reads (fun o => isCalm o = true) (perform o : JobM L o.Ans) := only_perform ho
  exact wp_mono (hreads.keeps (stable_before sha256) hs) (fun _ _ _ h => ⟨h.1.symm, h.2⟩) fun _ _ _ h => ⟨h.1.symm, h.2⟩

/-! ### The guard -/

/-- Adding up the instances changes no count. -/
theorem wp_addInstances {σ C : Type} {M : Machine σ Op (fun o => Except Exn o.Ans) C}
    {K : Contract σ Op fun o => Except Exn o.Ans} {J : σ → Prop} (hJ : Stable M K (fun o => isCalm o = true) J)
    (rows : List FileInstance) (assessment : ExportAssessment) {s : σ} (hs : J s) :
    wp M K (assessment.addInstances rows : JobM L ExportAssessment)
      (fun a l' s' => l' = l ∧ J s' ∧ a.carriesData = assessment.carriesData) (fun _ l' _ => l' = l) l s := by
  induction rows generalizing assessment s with
  | nil => exact ⟨rfl, hs, rfl⟩
  | cons row rows ih =>
    unfold ExportAssessment.addInstances ExportAssessment.addInstance
    rw [wp_bind, wp_bind]
    refine wp_call fun s₁ hr c ha => ?_
    obtain ⟨hg, hJ'⟩ := hJ _ rfl s s₁ c hs hr ha
    refine ⟨hg, fun record _ => ?_, fun _ _ => rfl⟩
    cases record with
    | none => exact ih assessment hJ'
    | some record => exact ih _ hJ'

theorem looks_siblingsWithData (group : Nat) (cartridges : List Cartridge) :
    Looks (siblingsWithData barcode group cartridges : JobM L (List Barcode)) := by
  induction cartridges with
  | nil => exact only_pure _
  | cons sibling siblings ih =>
    refine only_ite (fun _ => ?_) fun _ => ih
    exact only_bind (only_perform rfl) fun _ => only_bind ih fun _ => only_pure _

theorem mem_listInstancesForBarcode {cat : Catalog} {row : FileInstance} :
    row ∈ cat.listInstancesForBarcode barcode ↔ row ∈ cat.instances ∧ row.barcode = barcode := by
  unfold Catalog.listInstancesForBarcode
  rw [List.mem_insertionSort, List.mem_filter]
  simp

/-- The guard counts nothing on the cartridge if none of its rows is finished or pending. -/
theorem assessed_of_counts {rows : List FileInstance} (hrows : rows = w.catalog.listInstancesForBarcode barcode)
    (harchived : (rows.filter fun row => row.state.isArchived).length = 0)
    (hpending : (rows.filter fun row => row.state = .pending).length = 0) : Assessed w barcode := by
  intro row hrow hb
  have hmem : row ∈ rows := hrows ▸ mem_listInstancesForBarcode.2 ⟨hrow, hb⟩
  have hno := List.filter_eq_nil_iff.1 (List.length_eq_zero_iff.1 harchived) row hmem
  have hnone := List.filter_eq_nil_iff.1 (List.length_eq_zero_iff.1 hpending) row hmem
  exact ⟨by simpa using hno, by simpa using hnone⟩

/-- An assessment that finds no data has seen no row the guard counts. -/
theorem wp_assessExport {s : World × List WorldStep} (hs : Before w s) :
    wp (machine sha256).recorded (.history (Told w barcode)) (assessExport barcode : JobM L ExportAssessment)
      (fun a l' s' => l' = l ∧ Before w s' ∧ (a.carriesData = false → Assessed w barcode)) (fun _ l' _ => l' = l) l s := by
  unfold assessExport
  rw [wp_bind]
  refine wp_recorded fun c => ⟨told_calm sha256 rfl, fun rows hans => ?_, fun _ _ => rfl⟩
  have hrows : rows = w.catalog.listInstancesForBarcode barcode := by
    have hread : s.1.catalog.listInstancesForBarcode barcode = rows := Except.ok.inj (World.exec_ok sha256 hans).1
    rw [← hread]
    unfold Catalog.listInstancesForBarcode
    rw [hs.instances]
  have hs₁ := hs.calm sha256 (o := .catalog (.listInstancesForBarcode barcode)) rfl c
  dsimp only
  rw [wp_bind]
  refine wp_mono (wp_addInstances (stable_before sha256) _ _ hs₁) ?_ fun _ _ _ h => h
  intro assessment l' s₂ h
  obtain ⟨rfl, hs₂, hcarries⟩ := h
  -- whatever is added for the sake of the message, the counts are those of the rows
  have hassessed : assessment.carriesData = false → Assessed w barcode := by
    intro h
    rw [hcarries] at h
    simp only [ExportAssessment.carriesData, decide_eq_false_iff_not, not_or, Nat.not_lt, Nat.le_zero] at h
    exact assessed_of_counts hrows h.1 h.2
  rw [wp_bind]
  refine wp_mono (wp_calm sha256 rfl hs₂) ?_ fun _ _ _ h => h.1
  intro cartridge l₁ s₃ h
  obtain ⟨rfl, hs₃⟩ := h
  split
  · exact ⟨rfl, hs₃, hassessed⟩
  · rw [wp_bind]
    refine wp_mono (wp_calm sha256 rfl hs₃) ?_ fun _ _ _ h => h.1
    intro groups l₂ s₄ h
    obtain ⟨rfl, hs₄⟩ := h
    rw [wp_bind]
    refine wp_mono (wp_calm sha256 rfl hs₄) ?_ fun _ _ _ h => h.1
    intro cartridges l₃ s₅ h
    obtain ⟨rfl, hs₅⟩ := h
    rw [wp_bind]
    refine wp_mono (((looks_siblingsWithData _ _).weaken fun _ ho => isCalm_of_isRead ho).keeps (stable_before sha256) hs₅) ?_ fun _ _ _ h => h.1.symm
    intro siblings l₄ s₆ h
    exact ⟨h.1.symm, h.2, hassessed⟩

/-- The guard of a request that does not confirm the cartridge. -/
theorem wp_guardExport {request : TapeOpRequest}
    (hconfirm : textUnlessNull (extraOr request "confirmBarcode" .null) ≠ some request.barcode) {s : World × List WorldStep}
    (hs : Before w s) :
    wp (machine sha256).recorded (.history (Told w request.barcode)) (guardExport request : JobM L Unit)
      (fun _ l' s' => l' = l ∧ Before w s' ∧ Assessed w request.barcode) (fun _ l' _ => l' = l) l s := by
  unfold guardExport
  rw [if_neg hconfirm, wp_bind]
  refine wp_mono (wp_assessExport sha256 hs) ?_ fun _ _ _ h => h
  intro assessment l' s' h
  obtain ⟨rfl, hs', hassessed⟩ := h
  cases hcarries : assessment.carriesData with
  | true => exact rfl
  | false => exact ⟨rfl, hs', hassessed hcarries⟩

/-! ### The move -/

/-- An element that is empty is one of the library's. -/
theorem wp_requireIeElement {s : World × List WorldStep} (hs : Before w s) (ieSlot : Int) :
    wp (machine sha256).recorded (.history (Told w barcode)) (requireIeElement ieSlot : JobM L (Option Barcode))
      (fun content l' s' => l' = l ∧ Before w s' ∧ w.library.ieEntry ieSlot = some content) (fun _ l' _ => l' = l) l s := by
  unfold requireIeElement
  rw [wp_bind]
  refine wp_recorded fun c => ⟨told_calm sha256 rfl, fun elements hans => ?_, fun _ _ => rfl⟩
  have helements : s.1.library.ieSlots.getD [] = elements := Except.ok.inj (World.exec_ok sha256 hans).1
  have hs₁ := hs.calm sha256 (o := .library .importExportSlots) rfl c
  cases hget : Dict.get? elements ieSlot with
  | none => exact rfl
  | some content =>
    refine ⟨rfl, hs₁, ?_⟩
    unfold Library.ieEntry
    rw [← hs.library, helements]
    exact hget

/-- The call that takes the cartridge out is the only one. -/
theorem wp_takeOut {s : World × List WorldStep} (hs : Before w s) (hassessed : Assessed w barcode) {source ieSlot : Int}
    (hsource : w.library.contents (.slot source) = some barcode) (hfree : w.library.Free (.ieSlot ieSlot)) :
    wp (machine sha256).recorded (.history (Told w barcode)) (exportCartridgeToIe source ieSlot : JobM L OperationResult)
      (fun _ l' s' => l' = l ∧ Out w barcode s'.2 ∧ ∀ other, s'.1.catalog.Exported other ↔ w.catalog.Exported other)
      (fun _ l' _ => l' = l) l s := by
  refine wp_recorded fun c => ?_
  have hexported : ∀ other, (s.1.exec sha256 (.library (.exportCartridgeToIe source ieSlot)) c).2.catalog.Exported other ↔
      s.1.catalog.Exported other := fun other =>
    World.exec_post sha256 (fun w' => w'.catalog.Exported other ↔ s.1.catalog.Exported other) Iff.rfl Iff.rfl
  refine ⟨⟨fun _ => ⟨hs.instances, hassessed⟩, fun other hpre hpost => absurd ((hexported other).1 hpost) hpre⟩,
    fun result hans => ⟨rfl, ?_, fun other => (hexported other).trans (hs.exported other)⟩, fun _ _ => rfl⟩
  have htook := World.exec_route (w := s.1) sha256 (c := c) (o := .exportCartridgeToIe source ieSlot) rfl
  rw [hs.library] at htook
  refine ⟨_, List.mem_append_right _ (List.mem_singleton.2 rfl), ⟨hs.library, source, ieSlot, rfl, hsource, hfree, ?_⟩,
    ⟨result, hans⟩, ?_⟩
  · rcases htook with ⟨hsame, -⟩ | ⟨-, -, htransfer⟩
    · exact .inl hsame
    · exact .inr htransfer
  · intro st hst htakes
    rcases List.mem_append.1 hst with h | h
    · exact absurd htakes (hs.inside st h)
    · exact List.mem_singleton.1 h

/-- The cartridge is recorded as exported after it was taken out. -/
theorem wp_recordExported {s : World × List WorldStep} (hout : Out w barcode s.2)
    (hexported : ∀ other, s.1.catalog.Exported other ↔ w.catalog.Exported other) :
    wp (machine sha256).recorded (.history (Told w barcode)) (recordCartridgeState barcode "exported" : JobM L Unit)
      (fun _ l' s' => l' = l ∧ Done w barcode s') (fun _ l' _ => l' = l) l s := by
  unfold recordCartridgeState
  rw [wp_bind]
  refine wp_recorded fun c => ⟨told_calm sha256 rfl, fun cartridge hans => ?_, fun _ _ => rfl⟩
  have hknown : ((s.1.exec sha256 (.catalog (.addCartridge barcode none)) c).2.catalog.getCartridge barcode).isSome := by
    rw [(World.exec_ok sha256 hans).2]
    exact Catalog.isSome_getCartridge_addCartridge
  have hexported₁ : ∀ other, (s.1.exec sha256 (.catalog (.addCartridge barcode none)) c).2.catalog.Exported other ↔
      w.catalog.Exported other := fun other => (exported_calm sha256 rfl other).trans (hexported other)
  have hout₁ := hout.concat (not_takesOut_calm sha256 (w := s.1) (c := c) (o := .catalog (.addCartridge barcode none)) rfl)
  generalize s.2 ++ [(machine sha256).step s.1 (.catalog (.addCartridge barcode none)) c] = hist₁ at hout₁ ⊢
  generalize hw₁ : ((machine sha256).exec s.1 (.catalog (.addCartridge barcode none)) c).2 = w₁
  replace hknown : (w₁.catalog.getCartridge barcode).isSome := hw₁ ▸ hknown
  replace hexported₁ : ∀ other, w₁.catalog.Exported other ↔ w.catalog.Exported other := hw₁ ▸ hexported₁
  have hquiet : ∀ c, ¬TakesOut ((machine sha256).step w₁ (.catalog (.setCartridgeState barcode "exported")) c) := by
    rintro c ⟨source, ieSlot, h⟩
    cases h
  have honly : ∀ c other, (w₁.exec sha256 (.catalog (.setCartridgeState barcode "exported")) c).2.catalog.Exported other →
      other = barcode ∨ w₁.catalog.Exported other := fun c other =>
    World.exec_post sha256 (fun w' => w'.catalog.Exported other → other = barcode ∨ w₁.catalog.Exported other) .inr
      Catalog.exported_setCartridgeState
  rw [wp_bind]
  refine wp_recorded fun c => ⟨⟨fun htakes => absurd htakes (hquiet c), fun other hpre hpost => ?_⟩, fun found hans => ?_, fun _ _ => rfl⟩
  · obtain rfl := (honly c other hpost).resolve_right hpre
    obtain ⟨mv, hmv, hsent, hanswered, -⟩ := hout₁
    exact ⟨rfl, fun h => hpre ((hexported₁ other).2 h), mv, hmv, hsent, hanswered⟩
  · refine ⟨rfl, hout₁.concat (hquiet c), fun hw => ⟨_, List.mem_append_right _ (List.mem_singleton.2 rfl), ?_, ?_⟩⟩
    · exact fun h => hw ((hexported₁ barcode).1 h)
    · show (w₁.exec sha256 (.catalog (.setCartridgeState barcode "exported")) c).2.catalog.Exported barcode
      rw [(World.exec_ok sha256 hans).2]
      exact Catalog.exported_of_set hknown

/-- An export that is carried out is one call that takes the named cartridge out, and a record of it. -/
theorem wp_orchestratorExport {request : TapeOpRequest}
    (hconfirm : textUnlessNull (extraOr request "confirmBarcode" .null) ≠ some request.barcode) {s : World × List WorldStep}
    (hs : Before w s) :
    wp (machine sha256).recorded (.history (Told w request.barcode)) (orchestratorExport request : JobM L JsonObject)
      (fun _ l' s' => l' = l ∧ Done w request.barcode s') (fun _ l' _ => l' = l) l s := by
  unfold orchestratorExport
  rw [wp_bind]
  have hmailslot : Reads (fun o => isCalm o = true) (requireMailslot : JobM L Unit) := reads_requireMailslot rfl
  refine wp_mono (hmailslot.keeps (stable_before sha256) hs) ?_ fun _ _ _ h => h.1.symm
  intro _ l₁ s₁ h
  obtain ⟨rfl, hs₁⟩ := h
  rw [wp_bind]
  refine wp_recorded fun c => ⟨told_calm sha256 rfl, fun found hans => ?_, fun _ _ => rfl⟩
  have hfound := World.exec_findSlot sha256 hans
  rw [hs₁.library] at hfound
  have hs₂ := hs₁.calm sha256 (o := .library (.findSlotByBarcode request.barcode)) rfl c
  cases found with
  | none => exact rfl
  | some source =>
    have hsource : w.library.contents (.slot source) = some request.barcode := NamedAux.contents_of_findSlot hfound
    dsimp only
    split
    · exact rfl
    · rw [wp_bind]
      refine wp_mono (wp_guardExport sha256 hconfirm hs₂) ?_ fun _ _ _ h => h
      intro _ l₃ s₃ h
      obtain ⟨rfl, hs₃, hassessed⟩ := h
      rw [wp_bind, wp_ofExcept]
      cases requiredInt request "ie_slot" "export" with
      | error e => exact rfl
      | ok ieSlot =>
        dsimp only
        rw [wp_bind]
        refine wp_mono (wp_requireIeElement sha256 hs₃ ieSlot) ?_ fun _ _ _ h => h
        intro content l₄ s₄ h
        obtain ⟨rfl, hs₄, hentry⟩ := h
        cases content with
        | some occupant => exact rfl
        | none =>
          dsimp only
          rw [wp_bind]
          refine wp_mono (wp_takeOut sha256 hs₄ hassessed hsource hentry) ?_ fun _ _ _ h => h
          intro result l₅ s₅ h
          obtain ⟨rfl, hout, hexported⟩ := h
          rw [wp_bind]
          exact wp_mono (wp_recordExported sha256 hout hexported) (fun _ _ _ h => h) fun _ _ _ h => h

/-- What can be said of a request, and of one that completes. -/
theorem wp_request {request : TapeOpRequest} (hop : request.opType = .exportMedia)
    (hconfirm : textUnlessNull (extraOr request "confirmBarcode" .null) ≠ some request.barcode) (raiseOnFailed : Bool) (w : World)
    (l : L) :
    wp (machine sha256).recorded (.history (Told w request.barcode)) (executeTapeRequest request raiseOnFailed)
      (fun record _ s' => record.status = .completed → Done w request.barcode s') (fun _ _ _ => True) l (w, []) := by
  have hmove : request.opType ≠ .move := by simp [hop]
  have hrows : ∀ {J : World × List WorldStep → Prop},
      Stable (machine sha256).recorded (.history (Told w request.barcode)) (fun o => isCalm o = true) J →
      Stable (machine sha256).recorded (.history (Told w request.barcode)) (fun o => o.isRowOf request = true) J := by
    intro J hJ o ho
    refine hJ o ?_
    unfold Op.isRowOf at ho
    split at ho <;> first | rfl | cases ho
  have hdispatch : ∀ s, Before w s → wp (machine sha256).recorded (.history (Told w request.barcode))
      (dispatch request : JobM L JsonObject) (fun _ l' s' => l' = l ∧ Done w request.barcode s') (fun _ l' _ => l' = l ∧ True) l s := by
    intro s hs
    unfold dispatch
    rw [hop]
    exact wp_mono (wp_orchestratorExport sha256 hconfirm hs) (fun _ _ _ h => h) fun _ _ _ h => ⟨h, trivial⟩
  have hbefore : Before w (w, []) := ⟨rfl, rfl, fun _ => Iff.rfl, by simp⟩
  unfold executeTapeRequest
  rw [wp_bind]
  refine wp_mono (wp_executeTapeOp (Honest.observed (honest_machine sha256) _) (wp_validateMove_of_ne hmove)
    (hrows (stable_before sha256)) (hrows (stable_done sha256)) (hrows (stable_true sha256)) hbefore hdispatch) ?_ fun _ _ _ _ => trivial
  intro record l' s' h
  split
  · trivial
  · intro hcompleted
    rcases h.2 with h | ⟨hfailed, -⟩
    · exact h
    · rw [hcompleted] at hfailed
      cases hfailed

end Request

end ExportAux

/-- Wherever the library answered a request to take a cartridge out, it did take one out. -/
def MovesAnswered (trace : List WorldStep) : Prop :=
  ∀ st ∈ trace, TakesOut st → Answered st → st.post.library.contents ≠ st.pre.library.contents

section Guarded

variable {w : World} {barcode : Barcode} {trace : List WorldStep}

open ExportAux

/-- The call that took the cartridge out did so, if it changed anything. -/
theorem ExportAux.Sent.movedOut {mv : WorldStep} (h : Sent w barcode mv) (hchanged : mv.post.library.contents ≠ mv.pre.library.contents) :
    MovedOut mv barcode := by
  obtain ⟨source, ieSlot, hop, hsource, hfree, hcontents⟩ := h.route
  rw [← h.library] at hsource hfree hcontents
  refine ⟨source, ieSlot, hop, hsource, hfree, ?_⟩
  rw [hcontents.resolve_left hchanged, Placement.transfer_apply, if_pos rfl]
  exact hsource

theorem MovedOut.changed {mv : WorldStep} (h : MovedOut mv barcode) : mv.post.library.contents ≠ mv.pre.library.contents := by
  obtain ⟨source, ieSlot, -, -, hfree, hpost⟩ := h
  intro hsame
  rw [hsame, Library.contents_of_free hfree] at hpost
  cases hpost

/-- A request keeps to the guard when the cartridge has nothing staged, and the library does what it answers. -/
theorem ExportAux.guarded_of_told (h : Throughout (Told w barcode) trace) (hstaged : ¬w.catalog.Staged barcode)
    (hmoves : w.catalog.Exported barcode ∨ MovesAnswered trace) : Throughout (ExportGuarded barcode) trace := by
  rintro pre st post rfl
  obtain ⟨htaken, hexported⟩ := h pre st post rfl
  constructor
  · intro htakes row hrow hb
    obtain ⟨hinstances, hassessed⟩ := htaken htakes
    rw [hinstances] at hrow
    obtain ⟨harchived, hpending⟩ := hassessed row hrow hb
    have hnot : row.state.isStaged ≠ true := fun hs => hstaged ⟨row, hrow, hb, hs⟩
    cases hstate : row.state <;> simp_all [FileInstanceState.isStaged, FileInstanceState.isArchived, FileInstanceState.isCarried]
  · intro other hpre hpost
    obtain ⟨rfl, hw, mv, hmv, hsent, hanswered⟩ := hexported other hpre hpost
    obtain ⟨source, ieSlot, hop, -⟩ := hsent.route
    have hchanged := hmoves.resolve_left hw mv (List.mem_append_left _ hmv) ⟨source, ieSlot, hop⟩ hanswered
    exact ⟨mv, hmv, hsent.movedOut hchanged⟩

/-- A request that completes and keeps to the guard found nothing staged, and the library did what it answered. -/
theorem ExportAux.clean_of_guarded {s : World} (h : Throughout (Told w barcode) trace) (hdone : Done w barcode (s, trace))
    (hguarded : Throughout (ExportGuarded barcode) trace) :
    ¬w.catalog.Staged barcode ∧ (w.catalog.Exported barcode ∨ MovesAnswered trace) := by
  obtain ⟨⟨mv, hmv, hsent, -, honly⟩, hrecorded⟩ := hdone
  have htakes : TakesOut mv := by
    obtain ⟨source, ieSlot, hop, -⟩ := hsent.route
    exact ⟨source, ieSlot, hop⟩
  constructor
  · rintro ⟨row, hrow, hb, hs⟩
    obtain ⟨pre, post, hsplit⟩ := List.append_of_mem hmv
    have hinstances := ((h pre mv post hsplit).taken htakes).1
    have hbare := (hguarded pre mv post hsplit).bare htakes row (hinstances ▸ hrow) hb
    cases hstate : row.state <;> simp_all [FileInstanceState.isStaged, FileInstanceState.isCarried]
  · by_cases hw : w.catalog.Exported barcode
    · exact .inl hw
    · refine .inr fun st hst htaken _ => ?_
      obtain ⟨set, hset, hpre, hpost⟩ := hrecorded hw
      obtain ⟨pre, post, rfl⟩ := List.append_of_mem hset
      obtain ⟨mv', hmv', hmoved⟩ := (hguarded pre set post rfl).moved barcode hpre hpost
      have htaken' : TakesOut mv' := by
        obtain ⟨source, ieSlot, hop, -⟩ := hmoved
        exact ⟨source, ieSlot, hop⟩
      -- the library was called once
      have hsame : st = mv' := (honly st hst htaken).trans (honly mv' (List.mem_append_left _ hmv') htaken').symm
      exact hsame ▸ hmoved.changed

end Guarded

namespace ExportExample

/-- One file for a lane of one tape. -/
def archive : ShardedArchiveRequest :=
  { sourcePath := "/src", files := [{ path := "/src/a", content := [1, 2, 3] }], volumeGroupName := "vg", laneBarcodes := ["T1"] }

def scheduler : DriveScheduler := { numDrives := 1, jobId := "J" }

/-- The tape is in a slot. -/
def world : World :=
  { catalog := { jobs := [{ id := "J" }] }
    library := { slots := [(1, some "T1")], drives := [(0, {})], ieSlots := some [(10, none)] } }

/-- The write to the tape, the call of number 40, raises. -/
def choices : List Choice :=
  List.replicate 40 ({} : Choice) ++ [{ raises := some { name := "OSError", message := "I/O error" } }] ++ List.replicate 20 ({} : Choice)

/-- What the archive leaves when its write fails. -/
def left : World := ((machine fun _ => "").run choices (runShardedArchive (fun _ => "") archive scheduler "J" {}) world).2

def request : TapeOpRequest := { opType := .exportMedia, barcode := "T1", extras := [("ie_slot", .int 10)] }

end ExportExample

end OpenBlade
