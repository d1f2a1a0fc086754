import Mathlib
import OpenBlade.Effects.Proc

/-!
# Lanes

A fixed number of workers, each going through the steps of its own item, interleaved step by step as the environment picks. A
worker whose step raises keeps the exception and stops; the others go on. That is how a thread pool behaves whose futures are
awaited before the pool is left.
-/

namespace Effects

variable {σ Op C ε L ι κ : Type} {Ans : Op → Type}

/-- A worker: its item, the steps still to do, and the exception it stopped with. -/
structure Lane (ι κ ε : Type) where
  item : ι
  todo : List κ
  error : Option ε := none

/-- Steps left in all lanes. -/
def Lane.left (lanes : List (Lane ι κ ε)) : Nat :=
  (lanes.map fun lane => lane.todo.length).sum

namespace Proc

/-- The next step of one lane. -/
def stepLane (step : κ → ι → Proc Op Ans ε L Unit) (lane : Lane ι κ ε) (k : κ) (rest : List κ) :
    Proc Op Ans ε L (Lane ι κ ε) :=
  handle
    (do
      step k lane.item
      pure { lane with todo := rest })
    (fun e => pure { lane with todo := [], error := some e })

/-- The next step of the `n`-th lane that has one. -/
def stepNth (step : κ → ι → Proc Op Ans ε L Unit) : Nat → List (Lane ι κ ε) → Proc Op Ans ε L (List (Lane ι κ ε))
  | _, [] => pure []
  | n, lane :: lanes =>
    match lane.todo, n with
    | k :: rest, 0 => do
      let lane' ← stepLane step lane k rest
      pure (lane' :: lanes)
    | _ :: _, n + 1 => do
      let lanes' ← stepNth step n lanes
      pure (lane :: lanes')
    | [], n => do
      let lanes' ← stepNth step n lanes
      pure (lane :: lanes')

/-- Lanes that have steps to do. -/
def busy (lanes : List (Lane ι κ ε)) : Nat :=
  lanes.countP fun lane => !lane.todo.isEmpty

/-- Run lanes until none has a step to do, at most `fuel` steps. -/
def runLanes (pick : Nat → Proc Op Ans ε L Nat) (step : κ → ι → Proc Op Ans ε L Unit) :
    Nat → List (Lane ι κ ε) → Proc Op Ans ε L (List (Lane ι κ ε))
  | 0, lanes => pure lanes
  | fuel + 1, lanes =>
    if busy lanes = 0 then pure lanes
    else do
      let n ← pick (busy lanes)
      let lanes' ← stepNth step (n % busy lanes) lanes
      runLanes pick step fuel lanes'

/-- Run the steps for every item in a lane of its own; when all lanes have stopped, raise one of the exceptions, if any. -/
def inLanes (pick : Nat → Proc Op Ans ε L Nat) (steps : List κ) (step : κ → ι → Proc Op Ans ε L Unit) (items : List ι) :
    Proc Op Ans ε L Unit := do
  let lanes ← runLanes pick step (steps.length * items.length) (items.map fun item => { item := item, todo := steps })
  match lanes.filterMap Lane.error with
  | [] => pure ()
  | e :: es => do
    let n ← pick (es.length + 1)
    raise ((e :: es).getD (n % (es.length + 1)) e)

section rules

variable {M : Machine σ Op (fun o => Except ε (Ans o)) C} {K : Contract σ Op fun o => Except ε (Ans o)}
  {E : ε → L → σ → Prop} {l : L} {s : σ}

/-- What a step of one of the lanes has to keep. -/
def StepKeeps (M : Machine σ Op (fun o => Except ε (Ans o)) C) (K : Contract σ Op fun o => Except ε (Ans o))
    (step : κ → ι → Proc Op Ans ε L Unit) (I : List (Lane ι κ ε) → L → σ → Prop) : Prop :=
  ∀ pre lane k rest post l s, lane.todo = k :: rest → I (pre ++ lane :: post) l s →
    wp M K (step k lane.item) (fun _ => I (pre ++ { lane with todo := rest } :: post))
      (fun e => I (pre ++ { lane with todo := [], error := some e } :: post)) l s

/-- A lane's step keeps what the steps keep, and leaves fewer steps to do. -/
theorem wp_stepNth {step : κ → ι → Proc Op Ans ε L Unit} {I : List (Lane ι κ ε) → L → σ → Prop}
    (hstep : StepKeeps M K step I) (n : Nat) (pre lanes : List (Lane ι κ ε)) (hn : n < busy lanes)
    (hI : I (pre ++ lanes) l s) :
    wp M K (stepNth step n lanes) (fun lanes' l' s' => I (pre ++ lanes') l' s' ∧ Lane.left lanes' < Lane.left lanes) E l s := by
  induction lanes generalizing n pre with
  | nil => simp [busy] at hn
  | cons lane lanes ih =>
    have hpre : pre ++ lane :: lanes = (pre ++ [lane]) ++ lanes := by simp
    cases htodo : lane.todo with
    | nil =>
      have hn' : n < busy lanes := by simpa [busy, htodo] using hn
      simp only [stepNth, htodo, wp_bind]
      refine wp_mono (ih n (pre ++ [lane]) hn' (hpre ▸ hI)) ?_ (fun _ _ _ h => h)
      intro lanes' l' s' h
      rw [wp_pure]
      refine ⟨by simpa using h.1, ?_⟩
      simpa [Lane.left, htodo] using h.2
    | cons k rest =>
      cases n with
      | zero =>
        simp only [stepNth, htodo, wp_bind, stepLane, wp_handle]
        refine wp_mono (hstep pre lane k rest lanes l s htodo hI) ?_ ?_
        · intro _ l' s' h
          rw [wp_pure, wp_pure]
          exact ⟨h, by simp [Lane.left, htodo]⟩
        · intro e l' s' h
          rw [wp_pure, wp_pure]
          exact ⟨h, by simp [Lane.left, htodo]⟩
      | succ n =>
        have hn' : n < busy lanes := by
          simp only [busy, List.countP_cons, htodo] at hn
          unfold busy
          simp at hn
          omega
        simp only [stepNth, htodo, wp_bind]
        refine wp_mono (ih n (pre ++ [lane]) hn' (hpre ▸ hI)) ?_ (fun _ _ _ h => h)
        intro lanes' l' s' h
        rw [wp_pure]
        refine ⟨by simpa using h.1, ?_⟩
        simpa [Lane.left, htodo] using h.2

/-- No lane is busy when nothing is left to do. -/
theorem busy_eq_zero {lanes : List (Lane ι κ ε)} : busy lanes = 0 ↔ ∀ lane ∈ lanes, lane.todo = [] := by
  simp [busy, List.countP_eq_zero]

theorem busy_eq_zero_of_left {lanes : List (Lane ι κ ε)} (h : Lane.left lanes = 0) : busy lanes = 0 := by
  induction lanes with
  | nil => rfl
  | cons lane lanes ih =>
    simp only [Lane.left, List.map_cons, List.sum_cons] at h
    have hlanes : busy lanes = 0 := ih (by unfold Lane.left; omega)
    have hlane : lane.todo = [] := List.length_eq_zero_iff.1 (by omega)
    refine busy_eq_zero.2 fun lane' hl => ?_
    rcases List.mem_cons.1 hl with rfl | hl
    · exact hlane
    · exact busy_eq_zero.1 hlanes lane' hl

/-- Lane rule: an invariant of all lanes that every step of every lane keeps, whether it raises or not. -/
theorem wp_runLanes {pick : Nat → Proc Op Ans ε L Nat} {step : κ → ι → Proc Op Ans ε L Unit}
    (I : List (Lane ι κ ε) → L → σ → Prop) {N : List (Lane ι κ ε) → L → σ → Prop}
    (hpick : ∀ n lanes l s, I lanes l s → wp M K (pick n) (fun _ => I lanes) E l s) (hstep : StepKeeps M K step I)
    (hend : ∀ lanes l s, (∀ lane ∈ lanes, lane.todo = []) → I lanes l s → N lanes l s)
    (fuel : Nat) (lanes : List (Lane ι κ ε)) (hfuel : Lane.left lanes ≤ fuel) (hI : I lanes l s) :
    wp M K (runLanes pick step fuel lanes) N E l s := by
  induction fuel generalizing lanes l s with
  | zero => exact hend lanes l s (busy_eq_zero.1 (busy_eq_zero_of_left (by omega))) hI
  | succ fuel ih =>
    by_cases hb : busy lanes = 0
    · rw [runLanes, if_pos hb]
      exact hend lanes l s (busy_eq_zero.1 hb) hI
    · rw [runLanes, if_neg hb, wp_bind]
      refine wp_mono (hpick _ lanes l s hI) ?_ (fun _ _ _ h => h)
      intro n l' s' hI'
      rw [wp_bind]
      refine wp_mono (wp_stepNth hstep _ [] lanes (Nat.mod_lt _ (Nat.pos_of_ne_zero hb)) hI') ?_ (fun _ _ _ h => h)
      intro lanes' l'' s'' h
      exact ih lanes' (by omega) h.1

/-- Pool rule: from an invariant of all lanes, kept by every step and every pick, what holds when all lanes have finished and
when one of them has failed. -/
theorem wp_inLanes {pick : Nat → Proc Op Ans ε L Nat} {steps : List κ} {step : κ → ι → Proc Op Ans ε L Unit} {items : List ι}
    (I : List (Lane ι κ ε) → L → σ → Prop) {N : Unit → L → σ → Prop}
    (hpick : ∀ n lanes l s, I lanes l s → wp M K (pick n) (fun _ => I lanes) E l s) (hstep : StepKeeps M K step I)
    (hI : I (items.map fun item => { item := item, todo := steps }) l s)
    (hok : ∀ lanes l s, (∀ lane ∈ lanes, lane.todo = [] ∧ lane.error = none) → I lanes l s → N () l s)
    (hfail : ∀ lanes e l s, I lanes l s → (∃ lane ∈ lanes, lane.error = some e) → E e l s) :
    wp M K (inLanes pick steps step items) N E l s := by
  have hfuel : Lane.left (items.map fun item => ({ item := item, todo := steps } : Lane ι κ ε)) ≤
      steps.length * items.length := by
    simp [Lane.left, Function.comp_def, Nat.mul_comm]
  rw [inLanes, wp_bind]
  refine wp_runLanes I hpick hstep ?_ _ _ hfuel hI
  intro lanes l s hdone hI
  cases hes : lanes.filterMap Lane.error with
  | nil =>
    refine hok lanes l s (fun lane hl => ⟨hdone lane hl, ?_⟩) hI
    exact List.filterMap_eq_nil_iff.1 hes lane hl
  | cons e es =>
    rw [wp_bind]
    refine wp_mono (hpick _ lanes l s hI) ?_ (fun _ _ _ h => h)
    intro n l' s' hI'
    rw [wp_raise]
    have hlt : n % (es.length + 1) < (e :: es).length := Nat.mod_lt _ (Nat.succ_pos _)
    have hmem : (e :: es).getD (n % (es.length + 1)) e ∈ lanes.filterMap Lane.error := by
      rw [hes, List.getD_eq_getElem _ _ hlt]
      exact List.getElem_mem hlt
    exact hfail lanes _ l' s' hI' (List.mem_filterMap.1 hmem)

end rules

end Proc

end Effects
