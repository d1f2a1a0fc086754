import Mathlib

/-!
# Automata

A system that answers calls: a state, where it starts, and what a call answers and leaves. What every call keeps holds after any
calls; two systems whose answers agree from related states, and stay related, cannot be told apart by any calls.
-/

namespace Effects

/-- A system that answers the calls `C` by answers `A`. -/
structure Automaton (C A : Type) where
  State : Type
  init : State
  step : State → C → A × State

namespace Automaton

variable {C A : Type} (M N : Automaton C A)

/-- The state after calls. -/
def after : M.State → List C → M.State
  | s, [] => s
  | s, c :: cs => after (M.step s c).2 cs

/-- What the calls are answered. -/
def answersFrom : M.State → List C → List A
  | _, [] => []
  | s, c :: cs => (M.step s c).1 :: answersFrom (M.step s c).2 cs

/-- What calls are answered from the start on. -/
def answers (cs : List C) : List A := M.answersFrom M.init cs

variable {M N}

/-- Run rule: what every call keeps, calls keep. -/
theorem after_keeps {I : M.State → Prop} (hstep : ∀ s c, I s → I (M.step s c).2) {s : M.State} (hs : I s) (cs : List C) :
    I (M.after s cs) := by
  induction cs generalizing s with
  | nil => exact hs
  | cons c cs ih => exact ih (hstep s c hs)

variable (M) in
/-- Calls each of which meets a condition in the state it is made in. -/
def Meets (C' : M.State → C → Prop) : M.State → List C → Prop
  | _, [] => True
  | s, c :: cs => C' s c ∧ Meets C' (M.step s c).2 cs

/-- Run rule under a condition: what every call that meets it keeps, calls that meet it keep. -/
theorem Meets.keeps {I : M.State → Prop} {C' : M.State → C → Prop} (hstep : ∀ s c, I s → C' s c → I (M.step s c).2)
    {s : M.State} {cs : List C} (h : M.Meets C' s cs) (hs : I s) : I (M.after s cs) := by
  induction cs generalizing s with
  | nil => exact hs
  | cons c cs ih => exact ih h.2 (hstep s c hs h.1)

theorem meets_append {C' : M.State → C → Prop} {s : M.State} {cs cs' : List C} :
    M.Meets C' s (cs ++ cs') ↔ M.Meets C' s cs ∧ M.Meets C' (M.after s cs) cs' := by
  induction cs generalizing s with
  | nil => simp [Meets, after]
  | cons c cs ih => simp only [List.cons_append, Meets, after, ih, and_assoc]

/-- Simulation rule: what is related, and stays so with one answer to every call that is considered, is not told apart by such
calls. -/
theorem answersFrom_eq {R : M.State → N.State → Prop} {P : C → Prop}
    (hstep : ∀ s t c, P c → R s t → (M.step s c).1 = (N.step t c).1 ∧ R (M.step s c).2 (N.step t c).2) {s : M.State} {t : N.State}
    (h : R s t) {cs : List C} (hcs : ∀ c ∈ cs, P c) : M.answersFrom s cs = N.answersFrom t cs := by
  induction cs generalizing s t with
  | nil => rfl
  | cons c cs ih =>
    obtain ⟨hanswer, hnext⟩ := hstep s t c (hcs c List.mem_cons_self) h
    unfold answersFrom
    rw [hanswer, ih hnext fun c' hc' => hcs c' (List.mem_cons_of_mem _ hc')]

/-- A relation that the starts are in and that every call keeps, with one answer. -/
structure Bisimulation (R : M.State → N.State → Prop) : Prop where
  init : R M.init N.init
  answer : ∀ s t c, R s t → (M.step s c).1 = (N.step t c).1
  step : ∀ s t c, R s t → R (M.step s c).2 (N.step t c).2

/-- No calls tell two systems apart that are bisimilar. -/
theorem Bisimulation.answers_eq {R : M.State → N.State → Prop} (h : Bisimulation R) (cs : List C) :
    M.answers cs = N.answers cs :=
  answersFrom_eq (fun s t c _ hr => ⟨h.answer s t c hr, h.step s t c hr⟩) h.init fun _ _ => trivial

end Automaton

end Effects
