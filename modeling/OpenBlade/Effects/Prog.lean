import Mathlib

/-!
# Programs that call operations

A program is a tree: it ends with a value, or it calls an operation of an interface and goes on with the answer. What an
operation does is the machine's business: it reads the state and a choice of the environment (a fault, a scheduling decision,
a clock step) and gives an answer and a new state. A list of choices drives a program as far as it reaches, so a run that is cut
is a run over a shorter list.

`Prog.wp` is the weakest precondition of a program under a contract: what the others may do between two calls (`rely`), which
steps are considered (`assume`) and what every step must satisfy (`guar`).
-/

namespace Effects

/-- A program over the operations `Op`: it returns, or it calls an operation and continues with the answer. -/
inductive Prog (Op : Type) (Ans : Op → Type) (α : Type) : Type where
  | ret (a : α) : Prog Op Ans α
  | call (o : Op) (k : Ans o → Prog Op Ans α) : Prog Op Ans α

/-- What executes the operations: the answer and the next state, for every choice of the environment. -/
structure Machine (σ Op : Type) (Ans : Op → Type) (C : Type) where
  exec : σ → (o : Op) → C → Ans o × σ

/-- One executed call: the state before, the operation, its answer and the state after. -/
structure Step (σ Op : Type) (Ans : Op → Type) where
  pre : σ
  op : Op
  ans : Ans op
  post : σ

/-- The terms a program is judged under. -/
structure Contract (σ Op : Type) (Ans : Op → Type) where
  /-- What the rest of the system may do to the state between two calls. -/
  rely : σ → σ → Prop
  /-- The steps that are considered: a step outside ends the obligation. -/
  assume : Step σ Op Ans → Prop
  /-- What every considered step must satisfy. -/
  guar : Step σ Op Ans → Prop

variable {σ Op C α β γ : Type} {Ans : Op → Type}

namespace Prog

/-- The value of a program that has ended. -/
def value? : Prog Op Ans α → Option α
  | ret a => some a
  | call _ _ => none

theorem value?_eq_some {p : Prog Op Ans α} {a : α} : p.value? = some a ↔ p = ret a := by
  cases p <;> simp [value?]

/-- Run `p`, then go on with its value. -/
def bind : Prog Op Ans α → (α → Prog Op Ans β) → Prog Op Ans β
  | ret a, f => f a
  | call o k, f => call o fun r => (k r).bind f

end Prog

namespace Machine

variable (M : Machine σ Op Ans C)

/-- The step that executing `o` in `s` makes under the choice `c`. -/
def step (s : σ) (o : Op) (c : C) : Step σ Op Ans :=
  { pre := s, op := o, ans := (M.exec s o c).1, post := (M.exec s o c).2 }

/-- Drive a program by a list of choices, one for each call: what is left of it, and the state. -/
def run : List C → Prog Op Ans α → σ → Prog Op Ans α × σ
  | _, .ret a, s => (.ret a, s)
  | [], .call o k, s => (.call o k, s)
  | c :: cs, .call o k, s => run cs (k (M.exec s o c).1) (M.exec s o c).2

/-- The steps of that run, in order. -/
def trace : List C → Prog Op Ans α → σ → List (Step σ Op Ans)
  | _, .ret _, _ => []
  | [], .call _ _, _ => []
  | c :: cs, .call o k, s => M.step s o c :: trace cs (k (M.exec s o c).1) (M.exec s o c).2

/-- The machine with an observer, which takes note of every step in a state of its own. -/
def observed {μ : Type} (obs : μ → Step σ Op Ans → μ) : Machine (σ × μ) Op Ans C where
  exec s o c := ((M.exec s.1 o c).1, (M.exec s.1 o c).2, obs s.2 (M.step s.1 o c))

@[simp] theorem run_ret (cs : List C) (a : α) (s : σ) : M.run cs (.ret a) s = (.ret a, s) := by
  cases cs <;> rfl

@[simp] theorem trace_ret (cs : List C) (a : α) (s : σ) : M.trace cs (.ret a) s = [] := by
  cases cs <;> rfl

/-- An observer changes nothing: the run it watches is the run. -/
theorem run_observed {μ : Type} (obs : μ → Step σ Op Ans → μ) (cs : List C) (p : Prog Op Ans α) (s : σ) (m : μ) :
    ((M.observed obs).run cs p (s, m)).1 = (M.run cs p s).1 ∧ ((M.observed obs).run cs p (s, m)).2.1 = (M.run cs p s).2 := by
  induction cs generalizing p s m with
  | nil => cases p <;> exact ⟨rfl, rfl⟩
  | cons c cs ih =>
    cases p with
    | ret a => simp
    | call o k => exact ih _ _ _

/-- What the observer has noted in the end is read off the steps of the run. -/
theorem note_observed {μ : Type} (obs : μ → Step σ Op Ans → μ) (cs : List C) (p : Prog Op Ans α) (s : σ) (m : μ) :
    ((M.observed obs).run cs p (s, m)).2.2 = (M.trace cs p s).foldl obs m := by
  induction cs generalizing p s m with
  | nil => cases p <;> rfl
  | cons c cs ih =>
    cases p with
    | ret a => simp
    | call o k => exact ih _ _ _

/-- A run leaves the state it started from, or the one its last step left. -/
theorem run_state (cs : List C) (p : Prog Op Ans α) (s : σ) :
    (M.run cs p s).2 = s ∨ ∃ st ∈ M.trace cs p s, st.post = (M.run cs p s).2 := by
  induction cs generalizing p s with
  | nil => cases p <;> exact .inl rfl
  | cons c cs ih =>
    cases p with
    | ret a => exact .inl rfl
    | call o k =>
      refine .inr ?_
      rcases ih (k (M.exec s o c).1) (M.exec s o c).2 with h | ⟨st, hst, hpost⟩
      · exact ⟨M.step s o c, List.mem_cons_self, h.symm⟩
      · exact ⟨st, List.mem_cons_of_mem _ hst, hpost⟩

end Machine

namespace Prog

/-- The weakest precondition: from `s`, whatever the environment chooses and the others do, every considered step satisfies the
guarantee, and if the program ends, `Q` holds of its value and the state. -/
def wp (M : Machine σ Op Ans C) (K : Contract σ Op Ans) : Prog Op Ans α → (α → σ → Prop) → σ → Prop
  | ret a, Q, s => Q a s
  | call o k, Q, s => ∀ s₁, K.rely s s₁ → ∀ c, K.assume (M.step s₁ o c) →
      K.guar (M.step s₁ o c) ∧ wp M K (k (M.exec s₁ o c).1) Q (M.exec s₁ o c).2

variable {M : Machine σ Op Ans C} {K : Contract σ Op Ans}

@[simp] theorem wp_ret (a : α) (Q : α → σ → Prop) (s : σ) : (ret a : Prog Op Ans α).wp M K Q s ↔ Q a s := Iff.rfl

@[simp] theorem bind_call (o : Op) (k : Ans o → Prog Op Ans α) (f : α → Prog Op Ans β) :
    (call o k).bind f = call o fun r => (k r).bind f := rfl

/-- The precondition of a sequence is that of its first part, for the precondition of the second. -/
theorem wp_bind (p : Prog Op Ans α) (f : α → Prog Op Ans β) (Q : β → σ → Prop) (s : σ) :
    (p.bind f).wp M K Q s ↔ p.wp M K (fun a => (f a).wp M K Q) s := by
  induction p generalizing s with
  | ret a => rfl
  | call o k ih =>
    simp only [bind_call, wp]
    refine forall_congr' fun s₁ => imp_congr_right fun _ => forall_congr' fun c => imp_congr_right fun _ => ?_
    exact and_congr_right fun _ => ih _ _

/-- A precondition for a stronger postcondition is one for a weaker. -/
theorem wp_mono {p : Prog Op Ans α} {Q Q' : α → σ → Prop} {s : σ} (h : p.wp M K Q s)
    (hQ : ∀ a s, Q a s → Q' a s) : p.wp M K Q' s := by
  induction p generalizing s with
  | ret a => exact hQ a s h
  | call o k ih =>
    intro s₁ hr c ha
    obtain ⟨hg, hk⟩ := h s₁ hr c ha
    exact ⟨hg, ih _ hk⟩

/-- Nothing is asked of the program. -/
theorem wp_true (hg : ∀ st, K.guar st) (p : Prog Op Ans α) (s : σ) : p.wp M K (fun _ _ => True) s := by
  induction p generalizing s with
  | ret a => trivial
  | call o k ih => exact fun s₁ _ c _ => ⟨hg _, ih _ _⟩

end Prog

/-- The contract of a program that runs alone: nobody else moves. -/
def Contract.alone (assume guar : Step σ Op Ans → Prop) : Contract σ Op Ans :=
  { rely := Eq, assume := assume, guar := guar }

/-- The contract of a program that runs alone and keeps `I` true after every call. -/
def Contract.keeps (assume : Step σ Op Ans → Prop) (I : σ → Prop) : Contract σ Op Ans :=
  Contract.alone assume fun st => I st.post

/-- Run rule: in a run whose steps are all considered, every step satisfies the guarantee, and the postcondition holds at the
end. -/
theorem run_of_wp {M : Machine σ Op Ans C} {assume guar : Step σ Op Ans → Prop} {p : Prog Op Ans α}
    {Q : α → σ → Prop} {s : σ} (h : p.wp M (.alone assume guar) Q s) (cs : List C)
    (hc : ∀ st ∈ M.trace cs p s, assume st) :
    (∀ st ∈ M.trace cs p s, guar st) ∧ ∀ a s', M.run cs p s = (.ret a, s') → Q a s' := by
  induction cs generalizing p s with
  | nil =>
    cases p with
    | ret a =>
      refine ⟨by simp, ?_⟩
      rintro b s' ⟨⟩
      exact h
    | call o k => exact ⟨by simp [Machine.trace], by rintro b s' ⟨⟩⟩
  | cons c cs ih =>
    cases p with
    | ret a =>
      refine ⟨by simp, ?_⟩
      rintro b s' ⟨⟩
      exact h
    | call o k =>
      simp only [Machine.trace, List.mem_cons, forall_eq_or_imp] at hc ⊢
      obtain ⟨hg, hk⟩ := h s rfl c hc.1
      obtain ⟨ht, hq⟩ := ih hk hc.2
      exact ⟨⟨hg, ht⟩, hq⟩

/-- Invariant rule: what holds at the start and is kept by every call holds wherever the run ended or was cut. -/
theorem cut_of_wp {M : Machine σ Op Ans C} {assume : Step σ Op Ans → Prop} {I : σ → Prop} {p : Prog Op Ans α}
    {Q : α → σ → Prop} {s : σ} (h : p.wp M (.keeps assume I) Q s) (hs : I s) (cs : List C)
    (hc : ∀ st ∈ M.trace cs p s, assume st) : I (M.run cs p s).2 := by
  induction cs generalizing p s with
  | nil => cases p <;> exact hs
  | cons c cs ih =>
    cases p with
    | ret a => exact hs
    | call o k =>
      simp only [Machine.trace, List.mem_cons, forall_eq_or_imp] at hc
      obtain ⟨hg, hk⟩ := h s rfl c hc.1
      exact ih hk hg hc.2

/-- The contract of a program that runs alone, with one choice at every call. -/
def Contract.fixed (M : Machine σ Op Ans C) (c : C) : Contract σ Op Ans :=
  .alone (fun st => st = M.step st.pre st.op c) fun _ => True

/-- Existence rule: with enough choices a program ends, so what is proved of its runs under one choice there is a run for. -/
theorem Prog.ends_of_wp {M : Machine σ Op Ans C} {c : C} {p : Prog Op Ans α} {Q : α → σ → Prop} {s : σ}
    (h : p.wp M (.fixed M c) Q s) : ∃ n a s', M.run (List.replicate n c) p s = (.ret a, s') ∧ Q a s' := by
  induction p generalizing s with
  | ret a => exact ⟨0, a, s, rfl, h⟩
  | call o k ih =>
    obtain ⟨n, a, s', hrun, hQ⟩ := ih _ (h s rfl c rfl).2
    exact ⟨n + 1, a, s', hrun, hQ⟩

end Effects
