import OpenBlade.Effects.Proc

/-!
# Runs that are possible

`wp` speaks of every run of a program. `can` is its counterpart: for some choices of the environment the program ends, and its
postcondition holds there. A statement about all runs is refuted by what can be.
-/

namespace Effects

variable {σ Op C ε L L' α β : Type} {Ans : Op → Type}

namespace Prog

/-- For some choices the program, started in `s`, ends, and `Q` holds of its value and the state. -/
def can (M : Machine σ Op Ans C) : Prog Op Ans α → (α → σ → Prop) → σ → Prop
  | ret a, Q, s => Q a s
  | call o k, Q, s => ∃ c, can M (k (M.exec s o c).1) Q (M.exec s o c).2

variable {M : Machine σ Op Ans C}

theorem can_bind {p : Prog Op Ans α} {f : α → Prog Op Ans β} {Q : β → σ → Prop} {s : σ}
    (h : p.can M (fun a => (f a).can M Q) s) : (p.bind f).can M Q s := by
  induction p generalizing s with
  | ret a => exact h
  | call o k ih =>
    obtain ⟨c, hc⟩ := h
    exact ⟨c, ih _ hc⟩

theorem can_mono {p : Prog Op Ans α} {Q Q' : α → σ → Prop} {s : σ} (h : p.can M Q s) (hQ : ∀ a s, Q a s → Q' a s) : p.can M Q' s := by
  induction p generalizing s with
  | ret a => exact hQ a s h
  | call o k ih =>
    obtain ⟨c, hc⟩ := h
    exact ⟨c, ih _ hc⟩

/-- A program can end. -/
theorem can_true [Inhabited C] (p : Prog Op Ans α) (s : σ) : p.can M (fun _ _ => True) s := by
  induction p generalizing s with
  | ret a => trivial
  | call o k ih => exact ⟨default, ih _ _⟩

/-- Existence rule: what can be is the end of a run. -/
theorem ends_of_can {p : Prog Op Ans α} {Q : α → σ → Prop} {s : σ} (h : p.can M Q s) : ∃ cs a s', M.run cs p s = (.ret a, s') ∧ Q a s' := by
  induction p generalizing s with
  | ret a => exact ⟨[], a, s, rfl, h⟩
  | call o k ih =>
    obtain ⟨c, hc⟩ := h
    obtain ⟨cs, a, s', hrun, hQ⟩ := ih _ hc
    exact ⟨c :: cs, a, s', hrun, hQ⟩

end Prog

/-! ### States a program can pass through -/

namespace Prog

/-- For some choices the program, started in `s`, has come to a state of `Q`, whether it has ended there or goes on. -/
def canPass (M : Machine σ Op Ans C) (p : Prog Op Ans α) (Q : σ → Prop) (s : σ) : Prop := ∃ cs, Q (M.run cs p s).2

variable {M : Machine σ Op Ans C} {Q : σ → Prop}

theorem canPass_now {p : Prog Op Ans α} {s : σ} (h : Q s) : p.canPass M Q s := by
  refine ⟨[], ?_⟩
  cases p <;> exact h

theorem canPass_call {o : Op} {k : Ans o → Prog Op Ans α} {s : σ} (c : C) (h : (k (M.exec s o c).1).canPass M Q (M.exec s o c).2) :
    (call o k).canPass M Q s := by
  obtain ⟨cs, hcs⟩ := h
  exact ⟨c :: cs, hcs⟩

/-- What the first part passes through, the sequence does. -/
theorem canPass_first {p : Prog Op Ans α} {f : α → Prog Op Ans β} {s : σ} (h : p.canPass M Q s) : (p.bind f).canPass M Q s := by
  obtain ⟨cs, hcs⟩ := h
  induction cs generalizing p s with
  | nil =>
    refine canPass_now ?_
    cases p <;> exact hcs
  | cons c cs ih =>
    cases p with
    | ret a => exact canPass_now hcs
    | call o k => exact canPass_call c (ih hcs)

/-- Nor is the second part cut off when the first can end. -/
theorem canPass_bind {p : Prog Op Ans α} {f : α → Prog Op Ans β} {s : σ} (h : p.can M (fun a s => (f a).canPass M Q s) s) :
    (p.bind f).canPass M Q s := by
  induction p generalizing s with
  | ret a => exact h
  | call o k ih =>
    obtain ⟨c, hc⟩ := h
    exact canPass_call c (ih _ hc)

end Prog

/-- A machine whose every step is, seen through `f`, a step of another for some choice: its runs are runs of the other. -/
theorem Machine.run_projects {σ' C' : Type} (M : Machine σ Op Ans C) (M' : Machine σ' Op Ans C') (f : σ → σ')
    (h : ∀ s o c, ∃ c', M'.exec (f s) o c' = ((M.exec s o c).1, f (M.exec s o c).2)) (cs : List C) (p : Prog Op Ans α) (s : σ) :
    ∃ cs', M'.run cs' p (f s) = ((M.run cs p s).1, f (M.run cs p s).2) := by
  induction cs generalizing p s with
  | nil => cases p <;> exact ⟨[], rfl⟩
  | cons c cs ih =>
    cases p with
    | ret a => exact ⟨[], rfl⟩
    | call o k =>
      obtain ⟨c', hc'⟩ := h s o c
      obtain ⟨cs', hcs'⟩ := ih (k (M.exec s o c).1) (M.exec s o c).2
      refine ⟨c' :: cs', ?_⟩
      simp only [Machine.run, hc', hcs']

namespace Proc

/-- For some choices the procedure ends, normally with `N` or with an exception and `E`. -/
def can (M : Machine σ Op (fun o => Except ε (Ans o)) C) (m : Proc Op Ans ε L α) (N : α → L → σ → Prop) (E : ε → L → σ → Prop) (l : L)
    (s : σ) : Prop :=
  (m l).can M (fun x s' => match x with
    | (.ok a, l') => N a l' s'
    | (.error e, l') => E e l' s') s

section rules

variable {M : Machine σ Op (fun o => Except ε (Ans o)) C} {N : α → L → σ → Prop} {E : ε → L → σ → Prop} {l : L} {s : σ}

theorem can_pure {a : α} (h : N a l s) : can M (pure a) N E l s := h

theorem can_raise {e : ε} (h : E e l s) : can M (raise e : Proc Op Ans ε L α) N E l s := h

theorem can_locals {N : L → L → σ → Prop} (h : N l l s) : can M (locals : Proc Op Ans ε L L) N E l s := h

theorem can_assign {f : L → L} {N : Unit → L → σ → Prop} (h : N () (f l) s) : can M (assign f : Proc Op Ans ε L Unit) N E l s := h

theorem can_bind {m : Proc Op Ans ε L α} {f : α → Proc Op Ans ε L β} {N : β → L → σ → Prop}
    (h : can M m (fun a => can M (f a) N E) E l s) : can M (m >>= f) N E l s := by
  refine Prog.can_bind (Prog.can_mono h ?_)
  rintro ⟨_ | _, l'⟩ s' h' <;> exact h'

theorem can_handle {m : Proc Op Ans ε L α} {f : ε → Proc Op Ans ε L α} (h : can M m N (fun e => can M (f e) N E) l s) :
    can M (handle m f) N E l s := by
  refine Prog.can_bind (Prog.can_mono h ?_)
  rintro ⟨_ | _, l'⟩ s' h' <;> exact h'

theorem can_ensure {m : Proc Op Ans ε L α} {f : Option ε → Proc Op Ans ε L Unit}
    (h : can M m (fun a => can M (f none) (fun _ => N a) E) (fun e => can M (f (some e)) (fun _ => E e) E) l s) :
    can M (ensure m f) N E l s := by
  refine Prog.can_bind (Prog.can_mono h ?_)
  rintro ⟨_ | _, l'⟩ s' h' <;> refine Prog.can_bind (Prog.can_mono h' ?_) <;> rintro ⟨_ | _, l''⟩ s'' h'' <;> exact h''

theorem can_scope {l₀ : L'} {m : Proc Op Ans ε L' α} (h : can M m (fun a _ s' => N a l s') (fun e _ s' => E e l s') l₀ s) :
    can M (scope l₀ m : Proc Op Ans ε L α) N E l s := by
  refine Prog.can_bind (Prog.can_mono h ?_)
  rintro ⟨_ | _, l'⟩ s' h' <;> exact h'

/-- A call can be answered. -/
theorem can_perform {o : Op} {a : Ans o} {s' : σ} {N : Ans o → L → σ → Prop} (c : C) (h : M.exec s o c = (.ok a, s')) (hN : N a l s') :
    can M (perform o : Proc Op Ans ε L (Ans o)) N E l s := by
  refine ⟨c, ?_⟩
  rw [h]
  exact hN

/-- A call can raise. -/
theorem can_fail {o : Op} {e : ε} {s' : σ} {N : Ans o → L → σ → Prop} (c : C) (h : M.exec s o c = (.error e, s')) (hE : E e l s') :
    can M (perform o : Proc Op Ans ε L (Ans o)) N E l s := by
  refine ⟨c, ?_⟩
  rw [h]
  exact hE

theorem can_mono {m : Proc Op Ans ε L α} {N' : α → L → σ → Prop} {E' : ε → L → σ → Prop} (h : can M m N E l s)
    (hN : ∀ a l' s', N a l' s' → N' a l' s') (hE : ∀ e l' s', E e l' s' → E' e l' s') : can M m N' E' l s := by
  refine Prog.can_mono h ?_
  rintro ⟨_ | _, l'⟩ s' h'
  · exact hE _ _ _ h'
  · exact hN _ _ _ h'

/-- Loop rule: with an invariant that each pass can keep, the loop can come to its end. -/
theorem can_forEach {γ : Type} {f : γ → Proc Op Ans ε L Unit} {xs : List γ} {I : List γ → L → σ → Prop} {N : Unit → L → σ → Prop}
    (h0 : I [] l s)
    (hstep : ∀ pre x post l s, xs = pre ++ x :: post → I pre l s → can M (f x) (fun _ => I (pre ++ [x])) E l s)
    (hend : ∀ l s, I xs l s → N () l s) : can M (forEach f xs) N E l s := by
  suffices h : ∀ post pre l s, xs = pre ++ post → I pre l s → can M (forEach f post) N E l s from h xs [] l s rfl h0
  intro post
  induction post with
  | nil =>
    intro pre l s hx hI
    rw [List.append_nil] at hx
    exact hend l s (hx ▸ hI)
  | cons x post ih =>
    intro pre l s hx hI
    refine can_bind (can_mono (hstep pre x post l s hx hI) ?_ fun _ _ _ h => h)
    intro _ l' s' hI'
    exact ih (pre ++ [x]) l' s' (by simp [hx]) hI'

/-- Loop rule for a loop that collects values. -/
theorem can_mapEach {γ δ : Type} {f : γ → Proc Op Ans ε L δ} {xs : List γ} {I : List γ → List δ → L → σ → Prop}
    {N : List δ → L → σ → Prop} (h0 : I [] [] l s)
    (hstep : ∀ pre ys x post l s, xs = pre ++ x :: post → I pre ys l s → can M (f x) (fun y => I (pre ++ [x]) (ys ++ [y])) E l s)
    (hend : ∀ ys l s, I xs ys l s → N ys l s) : can M (mapEach f xs) N E l s := by
  suffices h : ∀ post pre ys l s, xs = pre ++ post → I pre ys l s → can M (mapEach f post) (fun zs => N (ys ++ zs)) E l s from
    h xs [] [] l s rfl h0
  intro post
  induction post with
  | nil =>
    intro pre ys l s hx hI
    rw [List.append_nil] at hx
    refine can_pure ?_
    rw [List.append_nil]
    exact hend ys l s (hx ▸ hI)
  | cons x post ih =>
    intro pre ys l s hx hI
    refine can_bind (can_mono (hstep pre ys x post l s hx hI) ?_ fun _ _ _ h => h)
    intro y l' s' hI'
    refine can_bind (can_mono (ih (pre ++ [x]) (ys ++ [y]) l' s' (by simp [hx]) hI') ?_ fun _ _ _ h => h)
    intro zs l'' s'' h''
    refine can_pure ?_
    simpa using h''

/-- A loop can be left by an exception in the pass for one of its elements, when the passes before it can keep the invariant. -/
theorem can_leave_forEach {γ : Type} {f : γ → Proc Op Ans ε L Unit} {x : γ} {pre post : List γ} {I : L → σ → Prop} {N : Unit → L → σ → Prop}
    (h0 : I l s) (hpre : ∀ y ∈ pre, ∀ l s, I l s → can M (f y) (fun _ => I) E l s)
    (hx : ∀ l s, I l s → can M (f x) (fun _ l s => can M (forEach f post) N E l s) E l s) : can M (forEach f (pre ++ x :: post)) N E l s := by
  induction pre generalizing l s with
  | nil => exact can_bind (hx l s h0)
  | cons y pre ih =>
    refine can_bind (can_mono (hpre y List.mem_cons_self l s h0) ?_ fun _ _ _ h => h)
    intro _ l' s' hI
    exact ih hI fun z hz => hpre z (List.mem_cons_of_mem _ hz)

theorem can_leave_mapEach {γ δ : Type} {f : γ → Proc Op Ans ε L δ} {x : γ} {pre post : List γ} {I : L → σ → Prop}
    {N : List δ → L → σ → Prop} (h0 : I l s) (hpre : ∀ y ∈ pre, ∀ l s, I l s → can M (f y) (fun _ => I) E l s)
    (hx : ∀ l s, I l s → can M (f x) (fun _ _ _ => False) E l s) : can M (mapEach f (pre ++ x :: post)) N E l s := by
  induction pre generalizing l s N with
  | nil => exact can_bind (can_mono (hx l s h0) (fun _ _ _ h => h.elim) fun _ _ _ h => h)
  | cons y pre ih =>
    refine can_bind (can_mono (hpre y List.mem_cons_self l s h0) ?_ fun _ _ _ h => h)
    intro _ l' s' hI
    exact can_bind (ih hI fun z hz => hpre z (List.mem_cons_of_mem _ hz))

/-- For some choices the procedure comes to a state of `Q`. -/
def canPass (M : Machine σ Op (fun o => Except ε (Ans o)) C) (m : Proc Op Ans ε L α) (Q : σ → Prop) (l : L) (s : σ) : Prop :=
  (m l).canPass M Q s

variable {Q : σ → Prop}

theorem canPass_perform {o : Op} (c : C) (h : Q (M.exec s o c).2) : canPass M (perform o : Proc Op Ans ε L (Ans o)) Q l s :=
  Prog.canPass_call c (Prog.canPass_now h)

theorem canPass_first {m : Proc Op Ans ε L α} {f : α → Proc Op Ans ε L β} (h : canPass M m Q l s) : canPass M (m >>= f) Q l s :=
  Prog.canPass_first h

theorem canPass_bind {m : Proc Op Ans ε L α} {f : α → Proc Op Ans ε L β}
    (h : can M m (fun a l s => canPass M (f a) Q l s) (fun _ _ _ => False) l s) : canPass M (m >>= f) Q l s := by
  refine Prog.canPass_bind (Prog.can_mono h ?_)
  rintro ⟨_ | _, l'⟩ s' h'
  · exact h'.elim
  · exact h'

theorem canPass_handle {m : Proc Op Ans ε L α} {f : ε → Proc Op Ans ε L α} (h : canPass M m Q l s) : canPass M (handle m f) Q l s :=
  Prog.canPass_first h

theorem canPass_ensure {m : Proc Op Ans ε L α} {f : Option ε → Proc Op Ans ε L Unit} (h : canPass M m Q l s) :
    canPass M (ensure m f) Q l s :=
  Prog.canPass_first h

end rules

end Proc

end Effects
