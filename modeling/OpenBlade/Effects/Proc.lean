import OpenBlade.Effects.Prog

/-!
# Procedures with local variables and exceptions

A procedure is a program whose operations may raise. It has local variables, and an assignment stays when an exception passes
through: what `try`, `except` and `finally` see is what the statements before the exception left. The rules of the weakest
precondition take two postconditions, one for a normal end and one for an exception.
-/

namespace Effects

/-- A procedure: from its local variables, a program that ends normally with a value or with an exception, and with the local
variables as they then are. Every operation may raise. -/
def Proc (Op : Type) (Ans : Op → Type) (ε L α : Type) : Type :=
  L → Prog Op (fun o => Except ε (Ans o)) (Except ε α × L)

variable {σ Op C ε L L' α β : Type} {Ans : Op → Type}

namespace Proc

instance : Monad (Proc Op Ans ε L) where
  pure a := fun l => .ret (.ok a, l)
  bind m f := fun l => (m l).bind fun
    | (.ok a, l') => f a l'
    | (.error e, l') => .ret (.error e, l')

/-- Raise an exception. -/
def raise (e : ε) : Proc Op Ans ε L α := fun l => .ret (.error e, l)

/-- `try m except e: h e`. -/
def handle (m : Proc Op Ans ε L α) (h : ε → Proc Op Ans ε L α) : Proc Op Ans ε L α := fun l =>
  (m l).bind fun
    | (.ok a, l') => .ret (.ok a, l')
    | (.error e, l') => h e l'

/-- Run `m`, and tell how it ended. -/
def attempt (m : Proc Op Ans ε L α) : Proc Op Ans ε L (Except ε α) := fun l =>
  (m l).bind fun (r, l') => .ret (.ok r, l')

/-- The exception an outcome holds. -/
def pending : Except ε α → Option ε
  | .ok _ => none
  | .error e => some e

/-- `try m finally f`: `f` is told the exception in flight, and an exception of `f` replaces the outcome of `m`. -/
def ensure (m : Proc Op Ans ε L α) (f : Option ε → Proc Op Ans ε L Unit) : Proc Op Ans ε L α := fun l =>
  (m l).bind fun
    | (r, l') => (f (pending r) l').bind fun
      | (.ok _, l'') => .ret (r, l'')
      | (.error e, l'') => .ret (.error e, l'')

/-- The local variables. -/
def locals : Proc Op Ans ε L L := fun l => .ret (.ok l, l)

/-- Assign local variables. -/
def assign (f : L → L) : Proc Op Ans ε L Unit := fun l => .ret (.ok (), f l)

/-- Call an operation. -/
def perform (o : Op) : Proc Op Ans ε L (Ans o) := fun l => .call o fun r => .ret (r, l)

/-- Give the value of `x`, or raise what it holds. -/
def ofExcept : Except ε α → Proc Op Ans ε L α
  | .ok a => pure a
  | .error e => raise e

/-- Run a procedure with its own local variables, starting from `l₀`; the caller's stay as they are. -/
def scope (l₀ : L') (m : Proc Op Ans ε L' α) : Proc Op Ans ε L α := fun l =>
  (m l₀).bind fun (r, _) => .ret (r, l)

/-- `for x in xs: f x`. -/
def forEach (f : α → Proc Op Ans ε L Unit) : List α → Proc Op Ans ε L Unit
  | [] => pure ()
  | x :: xs => do
    f x
    forEach f xs

/-- `[f x for x in xs]`. -/
def mapEach (f : α → Proc Op Ans ε L β) : List α → Proc Op Ans ε L (List β)
  | [] => pure []
  | x :: xs => do
    let y ← f x
    let ys ← mapEach f xs
    pure (y :: ys)

/-- Weakest precondition with two postconditions: `N` for a normal end, `E` for an exception. -/
def wp (M : Machine σ Op (fun o => Except ε (Ans o)) C) (K : Contract σ Op fun o => Except ε (Ans o))
    (m : Proc Op Ans ε L α) (N : α → L → σ → Prop) (E : ε → L → σ → Prop) (l : L) (s : σ) : Prop :=
  (m l).wp M K (fun x s' => match x with
    | (.ok a, l') => N a l' s'
    | (.error e, l') => E e l' s') s

section rules

variable {M : Machine σ Op (fun o => Except ε (Ans o)) C} {K : Contract σ Op fun o => Except ε (Ans o)}
  {N : α → L → σ → Prop} {E : ε → L → σ → Prop} {l : L} {s : σ}

@[simp] theorem wp_pure (a : α) : wp M K (pure a) N E l s ↔ N a l s := Iff.rfl

@[simp] theorem wp_raise (e : ε) : wp M K (raise e : Proc Op Ans ε L α) N E l s ↔ E e l s := Iff.rfl

@[simp] theorem wp_locals {N : L → L → σ → Prop} :
    wp M K (locals : Proc Op Ans ε L L) N E l s ↔ N l l s := Iff.rfl

@[simp] theorem wp_assign (f : L → L) {N : Unit → L → σ → Prop} :
    wp M K (assign f : Proc Op Ans ε L Unit) N E l s ↔ N () (f l) s := Iff.rfl

@[simp] theorem wp_bind (m : Proc Op Ans ε L α) (f : α → Proc Op Ans ε L β) {N : β → L → σ → Prop} :
    wp M K (m >>= f) N E l s ↔ wp M K m (fun a => wp M K (f a) N E) E l s := by
  show Prog.wp M K ((m l).bind _) _ s ↔ _
  rw [Prog.wp_bind]
  constructor <;> intro h <;> refine Prog.wp_mono h ?_ <;> rintro ⟨_ | _, l'⟩ s' h' <;> exact h'

@[simp] theorem wp_handle (m : Proc Op Ans ε L α) (h : ε → Proc Op Ans ε L α) :
    wp M K (handle m h) N E l s ↔ wp M K m N (fun e => wp M K (h e) N E) l s := by
  show Prog.wp M K ((m l).bind _) _ s ↔ _
  rw [Prog.wp_bind]
  constructor <;> intro h <;> refine Prog.wp_mono h ?_ <;> rintro ⟨_ | _, l'⟩ s' h' <;> exact h'

@[simp] theorem wp_attempt (m : Proc Op Ans ε L α) {N : Except ε α → L → σ → Prop} :
    wp M K (attempt m) N E l s ↔ wp M K m (fun a => N (.ok a)) (fun e => N (.error e)) l s := by
  show Prog.wp M K ((m l).bind _) _ s ↔ _
  rw [Prog.wp_bind]
  constructor <;> intro h <;> refine Prog.wp_mono h ?_ <;> rintro ⟨_ | _, l'⟩ s' h' <;> exact h'

@[simp] theorem wp_ensure (m : Proc Op Ans ε L α) (f : Option ε → Proc Op Ans ε L Unit) :
    wp M K (ensure m f) N E l s ↔
      wp M K m (fun a => wp M K (f none) (fun _ => N a) E) (fun e => wp M K (f (some e)) (fun _ => E e) E) l s := by
  show Prog.wp M K ((m l).bind _) _ s ↔ _
  rw [Prog.wp_bind]
  constructor <;> intro h <;> refine Prog.wp_mono h ?_ <;> rintro ⟨_ | _, l'⟩ s' h'
  · exact Prog.wp_mono ((Prog.wp_bind _ _ _ _).1 h') (by rintro ⟨_ | _, l''⟩ s'' h''; exacts [h'', h''])
  · exact Prog.wp_mono ((Prog.wp_bind _ _ _ _).1 h') (by rintro ⟨_ | _, l''⟩ s'' h''; exacts [h'', h''])
  · exact (Prog.wp_bind _ _ _ _).2 (Prog.wp_mono h' (by rintro ⟨_ | _, l''⟩ s'' h''; exacts [h'', h'']))
  · exact (Prog.wp_bind _ _ _ _).2 (Prog.wp_mono h' (by rintro ⟨_ | _, l''⟩ s'' h''; exacts [h'', h'']))

@[simp] theorem wp_scope (l₀ : L') (m : Proc Op Ans ε L' α) :
    wp M K (scope l₀ m : Proc Op Ans ε L α) N E l s ↔
      wp M K m (fun a _ s' => N a l s') (fun e _ s' => E e l s') l₀ s := by
  show Prog.wp M K ((m l₀).bind _) _ s ↔ _
  rw [Prog.wp_bind]
  constructor <;> intro h <;> refine Prog.wp_mono h ?_ <;> rintro ⟨_ | _, l'⟩ s' h' <;> exact h'

@[simp] theorem wp_ofExcept (x : Except ε α) :
    wp M K (ofExcept x : Proc Op Ans ε L α) N E l s ↔
      match x with
      | .ok a => N a l s
      | .error e => E e l s := by
  cases x <;> rfl

/-- One call: for every choice, a considered step satisfies the guarantee, and its answer decides which postcondition has to
hold after it. -/
theorem wp_perform (o : Op) {N : Ans o → L → σ → Prop} :
    wp M K (perform o : Proc Op Ans ε L (Ans o)) N E l s ↔
      ∀ s₁, K.rely s s₁ → ∀ c, K.assume (M.step s₁ o c) → K.guar (M.step s₁ o c) ∧
        match (M.exec s₁ o c).1 with
        | .ok a => N a l (M.exec s₁ o c).2
        | .error e => E e l (M.exec s₁ o c).2 := by
  refine forall_congr' fun s₁ => imp_congr_right fun _ => forall_congr' fun c => imp_congr_right fun _ =>
    and_congr_right fun _ => ?_
  simp only [Prog.wp_ret]
  generalize M.exec s₁ o c = x
  obtain ⟨_ | _, s'⟩ := x <;> rfl

/-- Call rule: a considered step satisfies the guarantee, and both ends are met. -/
theorem wp_call {o : Op} {N : Ans o → L → σ → Prop}
    (h : ∀ s₁, K.rely s s₁ → ∀ c, K.assume (M.step s₁ o c) → K.guar (M.step s₁ o c) ∧
      (∀ a, (M.exec s₁ o c).1 = .ok a → N a l (M.exec s₁ o c).2) ∧
      ∀ e, (M.exec s₁ o c).1 = .error e → E e l (M.exec s₁ o c).2) :
    wp M K (perform o : Proc Op Ans ε L (Ans o)) N E l s := by
  rw [wp_perform]
  intro s₁ hr c ha
  obtain ⟨hg, hN, hE⟩ := h s₁ hr c ha
  refine ⟨hg, ?_⟩
  cases hans : (M.exec s₁ o c).1 with
  | ok a => exact hN a hans
  | error e => exact hE e hans

/-- Call rule under one choice. -/
theorem wp_fixed {c : C} {o : Op} {a : Ans o} {s' : σ} {N : Ans o → L → σ → Prop} (h : M.exec s o c = (.ok a, s')) (hN : N a l s') :
    wp M (.fixed M c) (perform o : Proc Op Ans ε L (Ans o)) N E l s := by
  rw [wp_perform]
  intro s₁ hr c' hstep
  obtain rfl : s = s₁ := hr
  have hexec : M.exec s o c' = M.exec s o c := by
    have hparts : M.step s o c' = M.step s o c := hstep
    simp only [Machine.step, Step.mk.injEq, heq_eq_eq, true_and] at hparts
    exact Prod.ext hparts.1 hparts.2
  rw [hexec, h]
  exact ⟨trivial, hN⟩

/-- Consequence. -/
theorem wp_mono {m : Proc Op Ans ε L α} {N' : α → L → σ → Prop} {E' : ε → L → σ → Prop} (h : wp M K m N E l s)
    (hN : ∀ a l' s', N a l' s' → N' a l' s') (hE : ∀ e l' s', E e l' s' → E' e l' s') : wp M K m N' E' l s := by
  refine Prog.wp_mono h ?_
  rintro ⟨_ | _, l'⟩ s' h'
  · exact hE _ _ _ h'
  · exact hN _ _ _ h'

/-- Nothing is asked of the procedure. -/
theorem wp_true (hg : ∀ st, K.guar st) (m : Proc Op Ans ε L α) :
    wp M K m (fun _ _ _ => True) (fun _ _ _ => True) l s := by
  refine Prog.wp_mono (Prog.wp_true hg _ _) ?_
  rintro ⟨_ | _, l'⟩ s' _ <;> trivial

/-- Loop rule: an invariant over the elements already processed, kept by each pass. -/
theorem wp_forEach {γ : Type} (f : γ → Proc Op Ans ε L Unit) (xs : List γ) (I : List γ → L → σ → Prop)
    {N : Unit → L → σ → Prop} (h0 : I [] l s)
    (hstep : ∀ pre x post l s, xs = pre ++ x :: post → I pre l s →
      wp M K (f x) (fun _ => I (pre ++ [x])) E l s)
    (hend : ∀ l s, I xs l s → N () l s) : wp M K (forEach f xs) N E l s := by
  suffices h : ∀ post pre l s, xs = pre ++ post → I pre l s → wp M K (forEach f post) N E l s from
    h xs [] l s rfl h0
  intro post
  induction post with
  | nil =>
    intro pre l s hx hI
    rw [List.append_nil] at hx
    exact hend l s (hx ▸ hI)
  | cons x post ih =>
    intro pre l s hx hI
    simp only [forEach, wp_bind]
    refine wp_mono (hstep pre x post l s hx hI) ?_ (fun _ _ _ h => h)
    intro _ l' s' hI'
    exact ih (pre ++ [x]) l' s' (by simp [hx]) hI'

/-- Loop rule for a loop that collects values: an invariant over the elements processed and the values so far. -/
theorem wp_mapEach {γ δ : Type} (f : γ → Proc Op Ans ε L δ) (xs : List γ) (I : List γ → List δ → L → σ → Prop)
    {N : List δ → L → σ → Prop} (h0 : I [] [] l s)
    (hstep : ∀ pre ys x post l s, xs = pre ++ x :: post → I pre ys l s →
      wp M K (f x) (fun y => I (pre ++ [x]) (ys ++ [y])) E l s)
    (hend : ∀ ys l s, I xs ys l s → N ys l s) : wp M K (mapEach f xs) N E l s := by
  suffices h : ∀ post pre ys l s, xs = pre ++ post → I pre ys l s →
      wp M K (mapEach f post) (fun zs => N (ys ++ zs)) E l s from h xs [] [] l s rfl h0
  intro post
  induction post with
  | nil =>
    intro pre ys l s hx hI
    rw [List.append_nil] at hx
    simpa [mapEach] using hend ys l s (hx ▸ hI)
  | cons x post ih =>
    intro pre ys l s hx hI
    rw [mapEach, wp_bind]
    refine wp_mono (hstep pre ys x post l s hx hI) ?_ (fun _ _ _ h => h)
    intro y l' s' hI'
    rw [wp_bind]
    refine wp_mono (ih (pre ++ [x]) (ys ++ [y]) l' s' (by simp [hx]) hI') ?_ (fun _ _ _ h => h)
    intro zs l'' s'' h''
    simpa using h''

end rules

end Proc

end Effects
