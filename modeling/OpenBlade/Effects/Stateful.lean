import Mathlib

/-!
# Stateful functions that may raise

A function on a mutable state that returns or raises; what it did to the state before it raised stays. Where nothing happens
beside it, it needs no tree of calls: its run is a pair. The weakest precondition takes two postconditions, one for a normal end
and one for an exception.
-/

namespace Effects

/-- A function on the state `σ` that returns an `α` or raises an `ε`, and leaves a state in both cases. -/
def Stateful (ε σ α : Type) : Type := σ → Except ε α × σ

variable {ε σ τ α β : Type}

namespace Stateful

instance : Monad (Stateful ε σ) where
  pure a := fun s => (.ok a, s)
  bind m f := fun s =>
    match m s with
    | (.ok a, s') => f a s'
    | (.error e, s') => (.error e, s')

/-- Raise an exception. -/
def raise (e : ε) : Stateful ε σ α := fun s => (.error e, s)

/-- Look at the state. -/
def read (f : σ → α) : Stateful ε σ α := fun s => (.ok (f s), s)

/-- Change the state. -/
def change (f : σ → σ) : Stateful ε σ Unit := fun s => (.ok (), f s)

/-- Give the value of `x`, or raise what it holds. -/
def ofExcept : Except ε α → Stateful ε σ α
  | .ok a => pure a
  | .error e => raise e

/-- Run a function on a part of the state. -/
def within (get : σ → τ) (put : σ → τ → σ) (m : τ → Except ε α × τ) : Stateful ε σ α := fun s =>
  ((m (get s)).1, put s (m (get s)).2)

/-- `m`, started in `s`, returns into `N` or raises into `E`. -/
def wp (m : Stateful ε σ α) (N : α → σ → Prop) (E : ε → σ → Prop) (s : σ) : Prop :=
  match m s with
  | (.ok a, s') => N a s'
  | (.error e, s') => E e s'

section rules

variable {N N' : α → σ → Prop} {E E' : ε → σ → Prop} {s : σ}

@[simp] theorem wp_pure (a : α) : wp (pure a : Stateful ε σ α) N E s ↔ N a s := Iff.rfl

@[simp] theorem wp_raise (e : ε) : wp (raise e : Stateful ε σ α) N E s ↔ E e s := Iff.rfl

@[simp] theorem wp_read (f : σ → α) : wp (read f : Stateful ε σ α) N E s ↔ N (f s) s := Iff.rfl

/-- Sequence rule. -/
@[simp] theorem wp_bind {β : Type} (m : Stateful ε σ β) (f : β → Stateful ε σ α) :
    wp (m >>= f) N E s ↔ wp m (fun b => wp (f b) N E) E s := by
  have hrun : (m >>= f) s = match m s with
    | (.ok b, s') => f b s'
    | (.error e, s') => (.error e, s') := rfl
  unfold wp
  rw [hrun]
  rcases m s with ⟨_ | b, s'⟩ <;> rfl

theorem wp_ofExcept (x : Except ε α) :
    wp (ofExcept x) N E s ↔ (∀ a, x = .ok a → N a s) ∧ ∀ e, x = .error e → E e s := by
  cases x with
  | error e => simp [ofExcept]
  | ok a => simp [ofExcept]

theorem wp_within (get : σ → τ) (put : σ → τ → σ) (m : τ → Except ε α × τ) :
    wp (within get put m) N E s ↔
      (∀ a t, m (get s) = (.ok a, t) → N a (put s t)) ∧ ∀ e t, m (get s) = (.error e, t) → E e (put s t) := by
  unfold wp within
  rcases m (get s) with ⟨_ | a, t⟩ <;> simp

/-- What the weakest precondition says of the run. -/
theorem wp_iff (m : Stateful ε σ α) :
    wp m N E s ↔ (∀ a s', m s = (.ok a, s') → N a s') ∧ ∀ e s', m s = (.error e, s') → E e s' := by
  unfold wp
  rcases m s with ⟨_ | a, s'⟩ <;> simp

/-- Consequence rule. -/
theorem wp_mono {m : Stateful ε σ α} (h : wp m N E s) (hN : ∀ a s', N a s' → N' a s') (hE : ∀ e s', E e s' → E' e s') :
    wp m N' E' s := by
  unfold wp at *
  revert h
  rcases m s with ⟨_ | a, s'⟩
  · exact hE _ _
  · exact hN _ _

end rules

/-- However `m` ends, it keeps `I`. -/
def Keeps (I : σ → Prop) (m : Stateful ε σ α) : Prop := ∀ s, I s → wp m (fun _ => I) (fun _ => I) s

section keeps

variable {I : σ → Prop}

theorem keeps_pure (a : α) : Keeps I (pure a : Stateful ε σ α) := fun _ h => h

theorem keeps_raise (e : ε) : Keeps I (raise e : Stateful ε σ α) := fun _ h => h

theorem keeps_read (f : σ → α) : Keeps I (read f : Stateful ε σ α) := fun _ h => h

theorem keeps_change {f : σ → σ} (h : ∀ s, I s → I (f s)) : Keeps I (change f : Stateful ε σ Unit) := h

theorem keeps_ofExcept (x : Except ε α) : Keeps I (ofExcept x : Stateful ε σ α) := by
  cases x with
  | error e => exact keeps_raise e
  | ok a => exact keeps_pure a

theorem keeps_bind {m : Stateful ε σ β} {f : β → Stateful ε σ α} (hm : Keeps I m) (hf : ∀ b, Keeps I (f b)) :
    Keeps I (m >>= f) :=
  fun s h => (wp_bind m f).2 (wp_mono (hm s h) (fun b s' h' => hf b s' h') fun _ _ h' => h')

end keeps

end Stateful

end Effects
