import OpenBlade.Effects.Footprint

/-!
# Procedures that keep an invariant

`Keeps M K I m`: wherever `I` holds, `m` makes only steps the contract allows, and `I` holds again when `m` ends, normally or with
an exception. A procedure keeps what its calls and assignments keep.
-/

namespace Effects

namespace Proc

variable {σ Op C ε L L' ι κ α β : Type} {Ans : Op → Type} {M : Machine σ Op (fun o => Except ε (Ans o)) C}
  {K : Contract σ Op fun o => Except ε (Ans o)} {I : L → σ → Prop}

/-- `m` keeps `I`. -/
def Keeps (M : Machine σ Op (fun o => Except ε (Ans o)) C) (K : Contract σ Op fun o => Except ε (Ans o))
    (I : L → σ → Prop) (m : Proc Op Ans ε L α) : Prop :=
  ∀ l s, I l s → wp M K m (fun _ => I) (fun _ => I) l s

theorem keeps_pure (a : α) : Keeps M K I (pure a : Proc Op Ans ε L α) := fun _ _ h => h

theorem keeps_raise (e : ε) : Keeps M K I (raise e : Proc Op Ans ε L α) := fun _ _ h => h

theorem keeps_locals : Keeps M K I (locals : Proc Op Ans ε L L) := fun _ _ h => h

theorem keeps_assign {f : L → L} (h : ∀ l s, I l s → I (f l) s) : Keeps M K I (assign f : Proc Op Ans ε L Unit) :=
  fun l s hI => h l s hI

theorem keeps_ofExcept (x : Except ε α) : Keeps M K I (ofExcept x : Proc Op Ans ε L α) := by
  intro l s h
  rw [wp_ofExcept]
  cases x <;> exact h

theorem keeps_bind {m : Proc Op Ans ε L α} {f : α → Proc Op Ans ε L β} (hm : Keeps M K I m)
    (hf : ∀ a, Keeps M K I (f a)) : Keeps M K I (m >>= f) := by
  intro l s h
  rw [wp_bind]
  exact wp_mono (hm l s h) (fun a l' s' h' => hf a l' s' h') (fun _ _ _ h' => h')

/-- What follows a procedure may count on the values it can end with. -/
theorem keeps_bind_yields {P : Op → Prop} {Q : α → Prop} {m : Proc Op Ans ε L α} {f : α → Proc Op Ans ε L β} (hy : Yields P Q m)
    (hm : Keeps M K I m) (hf : ∀ a, Q a → Keeps M K I (f a)) : Keeps M K I (m >>= f) := by
  intro l s h
  rw [wp_bind]
  exact wp_mono (hy.wp_and (hm l s h)) (fun a l' s' h' => hf a h'.1 l' s' h'.2) fun _ _ _ h' => h'

theorem keeps_handle {m : Proc Op Ans ε L α} {f : ε → Proc Op Ans ε L α} (hm : Keeps M K I m)
    (hf : ∀ e, Keeps M K I (f e)) : Keeps M K I (handle m f) := by
  intro l s h
  rw [wp_handle]
  exact wp_mono (hm l s h) (fun _ _ _ h' => h') (fun e l' s' h' => hf e l' s' h')

theorem keeps_ensure {m : Proc Op Ans ε L α} {f : Option ε → Proc Op Ans ε L Unit} (hm : Keeps M K I m)
    (hf : ∀ e, Keeps M K I (f e)) : Keeps M K I (ensure m f) := by
  intro l s h
  rw [wp_ensure]
  exact wp_mono (hm l s h) (fun _ l' s' h' => hf none l' s' h') (fun e l' s' h' => hf (some e) l' s' h')

theorem keeps_ite {c : Prop} [Decidable c] {m m' : Proc Op Ans ε L α} (hm : c → Keeps M K I m) (hm' : ¬c → Keeps M K I m') :
    Keeps M K I (if c then m else m') := by
  by_cases hc : c
  · rw [if_pos hc]
    exact hm hc
  · rw [if_neg hc]
    exact hm' hc

theorem keeps_forEach {f : α → Proc Op Ans ε L Unit} {xs : List α} (hf : ∀ x ∈ xs, Keeps M K I (f x)) :
    Keeps M K I (forEach f xs) := by
  induction xs with
  | nil => exact keeps_pure ()
  | cons x xs ih => exact keeps_bind (hf x List.mem_cons_self) fun _ => ih fun y hy => hf y (List.mem_cons_of_mem _ hy)

theorem keeps_mapEach {f : α → Proc Op Ans ε L β} {xs : List α} (hf : ∀ x ∈ xs, Keeps M K I (f x)) :
    Keeps M K I (mapEach f xs) := by
  induction xs with
  | nil => exact keeps_pure []
  | cons x xs ih =>
    refine keeps_bind (hf x List.mem_cons_self) fun y => keeps_bind (ih fun z hz => hf z (List.mem_cons_of_mem _ hz)) fun ys => ?_
    exact keeps_pure (y :: ys)

theorem keeps_inLanes {pick : Nat → Proc Op Ans ε L Nat} {steps : List κ} {step : κ → ι → Proc Op Ans ε L Unit}
    (hpick : ∀ n, Keeps M K I (pick n)) (hstep : ∀ k i, Keeps M K I (step k i)) (items : List ι) :
    Keeps M K I (inLanes pick steps step items) := by
  intro l s h
  refine wp_inLanes (fun _ => I) (fun n _ l s h => hpick n l s h) ?_ h (fun _ _ _ _ h => h) (fun _ _ _ _ h _ => h)
  intro pre lane k rest post l s _ h
  exact hstep k lane.item l s h

/-- What a procedure keeps may be used in the middle of a proof. -/
theorem Keeps.wp {m : Proc Op Ans ε L α} (hm : Keeps M K I m) {N : α → L → σ → Prop} {E : ε → L → σ → Prop} {l : L} {s : σ}
    (h : I l s) (hN : ∀ a l' s', I l' s' → N a l' s') (hE : ∀ e l' s', I l' s' → E e l' s') : Proc.wp M K m N E l s :=
  wp_mono (hm l s h) hN hE

end Proc

end Effects
