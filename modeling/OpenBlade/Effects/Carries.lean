import OpenBlade.Effects.Footprint

/-!
# Going well and going wrong

A procedure that swallows no exception ends normally only where nothing has gone wrong. Two invariants say so: one that holds as
long as all goes well, and one that is left when something has gone wrong, and that the clean-up of an `ensure` has to keep.
-/

namespace Effects.Proc

variable {σ Op C ε L α β : Type} {Ans : Op → Type}

/-- Where all is well the procedure ends normally with all well, or raises; where something has gone wrong it keeps to what is left. -/
structure Carries (M : Machine σ Op (fun o => Except ε (Ans o)) C) (K : Contract σ Op fun o => Except ε (Ans o)) (well wrong : σ → Prop)
    (m : Proc Op Ans ε L α) : Prop where
  well : ∀ l s, well s → wp M K m (fun _ _ s' => well s') (fun _ _ s' => wrong s') l s
  wrong : ∀ l s, wrong s → wp M K m (fun _ _ s' => wrong s') (fun _ _ s' => wrong s') l s

section rules

variable {M : Machine σ Op (fun o => Except ε (Ans o)) C} {K : Contract σ Op fun o => Except ε (Ans o)} {I F : σ → Prop}

theorem carries_pure (a : α) : Carries M K I F (pure a : Proc Op Ans ε L α) := ⟨fun _ _ h => h, fun _ _ h => h⟩

theorem carries_raise (hIF : ∀ s, I s → F s) (e : ε) : Carries M K I F (raise e : Proc Op Ans ε L α) := ⟨fun _ _ h => hIF _ h, fun _ _ h => h⟩

theorem carries_ofExcept (hIF : ∀ s, I s → F s) (x : Except ε α) : Carries M K I F (ofExcept x : Proc Op Ans ε L α) := by
  cases x with
  | error e => exact carries_raise hIF e
  | ok a => exact carries_pure a

theorem carries_bind {m : Proc Op Ans ε L α} {f : α → Proc Op Ans ε L β} (hm : Carries M K I F m) (hf : ∀ a, Carries M K I F (f a)) :
    Carries M K I F (m >>= f) := by
  constructor
  · intro l s h
    rw [wp_bind]
    exact wp_mono (hm.well l s h) (fun a l' s' h' => (hf a).well l' s' h') fun _ _ _ h' => h'
  · intro l s h
    rw [wp_bind]
    exact wp_mono (hm.wrong l s h) (fun a l' s' h' => (hf a).wrong l' s' h') fun _ _ _ h' => h'

/-- The clean-up runs where all is well or where something has gone wrong. -/
theorem carries_ensure {m : Proc Op Ans ε L α} {f : Option ε → Proc Op Ans ε L Unit} (hm : Carries M K I F m)
    (hf : ∀ e, Carries M K I F (f e)) : Carries M K I F (ensure m f) := by
  constructor
  · intro l s h
    rw [wp_ensure]
    exact wp_mono (hm.well l s h) (fun _ l' s' h' => (hf none).well l' s' h') fun e l' s' h' => (hf (some e)).wrong l' s' h'
  · intro l s h
    rw [wp_ensure]
    exact wp_mono (hm.wrong l s h) (fun _ l' s' h' => (hf none).wrong l' s' h') fun e l' s' h' => (hf (some e)).wrong l' s' h'

theorem carries_ite {c : Prop} [Decidable c] {m m' : Proc Op Ans ε L α} (hm : c → Carries M K I F m) (hm' : ¬c → Carries M K I F m') :
    Carries M K I F (if c then m else m') := by
  by_cases hc : c
  · rw [if_pos hc]
    exact hm hc
  · rw [if_neg hc]
    exact hm' hc

/-- Calls that keep either invariant, whatever is answered. -/
theorem Only.carries {P : Op → Prop} {R : L → L → Prop} {m : Proc Op Ans ε L α} (hm : Only P R m) (hIF : ∀ s, I s → F s)
    (hI : Stable M K P I) (hF : Stable M K P F) : Carries M K I F m := by
  constructor
  · intro l s h
    exact wp_mono (hm.keeps hI h) (fun _ _ _ h' => h'.2) fun _ _ _ h' => hIF _ h'.2
  · intro l s h
    exact wp_mono (hm.keeps hF h) (fun _ _ _ h' => h'.2) fun _ _ _ h' => h'.2

end rules

end Effects.Proc
