import OpenBlade.Effects.Proc

/-!
# What a procedure raises

Which exceptions a procedure can end with at all, as long as its operations raise only exceptions of `B`. This is found by the shape
of the procedure, and may be added to whatever is proved of it.
-/

namespace Effects

variable {σ Op C ε L α β : Type} {Ans : Op → Type} {B : ε → Prop}

/-- As long as the operations raise only `B`, the program ends with no other exception. -/
def Prog.Raises (B : ε → Prop) : Prog Op (fun o => Except ε (Ans o)) (Except ε α × L) → Prop
  | .ret x => ∀ e, x.1 = .error e → B e
  | .call _ k => ∀ r, (∀ e, r = .error e → B e) → (k r).Raises B

theorem Prog.Raises.bind {p : Prog Op (fun o => Except ε (Ans o)) (Except ε α × L)}
    {f : Except ε α × L → Prog Op (fun o => Except ε (Ans o)) (Except ε β × L)} (hp : p.Raises B)
    (hok : ∀ a l, (f (.ok a, l)).Raises B) (herr : ∀ e l, B e → (f (.error e, l)).Raises B) : (p.bind f).Raises B := by
  induction p with
  | ret x =>
    obtain ⟨_ | a, l⟩ := x
    · exact herr _ l (hp _ rfl)
    · exact hok a l
  | call o k ih => exact fun r hr => ih r (hp r hr)

namespace Proc

/-- As long as its operations raise only `B`, so does `m`. -/
def Raises (B : ε → Prop) (m : Proc Op Ans ε L α) : Prop := ∀ l, (m l).Raises B

/-- What a procedure can raise at all may be added to what is proved of it. -/
theorem Raises.wp_and {M : Machine σ Op (fun o => Except ε (Ans o)) C} {K : Contract σ Op fun o => Except ε (Ans o)}
    {m : Proc Op Ans ε L α} {N : α → L → σ → Prop} {E : ε → L → σ → Prop} {l : L} {s : σ} (h : Raises B m)
    (hM : ∀ s o c e, (M.exec s o c).1 = .error e → B e) (hw : wp M K m N E l s) :
    wp M K m N (fun e l' s' => B e ∧ E e l' s') l s := by
  have hprog : ∀ {Q Q' : Except ε α × L → σ → Prop}, (∀ a l' s', Q (.ok a, l') s' → Q' (.ok a, l') s') →
      (∀ e l' s', B e → Q (.error e, l') s' → Q' (.error e, l') s') →
      ∀ (p : Prog Op (fun o => Except ε (Ans o)) (Except ε α × L)) (s : σ), p.Raises B → p.wp M K Q s → p.wp M K Q' s := by
    intro Q Q' hok herror p
    induction p with
    | ret x =>
      intro s hr hw
      obtain ⟨_ | a, l'⟩ := x
      · exact herror _ _ _ (hr _ rfl) hw
      · exact hok _ _ _ hw
    | call o k ih =>
      intro s hr hw s₁ hrely c ha
      obtain ⟨hg, hk⟩ := hw s₁ hrely c ha
      exact ⟨hg, ih _ _ (hr _ fun e he => hM s₁ o c e he) hk⟩
  refine hprog ?_ ?_ (m l) s (h l) hw
  · exact fun _ _ _ hn => hn
  · exact fun _ _ _ hb he => ⟨hb, he⟩

theorem raises_pure (a : α) : Raises B (pure a : Proc Op Ans ε L α) := fun _ _ h => nomatch h

theorem raises_raise {e : ε} (h : B e) : Raises B (raise e : Proc Op Ans ε L α) := fun _ _ he => Except.error.inj he ▸ h

theorem raises_locals : Raises B (locals : Proc Op Ans ε L L) := fun _ _ h => nomatch h

theorem raises_assign (f : L → L) : Raises B (assign f : Proc Op Ans ε L Unit) := fun _ _ h => nomatch h

theorem raises_perform (o : Op) : Raises B (perform o : Proc Op Ans ε L (Ans o)) := fun _ _ hr e he => hr e he

theorem raises_ofExcept {x : Except ε α} (h : ∀ e, x = .error e → B e) : Raises B (ofExcept x : Proc Op Ans ε L α) := by
  cases x with
  | error e => exact raises_raise (h e rfl)
  | ok a => exact raises_pure a

theorem raises_bind {m : Proc Op Ans ε L α} {f : α → Proc Op Ans ε L β} (hm : Raises B m) (hf : ∀ a, Raises B (f a)) :
    Raises B (m >>= f) :=
  fun l => (hm l).bind (fun a l' => hf a l') fun _ _ he _ h => Except.error.inj h ▸ he

theorem raises_handle {m : Proc Op Ans ε L α} {f : ε → Proc Op Ans ε L α} (hm : Raises B m) (hf : ∀ e, B e → Raises B (f e)) :
    Raises B (handle m f) :=
  fun l => (hm l).bind (fun _ _ _ h => nomatch h) fun e l' he => hf e he l'

theorem raises_forEach {f : α → Proc Op Ans ε L Unit} (hf : ∀ x, Raises B (f x)) (xs : List α) : Raises B (forEach f xs) := by
  induction xs with
  | nil => exact raises_pure ()
  | cons x xs ih => exact raises_bind (hf x) fun _ => ih

theorem raises_ite {c : Prop} [Decidable c] {m m' : Proc Op Ans ε L α} (hm : c → Raises B m) (hm' : ¬c → Raises B m') :
    Raises B (if c then m else m') := by
  by_cases hc : c
  · rw [if_pos hc]
    exact hm hc
  · rw [if_neg hc]
    exact hm' hc

end Proc

end Effects
