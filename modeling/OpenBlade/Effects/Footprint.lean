import Mathlib
import OpenBlade.Effects.Lanes

/-!
# Footprints

Which operations a procedure can call at all, and how it can change its local variables, whatever the answers are. A footprint is
found once, by the shape of the procedure; whatever its operations keep, the procedure then keeps, under any contract.
-/

namespace Effects

/-- A program that calls only operations of `P` and ends only with values of `Q`. -/
def Prog.Only {Op α : Type} {Ans : Op → Type} (P : Op → Prop) (Q : α → Prop) : Prog Op Ans α → Prop
  | .ret a => Q a
  | .call o k => P o ∧ ∀ r, (k r).Only P Q

/-- What every considered step of an operation of `P` keeps, keeping to the contract. -/
def Stable {σ Op C : Type} {Ans : Op → Type} (M : Machine σ Op Ans C) (K : Contract σ Op Ans) (P : Op → Prop)
    (J : σ → Prop) : Prop :=
  ∀ o, P o → ∀ s s₁ c, J s → K.rely s s₁ → K.assume (M.step s₁ o c) →
    K.guar (M.step s₁ o c) ∧ J (M.exec s₁ o c).2

namespace Prog

variable {Op α β : Type} {Ans : Op → Type} {P P' : Op → Prop} {Q Q' : α → Prop}

theorem Only.bind {Q' : β → Prop} {p : Prog Op Ans α} {f : α → Prog Op Ans β} (hp : p.Only P Q)
    (hf : ∀ a, Q a → (f a).Only P Q') : (p.bind f).Only P Q' := by
  induction p with
  | ret a => exact hf a hp
  | call o k ih => exact ⟨hp.1, fun r => ih r (hp.2 r)⟩

theorem Only.mono {p : Prog Op Ans α} (hp : p.Only P Q) (hP : ∀ o, P o → P' o) (hQ : ∀ a, Q a → Q' a) : p.Only P' Q' := by
  induction p with
  | ret a => exact hQ a hp
  | call o k ih => exact ⟨hP o hp.1, fun r => ih r (hp.2 r)⟩

/-- What the operations of a program keep, the program keeps. -/
theorem Only.wp {σ C : Type} {M : Machine σ Op Ans C} {K : Contract σ Op Ans} {J : σ → Prop} {p : Prog Op Ans α}
    (h : p.Only P Q) (hop : Stable M K P J) {s : σ} (hJ : J s) :
    p.wp M K (fun a s' => Q a ∧ J s') s := by
  induction p generalizing s with
  | ret a => exact ⟨h, hJ⟩
  | call o k ih =>
    intro s₁ hr c ha
    obtain ⟨hg, hJ'⟩ := hop o h.1 s s₁ c hJ hr ha
    exact ⟨hg, ih _ (h.2 _) hJ'⟩

/-- What every operation of a program keeps holds wherever a run of it ended or was cut. -/
theorem Only.cut {σ C : Type} {M : Machine σ Op Ans C} {J : σ → Prop} {p : Prog Op Ans α} (h : p.Only P Q)
    (hop : ∀ o, P o → ∀ s c, J s → J (M.exec s o c).2) (cs : List C) {s : σ} (hJ : J s) : J (M.run cs p s).2 := by
  induction cs generalizing p s with
  | nil => cases p <;> exact hJ
  | cons c cs ih =>
    cases p with
    | ret a => exact hJ
    | call o k => exact ih (h.2 _) (hop o h.1 s c hJ)

/-- What a program can end with at all may be added to what it ends with. -/
theorem Only.wp_and {σ C : Type} {M : Machine σ Op Ans C} {K : Contract σ Op Ans} {p : Prog Op Ans α} {Q' : α → σ → Prop}
    {s : σ} (h : p.Only P Q) (hw : p.wp M K Q' s) : p.wp M K (fun a s' => Q a ∧ Q' a s') s := by
  induction p generalizing s with
  | ret a => exact ⟨h, hw⟩
  | call o k ih =>
    intro s₁ hr c ha
    obtain ⟨hg, hk⟩ := hw s₁ hr c ha
    exact ⟨hg, ih _ (h.2 _) hk⟩

end Prog

namespace Proc

variable {σ Op C ε L ι κ α β : Type} {Ans : Op → Type} {P P' : Op → Prop} {R R' : L → L → Prop}

/-- `m` calls only operations of `P`, and changes its local variables only along `R`. -/
def Only (P : Op → Prop) (R : L → L → Prop) (m : Proc Op Ans ε L α) : Prop :=
  ∀ l, (m l).Only P fun x => R l x.2

/-- Only operations of `P`, and no assignment. -/
abbrev Reads (P : Op → Prop) (m : Proc Op Ans ε L α) : Prop := Only P Eq m

/-- Only operations of `P`, and any assignment. -/
abbrev Calls (P : Op → Prop) (m : Proc Op Ans ε L α) : Prop := Only P (fun _ _ => True) m

instance : IsPreorder L (fun _ _ => True) where
  refl _ := trivial
  trans _ _ _ _ _ := trivial

theorem Only.mono {m : Proc Op Ans ε L α} (h : Only P R m) (hP : ∀ o, P o → P' o) (hR : ∀ l l', R l l' → R' l l') :
    Only P' R' m :=
  fun l => (h l).mono hP fun x hx => hR l x.2 hx

/-- More operations. -/
theorem Only.weaken {m : Proc Op Ans ε L α} (h : Only P R m) (hP : ∀ o, P o → P' o) : Only P' R m :=
  h.mono hP fun _ _ hr => hr

/-- Forget that the local variables stay as they are. -/
theorem Only.calls {m : Proc Op Ans ε L α} (h : Only P R m) (hP : ∀ o, P o → P' o) : Calls P' m :=
  h.mono hP fun _ _ _ => trivial

/-- Footprint rule: the local variables move along `R`, and what the operations keep is kept. -/
theorem Only.keeps {M : Machine σ Op (fun o => Except ε (Ans o)) C} {K : Contract σ Op fun o => Except ε (Ans o)}
    {J : σ → Prop} {m : Proc Op Ans ε L α} (h : Only P R m) (hop : Stable M K P J) {l : L} {s : σ} (hJ : J s) :
    Proc.wp M K m (fun _ l' s' => R l l' ∧ J s') (fun _ l' s' => R l l' ∧ J s') l s := by
  refine Prog.wp_mono ((h l).wp hop hJ) ?_
  intro x s' hx
  obtain ⟨r, l'⟩ := x
  cases r <;> exact hx

/-- How a procedure can change its local variables may be added to what is proved of it. -/
theorem Only.wp_and {M : Machine σ Op (fun o => Except ε (Ans o)) C} {K : Contract σ Op fun o => Except ε (Ans o)}
    {m : Proc Op Ans ε L α} {N : α → L → σ → Prop} {E : ε → L → σ → Prop} {l : L} {s : σ} (h : Only P R m)
    (hw : Proc.wp M K m N E l s) :
    Proc.wp M K m (fun a l' s' => R l l' ∧ N a l' s') (fun e l' s' => R l l' ∧ E e l' s') l s := by
  refine Prog.wp_mono ((h l).wp_and hw) ?_
  intro x s' hx
  obtain ⟨r, l'⟩ := x
  cases r <;> exact hx

theorem only_perform [IsPreorder L R] {o : Op} (h : P o) : Only P R (perform o : Proc Op Ans ε L (Ans o)) :=
  fun l => ⟨h, fun _ => refl_of R l⟩

theorem only_assign {f : L → L} (h : ∀ l, R l (f l)) : Only P R (assign f : Proc Op Ans ε L Unit) := fun l => h l

theorem only_ite {c : Prop} [Decidable c] {m m' : Proc Op Ans ε L α} (hm : c → Only P R m) (hm' : ¬c → Only P R m') :
    Only P R (if c then m else m') := by
  by_cases hc : c
  · rw [if_pos hc]
    exact hm hc
  · rw [if_neg hc]
    exact hm' hc

variable [IsPreorder L R]

theorem only_pure (a : α) : Only P R (pure a : Proc Op Ans ε L α) := fun l => refl_of R l

theorem only_raise (e : ε) : Only P R (raise e : Proc Op Ans ε L α) := fun l => refl_of R l

theorem only_locals : Only P R (locals : Proc Op Ans ε L L) := fun l => refl_of R l

theorem only_ofExcept (x : Except ε α) : Only P R (ofExcept x : Proc Op Ans ε L α) := by
  cases x
  · exact only_raise _
  · exact only_pure _

theorem only_bind {m : Proc Op Ans ε L α} {f : α → Proc Op Ans ε L β} (hm : Only P R m) (hf : ∀ a, Only P R (f a)) :
    Only P R (m >>= f) := by
  intro l
  refine Prog.Only.bind (hm l) ?_
  intro x hx
  obtain ⟨r, l'⟩ := x
  cases r with
  | error e => exact hx
  | ok a => exact (hf a l').mono (fun _ h => h) fun y hy => trans_of R hx hy

theorem only_handle {m : Proc Op Ans ε L α} {f : ε → Proc Op Ans ε L α} (hm : Only P R m) (hf : ∀ e, Only P R (f e)) :
    Only P R (handle m f) := by
  intro l
  refine Prog.Only.bind (hm l) ?_
  intro x hx
  obtain ⟨r, l'⟩ := x
  cases r with
  | error e => exact (hf e l').mono (fun _ h => h) fun y hy => trans_of R hx hy
  | ok a => exact hx

theorem only_ensure {m : Proc Op Ans ε L α} {f : Option ε → Proc Op Ans ε L Unit} (hm : Only P R m)
    (hf : ∀ e, Only P R (f e)) : Only P R (ensure m f) := by
  intro l
  refine Prog.Only.bind (hm l) ?_
  intro x hx
  obtain ⟨r, l'⟩ := x
  refine Prog.Only.bind (hf (pending r) l') ?_
  intro y hy
  obtain ⟨r', l''⟩ := y
  cases r' <;> exact trans_of R hx hy

theorem only_forEach {f : α → Proc Op Ans ε L Unit} (hf : ∀ x, Only P R (f x)) (xs : List α) : Only P R (forEach f xs) := by
  induction xs with
  | nil => exact only_pure ()
  | cons x xs ih => exact only_bind (hf x) fun _ => ih

theorem only_mapEach {f : α → Proc Op Ans ε L β} (hf : ∀ x, Only P R (f x)) (xs : List α) : Only P R (mapEach f xs) := by
  induction xs with
  | nil => exact only_pure []
  | cons x xs ih => exact only_bind (hf x) fun y => only_bind ih fun ys => only_pure (y :: ys)

theorem only_stepNth {step : κ → ι → Proc Op Ans ε L Unit} (hstep : ∀ k i, Only P R (step k i)) (n : Nat)
    (lanes : List (Lane ι κ ε)) : Only P R (stepNth step n lanes) := by
  induction lanes generalizing n with
  | nil => exact only_pure []
  | cons lane lanes ih =>
    unfold stepNth
    split
    · refine only_bind (only_handle (only_bind (hstep _ _) fun _ => only_pure _) fun _ => only_pure _) fun _ => only_pure _
    · exact only_bind (ih _) fun _ => only_pure _
    · exact only_bind (ih _) fun _ => only_pure _

theorem only_inLanes {pick : Nat → Proc Op Ans ε L Nat} {steps : List κ} {step : κ → ι → Proc Op Ans ε L Unit}
    (hpick : ∀ n, Only P R (pick n)) (hstep : ∀ k i, Only P R (step k i)) (items : List ι) :
    Only P R (inLanes pick steps step items) := by
  have hrun : ∀ fuel (lanes : List (Lane ι κ ε)), Only P R (runLanes pick step fuel lanes) := by
    intro fuel
    induction fuel with
    | zero => exact fun lanes => only_pure lanes
    | succ fuel ih =>
      intro lanes
      refine only_ite (fun _ => only_pure _) fun _ => ?_
      exact only_bind (hpick _) fun n => only_bind (only_stepNth hstep _ _) fun lanes' => ih lanes'
  refine only_bind (hrun _ _) fun lanes => ?_
  split
  · exact only_pure ()
  · exact only_bind (hpick _) fun n => only_raise _

end Proc

/-! ### Footprints with values -/

namespace Proc

variable {Op ε L L' α β : Type} {Ans : Op → Type} {P P' : Op → Prop} {Q Q' : α → Prop}

/-- `m` calls only operations of `P`, and a value it ends with is one of `Q`. -/
def Yields (P : Op → Prop) (Q : α → Prop) (m : Proc Op Ans ε L α) : Prop :=
  ∀ l, (m l).Only P fun x => ∀ a, x.1 = .ok a → Q a

theorem Yields.mono {m : Proc Op Ans ε L α} (h : Yields P Q m) (hP : ∀ o, P o → P' o) (hQ : ∀ a, Q a → Q' a) : Yields P' Q' m :=
  fun l => (h l).mono hP fun _ hx a ha => hQ a (hx a ha)

/-- Of the value nothing is known. -/
theorem Only.yields {R : L → L → Prop} {m : Proc Op Ans ε L α} (h : Only P R m) : Yields P (fun _ => True) m :=
  fun l => (h l).mono (fun _ ho => ho) fun _ _ _ _ => trivial

/-- Forget what is known of the value. -/
theorem Yields.calls {m : Proc Op Ans ε L α} (h : Yields P Q m) : Calls P m :=
  fun l => (h l).mono (fun _ ho => ho) fun _ _ => trivial

/-- The values a procedure can end with may be added to what is proved of it. -/
theorem Yields.wp_and {σ C : Type} {M : Machine σ Op (fun o => Except ε (Ans o)) C} {K : Contract σ Op fun o => Except ε (Ans o)}
    {m : Proc Op Ans ε L α} {N : α → L → σ → Prop} {E : ε → L → σ → Prop} {l : L} {s : σ} (h : Yields P Q m) (hw : Proc.wp M K m N E l s) :
    Proc.wp M K m (fun a l' s' => Q a ∧ N a l' s') E l s := by
  refine Prog.wp_mono ((h l).wp_and hw) ?_
  intro x s' hx
  obtain ⟨r, l'⟩ := x
  cases r with
  | error e => exact hx.2
  | ok a => exact ⟨hx.1 a rfl, hx.2⟩

theorem yields_pure {a : α} (h : Q a) : Yields P Q (pure a : Proc Op Ans ε L α) := by
  rintro l _ ⟨⟩
  exact h

theorem yields_raise (e : ε) : Yields P Q (raise e : Proc Op Ans ε L α) := by
  rintro l _ ⟨⟩

theorem yields_bind {Q' : β → Prop} {m : Proc Op Ans ε L α} {f : α → Proc Op Ans ε L β} (hm : Yields P Q m)
    (hf : ∀ a, Q a → Yields P Q' (f a)) : Yields P Q' (m >>= f) := by
  intro l
  refine Prog.Only.bind (hm l) ?_
  rintro ⟨r, l'⟩ hx
  cases r with
  | error e => exact fun _ hb => nomatch hb
  | ok a => exact hf a (hx a rfl) l'

theorem yields_ite {c : Prop} [Decidable c] {m m' : Proc Op Ans ε L α} (hm : c → Yields P Q m) (hm' : ¬c → Yields P Q m') :
    Yields P Q (if c then m else m') := by
  by_cases hc : c
  · rw [if_pos hc]
    exact hm hc
  · rw [if_neg hc]
    exact hm' hc

/-- Each pass of a loop is one over an element of the list. -/
theorem calls_forEach {f : α → Proc Op Ans ε L Unit} {xs : List α} (hf : ∀ x ∈ xs, Calls P (f x)) : Calls P (forEach f xs) := by
  induction xs with
  | nil => exact only_pure ()
  | cons x xs ih =>
    exact only_bind (hf x List.mem_cons_self) fun _ => ih fun y hy => hf y (List.mem_cons_of_mem _ hy)

/-- The values a loop collects are values of its passes. -/
theorem yields_mapEach {Q : β → Prop} {f : α → Proc Op Ans ε L β} {xs : List α} (hf : ∀ x ∈ xs, Yields P Q (f x)) :
    Yields P (fun ys => ∀ y ∈ ys, Q y) (mapEach f xs) := by
  induction xs with
  | nil => exact yields_pure fun _ hy => nomatch hy
  | cons x xs ih =>
    refine yields_bind (hf x List.mem_cons_self) fun y hy => ?_
    refine yields_bind (ih fun x' hx' => hf x' (List.mem_cons_of_mem _ hx')) fun ys hys => yields_pure ?_
    intro z hz
    rcases List.mem_cons.1 hz with rfl | hz
    · exact hy
    · exact hys z hz

/-- Each value a loop collects is one of the pass over its element. -/
theorem yields_mapEach_forall₂ {R : α → β → Prop} {f : α → Proc Op Ans ε L β} {xs : List α} (hf : ∀ x ∈ xs, Yields P (R x) (f x)) :
    Yields P (fun ys => List.Forall₂ R xs ys) (mapEach f xs) := by
  induction xs with
  | nil => exact yields_pure List.Forall₂.nil
  | cons x xs ih =>
    refine yields_bind (hf x List.mem_cons_self) fun y hy => ?_
    refine yields_bind (ih fun x' hx' => hf x' (List.mem_cons_of_mem _ hx')) fun ys hys => ?_
    exact yields_pure (List.Forall₂.cons hy hys)

/-- Local variables of its own do not show in what a procedure calls. -/
theorem calls_scope {l₀ : L'} {m : Proc Op Ans ε L' α} (h : Calls P m) : Calls P (scope l₀ m : Proc Op Ans ε L α) :=
  fun _ => Prog.Only.bind (h l₀) fun _ _ => trivial

/-- Nor do they in the local variables of the caller. -/
theorem reads_scope {l₀ : L'} {m : Proc Op Ans ε L' α} (h : Calls P m) : Reads P (scope l₀ m : Proc Op Ans ε L α) :=
  fun _ => Prog.Only.bind (h l₀) fun _ _ => rfl

end Proc

end Effects
