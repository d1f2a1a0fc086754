import OpenBlade.Effects.Footprint

/-!
# Programs within programs

A program over some operations of a larger interface is a program of that interface: each of its calls is the larger call, and is
answered as that one.
-/

namespace Effects

variable {Op Op' ε L α β : Type}

/-- A program over operations that `f` places among `Op'`. -/
def Prog.embed (A : Op' → Type) (f : Op → Op') : Prog Op (fun o => A (f o)) α → Prog Op' A α
  | .ret a => .ret a
  | .call o k => .call (f o) fun r => (k r).embed A f

/-- What a program only calls, it only calls where it is placed. -/
theorem Prog.Only.embed {A : Op' → Type} {f : Op → Op'} {P : Op → Prop} {P' : Op' → Prop} {Q : α → Prop}
    {p : Prog Op (fun o => A (f o)) α} (h : p.Only P Q) (hP : ∀ o, P o → P' (f o)) : (p.embed A f).Only P' Q := by
  induction p with
  | ret a => exact h
  | call o k ih => exact ⟨hP o h.1, fun r => ih r (h.2 r)⟩

/-- Any program calls operations only. -/
theorem Prog.only_any {A : Op → Type} (p : Prog Op A α) : p.Only (fun _ => True) fun _ => True := by
  induction p with
  | ret a => trivial
  | call o k ih => exact ⟨trivial, ih⟩

/-- What is proved of a program holds of it within another, where every placed call is answered as some call of its own machine. -/
theorem Prog.wp_embed {σ C C' : Type} {A : Op' → Type} {f : Op → Op'} {M : Machine σ Op (fun o => A (f o)) C} {M' : Machine σ Op' A C'}
    (h : ∀ s o c', ∃ c, M.exec s o c = M'.exec s (f o) c') {p : Prog Op (fun o => A (f o)) α} {Q : α → σ → Prop} {s : σ}
    (hp : p.wp M (.alone (fun _ => True) fun _ => True) Q s) : (p.embed A f).wp M' (.alone (fun _ => True) fun _ => True) Q s := by
  induction p generalizing s with
  | ret a => exact hp
  | call o k ih =>
    rintro _ rfl c' _
    obtain ⟨c, hc⟩ := h s o c'
    have hk := (hp s rfl c trivial).2
    rw [hc] at hk
    exact ⟨trivial, ih _ hk⟩

namespace Proc

/-- A procedure over operations that `f` places among `Op'`. -/
def embed (A : Op' → Type) (f : Op → Op') (m : Proc Op (fun o => A (f o)) ε L α) : Proc Op' A ε L α :=
  fun l => (m l).embed (fun o => Except ε (A o)) f

theorem Only.embed {A : Op' → Type} {f : Op → Op'} {P : Op → Prop} {P' : Op' → Prop} {R : L → L → Prop}
    {m : Proc Op (fun o => A (f o)) ε L α} (h : Only P R m) (hP : ∀ o, P o → P' (f o)) : Only P' R (Proc.embed A f m) :=
  fun l => Prog.Only.embed (h l) hP

theorem wp_embed {σ C C' : Type} {A : Op' → Type} {f : Op → Op'} {M : Machine σ Op (fun o => Except ε (A (f o))) C}
    {M' : Machine σ Op' (fun o => Except ε (A o)) C'} (h : ∀ s o c', ∃ c, M.exec s o c = M'.exec s (f o) c')
    {m : Proc Op (fun o => A (f o)) ε L α} {N : α → L → σ → Prop} {E : ε → L → σ → Prop} {l : L} {s : σ}
    (hm : Proc.wp M (.alone (fun _ => True) fun _ => True) m N E l s) :
    Proc.wp M' (.alone (fun _ => True) fun _ => True) (Proc.embed A f m) N E l s :=
  Prog.wp_embed h hm

/-- What all placed operations have, the operations of a placed procedure have. -/
theorem calls_embed (A : Op' → Type) (f : Op → Op') {P' : Op' → Prop} (hP : ∀ o, P' (f o))
    (m : Proc Op (fun o => A (f o)) ε L α) : Calls P' (Proc.embed A f m) :=
  Only.embed (fun l => (m l).only_any) fun o _ => hP o

end Proc

end Effects
