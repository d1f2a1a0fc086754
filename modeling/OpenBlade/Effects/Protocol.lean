import Mathlib
import OpenBlade.Effects.Footprint
import OpenBlade.Effects.Pool

/-!
# Protocols and histories

What a program does by its own lights, whatever the answers are: a monitor takes note of each call and its answer, and the program
follows a protocol if every call it makes is allowed by what its monitor has noted. Programs that run side by side and each
follow a protocol keep an invariant of state and monitors that every allowed call keeps. The invariant may speak of the history
of the steps so far, and so may what is asked of every step of a program that runs alone.
-/

namespace Effects

variable {σ Op C ι α μ : Type} {Ans : Op → Type}

/-! ### Histories -/

/-- Every element of a history has `P` with what came before it. -/
def Throughout {β : Type} (P : List β → β → Prop) (hist : List β) : Prop :=
  ∀ pre x post, hist = pre ++ x :: post → P pre x

section Throughout

variable {β : Type} {P : List β → β → Prop} {hist : List β}

theorem throughout_nil : Throughout P [] := by
  intro pre x post h
  simp at h

/-- A history grows by an element that has `P` with it. -/
theorem throughout_concat {x : β} (h : Throughout P hist) (hx : P hist x) : Throughout P (hist ++ [x]) := by
  intro pre y post hsplit
  induction post using List.reverseRecOn with
  | nil =>
    obtain ⟨rfl, hxy⟩ := List.append_inj' hsplit rfl
    obtain rfl : x = y := by simpa using hxy
    exact hx
  | append_singleton post z _ =>
    rw [← List.cons_append, ← List.append_assoc] at hsplit
    exact h pre y post (List.append_inj' hsplit rfl).1

theorem throughout_concat_iff {x : β} : Throughout P (hist ++ [x]) ↔ Throughout P hist ∧ P hist x := by
  constructor
  · intro h
    refine ⟨fun pre y post hsplit => h pre y (post ++ [x]) (by simp [hsplit]), h hist x [] rfl⟩
  · rintro ⟨h, hx⟩
    exact throughout_concat h hx

theorem throughout_of_take (h : ∀ i : Fin hist.length, P (hist.take i) (hist.get i)) : Throughout P hist := by
  rintro pre x post rfl
  have hx := h ⟨pre.length, by simp⟩
  simpa using hx

/-- An event that never happens again has happened once. -/
theorem Throughout.unique {Q : β → Prop} (h : Throughout (fun pre x => Q x → ∀ y ∈ pre, ¬Q y) hist) {x y : β} (hx : x ∈ hist)
    (hy : y ∈ hist) (hQx : Q x) (hQy : Q y) : x = y := by
  obtain ⟨pre, post, rfl⟩ := List.append_of_mem hx
  rcases List.mem_append.1 hy with hpre | hpost
  · exact absurd hQy (h pre x post rfl hQx y hpre)
  · rcases List.mem_cons.1 hpost with rfl | hpost
    · rfl
    · obtain ⟨mid, rest, rfl⟩ := List.append_of_mem hpost
      exact absurd hQx (h (pre ++ x :: mid) y rest (by simp) hQy x (by simp))

end Throughout

/-! ### Recorded runs -/

/-- The machine with the history of its steps. -/
def Machine.recorded (M : Machine σ Op Ans C) : Machine (σ × List (Step σ Op Ans)) Op Ans C :=
  M.observed fun hist st => hist ++ [st]

/-- The contract of a program that runs alone: every step has `G` with the steps before it. -/
def Contract.history (G : List (Step σ Op Ans) → Step σ Op Ans → Prop) : Contract (σ × List (Step σ Op Ans)) Op Ans :=
  .alone (fun _ => True) fun st => G st.pre.2 { pre := st.pre.1, op := st.op, ans := st.ans, post := st.post.1 }

/-- Run rule: every step of a run has `G` with the steps before it, and the postcondition holds at the end of the state and the
steps. -/
theorem run_of_history {M : Machine σ Op Ans C} {G : List (Step σ Op Ans) → Step σ Op Ans → Prop} {p : Prog Op Ans α}
    {Q : α → σ × List (Step σ Op Ans) → Prop} {s : σ} (h : p.wp M.recorded (.history G) Q (s, [])) (cs : List C) :
    Throughout G (M.trace cs p s) ∧ ∀ a s', M.run cs p s = (.ret a, s') → Q a (s', M.trace cs p s) := by
  suffices hgen : ∀ (cs : List C) (p : Prog Op Ans α) (s : σ) (hist : List (Step σ Op Ans)),
      p.wp M.recorded (.history G) Q (s, hist) → Throughout G hist → Throughout G (hist ++ M.trace cs p s) ∧
        ∀ a s', M.run cs p s = (.ret a, s') → Q a (s', hist ++ M.trace cs p s) from hgen cs p s [] h throughout_nil
  intro cs
  induction cs with
  | nil =>
    intro p s hist h hist_ok
    cases p with
    | ret a =>
      refine ⟨by simpa using hist_ok, ?_⟩
      rintro b s' ⟨⟩
      simpa using h
    | call o k =>
      refine ⟨by simpa [Machine.trace] using hist_ok, ?_⟩
      rintro b s' ⟨⟩
  | cons c cs ih =>
    intro p s hist h hist_ok
    cases p with
    | ret a =>
      refine ⟨by simpa using hist_ok, ?_⟩
      rintro b s' ⟨⟩
      simpa using h
    | call o k =>
      obtain ⟨hg, hk⟩ := h (s, hist) rfl c trivial
      have hnext := ih (k (M.exec s o c).1) (M.exec s o c).2 (hist ++ [M.step s o c]) hk (throughout_concat hist_ok hg)
      simpa [Machine.trace, Machine.run] using hnext

/-- What came about in a run came about in one of its steps. -/
theorem Machine.exists_step_of_run {M : Machine σ Op Ans C} {J : σ → Prop} {cs : List C} {p : Prog Op Ans α} {s : σ} (hs : ¬J s)
    (h : J (M.run cs p s).2) : ∃ st ∈ M.trace cs p s, (∃ c, st = M.step st.pre st.op c) ∧ ¬J st.pre ∧ J st.post := by
  induction cs generalizing p s with
  | nil => cases p <;> exact absurd h hs
  | cons c cs ih =>
    cases p with
    | ret a => exact absurd h hs
    | call o k =>
      by_cases hpost : J (M.exec s o c).2
      · exact ⟨M.step s o c, List.mem_cons_self, ⟨c, rfl⟩, hs, hpost⟩
      · obtain ⟨st, hst, hchange⟩ := ih hpost h
        exact ⟨st, List.mem_cons_of_mem _ hst, hchange⟩

/-- The steps of a run are calls the program can make. -/
theorem Prog.Only.trace {P : Op → Prop} {Q : α → Prop} {p : Prog Op Ans α} (h : p.Only P Q) {M : Machine σ Op Ans C} {cs : List C}
    {s : σ} : ∀ st ∈ M.trace cs p s, P st.op := by
  have hwp : p.wp M (.alone (fun _ => True) fun st => P st.op) (fun _ _ => True) s :=
    Prog.wp_mono (h.wp (J := fun _ => True) (fun o ho _ _ _ _ _ _ => ⟨ho, trivial⟩) trivial) fun _ _ _ => trivial
  exact (run_of_wp hwp cs fun _ _ => trivial).1

/-- The contract of a program that runs alone, in runs whose every step has `A` with the steps before it. -/
def Contract.supposing (A : List (Step σ Op Ans) → Step σ Op Ans → Prop) : Contract (σ × List (Step σ Op Ans)) Op Ans :=
  .alone (fun st => A st.pre.2 { pre := st.pre.1, op := st.op, ans := st.ans, post := st.post.1 }) fun _ => True

/-- Run rule: where every step of a run has `A` with the steps before it, the postcondition holds at the end. -/
theorem run_of_supposing {M : Machine σ Op Ans C} {A : List (Step σ Op Ans) → Step σ Op Ans → Prop} {p : Prog Op Ans α}
    {Q : α → σ × List (Step σ Op Ans) → Prop} {s : σ} (h : p.wp M.recorded (.supposing A) Q (s, [])) {cs : List C}
    (hA : Throughout A (M.trace cs p s)) {a : α} {s' : σ} (hrun : M.run cs p s = (.ret a, s')) : Q a (s', M.trace cs p s) := by
  suffices hgen : ∀ (cs : List C) (p : Prog Op Ans α) (s : σ) (hist : List (Step σ Op Ans)),
      p.wp M.recorded (.supposing A) Q (s, hist) → Throughout A (hist ++ M.trace cs p s) → M.run cs p s = (.ret a, s') →
        Q a (s', hist ++ M.trace cs p s) from hgen cs p s [] h hA hrun
  clear h hA hrun
  intro cs
  induction cs with
  | nil =>
    intro p s hist h _ hrun
    cases p with
    | ret b =>
      obtain ⟨⟨⟩, ⟨⟩⟩ := hrun
      simpa using h
    | call o k => cases hrun
  | cons c cs ih =>
    intro p s hist h hA hrun
    cases p with
    | ret b =>
      obtain ⟨⟨⟩, ⟨⟩⟩ := hrun
      simpa using h
    | call o k =>
      have hstep : A hist (M.step s o c) := hA hist (M.step s o c) _ rfl
      have hk := (h (s, hist) rfl c hstep).2
      have hnext := ih (k (M.exec s o c).1) (M.exec s o c).2 (hist ++ [M.step s o c]) hk
        (by simpa [Machine.trace] using hA) hrun
      simpa [Machine.trace] using hnext

/-- Call rule with a history: the step has `G` with what came before, and is added to it. -/
theorem Proc.wp_recorded {ε L : Type} {Ans : Op → Type} {M : Machine σ Op (fun o => Except ε (Ans o)) C}
    {G : List (Step σ Op fun o => Except ε (Ans o)) → Step σ Op (fun o => Except ε (Ans o)) → Prop} {o : Op}
    {N : Ans o → L → σ × List (Step σ Op fun o => Except ε (Ans o)) → Prop}
    {E : ε → L → σ × List (Step σ Op fun o => Except ε (Ans o)) → Prop} {l : L} {s : σ}
    {hist : List (Step σ Op fun o => Except ε (Ans o))}
    (h : ∀ c, G hist (M.step s o c) ∧
      (∀ a, (M.exec s o c).1 = .ok a → N a l ((M.exec s o c).2, hist ++ [M.step s o c])) ∧
      ∀ e, (M.exec s o c).1 = .error e → E e l ((M.exec s o c).2, hist ++ [M.step s o c])) :
    Proc.wp M.recorded (.history G) (perform o : Proc Op Ans ε L (Ans o)) N E l (s, hist) := by
  refine wp_call fun s₁ hr c _ => ?_
  obtain rfl : (s, hist) = s₁ := hr
  exact h c

/-- Call rule where something is supposed of every step with the steps before it. -/
theorem Proc.wp_supposing {ε L : Type} {Ans : Op → Type} {M : Machine σ Op (fun o => Except ε (Ans o)) C}
    {A : List (Step σ Op fun o => Except ε (Ans o)) → Step σ Op (fun o => Except ε (Ans o)) → Prop} {o : Op}
    {N : Ans o → L → σ × List (Step σ Op fun o => Except ε (Ans o)) → Prop}
    {E : ε → L → σ × List (Step σ Op fun o => Except ε (Ans o)) → Prop} {l : L} {s : σ}
    {hist : List (Step σ Op fun o => Except ε (Ans o))}
    (h : ∀ c, A hist (M.step s o c) →
      (∀ a, (M.exec s o c).1 = .ok a → N a l ((M.exec s o c).2, hist ++ [M.step s o c])) ∧
      ∀ e, (M.exec s o c).1 = .error e → E e l ((M.exec s o c).2, hist ++ [M.step s o c])) :
    Proc.wp M.recorded (.supposing A) (perform o : Proc Op Ans ε L (Ans o)) N E l (s, hist) := by
  refine wp_call fun s₁ hr c hA => ?_
  obtain rfl : (s, hist) = s₁ := hr
  exact ⟨trivial, h c hA⟩

/-! ### Interruptions -/

/-- The machine with others between its calls: before every call they may change the state by `env`. -/
def Machine.interrupted {C' : Type} (M : Machine σ Op Ans C) (env : C' → σ → σ) : Machine σ Op Ans (C' × C) where
  exec s o c := M.exec (env c.1 s) o c.2

/-! ### Protocols -/

/-- The machine that answers anything, and notes it. -/
def havoc (note : μ → (o : Op) → Ans o → μ) : Machine μ Op Ans (∀ o, Ans o) where
  exec m o c := (c o, note m o (c o))

/-- The contract of a protocol: what may be called is decided by what was noted. -/
def Contract.protocol (allowed : μ → Op → Prop) : Contract μ Op Ans :=
  .alone (fun _ => True) fun st => allowed st.pre st.op

/-- From the note `m`, the program makes only calls that are allowed. -/
def Prog.Follows (note : μ → (o : Op) → Ans o → μ) (allowed : μ → Op → Prop) (p : Prog Op Ans α) (m : μ) : Prop :=
  p.wp (havoc note) (.protocol allowed) (fun _ _ => True) m

/-- It makes only calls that are allowed, and ends only where what was noted is `done`. -/
def Prog.FollowsTo (note : μ → (o : Op) → Ans o → μ) (allowed : μ → Op → Prop) (done : μ → Prop) (p : Prog Op Ans α) (m : μ) :
    Prop :=
  p.wp (havoc note) (.protocol allowed) (fun _ => done) m

namespace Prog

variable {note : μ → (o : Op) → Ans o → μ} {allowed : μ → Op → Prop} {done : μ → Prop}

/-- A program that follows a protocol makes an allowed call, and follows it on, whatever the answer. -/
theorem followsTo_call {o : Op} {k : Ans o → Prog Op Ans α} {m : μ} (h : (call o k).FollowsTo note allowed done m)
    (hans : ∀ o, Nonempty (Ans o)) : allowed m o ∧ ∀ a, (k a).FollowsTo note allowed done (note m o a) := by
  classical
  have hcall : ∀ a : Ans o, allowed m o ∧ (k a).FollowsTo note allowed done (note m o a) := by
    intro a
    have hstep := h m rfl (Function.update (fun o => (hans o).some) o a) trivial
    simpa [FollowsTo, havoc, Machine.step, Contract.protocol, Contract.alone] using hstep
  exact ⟨(hcall (hans o).some).1, fun a => (hcall a).2⟩

end Prog

section rules

variable {ε L : Type} {note : μ → (o : Op) → Except ε (Ans o) → μ} {allowed : μ → Op → Prop}

/-- Call rule under a protocol: an allowed call, and what is noted of every answer. -/
theorem Proc.wp_follows {o : Op} {N : Ans o → L → μ → Prop} {E : ε → L → μ → Prop} {l : L} {m : μ} (ha : allowed m o)
    (hok : ∀ a, N a l (note m o (.ok a))) (herr : ∀ e, E e l (note m o (.error e))) :
    Proc.wp (havoc note) (.protocol allowed) (perform o : Proc Op Ans ε L (Ans o)) N E l m := by
  refine wp_call fun m₁ hr c _ => ?_
  obtain rfl : m = m₁ := hr
  refine ⟨ha, fun a hans => ?_, fun e hans => ?_⟩
  · have hc : c o = .ok a := hans
    show N a l (note m o (c o))
    rw [hc]
    exact hok a
  · have hc : c o = .error e := hans
    show E e l (note m o (c o))
    rw [hc]
    exact herr e

/-- Calls that are allowed whenever `J` holds, and after which it holds. -/
theorem stable_follows {P : Op → Prop} {J : μ → Prop} (h : ∀ o, P o → ∀ m, J m → allowed m o ∧ ∀ a, J (note m o a)) :
    Stable (havoc note) (.protocol allowed) P J := by
  intro o ho m m₁ c hJ hr _
  obtain rfl : m = m₁ := hr
  obtain ⟨ha, hn⟩ := h o ho m hJ
  exact ⟨ha, hn (c o)⟩

end rules

namespace Pool

variable [DecidableEq ι] {M : Machine σ Op Ans C} {note : μ → (o : Op) → Ans o → μ} {allowed : ι → μ → Op → Prop}
  {done : ι → μ → Prop}

/-- Protocol rule for pools: an invariant of the steps so far, the state and the notes, kept by every allowed call, holds in every
interleaving of programs that follow the protocol, and what is left of the programs follows it on. -/
theorem invariant_of_followsTo {I : List (ι × Step σ Op Ans) → σ → (ι → μ) → Prop} (hans : ∀ o, Nonempty (Ans o))
    (hstep : ∀ tr s m i o c, I tr s m → allowed i (m i) o →
      I (tr ++ [(i, M.step s o c)]) (M.exec s o c).2 (Function.update m i (note (m i) o (M.exec s o c).1)))
    {p : Pool ι Op Ans α} {m : ι → μ} (h : ∀ i, (p i).FollowsTo note (allowed i) (done i) (m i)) {s : σ} (hI : I [] s m)
    (sched : List (ι × C)) : ∃ m', I (trace M sched p s) (finalState M sched p s) m' ∧
      ∀ i, (finalPool M sched p s i).FollowsTo note (allowed i) (done i) (m' i) := by
  suffices hgen : ∀ (sched : List (ι × C)) (p : Pool ι Op Ans α) (m : ι → μ) (s : σ) (tr : List (ι × Step σ Op Ans)),
      (∀ i, (p i).FollowsTo note (allowed i) (done i) (m i)) → I tr s m →
      ∃ m', I (tr ++ trace M sched p s) (finalState M sched p s) m' ∧
        ∀ i, (finalPool M sched p s i).FollowsTo note (allowed i) (done i) (m' i) from hgen sched p m s [] h hI
  intro sched
  induction sched with
  | nil =>
    intro p m s tr h hI
    exact ⟨m, by simpa [trace, finalState] using hI, h⟩
  | cons ic sched ih =>
    obtain ⟨i, c⟩ := ic
    intro p m s tr h hI
    cases hp : p i with
    | ret a =>
      simp only [trace, finalState, finalPool, hp]
      exact ih p m s tr h hI
    | call o k =>
      simp only [trace, finalState, finalPool, hp]
      have hi : (Prog.call o k).FollowsTo note (allowed i) (done i) (m i) := hp ▸ h i
      obtain ⟨hallowed, hk⟩ := Prog.followsTo_call hi hans
      have hfollow : ∀ j, (Function.update p i (k (M.exec s o c).1) j).FollowsTo note (allowed j) (done j)
          (Function.update m i (note (m i) o (M.exec s o c).1) j) := by
        intro j
        by_cases hj : j = i
        · subst hj
          rw [Function.update_self, Function.update_self]
          exact hk _
        · rw [Function.update_of_ne hj, Function.update_of_ne hj]
          exact h j
      obtain ⟨m', hm', hleft⟩ := ih _ _ _ (tr ++ [(i, M.step s o c)]) hfollow (hstep tr s m i o c hI hallowed)
      exact ⟨m', by simpa using hm', hleft⟩

/-- Where nothing is asked of the ends. -/
theorem invariant_of_follows {I : List (ι × Step σ Op Ans) → σ → (ι → μ) → Prop} (hans : ∀ o, Nonempty (Ans o))
    (hstep : ∀ tr s m i o c, I tr s m → allowed i (m i) o →
      I (tr ++ [(i, M.step s o c)]) (M.exec s o c).2 (Function.update m i (note (m i) o (M.exec s o c).1)))
    {p : Pool ι Op Ans α} {m : ι → μ} (h : ∀ i, (p i).Follows note (allowed i) (m i)) {s : σ} (hI : I [] s m)
    (sched : List (ι × C)) : ∃ m', I (trace M sched p s) (finalState M sched p s) m' := by
  have hto : ∀ i, (p i).FollowsTo note (allowed i) (fun _ => True) (m i) := h
  obtain ⟨m', hm', -⟩ := invariant_of_followsTo hans hstep hto hI sched
  exact ⟨m', hm'⟩

end Pool

end Effects
