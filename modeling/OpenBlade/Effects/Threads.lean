import Mathlib
import OpenBlade.Effects.Protocol

/-!
# Threads that start threads

A system is a state and the threads that run over it. A step may start threads; they join at the end, so that a thread keeps its
place for good. Any list of turns is a schedule. Threads that each follow a protocol, and start threads that do, keep an invariant
of the turns so far, the system and what the monitors of the threads have noted. The answers a thread has to be ready for are
those the machine can give.
-/

namespace Effects

variable {σ Op C α μ : Type} {Ans : Op → Type}

/-- A state, and the threads that run over it, ended ones included. -/
structure System (σ Op : Type) (Ans : Op → Type) (α : Type) where
  state : σ
  threads : List (Prog Op Ans α)

/-- A turn: the system before it, the place of the thread whose turn it was, and its step. -/
structure Turn (σ Op : Type) (Ans : Op → Type) (α : Type) where
  before : System σ Op Ans α
  thread : Nat
  step : Step σ Op Ans

namespace System

variable (M : Machine σ Op Ans C) (forks : (o : Op) → Ans o → List (Prog Op Ans α))

/-- A turn of the thread at `i`. One that has ended, or was never started, takes none. -/
def turn (sys : System σ Op Ans α) (i : Nat) (c : C) : Option (Turn σ Op Ans α × System σ Op Ans α) :=
  match sys.threads[i]? with
  | some (.call o k) =>
    some ({ before := sys, thread := i, step := M.step sys.state o c },
      { state := (M.exec sys.state o c).2
        threads := sys.threads.set i (k (M.exec sys.state o c).1) ++ forks o (M.exec sys.state o c).1 })
  | _ => none

/-- The turns of a schedule. -/
def trace : List (Nat × C) → System σ Op Ans α → List (Turn σ Op Ans α)
  | [], _ => []
  | (i, c) :: sched, sys =>
    match sys.turn M forks i c with
    | some (x, sys') => x :: trace sched sys'
    | none => trace sched sys

/-- The system a schedule leads to. -/
def run : List (Nat × C) → System σ Op Ans α → System σ Op Ans α
  | [], sys => sys
  | (i, c) :: sched, sys =>
    match sys.turn M forks i c with
    | some (_, sys') => run sched sys'
    | none => run sched sys

variable {M forks}

end System

/-! ### Protocols -/

/-- The contract of a protocol, for the answers that are possible. -/
def Contract.protocolFor (possible : (o : Op) → Ans o → Prop) (allowed : μ → Op → Prop) : Contract μ Op Ans :=
  .alone (fun st => possible st.op st.ans) fun st => allowed st.pre st.op

/-- From the note `m`, whatever of the possible answers it is given, the program makes only calls that are allowed, and ends only
where `done` holds of its value and of what was noted. -/
def Prog.Obeys (note : μ → (o : Op) → Ans o → μ) (possible : (o : Op) → Ans o → Prop) (allowed : μ → Op → Prop)
    (done : α → μ → Prop) (p : Prog Op Ans α) (m : μ) : Prop :=
  p.wp (havoc note) (.protocolFor possible allowed) done m

section obeys

variable {note : μ → (o : Op) → Ans o → μ} {possible : (o : Op) → Ans o → Prop} {allowed : μ → Op → Prop} {done : α → μ → Prop}

/-- A call under a protocol is allowed, and each possible answer is gone on from under it. -/
theorem Prog.obeys_call {o : Op} {k : Ans o → Prog Op Ans α} {m : μ} (hans : ∀ o, Nonempty (Ans o)) :
    (Prog.call o k).Obeys note possible allowed done m ↔
      ∀ a, possible o a → allowed m o ∧ (k a).Obeys note possible allowed done (note m o a) := by
  classical
  constructor
  · intro h a ha
    have hstep := h m rfl (Function.update (fun o => (hans o).some) o a)
      (by simpa [Contract.protocolFor, Contract.alone, havoc, Machine.step] using ha)
    simpa [Obeys, havoc, Machine.step, Contract.protocolFor, Contract.alone] using hstep
  · intro h m₁ hm c hpossible
    obtain rfl : m = m₁ := hm
    exact h (c o) hpossible

/-- Call rule under a protocol, for procedures. -/
theorem Proc.wp_obeys {ε L : Type} {Ans : Op → Type} {note : μ → (o : Op) → Except ε (Ans o) → μ}
    {possible : (o : Op) → Except ε (Ans o) → Prop} {allowed : μ → Op → Prop} {o : Op} {N : Ans o → L → μ → Prop}
    {E : ε → L → μ → Prop} {l : L} {m : μ} (ha : allowed m o) (hok : ∀ a, possible o (.ok a) → N a l (note m o (.ok a)))
    (herr : ∀ e, possible o (.error e) → E e l (note m o (.error e))) :
    Proc.wp (havoc note) (.protocolFor possible allowed) (perform o : Proc Op Ans ε L (Ans o)) N E l m := by
  refine wp_call fun m₁ hr c hpossible => ?_
  obtain rfl : m = m₁ := hr
  refine ⟨ha, fun a hans => ?_, fun e hans => ?_⟩
  · have hc : c o = .ok a := hans
    have hp : possible o (c o) := hpossible
    show N a l (note m o (c o))
    rw [hc] at hp ⊢
    exact hok a hp
  · have hc : c o = .error e := hans
    have hp : possible o (c o) := hpossible
    show E e l (note m o (c o))
    rw [hc] at hp ⊢
    exact herr e hp

/-- A procedure of calls that are allowed and leave the note as it is. -/
theorem Proc.Yields.wp_obeys {ε L β : Type} {Ans : Op → Type} {note : μ → (o : Op) → Except ε (Ans o) → μ}
    {possible : (o : Op) → Except ε (Ans o) → Prop} {allowed : μ → Op → Prop} {P : Op → Prop} {Q : β → Prop} {p : Proc Op Ans ε L β}
    {m : μ} (h : Yields P Q p) (hP : ∀ o, P o → allowed m o ∧ ∀ a, note m o a = m) {N : β → L → μ → Prop} {E : ε → L → μ → Prop}
    {l : L} (hN : ∀ a l', Q a → N a l' m) (hE : ∀ e l', E e l' m) :
    Proc.wp (havoc note) (.protocolFor possible allowed) p N E l m := by
  have hstable : Stable (havoc note) (.protocolFor possible allowed) P (· = m) := by
    rintro o ho _ _ c rfl rfl _
    exact ⟨(hP o ho).1, (hP o ho).2 _⟩
  refine Prog.wp_mono ((h l).wp hstable rfl) ?_
  rintro ⟨r, l'⟩ _ ⟨hvalue, rfl⟩
  cases r with
  | error e => exact hE e l'
  | ok a => exact hN a l' (hvalue a rfl)

end obeys

namespace System

variable {M : Machine σ Op Ans C} {forks : (o : Op) → Ans o → List (Prog Op Ans α)} {note : μ → (o : Op) → Ans o → μ}
  {possible : (o : Op) → Ans o → Prop} {allowed : μ → Op → Prop} {done : α → μ → Prop} {given : (o : Op) → Ans o → List μ}

/-- Every thread obeys its protocol from what its monitor has noted. -/
def Obeying (note : μ → (o : Op) → Ans o → μ) (possible : (o : Op) → Ans o → Prop) (allowed : μ → Op → Prop)
    (done : α → μ → Prop) (threads : List (Prog Op Ans α)) (notes : List μ) : Prop :=
  List.Forall₂ (fun p m => p.Obeys note possible allowed done m) threads notes

/-- A thread obeys from the note of its monitor. -/
theorem Obeying.of_thread {threads : List (Prog Op Ans α)} {notes : List μ} (h : Obeying note possible allowed done threads notes)
    {p : Prog Op Ans α} (hp : p ∈ threads) : ∃ m ∈ notes, p.Obeys note possible allowed done m := by
  induction h with
  | nil => cases hp
  | cons hthread _ ih =>
    rcases List.mem_cons.1 hp with rfl | hp
    · exact ⟨_, List.mem_cons_self, hthread⟩
    · obtain ⟨m, hm, hobeys⟩ := ih hp
      exact ⟨m, List.mem_cons_of_mem _ hm, hobeys⟩

theorem Obeying.of_note {threads : List (Prog Op Ans α)} {notes : List μ} (h : Obeying note possible allowed done threads notes)
    {m : μ} (hm : m ∈ notes) : ∃ p ∈ threads, p.Obeys note possible allowed done m := by
  induction h with
  | nil => cases hm
  | cons hthread _ ih =>
    rcases List.mem_cons.1 hm with rfl | hm
    · exact ⟨_, List.mem_cons_self, hthread⟩
    · obtain ⟨p, hp, hobeys⟩ := ih hm
      exact ⟨p, List.mem_cons_of_mem _ hp, hobeys⟩

/-- What goes with two lists, one behind the other, splits as they do. -/
theorem forall₂_split {β γ : Type} {R : β → γ → Prop} {l₁ l₂ : List β} {l : List γ} (h : List.Forall₂ R (l₁ ++ l₂) l) :
    ∃ l₁' l₂', List.Forall₂ R l₁ l₁' ∧ List.Forall₂ R l₂ l₂' ∧ l = l₁' ++ l₂' := by
  induction l₁ generalizing l with
  | nil => exact ⟨[], l, .nil, h, rfl⟩
  | cons a l₁ ih =>
    obtain ⟨b, rest, hab, hrest, rfl⟩ := List.forall₂_cons_left_iff.1 h
    obtain ⟨l₁', l₂', h₁, h₂, rfl⟩ := ih hrest
    exact ⟨b :: l₁', l₂', .cons hab h₁, h₂, rfl⟩

/-- A turn, thread by thread: the one whose turn it is stands between the others. -/
theorem turn_eq_some {sys sys' : System σ Op Ans α} {i : Nat} {c : C} {x : Turn σ Op Ans α}
    (h : sys.turn M forks i c = some (x, sys')) : ∃ before o k after, sys.threads = before ++ .call o k :: after ∧
      before.length = i ∧ x = { before := sys, thread := i, step := M.step sys.state o c } ∧
      sys' = { state := (M.exec sys.state o c).2
               threads := before ++ k (M.exec sys.state o c).1 :: after ++ forks o (M.exec sys.state o c).1 } := by
  unfold turn at h
  split at h
  · rename_i o k hthread
    obtain ⟨rfl, rfl⟩ := Prod.mk.inj (Option.some.inj h)
    obtain ⟨hlt, hget⟩ := List.getElem?_eq_some_iff.1 hthread
    refine ⟨sys.threads.take i, o, k, sys.threads.drop (i + 1), ?_, by simp; omega, rfl, ?_⟩
    · rw [← hget, List.getElem_cons_drop, List.take_append_drop]
    · rw [List.set_eq_take_append_cons_drop, if_pos hlt]
  · cases h

/-- Protocol rule for systems: an invariant that every allowed step keeps holds whatever the schedule, and the threads that are
there then obey the protocol on. -/
theorem invariant_of_obeys {I : List (Turn σ Op Ans α) → System σ Op Ans α → List μ → Prop} (hans : ∀ o, Nonempty (Ans o))
    (hpossible : ∀ s o c, possible o (M.exec s o c).1)
    (hforks : ∀ o a, possible o a → Obeying note possible allowed done (forks o a) (given o a))
    (hstep : ∀ tr s before o k after notes m notes' c, before.length = notes.length →
      Obeying note possible allowed done (before ++ .call o k :: after) (notes ++ m :: notes') →
      I tr { state := s, threads := before ++ .call o k :: after } (notes ++ m :: notes') → allowed m o →
      I (tr ++ [{ before := { state := s, threads := before ++ .call o k :: after }, thread := before.length, step := M.step s o c }])
        { state := (M.exec s o c).2, threads := before ++ k (M.exec s o c).1 :: after ++ forks o (M.exec s o c).1 }
        (notes ++ note m o (M.exec s o c).1 :: notes' ++ given o (M.exec s o c).1))
    {sys : System σ Op Ans α} {notes : List μ} (hobeys : Obeying note possible allowed done sys.threads notes) (hI : I [] sys notes)
    (sched : List (Nat × C)) : ∃ notes', I (trace M forks sched sys) (run M forks sched sys) notes' ∧
      Obeying note possible allowed done (run M forks sched sys).threads notes' := by
  suffices hgen : ∀ (sched : List (Nat × C)) (sys : System σ Op Ans α) (notes : List μ) (tr : List (Turn σ Op Ans α)),
      Obeying note possible allowed done sys.threads notes → I tr sys notes →
      ∃ notes', I (tr ++ trace M forks sched sys) (run M forks sched sys) notes' ∧
        Obeying note possible allowed done (run M forks sched sys).threads notes' from hgen sched sys notes [] hobeys hI
  intro sched
  induction sched with
  | nil =>
    intro sys notes tr hobeys hI
    exact ⟨notes, by simpa [trace, run] using hI, hobeys⟩
  | cons ic sched ih =>
    obtain ⟨i, c⟩ := ic
    intro sys notes tr hobeys hI
    unfold trace run
    cases hturn : sys.turn M forks i c with
    | none => exact ih sys notes tr hobeys hI
    | some y =>
      obtain ⟨x, sys'⟩ := y
      obtain ⟨before, o, k, after, hthreads, hlength, rfl, rfl⟩ := turn_eq_some hturn
      obtain ⟨s, threads⟩ := sys
      obtain rfl : threads = before ++ .call o k :: after := hthreads
      subst hlength
      -- the notes split as the threads do
      obtain ⟨notes₁, rest, hbefore, hrest, rfl⟩ := forall₂_split hobeys
      obtain ⟨m, notes₂, hthread, hafter, rfl⟩ := List.forall₂_cons_left_iff.1 hrest
      have hcall := (Prog.obeys_call hans).1 hthread _ (hpossible s o c)
      have hnext : Obeying note possible allowed done
          (before ++ k (M.exec s o c).1 :: after ++ forks o (M.exec s o c).1)
          (notes₁ ++ note m o (M.exec s o c).1 :: notes₂ ++ given o (M.exec s o c).1) :=
        List.rel_append (List.rel_append hbefore (.cons hcall.2 hafter)) (hforks o _ (hpossible s o c))
      obtain ⟨notes', hI', hobeys'⟩ := ih _ _ _ hnext
        (hstep tr s before o k after notes₁ m notes₂ c hbefore.length_eq hobeys hI hcall.1)
      exact ⟨notes', by simpa using hI', hobeys'⟩

end System

end Effects
