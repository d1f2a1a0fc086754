import OpenBlade.Effects.Proc

/-!
# Interleavings

A pool is a family of programs over one state. A schedule picks, one call at a time, whose turn it is and what the environment
chooses; any list is a schedule, so all interleavings are covered, finished or not. Programs are judged one by one: if every
program satisfies its guarantee as long as the others keep to its rely, and what each guarantees is what the others rely on,
then every call of every interleaving satisfies the guarantee of the program that made it.
-/

namespace Effects

variable {σ Op C ι α : Type} {Ans : Op → Type}

/-- The programs that run side by side. -/
abbrev Pool (ι Op : Type) (Ans : Op → Type) (α : Type) : Type := ι → Prog Op Ans α

namespace Pool

variable [DecidableEq ι] (M : Machine σ Op Ans C)

/-- The steps of an interleaving, each with the program that made it. A turn of a program that has ended is skipped. -/
def trace : List (ι × C) → Pool ι Op Ans α → σ → List (ι × Step σ Op Ans)
  | [], _, _ => []
  | (i, c) :: sched, p, s =>
    match p i with
    | .ret _ => trace sched p s
    | .call o k =>
      (i, M.step s o c) :: trace sched (Function.update p i (k (M.exec s o c).1)) (M.exec s o c).2

/-- The state an interleaving reaches. -/
def finalState : List (ι × C) → Pool ι Op Ans α → σ → σ
  | [], _, s => s
  | (i, c) :: sched, p, s =>
    match p i with
    | .ret _ => finalState sched p s
    | .call o k => finalState sched (Function.update p i (k (M.exec s o c).1)) (M.exec s o c).2

/-- What an interleaving leaves of the programs. -/
def finalPool : List (ι × C) → Pool ι Op Ans α → σ → Pool ι Op Ans α
  | [], p, _ => p
  | (i, c) :: sched, p, s =>
    match p i with
    | .ret _ => finalPool sched p s
    | .call o k => finalPool sched (Function.update p i (k (M.exec s o c).1)) (M.exec s o c).2

variable {M}

/-- What a trace holds are steps of the machine. -/
theorem ran_of_mem_trace {sched : List (ι × C)} {p : Pool ι Op Ans α} {s : σ} {x : ι × Step σ Op Ans} (h : x ∈ trace M sched p s) :
    ∃ s₁ o c, x.2 = M.step s₁ o c := by
  induction sched generalizing p s with
  | nil => cases h
  | cons ic sched ih =>
    obtain ⟨i, c⟩ := ic
    cases hp : p i with
    | ret a =>
      simp only [trace, hp] at h
      exact ih h
    | call o k =>
      simp only [trace, hp, List.mem_cons] at h
      rcases h with rfl | h
      · exact ⟨s, o, c, rfl⟩
      · exact ih h

end Pool

end Effects
