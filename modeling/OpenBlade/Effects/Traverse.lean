import Mathlib

/-!
# Traversals that may fail

A list mapped by a function that may raise: every item has a result, or there is none for the list.
-/

namespace Effects

variable {ε α β γ : Type} {f : α → Except ε β} {xs : List α} {ys : List β}

theorem bind_eq_ok {x : Except ε α} {g : α → Except ε β} {b : β} : (x >>= g) = .ok b ↔ ∃ a, x = .ok a ∧ g a = .ok b := by
  cases x with
  | error e => exact ⟨fun h => (nomatch h), fun ⟨_, h, _⟩ => (nomatch h)⟩
  | ok a => exact ⟨fun h => ⟨a, rfl, h⟩, fun ⟨_, ha, hb⟩ => Except.ok.inj ha ▸ hb⟩

/-- The results of a traversal are those of its items. -/
theorem mapM_eq_ok_iff : xs.mapM f = .ok ys ↔ List.Forall₂ (fun x y => f x = .ok y) xs ys := by
  induction xs generalizing ys with
  | nil =>
    rw [List.mapM_nil, List.forall₂_nil_left_iff]
    exact ⟨fun h => (Except.ok.inj h).symm, fun h => h ▸ rfl⟩
  | cons x xs ih =>
    rw [List.mapM_cons, bind_eq_ok, List.forall₂_cons_left_iff]
    constructor
    · rintro ⟨y, hy, h⟩
      obtain ⟨ys', hys', h⟩ := bind_eq_ok.1 h
      exact ⟨y, ys', hy, ih.1 hys', (Except.ok.inj h).symm⟩
    · rintro ⟨y, ys', hy, hys', rfl⟩
      exact ⟨y, hy, bind_eq_ok.2 ⟨ys', ih.2 hys', rfl⟩⟩

/-- A result of a traversal comes from one of its items. -/
theorem mem_of_mapM_ok (h : xs.mapM f = .ok ys) {y : β} (hy : y ∈ ys) : ∃ x ∈ xs, f x = .ok y := by
  induction mapM_eq_ok_iff.1 h with
  | nil => cases hy
  | cons hxy hrest ih =>
    rcases List.mem_cons.1 hy with rfl | hy
    · exact ⟨_, List.mem_cons_self, hxy⟩
    · obtain ⟨x', hx', hfx⟩ := ih (mapM_eq_ok_iff.2 hrest) hy
      exact ⟨x', List.mem_cons_of_mem _ hx', hfx⟩

/-- A traversal succeeds when every item does. -/
theorem exists_mapM_ok_iff : (∃ ys, xs.mapM f = .ok ys) ↔ ∀ x ∈ xs, ∃ y, f x = .ok y := by
  constructor
  · rintro ⟨ys, h⟩
    induction mapM_eq_ok_iff.1 h with
    | nil => nofun
    | cons hxy hrest ih =>
      intro x' hx'
      rcases List.mem_cons.1 hx' with rfl | hx'
      · exact ⟨_, hxy⟩
      · exact ih (mapM_eq_ok_iff.2 hrest) x' hx'
  · intro h
    induction xs with
    | nil => exact ⟨[], rfl⟩
    | cons x xs ih =>
      obtain ⟨y, hy⟩ := h x List.mem_cons_self
      obtain ⟨ys, hys⟩ := ih fun x' hx' => h x' (List.mem_cons_of_mem _ hx')
      exact ⟨y :: ys, mapM_eq_ok_iff.2 (.cons hy (mapM_eq_ok_iff.1 hys))⟩

/-- What a result keeps of its item, the traversal keeps of the list. -/
theorem map_eq_of_mapM_ok {view : β → γ} {origin : α → γ} (h : xs.mapM f = .ok ys)
    (hview : ∀ x y, f x = .ok y → view y = origin x) : ys.map view = xs.map origin := by
  induction mapM_eq_ok_iff.1 h with
  | nil => rfl
  | cons hxy _ ih =>
    rename_i x y xs ys hrest
    rw [List.map_cons, List.map_cons, hview x y hxy, ih (mapM_eq_ok_iff.2 hrest)]

/-- What every step of a loop keeps, the loop keeps. -/
theorem foldlM_keeps {σ : Type} {step : σ → α → Except ε σ} {s s' : σ} (inv : σ → Prop) (h : xs.foldlM step s = .ok s')
    (hs : inv s) (hstep : ∀ s x s', inv s → step s x = .ok s' → inv s') : inv s' := by
  induction xs generalizing s with
  | nil => exact Except.ok.inj h ▸ hs
  | cons x xs ih =>
    rw [List.foldlM_cons] at h
    obtain ⟨s₁, hs₁, h⟩ := bind_eq_ok.1 h
    exact ih h (hstep s x s₁ hs hs₁)

/-- What every step of a loop that may give up keeps, the loop keeps. -/
theorem foldlM_some_keeps {σ : Type} {step : σ → α → Option σ} {s s' : σ} (inv : σ → Prop) (h : xs.foldlM step s = some s')
    (hs : inv s) (hstep : ∀ s x s', x ∈ xs → inv s → step s x = some s' → inv s') : inv s' := by
  induction xs generalizing s with
  | nil => exact Option.some.inj h ▸ hs
  | cons x xs ih =>
    rw [List.foldlM_cons, Option.bind_eq_bind, Option.bind_eq_some_iff] at h
    obtain ⟨s₁, hs₁, h⟩ := h
    exact ih h (hstep s x s₁ List.mem_cons_self hs hs₁) fun s x s' hx => hstep s x s' (List.mem_cons_of_mem _ hx)

end Effects
