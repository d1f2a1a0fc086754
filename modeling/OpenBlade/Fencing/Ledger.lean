import Mathlib

/-!
# Ledgers of fenced claims

A ledger is a list of claims, oldest first. A claim has an identity, the key it claims and a fencing token, and it is live for
some time. A step of a ledger, at a clock reading, may change claims without touching what identifies them and without reviving
one, and may append new claims with new identities and greater tokens on keys no live claim holds. Over runs of such steps under
a clock that never goes back, live claims exclude each other, tokens grow, and a claim that is not live never is again.
-/

namespace Fencing

variable {E I K N T : Type} [Preorder N] [Preorder T]

/-- What a ledger shows of a claim. -/
structure View (E I K N T : Type) [Preorder N] [Preorder T] where
  id : E → I
  key : E → K
  token : E → N
  live : E → T → Prop
  /-- Left alone, a claim can only end. -/
  live_anti : ∀ e t t', t ≤ t' → live e t' → live e t

namespace View

variable (V : View E I K N T)

/-- `e'` is `e`, changed at `now`: it has its identity, key and token, and it is live later only if `e` was live at `now`. -/
structure Keeps (now : T) (e e' : E) : Prop where
  id : V.id e' = V.id e
  key : V.key e' = V.key e
  token : V.token e' = V.token e
  live : ∀ t, now ≤ t → V.live e' t → V.live e now

/-- Two claims, the older first, may stand in one ledger at `now`. -/
structure Apart (now : T) (e e' : E) : Prop where
  id : V.id e ≠ V.id e'
  token : V.token e < V.token e'
  key : V.live e now → V.live e' now → V.key e ≠ V.key e'

/-- A new claim `n` may follow `e` at `now`: if `e` is live, they have different keys, whatever becomes of `n`. -/
structure Fresh (now : T) (e n : E) : Prop where
  id : V.id e ≠ V.id n
  token : V.token e < V.token n
  key : V.live e now → V.key e ≠ V.key n

/-- The claims of `new` may be appended together. -/
def Batch (new : List E) : Prop :=
  new.Pairwise fun e e' => V.id e ≠ V.id e' ∧ V.token e < V.token e' ∧ V.key e ≠ V.key e'

/-- One step of a ledger at `now`. -/
def Step (now : T) (es es' : List E) : Prop :=
  ∃ kept new, es' = kept ++ new ∧ List.Forall₂ (V.Keeps now) es kept ∧ V.Batch new ∧ ∀ e ∈ es, ∀ n ∈ new, V.Fresh now e n

/-- A ledger whose claims stand apart at `now`. -/
def Sound (now : T) (es : List E) : Prop :=
  es.Pairwise (V.Apart now)

/-- `es'`, seen at `t'`, comes from `es`, seen at `t`, by steps under a clock that never goes back. -/
inductive Run (t : T) (es : List E) : T → List E → Prop
  | refl : Run t es t es
  | wait {t₁ t₂ : T} {es₁ : List E} (h : Run t es t₁ es₁) (ht : t₁ ≤ t₂) : Run t es t₂ es₁
  | step {t₁ : T} {es₁ es₂ : List E} (h : Run t es t₁ es₁) (hs : V.Step t₁ es₁ es₂) : Run t es t₁ es₂

variable {V}

theorem Keeps.refl (now : T) (e : E) : V.Keeps now e e :=
  ⟨rfl, rfl, rfl, fun t ht h => V.live_anti e now t ht h⟩

/-- Two changes at one clock reading are one change. -/
theorem Keeps.trans {now : T} {e₁ e₂ e₃ : E} (h₁ : V.Keeps now e₁ e₂) (h₂ : V.Keeps now e₂ e₃) : V.Keeps now e₁ e₃ where
  id := h₂.id.trans h₁.id
  key := h₂.key.trans h₁.key
  token := h₂.token.trans h₁.token
  live := fun t ht h => h₁.live now le_rfl (h₂.live t ht h)

/-- A step that changes each claim by `f`. -/
theorem Step.of_map {now : T} {es : List E} {f : E → E} (h : ∀ e ∈ es, V.Keeps now e (f e)) : V.Step now es (es.map f) := by
  refine ⟨es.map f, [], (List.append_nil _).symm, ?_, List.Pairwise.nil, by simp⟩
  rw [List.forall₂_map_right_iff, List.forall₂_same]
  exact h

/-- A step that appends claims. -/
theorem Step.of_append {now : T} {es new : List E} (hb : V.Batch new) (hf : ∀ e ∈ es, ∀ n ∈ new, V.Fresh now e n) :
    V.Step now es (es ++ new) := by
  refine ⟨es, new, rfl, ?_, hb, hf⟩
  rw [List.forall₂_same]
  exact fun e _ => Keeps.refl now e

/-- A step that does nothing. -/
theorem Step.refl (now : T) (es : List E) : V.Step now es es := by
  have h : V.Step now es (es ++ []) := Step.of_append List.Pairwise.nil (by simp)
  rwa [List.append_nil] at h

/-- Changed claims stand apart as the claims they come from do. -/
theorem Apart.keeps {now : T} {e₁ e₂ e₁' e₂' : E} (h : V.Apart now e₁ e₂) (h₁ : V.Keeps now e₁ e₁')
    (h₂ : V.Keeps now e₂ e₂') : V.Apart now e₁' e₂' where
  id := by rw [h₁.id, h₂.id]; exact h.id
  token := by rw [h₁.token, h₂.token]; exact h.token
  key := fun hl hl' => by
    rw [h₁.key, h₂.key]
    exact h.key (h₁.live now le_rfl hl) (h₂.live now le_rfl hl')

/-- Time passes: claims that stand apart still do. -/
theorem Sound.wait {t t' : T} {es : List E} (h : V.Sound t es) (ht : t ≤ t') : V.Sound t' es := by
  refine List.Pairwise.imp ?_ h
  intro e e' ha
  exact ⟨ha.id, ha.token, fun hl hl' => ha.key (V.live_anti _ _ _ ht hl) (V.live_anti _ _ _ ht hl')⟩

/-- Every claim of the changed part comes from one of the old part. -/
theorem keeps_of_mem {now : T} {es kept : List E} (h : List.Forall₂ (V.Keeps now) es kept) {e' : E} (he : e' ∈ kept) :
    ∃ e ∈ es, V.Keeps now e e' := by
  induction h with
  | nil => cases he
  | cons hk _ ih =>
    rcases List.mem_cons.1 he with rfl | he
    · exact ⟨_, List.mem_cons_self, hk⟩
    · obtain ⟨e, hm, hk⟩ := ih he
      exact ⟨e, List.mem_cons_of_mem _ hm, hk⟩

/-- Every claim of the old part has its change in the changed part. -/
theorem mem_keeps {now : T} {es kept : List E} (h : List.Forall₂ (V.Keeps now) es kept) {e : E} (he : e ∈ es) :
    ∃ e' ∈ kept, V.Keeps now e e' := by
  induction h with
  | nil => cases he
  | cons hk _ ih =>
    rcases List.mem_cons.1 he with rfl | he
    · exact ⟨_, List.mem_cons_self, hk⟩
    · obtain ⟨e', hm, hk⟩ := ih he
      exact ⟨e', List.mem_cons_of_mem _ hm, hk⟩

/-- Changing claims keeps a ledger sound. -/
theorem Sound.keeps {now : T} {es kept : List E} (h : V.Sound now es) (hk : List.Forall₂ (V.Keeps now) es kept) :
    V.Sound now kept := by
  induction hk with
  | nil => exact List.Pairwise.nil
  | cons hd htl ih =>
    obtain ⟨hx, hes⟩ := List.pairwise_cons.1 h
    refine List.pairwise_cons.2 ⟨?_, ih hes⟩
    intro e' he'
    obtain ⟨e, hm, hke⟩ := keeps_of_mem htl he'
    exact (hx e hm).keeps hd hke

/-- A step keeps a ledger sound. -/
theorem Sound.step {now : T} {es es' : List E} (h : V.Sound now es) (hs : V.Step now es es') : V.Sound now es' := by
  obtain ⟨kept, new, rfl, hk, hb, hf⟩ := hs
  refine List.pairwise_append.2 ⟨h.keeps hk, ?_, ?_⟩
  · exact List.Pairwise.imp (fun ha => ⟨ha.1, ha.2.1, fun _ _ => ha.2.2⟩) hb
  · intro e' he' n hn
    obtain ⟨e, hm, hke⟩ := keeps_of_mem hk he'
    have hfresh := hf e hm n hn
    refine ⟨by rw [hke.id]; exact hfresh.id, by rw [hke.token]; exact hfresh.token, fun hl _ => ?_⟩
    rw [hke.key]
    exact hfresh.key (hke.live now le_rfl hl)

/-- In a sound ledger an identity names one claim. -/
theorem Sound.eq_of_id {now : T} {es : List E} (h : V.Sound now es) {e e' : E} (he : e ∈ es) (he' : e' ∈ es)
    (hid : V.id e' = V.id e) : e' = e := by
  induction es with
  | nil => cases he
  | cons x es ih =>
    obtain ⟨hx, hes⟩ := List.pairwise_cons.1 h
    rcases List.mem_cons.1 he with h₁ | h₁ <;> rcases List.mem_cons.1 he' with h₂ | h₂
    · rw [h₁, h₂]
    · exact absurd (h₁ ▸ hid.symm) (hx e' h₂).id
    · exact absurd (h₂ ▸ hid) (hx e h₁).id
    · exact ih hes h₁ h₂

/-- What a step makes of a claim. -/
theorem Step.keeps_of_id {now : T} {es es' : List E} (h : V.Sound now es) (hs : V.Step now es es') {e e' : E} (he : e ∈ es)
    (he' : e' ∈ es') (hid : V.id e' = V.id e) : V.Keeps now e e' := by
  obtain ⟨kept, new, rfl, hk, _, hf⟩ := hs
  rcases List.mem_append.1 he' with he' | he'
  · obtain ⟨e₀, hm, hke⟩ := keeps_of_mem hk he'
    rwa [h.eq_of_id he hm (hke.id.symm.trans hid)] at hke
  · exact absurd hid.symm (hf e he e' he').id

/-- No claim is lost in a step. -/
theorem Step.exists_id {now : T} {es es' : List E} (hs : V.Step now es es') {e : E} (he : e ∈ es) :
    ∃ e' ∈ es', V.id e' = V.id e := by
  obtain ⟨kept, new, rfl, hk, _, _⟩ := hs
  obtain ⟨e', hm, hke⟩ := mem_keeps hk he
  exact ⟨e', List.mem_append_left _ hm, hke.id⟩

namespace Run

variable {t t' : T} {es es' : List E}

/-- Runs follow one another. -/
theorem trans {t'' : T} {es'' : List E} (h : V.Run t es t' es') (h' : V.Run t' es' t'' es'') : V.Run t es t'' es'' := by
  induction h' with
  | refl => exact h
  | wait _ ht ih => exact ih.wait ht
  | step _ hs ih => exact ih.step hs

/-- Exclusion: a run from a sound ledger ends in a sound ledger. -/
theorem sound (h : V.Run t es t' es') (hs : V.Sound t es) : V.Sound t' es' := by
  induction h with
  | refl => exact hs
  | wait _ ht ih => exact ih.wait ht
  | step _ hst ih => exact ih.step hst

/-- No claim is lost in a run. -/
theorem exists_id (h : V.Run t es t' es') {e : E} (he : e ∈ es) : ∃ e' ∈ es', V.id e' = V.id e := by
  induction h with
  | refl => exact ⟨e, he, rfl⟩
  | wait _ _ ih => exact ih
  | step _ hst ih =>
    obtain ⟨e', hm, hid⟩ := ih
    obtain ⟨e'', hm', hid'⟩ := hst.exists_id hm
    exact ⟨e'', hm', hid'.trans hid⟩

/-- Fencing: a claim keeps its key and token, and once it is not live it never is again. -/
theorem fenced (h : V.Run t es t' es') (hs : V.Sound t es) {e : E} (he : e ∈ es) :
    ∀ e' ∈ es', V.id e' = V.id e → V.key e' = V.key e ∧ V.token e' = V.token e ∧ (V.live e' t' → V.live e t) := by
  induction h with
  | refl =>
    intro e' he' hid
    rw [hs.eq_of_id he he' hid]
    exact ⟨rfl, rfl, fun hl => hl⟩
  | wait _ ht ih =>
    intro e' he' hid
    obtain ⟨hk, htok, hl⟩ := ih e' he' hid
    exact ⟨hk, htok, fun hlive => hl (V.live_anti _ _ _ ht hlive)⟩
  | step hr hst ih =>
    intro e'' he'' hid
    obtain ⟨e', he', hid'⟩ := hr.exists_id he
    have hke := hst.keeps_of_id (hr.sound hs) he' he'' (hid.trans hid'.symm)
    obtain ⟨hk, htok, hl⟩ := ih e' he' hid'
    exact ⟨hke.key.trans hk, hke.token.trans htok, fun hlive => hl (hke.live _ le_rfl hlive)⟩

end Run

end View

end Fencing
