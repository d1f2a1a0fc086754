import Mathlib

/-!
# Values that are written over

A field that many writers set: the last value wins, the first one does, or the values are gathered. What is left does not change when
the same writers come again, and not with their order as long as they agree.
-/

namespace Effects

variable {α β : Type}

/-- What is left of a field after some writes when the last one wins; `none` writes nothing. -/
def lastOf (init : Option α) (writes : List (Option α)) : Option α := writes.foldl (fun current write => write.or current) init

/-- What is left of a field after some writes when the first one wins. -/
def firstOf (init : Option α) (writes : List (Option α)) : Option α := writes.foldl (fun current write => current.or write) init

/-- No two writes differ. -/
def OneValue (writes : List (Option α)) : Prop := ∀ a b, some a ∈ writes → some b ∈ writes → a = b

/-! ### The last write -/

theorem lastOf_eq (init : Option α) (writes : List (Option α)) : lastOf init writes = (lastOf none writes).or init := by
  induction writes generalizing init with
  | nil => rfl
  | cons write writes ih =>
    have hleft : lastOf init (write :: writes) = lastOf (write.or init) writes := rfl
    have hright : lastOf none (write :: writes) = lastOf (write.or none) writes := rfl
    rw [hleft, hright, ih (write.or init), ih (write.or none), Option.or_none, Option.or_assoc]

theorem lastOf_cons (write : Option α) (writes : List (Option α)) : lastOf none (write :: writes) = (lastOf none writes).or write := by
  have hcons : lastOf none (write :: writes) = lastOf (write.or none) writes := rfl
  rw [hcons, lastOf_eq, Option.or_none]

theorem lastOf_append (init : Option α) (writes writes' : List (Option α)) :
    lastOf init (writes ++ writes') = lastOf (lastOf init writes) writes' :=
  List.foldl_append

/-- The same writes once more leave the field as it is. -/
theorem lastOf_again (init : Option α) (writes : List (Option α)) : lastOf (lastOf init writes) writes = lastOf init writes := by
  rw [lastOf_eq (lastOf init writes), lastOf_eq init]
  cases lastOf none writes <;> rfl

/-- Writers one after the other leave what the last writes of each leave. -/
theorem lastOf_flatMap (init : Option α) (f : β → List (Option α)) (xs : List β) :
    lastOf init (xs.flatMap f) = lastOf init (xs.map fun x => lastOf none (f x)) := by
  induction xs generalizing init with
  | nil => rfl
  | cons x xs ih =>
    have hcons : lastOf init ((x :: xs).map fun x => lastOf none (f x)) =
        lastOf ((lastOf none (f x)).or init) (xs.map fun x => lastOf none (f x)) := rfl
    rw [List.flatMap_cons, lastOf_append, ih, hcons, ← lastOf_eq]

theorem mem_of_lastOf {writes : List (Option α)} {a : α} (h : lastOf none writes = some a) : some a ∈ writes := by
  induction writes with
  | nil => nomatch h
  | cons write writes ih =>
    rw [lastOf_cons] at h
    rcases Option.or_eq_some_iff.1 h with hrest | ⟨-, rfl⟩
    · exact List.mem_cons_of_mem _ (ih hrest)
    · exact List.mem_cons_self

theorem isSome_lastOf {writes : List (Option α)} {a : α} (h : some a ∈ writes) : ∃ b, lastOf none writes = some b := by
  induction writes with
  | nil => nomatch h
  | cons write writes ih =>
    rw [lastOf_cons]
    rcases List.mem_cons.1 h with rfl | hrest
    · cases lastOf none writes with
      | none => exact ⟨a, rfl⟩
      | some b => exact ⟨b, rfl⟩
    · obtain ⟨b, hb⟩ := ih hrest
      exact ⟨b, by rw [hb]; rfl⟩

/-- A field that every writer sets is what the last of them leaves. -/
theorem exists_lastOf_map {f : β → α} {xs : List β} (h : xs ≠ []) :
    ∃ a, ∀ init, lastOf init (xs.map fun x => some (f x)) = some a := by
  obtain ⟨x, hx⟩ := List.exists_mem_of_ne_nil xs h
  obtain ⟨a, ha⟩ := isSome_lastOf (List.mem_map_of_mem (f := fun x => some (f x)) hx)
  exact ⟨a, fun init => by rw [lastOf_eq, ha]; rfl⟩

/-- Writers that agree may come in any order. -/
theorem lastOf_perm {writes writes' : List (Option α)} (h : OneValue writes) (hperm : writes.Perm writes') (init : Option α) :
    lastOf init writes = lastOf init writes' := by
  have hnone : lastOf none writes = lastOf none writes' := by
    cases hlast : lastOf none writes with
    | none =>
      cases hlast' : lastOf none writes' with
      | none => rfl
      | some b =>
        obtain ⟨a, ha⟩ := isSome_lastOf (hperm.mem_iff.2 (mem_of_lastOf hlast'))
        exact absurd (hlast.symm.trans ha) (by simp)
    | some a =>
      have hmem := mem_of_lastOf hlast
      obtain ⟨b, hb⟩ := isSome_lastOf (hperm.mem_iff.1 hmem)
      rw [hb, h a b hmem (hperm.mem_iff.2 (mem_of_lastOf hb))]
  rw [lastOf_eq init, lastOf_eq init writes', hnone]

/-- The last write is what is left. -/
theorem lastOf_concat (init : Option α) (writes : List (Option α)) (a : α) : lastOf init (writes ++ [some a]) = some a := by
  rw [lastOf_append]
  rfl

/-- Writers that may come in any order agree. -/
theorem oneValue_of_lastOf {f : β → Option α} {xs : List β} {init : Option α}
    (h : ∀ ys, xs.Perm ys → lastOf init (ys.map f) = lastOf init (xs.map f)) : OneValue (xs.map f) := by
  have hlast : ∀ a, some a ∈ xs.map f → lastOf init (xs.map f) = some a := by
    intro a ha
    obtain ⟨x, hx, hfx⟩ := List.mem_map.1 ha
    obtain ⟨before, after, rfl⟩ := List.append_of_mem hx
    have hperm : (before ++ x :: after).Perm (before ++ after ++ [x]) := by
      rw [List.append_assoc]
      exact (List.perm_append_singleton x after).symm.append_left before
    rw [← h _ hperm, List.map_append, List.map_singleton, hfx, lastOf_concat]
  intro a b ha hb
  exact Option.some.inj ((hlast a ha).symm.trans (hlast b hb))

/-! ### The first write -/

/-- The first write of a list is the last of the reversed one. -/
theorem firstOf_eq (init : Option α) (writes : List (Option α)) : firstOf init writes = init.or (lastOf none writes.reverse) := by
  induction writes generalizing init with
  | nil => exact (Option.or_none).symm
  | cons write writes ih =>
    have hcons : firstOf init (write :: writes) = firstOf (init.or write) writes := rfl
    rw [hcons, ih, List.reverse_cons, lastOf_append, Option.or_assoc]
    cases write with
    | none => rfl
    | some a => rfl

theorem firstOf_append (init : Option α) (writes writes' : List (Option α)) :
    firstOf init (writes ++ writes') = firstOf (firstOf init writes) writes' :=
  List.foldl_append

/-- Writes to a field that has a value leave it. -/
theorem firstOf_some (a : α) (writes : List (Option α)) : firstOf (some a) writes = some a := by
  rw [firstOf_eq]
  rfl

theorem firstOf_again (init : Option α) (writes : List (Option α)) : firstOf (firstOf init writes) writes = firstOf init writes := by
  rw [firstOf_eq (firstOf init writes), firstOf_eq init, Option.or_assoc]
  cases lastOf none writes.reverse <;> rfl

theorem firstOf_perm {writes writes' : List (Option α)} {init : Option α} (h : init = none → OneValue writes)
    (hperm : writes.Perm writes') : firstOf init writes = firstOf init writes' := by
  cases init with
  | some a => rw [firstOf_some, firstOf_some]
  | none =>
    have hreverse : writes.reverse.Perm writes'.reverse := (writes.reverse_perm.trans hperm).trans writes'.reverse_perm.symm
    have hone : OneValue writes.reverse := fun a b ha hb => h rfl a b (List.mem_reverse.1 ha) (List.mem_reverse.1 hb)
    rw [firstOf_eq, firstOf_eq, lastOf_perm hone hreverse]

/-- Of writes that agree the first is the last. -/
theorem firstOf_eq_lastOf {writes : List (Option α)} (h : OneValue writes) : firstOf none writes = lastOf none writes := by
  rw [firstOf_eq, lastOf_perm h writes.reverse_perm.symm]
  rfl

theorem oneValue_of_firstOf {f : β → Option α} {xs : List β}
    (h : ∀ ys, xs.Perm ys → firstOf none (ys.map f) = firstOf none (xs.map f)) : OneValue (xs.map f) := by
  have hfirst : ∀ a, some a ∈ xs.map f → firstOf none (xs.map f) = some a := by
    intro a ha
    obtain ⟨x, hx, hfx⟩ := List.mem_map.1 ha
    obtain ⟨before, after, rfl⟩ := List.append_of_mem hx
    rw [← h _ List.perm_middle, List.map_cons, hfx]
    exact firstOf_some a _
  intro a b ha hb
  exact Option.some.inj ((hfirst a ha).symm.trans (hfirst b hb))

/-- Writers one after the other leave what the first writes of each leave. -/
theorem firstOf_flatMap (init : Option α) (f : β → List (Option α)) (xs : List β) :
    firstOf init (xs.flatMap f) = firstOf init (xs.map fun x => firstOf none (f x)) := by
  have happend : ∀ (init : Option α) (writes : List (Option α)), firstOf init writes = init.or (firstOf none writes) := by
    intro init writes
    rw [firstOf_eq, firstOf_eq none]
    rfl
  induction xs generalizing init with
  | nil => rfl
  | cons x xs ih =>
    have hcons : firstOf init ((x :: xs).map fun x => firstOf none (f x)) =
        firstOf (init.or (firstOf none (f x))) (xs.map fun x => firstOf none (f x)) := rfl
    rw [List.flatMap_cons, firstOf_append, ih, hcons, happend init (f x)]

/-! ### Fields of a row -/

section

variable {ρ ε γ : Type} {update : ρ → ε → ρ} {blank : ρ} {field : ρ → Option γ} {write : ε → Option γ}

/-- A row that is updated time and again, and made from a blank one where it is not there. -/
def rowAfter (update : ρ → ε → ρ) (blank : ρ) (row : Option ρ) (es : List ε) : Option ρ :=
  es.foldl (fun row e => some (update (row.getD blank) e)) row

theorem rowAfter_append (row : Option ρ) (es es' : List ε) :
    rowAfter update blank row (es ++ es') = rowAfter update blank (rowAfter update blank row es) es' :=
  List.foldl_append

variable (update blank) in
/-- The row is there after an update, and is what the last one made. -/
theorem exists_rowAfter {es : List ε} (hes : es ≠ []) (row : Option ρ) :
    ∃ before e, e ∈ es ∧ rowAfter update blank row es = some (update before e) := by
  obtain ⟨es, e, rfl⟩ := (List.eq_nil_or_concat es).resolve_left hes
  rw [List.concat_eq_append]
  exact ⟨(rowAfter update blank row es).getD blank, e, List.mem_append_right _ List.mem_cons_self, rowAfter_append row es [e]⟩

/-- What every update establishes, over a row that has it or none. -/
theorem rowAfter_keeps {P : ρ → Prop} {es : List ε} (h : ∀ e ∈ es, ∀ row : Option ρ, (∀ r, row = some r → P r) → P (update (row.getD blank) e))
    {row : Option ρ} (hrow : ∀ r, row = some r → P r) {final : ρ} (hfinal : rowAfter update blank row es = some final) : P final := by
  induction es generalizing row with
  | nil => exact hrow final hfinal
  | cons e es ih =>
    refine ih (fun e' he' => h e' (List.mem_cons_of_mem _ he')) (fun r hr => ?_) hfinal
    obtain rfl := Option.some.inj hr
    exact h e List.mem_cons_self row hrow

variable (update blank field write) in
/-- A field whose last value wins. -/
theorem lastOf_rowAfter (h : ∀ row e, field (update row e) = (write e).or (field row)) (hblank : ∀ e, (write e).or (field blank) = write e)
    (row : Option ρ) (es : List ε) : (rowAfter update blank row es).bind field = lastOf (row.bind field) (es.map write) := by
  induction es generalizing row with
  | nil => rfl
  | cons e es ih =>
    have hcons : rowAfter update blank row (e :: es) = rowAfter update blank (some (update (row.getD blank) e)) es := rfl
    have hfield : (some (update (row.getD blank) e)).bind field = (write e).or (row.bind field) := by
      cases row with
      | none => exact (h blank e).trans ((hblank e).trans Option.or_none.symm)
      | some row => exact h row e
    rw [hcons, ih, hfield]
    rfl

/-- A field whose first value wins. -/
theorem firstOf_rowAfter (h : ∀ row e, field (update row e) = (field row).or (write e)) (hblank : field blank = none)
    (row : Option ρ) (es : List ε) : (rowAfter update blank row es).bind field = firstOf (row.bind field) (es.map write) := by
  induction es generalizing row with
  | nil => rfl
  | cons e es ih =>
    have hcons : rowAfter update blank row (e :: es) = rowAfter update blank (some (update (row.getD blank) e)) es := rfl
    have hfield : (some (update (row.getD blank) e)).bind field = (row.bind field).or (write e) := by
      cases row with
      | none => exact (h blank e).trans (by rw [hblank]; rfl)
      | some row => exact h row e
    rw [hcons, ih, hfield]
    rfl

/-- A field that no update changes. -/
theorem kept_rowAfter (update : ρ → ε → ρ) (field : ρ → γ) (h : ∀ row e, field (update row e) = field row) {row : Option ρ} {es : List ε} {final : ρ}
    (hfinal : rowAfter update blank row es = some final) : field final = field (row.getD blank) := by
  induction es generalizing row with
  | nil =>
    obtain rfl : row = some final := hfinal
    rfl
  | cons e es ih =>
    have hrest : field final = field ((some (update (row.getD blank) e)).getD blank) := ih hfinal
    exact hrest.trans (h _ e)

/-- A table's row after updates of many rows: those of its own key. -/
theorem view_foldl {σ κ : Type} [DecidableEq κ] (next : σ → ε → σ) (view : σ → Option ρ) {key : ε → κ} {k : κ} {es : List ε}
    (h : ∀ s, ∀ e ∈ es, view (next s e) = if key e = k then some (update ((view s).getD blank) e) else view s) (s : σ) :
    view (es.foldl next s) = rowAfter update blank (view s) (es.filter fun e => key e = k) := by
  induction es generalizing s with
  | nil => rfl
  | cons e es ih =>
    rw [List.foldl_cons, ih fun s e' he' => h s e' (List.mem_cons_of_mem _ he'), h s e List.mem_cons_self]
    by_cases hkey : key e = k
    · rw [if_pos hkey, List.filter_cons_of_pos (by simpa using hkey)]
      rfl
    · rw [if_neg hkey, List.filter_cons_of_neg (by simpa using hkey)]

/-- What no update changes. -/
theorem kept_foldl {σ α : Type} (next : σ → ε → σ) (view : σ → α) (h : ∀ s e, view (next s e) = view s) (s : σ) (es : List ε) :
    view (es.foldl next s) = view s := by
  induction es generalizing s with
  | nil => rfl
  | cons e es ih => exact (ih (next s e)).trans (h s e)

end

/-! ### Gathering -/

variable [DecidableEq α]

/-- The values of a list that a gathered list does not have yet are put at its end. -/
def gather (xs ys : List α) : List α := ys.foldl (fun gathered y => if y ∈ gathered then gathered else gathered ++ [y]) xs

theorem gather_append (xs ys zs : List α) : gather xs (ys ++ zs) = gather (gather xs ys) zs := List.foldl_append

theorem mem_gather {xs ys : List α} {a : α} : a ∈ gather xs ys ↔ a ∈ xs ∨ a ∈ ys := by
  induction ys generalizing xs with
  | nil => simp [gather]
  | cons y ys ih =>
    have hcons : gather xs (y :: ys) = gather (if y ∈ xs then xs else xs ++ [y]) ys := rfl
    rw [hcons, ih]
    split
    · rename_i hy
      constructor
      · rintro (ha | ha)
        · exact .inl ha
        · exact .inr (List.mem_cons_of_mem _ ha)
      · rintro (ha | ha)
        · exact .inl ha
        · rcases List.mem_cons.1 ha with rfl | ha
          · exact .inl hy
          · exact .inr ha
    · simp [or_assoc]

/-- A field that gathers values. -/
theorem gather_rowAfter {ρ ε : Type} (update : ρ → ε → ρ) (field : ρ → List α) (items : ε → List α) {blank : ρ}
    (h : ∀ row e, field (update row e) = gather (field row) (items e)) {row : Option ρ} {es : List ε} {final : ρ}
    (hfinal : rowAfter update blank row es = some final) : field final = gather (field (row.getD blank)) (es.flatMap items) := by
  induction es generalizing row with
  | nil =>
    obtain rfl : row = some final := hfinal
    rfl
  | cons e es ih =>
    have hrest : field final = gather (field ((some (update (row.getD blank) e)).getD blank)) (es.flatMap items) := ih hfinal
    rw [hrest, Option.getD_some, h, List.flatMap_cons, gather_append]

theorem gather_of_subset {xs ys : List α} (h : ∀ a ∈ ys, a ∈ xs) : gather xs ys = xs := by
  induction ys with
  | nil => rfl
  | cons y ys ih =>
    have hcons : gather xs (y :: ys) = gather (if y ∈ xs then xs else xs ++ [y]) ys := rfl
    rw [hcons, if_pos (h y List.mem_cons_self), ih fun a ha => h a (List.mem_cons_of_mem _ ha)]

theorem gather_again (xs ys : List α) : gather (gather xs ys) ys = gather xs ys :=
  gather_of_subset fun _ ha => mem_gather.2 (.inr ha)

/-- What is gathered beside what was there, each value once. -/
theorem gather_eq_append (xs ys : List α) : ∃ zs, gather xs ys = xs ++ zs ∧ zs.Nodup ∧ ∀ a, a ∈ zs ↔ a ∈ ys ∧ a ∉ xs := by
  induction ys using List.reverseRecOn with
  | nil => exact ⟨[], (List.append_nil xs).symm, List.nodup_nil, by simp⟩
  | append_singleton ys y ih =>
    obtain ⟨zs, hzs, hnodup, hmem⟩ := ih
    have hlast : gather xs (ys ++ [y]) = if y ∈ xs ++ zs then xs ++ zs else xs ++ zs ++ [y] := by
      rw [gather_append, hzs]
      rfl
    by_cases hy : y ∈ xs ++ zs
    · refine ⟨zs, by rw [hlast, if_pos hy], hnodup, fun a => ?_⟩
      rw [hmem]
      constructor
      · rintro ⟨ha, hxs⟩
        exact ⟨List.mem_append_left _ ha, hxs⟩
      · rintro ⟨ha, hxs⟩
        rcases List.mem_append.1 ha with ha | ha
        · exact ⟨ha, hxs⟩
        · obtain rfl := List.mem_singleton.1 ha
          exact (hmem a).1 ((List.mem_append.1 hy).resolve_left hxs)
    · have hnew : y ∉ xs ∧ y ∉ zs := by simpa using hy
      refine ⟨zs ++ [y], by rw [hlast, if_neg hy, List.append_assoc], ?_, fun a => ?_⟩
      · exact List.nodup_append.2 ⟨hnodup, by simp, fun a ha b hb => by
          rw [List.mem_singleton.1 hb]
          exact fun heq => hnew.2 (heq ▸ ha)⟩
      · simp only [List.mem_append, List.mem_singleton, hmem]
        constructor
        · rintro (⟨ha, hxs⟩ | rfl)
          · exact ⟨.inl ha, hxs⟩
          · exact ⟨.inr rfl, hnew.1⟩
        · rintro ⟨ha | rfl, hxs⟩
          · exact .inl ⟨ha, hxs⟩
          · exact .inr rfl

/-- What is gathered does not depend on the order, up to its own. -/
theorem gather_perm (xs : List α) {ys zs : List α} (h : ys.Perm zs) : (gather xs ys).Perm (gather xs zs) := by
  obtain ⟨us, hus, hnodup, hmem⟩ := gather_eq_append xs ys
  obtain ⟨vs, hvs, hnodup', hmem'⟩ := gather_eq_append xs zs
  rw [hus, hvs]
  refine List.Perm.append_left xs ((List.perm_ext_iff_of_nodup hnodup hnodup').2 fun a => ?_)
  rw [hmem, hmem', h.mem_iff]

end Effects
