import Mathlib

/-!
# Insertion-ordered dictionaries

A dictionary as a list of pairs: a new key goes to the end, an old key keeps its place.
-/

namespace Effects

/-- A dictionary: pairs of keys and values, in the order of insertion. -/
abbrev Dict (κ α : Type) : Type := List (κ × α)

namespace Dict

variable {κ α : Type} [DecidableEq κ]

/-- `d.get(k)`. -/
def get? (d : Dict κ α) (k : κ) : Option α :=
  (d.find? fun p => p.1 = k).map Prod.snd

/-- `d[k] = a`. -/
def set (d : Dict κ α) (k : κ) (a : α) : Dict κ α :=
  if d.any fun p => p.1 = k then d.map fun p => if p.1 = k then (k, a) else p else d ++ [(k, a)]

/-- `d.pop(k, None)`. -/
def erase (d : Dict κ α) (k : κ) : Dict κ α :=
  d.filter fun p => p.1 ≠ k

/-- `d.keys()`. -/
def keys (d : Dict κ α) : List κ := d.map Prod.fst

/-- `{k: f(a) for k, a in d.items()}`. -/
def mapValues {β : Type} (f : α → β) (d : Dict κ α) : Dict κ β := d.map fun p => (p.1, f p.2)

/-- `dict(pairs)`: of two pairs with one key the later counts. -/
def ofPairs (pairs : List (κ × α)) : Dict κ α := pairs.foldl (fun d p => d.set p.1 p.2) []

/-- `list(dict.fromkeys(xs))`: each element once, in the order of first occurrence. -/
def fromKeys (xs : List κ) : List κ :=
  xs.foldl (fun ks x => if x ∈ ks then ks else ks ++ [x]) []

@[simp] theorem get?_nil (k : κ) : get? ([] : Dict κ α) k = none := rfl

theorem get?_cons (p : κ × α) (d : Dict κ α) (k : κ) : get? (p :: d) k = if p.1 = k then some p.2 else get? d k := by
  by_cases h : p.1 = k <;> simp [get?, h]

theorem get?_append (d e : Dict κ α) (k : κ) : get? (d ++ e) k = (get? d k).or (get? e k) := by
  induction d with
  | nil => simp
  | cons p d ih =>
    rw [List.cons_append, get?_cons, get?_cons, ih]
    by_cases h : p.1 = k
    · rw [if_pos h, if_pos h, Option.some_or]
    · rw [if_neg h, if_neg h]

/-- A key without a pair has no value. -/
theorem get?_eq_none {d : Dict κ α} {k : κ} : get? d k = none ↔ ∀ p ∈ d, p.1 ≠ k := by
  simp [get?]

/-- A value belongs to a pair of the dictionary. -/
theorem mem_of_get? {d : Dict κ α} {k : κ} {a : α} (h : get? d k = some a) : (k, a) ∈ d := by
  induction d with
  | nil => simp at h
  | cons p d ih =>
    rw [get?_cons] at h
    by_cases hk : p.1 = k
    · rw [if_pos hk, Option.some_inj] at h
      obtain ⟨k', a'⟩ := p
      simp only at hk h
      simp [hk, h]
    · rw [if_neg hk] at h
      exact List.mem_cons_of_mem _ (ih h)

/-- Overwriting a key in place. -/
theorem get?_map_set (d : Dict κ α) (k k' : κ) (a : α) :
    get? (d.map fun p => if p.1 = k then (k, a) else p) k' =
      if k = k' then (get? d k').map (fun _ => a) else get? d k' := by
  induction d with
  | nil => simp
  | cons p d ih =>
    rw [List.map_cons, get?_cons, get?_cons, ih]
    by_cases hp : p.1 = k
    · by_cases hk : k = k'
      · simp [hp, hk]
      · simp [hp, hk]
    · by_cases hk : k = k'
      · have hpk : p.1 ≠ k' := fun h => hp (h.trans hk.symm)
        simp [hk, hpk]
      · simp [hp, hk]

/-- What a dictionary holds after an assignment. -/
theorem get?_set (d : Dict κ α) (k k' : κ) (a : α) : get? (d.set k a) k' = if k = k' then some a else get? d k' := by
  unfold set
  by_cases hany : (d.any fun p => p.1 = k) = true
  · rw [if_pos hany, get?_map_set]
    by_cases hk : k = k'
    · rw [if_pos hk, if_pos hk]
      cases hg : get? d k' with
      | some b => rfl
      | none =>
        obtain ⟨p, hp, hpk⟩ := List.any_eq_true.1 hany
        exact absurd ((of_decide_eq_true hpk).trans hk) (get?_eq_none.1 hg p hp)
    · rw [if_neg hk, if_neg hk]
  · rw [if_neg hany, get?_append, get?_cons, get?_nil]
    by_cases hk : k = k'
    · have hnone : get? d k' = none := by
        refine get?_eq_none.2 fun p hp hpk => hany (List.any_eq_true.2 ⟨p, hp, ?_⟩)
        exact decide_eq_true (hpk.trans hk.symm)
      rw [hnone, if_pos hk]
      rfl
    · rw [if_neg hk, Option.or_none, if_neg hk]

theorem mem_of_mem_fromKeys {xs : List κ} {k : κ} (h : k ∈ fromKeys xs) : k ∈ xs := by
  suffices hkeys : ∀ (xs ks : List κ), k ∈ xs.foldl (fun ks x => if x ∈ ks then ks else ks ++ [x]) ks → k ∈ ks ∨ k ∈ xs from
    (hkeys xs [] h).resolve_left List.not_mem_nil
  intro xs
  induction xs with
  | nil => exact fun ks h => .inl h
  | cons x xs ih =>
    intro ks h
    rcases ih _ h with h | h
    · replace h : k ∈ if x ∈ ks then ks else ks ++ [x] := h
      by_cases hx : x ∈ ks
      · rw [if_pos hx] at h
        exact .inl h
      · rw [if_neg hx] at h
        rcases List.mem_append.1 h with h | h
        · exact .inl h
        · rw [List.mem_singleton.1 h]
          exact .inr List.mem_cons_self
    · exact .inr (List.mem_cons_of_mem x h)

/-- A pair after an assignment was there before, or is the one assigned. -/
theorem mem_set {d : Dict κ α} {k : κ} {a : α} {e : κ × α} (h : e ∈ d.set k a) : e ∈ d ∨ e = (k, a) := by
  unfold set at h
  split at h
  · obtain ⟨p, hp, rfl⟩ := List.mem_map.1 h
    split
    · exact .inr rfl
    · exact .inl hp
  · rcases List.mem_append.1 h with h | h
    · exact .inl h
    · exact .inr (List.mem_singleton.1 h)

/-- An assignment adds at most its key. -/
theorem keys_set (d : Dict κ α) (k : κ) (a : α) : keys (d.set k a) = if k ∈ keys d then keys d else keys d ++ [k] := by
  unfold set
  by_cases hany : (d.any fun p => p.1 = k) = true
  · have hk : k ∈ keys d := by
      obtain ⟨p, hp, hpk⟩ := List.any_eq_true.1 hany
      exact List.mem_map.2 ⟨p, hp, of_decide_eq_true hpk⟩
    rw [if_pos hany, if_pos hk]
    unfold keys
    rw [List.map_map]
    refine List.map_congr_left fun p _ => ?_
    by_cases hp : p.1 = k <;> simp [hp]
  · have hk : k ∉ keys d := by
      intro hk
      obtain ⟨p, hp, hpk⟩ := List.mem_map.1 hk
      exact hany (List.any_eq_true.2 ⟨p, hp, decide_eq_true hpk⟩)
    rw [if_neg hany, if_neg hk]
    simp [keys]

/-- An assignment keeps the keys distinct. -/
theorem nodup_keys_set {d : Dict κ α} {k : κ} {a : α} (h : (keys d).Nodup) : (keys (d.set k a)).Nodup := by
  rw [keys_set]
  by_cases hk : k ∈ keys d
  · rw [if_pos hk]
    exact h
  · rw [if_neg hk]
    refine List.nodup_append.2 ⟨h, by simp, ?_⟩
    intro x hx y hy hxy
    exact hk (List.mem_singleton.1 hy ▸ hxy ▸ hx)

/-- Where keys are distinct, a pair of the dictionary is what its key has. -/
theorem get?_of_mem {d : Dict κ α} {k : κ} {a : α} (h : (keys d).Nodup) (hm : (k, a) ∈ d) : get? d k = some a := by
  induction d with
  | nil => cases hm
  | cons p d ih =>
    have hp : p.1 ∉ keys d ∧ (keys d).Nodup := List.nodup_cons.1 h
    rw [get?_cons]
    rcases List.mem_cons.1 hm with rfl | hd
    · rw [if_pos rfl]
    · have hne : p.1 ≠ k := by
        intro hpk
        exact hp.1 (hpk ▸ List.mem_map.2 ⟨_, hd, rfl⟩)
      rw [if_neg hne]
      exact ih hp.2 hd

/-- Keys that are not assigned to keep their pairs. -/
theorem map_set_of_not_mem {d : Dict κ α} {k : κ} (a : α) (h : k ∉ keys d) :
    (d.map fun p => if p.1 = k then (k, a) else p) = d := by
  have hid : (d.map fun p => if p.1 = k then (k, a) else p) = d.map id := by
    refine List.map_congr_left fun p hp => ?_
    have hk : p.1 ≠ k := fun hk => h (hk ▸ List.mem_map_of_mem hp)
    rw [if_neg hk]
    rfl
  rw [hid, List.map_id]

/-- Assigning what a key has changes nothing. -/
theorem set_self {d : Dict κ α} {k : κ} {a : α} (hn : (keys d).Nodup) (h : get? d k = some a) : d.set k a = d := by
  have hany : (d.any fun p => p.1 = k) = true := List.any_eq_true.2 ⟨(k, a), mem_of_get? h, decide_eq_true rfl⟩
  unfold set
  rw [if_pos hany]
  have hid : (d.map fun p => if p.1 = k then (k, a) else p) = d.map id := by
    refine List.map_congr_left fun p hp => ?_
    split
    · rename_i hk
      have hp' : get? d p.1 = some p.2 := get?_of_mem hn hp
      rw [hk, h] at hp'
      rw [Option.some.inj hp', ← hk]
      rfl
    · rfl
  rw [hid, List.map_id]

/-- A sum over the values after an assignment: the old value of the key is taken off, the new one added. -/
theorem sum_set {d : Dict κ α} (hn : (keys d).Nodup) (k : κ) (a : α) (f : α → Int) :
    ((d.set k a).map fun p => f p.2).sum = (d.map fun p => f p.2).sum - ((get? d k).map f).getD 0 + f a := by
  unfold set
  by_cases hany : (d.any fun p => p.1 = k) = true
  · rw [if_pos hany]
    induction d with
    | nil => cases hany
    | cons p d ih =>
      obtain ⟨hp, hd⟩ : p.1 ∉ keys d ∧ (keys d).Nodup := List.nodup_cons.1 hn
      rw [List.map_cons, List.map_cons, List.sum_cons, List.map_cons, List.sum_cons, get?_cons]
      by_cases hk : p.1 = k
      · rw [if_pos hk, if_pos hk, map_set_of_not_mem a (hk ▸ hp)]
        simp
        omega
      · rw [if_neg hk, if_neg hk, ih hd (by simpa [hk] using hany)]
        omega
  · rw [if_neg hany]
    have hnone : get? d k = none := by
      refine get?_eq_none.2 fun p hp hk => hany (List.any_eq_true.2 ⟨p, hp, decide_eq_true hk⟩)
    rw [hnone]
    simp

/-- What a dictionary holds after a deletion. -/
theorem get?_erase (d : Dict κ α) (k k' : κ) : get? (d.erase k) k' = if k = k' then none else get? d k' := by
  induction d with
  | nil => simp [erase]
  | cons p d ih =>
    unfold erase at ih ⊢
    rw [List.filter_cons]
    by_cases hp : p.1 = k
    · rw [if_neg (by simp [hp]), ih, get?_cons]
      by_cases hk : k = k'
      · simp [hk]
      · simp [hk, hp]
    · rw [if_pos (by simp [hp]), get?_cons, get?_cons, ih]
      by_cases hk : k = k'
      · have hpk : p.1 ≠ k' := fun h => hp (h.trans hk.symm)
        simp [hk, hpk]
      · simp [hk]

/-- A key is there when it has a value. -/
theorem mem_keys_iff {d : Dict κ α} {k : κ} : k ∈ keys d ↔ (get? d k).isSome = true := by
  rw [← not_iff_not, Bool.not_eq_true, Option.isSome_eq_false_iff, Option.isNone_iff_eq_none, get?_eq_none]
  simp only [keys, List.mem_map, not_exists, not_and, ne_eq]

theorem keys_erase (d : Dict κ α) (k : κ) : keys (d.erase k) = (keys d).filter fun k' => k' ≠ k := by
  simp only [keys, erase, List.filter_map]
  rfl

/-- A deletion keeps the keys distinct. -/
theorem nodup_keys_erase {d : Dict κ α} {k : κ} (h : (keys d).Nodup) : (keys (d.erase k)).Nodup :=
  List.Nodup.sublist (List.filter_sublist.map Prod.fst) h

omit [DecidableEq κ] in
/-- A dictionary with a key for each number below `n`. -/
theorem nodup_keys_range {f : Nat → κ} (n : Nat) (a : α) (hf : ∀ i j, f i = f j → i = j) :
    (keys ((List.range n).map fun i => (f i, a))).Nodup := by
  unfold keys
  rw [List.map_map]
  exact List.Nodup.map (fun i j h => hf i j h) List.nodup_range

omit [DecidableEq κ] in
@[simp] theorem keys_mapValues {β : Type} (f : α → β) (d : Dict κ α) : keys (mapValues f d) = keys d := by
  simp [keys, mapValues, Function.comp_def]

theorem get?_mapValues {β : Type} (f : α → β) (d : Dict κ α) (k : κ) : get? (mapValues f d) k = (get? d k).map f := by
  induction d with
  | nil => rfl
  | cons p d ih =>
    unfold mapValues at ih ⊢
    rw [List.map_cons, get?_cons, get?_cons, ih]
    by_cases hp : p.1 = k <;> simp [hp]

/-- What a dictionary of pairs holds is one of them. -/
theorem mem_of_mem_ofPairs {pairs : List (κ × α)} {e : κ × α} (h : e ∈ ofPairs pairs) : e ∈ pairs := by
  suffices hfold : ∀ d : Dict κ α, e ∈ pairs.foldl (fun d p => d.set p.1 p.2) d → e ∈ d ∨ e ∈ pairs by
    rcases hfold [] h with h | h
    · cases h
    · exact h
  clear h
  induction pairs with
  | nil => exact fun _ h => .inl h
  | cons p pairs ih =>
    intro d h
    rcases ih _ h with h | h
    · rcases mem_set h with h | rfl
      · exact .inl h
      · exact .inr List.mem_cons_self
    · exact .inr (List.mem_cons_of_mem _ h)

/-- A pair under a new key goes to the end. -/
theorem set_of_not_mem {d : Dict κ α} {k : κ} (a : α) (h : k ∉ keys d) : d.set k a = d ++ [(k, a)] := by
  unfold set
  rw [if_neg]
  intro hany
  obtain ⟨p, hp, hk⟩ := List.any_eq_true.1 hany
  exact h (of_decide_eq_true hk ▸ List.mem_map_of_mem hp)

/-- The pairs of a dictionary make the dictionary. -/
theorem ofPairs_self {d : Dict κ α} (h : (keys d).Nodup) : ofPairs d = d := by
  suffices hfold : ∀ e : Dict κ α, (keys (e ++ d)).Nodup → d.foldl (fun d p => d.set p.1 p.2) e = e ++ d from hfold [] h
  clear h
  induction d with
  | nil => exact fun e _ => (List.append_nil e).symm
  | cons p d ih =>
    intro e he
    have hmove : keys (e ++ p :: d) = keys ((e ++ [p]) ++ d) := by simp [keys]
    have hp : p.1 ∉ keys e := by
      intro hk
      unfold keys at he hk
      rw [List.map_append, List.map_cons, List.nodup_append] at he
      exact he.2.2 _ hk _ List.mem_cons_self rfl
    rw [List.foldl_cons, set_of_not_mem p.2 hp, ih (e ++ [p]) (hmove ▸ he), List.append_assoc]
    rfl

theorem nodup_keys_ofPairs (pairs : List (κ × α)) : (keys (ofPairs pairs)).Nodup := by
  suffices hfold : ∀ d : Dict κ α, (keys d).Nodup → (keys (pairs.foldl (fun d p => d.set p.1 p.2) d)).Nodup from
    hfold [] List.nodup_nil
  induction pairs with
  | nil => exact fun d hd => hd
  | cons p pairs ih => exact fun d hd => ih _ (nodup_keys_set hd)

/-- Of two assignments to one key the second counts. -/
theorem set_set (d : Dict κ α) (k : κ) (a b : α) : (d.set k a).set k b = d.set k b := by
  by_cases hk : k ∈ keys d
  · have hany : (d.any fun p => p.1 = k) = true := by
      obtain ⟨p, hp, hpk⟩ := List.mem_map.1 hk
      exact List.any_eq_true.2 ⟨p, hp, decide_eq_true hpk⟩
    have hany' : ((d.set k a).any fun p => p.1 = k) = true := by
      obtain ⟨p, hp, hpk⟩ := List.mem_map.1 (show k ∈ keys (d.set k a) by rw [keys_set, if_pos hk]; exact hk)
      exact List.any_eq_true.2 ⟨p, hp, decide_eq_true hpk⟩
    rw [set, if_pos hany', set, if_pos hany, set, if_pos hany, List.map_map]
    refine List.map_congr_left fun p _ => ?_
    by_cases hp : p.1 = k <;> simp [hp]
  · rw [set_of_not_mem a hk, set_of_not_mem b hk]
    have hany : ((d ++ [(k, a)]).any fun p => p.1 = k) = true := by simp
    rw [set, if_pos hany, List.map_append, map_set_of_not_mem b hk]
    simp

/-- Assigning one key what another way of mapping the values gives it. -/
theorem set_mapValues {β : Type} {f g : α → β} {d : Dict κ α} {k : κ} {a : α} (hn : (keys d).Nodup) (h : get? d k = some a)
    (hfg : ∀ p ∈ d, p.1 ≠ k → f p.2 = g p.2) : (mapValues f d).set k (g a) = mapValues g d := by
  have hany : ((mapValues f d).any fun p => p.1 = k) = true :=
    List.any_eq_true.2 ⟨(k, f a), List.mem_map.2 ⟨(k, a), mem_of_get? h, rfl⟩, decide_eq_true rfl⟩
  rw [set, if_pos hany]
  unfold mapValues
  rw [List.map_map]
  refine List.map_congr_left fun p hp => ?_
  by_cases hk : p.1 = k
  · have hval : get? d p.1 = some p.2 := get?_of_mem hn hp
    rw [hk, h] at hval
    simp [hk, Option.some.inj hval]
  · simp [hk, hfg p hp hk]

/-- A dictionary of pairs holds something for every key of them. -/
theorem isSome_get?_ofPairs {pairs : List (κ × α)} {k : κ} (h : k ∈ pairs.map Prod.fst) : (get? (ofPairs pairs) k).isSome := by
  suffices hfold : ∀ d : Dict κ α, (get? d k).isSome ∨ k ∈ pairs.map Prod.fst →
      (get? (pairs.foldl (fun d p => d.set p.1 p.2) d) k).isSome from hfold [] (.inr h)
  clear h
  induction pairs with
  | nil =>
    rintro d (h | h)
    · exact h
    · cases h
  | cons p pairs ih =>
    intro d h
    refine ih _ ?_
    by_cases hk : p.1 = k
    · left
      rw [get?_set, if_pos hk]
      rfl
    · rw [get?_set, if_neg hk]
      refine h.imp_right fun hmem => ?_
      rcases List.mem_cons.1 hmem with heq | hmem
      · exact absurd heq.symm hk
      · exact hmem

/-- The values of the lists of a dictionary, but for those of a key. -/
theorem flatMap_erase_perm {β : Type} {d : Dict κ (List β)} (hn : (keys d).Nodup) (k : κ) :
    ((get? d k).getD [] ++ (d.erase k).flatMap Prod.snd).Perm (d.flatMap Prod.snd) := by
  induction d with
  | nil => simp [erase]
  | cons p d ih =>
    obtain ⟨hp, hd⟩ : p.1 ∉ keys d ∧ (keys d).Nodup := List.nodup_cons.1 hn
    rw [get?_cons, List.flatMap_cons]
    unfold erase at ih ⊢
    by_cases hk : p.1 = k
    · have hrest : d.filter (fun q => q.1 ≠ k) = d := by
        refine List.filter_eq_self.2 fun q hq => ?_
        have hne : q.1 ≠ k := fun he => hp (by rw [hk, ← he]; exact List.mem_map_of_mem hq)
        simpa using hne
      rw [if_pos hk, List.filter_cons_of_neg (by simpa using hk), hrest]
      exact List.Perm.refl _
    · rw [if_neg hk, List.filter_cons_of_pos (by simpa using hk), List.flatMap_cons]
      exact List.perm_append_comm_assoc _ _ _ |>.trans ((ih hd).append_left _)

/-- The values of the lists of a dictionary when a list is assigned. -/
theorem flatMap_set_perm {β : Type} {d : Dict κ (List β)} (hn : (keys d).Nodup) (k : κ) (bs : List β) :
    ((get? d k).getD [] ++ (d.set k bs).flatMap Prod.snd).Perm (bs ++ d.flatMap Prod.snd) := by
  unfold set
  by_cases hany : (d.any fun p => p.1 = k) = true
  · rw [if_pos hany]
    induction d with
    | nil => cases hany
    | cons p d ih =>
      obtain ⟨hp, hd⟩ : p.1 ∉ keys d ∧ (keys d).Nodup := List.nodup_cons.1 hn
      rw [List.map_cons, List.flatMap_cons, List.flatMap_cons, get?_cons]
      by_cases hk : p.1 = k
      · rw [if_pos hk, if_pos hk, map_set_of_not_mem bs (hk ▸ hp)]
        exact List.perm_append_comm_assoc _ _ _
      · rw [if_neg hk, if_neg hk]
        exact (List.perm_append_comm_assoc _ _ _).trans
          (((ih hd (by simpa [hk] using hany)).append_left _).trans (List.perm_append_comm_assoc _ _ _))
  · rw [if_neg hany]
    have hnone : get? d k = none := by
      refine get?_eq_none.2 fun p hp hk => hany (List.any_eq_true.2 ⟨p, hp, decide_eq_true hk⟩)
    rw [hnone, List.flatMap_append]
    simpa using List.perm_append_comm

end Dict

end Effects
