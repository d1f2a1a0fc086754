import OpenBlade.Domain.PathParts

/-!
# Paths that are resolved

`normpath` reads a text component by component, and what it makes of it is the text of a path: its root is the root of the text, and
its parts are the components that are left. `posixpath.join` puts the components of two texts one after the other.
-/

namespace OpenBlade

/-- A component that names something in the directory it stands in. -/
structure IsComponent (comp : String) : Prop where
  ne_empty : comp ≠ ""
  ne_dot : comp ≠ "."
  ne_up : comp ≠ ".."
  no_slash : '/' ∉ comp.toList

/-- The path a text is resolved to. -/
def resolvedPath (text : String) : PurePosixPath :=
  { root := slashes (leadingSlashes text.toList)
    parts := (splitSlash text).foldl (normpathStep (leadingSlashes text.toList ≠ 0)) [] }

/-- `posixpath.join(a, b)`. -/
def posixJoin (a b : String) : String :=
  if b.toList.head? = some '/' then b
  else if a = "" ∨ a.toList.getLast? = some '/' then a ++ b
  else a ++ "/" ++ b

/-! ### Components -/

theorem normpathStep_component {absolute : Bool} {comp : String} (h : IsComponent comp) (acc : List String) :
    normpathStep absolute acc comp = acc ++ [comp] := by
  rw [normpathStep, if_neg (not_or.2 ⟨h.ne_empty, h.ne_dot⟩), if_pos (.inl h.ne_up)]

theorem foldl_components {absolute : Bool} {comps : List String} (h : ∀ comp ∈ comps, IsComponent comp) (acc : List String) :
    comps.foldl (normpathStep absolute) acc = acc ++ comps := by
  induction comps generalizing acc with
  | nil => exact (List.append_nil acc).symm
  | cons comp comps ih =>
    rw [List.foldl_cons, normpathStep_component (h comp List.mem_cons_self), ih fun c hc => h c (List.mem_cons_of_mem _ hc),
      List.append_assoc, List.singleton_append]

/-- Components that are empty or "." are passed over. -/
theorem foldl_filter_normpathStep (absolute : Bool) (comps acc : List String) :
    (comps.filter fun comp => comp ≠ "" ∧ comp ≠ ".").foldl (normpathStep absolute) acc = comps.foldl (normpathStep absolute) acc := by
  induction comps generalizing acc with
  | nil => rfl
  | cons comp comps ih =>
    by_cases hcomp : comp = "" ∨ comp = "."
    · have hstep : normpathStep absolute acc comp = acc := if_pos hcomp
      rw [List.filter_cons_of_neg (by simpa [Classical.or_iff_not_imp_left] using hcomp), List.foldl_cons, hstep, ih]
    · rw [List.filter_cons_of_pos (by simpa using hcomp), List.foldl_cons, List.foldl_cons, ih]

theorem resolvedPath_root (text : String) : (resolvedPath text).root = (PurePosixPath.ofString text).root := rfl

/-- A text is resolved by the parts of its path. -/
theorem resolvedPath_parts (text : String) : (resolvedPath text).parts =
    (PurePosixPath.ofString text).parts.foldl (normpathStep ((PurePosixPath.ofString text).root ≠ "")) [] := by
  have habsolute : decide (leadingSlashes text.toList ≠ 0) = decide ((PurePosixPath.ofString text).root ≠ "") :=
    decide_eq_decide.2 (not_congr (slashes_eq_empty_iff _).symm)
  show (splitSlash text).foldl (normpathStep (decide (leadingSlashes text.toList ≠ 0))) [] = _
  rw [habsolute]
  exact (foldl_filter_normpathStep _ _ _).symm

theorem splitSlash_no_slash {text comp : String} (h : comp ∈ splitSlash text) : '/' ∉ comp.toList := by
  obtain ⟨chars, hchars, rfl⟩ := List.mem_map.1 h
  rw [String.toList_ofList]
  exact not_mem_of_mem_splitOn hchars

/-- Whatever is kept of components without slashes is made of letters, is not "." and has no slash. -/
theorem isPart_foldl {absolute : Bool} {comps acc : List String} (hacc : ∀ comp ∈ acc, IsPart comp.toList ∧ '/' ∉ comp.toList)
    (hcomps : ∀ comp ∈ comps, '/' ∉ comp.toList) :
    ∀ comp ∈ comps.foldl (normpathStep absolute) acc, IsPart comp.toList ∧ '/' ∉ comp.toList := by
  induction comps generalizing acc with
  | nil => exact hacc
  | cons first comps ih =>
    refine ih (fun comp hcomp => ?_) fun comp hcomp => hcomps comp (List.mem_cons_of_mem _ hcomp)
    unfold normpathStep at hcomp
    split at hcomp
    · exact hacc comp hcomp
    rename_i hfirst
    split at hcomp
    · rcases List.mem_append.1 hcomp with hcomp | hcomp
      · exact hacc comp hcomp
      · rw [List.mem_singleton.1 hcomp]
        refine ⟨⟨fun h => hfirst (.inl ?_), fun h => hfirst (.inr ?_)⟩, hcomps first List.mem_cons_self⟩
        · exact String.toList_inj.1 h
        · exact String.toList_inj.1 h
    · exact hacc comp ((List.dropLast_sublist acc).subset hcomp)

/-- Nothing is above the root: an absolute text is resolved to names. -/
theorem isComponent_foldl {comps acc : List String} (hacc : ∀ comp ∈ acc, IsComponent comp)
    (hcomps : ∀ comp ∈ comps, '/' ∉ comp.toList) : ∀ comp ∈ comps.foldl (normpathStep true) acc, IsComponent comp := by
  induction comps generalizing acc with
  | nil => exact hacc
  | cons first comps ih =>
    refine ih (fun comp hcomp => ?_) fun comp hcomp => hcomps comp (List.mem_cons_of_mem _ hcomp)
    unfold normpathStep at hcomp
    split at hcomp
    · exact hacc comp hcomp
    rename_i hfirst
    obtain ⟨hempty, hdot⟩ := not_or.1 hfirst
    split at hcomp
    · rename_i hkept
      rcases List.mem_append.1 hcomp with hcomp | hcomp
      · exact hacc comp hcomp
      · have hup : first ≠ ".." := by
          rcases hkept with h | ⟨h, -⟩ | h
          · exact h
          · cases h
          · exact absurd rfl (hacc _ (List.mem_of_getLast? h)).ne_up
        rw [List.mem_singleton.1 hcomp]
        exact ⟨hempty, hdot, hup, hcomps first List.mem_cons_self⟩
    · exact hacc comp ((List.dropLast_sublist acc).subset hcomp)

theorem isComponent_resolvedPath {text : String} (h : text.toList.head? = some '/') :
    ∀ comp ∈ (resolvedPath text).parts, IsComponent comp := by
  have habsolute : leadingSlashes text.toList ≠ 0 := fun h0 => (leadingSlashes_eq_zero_iff _).1 h0 h
  have hparts : (resolvedPath text).parts = (splitSlash text).foldl (normpathStep true) [] := by
    show (splitSlash text).foldl (normpathStep (decide (leadingSlashes text.toList ≠ 0))) [] = _
    rw [decide_eq_true habsolute]
  rw [hparts]
  exact isComponent_foldl (fun _ h => absurd h List.not_mem_nil) fun _ h => splitSlash_no_slash h

/-! ### The text of a resolved path -/

theorem wellFormed_resolvedPath (text : String) : (resolvedPath text).WellFormed := by
  refine ⟨⟨_, leadingSlashes_le _, rfl⟩, (resolvedPath text).parts.map String.toList, ?_, fun part hpart => ?_⟩
  · simp [Function.comp_def]
  · obtain ⟨comp, hcomp, rfl⟩ := List.mem_map.1 hpart
    exact isPart_foldl (fun _ h => absurd h List.not_mem_nil) (fun _ h => splitSlash_no_slash h) comp hcomp

/-- `normpath` gives the text of the path it resolves to. -/
theorem normpath_eq (text : String) : normpath text = (resolvedPath text).toString := by
  have hparts : ∀ comp ∈ (resolvedPath text).parts, comp ≠ "" := fun comp hcomp h =>
    (isPart_foldl (fun _ h => absurd h List.not_mem_nil) (fun _ h => splitSlash_no_slash h) comp hcomp).1.1 (String.toList_inj.2 h)
  have hempty : slashes (leadingSlashes text.toList) ++ "/".intercalate (resolvedPath text).parts = "" ↔
      (resolvedPath text).root = "" ∧ (resolvedPath text).parts = [] := by
    rw [String.append_eq_empty_iff]
    refine and_congr_right fun _ => ⟨fun h => ?_, fun h => by rw [h]; rfl⟩
    cases hcomps : (resolvedPath text).parts with
    | nil => rfl
    | cons comp comps =>
      rw [hcomps] at h
      refine absurd ?_ (hparts comp (hcomps ▸ List.mem_cons_self))
      cases comps with
      | nil => simpa using h
      | cons next comps => simp [String.intercalate_cons_cons] at h
  unfold normpath PurePosixPath.toString
  exact ite_congr (propext hempty) (fun _ => rfl) fun _ => rfl

theorem ofString_normpath (text : String) : PurePosixPath.ofString (normpath text) = resolvedPath text := by
  rw [normpath_eq]
  exact ofString_toString (wellFormed_resolvedPath text)

theorem normpath_inj {a b : String} : normpath a = normpath b ↔ resolvedPath a = resolvedPath b := by
  constructor
  · intro h
    rw [← ofString_normpath, ← ofString_normpath, h]
  · intro h
    rw [normpath_eq, normpath_eq, h]

theorem toList_slashes_append {n : Nat} (hn : n ≠ 0) (text : String) : (slashes n ++ text).toList.head? = some '/' := by
  obtain ⟨m, rfl⟩ := Nat.exists_eq_succ_of_ne_zero hn
  simp [slashes, List.replicate_succ]

theorem head_normpath {text : String} (h : text.toList.head? = some '/') : (normpath text).toList.head? = some '/' := by
  have habsolute : leadingSlashes text.toList ≠ 0 := fun h0 => (leadingSlashes_eq_zero_iff _).1 h0 h
  rw [normpath_eq, PurePosixPath.toString, if_neg]
  · exact toList_slashes_append habsolute _
  · exact fun hroot => habsolute ((slashes_eq_empty_iff _).1 hroot.1)

/-- An absolute text that is resolved is resolved once for all. -/
theorem resolvedPath_normpath {text : String} (h : text.toList.head? = some '/') : resolvedPath (normpath text) = resolvedPath text := by
  have hread := ofString_normpath text
  have hroot : (resolvedPath (normpath text)).root = (resolvedPath text).root := by rw [resolvedPath_root (normpath text), hread]
  have habsolute : leadingSlashes (normpath text).toList ≠ 0 := fun h0 => (leadingSlashes_eq_zero_iff _).1 h0 (head_normpath h)
  have hparts : (resolvedPath (normpath text)).parts = (resolvedPath text).parts := by
    rw [resolvedPath_parts, hread, foldl_components (isComponent_resolvedPath h), List.nil_append]
  generalize resolvedPath (normpath text) = path at hroot hparts
  generalize resolvedPath text = path' at hroot hparts
  cases path
  cases path'
  simp_all

theorem normpath_normpath {text : String} (h : text.toList.head? = some '/') : normpath (normpath text) = normpath text :=
  normpath_inj.2 (resolvedPath_normpath h)

/-! ### Joining -/

/-- What follows a text that is no slash, or a slash after a letter, leaves its root as it is. -/
theorem leadingSlashes_append {a b : List Char} (h : b.head? ≠ some '/') : leadingSlashes (a ++ b) = leadingSlashes a := by
  match a with
  | [] => exact (leadingSlashes_eq_zero_iff b).2 h
  | [c] => 
    cases b with
    | nil => rfl
    | cons d b =>
      have hd : d ≠ '/' := fun heq => h (by rw [heq]; rfl)
      by_cases hc : c = '/' <;> simp [leadingSlashes, hc, hd]
  | [c, d] =>
    cases b with
    | nil => rfl
    | cons e b =>
      have he : e ≠ '/' := fun heq => h (by rw [heq]; rfl)
      by_cases hc : c = '/' <;> by_cases hd : d = '/' <;> simp [leadingSlashes, hc, hd, he]
  | c :: d :: e :: a =>
    by_cases hc : c = '/' <;> by_cases hd : d = '/' <;> by_cases he : e = '/' <;> simp [leadingSlashes, hc, hd, he]

theorem leadingSlashes_append_slash {a b : List Char} (hne : a ≠ []) (hlast : a.getLast? ≠ some '/') :
    leadingSlashes (a ++ '/' :: b) = leadingSlashes a := by
  match a with
  | [] => exact absurd rfl hne
  | [c] =>
    have hc : c ≠ '/' := fun heq => hlast (by rw [heq]; rfl)
    simp [leadingSlashes, hc]
  | [c, d] =>
    have hd : d ≠ '/' := fun heq => hlast (by rw [heq]; rfl)
    by_cases hc : c = '/' <;> simp [leadingSlashes, hc, hd]
  | c :: d :: e :: a =>
    by_cases hc : c = '/' <;> by_cases hd : d = '/' <;> by_cases he : e = '/' <;> simp [leadingSlashes, hc, hd, he]

theorem ofString_eq (text : String) : PurePosixPath.ofString text =
    { root := slashes (leadingSlashes text.toList), parts := (partsOf text.toList).map String.ofList } := by
  rw [← parts_ofString]
  rfl

theorem ofString_posixJoin (a b : String) : PurePosixPath.ofString (posixJoin a b) = (PurePosixPath.ofString a).join (.ofString b) := by
  unfold posixJoin PurePosixPath.join
  by_cases hhead : b.toList.head? = some '/'
  · have hroot : (PurePosixPath.ofString b).root ≠ "" := fun h =>
      (leadingSlashes_eq_zero_iff _).1 ((slashes_eq_empty_iff _).1 h) hhead
    rw [if_pos hhead, if_neg hroot]
  · have hroot : (PurePosixPath.ofString b).root = "" := (slashes_eq_empty_iff _).2 ((leadingSlashes_eq_zero_iff _).2 hhead)
    rw [if_neg hhead, if_pos hroot]
    split
    · rename_i hmeet
      have hslash : MeetAtSlash a.toList b.toList := .inl (hmeet.imp_left fun h => by rw [h]; rfl)
      rw [ofString_eq, ofString_eq a, ofString_eq b, String.toList_append, leadingSlashes_append hhead, (partsOf_append_iff _ _).2 hslash, List.map_append]
    · rename_i hmeet
      obtain ⟨hne, hlast⟩ := not_or.1 hmeet
      have hchars : a.toList ≠ [] := fun h => hne (String.toList_inj.1 h)
      have hslash : MeetAtSlash a.toList ('/' :: b.toList) := .inr (.inr rfl)
      have htext : (a ++ "/" ++ b).toList = a.toList ++ '/' :: b.toList := by simp
      rw [ofString_eq, ofString_eq a, ofString_eq b, htext, leadingSlashes_append_slash hchars hlast, (partsOf_append_iff _ _).2 hslash,
        List.map_append]
      have hone := partsOf_replicate_append 1 b.toList
      rw [show List.replicate 1 '/' ++ b.toList = '/' :: b.toList from rfl] at hone
      rw [hone]

theorem IsComponent.isPart {name : String} (h : IsComponent name) : IsPart name.toList :=
  ⟨fun hempty => h.ne_empty (String.toList_inj.1 hempty), fun hdot => h.ne_dot (String.toList_inj.1 hdot)⟩

/-- The path written as one component is that component. -/
theorem IsComponent.ofString {name : String} (h : IsComponent name) : PurePosixPath.ofString name = { root := "", parts := [name] } := by
  have hhead : name.toList.head? ≠ some '/' := fun hslash => h.no_slash (List.mem_of_head? hslash)
  have hparts : partsOf name.toList = [name.toList] := by
    unfold partsOf
    rw [List.splitOn_eq_singleton h.no_slash]
    exact List.filter_eq_self.2 fun part hpart => decide_eq_true (List.mem_singleton.1 hpart ▸ h.isPart)
  rw [ofString_eq, (leadingSlashes_eq_zero_iff _).2 hhead, hparts, List.map_cons, String.ofList_toList]
  rfl

/-- Names that are joined to a path stand below what it is resolved to. -/
theorem resolvedPath_posixJoin {a b : String} (hhead : b.toList.head? ≠ some '/')
    (hcomps : ∀ comp ∈ (PurePosixPath.ofString b).parts, IsComponent comp) :
    (resolvedPath (posixJoin a b)).root = (resolvedPath a).root ∧
      (resolvedPath (posixJoin a b)).parts = (resolvedPath a).parts ++ (PurePosixPath.ofString b).parts := by
  have hroot : (PurePosixPath.ofString b).root = "" := (slashes_eq_empty_iff _).2 ((leadingSlashes_eq_zero_iff _).2 hhead)
  have hjoin : PurePosixPath.ofString (posixJoin a b) =
      { root := (PurePosixPath.ofString a).root, parts := (PurePosixPath.ofString a).parts ++ (PurePosixPath.ofString b).parts } := by
    rw [ofString_posixJoin, PurePosixPath.join, if_pos hroot]
  refine ⟨by rw [resolvedPath_root, hjoin, resolvedPath_root], ?_⟩
  rw [resolvedPath_parts, hjoin, List.foldl_append, foldl_components hcomps, resolvedPath_parts]

end OpenBlade
