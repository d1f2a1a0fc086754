import OpenBlade.Domain.Normpath
import OpenBlade.Jobs.ShardedArchive

/-!
# Where striped files stand on tape

The files of a run are the source itself or what is found below it. Resolving takes a root and the files below it to a root and the
files below that, under the same names; so what is relative to the root is those names, whatever the root was written like.
-/

namespace OpenBlade

/-- The path under `root` that these names lead to. -/
def PurePosixPath.below (root : PurePosixPath) (names : List String) : PurePosixPath := { root with parts := root.parts ++ names }

/-- The files of a run: everything under a directory, or the source where that is a file. A file is never named "..". -/
inductive Enumerated (root : PurePosixPath) : List String → Prop where
  | tree {files : List String}
      (hfiles : ∀ file ∈ files, ∃ names, names ≠ [] ∧ (∀ name ∈ names, IsComponent name) ∧ file = (root.below names).toString) :
      Enumerated root files
  | single (hname : ∃ name, root.parts.getLast? = some name ∧ IsComponent name) : Enumerated root [root.toString]

/-- A path below `/stripe`, by these names. -/
def stripePath (names : List String) : PurePosixPath := { root := "/", parts := "stripe" :: names }

/-! ### Components -/

theorem IsComponent.ne_slash {name : String} (h : IsComponent name) : name ≠ "/" := by
  rintro rfl
  exact h.no_slash (by decide)

theorem wellFormed_below {root : PurePosixPath} (hroot : root.WellFormed) {names : List String} (hnames : ∀ name ∈ names, IsComponent name) :
    (root.below names).WellFormed := by
  obtain ⟨parts, hparts, hall⟩ := hroot.parts
  refine ⟨hroot.root, parts ++ names.map String.toList, ?_, fun part hpart => ?_⟩
  · simp [PurePosixPath.below, hparts, Function.comp_def]
  · rcases List.mem_append.1 hpart with hpart | hpart
    · exact hall part hpart
    · obtain ⟨name, hname, rfl⟩ := List.mem_map.1 hpart
      exact ⟨(hnames name hname).isPart, (hnames name hname).no_slash⟩

/-- What stands below a root is resolved below what the root is resolved to. -/
theorem resolvedPath_below {root : PurePosixPath} (hroot : root.WellFormed) {names : List String}
    (hnames : ∀ name ∈ names, IsComponent name) :
    resolvedPath (root.below names).toString = (resolvedPath root.toString).below names := by
  have hread := ofString_toString (wellFormed_below hroot hnames)
  have hreadRoot := ofString_toString hroot
  have hparts : (resolvedPath (root.below names).toString).parts = (resolvedPath root.toString).parts ++ names := by
    rw [resolvedPath_parts, resolvedPath_parts, hread, hreadRoot]
    show (root.parts ++ names).foldl (normpathStep (root.root ≠ "")) [] = _
    rw [List.foldl_append, foldl_components hnames]
  have hrootEq : (resolvedPath (root.below names).toString).root = (resolvedPath root.toString).root := by
    rw [resolvedPath_root, resolvedPath_root, hread, hreadRoot]
    rfl
  generalize resolvedPath (root.below names).toString = path at hparts hrootEq
  cases path
  rw [PurePosixPath.below, ← hparts, ← hrootEq]

/-- The last name of a root is what it is resolved to last. -/
theorem name_resolvedPath {root : PurePosixPath} (hroot : root.WellFormed) {name : String} (hlast : root.parts.getLast? = some name)
    (hname : IsComponent name) : (resolvedPath root.toString).name = name := by
  obtain ⟨before, hbefore⟩ := List.getLast?_eq_some_iff.1 hlast
  unfold PurePosixPath.name
  rw [resolvedPath_parts, ofString_toString hroot, hbefore, List.foldl_append, foldl_components (List.forall_mem_singleton.2 hname),
    List.getLast?_concat]
  rfl

/-! ### Tape paths -/

theorem foldl_join {names : List String} (hnames : ∀ name ∈ names, IsComponent name) (path : PurePosixPath) :
    names.foldl (fun path part => path.join (.ofString part)) path = path.below names := by
  induction names generalizing path with
  | nil => simp [PurePosixPath.below]
  | cons name names ih =>
    rw [List.foldl_cons, (hnames name List.mem_cons_self).ofString, PurePosixPath.join, if_pos rfl,
      ih fun other hother => hnames other (List.mem_cons_of_mem _ hother)]
    simp [PurePosixPath.below]

theorem ofString_stripe : PurePosixPath.ofString "/stripe" = stripePath [] := by decide

/-- Nothing is dropped of names. -/
theorem filter_climbing {names : List String} (hnames : ∀ name ∈ names, IsComponent name) :
    (names.filter fun part => part ≠ "" ∧ part ≠ "." ∧ part ≠ ".." ∧ part ≠ "/") = names :=
  List.filter_eq_self.2 fun name hname =>
    have h := hnames name hname
    decide_eq_true ⟨h.ne_empty, h.ne_dot, h.ne_up, h.ne_slash⟩

/-- A file below the source stands at the names that lead to it. -/
theorem stripeTapePath_below {root : PurePosixPath} (hroot : root.WellFormed) {names : List String} (hne : names ≠ [])
    (hnames : ∀ name ∈ names, IsComponent name) :
    stripeTapePath (root.below names).toString root.toString = (stripePath names).toString := by
  unfold stripeTapePath
  rw [ofString_normpath, ofString_normpath, resolvedPath_below hroot hnames]
  generalize resolvedPath root.toString = path
  have hdistinct : path.below names ≠ path := fun h => hne (List.append_right_eq_self.1 (congrArg PurePosixPath.parts h))
  have hrelative : (path.below names).relativeTo path = some { root := "", parts := names } := by
    unfold PurePosixPath.relativeTo PurePosixPath.below
    rw [if_pos ⟨rfl, List.isPrefixOf_iff_prefix.2 (List.prefix_append _ _)⟩, List.drop_left]
  dsimp only
  rw [if_neg hdistinct, hrelative, Option.getD_some, filter_climbing hnames, if_neg hne, foldl_join hnames, ofString_stripe]
  rfl

/-- A file that is the source itself stands at its name. -/
theorem stripeTapePath_self {root : PurePosixPath} (hroot : root.WellFormed) {name : String} (hlast : root.parts.getLast? = some name)
    (hname : IsComponent name) : stripeTapePath root.toString root.toString = (stripePath [name]).toString := by
  have hnames : ∀ other ∈ [name], IsComponent other := List.forall_mem_singleton.2 hname
  unfold stripeTapePath
  rw [ofString_normpath]
  dsimp only
  rw [if_pos rfl, name_resolvedPath hroot hlast hname, hname.ofString, filter_climbing hnames, if_neg (List.cons_ne_nil _ _),
    foldl_join hnames, ofString_stripe]
  rfl

theorem wellFormed_stripePath {names : List String} (hnames : ∀ name ∈ names, IsComponent name) : (stripePath names).WellFormed := by
  have hstripe : (stripePath []).WellFormed := ofString_stripe ▸ wellFormed_ofString "/stripe"
  exact wellFormed_below hstripe hnames

/-- The text of a tape path tells the names it is made of. -/
theorem stripePath_inj {names names' : List String} (hnames : ∀ name ∈ names, IsComponent name)
    (hnames' : ∀ name ∈ names', IsComponent name) (h : (stripePath names).toString = (stripePath names').toString) : names = names' := by
  have hpath := congrArg PurePosixPath.ofString h
  rw [ofString_toString (wellFormed_stripePath hnames), ofString_toString (wellFormed_stripePath hnames')] at hpath
  exact (List.cons.inj (congrArg PurePosixPath.parts hpath)).2

/-- Whatever the source is written like, its files stand strictly below `/stripe`, each at a path of its own. -/
theorem stripe_paths_confined (source : String) (files : List String) (h : Enumerated (.ofString source) files) :
    (∀ file ∈ files, ∃ names, names ≠ [] ∧ (∀ name ∈ names, IsComponent name) ∧
        stripeTapePath file (posix source) = (stripePath names).toString) ∧
      ∀ file ∈ files, ∀ other ∈ files,
        stripeTapePath file (posix source) = stripeTapePath other (posix source) → file = other := by
  have hroot := wellFormed_ofString source
  cases h with
  | tree hfiles =>
    refine ⟨fun file hfile => ?_, fun file hfile other hother heq => ?_⟩
    · obtain ⟨names, hne, hnames, rfl⟩ := hfiles file hfile
      exact ⟨names, hne, hnames, stripeTapePath_below hroot hne hnames⟩
    · obtain ⟨names, hne, hnames, rfl⟩ := hfiles file hfile
      obtain ⟨names', hne', hnames', rfl⟩ := hfiles other hother
      have htape := (stripeTapePath_below hroot hne hnames).symm.trans (heq.trans (stripeTapePath_below hroot hne' hnames'))
      rw [stripePath_inj hnames hnames' htape]
  | single hname =>
    obtain ⟨name, hlast, hname⟩ := hname
    refine ⟨fun file hfile => ?_, fun file hfile other hother _ => ?_⟩
    · rw [List.mem_singleton.1 hfile]
      exact ⟨[name], List.cons_ne_nil _ _, List.forall_mem_singleton.2 hname, stripeTapePath_self hroot hlast hname⟩
    · rw [List.mem_singleton.1 hfile, List.mem_singleton.1 hother]

theorem climbing_source_confined :
    ["../data/../tree/a/x", "../data/../tree/b/x"].map (fun file => stripeTapePath file (posix "../data//../tree/.")) =
        ["/stripe/a/x", "/stripe/b/x"] ∧
      ∀ file ∈ ["../data/../tree/a/x", "../data/../tree/b/x"], ∃ names, names ≠ [] ∧ (∀ name ∈ names, IsComponent name) ∧
        stripeTapePath file (posix "../data//../tree/.") = (stripePath names).toString := by
  have hcomponent (name : String) (h : name ≠ "" ∧ name ≠ "." ∧ name ≠ ".." ∧ '/' ∉ name.toList) : IsComponent name :=
    ⟨h.1, h.2.1, h.2.2.1, h.2.2.2⟩
  have hfiles : Enumerated (.ofString "../data//../tree/.") ["../data/../tree/a/x", "../data/../tree/b/x"] := by
    refine .tree fun file hfile => ?_
    rcases List.mem_pair.1 hfile with rfl | rfl
    · exact ⟨["a", "x"], by decide, fun name hname => hcomponent name (by revert name; decide), by decide⟩
    · exact ⟨["b", "x"], by decide, fun name hname => hcomponent name (by revert name; decide), by decide⟩
  exact ⟨by decide +kernel, (stripe_paths_confined _ _ hfiles).1⟩

end OpenBlade
