import OpenBlade.Effects.Traverse
import OpenBlade.Jobs.StripePaths
import OpenBlade.Jobs.TreeRestore

/-!
# Where a restored tree goes

A file below the prefix goes under the destination directory by the names that lead to it from the prefix, and a file at the prefix by
its own name. So two files get into each other's way when one path leads through the other, or when the file at the prefix shares its
name with what is below it; and when the prefix is the root, files whose paths do not begin there are taken for files below it.
-/

namespace OpenBlade

/-- A path at a prefix or below it, compared part by part. -/
def AtOrBelow (path pre : String) : Prop := ((PurePosixPath.ofString path).relativeTo (.ofString pre)).isSome = true

instance (path pre : String) : Decidable (AtOrBelow path pre) := inferInstanceAs (Decidable (_ = _))

/-- A path is another one, or leads through it. -/
def PurePosixPath.Covers (path other : PurePosixPath) : Prop := ∃ names, other = path.below names

/-- The files planned do not get into each other's way, they stay under the destination directory, and with those that are skipped
they are the files recorded at or below the prefix. -/
structure TreePlanned (cat : Catalog) (pre : String) (destDir : PurePosixPath) (planned : List PlannedFile) (skipped : List String) :
    Prop where
  apart : ∀ a ∈ planned, ∀ b ∈ planned, a.catalogPath ≠ b.catalogPath → ¬a.destPath.Covers b.destPath
  under : ∀ a ∈ planned, ∃ names, names ≠ [] ∧ (∀ name ∈ names, IsComponent name) ∧ a.destPath = destDir.below names
  exact : (planned.map PlannedFile.catalogPath ++ skipped).Perm
    ((cat.records.filter fun record => record.parentId = none ∧ AtOrBelow record.path pre).map FileRecord.path)

/-- A file is recorded at the place, with something to restore it from. -/
def RestorableAt (cat : Catalog) (comps : List String) : Prop :=
  ∃ record ∈ cat.records, record.parentId = none ∧ record.IsAt comps ∧ restoreBarcodes cat record ≠ []

/-- Every file has a place below the root, if the root is what is restored; no file to restore stands below another one, save below the
one at the prefix, and none where that one goes or below. -/
structure TreeApart (cat : Catalog) (dir : List String) : Prop where
  rooted : dir = [] → ∀ record ∈ cat.records, record.parentId = none → ∃ comps, record.IsAt comps
  leaves : ∀ rest name below, RestorableAt cat (dir ++ rest) → RestorableAt cat (dir ++ rest ++ name :: below) → rest = []
  beside : ∀ name below, dir.getLast? = some name → RestorableAt cat dir → ¬RestorableAt cat (dir ++ name :: below)

namespace TreeAux

open NamespaceAux TapeNamesAux

variable {quote : String → String} {cat : Catalog} {dir rest : List String} {destDir : PurePosixPath} {record : FileRecord}

theorem normalizePrefix_eq (text : String) : normalizePrefix text = mountPath (components (strip text)) := by
  unfold normalizePrefix
  generalize strip text = stripped
  have hjoin : (PurePosixPath.ofString "/").join (.ofString (lstripSlash stripped)) = placePath (components stripped) := by
    rw [ofString_lstripSlash]
    exact if_pos rfl
  rw [hjoin]
  rfl

/-! ### Texts -/

/-- The text of a place ends as its last name does. -/
theorem getLast_mountPath (h : (placePath dir).WellFormed) (hne : dir ≠ []) : (mountPath dir).toList.getLast? ≠ some '/' := by
  obtain ⟨before, name, rfl⟩ := (List.eq_nil_or_concat dir).resolve_left hne
  rw [List.concat_eq_append] at h ⊢
  obtain ⟨hpart, hslash⟩ := isPart_of_wellFormed h (List.mem_append_right before (List.mem_singleton.2 rfl))
  obtain ⟨letters, htext⟩ : ∃ letters, (mountPath (before ++ [name])).toList = letters ++ name.toList := by
    have hroot : ¬("/" = "" ∧ before ++ [name] = []) := fun h => absurd h.1 (by decide)
    unfold mountPath placePath PurePosixPath.toString
    rw [if_neg hroot]
    cases before with
    | nil => exact ⟨['/'], by simp⟩
    | cons first before =>
      rw [intercalate_append (List.cons_ne_nil _ _) (List.cons_ne_nil _ _)]
      exact ⟨("/" ++ ("/".intercalate (first :: before) ++ "/")).toList, by simp⟩
  rw [htext, List.getLast?_append_of_ne_nil _ hpart.1]
  exact fun hlast => hslash (List.mem_of_getLast? hlast)

/-- A text that goes on behind the text of a place, after a slash, is the text of a path below it. -/
theorem ofString_behind (h : (placePath dir).WellFormed) (hne : dir ≠ []) {path : String} {letters : List Char}
    (htext : path.toList = (mountPath dir).toList ++ '/' :: letters) :
    ∃ rest, PurePosixPath.ofString path = placePath (dir ++ rest) := by
  have hread := ofString_mountPath h
  rw [ofString_eq] at hread
  have hroot : slashes (leadingSlashes (mountPath dir).toList) = "/" := congrArg PurePosixPath.root hread
  have hparts : (partsOf (mountPath dir).toList).map String.ofList = dir := congrArg PurePosixPath.parts hread
  have hchars : (mountPath dir).toList ≠ [] := fun hnil => by
    rw [hnil] at hroot
    exact absurd hroot (by decide)
  have hmeet : MeetAtSlash (mountPath dir).toList ('/' :: letters) := .inr (.inr rfl)
  refine ⟨(partsOf ('/' :: letters)).map String.ofList, ?_⟩
  rw [ofString_eq, htext, leadingSlashes_append_slash hchars (getLast_mountPath h hne), (partsOf_append_iff _ _).2 hmeet, hroot,
    List.map_append, hparts]
  rfl

theorem atOrBelow_iff (hdir : (placePath dir).WellFormed) : AtOrBelow record.path (mountPath dir) ↔ ∃ rest, record.IsAt (dir ++ rest) := by
  unfold AtOrBelow FileRecord.IsAt
  rw [ofString_mountPath hdir]
  generalize PurePosixPath.ofString record.path = path
  unfold PurePosixPath.relativeTo placePath
  constructor
  · intro h
    split at h
    · rename_i hboth
      obtain ⟨hroot, hprefix⟩ := hboth
      obtain ⟨rest, hrest⟩ := List.isPrefixOf_iff_prefix.1 hprefix
      cases path
      exact ⟨rest, by simp_all⟩
    · cases h
  · rintro ⟨rest, rfl⟩
    rw [if_pos ⟨rfl, List.isPrefixOf_iff_prefix.2 (List.prefix_append _ _)⟩]
    rfl

/-! ### Which records are selected -/

/-- Everything is selected when the prefix is the root, and what is at or below the prefix otherwise. -/
theorem mem_selectRecords (h : PathsKept cat) (hdir : (placePath dir).WellFormed) :
    record ∈ selectRecords cat (mountPath dir) ↔
      record ∈ cat.records ∧ record.parentId = none ∧ (dir = [] ∨ ∃ rest, record.IsAt (dir ++ rest)) := by
  unfold selectRecords Catalog.listFileRecords
  rw [posix_mountPath hdir, List.mem_filter, List.mem_insertionSort, List.mem_filter, decide_eq_true_eq, decide_eq_true_eq]
  simp only [mountPath_eq_root_iff hdir]
  by_cases hroot : dir = []
  · subst hroot
    have hall : sqlLike ['%'] record.path.toList = true := sqlLike_append [] record.path.toList
    simp +contextual [hall]
  have hstrip : String.ofList ((mountPath dir).toList.rdropWhile (· = '/')) = mountPath dir := by
    have hself : (mountPath dir).toList.rdropWhile (· = '/') = (mountPath dir).toList := by
      rw [List.rdropWhile_eq_self_iff]
      intro hne hlast
      exact getLast_mountPath hdir hroot (List.getLast?_eq_some_getLast hne ▸ congrArg some (of_decide_eq_true hlast))
    rw [hself, String.ofList_toList]
  have hlike (letters : List Char) (htext : record.path.toList = (mountPath dir).toList ++ letters) :
      sqlLike (if dir = [] then "%" else mountPath dir ++ "%").toList record.path.toList = true := by
    rw [if_neg hroot, htext, String.toList_append]
    exact sqlLike_append _ _
  rw [hstrip]
  constructor
  · rintro ⟨⟨hrecord, hparent, -⟩, hnil | hself | hbehind⟩
    · exact absurd hnil hroot
    · refine ⟨hrecord, hparent, .inr ⟨[], ?_⟩⟩
      unfold FileRecord.IsAt
      rw [hself, ofString_mountPath hdir, List.append_nil]
    · obtain ⟨letters, htext⟩ := List.isPrefixOf_iff_prefix.1 hbehind
      have hletters : record.path.toList = (mountPath dir).toList ++ '/' :: letters := by
        rw [← htext, String.toList_append, List.append_assoc]
        rfl
      exact ⟨hrecord, hparent, .inr (ofString_behind hdir hroot hletters)⟩
  · rintro ⟨hrecord, hparent, hnil | ⟨rest, hat⟩⟩
    · exact absurd hnil hroot
    have hpath := path_eq_mountPath h hrecord hat
    obtain ⟨letters, htext⟩ := toList_mountPath_append rest hroot
    rw [← hpath] at htext
    refine ⟨⟨hrecord, hparent, hlike letters htext⟩, .inr ?_⟩
    cases rest with
    | nil => exact .inl (by rw [hpath, List.append_nil])
    | cons name rest =>
      refine .inr (List.isPrefixOf_iff_prefix.2 ⟨("/".intercalate (name :: rest)).toList, ?_⟩)
      have hroot' : ¬("/" = "" ∧ dir ++ name :: rest = []) := fun h => absurd h.1 (by decide)
      have hroot'' : ¬("/" = "" ∧ dir = []) := fun h => absurd h.1 (by decide)
      rw [hpath]
      unfold mountPath placePath PurePosixPath.toString
      rw [if_neg hroot', if_neg hroot'', intercalate_append hroot (List.cons_ne_nil _ _)]
      simp

/-! ### Where a file goes -/

/-- The names a file goes by: those behind the prefix, or its own at the prefix. -/
def underNames (dir rest : List String) : List String := if rest = [] then [dir.getLast?.getD ""] else rest

theorem partsUnder_at (hdir : (placePath dir).WellFormed) (hat : record.IsAt (dir ++ rest)) (hpath : record.path = mountPath (dir ++ rest)) :
    partsUnder quote record.path (mountPath dir) = .ok (if dir = [] then rest else underNames dir rest) := by
  have hwell := wellFormed_of_isAt hat
  unfold partsUnder
  rw [hat]
  by_cases hroot : dir = []
  · subst hroot
    rw [if_pos mountPath_nil]
    rfl
  rw [if_neg fun h => hroot ((mountPath_eq_root_iff hdir).1 h), if_neg hroot]
  unfold underNames
  by_cases hrest : rest = []
  · subst hrest
    rw [List.append_nil] at hpath ⊢
    rw [if_pos hpath, if_pos rfl]
    rfl
  · have hother : record.path ≠ mountPath dir := by
      intro h
      have hparts := congrArg PurePosixPath.ofString (hpath.symm.trans h)
      rw [ofString_mountPath hwell, ofString_mountPath hdir] at hparts
      exact hrest (List.append_right_eq_self.1 (congrArg PurePosixPath.parts hparts))
    have hrelative : (placePath (dir ++ rest)).relativeTo (.ofString (mountPath dir)) = some { root := "", parts := rest } := by
      rw [ofString_mountPath hdir]
      unfold PurePosixPath.relativeTo placePath
      rw [if_pos ⟨rfl, List.isPrefixOf_iff_prefix.2 (List.prefix_append _ _)⟩, List.drop_left]
    rw [if_neg hother, if_neg hrest, hrelative]
    rfl

/-- What is kept of the parts is all of them, none of them "..". -/
theorem relativeParts_at (hdir : (placePath dir).WellFormed) (hat : record.IsAt (dir ++ rest))
    (hpath : record.path = mountPath (dir ++ rest)) {names : List String}
    (hnames : relativeParts quote record.path (mountPath dir) = .ok names) :
    names = underNames dir rest ∧ (∀ name ∈ names, IsComponent name) ∧ (rest = [] → dir ≠ []) := by
  have hwell := wellFormed_of_isAt hat
  have hparts : ∀ name ∈ (if dir = [] then rest else underNames dir rest), IsPart name.toList ∧ '/' ∉ name.toList := by
    intro name hname
    refine isPart_of_wellFormed hwell (show name ∈ dir ++ rest from ?_)
    split at hname
    · exact List.mem_append_right _ hname
    · rename_i hroot
      unfold underNames at hname
      split at hname
      · obtain ⟨before, last, rfl⟩ := (List.eq_nil_or_concat dir).resolve_left hroot
        rw [List.concat_eq_append] at hname ⊢
        rw [List.getLast?_concat, Option.getD_some, List.mem_singleton] at hname
        rw [hname]
        simp
      · exact List.mem_append_right _ hname
  unfold relativeParts at hnames
  obtain ⟨parts, hunder, hnames⟩ := Effects.bind_eq_ok.1 hnames
  obtain rfl := Except.ok.inj ((partsUnder_at hdir hat hpath).symm.trans hunder)
  generalize hkept : (if dir = [] then rest else underNames dir rest) = parts at hnames hparts
  split at hnames
  · cases hnames
  rename_i hup
  have hall : (parts.filter fun part => part ≠ "" ∧ part ≠ "/" ∧ part ≠ ".") = parts := by
    refine List.filter_eq_self.2 fun name hname => decide_eq_true ?_
    obtain ⟨hpart, hslash⟩ := hparts name hname
    refine ⟨fun h => hpart.1 (String.toList_inj.2 h), ?_, fun h => hpart.2 (String.toList_inj.2 h)⟩
    rintro rfl
    exact hslash (by decide)
  dsimp only at hnames
  rw [hall] at hnames
  split at hnames
  · cases hnames
  rename_i hsome
  obtain rfl := Except.ok.inj hnames
  refine ⟨?_, fun name hname => ?_, fun hrest hnil => hsome ?_⟩
  · rw [← hkept]
    split
    · rename_i hroot
      rw [if_pos hroot] at hkept
      have hrest : rest ≠ [] := fun h => hsome (hkept.symm.trans h)
      exact (if_neg hrest).symm
    · rfl
  · obtain ⟨hpart, hslash⟩ := hparts name hname
    exact ⟨fun h => hpart.1 (String.toList_inj.2 h), fun h => hpart.2 (String.toList_inj.2 h), fun h => hup (h ▸ hname), hslash⟩
  · rw [← hkept, if_pos hnil, hrest]

/-! ### The plan -/

/-- A record that is planned for. -/
structure PlannedAt (cat : Catalog) (destDir : PurePosixPath) (dir rest : List String) (record : FileRecord) (item : PlannedFile) : Prop
    where
  path : item.catalogPath = record.path
  dest : item.destPath = destDir.below (underNames dir rest)
  names : ∀ name ∈ underNames dir rest, IsComponent name
  below : rest = [] → dir ≠ []
  barcodes : restoreBarcodes cat record ≠ []

theorem planRecord_inl {pre : String} {item : PlannedFile} (h : planRecord quote cat destDir pre record = .ok (.inl item)) :
    item.catalogPath = record.path ∧ restoreBarcodes cat record ≠ [] ∧ ∃ names, relativeParts quote record.path pre = .ok names ∧
      item.destPath = names.foldl (fun path part => path.join (.ofString part)) destDir := by
  unfold planRecord at h
  split at h
  · cases h
  · rename_i hbarcodes
    obtain ⟨names, hnames, h⟩ := Effects.bind_eq_ok.1 h
    obtain rfl := Sum.inl.inj (Except.ok.inj h)
    exact ⟨rfl, by rw [hbarcodes]; exact List.cons_ne_nil _ _, names, hnames, rfl⟩

theorem planRecord_inr {pre path : String} (h : planRecord quote cat destDir pre record = .ok (.inr path)) :
    path = record.path ∧ restoreBarcodes cat record = [] := by
  unfold planRecord at h
  split at h
  · rename_i hbarcodes
    exact ⟨(Sum.inr.inj (Except.ok.inj h)).symm, hbarcodes⟩
  · obtain ⟨names, -, h⟩ := Effects.bind_eq_ok.1 h
    cases h

theorem plannedAt_of_ok (hkept : PathsKept cat) (hdir : (placePath dir).WellFormed) (hrecord : record ∈ cat.records)
    (hat : record.IsAt (dir ++ rest)) {item : PlannedFile} (h : planRecord quote cat destDir (mountPath dir) record = .ok (.inl item)) :
    PlannedAt cat destDir dir rest record item := by
  obtain ⟨hpath, hbarcodes, names, hnames, hdest⟩ := planRecord_inl h
  obtain ⟨rfl, hcomponents, hbelow⟩ := relativeParts_at hdir hat (path_eq_mountPath hkept hrecord hat) hnames
  exact ⟨hpath, by rw [hdest, foldl_join hcomponents], hcomponents, hbelow, hbarcodes⟩

/-- Every file planned is planned for one of the records, every record with something to restore from has a file planned, and the paths
planned and skipped are those of the records. -/
structure PlannedFor (quote : String → String) (cat : Catalog) (destDir : PurePosixPath) (pre : String) (records : List FileRecord)
    (planned : List PlannedFile) (skipped : List String) : Prop where
  source : ∀ item ∈ planned, ∃ record ∈ records, planRecord quote cat destDir pre record = .ok (.inl item)
  made : ∀ record ∈ records, restoreBarcodes cat record ≠ [] →
    ∃ item ∈ planned, planRecord quote cat destDir pre record = .ok (.inl item)
  paths : (planned.map PlannedFile.catalogPath ++ skipped).Perm (records.map FileRecord.path)

variable {pre : String} {records : List FileRecord} {planned planned' : List PlannedFile} {skipped skipped' : List String}

theorem PlannedFor.perm (h : PlannedFor quote cat destDir pre records planned skipped) (hplanned : planned'.Perm planned)
    (hskipped : skipped'.Perm skipped) : PlannedFor quote cat destDir pre records planned' skipped' where
  source := fun item hitem => h.source item (hplanned.mem_iff.1 hitem)
  made := by
    intro record hrecord hbarcodes
    obtain ⟨item, hitem, hplan⟩ := h.made record hrecord hbarcodes
    exact ⟨item, hplanned.mem_iff.2 hitem, hplan⟩
  paths := ((hplanned.map _).append hskipped).trans h.paths

theorem PlannedFor.consPlanned (h : PlannedFor quote cat destDir pre records planned skipped) {item : PlannedFile}
    (hplan : planRecord quote cat destDir pre record = .ok (.inl item)) :
    PlannedFor quote cat destDir pre (record :: records) (item :: planned) skipped where
  source := by
    intro other hother
    rcases List.mem_cons.1 hother with rfl | hother
    · exact ⟨record, List.mem_cons_self, hplan⟩
    · obtain ⟨source, hsource, hother⟩ := h.source other hother
      exact ⟨source, List.mem_cons_of_mem _ hsource, hother⟩
  made := by
    intro other hother hbarcodes
    rcases List.mem_cons.1 hother with rfl | hother
    · exact ⟨item, List.mem_cons_self, hplan⟩
    · obtain ⟨made, hmade, hother⟩ := h.made other hother hbarcodes
      exact ⟨made, List.mem_cons_of_mem _ hmade, hother⟩
  paths := by
    rw [List.map_cons, List.map_cons, List.cons_append, (planRecord_inl hplan).1]
    exact h.paths.cons _

theorem PlannedFor.consSkipped (h : PlannedFor quote cat destDir pre records planned skipped) {path : String}
    (hplan : planRecord quote cat destDir pre record = .ok (.inr path)) :
    PlannedFor quote cat destDir pre (record :: records) planned (path :: skipped) where
  source := by
    intro other hother
    obtain ⟨source, hsource, hother⟩ := h.source other hother
    exact ⟨source, List.mem_cons_of_mem _ hsource, hother⟩
  made := by
    intro other hother hbarcodes
    rcases List.mem_cons.1 hother with rfl | hother
    · exact absurd (planRecord_inr hplan).2 hbarcodes
    · exact h.made other hother hbarcodes
  paths := by
    rw [(planRecord_inr hplan).1]
    exact List.perm_middle.trans (h.paths.cons _)

theorem plannedFor_of_forall {found : List (PlannedFile ⊕ String)}
    (h : List.Forall₂ (fun record outcome => planRecord quote cat destDir pre record = .ok outcome) records found) :
    PlannedFor quote cat destDir pre records (found.filterMap Sum.getLeft?) (found.filterMap Sum.getRight?) := by
  induction h with
  | nil => exact ⟨fun _ h => absurd h List.not_mem_nil, fun _ h => absurd h List.not_mem_nil, .refl _⟩
  | @cons _ outcome _ _ hplan _ ih =>
    cases outcome with
    | inl item => exact ih.consPlanned hplan
    | inr path => exact ih.consSkipped hplan

theorem planTreeRestore_ok {request : TreeRestoreRequest} (h : planTreeRestore quote request cat = .ok (planned, skipped)) :
    PlannedFor quote cat request.destDir (normalizePrefix request.catalogPrefix)
      (selectRecords cat (normalizePrefix request.catalogPrefix)) planned skipped := by
  unfold planTreeRestore at h
  obtain ⟨found, hfound, hlists⟩ := Effects.bind_eq_ok.1 h
  obtain ⟨rfl, rfl⟩ := Prod.mk.inj (Except.ok.inj hlists)
  exact (plannedFor_of_forall (Effects.mapM_eq_ok_iff.1 hfound)).perm (List.perm_insertionSort ..) (List.perm_insertionSort ..)

/-- Where the files to restore are apart, one goes where another goes, or below, only if it is the other. -/
theorem underNames_inj (h : TreeApart cat dir) {rest' more : List String} (hat : RestorableAt cat (dir ++ rest))
    (hat' : RestorableAt cat (dir ++ rest')) (hroot : rest = [] → dir ≠ []) (hroot' : rest' = [] → dir ≠ [])
    (hnames : underNames dir rest' = underNames dir rest ++ more) : rest = rest' := by
  have hlast (hne : dir ≠ []) : dir.getLast? = some (dir.getLast?.getD "") := by
    rw [List.getLast?_eq_some_getLast hne]
    rfl
  unfold underNames at hnames
  split at hnames
  · rename_i hrest'
    subst hrest'
    split at hnames
    · rename_i hrest
      exact hrest
    · -- the file at the prefix goes where one below it goes
      obtain ⟨hself, rfl⟩ : rest = [dir.getLast?.getD ""] ∧ more = [] := by
        cases rest with
        | nil => contradiction
        | cons name rest =>
          obtain ⟨rfl, hnil⟩ := List.cons.inj hnames
          obtain ⟨rfl, rfl⟩ := List.append_eq_nil_iff.1 hnil.symm
          exact ⟨rfl, rfl⟩
      rw [List.append_nil] at hat'
      exact absurd (hself ▸ hat) (h.beside _ [] (hlast (hroot' rfl)) hat')
  · split at hnames
    · rename_i hrest
      subst hrest hnames
      rw [List.append_nil] at hat
      exact absurd hat' (h.beside _ more (hlast (hroot rfl)) hat)
    · rename_i hrest
      subst hnames
      cases more with
      | nil => exact (List.append_nil _).symm
      | cons name below =>
        rw [← List.append_assoc] at hat'
        exact absurd (h.leaves rest name below hat hat') hrest

end TreeAux

open TreeAux NamespaceAux TapeNamesAux in
/-- A tree restore that can be planned keeps its files apart and under the destination directory, and covers what is recorded at or
below the prefix, exactly when the paths of the files to restore are apart and those of all files begin at the root, if it is the
root that is restored. -/
theorem tree_planned_iff (quote : String → String) (request : TreeRestoreRequest) (cat : Catalog) (hkept : PathsKept cat)
    (planned : List PlannedFile) (skipped : List String) (hplan : planTreeRestore quote request cat = .ok (planned, skipped)) :
    TreePlanned cat (normalizePrefix request.catalogPrefix) request.destDir planned skipped ↔
      TreeApart cat (components (strip request.catalogPrefix)) := by
  have hfor := planTreeRestore_ok hplan
  have hdir := wellFormed_components (strip request.catalogPrefix)
  rw [normalizePrefix_eq] at hfor ⊢
  generalize components (strip request.catalogPrefix) = dir at hfor hdir ⊢
  -- A record to restore, once it is selected, and the file planned for it.
  have hitem (rest : List String) (hat : RestorableAt cat (dir ++ rest)) : ∃ record item, record ∈ cat.records ∧
      record.IsAt (dir ++ rest) ∧ item ∈ planned ∧ PlannedAt cat request.destDir dir rest record item := by
    obtain ⟨record, hrecord, hparent, hat, hbarcodes⟩ := hat
    obtain ⟨item, hitem, hplanned⟩ := hfor.made record ((mem_selectRecords hkept hdir).2 ⟨hrecord, hparent, .inr ⟨rest, hat⟩⟩) hbarcodes
    exact ⟨record, item, hrecord, hat, hitem, plannedAt_of_ok hkept hdir hrecord hat hplanned⟩
  constructor
  · intro htree
    -- Two files on one path cannot both be planned.
    have hapart (rest rest' more : List String) (hat : RestorableAt cat (dir ++ rest)) (hat' : RestorableAt cat (dir ++ rest'))
        (hne : rest ≠ rest') : underNames dir rest' ≠ underNames dir rest ++ more := by
      intro hnames
      obtain ⟨record, item, hrecord, hplace, hmem, hplanned⟩ := hitem rest hat
      obtain ⟨record', item', hrecord', hplace', hmem', hplanned'⟩ := hitem rest' hat'
      refine htree.apart item hmem item' hmem' ?_ ⟨more, ?_⟩
      · rw [hplanned.path, hplanned'.path, path_eq_mountPath hkept hrecord hplace, path_eq_mountPath hkept hrecord' hplace']
        intro heq
        have hparts := congrArg PurePosixPath.ofString heq
        rw [ofString_mountPath (wellFormed_of_isAt hplace), ofString_mountPath (wellFormed_of_isAt hplace')] at hparts
        exact hne (List.append_cancel_left (congrArg PurePosixPath.parts hparts))
      · rw [hplanned.dest, hplanned'.dest, hnames]
        simp [PurePosixPath.below]
    refine ⟨fun hroot record hrecord hparent => ?_, fun rest name below hat hbelow => ?_, fun name below hlast hat hbelow => ?_⟩
    · have hselected := (mem_selectRecords hkept hdir).2 ⟨hrecord, hparent, .inl hroot⟩
      have hpath := (htree.exact.symm.trans hfor.paths).mem_iff.2 (List.mem_map_of_mem hselected)
      obtain ⟨other, hother, heq⟩ := List.mem_map.1 hpath
      obtain ⟨rest, hat⟩ := (atOrBelow_iff hdir).1 (of_decide_eq_true (List.mem_filter.1 hother).2).2
      refine ⟨dir ++ rest, ?_⟩
      unfold FileRecord.IsAt at hat ⊢
      rw [← heq]
      exact hat
    · by_contra hrest
      rw [List.append_assoc] at hbelow
      refine hapart rest (rest ++ name :: below) (name :: below) hat hbelow ?_ ?_
      · exact fun h => absurd (List.append_right_eq_self.1 h.symm) (List.cons_ne_nil _ _)
      · unfold underNames
        rw [if_neg hrest, if_neg (List.append_ne_nil_of_right_ne_nil _ (List.cons_ne_nil _ _))]
    · rw [← List.append_nil dir] at hat
      refine hapart [] (name :: below) below hat hbelow (List.cons_ne_nil _ _).symm ?_
      unfold underNames
      rw [if_pos rfl, if_neg (List.cons_ne_nil _ _), hlast]
      rfl
  · intro happrt
    have hplace (record : FileRecord) (hselected : record ∈ selectRecords cat (mountPath dir)) :
        record ∈ cat.records ∧ record.parentId = none ∧ ∃ rest, record.IsAt (dir ++ rest) := by
      obtain ⟨hrecord, hparent, hroot | hat⟩ := (mem_selectRecords hkept hdir).1 hselected
      · subst hroot
        exact ⟨hrecord, hparent, happrt.rooted rfl record hrecord hparent⟩
      · exact ⟨hrecord, hparent, hat⟩
    have hsource (item : PlannedFile) (hmem : item ∈ planned) : ∃ record rest, record ∈ cat.records ∧ record.parentId = none ∧
        record.IsAt (dir ++ rest) ∧ PlannedAt cat request.destDir dir rest record item := by
      obtain ⟨record, hselected, hplanned⟩ := hfor.source item hmem
      obtain ⟨hrecord, hparent, rest, hat⟩ := hplace record hselected
      exact ⟨record, rest, hrecord, hparent, hat, plannedAt_of_ok hkept hdir hrecord hat hplanned⟩
    refine ⟨fun a ha b hb hne => ?_, fun a ha => ?_, ?_⟩
    · rintro ⟨more, hcovers⟩
      obtain ⟨record, rest, hrecord, hparent, hat, hplanned⟩ := hsource a ha
      obtain ⟨record', rest', hrecord', hparent', hat', hplanned'⟩ := hsource b hb
      rw [hplanned.path, hplanned'.path] at hne
      have hrest : rest ≠ rest' := by
        rintro rfl
        exact hne (congrArg FileRecord.path (isAt_unique hkept hrecord hrecord' hat hat'))
      have hnames : underNames dir rest' = underNames dir rest ++ more := by
        rw [hplanned.dest, hplanned'.dest] at hcovers
        have hparts := congrArg PurePosixPath.parts hcovers
        exact List.append_cancel_left (hparts.trans (List.append_assoc ..))
      exact hrest (underNames_inj happrt ⟨record, hrecord, hparent, hat, hplanned.barcodes⟩
        ⟨record', hrecord', hparent', hat', hplanned'.barcodes⟩ hplanned.below hplanned'.below hnames)
    · obtain ⟨record, rest, -, -, -, hplanned⟩ := hsource a ha
      refine ⟨underNames dir rest, ?_, hplanned.names, hplanned.dest⟩
      unfold underNames
      split
      · exact List.cons_ne_nil _ _
      · assumption
    · refine hfor.paths.trans (List.Perm.map _ ?_)
      have hnodup : cat.records.Nodup := .of_map _ hkept.distinct
      refine (List.perm_ext_iff_of_nodup ?_ (hnodup.filter _)).2 fun record => ?_
      · exact ((List.perm_insertionSort ..).nodup_iff.2 (hnodup.filter _)).filter _
      · rw [List.mem_filter, decide_eq_true_eq, atOrBelow_iff hdir]
        constructor
        · intro hselected
          obtain ⟨hrecord, hparent, hat⟩ := hplace record hselected
          exact ⟨hrecord, hparent, hat⟩
        · rintro ⟨hrecord, hparent, hat⟩
          exact (mem_selectRecords hkept hdir).2 ⟨hrecord, hparent, .inr hat⟩

/-- A catalog of whole files of one byte, each archived on one tape. -/
def archivedCatalog (paths : List String) : Catalog where
  records := paths.zipIdx.map fun entry =>
    { id := entry.2, path := entry.1, sizeBytes := 1, checksumSha256 := "", volumeGroupId := 0, shardCount := none, shardIndex := none
      blockSize := none, shardProfile := none, parentId := none, createdAt := 0 }
  instances := paths.zipIdx.map fun entry =>
    { id := entry.2, fileRecordId := entry.2, barcode := "TAPE01L8", tapePath := entry.1, state := .archived, createdAt := 0 }

def restoreEverything (text : String) : TreeRestoreRequest := { catalogPrefix := text, destDir := .ofString "/restore" }

/-- A file of one byte on the tape. -/
def plannedOne (catalogPath destPath : String) : PlannedFile where
  catalogPath := catalogPath
  destPath := .ofString destPath
  sizeBytes := 1
  barcode := "TAPE01L8"
  sharded := false

/-- Files archived from two relative directories. -/
theorem relative_files_collide :
    PathsKept (archivedCatalog ["alpha/same.txt", "beta/same.txt"]) ∧
      planTreeRestore id (restoreEverything "/") (archivedCatalog ["alpha/same.txt", "beta/same.txt"]) =
        .ok ([plannedOne "alpha/same.txt" "/restore/same.txt", plannedOne "beta/same.txt" "/restore/same.txt"], []) ∧
      ¬TreePlanned (archivedCatalog ["alpha/same.txt", "beta/same.txt"]) "/" (.ofString "/restore")
        [plannedOne "alpha/same.txt" "/restore/same.txt", plannedOne "beta/same.txt" "/restore/same.txt"] [] := by
  refine ⟨⟨by decide +kernel, by decide +kernel⟩, by decide +kernel, fun htree => ?_⟩
  exact htree.apart _ List.mem_cons_self _ (List.mem_cons_of_mem _ List.mem_cons_self) (by decide) ⟨[], by decide +kernel⟩

theorem nested_files_apart :
    planTreeRestore id (restoreEverything " vg ") (archivedCatalog ["/vg/a/b", "/vgs/c", "d"]) =
        .ok ([plannedOne "/vg/a/b" "/restore/a/b"], []) ∧
      TreePlanned (archivedCatalog ["/vg/a/b", "/vgs/c", "d"]) "/vg" (.ofString "/restore") [plannedOne "/vg/a/b" "/restore/a/b"] [] := by
  have hplan : planTreeRestore id (restoreEverything " vg ") (archivedCatalog ["/vg/a/b", "/vgs/c", "d"]) =
      .ok ([plannedOne "/vg/a/b" "/restore/a/b"], []) := by decide +kernel
  have hplaces : (archivedCatalog ["/vg/a/b", "/vgs/c", "d"]).records.map (fun record => PurePosixPath.ofString record.path) =
      [placePath ["vg", "a", "b"], placePath ["vgs", "c"], { root := "", parts := ["d"] }] := by decide +kernel
  have hdir : components (strip " vg ") = ["vg"] := by decide +kernel
  -- Only one place below the prefix has a file.
  have honly (rest : List String) (hat : RestorableAt (archivedCatalog ["/vg/a/b", "/vgs/c", "d"]) (["vg"] ++ rest)) :
      rest = ["a", "b"] := by
    obtain ⟨record, hrecord, -, hat, -⟩ := hat
    have hmem := List.mem_map_of_mem (f := fun record : FileRecord => PurePosixPath.ofString record.path) hrecord
    rw [hplaces, show PurePosixPath.ofString record.path = placePath (["vg"] ++ rest) from hat] at hmem
    simpa [placePath] using hmem
  have hkept : PathsKept (archivedCatalog ["/vg/a/b", "/vgs/c", "d"]) := ⟨by decide +kernel, by decide +kernel⟩
  have htree := (tree_planned_iff id _ _ hkept _ _ hplan).2 (by
    rw [show (restoreEverything " vg ").catalogPrefix = " vg " from rfl, hdir]
    refine ⟨fun h => (nomatch h), fun rest name below hat hbelow => ?_, fun name below _ hat => ?_⟩
    · rw [List.append_assoc] at hbelow
      have hrest := honly _ hat
      have hbelow' := honly _ hbelow
      rw [hrest] at hbelow'
      simp at hbelow'
    · have hnil := honly [] hat
      cases hnil)
  exact ⟨hplan, htree⟩

end OpenBlade
