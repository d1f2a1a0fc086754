import OpenBlade.Domain.Posix

/-!
# The parts of a path

Where the text of a path is put together from two, and what a path says when it is read back from its own text.
-/

namespace OpenBlade

/-- A part of a path as it may stand in one. -/
def IsPart (part : List Char) : Prop := part ≠ [] ∧ part ≠ ['.']

instance (part : List Char) : Decidable (IsPart part) := inferInstanceAs (Decidable (_ ∧ _))

/-- The parts of a path written in these letters. -/
def partsOf (chars : List Char) : List (List Char) := (chars.splitOn '/').filter fun part => IsPart part

theorem parts_ofString (text : String) : (PurePosixPath.ofString text).parts = (partsOf text.toList).map String.ofList := by
  have hpart : ∀ part : List Char, decide (String.ofList part ≠ "" ∧ String.ofList part ≠ ".") = decide (IsPart part) := by
    intro part
    have hdot : String.ofList part = "." ↔ part = ['.'] := by
      rw [← String.toList_inj]
      simp
    exact decide_eq_decide.2 (by simp [IsPart, hdot])
  unfold PurePosixPath.ofString splitSlash partsOf
  dsimp only
  rw [List.filter_map]
  exact congrArg _ (List.filter_congr fun part _ => hpart part)

/-- Where two texts meet, the last component of the first and the first component of the second become one. -/
theorem splitOn_append (a b : List Char) :
    ∃ before last first after, a.splitOn '/' = before ++ [last] ∧ b.splitOn '/' = first :: after ∧
      (a ++ b).splitOn '/' = before ++ (last ++ first) :: after := by
  induction a with
  | nil =>
    obtain ⟨first, after, hb⟩ := List.exists_cons_of_ne_nil (List.splitOn_ne_nil '/' b)
    exact ⟨[], [], first, after, rfl, hb, by rw [List.nil_append, hb]; rfl⟩
  | cons c a ih =>
    obtain ⟨before, last, first, after, ha, hb, hab⟩ := ih
    rw [List.cons_append, List.splitOn_cons_eq_if_modifyHead, List.splitOn_cons_eq_if_modifyHead, ha, hab]
    split
    · exact ⟨[] :: before, last, first, after, rfl, hb, rfl⟩
    · cases before with
      | nil => exact ⟨[], c :: last, first, after, rfl, hb, rfl⟩
      | cons head before => exact ⟨(c :: head) :: before, last, first, after, rfl, hb, rfl⟩

/-- The first component of a text is empty when the text begins with a slash, or is empty. -/
theorem first_eq_nil_iff {b first : List Char} {after : List (List Char)} (h : b.splitOn '/' = first :: after) :
    first = [] ↔ b = [] ∨ b.head? = some '/' := by
  cases b with
  | nil =>
    rw [List.splitOn_nil] at h
    simp [(List.cons.inj h).1.symm]
  | cons c b =>
    rw [List.splitOn_cons_eq_if_modifyHead] at h
    split at h
    · rename_i hslash
      simp [(List.cons.inj h).1.symm, beq_iff_eq.1 hslash]
    · rename_i hslash
      obtain ⟨head, tail, htail⟩ := List.exists_cons_of_ne_nil (List.splitOn_ne_nil '/' b)
      rw [htail] at h
      have hfirst : c :: head = first := (List.cons.inj h).1
      have hc : c ≠ '/' := fun heq => hslash (beq_iff_eq.2 heq)
      simp [← hfirst, hc]

/-- The last component of a text is empty when the text ends in a slash, or is empty. -/
theorem last_eq_nil_iff {a last : List Char} {before : List (List Char)} (h : a.splitOn '/' = before ++ [last]) :
    last = [] ↔ a = [] ∨ a.getLast? = some '/' := by
  rcases List.eq_nil_or_concat a with rfl | ⟨a, c, rfl⟩
  · rw [List.splitOn_nil] at h
    have hlast := congrArg List.getLast? h
    rw [List.getLast?_concat] at hlast
    simp [(Option.some.inj hlast).symm]
  · rw [List.concat_eq_append] at h ⊢
    obtain ⟨before', last', first, after, -, hc, hac⟩ := splitOn_append a [c]
    rw [h] at hac
    by_cases hslash : c = '/'
    · subst hslash
      rw [List.splitOn_append_cons_self, List.splitOn_nil] at h
      have hlast := congrArg List.getLast? h
      rw [List.getLast?_concat, List.getLast?_concat] at hlast
      simp [(Option.some.inj hlast).symm]
    · rw [List.splitOn_eq_singleton (by simpa using Ne.symm hslash)] at hc
      obtain ⟨rfl, rfl⟩ := List.cons.inj hc
      have hlast := congrArg List.getLast? hac
      rw [List.getLast?_concat, List.getLast?_concat] at hlast
      simp [Option.some.inj hlast, hslash]

/-- Two texts make one path of their parts when they meet at a slash, or one of them is empty. -/
def MeetAtSlash (a b : List Char) : Prop := (a = [] ∨ a.getLast? = some '/') ∨ b = [] ∨ b.head? = some '/'

instance (a b : List Char) : Decidable (MeetAtSlash a b) := inferInstanceAs (Decidable (_ ∨ _))

theorem partsOf_append_iff (a b : List Char) : partsOf (a ++ b) = partsOf a ++ partsOf b ↔ MeetAtSlash a b := by
  obtain ⟨before, last, first, after, ha, hb, hab⟩ := splitOn_append a b
  unfold MeetAtSlash partsOf
  rw [← last_eq_nil_iff ha, ← first_eq_nil_iff hb, ha, hb, hab, List.filter_append, List.filter_append, List.append_assoc,
    List.append_cancel_left_eq]
  by_cases hlast : last = []
  · subst hlast
    simp [IsPart]
  by_cases hfirst : first = []
  · subst hfirst
    by_cases hpart : IsPart last <;> simp [hpart, show ¬IsPart [] from fun h => h.1 rfl]
  -- Two components become one of at least two letters, which is one part more or less.
  have hjoined : IsPart (last ++ first) := by
    refine ⟨by simp [hlast], fun h => ?_⟩
    have hlength := congrArg List.length h
    have := List.length_pos_iff.2 hlast
    have := List.length_pos_iff.2 hfirst
    simp only [List.length_append, List.length_singleton] at hlength
    omega
  simp only [hlast, hfirst, or_self, iff_false]
  intro heq
  by_cases hpl : IsPart last <;> by_cases hpf : IsPart first <;>
    simp [hpl, hpf, hjoined, hlast, hfirst] at heq

/-- Slashes in front add no parts. -/
theorem partsOf_replicate_append (n : Nat) (chars : List Char) : partsOf (List.replicate n '/' ++ chars) = partsOf chars := by
  induction n with
  | zero => rfl
  | succ n ih =>
    rw [List.replicate_succ, List.cons_append, ← ih]
    unfold partsOf
    rw [List.splitOn_cons_eq_if_modifyHead, if_pos (beq_self_eq_true _), List.filter_cons_of_neg (by decide)]

theorem partsOf_dropWhile (chars : List Char) : partsOf (chars.dropWhile (· = '/')) = partsOf chars := by
  induction chars with
  | nil => rfl
  | cons c chars ih =>
    by_cases hslash : c = '/'
    · subst hslash
      rw [List.dropWhile_cons_of_pos (by decide), ih]
      exact (partsOf_replicate_append 1 chars).symm
    · rw [List.dropWhile_cons_of_neg (by simpa using hslash)]

theorem leadingSlashes_eq_zero_iff (chars : List Char) : leadingSlashes chars = 0 ↔ chars.head? ≠ some '/' := by
  cases chars with
  | nil => simp [leadingSlashes]
  | cons c chars =>
    by_cases hc : c = '/'
    · subst hc
      unfold leadingSlashes
      split <;> simp_all
    · simp [leadingSlashes, hc]

/-- Up to two slashes in front are counted, when no other follows. -/
theorem leadingSlashes_replicate_append {n : Nat} (hn : n ≤ 2) {chars : List Char} (h : chars.head? ≠ some '/') :
    leadingSlashes (List.replicate n '/' ++ chars) = n := by
  match n, hn with
  | 0, _ => exact (leadingSlashes_eq_zero_iff chars).2 h
  | 1, _ | 2, _ =>
    cases chars with
    | nil => rfl
    | cons c chars =>
      have hc : c ≠ '/' := fun heq => h (by rw [heq]; rfl)
      simp [leadingSlashes, List.replicate_succ, hc]

theorem leadingSlashes_le (chars : List Char) : leadingSlashes chars ≤ 2 := by
  unfold leadingSlashes
  split <;> omega

theorem slashes_eq_empty_iff (n : Nat) : slashes n = "" ↔ n = 0 := by
  unfold slashes
  simp

/-- A path as `PurePosixPath` builds them. -/
structure PurePosixPath.WellFormed (path : PurePosixPath) : Prop where
  root : ∃ n ≤ 2, path.root = slashes n
  parts : ∃ parts : List (List Char), path.parts = parts.map String.ofList ∧ ∀ part ∈ parts, IsPart part ∧ '/' ∉ part

theorem not_mem_of_mem_splitOn {chars part : List Char} (h : part ∈ chars.splitOn '/') : '/' ∉ part := by
  induction chars generalizing part with
  | nil =>
    rw [List.splitOn_nil] at h
    rw [List.mem_singleton.1 h]
    exact List.not_mem_nil
  | cons c chars ih =>
    rw [List.splitOn_cons_eq_if_modifyHead] at h
    split at h
    · rcases List.mem_cons.1 h with rfl | h
      · exact List.not_mem_nil
      · exact ih h
    · rename_i hslash
      obtain ⟨head, tail, htail⟩ := List.exists_cons_of_ne_nil (List.splitOn_ne_nil '/' chars)
      rw [htail, List.modifyHead_cons] at h
      rcases List.mem_cons.1 h with rfl | h
      · have hhead := ih (htail ▸ List.mem_cons_self)
        have hc : c ≠ '/' := fun heq => hslash (beq_iff_eq.2 heq)
        exact fun hm => (List.mem_cons.1 hm).elim (fun heq => hc heq.symm) hhead
      · exact ih (htail ▸ List.mem_cons_of_mem _ h)

theorem wellFormed_ofString (text : String) : (PurePosixPath.ofString text).WellFormed where
  root := ⟨_, leadingSlashes_le _, rfl⟩
  parts := ⟨_, parts_ofString text, fun _ hpart =>
    ⟨of_decide_eq_true (List.mem_filter.1 hpart).2, not_mem_of_mem_splitOn (List.mem_filter.1 hpart).1⟩⟩

theorem PurePosixPath.WellFormed.join {path other : PurePosixPath} (h : path.WellFormed) (hother : other.WellFormed) :
    (path.join other).WellFormed := by
  unfold PurePosixPath.join
  split
  · obtain ⟨parts, hparts, hall⟩ := h.parts
    obtain ⟨parts', hparts', hall'⟩ := hother.parts
    exact ⟨h.root, parts ++ parts', by rw [hparts, hparts', List.map_append], fun part hpart =>
      (List.mem_append.1 hpart).elim (hall part) (hall' part)⟩
  · exact hother

/-- A path is read back from its own text. -/
theorem ofString_toString {path : PurePosixPath} (h : path.WellFormed) : PurePosixPath.ofString path.toString = path := by
  obtain ⟨n, hn, hroot⟩ := h.root
  obtain ⟨parts, hparts, hall⟩ := h.parts
  obtain ⟨root, parts'⟩ := path
  simp only at hroot hparts
  subst hroot hparts
  unfold PurePosixPath.toString
  dsimp only
  split
  · rename_i hempty
    rw [hempty.1, hempty.2]
    decide
  · rename_i hnonempty
    have htext : (slashes n ++ "/".intercalate (parts.map String.ofList)).toList =
        List.replicate n '/' ++ ['/'].intercalate parts := by
      simp [slashes, String.toList_intercalate, Function.comp_def]
    have hparts : partsOf (['/'].intercalate parts) = parts := by
      cases parts with
      | nil => decide
      | cons part parts =>
        unfold partsOf
        rw [List.splitOn_intercalate '/' (fun l hl => (hall l hl).2) (List.cons_ne_nil _ _)]
        exact List.filter_eq_self.2 fun l hl => decide_eq_true (hall l hl).1
    have hhead : (['/'].intercalate parts).head? ≠ some '/' := by
      cases parts with
      | nil => exact fun h => nomatch h
      | cons part parts =>
        obtain ⟨hpart, hslash⟩ := hall part List.mem_cons_self
        obtain ⟨c, part, rfl⟩ := List.exists_cons_of_ne_nil hpart.1
        have hc : c ≠ '/' := fun heq => hslash (heq ▸ List.mem_cons_self)
        cases parts <;> simpa using hc
    have hrootChars : (PurePosixPath.ofString (slashes n ++ "/".intercalate (parts.map String.ofList))).root = slashes n := by
      unfold PurePosixPath.ofString
      rw [htext, leadingSlashes_replicate_append hn hhead]
    have hpartsChars := parts_ofString (slashes n ++ "/".intercalate (parts.map String.ofList))
    rw [htext, partsOf_replicate_append, hparts] at hpartsChars
    generalize PurePosixPath.ofString _ = built at hrootChars hpartsChars
    cases built
    simp_all

/-- Names behind a text, behind a slash. -/
theorem intercalate_append {before names : List String} (hbefore : before ≠ []) (hnames : names ≠ []) :
    "/".intercalate (before ++ names) = "/".intercalate before ++ "/" ++ "/".intercalate names := by
  obtain ⟨first, rest, rfl⟩ := List.exists_cons_of_ne_nil hbefore
  obtain ⟨name, others, rfl⟩ := List.exists_cons_of_ne_nil hnames
  induction rest generalizing first with
  | nil => simp [String.intercalate_cons_cons]
  | cons next rest ih =>
    have hrest := ih next (List.cons_ne_nil _ _)
    rw [List.cons_append, List.cons_append, String.intercalate_cons_cons, String.intercalate_cons_cons]
    rw [List.cons_append] at hrest
    rw [hrest]
    simp [String.append_assoc]

/-! ### Texts without slashes in front -/

theorem toList_lstripSlash (text : String) : (lstripSlash text).toList = text.toList.dropWhile (· = '/') := by
  simp [lstripSlash]

theorem head_lstripSlash (text : String) : (lstripSlash text).toList.head? ≠ some '/' := by
  rw [toList_lstripSlash]
  intro hhead
  have hne := List.head?_dropWhile_not (fun c => decide (c = '/')) text.toList
  rw [hhead] at hne
  simp at hne

/-- Stripping takes off the slashes put in front. -/
theorem lstripSlash_slashes (n : Nat) {text : String} (h : text.toList.head? ≠ some '/') : lstripSlash (slashes n ++ text) = text := by
  rw [← String.toList_inj, toList_lstripSlash, String.toList_append]
  unfold slashes
  rw [String.toList_ofList]
  induction n with
  | zero =>
    cases hchars : text.toList with
    | nil => rfl
    | cons c chars =>
      rw [hchars] at h
      have hc : c ≠ '/' := fun heq => h (by rw [heq]; rfl)
      simp [hc]
  | succ n ih =>
    rw [List.replicate_succ, List.cons_append, List.dropWhile_cons_of_pos (by simp)]
    exact ih

end OpenBlade
