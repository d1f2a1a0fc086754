import OpenBlade.Hardware.Mtx

/-!
# Reading back what `mtx status` prints

The text that `mtx status` prints of a changer, with either form of a volume tag and any blanks around it, and what `parse_mtx_status`
(`hardware/mtx.py`) makes of it. `parse_render_iff`: it is the changer that was printed, unless a number is too long to be read or an
empty storage element shows a tag that has the word "Full" in it.
-/

namespace OpenBlade

open Effects

/-! ### The changer, and its text -/

/-- A text without white space: a volume tag, or the name of a device. -/
structure Word where
  text : String
  ne_empty : text ≠ ""
  solid : ∀ c ∈ text.toList, isSpace c = false

/-- What is in a drive: with the cartridge its volume tag, if it has one, and the slot it was loaded from, if that is known. -/
inductive ChangerDriveContent where
  | empty
  | full (tag : Option Word) (sourceSlot : Option Nat)

structure ChangerDrive where
  driveId : Nat
  content : ChangerDriveContent

/-- A storage or import/export element; the changer may know a volume tag of an empty one too. -/
structure ChangerElement where
  slotId : Nat
  occupied : Bool
  tag : Option Word
  isImportExport : Bool

structure PrintedChanger where
  device : Word
  drives : List ChangerDrive
  /-- Storage and import/export elements, in the order in which they are listed. -/
  elements : List ChangerElement

/-- The blanks between `Full` and a volume tag, around its `=`, and after it. -/
structure TagStyle where
  afterFull : Nat := 1
  beforeEquals : Nat := 0
  afterEquals : Nat := 0
  padding : Nat := 0

/-- The styles of the volume tags of drives and of slots, and the blanks before the first line. -/
structure Printing where
  indent : Nat
  drive : Nat → TagStyle
  slot : Nat → TagStyle

def blanks (n : Nat) : List Char := List.replicate n ' '

/-- `%d`. -/
def digits (n : Nat) : List Char := Nat.toDigits 10 n

/-- `:VolumeTag=` or `:VolumeTag = `. -/
def TagStyle.label (style : TagStyle) : List Char := ":VolumeTag".toList ++ (blanks style.beforeEquals ++ '=' :: blanks style.afterEquals)

def TagStyle.print (style : TagStyle) (tag : Word) : List Char := style.label ++ tag.text.toList

namespace ChangerDrive

def source : Option Nat → List Char
  | none => "Unknown Storage Element".toList
  | some slotId => "Storage Element ".toList ++ digits slotId

def details (style : TagStyle) : ChangerDriveContent → List Char
  | .empty => "Empty".toList
  | .full tag sourceSlot => "Full (".toList ++ (source sourceSlot ++ (" Loaded)".toList ++ tag.elim [] style.print))

def print (style : TagStyle) (drive : ChangerDrive) : List Char :=
  "Data Transfer Element ".toList ++ (digits drive.driveId ++ ':' :: details style drive.content)

/-- What is to be read of the drive. -/
def info (drive : ChangerDrive) : MtxDriveInfo :=
  match drive.content with
  | .empty => { driveId := drive.driveId, loaded := false, barcode := none }
  | .full tag sourceSlot => { driveId := drive.driveId, loaded := true, barcode := tag.map Word.text, sourceSlot := sourceSlot }

end ChangerDrive

namespace ChangerElement

def flags (slot : ChangerElement) : List Char := if slot.isImportExport then " IMPORT/EXPORT".toList else []

def details (style : TagStyle) (slot : ChangerElement) : List Char :=
  if slot.occupied then "Full".toList ++ slot.tag.elim [] fun tag => blanks style.afterFull ++ style.print tag
  else "Empty".toList ++ slot.tag.elim [] style.print

def print (style : TagStyle) (slot : ChangerElement) : List Char :=
  "Storage Element ".toList ++ (digits slot.slotId ++ (slot.flags ++ ':' :: slot.details style))

/-- What is to be read of the element. -/
def info (slot : ChangerElement) : MtxSlotInfo :=
  { slotId := slot.slotId, occupied := slot.occupied, barcode := slot.tag.map Word.text, isImportExport := slot.isImportExport }

end ChangerElement

namespace PrintedChanger

def header (s : PrintedChanger) : List Char :=
  "Storage Changer ".toList ++ ((s.device.text.toList ++ ':' :: digits s.drives.length) ++ (" Drives, ".toList ++ (digits s.elements.length ++
    (" Slots ( ".toList ++ (digits (s.elements.filter ChangerElement.isImportExport).length ++ " Import/Export )".toList)))))

/-- The lines of the status, each with the blanks before and after it. -/
def lines (p : Printing) (s : PrintedChanger) : List (List Char) :=
  (blanks p.indent ++ s.header) ::
    (s.drives.map (fun drive => drive.print (p.drive drive.driveId) ++ blanks (p.drive drive.driveId).padding) ++
      s.elements.map fun slot => blanks 6 ++ (slot.print (p.slot slot.slotId) ++ blanks (p.slot slot.slotId).padding))

/-- What `mtx status` prints. -/
def render (p : Printing) (s : PrintedChanger) : String := String.ofList ((s.lines p).flatMap fun line => line ++ ['\n'])

/-- The changer as the backend's record of it. -/
def status (s : PrintedChanger) : MtxStatus where
  device := s.device.text
  drives := s.drives.map ChangerDrive.info
  slots := (s.elements.filter fun slot => !slot.isImportExport).map ChangerElement.info
  driveCount := s.drives.length
  slotCount := s.elements.length
  importExportSlots := (s.elements.filter ChangerElement.isImportExport).map ChangerElement.info

/-- The numbers that are printed and read. -/
def numbers (s : PrintedChanger) : List Nat :=
  s.drives.length :: s.elements.length :: (s.drives.flatMap (fun drive =>
    drive.driveId :: match drive.content with | .full _ (some slotId) => [slotId] | _ => []) ++ s.elements.map ChangerElement.slotId)

end PrintedChanger

namespace RoundTripAux

/-! ### Texts -/

theorem isSpace_blank : isSpace ' ' = true := by decide

theorem isSpace_of_isLineBoundary {c : Char} (h : isLineBoundary c = true) : isSpace c = true := by
  simp only [isLineBoundary, List.mem_cons, List.not_mem_nil, or_false, decide_eq_true_eq] at h
  unfold isSpace
  rw [decide_eq_true_iff]
  rcases h with h | h | h | h | h | h | h | h | h | h <;> rw [h] <;> decide

/-- A text that ends with a letter that is no white space. -/
def EndsSolid (text : List Char) : Prop := ∃ front c, text = front ++ [c] ∧ isSpace c = false

theorem EndsSolid.append {text : List Char} (h : EndsSolid text) (front : List Char) : EndsSolid (front ++ text) := by
  obtain ⟨mid, c, rfl, hc⟩ := h
  exact ⟨front ++ mid, c, (List.append_assoc ..).symm, hc⟩

theorem endsSolid_word (word : Word) : EndsSolid word.text.toList := by
  rcases List.eq_nil_or_concat word.text.toList with hnil | ⟨front, c, hlast⟩
  · exact absurd (String.toList_eq_nil_iff.1 hnil) word.ne_empty
  · rw [List.concat_eq_append] at hlast
    exact ⟨front, c, hlast, word.solid c (by rw [hlast]; simp)⟩

theorem dropWhile_blanks (n : Nat) {c : Char} (hc : isSpace c = false) (text : List Char) :
    (blanks n ++ c :: text).dropWhile isSpace = c :: text := by
  induction n with
  | zero => exact List.dropWhile_cons_of_neg (by simp [hc])
  | succ n ih => exact (List.dropWhile_cons_of_pos isSpace_blank).trans ih

/-- White space around a text is stripped, and nothing else. -/
theorem strip_padded (before after : Nat) {c : Char} {text : List Char} (hfirst : isSpace c = false) (hlast : EndsSolid (c :: text)) :
    (strip (String.ofList (blanks before ++ (c :: text ++ blanks after)))).toList = c :: text := by
  obtain ⟨front, d, hend, hd⟩ := hlast
  unfold strip
  rw [String.toList_ofList, String.toList_ofList, List.cons_append, dropWhile_blanks before hfirst, ← List.cons_append, List.reverse_append, hend,
    List.reverse_append]
  have hblanks : (blanks after).reverse = blanks after := List.reverse_replicate ..
  rw [hblanks, List.reverse_singleton, List.singleton_append, dropWhile_blanks after hd, List.reverse_cons, List.reverse_reverse]

theorem strip_word (word : Word) : strip (String.ofList word.text.toList) = word.text := by
  have hend := endsSolid_word word
  have hsolid := word.solid
  cases htext : word.text.toList with
  | nil => exact absurd (String.toList_eq_nil_iff.1 htext) word.ne_empty
  | cons c text =>
    rw [htext] at hend hsolid
    have h := strip_padded 0 0 (hsolid c List.mem_cons_self) hend
    simp only [blanks, List.replicate_zero, List.nil_append, List.append_nil] at h
    rw [← String.toList_inj, htext]
    exact h

/-! ### Lines -/

theorem splitlinesFrom_line {line : List Char} (h : ∀ c ∈ line, isLineBoundary c = false) (begun rest : List Char) :
    splitlinesFrom begun (line ++ '\n' :: rest) = (begun ++ line) :: splitlinesFrom [] rest := by
  induction line generalizing begun with
  | nil =>
    rw [List.nil_append, splitlinesFrom, if_pos (by decide), List.append_nil]
    nofun
  | cons c line ih =>
    have hc := h c List.mem_cons_self
    rw [List.cons_append, splitlinesFrom, if_neg (by simp [hc]), ih (fun d hd => h d (List.mem_cons_of_mem _ hd)), List.append_assoc]
    · rfl
    · rintro rest' rfl
      exact absurd hc (by decide)

theorem splitlines_lines {lines : List (List Char)} (h : ∀ line ∈ lines, ∀ c ∈ line, isLineBoundary c = false) :
    splitlines (String.ofList (lines.flatMap fun line => line ++ ['\n'])) = lines := by
  unfold splitlines
  rw [String.toList_ofList]
  induction lines with
  | nil => rfl
  | cons line lines ih =>
    rw [List.flatMap_cons, List.append_assoc, List.singleton_append, splitlinesFrom_line (h line List.mem_cons_self),
      ih fun line hline => h line (List.mem_cons_of_mem _ hline)]
    rfl

/-! ### Digits -/

theorem digit_bounds {n : Nat} {c : Char} (h : c ∈ digits n) : 48 ≤ c.toNat ∧ c.toNat ≤ 57 :=
  Char.isDigit_iff_toNat.1 (Nat.isDigit_of_mem_toDigits (by decide) (by decide) h)

theorem decimalValue_digit {c : Char} (h : 48 ≤ c.toNat ∧ c.toNat ≤ 57) : decimalValue c = some (c.toNat - 48) := by
  have hdigits : ∀ code < 58, 48 ≤ code → decimalValue (Char.ofNat code) = some (code - 48) := by decide
  rw [← hdigits c.toNat (by omega) h.1, Char.ofNat_toNat]

theorem isDecimal_digits {n : Nat} : ∀ c ∈ digits n, isDecimal c = true := by
  intro c hc
  unfold isDecimal
  rw [decimalValue_digit (digit_bounds hc)]
  rfl

theorem isSpace_digits {n : Nat} : ∀ c ∈ digits n, isSpace c = false := by
  intro c hc
  have hdigits : ∀ code < 58, 48 ≤ code → isSpace (Char.ofNat code) = false := by decide
  have hbounds := digit_bounds hc
  rw [← Char.ofNat_toNat c]
  exact hdigits c.toNat (by omega) hbounds.1

theorem not_mem_digits {n : Nat} {c : Char} (h : ¬(48 ≤ c.toNat ∧ c.toNat ≤ 57)) : c ∉ digits n := fun hc => h (digit_bounds hc)

theorem digits_ne_nil (n : Nat) : digits n ≠ [] := Nat.toDigits_ne_nil

theorem intOfDigits_ok_iff {n m : Nat} : intOfDigits (digits n) = .ok m ↔ (digits n).length ≤ 4300 ∧ m = n := by
  have hvalue : (digits n).foldl (fun n c => n * 10 + (decimalValue c).getD 0) 0 = n := by
    refine Eq.trans ?_ (Nat.ofDigitChars_ten_toDigits (n := n))
    rw [Nat.ofDigitChars_eq_foldl]
    refine List.foldl_ext _ _ 0 fun m c hc => ?_
    rw [decimalValue_digit (digit_bounds hc), Nat.mul_comm]
    rfl
  unfold intOfDigits
  rw [hvalue]
  split
  · rename_i hlong
    exact ⟨fun h => (nomatch h), fun h => absurd h.1 (Nat.not_le.2 hlong)⟩
  · rename_i hshort
    exact ⟨fun h => ⟨Nat.not_lt.1 hshort, (Except.ok.inj h).symm⟩, fun h => h.2 ▸ rfl⟩

/-! ### Patterns -/

theorem readLiteral_append (literal : String) (text : List Char) : readLiteral literal (literal.toList ++ text) = some text :=
  List.dropPrefix?_append_of_beq text (beq_self_eq_true _)

theorem eq_append_of_readLiteral {literal : String} {text rest : List Char} (h : readLiteral literal text = some rest) :
    text = literal.toList ++ rest := by
  obtain ⟨front, htext, hfront⟩ := List.dropPrefix?_eq_some_iff.1 h
  rw [htext, eq_of_beq hfront]

/-- A text that begins otherwise. -/
theorem readLiteral_other {literal : String} {front : List Char} (hlength : literal.toList.length ≤ front.length)
    (h : ¬literal.toList <+: front) (text : List Char) : readLiteral literal (front ++ text) = none := by
  cases hread : readLiteral literal (front ++ text) with
  | none => rfl
  | some rest =>
    refine absurd (List.prefix_of_prefix_length_le ?_ (List.prefix_append front text) hlength) h
    rw [eq_append_of_readLiteral hread]
    exact List.prefix_append _ _

theorem takeWhile_append {kind : Char → Bool} {run : List Char} (hrun : ∀ c ∈ run, kind c = true) (text : List Char) (hrest : text.head?.all fun c => !kind c) :
    (run ++ text).takeWhile kind = run ∧ (run ++ text).dropWhile kind = text := by
  rw [List.takeWhile_append_of_pos hrun, List.dropWhile_append_of_pos hrun]
  cases text with
  | nil => exact ⟨List.append_nil run, rfl⟩
  | cons c text =>
    have hc : ¬kind c = true := by simpa using hrest
    rw [List.takeWhile_cons_of_neg hc, List.dropWhile_cons_of_neg hc, List.append_nil]
    exact ⟨rfl, rfl⟩

theorem readRun_append {kind : Char → Bool} {run text : List Char} (hne : run ≠ []) (hrun : ∀ c ∈ run, kind c = true)
    (hrest : text.head?.all fun c => !kind c) : readRun kind (run ++ text) = some (run, text) := by
  unfold readRun
  rw [(takeWhile_append hrun text hrest).1, (takeWhile_append hrun text hrest).2, if_neg hne]

/-- A search goes past letters that no match begins with. -/
theorem search_append {α : Type} {pattern : List Char → Option α} {first : Char} (hfirst : ∀ c text, c ≠ first → pattern (c :: text) = none)
    {front : List Char} (hfront : first ∉ front) (text : List Char) : search pattern (front ++ text) = search pattern text := by
  induction front with
  | nil => rfl
  | cons c front ih =>
    rw [List.mem_cons, not_or] at hfront
    rw [List.cons_append, search, hfirst c _ (Ne.symm hfront.1), Option.none_or]
    exact ih hfront.2

theorem search_of_match {α : Type} {pattern : List Char → Option α} {text : List Char} {found : α} (h : pattern text = some found) :
    search pattern text = some found := by
  cases text with
  | nil => exact h
  | cons c text => rw [search, h, Option.some_or]

theorem isIn_append {needle : String} {first : Char} (hneedle : needle.toList.head? = some first) {front : List Char} (hfront : first ∉ front)
    (text : List Char) : isIn needle (front ++ text) = isIn needle text := by
  obtain ⟨rest, hrest⟩ := List.head?_eq_some_iff.1 hneedle
  unfold isIn
  rw [hrest]
  induction front with
  | nil => rfl
  | cons c front ih =>
    rw [List.mem_cons, not_or] at hfront
    rw [← ih hfront.2]
    refine decide_eq_decide.2 ?_
    rw [List.cons_append, List.infix_cons_iff]
    refine or_iff_right fun hprefix => hfront.1 ?_
    exact (List.cons_prefix_cons.1 hprefix).1

theorem isIn_prefix {needle : String} (text : List Char) : isIn needle (needle.toList ++ text) = true :=
  decide_eq_true (List.prefix_append _ _).isInfix

theorem readLiteral_first (literal : String) {first c : Char} (hliteral : literal.toList.head? = some first) (h : c ≠ first)
    (text : List Char) : readLiteral literal (c :: text) = none := by
  cases hread : readLiteral literal (c :: text) with
  | none => rfl
  | some after =>
    obtain ⟨rest, hrest⟩ := List.head?_eq_some_iff.1 hliteral
    have heq := eq_append_of_readLiteral hread
    rw [hrest] at heq
    exact absurd (List.cons.inj heq).1 h

/-! ### Details -/

theorem matchBarcode_first (c : Char) (text : List Char) (h : c ≠ 'V') : matchBarcode (c :: text) = none := by
  unfold matchBarcode
  rw [readLiteral_first "VolumeTag" (by decide) h]
  rfl

theorem exists_word (word : Word) : ∃ c rest, word.text.toList = c :: rest ∧ isSpace c = false := by
  cases htext : word.text.toList with
  | nil => exact absurd (String.toList_eq_nil_iff.1 htext) word.ne_empty
  | cons c rest => exact ⟨c, rest, rfl, word.solid c (by rw [htext]; exact List.mem_cons_self)⟩

theorem readRun_word (word : Word) (text : List Char) (h : text.head?.all fun c => !isSolid c) :
    readRun isSolid (word.text.toList ++ text) = some (word.text.toList, text) :=
  readRun_append (fun hnil => word.ne_empty (String.toList_eq_nil_iff.1 hnil)) (fun c hc => by simp [isSolid, word.solid c hc]) h

theorem matchBarcode_tag (before after : Nat) (tag : Word) :
    matchBarcode ("VolumeTag".toList ++ (blanks before ++ '=' :: (blanks after ++ tag.text.toList))) = some tag.text.toList := by
  obtain ⟨c, rest, htext, hc⟩ := exists_word tag
  have hrun := readRun_word tag [] rfl
  unfold matchBarcode
  rw [readLiteral_append, Option.bind_eq_bind, Option.bind_some, dropWhile_blanks before (by decide)]
  have hequals : readLiteral "=" ('=' :: (blanks after ++ tag.text.toList)) = some (blanks after ++ tag.text.toList) :=
    readLiteral_append "=" _
  rw [List.append_nil] at hrun
  rw [hequals, Option.bind_eq_bind, Option.bind_some, htext, dropWhile_blanks after hc, ← htext, hrun]
  rfl

theorem print_eq (style : TagStyle) (tag : Word) :
    style.print tag = [':'] ++ ("VolumeTag".toList ++ (blanks style.beforeEquals ++ '=' :: (blanks style.afterEquals ++ tag.text.toList))) := by
  have hlabel : style.label = [':'] ++ ("VolumeTag".toList ++ (blanks style.beforeEquals ++ '=' :: blanks style.afterEquals)) := rfl
  unfold TagStyle.print
  rw [hlabel, List.append_assoc, List.append_assoc, List.append_assoc, List.cons_append]
  rfl

theorem parseBarcode_print {front : List Char} (hfront : 'V' ∉ front) (style : TagStyle) (tag : Word) :
    parseBarcode (front ++ style.print tag) = some tag.text := by
  unfold parseBarcode
  rw [print_eq, search_append matchBarcode_first hfront, search_append matchBarcode_first (by decide),
    search_of_match (matchBarcode_tag style.beforeEquals style.afterEquals tag), Option.map_some, strip_word]

theorem parseBarcode_none {text : List Char} (h : 'V' ∉ text) : parseBarcode text = none := by
  unfold parseBarcode
  rw [← List.append_nil text, search_append matchBarcode_first h]
  rfl

theorem parseBarcode_elim {front : List Char} (hfront : 'V' ∉ front) (style : TagStyle) (tag : Option Word) :
    parseBarcode (front ++ tag.elim [] style.print) = tag.map Word.text := by
  cases tag with
  | none => exact parseBarcode_none (by simpa using hfront)
  | some tag => exact parseBarcode_print hfront style tag

theorem matchLoadedFrom_first (c : Char) (text : List Char) (h : c ≠ 'S') : matchLoadedFrom (c :: text) = none := by
  unfold matchLoadedFrom
  rw [readLiteral_first "Storage Element " (by decide) h]
  rfl

theorem loadedFrom_known (slotId : Nat) (text : List Char) :
    search matchLoadedFrom ("Full (".toList ++ (ChangerDrive.source (some slotId) ++ (" Loaded)".toList ++ text))) = some (digits slotId) := by
  rw [search_append matchLoadedFrom_first (by decide)]
  refine search_of_match ?_
  unfold ChangerDrive.source matchLoadedFrom
  rw [List.append_assoc, readLiteral_append, Option.bind_eq_bind, Option.bind_some,
    readRun_append (digits_ne_nil slotId) isDecimal_digits (by simp [isDecimal]; decide)]
  have hloaded : readLiteral " Loaded" (" Loaded)".toList ++ text) = some (')' :: text) := readLiteral_append " Loaded" _
  rw [Option.bind_eq_bind, Option.bind_some]
  dsimp only
  rw [hloaded]
  rfl

/-- Nothing is found in a text without blanks. -/
theorem loadedFrom_word (word : Word) : search matchLoadedFrom word.text.toList = none := by
  cases hfound : search matchLoadedFrom word.text.toList with
  | none => rfl
  | some found =>
    obtain ⟨after, hafter, hmatch⟩ := search_eq_some hfound
    unfold matchLoadedFrom at hmatch
    obtain ⟨rest, hread, -⟩ := Option.bind_eq_some_iff.1 hmatch
    have hblank : ' ' ∈ word.text.toList := hafter.subset (by rw [eq_append_of_readLiteral hread]; exact List.mem_append_left _ (by decide))
    exact absurd (word.solid ' ' hblank) (by decide)

theorem not_mem_blanks {n : Nat} {c : Char} (h : c ≠ ' ') : c ∉ blanks n := fun hc => h (List.eq_of_mem_replicate hc)

theorem not_mem_label {c : Char} (h : c ∉ ":VolumeTag= ".toList) (style : TagStyle) : c ∉ style.label := by
  have hblank : c ≠ ' ' := fun heq => h (heq ▸ by decide)
  intro hc
  unfold TagStyle.label at hc
  rcases List.mem_append.1 hc with hc | hc
  · refine h ?_
    show c ∈ ":VolumeTag".toList ++ "= ".toList
    exact List.mem_append_left _ hc
  · rcases List.mem_append.1 hc with hc | hc
    · exact not_mem_blanks hblank hc
    · rcases List.mem_cons.1 hc with hc | hc
      · exact h (hc ▸ by decide)
      · exact not_mem_blanks hblank hc

theorem loadedFrom_unknown (style : TagStyle) (tag : Option Word) :
    search matchLoadedFrom ("Full (".toList ++ (ChangerDrive.source none ++ (" Loaded)".toList ++ tag.elim [] style.print))) = none := by
  have hrest : search matchLoadedFrom (tag.elim [] style.print) = none := by
    cases tag with
    | none => rfl
    | some tag => exact (search_append matchLoadedFrom_first (not_mem_label (by decide) style) _).trans (loadedFrom_word tag)
  rw [search_append matchLoadedFrom_first (by decide)]
  unfold ChangerDrive.source
  show search matchLoadedFrom ("Unknown ".toList ++ ('S' :: ("torage Element Loaded)".toList ++ tag.elim [] style.print))) = none
  rw [search_append matchLoadedFrom_first (by decide), search, search_append matchLoadedFrom_first (by decide), hrest, Option.or_none]
  unfold matchLoadedFrom
  have hread : readLiteral "Storage Element " ('S' :: ("torage Element Loaded)".toList ++ tag.elim [] style.print)) =
      some ("Loaded)".toList ++ tag.elim [] style.print) := readLiteral_append "Storage Element " _
  rw [hread]
  rfl

/-! ### Lines of the status -/

theorem matchHeader_drive (style : TagStyle) (drive : ChangerDrive) : matchHeader (drive.print style) = none := by
  unfold matchHeader ChangerDrive.print
  rw [readLiteral_other (by decide) (by decide)]
  rfl

theorem matchHeader_slot (style : TagStyle) (slot : ChangerElement) : matchHeader (slot.print style) = none := by
  unfold matchHeader ChangerElement.print
  rw [readLiteral_other (by decide) (by decide)]
  rfl

theorem matchDrive_slot (style : TagStyle) (slot : ChangerElement) : matchDrive (slot.print style) = none := by
  unfold matchDrive ChangerElement.print
  show (readLiteral "Data Transfer Element " ('S' :: _) >>= _) = none
  rw [readLiteral_first "Data Transfer Element " rfl (by decide)]
  rfl

theorem print_ne_nil {literal : String} (h : literal.toList ≠ []) (text : List Char) : literal.toList ++ text ≠ [] := by simp [h]

theorem readLine_slot (style : TagStyle) (slot : ChangerElement) :
    readLine (slot.print style) = (intOfDigits (digits slot.slotId)).map fun slotId => some (.slot
      { slotId := slotId, occupied := isIn "Full" (slot.details style), barcode := slot.tag.map Word.text,
        isImportExport := slot.isImportExport }) := by
  have hflags : ∀ c ∈ slot.flags, (!decide (c = ':')) = true := by
    unfold ChangerElement.flags
    split <;> decide
  have hdetails : slot.details style ≠ [] := by
    unfold ChangerElement.details
    split <;> exact print_ne_nil (by decide) _
  have hmatch : matchSlot (slot.print style) = some (digits slot.slotId, slot.flags, slot.details style) := by
    unfold matchSlot ChangerElement.print
    have hdigits : readRun isDecimal (digits slot.slotId ++ (slot.flags ++ ':' :: slot.details style)) =
        some (digits slot.slotId, slot.flags ++ ':' :: slot.details style) :=
      readRun_append (digits_ne_nil _) isDecimal_digits (by unfold ChangerElement.flags; split <;> rfl)
    have hsplit := takeWhile_append hflags (':' :: slot.details style) (by simp)
    have hcolon : readLiteral ":" (':' :: slot.details style) = some (slot.details style) := readLiteral_append ":" _
    rw [readLiteral_append, Option.bind_eq_bind, Option.bind_some, hdigits, Option.bind_eq_bind, Option.bind_some]
    dsimp only
    simp only [ne_eq, decide_not]
    rw [hsplit.1, hsplit.2, hcolon, Option.bind_some, if_neg hdetails]
    rfl
  have hbarcode : parseBarcode (slot.details style) = slot.tag.map Word.text := by
    unfold ChangerElement.details
    split
    · cases slot.tag with
      | none =>
        have hfull : 'V' ∉ "Full".toList ++ [] := by decide
        exact parseBarcode_none hfull
      | some tag =>
        rw [Option.elim_some, ← List.append_assoc]
        refine parseBarcode_print ?_ style tag
        rw [List.mem_append, not_or]
        exact ⟨by decide, not_mem_blanks (by decide)⟩
    · exact parseBarcode_elim (by decide) style slot.tag
  have hexport : isIn "IMPORT/EXPORT" (slot.flags.flatMap upperChar) = slot.isImportExport := by
    unfold ChangerElement.flags
    cases slot.isImportExport <;> decide +kernel
  have hne : slot.print style ≠ [] := print_ne_nil (by decide) _
  unfold readLine
  rw [if_neg hne, matchHeader_slot]
  dsimp only
  rw [matchDrive_slot]
  dsimp only
  rw [hmatch]
  dsimp only
  rw [hbarcode, hexport]
  cases intOfDigits (digits slot.slotId) with
  | error e => rfl
  | ok slotId => rfl

theorem readLine_drive (style : TagStyle) (drive : ChangerDrive) :
    readLine (drive.print style) = (do
      let sourceSlot ← (match drive.content with | .full _ (some slotId) => some (digits slotId) | _ => none).mapM intOfDigits
      let driveId ← intOfDigits (digits drive.driveId)
      pure (some (.drive { drive.info with driveId := driveId, sourceSlot := sourceSlot }))) := by
  have hdetails : ChangerDrive.details style drive.content ≠ [] := by
    cases drive.content with
    | empty => exact List.cons_ne_nil _ _
    | full tag sourceSlot => exact print_ne_nil (by decide) _
  have hmatch : matchDrive (drive.print style) = some (digits drive.driveId, ChangerDrive.details style drive.content) := by
    unfold matchDrive ChangerDrive.print
    have hdigits : readRun isDecimal (digits drive.driveId ++ ':' :: ChangerDrive.details style drive.content) =
        some (digits drive.driveId, ':' :: ChangerDrive.details style drive.content) :=
      readRun_append (digits_ne_nil _) isDecimal_digits (by simp; decide)
    have hcolon : readLiteral ":" (':' :: ChangerDrive.details style drive.content) = some (ChangerDrive.details style drive.content) :=
      readLiteral_append ":" _
    rw [readLiteral_append, Option.bind_eq_bind, Option.bind_some, hdigits, Option.bind_eq_bind, Option.bind_some]
    dsimp only
    rw [hcolon, Option.bind_some, if_neg hdetails]
    rfl
  have hne : drive.print style ≠ [] := print_ne_nil (by decide) _
  unfold readLine
  rw [if_neg hne, matchHeader_drive]
  dsimp only
  rw [hmatch]
  dsimp only
  unfold ChangerDrive.info
  cases hcontent : drive.content with
  | empty =>
    have hloaded : search matchLoadedFrom "Empty".toList = none := by decide
    have hfull : isIn "Full" "Empty".toList = false := by decide
    have hbarcode : parseBarcode "Empty".toList = none := parseBarcode_none (by decide)
    unfold ChangerDrive.details
    dsimp only
    rw [hloaded, hfull, hbarcode]
  | full tag sourceSlot =>
    have hfront : 'V' ∉ "Full (".toList ++ (ChangerDrive.source sourceSlot ++ " Loaded)".toList) := by
      rw [List.mem_append, List.mem_append, not_or, not_or]
      refine ⟨by decide, ?_, by decide⟩
      cases sourceSlot with
      | none => decide
      | some slotId =>
        unfold ChangerDrive.source
        rw [List.mem_append, not_or]
        exact ⟨by decide, not_mem_digits (by decide)⟩
    have hbarcode : parseBarcode (ChangerDrive.details style (.full tag sourceSlot)) = tag.map Word.text := by
      have h := parseBarcode_elim hfront style tag
      rwa [List.append_assoc, List.append_assoc] at h
    have hfull : isIn "Full" (ChangerDrive.details style (.full tag sourceSlot)) = true := by
      exact isIn_prefix (" (".toList ++ (ChangerDrive.source sourceSlot ++ (" Loaded)".toList ++ tag.elim [] style.print)))
    have hloaded : search matchLoadedFrom (ChangerDrive.details style (.full tag sourceSlot)) = sourceSlot.map digits := by
      unfold ChangerDrive.details
      cases sourceSlot with
      | none => exact loadedFrom_unknown style tag
      | some slotId => exact loadedFrom_known slotId _
    rw [hbarcode, hfull, hloaded]
    cases sourceSlot with
    | none => rfl
    | some slotId => rfl

theorem isDecimal_solid {c : Char} (h : isSpace c = false) : isSolid c = true := by simp [isSolid, h]

theorem readLine_header (s : PrintedChanger) :
    readLine s.header = (do
      let driveCount ← intOfDigits (digits s.drives.length)
      let slotCount ← intOfDigits (digits s.elements.length)
      pure (some (.header s.device.text driveCount slotCount))) := by
  have hword : readRun isSolid ((s.device.text.toList ++ ':' :: digits s.drives.length) ++ (" Drives, ".toList ++ (digits s.elements.length ++
      (" Slots ( ".toList ++ (digits (s.elements.filter ChangerElement.isImportExport).length ++ " Import/Export )".toList))))) =
      some (s.device.text.toList ++ ':' :: digits s.drives.length, " Drives, ".toList ++ (digits s.elements.length ++
        (" Slots ( ".toList ++ (digits (s.elements.filter ChangerElement.isImportExport).length ++ " Import/Export )".toList)))) := by
    refine readRun_append (by simp) (fun c hc => ?_) (by simp; decide)
    rcases List.mem_append.1 hc with hc | hc
    · exact isDecimal_solid (s.device.solid c hc)
    · rcases List.mem_cons.1 hc with rfl | hc
      · decide
      · exact isDecimal_solid (isSpace_digits c hc)
  have hmatch : matchHeader s.header = some (s.device.text, digits s.drives.length, digits s.elements.length) := by
    unfold matchHeader PrintedChanger.header
    rw [readLiteral_append, Option.bind_eq_bind, Option.bind_some, hword, Option.bind_eq_bind, Option.bind_some]
    dsimp only
    have hlast : (s.device.text.toList ++ ':' :: digits s.drives.length).reverse =
        (digits s.drives.length).reverse ++ ':' :: s.device.text.toList.reverse := by simp
    have hrun : ∀ c ∈ (digits s.drives.length).reverse, isDecimal c = true := fun c hc => isDecimal_digits c (List.mem_reverse.1 hc)
    have hsplit := takeWhile_append hrun (':' :: s.device.text.toList.reverse) (by simp; decide)
    have hcount : (s.device.text.toList ++ ':' :: digits s.drives.length).rtakeWhile isDecimal = digits s.drives.length := by
      unfold List.rtakeWhile
      rw [hlast, hsplit.1, List.reverse_reverse]
    have hfront : (s.device.text.toList ++ ':' :: digits s.drives.length).rdropWhile isDecimal = s.device.text.toList ++ [':'] := by
      unfold List.rdropWhile
      rw [hlast, hsplit.2, List.reverse_cons, List.reverse_reverse]
    have hdevice : s.device.text.toList ≠ [] := fun hnil => s.device.ne_empty (String.toList_eq_nil_iff.1 hnil)
    rw [hcount, hfront, List.getLast?_concat, List.dropLast_concat, if_neg (by simp [digits_ne_nil, hdevice]), readLiteral_append, Option.bind_some,
      readRun_append (digits_ne_nil _) isDecimal_digits (by simp; decide), Option.bind_some]
    dsimp only
    have hslots (text : List Char) : readLiteral " Slots" (" Slots ( ".toList ++ text) = some (" ( ".toList ++ text) :=
      readLiteral_append " Slots" _
    rw [hslots, String.ofList_toList]
    rfl
  have hne : s.header ≠ [] := print_ne_nil (by decide) _
  unfold readLine
  rw [if_neg hne, hmatch]

/-! ### Blanks around the lines -/

theorem endsSolid_literal {literal : String} (h : literal.toList.getLast?.any fun c => !isSpace c) : EndsSolid literal.toList := by
  rcases List.eq_nil_or_concat literal.toList with hnil | ⟨front, c, hlast⟩
  · rw [hnil] at h
    cases h
  · rw [List.concat_eq_append] at hlast
    rw [hlast, List.getLast?_concat] at h
    exact ⟨front, c, hlast, by simpa using h⟩

theorem endsSolid_tag (style : TagStyle) {front : List Char} (h : EndsSolid front) (tag : Option Word) : EndsSolid (front ++ tag.elim [] style.print) := by
  cases tag with
  | none => simpa using h
  | some tag => exact ((endsSolid_word tag).append style.label).append front

/-- A line is read without the blanks around it. -/
theorem strip_line (before after : Nat) {literal : String} (h : literal.toList.head?.any fun c => !isSpace c) {text : List Char}
    (hend : EndsSolid text) :
    (strip (String.ofList (blanks before ++ (literal.toList ++ text ++ blanks after)))).toList = literal.toList ++ text := by
  cases hliteral : literal.toList with
  | nil =>
    rw [hliteral] at h
    cases h
  | cons c rest =>
    rw [hliteral] at h
    exact strip_padded before after (by simpa using h) (hend.append (c :: rest))

theorem strip_header (p : Printing) (s : PrintedChanger) : (strip (String.ofList (blanks p.indent ++ s.header))).toList = s.header := by
  have hend : EndsSolid " Import/Export )".toList := endsSolid_literal (by decide)
  have hrest := ((((hend.append (digits (s.elements.filter ChangerElement.isImportExport).length)).append " Slots ( ".toList).append
    (digits s.elements.length)).append " Drives, ".toList).append (s.device.text.toList ++ ':' :: digits s.drives.length)
  have hchanger : "Storage Changer ".toList.head?.any fun c => !isSpace c := by decide
  have h := strip_line p.indent 0 hchanger hrest
  simp only [blanks, List.replicate_zero, List.append_nil] at h
  exact h

theorem strip_drive (style : TagStyle) (drive : ChangerDrive) :
    (strip (String.ofList (drive.print style ++ blanks style.padding))).toList = drive.print style := by
  have hend : EndsSolid (ChangerDrive.details style drive.content) := by
    cases drive.content with
    | empty => exact endsSolid_literal (by decide)
    | full tag sourceSlot =>
      have hloaded : EndsSolid " Loaded)".toList := endsSolid_literal (by decide)
      exact ((endsSolid_tag style hloaded tag).append (ChangerDrive.source sourceSlot)).append "Full (".toList
  have hcolon : EndsSolid (':' :: ChangerDrive.details style drive.content) := hend.append [':']
  have hdrive : "Data Transfer Element ".toList.head?.any fun c => !isSpace c := by decide
  exact strip_line 0 style.padding hdrive (hcolon.append (digits drive.driveId))

theorem strip_slot (style : TagStyle) (slot : ChangerElement) :
    (strip (String.ofList (blanks 6 ++ (slot.print style ++ blanks style.padding)))).toList = slot.print style := by
  have hend : EndsSolid (slot.details style) := by
    have hfull : EndsSolid "Full".toList := endsSolid_literal (by decide)
    have hempty : EndsSolid "Empty".toList := endsSolid_literal (by decide)
    unfold ChangerElement.details
    split
    · cases slot.tag with
      | none => exact hfull
      | some tag => exact (((endsSolid_word tag).append style.label).append (blanks style.afterFull)).append "Full".toList
    · exact endsSolid_tag style hempty slot.tag
  have hcolon : EndsSolid (':' :: slot.details style) := hend.append [':']
  have helement : "Storage Element ".toList.head?.any fun c => !isSpace c := by decide
  exact strip_line 6 style.padding helement ((hcolon.append slot.flags).append (digits slot.slotId))

/-- Nothing that is printed ends a line. -/
def OneLine (text : List Char) : Prop := ∀ c ∈ text, isLineBoundary c = false

instance (text : List Char) : Decidable (OneLine text) := inferInstanceAs (Decidable (∀ c ∈ text, _))

theorem OneLine.append {a b : List Char} (ha : OneLine a) (hb : OneLine b) : OneLine (a ++ b) := fun c hc =>
  (List.mem_append.1 hc).elim (ha c) (hb c)

theorem oneLine_solid {text : List Char} (h : ∀ c ∈ text, isSpace c = false) : OneLine text := by
  intro c hc
  rw [← Bool.not_eq_true]
  intro hboundary
  have hspace := h c hc
  rw [isSpace_of_isLineBoundary hboundary] at hspace
  cases hspace

theorem oneLine_digits (n : Nat) : OneLine (digits n) := oneLine_solid isSpace_digits

theorem oneLine_blanks (n : Nat) : OneLine (blanks n) := fun c hc => List.eq_of_mem_replicate hc ▸ by decide

theorem oneLine_tag (style : TagStyle) (tag : Option Word) : OneLine (tag.elim [] style.print) := by
  cases tag with
  | none => exact fun c hc => nomatch hc
  | some tag =>
    have hequals : OneLine ('=' :: blanks style.afterEquals) := .append (a := ['=']) (by decide) (oneLine_blanks _)
    exact (OneLine.append (by decide) ((oneLine_blanks _).append hequals)).append (oneLine_solid tag.solid)

theorem oneLine_header (s : PrintedChanger) : OneLine s.header := by
  have hword : OneLine (s.device.text.toList ++ ':' :: digits s.drives.length) :=
    (oneLine_solid s.device.solid).append (.append (a := [':']) (by decide) (oneLine_digits _))
  unfold PrintedChanger.header
  refine .append (by decide) (hword.append (.append (by decide) ((oneLine_digits _).append ?_)))
  exact .append (by decide) ((oneLine_digits _).append (by decide))

theorem oneLine_drive (style : TagStyle) (drive : ChangerDrive) : OneLine (drive.print style) := by
  unfold ChangerDrive.print
  refine .append (by decide) ((oneLine_digits _).append (.append (a := [':']) (by decide) ?_))
  cases drive.content with
  | empty => exact (by decide : OneLine "Empty".toList)
  | full tag sourceSlot =>
    refine .append (a := "Full (".toList) (by decide) (.append ?_ (.append (by decide) (oneLine_tag style tag)))
    cases sourceSlot with
    | none => exact (by decide : OneLine "Unknown Storage Element".toList)
    | some slotId => exact .append (by decide) (oneLine_digits slotId)

theorem oneLine_slot (style : TagStyle) (slot : ChangerElement) : OneLine (slot.print style) := by
  have hflags : OneLine slot.flags := by
    unfold OneLine ChangerElement.flags
    split <;> decide
  unfold ChangerElement.print
  refine .append (by decide) ((oneLine_digits _).append (hflags.append (.append (a := [':']) (by decide) ?_)))
  split
  · refine .append (by decide) ?_
    cases hslot : slot.tag with
    | none => exact fun c hc => nomatch hc
    | some tag => exact (oneLine_blanks _).append (oneLine_tag style (some tag))
  · exact .append (by decide) (oneLine_tag style slot.tag)

theorem splitlines_render (p : Printing) (s : PrintedChanger) : splitlines (s.render p) = s.lines p := by
  refine splitlines_lines fun line hline => ?_
  rcases List.mem_cons.1 hline with rfl | hline
  · exact (oneLine_blanks _).append (oneLine_header s)
  · rcases List.mem_append.1 hline with hline | hline
    · obtain ⟨drive, -, rfl⟩ := List.mem_map.1 hline
      exact (oneLine_drive _ drive).append (oneLine_blanks _)
    · obtain ⟨slot, -, rfl⟩ := List.mem_map.1 hline
      exact (oneLine_blanks _).append ((oneLine_slot _ slot).append (oneLine_blanks _))

/-! ### The whole status -/

/-- The step of the loop of `parse_mtx_status`. -/
def stepLine (status : MtxStatus) (raw : List Char) : Except Exn MtxStatus := do
  match ← readLine (strip (String.ofList raw)).toList with
  | some said => pure (status.record said)
  | none => pure status

theorem parseMtxStatus_eq (output : String) : parseMtxStatus output = (splitlines output).foldlM stepLine {} := rfl

theorem foldlM_stepLine {lines : List (List Char)} {saids : List MtxLine}
    (h : List.Forall₂ (fun line said => readLine (strip (String.ofList line)).toList = .ok (some said)) lines saids) (status : MtxStatus) :
    lines.foldlM stepLine status = .ok (saids.foldl MtxStatus.record status) := by
  induction h generalizing status with
  | nil => rfl
  | cons hline hrest ih =>
    rw [List.foldlM_cons, stepLine, hline]
    exact ih _

theorem readLine_of_foldlM {lines : List (List Char)} {status final : MtxStatus} (h : lines.foldlM stepLine status = .ok final) :
    ∀ line ∈ lines, ∃ said, readLine (strip (String.ofList line)).toList = .ok said := by
  induction lines generalizing status with
  | nil => exact fun line hline => nomatch hline
  | cons first lines ih =>
    rw [List.foldlM_cons] at h
    obtain ⟨next, hstep, hrest⟩ := bind_eq_ok.1 h
    intro line hline
    rcases List.mem_cons.1 hline with rfl | hline
    · obtain ⟨said, hsaid, -⟩ := bind_eq_ok.1 hstep
      exact ⟨said, hsaid⟩
    · exact ih hrest line hline

theorem foldl_drives (drives : List MtxDriveInfo) (status : MtxStatus) :
    (drives.map MtxLine.drive).foldl MtxStatus.record status = { status with drives := status.drives ++ drives } := by
  induction drives generalizing status with
  | nil => simp
  | cons drive drives ih =>
    rw [List.map_cons, List.foldl_cons, ih]
    simp [MtxStatus.record]

theorem foldl_slots (slots : List MtxSlotInfo) (status : MtxStatus) :
    (slots.map MtxLine.slot).foldl MtxStatus.record status =
      { status with
        slots := status.slots ++ slots.filter fun slot => !slot.isImportExport
        importExportSlots := status.importExportSlots ++ slots.filter MtxSlotInfo.isImportExport } := by
  induction slots generalizing status with
  | nil => simp
  | cons slot slots ih =>
    rw [List.map_cons, List.foldl_cons, ih]
    cases hslot : slot.isImportExport <;> simp [MtxStatus.record, hslot]

/-- What is read of an element: the word "Full" is looked for in its volume tag too. -/
def readInfo (style : TagStyle) (slot : ChangerElement) : MtxSlotInfo := { slot.info with occupied := isIn "Full" (slot.details style) }

theorem readInfo_eq_iff (style : TagStyle) (slot : ChangerElement) :
    readInfo style slot = slot.info ↔ (slot.occupied = false → ∀ tag ∈ slot.tag, isIn "Full" tag.text.toList = false) := by
  have hread : readInfo style slot = slot.info ↔ isIn "Full" (slot.details style) = slot.occupied := by
    unfold readInfo ChangerElement.info
    rw [MtxSlotInfo.mk.injEq]
    exact ⟨fun h => h.2.1, fun h => ⟨rfl, h, rfl, rfl⟩⟩
  rw [hread]
  unfold ChangerElement.details
  cases slot.occupied with
  | true =>
    refine iff_of_true ?_ (fun h => nomatch h)
    rw [if_pos rfl]
    exact isIn_prefix _
  | false =>
    have hfirst : "Full".toList.head? = some 'F' := rfl
    rw [if_neg (by decide), isIn_append hfirst (by decide)]
    cases slot.tag with
    | none =>
      have hnil : isIn "Full" [] = false := by decide
      exact iff_of_true hnil fun _ tag htag => nomatch htag
    | some tag =>
      rw [Option.elim_some, TagStyle.print,
        isIn_append hfirst (not_mem_label (by decide) style)]
      simp

/-- What the lines say, where every number is read. -/
def said (p : Printing) (s : PrintedChanger) : List MtxLine :=
  .header s.device.text s.drives.length s.elements.length ::
    ((s.drives.map ChangerDrive.info).map .drive ++ (s.elements.map fun slot => readInfo (p.slot slot.slotId) slot).map .slot)

theorem mem_numbers_drive {s : PrintedChanger} {drive : ChangerDrive} (h : drive ∈ s.drives) : drive.driveId ∈ s.numbers :=
  .tail _ (.tail _ (List.mem_append_left _ (List.mem_flatMap.2 ⟨drive, h, List.mem_cons_self⟩)))

theorem mem_numbers_source {s : PrintedChanger} {drive : ChangerDrive} (h : drive ∈ s.drives) {tag : Option Word} {slotId : Nat}
    (hcontent : drive.content = .full tag (some slotId)) : slotId ∈ s.numbers := by
  refine .tail _ (.tail _ (List.mem_append_left _ (List.mem_flatMap.2 ⟨drive, h, ?_⟩)))
  rw [hcontent]
  exact .tail _ List.mem_cons_self

theorem mem_numbers_slot {s : PrintedChanger} {slot : ChangerElement} (h : slot ∈ s.elements) : slot.slotId ∈ s.numbers :=
  .tail _ (.tail _ (List.mem_append_right _ (List.mem_map_of_mem h)))

theorem lines_said (p : Printing) {s : PrintedChanger} (h : ∀ n ∈ s.numbers, (digits n).length ≤ 4300) :
    List.Forall₂ (fun line said => readLine (strip (String.ofList line)).toList = .ok (some said)) (s.lines p) (said p s) := by
  have hread {n : Nat} (hn : n ∈ s.numbers) : intOfDigits (digits n) = .ok n := intOfDigits_ok_iff.2 ⟨h n hn, rfl⟩
  refine .cons ?_ (List.rel_append ?_ ?_)
  · rw [strip_header, readLine_header, hread List.mem_cons_self, hread (.tail _ List.mem_cons_self)]
    rfl
  · rw [List.map_map, List.forall₂_map_left_iff, List.forall₂_map_right_iff, List.forall₂_same]
    intro drive hdrive
    rw [strip_drive, readLine_drive, hread (mem_numbers_drive hdrive)]
    unfold Function.comp ChangerDrive.info
    cases hcontent : drive.content with
    | empty => rfl
    | full tag sourceSlot =>
      cases sourceSlot with
      | none => rfl
      | some slotId =>
        have hsource : (some (digits slotId)).mapM intOfDigits = .ok (some slotId) := by
          rw [Option.mapM_some, hread (mem_numbers_source hdrive hcontent)]
          rfl
        dsimp only
        rw [hsource]
        rfl
  · rw [List.map_map, List.forall₂_map_left_iff, List.forall₂_map_right_iff, List.forall₂_same]
    intro slot hslot
    rw [strip_slot, readLine_slot, hread (mem_numbers_slot hslot)]
    rfl

/-- A number that is too long is not read. -/
theorem readable_of_parse (p : Printing) {s : PrintedChanger} {status : MtxStatus} (h : parseMtxStatus (s.render p) = .ok status) :
    ∀ n ∈ s.numbers, (digits n).length ≤ 4300 := by
  rw [parseMtxStatus_eq, splitlines_render] at h
  have hlines := readLine_of_foldlM h
  have hshort {n m : Nat} (h : intOfDigits (digits n) = .ok m) : (digits n).length ≤ 4300 := (intOfDigits_ok_iff.1 h).1
  have hheader := hlines _ List.mem_cons_self
  rw [strip_header, readLine_header] at hheader
  obtain ⟨_, hheader⟩ := hheader
  obtain ⟨_, hdrives, hheader⟩ := bind_eq_ok.1 hheader
  obtain ⟨_, hslots, -⟩ := bind_eq_ok.1 hheader
  intro n hn
  rcases List.mem_cons.1 hn with rfl | hn
  · exact hshort hdrives
  · rcases List.mem_cons.1 hn with rfl | hn
    · exact hshort hslots
    · rcases List.mem_append.1 hn with hn | hn
      · obtain ⟨drive, hdrive, hn⟩ := List.mem_flatMap.1 hn
        obtain ⟨_, hline⟩ := hlines _ (.tail _ (List.mem_append_left _ (List.mem_map_of_mem hdrive)))
        rw [strip_drive, readLine_drive] at hline
        obtain ⟨_, hsource, hline⟩ := bind_eq_ok.1 hline
        obtain ⟨_, hid, -⟩ := bind_eq_ok.1 hline
        rcases List.mem_cons.1 hn with rfl | hn
        · exact hshort hid
        · cases hcontent : drive.content with
          | empty =>
            rw [hcontent] at hn
            cases hn
          | full tag sourceSlot =>
            rw [hcontent] at hn hsource
            cases sourceSlot with
            | none => cases hn
            | some slotId =>
              obtain rfl := List.mem_singleton.1 hn
              obtain ⟨_, hslotId, -⟩ := bind_eq_ok.1 hsource
              exact hshort hslotId
      · obtain ⟨slot, hslot, rfl⟩ := List.mem_map.1 hn
        obtain ⟨_, hline⟩ := hlines _ (.tail _ (List.mem_append_right _ (List.mem_map_of_mem hslot)))
        rw [strip_slot, readLine_slot] at hline
        cases hid : intOfDigits (digits slot.slotId) with
        | ok slotId => exact hshort hid
        | error e =>
          rw [hid] at hline
          cases hline

theorem foldl_said (p : Printing) (s : PrintedChanger) :
    (said p s).foldl MtxStatus.record {} =
      { s.status with
        slots := (s.elements.filter fun slot => !slot.isImportExport).map fun slot => readInfo (p.slot slot.slotId) slot
        importExportSlots := (s.elements.filter ChangerElement.isImportExport).map fun slot => readInfo (p.slot slot.slotId) slot } := by
  unfold said PrintedChanger.status
  rw [List.foldl_cons, List.foldl_append, foldl_drives, foldl_slots, List.filter_map, List.filter_map]
  rfl

/-- What is read is the changer itself when what is read of each element is the element. -/
theorem foldl_said_iff (p : Printing) (s : PrintedChanger) :
    (said p s).foldl MtxStatus.record {} = s.status ↔ ∀ slot ∈ s.elements, readInfo (p.slot slot.slotId) slot = slot.info := by
  rw [foldl_said]
  constructor
  · intro h slot hslot
    cases hexport : slot.isImportExport with
    | true => exact List.map_inj_left.1 (congrArg MtxStatus.importExportSlots h) slot (List.mem_filter.2 ⟨hslot, hexport⟩)
    | false => exact List.map_inj_left.1 (congrArg MtxStatus.slots h) slot (List.mem_filter.2 ⟨hslot, by rw [hexport]; rfl⟩)
  · intro h
    rw [List.map_congr_left fun slot hslot => h slot (List.mem_filter.1 hslot).1,
      List.map_congr_left fun slot hslot => h slot (List.mem_filter.1 hslot).1]
    rfl

end RoundTripAux

open RoundTripAux in
/-- Whatever a changer has, in whatever form its volume tags are printed: the status that is read is the changer that was printed,
exactly if every number is short enough to be read and no empty storage element shows a tag with the word "Full" in it. -/
theorem parse_render_iff (p : Printing) (s : PrintedChanger) :
    parseMtxStatus (s.render p) = .ok s.status ↔ (∀ n ∈ s.numbers, (digits n).length ≤ 4300) ∧
      ∀ slot ∈ s.elements, slot.occupied = false → ∀ tag ∈ slot.tag, isIn "Full" tag.text.toList = false := by
  have hparse (h : ∀ n ∈ s.numbers, (digits n).length ≤ 4300) :
      parseMtxStatus (s.render p) = .ok ((said p s).foldl MtxStatus.record {}) := by
    rw [parseMtxStatus_eq, splitlines_render]
    exact foldlM_stepLine (lines_said p h) {}
  constructor
  · intro h
    have hnumbers := readable_of_parse p h
    refine ⟨hnumbers, fun slot hslot => ?_⟩
    rw [hparse hnumbers] at h
    exact (readInfo_eq_iff _ slot).1 ((foldl_said_iff p s).1 (Except.ok.inj h) slot hslot)
  · rintro ⟨hnumbers, htags⟩
    rw [hparse hnumbers]
    exact congrArg Except.ok ((foldl_said_iff p s).2 fun slot hslot => (readInfo_eq_iff _ slot).2 (htags slot hslot))

/-- A changer whose one storage slot is empty and still shows the volume tag of the cartridge that was in it. -/
def staleTagChanger : PrintedChanger where
  device := { text := "/dev/sg3", ne_empty := by decide, solid := by decide }
  drives := [{ driveId := 0, content := .empty }]
  elements := [{ slotId := 1, occupied := false, tag := some { text := "Full001", ne_empty := by decide, solid := by decide }, isImportExport := false }]

/-- The empty slot is read as a full one. -/
theorem stale_tag_misread :
    parseMtxStatus (staleTagChanger.render { indent := 2, drive := fun _ => {}, slot := fun _ => {} }) ≠ .ok staleTagChanger.status := by
  decide +kernel

end OpenBlade
