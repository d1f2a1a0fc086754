import Mathlib
import OpenBlade.Codec.Digits
import OpenBlade.Codec.Json

/-!
# The text of a JSON value

`json.dumps` with its default separators. A string is written with its quotes and backslashes escaped, so that the text of an object
holds `"name": true` only where the object has such a field: no string a field holds can write one.
-/

namespace Codec

/-- `\u` and four digits. -/
def unicodeEscape (code : Nat) : List Char := '\\' :: 'u' :: numeral 16 4 code

/-- A character of a string; `ascii` is `ensure_ascii`. -/
def escapeChar (ascii : Bool) (c : Char) : List Char :=
  if c = '"' then ['\\', '"']
  else if c = '\\' then ['\\', '\\']
  else if c = '\n' then ['\\', 'n']
  else if c = '\r' then ['\\', 'r']
  else if c = '\t' then ['\\', 't']
  else if c.toNat = 8 then ['\\', 'b']
  else if c.toNat = 12 then ['\\', 'f']
  else if c.toNat < 32 then unicodeEscape c.toNat
  else if ascii ∧ 65535 < c.toNat then
    unicodeEscape (0xD800 + (c.toNat - 65536) / 1024) ++ unicodeEscape (0xDC00 + (c.toNat - 65536) % 1024)
  else if ascii ∧ 126 < c.toNat then unicodeEscape c.toNat
  else [c]

def quoted (ascii : Bool) (s : String) : List Char := '"' :: s.toList.flatMap (escapeChar ascii) ++ ['"']

mutual

/-- The letters of `json.dumps(value)`. -/
def dumpsChars (ascii : Bool) : Json → List Char
  | .null => "null".toList
  | .bool b => if b then "true".toList else "false".toList
  | .int i => (toString i).toList
  | .str s => quoted ascii s
  | .arr items => '[' :: (dumpsItems ascii items ++ [']'])
  | .obj fields => '\x7b' :: (dumpsFields ascii fields ++ ['\x7d'])

def dumpsItems (ascii : Bool) : List Json → List Char
  | [] => []
  | [item] => dumpsChars ascii item
  | item :: next :: items => dumpsChars ascii item ++ ", ".toList ++ dumpsItems ascii (next :: items)

def dumpsFields (ascii : Bool) : List (String × Json) → List Char
  | [] => []
  | [(key, value)] => quoted ascii key ++ ": ".toList ++ dumpsChars ascii value
  | (key, value) :: field :: fields =>
    quoted ascii key ++ ": ".toList ++ dumpsChars ascii value ++ ", ".toList ++ dumpsFields ascii (field :: fields)

end

/-- `json.dumps(value, ensure_ascii=ascii)`. -/
def dumps (ascii : Bool) (value : Json) : String := String.ofList (dumpsChars ascii value)

example : dumps false (.obj [("executed", .bool true), ("tapes", .arr [.str "a\"b", .int 3])]) =
    "\x7b\"executed\": true, \"tapes\": [\"a\\\"b\", 3]\x7d" := by decide +kernel

/-! ### Where a field may be found -/

/-- How the text of an object shows that the field `name` is true. -/
def trueField (name : List Char) : List Char := '"' :: (name ++ "\": true".toList)

/-- The text has no whole `m` in it, and what it ends with of the beginnings of `m` has `P`. -/
structure Safe (m text : List Char) (P : Nat → Prop) : Prop where
  free : ¬m <:+: text
  alive : ∀ i, 0 < i → m.take i <:+ text → i ≤ m.length → P i

namespace Safe

variable {m text : List Char} {P Q : Nat → Prop} {c : Char}

theorem mono (h : Safe m text P) (hPQ : ∀ i, P i → Q i) : Safe m text Q :=
  ⟨h.free, fun i hi hsuffix hlen => hPQ i (h.alive i hi hsuffix hlen)⟩

/-- One more letter carries on what was begun, or begins. -/
theorem step (h : Safe m text P) (hm : m ≠ []) (hstep : ∀ i, i = 0 ∨ P i → m[i]? = some c → i + 1 ≠ m.length ∧ Q (i + 1)) :
    Safe m (text ++ [c]) Q := by
  have hlast : ∀ i, 0 < i → m.take i <:+ text ++ [c] → i ≤ m.length → i ≠ m.length ∧ Q i := by
    intro i hi hsuffix hlen
    obtain ⟨j, rfl⟩ := Nat.exists_eq_succ_of_ne_zero (Nat.pos_iff_ne_zero.1 hi)
    have hj : j < m.length := hlen
    rw [List.take_succ_eq_append_getElem hj] at hsuffix
    obtain ⟨before, hbefore⟩ := hsuffix
    rw [← List.append_assoc] at hbefore
    obtain ⟨htext, hc⟩ := List.append_inj' hbefore rfl
    have hget : m[j]? = some c := by
      rw [List.getElem?_eq_getElem hj]
      exact congrArg some (List.singleton_inj.1 hc)
    refine hstep j ?_ hget
    rcases Nat.eq_zero_or_pos j with hzero | hpos
    · exact .inl hzero
    · exact .inr (h.alive j hpos ⟨before, htext⟩ (Nat.le_of_lt hj))
  refine ⟨fun hin => ?_, fun i hi hsuffix hlen => (hlast i hi hsuffix hlen).2⟩
  rcases List.infix_concat_iff.1 hin with hsuffix | hin
  · have hwhole := hlast m.length (List.length_pos_iff.2 hm) (by rwa [List.take_length]) (Nat.le_refl _)
    exact hwhole.1 rfl
  · exact h.free hin

/-- Letter by letter. -/
theorem append {cs : List Char} (h : Safe m text P) (hstep : ∀ c ∈ cs, ∀ text, Safe m text P → Safe m (text ++ [c]) P) :
    Safe m (text ++ cs) P := by
  induction cs generalizing text with
  | nil => simpa using h
  | cons c cs ih =>
    rw [List.append_cons]
    exact ih (hstep c List.mem_cons_self text h) fun d hd => hstep d (List.mem_cons_of_mem _ hd)

end Safe

/-- Letters only, and at least one. -/
structure IsWord (word : List Char) : Prop where
  nonempty : word ≠ []
  letters : ∀ c ∈ word, c.isAlpha = true

instance (word : List Char) : Decidable (IsWord word) :=
  have : Decidable (∀ c ∈ word, c.isAlpha = true) := List.decidableBAll _ _
  decidable_of_iff (word ≠ [] ∧ ∀ c ∈ word, c.isAlpha = true) ⟨fun h => ⟨h.1, h.2⟩, fun h => ⟨h.nonempty, h.letters⟩⟩

/-- A flag, a text or a list of texts. -/
def Json.isFlat : Json → Bool
  | .bool _ | .str _ => true
  | .arr items => items.all fun item => match item with | .str _ => true | _ => false
  | _ => false

/-- A flat list is one of texts. -/
theorem Json.exists_strings {items : List Json} (h : (Json.arr items).isFlat = true) :
    ∃ strings : List String, items = strings.map Json.str := by
  induction items with
  | nil => exact ⟨[], rfl⟩
  | cons item items ih =>
    simp only [isFlat, List.all_cons, Bool.and_eq_true] at h
    obtain ⟨strings, rfl⟩ := ih h.2
    cases item with
    | str s => exact ⟨s :: strings, rfl⟩
    | _ => cases h.1

namespace JsonTextAux

variable {name text : List Char} {c : Char} {i : Nat}

theorem trueField_ne_nil : trueField name ≠ [] := List.cons_ne_nil _ _

theorem length_trueField : (trueField name).length = name.length + 8 := by
  simp [trueField]

theorem trueField_zero : (trueField name)[0]? = some '"' := rfl

/-- Past the quote, the letters of the name. -/
theorem trueField_name (hi : i < name.length) : (trueField name)[i + 1]? = name[i]? := by
  simp only [trueField, List.getElem?_cons_succ]
  exact List.getElem?_append_left hi

/-- Past the name, what closes it and what follows. -/
theorem trueField_tail (name : List Char) (k : Nat) : (trueField name)[name.length + 1 + k]? = "\": true".toList[k]? := by
  have hindex : name.length + 1 + k = (name.length + k) + 1 := by omega
  simp only [trueField, hindex, List.getElem?_cons_succ]
  rw [List.getElem?_append_right (Nat.le_add_right _ _), Nat.add_sub_cancel_left]

theorem not_alpha_quote : '"'.isAlpha = false := by decide

/-- A letter of the name is a letter. -/
theorem isAlpha_of_name (hname : IsWord name) (hi : i < name.length) (hget : (trueField name)[i + 1]? = some c) :
    c.isAlpha = true := by
  rw [trueField_name hi] at hget
  exact hname.letters c (List.mem_of_getElem? hget)

/-- Where the field has a quote. -/
theorem quote_at (hname : IsWord name) (hi : i ≤ name.length + 1) (hget : (trueField name)[i]? = some '"') :
    i = 0 ∨ i = name.length + 1 := by
  rcases Nat.eq_zero_or_pos i with hzero | hpos
  · exact .inl hzero
  · obtain ⟨j, rfl⟩ := Nat.exists_eq_succ_of_ne_zero (Nat.pos_iff_ne_zero.1 hpos)
    rcases Nat.lt_or_ge j name.length with hj | hj
    · have halpha := isAlpha_of_name hname hj hget
      rw [not_alpha_quote] at halpha
      cases halpha
    · exact .inr (by omega)

/-- Nothing of the field is begun. -/
def Out (_ : Nat) : Prop := False

/-- What may be begun within a string. -/
def Inside (name : List Char) (i : Nat) : Prop := i ≤ name.length + 1

/-- What may be begun when a string has been closed. -/
def Closed (name : List Char) (i : Nat) : Prop := i = 1 ∨ i = name.length + 2

/-- A letter that is no quote begins nothing. -/
theorem out_step (h : Safe (trueField name) text Out) (hc : c ≠ '"') : Safe (trueField name) (text ++ [c]) Out := by
  refine h.step trueField_ne_nil fun i hi hget => ?_
  rcases hi with rfl | hi
  · exact absurd (Option.some_inj.1 (trueField_zero.symm.trans hget)).symm hc
  · exact hi.elim

theorem out_append (cs : List Char) (h : Safe (trueField name) text Out) (hcs : '"' ∉ cs) :
    Safe (trueField name) (text ++ cs) Out := by
  refine h.append fun c hc text h => out_step h ?_
  rintro rfl
  exact hcs hc

/-- A quote begins the field, where none of its letters are expected. -/
theorem open_step {P : Nat → Prop} (h : Safe (trueField name) text P) (hP : ∀ i, P i → (trueField name)[i]? ≠ some '"') :
    Safe (trueField name) (text ++ ['"']) fun i => i = 1 := by
  refine h.step trueField_ne_nil fun i hi hget => ?_
  rcases hi with rfl | hi
  · refine ⟨?_, rfl⟩
    rw [length_trueField]
    omega
  · exact absurd hget (hP i hi)

/-- Within a string, what is no quote stays within the name. -/
theorem inside_step (h : Safe (trueField name) text (Inside name)) (hc : c ≠ '"') :
    Safe (trueField name) (text ++ [c]) (Inside name) := by
  refine h.step trueField_ne_nil fun i hi hget => ?_
  have hle : i ≤ name.length := by
    rcases hi with rfl | hi
    · exact Nat.zero_le _
    · refine Nat.lt_succ_iff.1 (Nat.lt_of_le_of_ne hi ?_)
      rintro rfl
      have hquote := trueField_tail name 0
      exact hc (Option.some_inj.1 (hget.symm.trans hquote))
  refine ⟨?_, Nat.succ_le_succ hle⟩
  rw [length_trueField]
  omega

/-- After a backslash nothing is begun. -/
theorem escape_step (hname : IsWord name) (h : Safe (trueField name) text (Inside name)) :
    Safe (trueField name) (text ++ ['\\']) Out := by
  refine h.step trueField_ne_nil fun i hi hget => ?_
  have hle : i ≤ name.length + 1 := by
    rcases hi with rfl | hi
    · exact Nat.zero_le _
    · exact hi
  cases i with
  | zero => cases hget
  | succ j =>
    rcases Nat.lt_or_ge j name.length with hj | hj
    · have halpha := isAlpha_of_name hname hj hget
      cases halpha
    · obtain rfl : j = name.length := by omega
      have hquote := trueField_tail name 0
      cases hget.symm.trans hquote

theorem digitChar_ne_quote : ∀ d < 16, digitChar d ≠ '"' := by decide

theorem quote_not_mem_unicodeEscape (code : Nat) : '"' ∉ unicodeEscape code := by
  intro hmem
  simp only [unicodeEscape, List.mem_cons, numeral, List.mem_map] at hmem
  rcases hmem with h | h | ⟨d, hd, h⟩
  · cases h
  · cases h
  · exact digitChar_ne_quote d (lt_of_mem_toDigits (by decide) hd) h

/-- A character is written with an escaped quote, or without one. -/
theorem escapeChar_quote (ascii : Bool) (c : Char) : escapeChar ascii c = ['\\', '"'] ∨ '"' ∉ escapeChar ascii c := by
  unfold escapeChar
  by_cases hquote : c = '"'
  · exact .inl (if_pos hquote)
  rw [if_neg hquote]
  refine .inr ?_
  split
  · decide
  split
  · decide
  split
  · decide
  split
  · decide
  split
  · decide
  split
  · decide
  split
  · exact quote_not_mem_unicodeEscape _
  split
  · rw [List.mem_append, not_or]
    exact ⟨quote_not_mem_unicodeEscape _, quote_not_mem_unicodeEscape _⟩
  split
  · exact quote_not_mem_unicodeEscape _
  · exact fun h => hquote (List.mem_singleton.1 h).symm

theorem inside_of_opened (h : Safe (trueField name) text fun i => i = 1) : Safe (trueField name) text (Inside name) := by
  refine h.mono fun i hi => ?_
  unfold Inside
  omega

/-- A character of a string keeps the text within the string. -/
theorem inside_escapeChar (ascii : Bool) (hname : IsWord name) (h : Safe (trueField name) text (Inside name)) (c : Char) :
    Safe (trueField name) (text ++ escapeChar ascii c) (Inside name) := by
  rcases escapeChar_quote ascii c with heq | hnot
  · rw [heq, List.append_cons]
    refine inside_of_opened (open_step (escape_step hname h) ?_)
    exact fun _ h => h.elim
  · refine h.append fun d hd text h => inside_step h ?_
    rintro rfl
    exact hnot hd

theorem inside_escaped (ascii : Bool) (hname : IsWord name) (h : Safe (trueField name) text (Inside name)) (s : List Char) :
    Safe (trueField name) (text ++ s.flatMap (escapeChar ascii)) (Inside name) := by
  induction s generalizing text with
  | nil => simpa using h
  | cons c s ih =>
    rw [List.flatMap_cons, ← List.append_assoc]
    exact ih (inside_escapeChar ascii hname h c)

/-- A string is closed. -/
theorem close_step (hname : IsWord name) (h : Safe (trueField name) text (Inside name)) :
    Safe (trueField name) (text ++ ['"']) (Closed name) := by
  refine h.step trueField_ne_nil fun i hi hget => ?_
  have hle : i ≤ name.length + 1 := by
    rcases hi with rfl | hi
    · exact Nat.zero_le _
    · exact hi
  rw [length_trueField]
  unfold Closed
  rcases quote_at hname hle hget with rfl | rfl
  · exact ⟨by omega, .inl rfl⟩
  · exact ⟨by omega, .inr rfl⟩

/-- A whole string, where no quote was expected. -/
theorem closed_quoted (ascii : Bool) {P : Nat → Prop} (hname : IsWord name) (h : Safe (trueField name) text P)
    (hP : ∀ i, P i → (trueField name)[i]? ≠ some '"') (s : String) :
    Safe (trueField name) (text ++ quoted ascii s) (Closed name) := by
  have hinside := inside_escaped ascii hname (inside_of_opened (open_step h hP)) s.toList
  have hclosed := close_step hname hinside
  simpa [quoted] using hclosed

/-- What follows a string that is no key. -/
theorem after_closed (hname : IsWord name) (h : Safe (trueField name) text (Closed name)) (hc : c ∈ [',', ']', '\x7d']) :
    Safe (trueField name) (text ++ [c]) Out := by
  have hnot : c ≠ '"' ∧ c.isAlpha = false ∧ c ≠ ':' := by
    simp only [List.mem_cons, List.not_mem_nil, or_false] at hc
    rcases hc with rfl | rfl | rfl <;> decide
  refine h.step trueField_ne_nil fun i hi hget => ?_
  rcases hi with rfl | rfl | rfl
  · exact absurd (Option.some_inj.1 (trueField_zero.symm.trans hget)).symm hnot.1
  · have halpha := isAlpha_of_name hname (List.length_pos_iff.2 hname.nonempty) hget
    rw [hnot.2.1] at halpha
    cases halpha
  · have hcolon := trueField_tail name 1
    exact absurd (Option.some_inj.1 (hget.symm.trans hcolon)) hnot.2.2

theorem closed_of_out (h : Safe (trueField name) text Out) : Safe (trueField name) text (Closed name) := h.mono fun _ h => h.elim

/-- A comma and a space. -/
theorem out_separator (hname : IsWord name) (h : Safe (trueField name) text (Closed name)) :
    Safe (trueField name) (text ++ ", ".toList) Out := by
  have hcomma := after_closed hname h (c := ',') (by decide)
  have hspace := out_step hcomma (c := ' ') (by decide)
  simpa using hspace

/-- The strings of a list. -/
theorem closed_dumpsItems (ascii : Bool) (hname : IsWord name) (items : List String) (h : Safe (trueField name) text Out) :
    Safe (trueField name) (text ++ dumpsItems ascii (items.map Json.str)) (Closed name) := by
  induction items generalizing text with
  | nil => simpa [dumpsItems] using closed_of_out h
  | cons item items ih =>
    have hitem := closed_quoted ascii hname h (fun _ h => h.elim) item
    cases items with
    | nil => simpa [dumpsItems, dumpsChars] using hitem
    | cons next items =>
      have hrest := ih (out_separator hname hitem)
      simpa [dumpsItems, dumpsChars] using hrest

/-- What may be begun after a key: the field, if it has the name. -/
def AfterKey (name key : List Char) (i : Nat) : Prop := i = name.length + 4 ∧ key = name

/-- The letters of a key keep the field begun only as long as they are those of the name. -/
theorem key_letters (hname : IsWord name) (done rest : List Char) (hletters : ∀ c ∈ done ++ rest, c.isAlpha = true)
    (h : Safe (trueField name) text fun i => i = done.length + 1 ∧ done <+: name) :
    Safe (trueField name) (text ++ rest) fun i => i = (done ++ rest).length + 1 ∧ done ++ rest <+: name := by
  induction rest generalizing text done with
  | nil => simpa using h
  | cons c rest ih =>
    have halpha : c.isAlpha = true := hletters c (by simp)
    have hstep : Safe (trueField name) (text ++ [c]) fun i => i = (done ++ [c]).length + 1 ∧ done ++ [c] <+: name := by
      refine h.step trueField_ne_nil fun i hi hget => ?_
      rcases hi with rfl | ⟨rfl, hpre⟩
      · rw [← Option.some_inj.1 (trueField_zero.symm.trans hget)] at halpha
        cases halpha
      · have hlt : done.length < name.length := by
          refine Nat.lt_of_le_of_ne hpre.length_le fun heq => ?_
          have hquote := trueField_tail name 0
          rw [heq] at hget
          rw [← Option.some_inj.1 (hquote.symm.trans hget)] at halpha
          cases halpha
        rw [trueField_name hlt] at hget
        obtain ⟨after, rfl⟩ := hpre
        rw [List.getElem?_append_right (Nat.le_refl _), Nat.sub_self] at hget
        obtain ⟨after, rfl⟩ : ∃ tail, after = c :: tail := by
          cases after with
          | nil => cases hget
          | cons d tail =>
            obtain rfl : d = c := Option.some_inj.1 hget
            exact ⟨tail, rfl⟩
        refine ⟨?_, by simp, after, by simp⟩
        rw [length_trueField]
        simp only [List.length_append, List.length_cons] at *
        omega
    have hrest := ih (done ++ [c]) (by simpa using hletters) hstep
    simpa using hrest

theorem toNat_of_isAlpha (h : c.isAlpha = true) : 65 ≤ c.toNat ∧ c.toNat ≤ 90 ∨ 97 ≤ c.toNat ∧ c.toNat ≤ 122 := by
  simp only [Char.isAlpha, Char.isUpper, Char.isLower, Bool.or_eq_true, decide_eq_true_eq, Bool.and_eq_true] at h
  exact h

/-- A letter is written as it is. -/
theorem escapeChar_letter (ascii : Bool) (h : c.isAlpha = true) : escapeChar ascii c = [c] := by
  have hrange := toNat_of_isAlpha h
  have hne : ∀ d : Char, d.isAlpha = false → c ≠ d := by
    rintro d hd rfl
    rw [h] at hd
    cases hd
  unfold escapeChar
  rw [if_neg (hne _ (by decide)), if_neg (hne _ (by decide)), if_neg (hne _ (by decide)), if_neg (hne _ (by decide)),
    if_neg (hne _ (by decide)), if_neg (by omega), if_neg (by omega), if_neg (by omega), if_neg (by omega), if_neg (by omega)]

theorem escaped_word (ascii : Bool) {word : List Char} (h : ∀ c ∈ word, c.isAlpha = true) : word.flatMap (escapeChar ascii) = word := by
  induction word with
  | nil => rfl
  | cons c word ih =>
    rw [List.flatMap_cons, escapeChar_letter ascii (h c List.mem_cons_self), ih fun d hd => h d (List.mem_cons_of_mem _ hd)]
    rfl

/-- A key, its colon and the space after it. -/
theorem afterKey_quoted (ascii : Bool) (hname : IsWord name) {key : String} (hkey : IsWord key.toList) (h : Safe (trueField name) text Out) :
    Safe (trueField name) (text ++ quoted ascii key ++ ": ".toList) (AfterKey name key.toList) := by
  have hplain := escaped_word ascii hkey.letters
  have hopened : Safe (trueField name) (text ++ ['"']) fun i => i = ([] : List Char).length + 1 ∧ [] <+: name :=
    (open_step h fun _ h => h.elim).mono fun i hi => ⟨by simpa using hi, List.nil_prefix⟩
  have hletters := key_letters hname [] key.toList hkey.letters hopened
  have hclosed : Safe (trueField name) (text ++ ['"'] ++ key.toList ++ ['"']) fun i =>
      i = 1 ∨ i = name.length + 2 ∧ key.toList = name := by
    refine hletters.step trueField_ne_nil fun i hi hget => ?_
    rw [length_trueField]
    rcases hi with rfl | ⟨rfl, hpre⟩
    · exact ⟨by omega, .inl rfl⟩
    · have hle := hpre.length_le
      rcases quote_at hname (Nat.succ_le_succ hle) hget with hzero | hend
      · cases hzero
      · have heq : key.toList = name := hpre.eq_of_length (by simpa using hend)
        exact ⟨by omega, .inr ⟨by simpa using hend, heq⟩⟩
  have hcolon : Safe (trueField name) (text ++ ['"'] ++ key.toList ++ ['"'] ++ [':']) fun i =>
      i = name.length + 3 ∧ key.toList = name := by
    refine hclosed.step trueField_ne_nil fun i hi hget => ?_
    rw [length_trueField]
    rcases hi with rfl | rfl | ⟨rfl, heq⟩
    · cases hget
    · have halpha := isAlpha_of_name hname (List.length_pos_iff.2 hname.nonempty) hget
      cases halpha
    · exact ⟨by omega, rfl, heq⟩
  have hspace : Safe (trueField name) (text ++ ['"'] ++ key.toList ++ ['"'] ++ [':'] ++ [' ']) (AfterKey name key.toList) := by
    refine hcolon.step trueField_ne_nil fun i hi hget => ?_
    rw [length_trueField]
    rcases hi with rfl | ⟨rfl, heq⟩
    · cases hget
    · exact ⟨by omega, rfl, heq⟩
  simpa [quoted, hplain] using hspace

/-- The value after a key, where it does not complete the field. -/
theorem closed_flat (ascii : Bool) (hname : IsWord name) {key : List Char} {value : Json} (hflat : value.isFlat = true)
    (hother : ¬(key = name ∧ value = .bool true)) (h : Safe (trueField name) text (AfterKey name key)) :
    Safe (trueField name) (text ++ dumpsChars ascii value) (Closed name) := by
  have hletter : ∀ c, (c ≠ 't' ∨ key ≠ name) → c ≠ '"' → Safe (trueField name) (text ++ [c]) Out := by
    intro c hc hquote
    refine h.step trueField_ne_nil fun i hi hget => ?_
    rcases hi with rfl | ⟨rfl, heq⟩
    · exact absurd (Option.some_inj.1 (trueField_zero.symm.trans hget)).symm hquote
    · have ht := trueField_tail name 3
      exact (hc.elim (fun hne => hne (Option.some_inj.1 (hget.symm.trans ht))) fun hne => hne heq).elim
  cases value with
  | bool b =>
    cases b with
    | true =>
      have hfirst := hletter 't' (.inr fun heq => hother ⟨heq, rfl⟩) (by decide)
      have hrest := out_append "rue".toList hfirst (by decide)
      exact closed_of_out (by simpa [dumpsChars] using hrest)
    | false =>
      have hfirst := hletter 'f' (.inl (by decide)) (by decide)
      have hrest := out_append "alse".toList hfirst (by decide)
      exact closed_of_out (by simpa [dumpsChars] using hrest)
  | str s =>
    refine closed_quoted ascii hname h (fun i hi hget => ?_) s
    obtain ⟨rfl, -⟩ := hi
    have ht := trueField_tail name 3
    cases hget.symm.trans ht
  | arr items =>
    obtain ⟨strings, rfl⟩ := Json.exists_strings hflat
    have hopen := hletter '[' (.inl (by decide)) (by decide)
    have hitems := closed_dumpsItems ascii hname strings hopen
    have hclose := after_closed hname hitems (c := ']') (by decide)
    exact closed_of_out (by simpa [dumpsChars] using hclose)
  | null => cases hflat
  | int i => cases hflat
  | obj fields => cases hflat

/-- The fields of an object, where none completes the field. -/
theorem closed_dumpsFields (ascii : Bool) (hname : IsWord name) {fields : List (String × Json)}
    (hkeys : ∀ field ∈ fields, IsWord field.1.toList ∧ field.2.isFlat = true)
    (hother : ∀ field ∈ fields, ¬(field.1.toList = name ∧ field.2 = .bool true)) (h : Safe (trueField name) text Out) :
    Safe (trueField name) (text ++ dumpsFields ascii fields) (Closed name) := by
  induction fields generalizing text with
  | nil => simpa [dumpsFields] using closed_of_out h
  | cons field fields ih =>
    obtain ⟨key, value⟩ := field
    obtain ⟨hkey, hflat⟩ := hkeys _ List.mem_cons_self
    have hvalue := closed_flat ascii hname hflat (hother _ List.mem_cons_self)
      (afterKey_quoted ascii hname hkey h)
    cases fields with
    | nil => simpa [dumpsFields] using hvalue
    | cons next fields =>
      have hrest := ih (fun f hf => hkeys f (List.mem_cons_of_mem _ hf)) (fun f hf => hother f (List.mem_cons_of_mem _ hf))
        (out_separator hname hvalue)
      simpa [dumpsFields] using hrest

/-- The field is written where it is true. -/
theorem trueField_infix_dumpsFields (ascii : Bool) (hname : IsWord name) {fields : List (String × Json)} {key : String} (hkey : key.toList = name)
    (h : (key, .bool true) ∈ fields) : trueField name <:+: dumpsFields ascii fields := by
  have hfield : quoted ascii key ++ ": ".toList ++ dumpsChars ascii (.bool true) = trueField name := by
    have hplain := escaped_word ascii hname.letters
    simp [quoted, hkey, hplain, dumpsChars, trueField]
  induction fields with
  | nil => cases h
  | cons field fields ih =>
    obtain ⟨key', value⟩ := field
    cases fields with
    | nil =>
      obtain ⟨rfl, rfl⟩ := Prod.mk.inj (List.mem_singleton.1 h)
      rw [dumpsFields, hfield]
    | cons next fields =>
      rw [dumpsFields]
      rcases List.mem_cons.1 h with heq | hlater
      · obtain ⟨rfl, rfl⟩ := Prod.mk.inj heq
        rw [hfield, List.append_assoc]
        exact List.infix_append' [] _ _
      · exact (ih hlater).trans (List.suffix_append _ _).isInfix

end JsonTextAux

/-- An object shows the fields that are true, whatever else it holds. -/
theorem trueField_infix_of_mem {ascii : Bool} {name : String} {fields : List (String × Json)} (hname : IsWord name.toList)
    (h : (name, .bool true) ∈ fields) : trueField name.toList <:+: dumpsChars ascii (.obj fields) := by
  have hfields := JsonTextAux.trueField_infix_dumpsFields ascii hname rfl h
  rw [dumpsChars]
  exact (hfields.trans (List.prefix_append _ _).isInfix).trans (List.suffix_cons _ _).isInfix

/-- An object of flags, texts and lists of texts shows a true field exactly if it has one. -/
theorem trueField_infix_iff {ascii : Bool} {name : String} {fields : List (String × Json)} (hname : IsWord name.toList)
    (hkeys : ∀ field ∈ fields, IsWord field.1.toList ∧ field.2.isFlat = true) :
    trueField name.toList <:+: dumpsChars ascii (.obj fields) ↔ (name, .bool true) ∈ fields := by
  constructor
  · intro hin
    by_contra hnot
    have hempty : Safe (trueField name.toList) [] JsonTextAux.Out := by
      refine ⟨fun h => ?_, fun i hi h hlen => ?_⟩
      · have hlen := h.length_le
        rw [JsonTextAux.length_trueField] at hlen
        cases hlen
      · have hlen' := h.length_le
        rw [List.length_take, Nat.min_eq_left hlen] at hlen'
        exact absurd hi (Nat.not_lt.2 hlen')
    have hopen := JsonTextAux.out_step hempty (c := '\x7b') (by decide)
    have hfields := JsonTextAux.closed_dumpsFields ascii hname hkeys ?_ hopen
    · have hclose := JsonTextAux.after_closed hname hfields (c := '\x7d') (by decide)
      exact hclose.free (by simpa [dumpsChars] using hin)
    · rintro ⟨key, value⟩ hfield ⟨hkey, hvalue⟩
      obtain rfl : key = name := String.toList_inj.1 hkey
      obtain rfl : value = .bool true := hvalue
      exact hnot hfield
  · exact trueField_infix_of_mem hname

end Codec
