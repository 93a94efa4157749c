import Phrasebook.Proofs.Lexemes

/-!
What a text of parameters stands for, told from the text alone: its stretches between commas, the
stretches without the blanks around them, and keys that end at the first equals sign. The reader of
parameters finds exactly this.
-/

namespace Phrasebook

open Formula

namespace Text

def Trimmed (text : List Char) : Prop := Ends isBlank text ∧ Ends isBlank text.reverse

/-- The text is the word with blanks around it, and the word has none at its ends. -/
def Trims (text word : List Char) : Prop :=
  Trimmed word ∧
    ∃ before after, Blanks before ∧ Blanks after ∧ text = before ++ (word ++ after)

theorem trim_split (text : List Char) : ∃ before after,
    Blanks before ∧ Blanks after ∧ text = before ++ (trim text ++ after) := by
  obtain ⟨before, leading, whole⟩ := skipBlanks_split text
  obtain ⟨behind, trailing, rest⟩ := skipBlanks_split (skipBlanks text).reverse
  refine ⟨before, behind.reverse, leading, fun c member => ?_, ?_⟩
  · exact trailing c (List.mem_reverse.mp member)
  · have turned := congrArg List.reverse rest
    rw [List.reverse_reverse, List.reverse_append] at turned
    rw [trim, ← turned]
    exact whole

theorem trim_between {before word after : List Char} (leading : Blanks before)
    (trailing : Blanks after) (front : Ends isBlank (word ++ after))
    (back : Ends isBlank word.reverse) : trim (before ++ (word ++ after)) = word := by
  have behind : Blanks after.reverse := fun c member =>
    trailing c (List.mem_reverse.mp member)
  rw [trim, skipBlanks_append _ leading, skipBlanks_solid front,
    List.reverse_append, skipBlanks_append _ behind, skipBlanks_solid back,
    List.reverse_reverse]

theorem trim_blanks {blanks : List Char} (blank : Blanks blanks) : trim blanks = [] := by
  rw [trim, skipBlanks_blanks blank]
  rfl

theorem trimmed_trim (text : List Char) : Trimmed (trim text) := by
  have back : Ends isBlank (trim text).reverse := by
    rw [trim, List.reverse_reverse]
    exact ends_skipBlanks _
  refine ⟨fun c head => ?_, back⟩
  obtain ⟨behind, _, whole⟩ := skipBlanks_split (skipBlanks text).reverse
  -- What is left begins as it did before its end was trimmed.
  have longer : skipBlanks text = trim text ++ behind.reverse := by
    rw [← List.reverse_reverse (skipBlanks text), whole, List.reverse_append]
    rfl
  refine ends_skipBlanks text c ?_
  rw [longer, List.head?_append, head]
  rfl

theorem trim_of_trimmed {text : List Char} (trimmed : Trimmed text) : trim text = text := by
  rw [trim, skipBlanks_solid trimmed.1, skipBlanks_solid trimmed.2, List.reverse_reverse]

theorem trims_trim (text : List Char) : Trims text (trim text) :=
  ⟨trimmed_trim text, trim_split text⟩

theorem trims_of_trimmed {text : List Char} (trimmed : Trimmed text) : Trims text text :=
  ⟨trimmed, [], [], nofun, nofun, (List.append_nil text).symm⟩

theorem trims_iff (text word : List Char) : Trims text word ↔ trim text = word := by
  constructor
  · rintro ⟨⟨front, back⟩, before, after, leading, trailing, rfl⟩
    cases word with
    | nil => exact trim_blanks (leading.append trailing)
    | cons c cs => exact trim_between leading trailing (ends_cons.mpr (ends_cons.mp front)) back
  · rintro rfl
    exact trims_trim text

theorem trim_eq_nil_iff (text : List Char) : trim text = [] ↔ Blanks text := by
  refine ⟨fun nothing => ?_, trim_blanks⟩
  obtain ⟨before, after, leading, trailing, whole⟩ := trim_split text
  rw [nothing, List.nil_append] at whole
  rw [whole]
  exact leading.append trailing

end Text

namespace Param

/-- The parameter that a word stands for. -/
inductive Denotes : List Char → Param → Prop
  | flag {word : List Char} (unequal : '=' ∉ word) : Denotes word (.flag (String.ofList word))
  | named {before after key value : List Char} (first : '=' ∉ before)
      (keyed : Text.Trims before key) (valued : Text.Trims after value) :
      Denotes (before ++ '=' :: after) (.named (String.ofList key) (String.ofList value))

/-- The parameters of stretches, in their order. Those that hold nothing but blanks have none. -/
inductive Listed : List (List Char) → List Param → Prop
  | nil : Listed [] []
  | blank {field : List Char} {fields : List (List Char)} {params : List Param}
      (blank : Blanks field) (later : Listed fields params) : Listed (field :: fields) params
  | param {field word : List Char} {fields : List (List Char)} {param : Param}
      {params : List Param} (trims : Text.Trims field word) (filled : word ≠ [])
      (denotes : Denotes word param) (later : Listed fields params) :
      Listed (field :: fields) (param :: params)

/-- The text splits at its commas into stretches with these parameters. -/
def Splits (text : List Char) (params : List Param) : Prop :=
  ∃ fields, fields ≠ [] ∧ (∀ field ∈ fields, ',' ∉ field) ∧
    text = List.intercalate [','] fields ∧ Listed fields params

theorem denotes_ofText (word : List Char) : Denotes word (ofText word) := by
  unfold ofText
  split
  · rename_i before after found
    obtain ⟨rfl, first⟩ := Text.splitFirst?_eq_some found
    exact .named first (Text.trims_trim before) (Text.trims_trim after)
  · rename_i missing
    exact .flag ((Text.splitFirst?_eq_none_iff '=' word).mp missing)

theorem Denotes.ofText_eq {word : List Char} {param : Param} (denotes : Denotes word param) :
    ofText word = param := by
  cases denotes with
  | flag unequal => rw [ofText, (Text.splitFirst?_eq_none_iff '=' word).mpr unequal]
  | @named before after key value first keyed valued =>
      have key := (Text.trims_iff before key).mp keyed
      have value := (Text.trims_iff after value).mp valued
      simp only [ofText, Text.splitFirst?_append after first, key, value]

def ofFields (fields : List (List Char)) : List Param :=
  ((fields.map Text.trim).filter fun field => !field.isEmpty).map ofText

theorem ofFields_cons_blank {field : List Char} (blank : Blanks field)
    (fields : List (List Char)) : ofFields (field :: fields) = ofFields fields := by
  simp [ofFields, Text.trim_blanks blank]

theorem ofFields_cons_filled {field : List Char} (filled : Text.trim field ≠ [])
    (fields : List (List Char)) :
    ofFields (field :: fields) = ofText (Text.trim field) :: ofFields fields := by
  simp [ofFields, filled]

theorem listed_ofFields (fields : List (List Char)) : Listed fields (ofFields fields) := by
  induction fields with
  | nil => exact .nil
  | cons field fields ih =>
      by_cases nothing : Text.trim field = []
      · have blank := (Text.trim_eq_nil_iff field).mp nothing
        rw [ofFields_cons_blank blank]
        exact .blank blank ih
      · rw [ofFields_cons_filled nothing]
        exact .param (Text.trims_trim field) nothing (denotes_ofText _) ih

theorem Listed.ofFields_eq {fields : List (List Char)} {params : List Param}
    (listed : Listed fields params) : ofFields fields = params := by
  induction listed with
  | nil => rfl
  | blank blank _ ih => rw [ofFields_cons_blank blank, ih]
  | @param field word fields param params trims filled denotes _ ih =>
      have trimmed := (Text.trims_iff field word).mp trims
      rw [ofFields_cons_filled (by rwa [trimmed]), trimmed, denotes.ofText_eq, ih]

theorem splits_list (text : List Char) : Splits text (list text) :=
  ⟨Text.fields ',' text, Text.fields_ne_nil ',' text, fun _ => Text.solid_of_mem_fields,
    (Text.intercalate_fields ',' text).symm, listed_ofFields _⟩

/-- A text splits in one way only, into the parameters that are read from it. -/
theorem Splits.list_eq {text : List Char} {params : List Param} (splits : Splits text params) :
    list text = params := by
  obtain ⟨fields, filled, solid, rfl, listed⟩ := splits
  rw [list, Text.fields_intercalate filled solid]
  exact listed.ofFields_eq

end Param

end Phrasebook
