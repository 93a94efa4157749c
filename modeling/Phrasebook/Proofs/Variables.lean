import Phrasebook.Proofs.BareVariables

/-!
The texts of variables. Reading leaves out empty parameters and the blanks around a parameter, its
key and its value. What is left can be told from the variable alone, and the text of such a variable
is read as that variable again: nothing that separates its parts occurs within them.
-/

namespace Phrasebook

open Formula

namespace Text

theorem trim_subset (text : List Char) : trim text ⊆ text := by
  obtain ⟨before, after, _, _, whole⟩ := trim_split text
  intro c member
  rw [whole]
  simp [member]

theorem mem_joined {separator c : Char} (other : c ≠ separator) (stretches : List (List Char)) :
    c ∈ List.intercalate [separator] stretches ↔ ∃ stretch ∈ stretches, c ∈ stretch := by
  induction stretches with
  | nil => simp
  | cons first rest ih =>
      cases rest with
      | nil => simp
      | cons second others =>
          rw [List.intercalate_cons_cons, List.mem_append, List.mem_append, ih]
          simp [other]

theorem trimmed_joined {first second : List Char} {separator : Char} (left : Trimmed first)
    (right : Trimmed second) (solid : isBlank separator = false) :
    Trimmed (first ++ separator :: second) := by
  constructor
  · cases first with
    | nil => exact ends_cons.mpr solid
    | cons c cs => exact ends_cons.mpr (ends_cons.mp left.1)
  · rw [List.reverse_append, List.reverse_cons, List.append_assoc]
    cases turned : second.reverse with
    | nil => exact ends_cons.mpr solid
    | cons c cs =>
        have last := right.2
        rw [turned] at last
        exact ends_cons.mpr (ends_cons.mp last)

end Text

namespace Param

/-- A part of a parameter: neither blanks around it, nor what would end the parameter. -/
structure Part (text : List Char) : Prop where
  trimmed : Text.Trimmed text
  undivided : ',' ∉ text
  inside : '>' ∉ text

/-- The parameter has the form of one that has been read. -/
def Canonical : Param → Prop
  | .named key value => Part key.toList ∧ '=' ∉ key.toList ∧ Part value.toList
  | .flag name => Part name.toList ∧ '=' ∉ name.toList ∧ name.toList ≠ []

theorem Part.trim {text field : List Char} (undivided : ',' ∉ text) (inside : '>' ∉ text)
    (included : field ⊆ text) : Part (Text.trim field) where
  trimmed := Text.trimmed_trim field
  undivided member := undivided (included (Text.trim_subset field member))
  inside member := inside (included (Text.trim_subset field member))

theorem canonical_ofText {text : List Char} (part : Part text) (filled : text ≠ []) :
    (ofText text).Canonical := by
  unfold ofText
  split
  · rename_i key value found
    obtain ⟨whole, unequal⟩ := Text.splitFirst?_eq_some found
    have before : key ⊆ text := by simp [whole]
    have after : value ⊆ text := by
      rw [whole]
      exact fun c member => List.mem_append_right key (List.mem_cons_of_mem _ member)
    simp only [Canonical, String.toList_ofList]
    exact ⟨.trim part.undivided part.inside before,
      fun member => unequal (Text.trim_subset key member),
      .trim part.undivided part.inside after⟩
  · rename_i missing
    have unequal := (Text.splitFirst?_eq_none_iff '=' text).mp missing
    simp only [Canonical, String.toList_ofList]
    exact ⟨part, unequal, filled⟩

theorem canonical_list {text : List Char} (closed : '>' ∉ text) :
    ∀ param ∈ list text, param.Canonical := by
  refine List.forall_mem_map.mpr fun word member => ?_
  obtain ⟨trimmed, filled⟩ := List.mem_filter.mp member
  obtain ⟨field, listed, rfl⟩ := List.mem_map.mp trimmed
  have inside : '>' ∉ field := by
    rw [← Text.intercalate_fields ',' text, Text.mem_joined (by decide)] at closed
    exact fun member => closed ⟨field, listed, member⟩
  have part : Part (Text.trim field) :=
    .trim (Text.solid_of_mem_fields listed) inside (List.Subset.refl field)
  exact canonical_ofText part (by simpa using filled)

variable {param : Param}

theorem toList_display_named (key value : String) :
    (named key value).display.toList = key.toList ++ '=' :: value.toList := by
  simp [display]

theorem Canonical.part (canonical : param.Canonical) : Part param.display.toList := by
  cases param with
  | flag name => exact canonical.1
  | named key value =>
      obtain ⟨keyed, -, valued⟩ := canonical
      rw [toList_display_named]
      refine ⟨Text.trimmed_joined keyed.trimmed valued.trimmed (by decide), ?_, ?_⟩
      · simp [keyed.undivided, valued.undivided]
      · simp [keyed.inside, valued.inside]

theorem Canonical.filled (canonical : param.Canonical) : param.display.toList ≠ [] := by
  cases param with
  | flag name => exact canonical.2.2
  | named key value =>
      rw [toList_display_named]
      exact List.append_ne_nil_of_right_ne_nil _ (List.cons_ne_nil _ _)

theorem Canonical.denotes (canonical : param.Canonical) : Denotes param.display.toList param := by
  cases param with
  | flag name =>
      have flag := Denotes.flag canonical.2.1
      rwa [String.ofList_toList] at flag
  | named key value =>
      obtain ⟨keyed, unequal, valued⟩ := canonical
      have named := Denotes.named unequal (Text.trims_of_trimmed keyed.trimmed)
        (Text.trims_of_trimmed valued.trimmed)
      rwa [String.ofList_toList, String.ofList_toList, ← toList_display_named] at named

theorem listed_display {params : List Param} (canonical : ∀ param ∈ params, param.Canonical) :
    Listed (params.map fun param => param.display.toList) params := by
  induction params with
  | nil => exact .nil
  | cons first later ih =>
      obtain ⟨here, behind⟩ := List.forall_mem_cons.mp canonical
      exact .param (Text.trims_of_trimmed here.part.trimmed) here.filled here.denotes (ih behind)

/-- Parameters are read back from their texts with commas between them. -/
theorem list_joined {params : List Param} (filled : params ≠ [])
    (canonical : ∀ param ∈ params, param.Canonical) :
    list (List.intercalate [','] (params.map fun param => param.display.toList)) = params := by
  have solid : ∀ field ∈ params.map fun param => param.display.toList, ',' ∉ field :=
    List.forall_mem_map.mpr fun param member => (canonical param member).part.undivided
  have splits : Splits _ params :=
    ⟨_, mt List.map_eq_nil_iff.mp filled, solid, rfl, listed_display canonical⟩
  exact splits.list_eq

end Param

namespace Variable

structure Canonical (var : Variable) : Prop where
  named : IsName var.name.toList
  params : ∀ param ∈ var.params, param.Canonical

theorem canonical_of_bare {text : String} {var : Variable} (bare : parseBare? text = some var) :
    var.Canonical := by
  obtain ⟨name, params, named, closed, -, rfl⟩ :=
    (read?_whole_iff _ var).mp ((parseBare?_eq_some_iff text var).mp bare)
  refine ⟨by rwa [String.toList_ofList], ?_⟩
  cases params with
  | none => exact List.forall_mem_nil _
  | some inside => exact Param.canonical_list (closed inside rfl)

theorem display_spelled {var : Variable} (canonical : var.Canonical) :
    ∃ params, (∀ text ∈ params, '>' ∉ text) ∧
      var.display.toList = (Spelling.var var.name.toList params).written ∧
      var.params = (params.map Param.list).getD [] := by
  obtain ⟨name, params⟩ := var
  cases params with
  | nil => exact ⟨none, nofun, rfl, rfl⟩
  | cons first later =>
      let texts := (first :: later).map fun param => param.display.toList
      have read := Param.list_joined (List.cons_ne_nil first later) canonical.params
      refine ⟨some (List.intercalate [','] texts), ?_, ?_, read.symm⟩
      · rintro text ⟨⟩ member
        obtain ⟨word, listed, inside⟩ := (Text.mem_joined (by decide) texts).mp member
        obtain ⟨param, given, rfl⟩ := List.mem_map.mp listed
        exact (canonical.params param given).part.inside inside
      · simp [display, Spelling.written, String.toList_intercalate, Function.comp_def, texts]

theorem Canonical.parseBare?_display {var : Variable} (canonical : var.Canonical) :
    parseBare? var.display = some var := by
  obtain ⟨params, closed, spelled, same⟩ := display_spelled canonical
  have fits : Fits grammar (.var var.name.toList params) :=
    .operand (.operand (.operand (.var canonical.named closed)))
  have front := fits.solid []
  rw [List.append_nil] at front
  have trimmed := Text.trim_of_trimmed ⟨front, solid_reverse_var canonical.named⟩
  rw [parseBare?_eq_some_iff, spelled, trimmed, read?_whole_iff]
  exact ⟨var.name.toList, params, canonical.named, closed, rfl, by simp [← same]⟩

/-- The form is exact: it is that of the variables that some text is read as. -/
theorem canonical_iff_bare (var : Variable) :
    var.Canonical ↔ ∃ text, parseBare? text = some var :=
  ⟨fun canonical => ⟨_, canonical.parseBare?_display⟩, fun ⟨_, bare⟩ => canonical_of_bare bare⟩

/-- The text of a variable that has been read is read as the same variable: its parameters come back
in their order, with the blanks within them and with keys and values that are empty. -/
theorem display_read_back {text : String} {var : Variable} (bare : parseBare? text = some var) :
    parseBare? var.display = some var :=
  (canonical_of_bare bare).parseBare?_display

theorem display_read_back_blanks :
    let text := " n< = , key= , red  sea,, at = 1=2 ,,> "
    let var : Variable :=
      ⟨"n", [.named "" "", .named "key" "", .flag "red  sea", .named "at" "1=2"]⟩
    parseBare? text = some var ∧ var.display = "n<=,key=,red  sea,at=1=2>" ∧
      parseBare? var.display = some var := by
  intro text var
  have bare : parseBare? text = some var := by decide +kernel
  exact ⟨bare, by decide +kernel, display_read_back bare⟩

end Variable

end Phrasebook
