import Phrasebook.Proofs.Parsing

/-!
Slots that are a single variable. Such a slot is recognized without the reader of formulas, and what
is recognized is what that reader would find: the variable itself, unless it stands in parentheses
or the parentheses of its parameters are too many for the reader.
-/

namespace Phrasebook

open Formula

def Formula.Passes (formula : String) : Prop :=
  nestsDeeper maxParentheses 0 formula.toList = false

instance : DecidablePred Formula.Passes := fun formula =>
  inferInstanceAs (Decidable (nestsDeeper maxParentheses 0 formula.toList = false))

abbrev Formula.AllPass (formulas : List String) : Prop := ∀ formula ∈ formulas, Passes formula

theorem Formula.Fits.named {tiers : List (List BinaryOp)} {name : List Char}
    {params : Option (List Char)} (fits : Fits tiers (.var name params)) :
    IsName name ∧ ∀ text ∈ params, '>' ∉ text := by
  induction tiers with
  | nil =>
      cases fits with
      | var named closed => exact ⟨named, closed⟩
  | cons operators tiers ih =>
      cases fits with
      | operand fits => exact ih fits

theorem Formula.solid_reverse_var {name : List Char} {params : Option (List Char)}
    (named : IsName name) :
    Ends Text.isBlank (Spelling.var name params).written.reverse := by
  cases params with
  | none =>
      intro c last
      have member : c ∈ name := List.mem_reverse.mp (List.mem_of_mem_head? last)
      exact isBlank_of_isNameChar (named.isNameChar c member)
  | some text =>
      have turned : (Spelling.var name (some text)).written.reverse =
          '>' :: (text.reverse ++ '<' :: name.reverse) := by
        simp [Spelling.written]
      rw [turned]
      exact ends_cons.mpr (by decide)

namespace Variable

theorem read?_whole_iff (word : List Char) (var : Variable) :
    read? word = some (var, []) ↔ ∃ name params, IsName name ∧ (∀ text ∈ params, '>' ∉ text) ∧
      word = (Spelling.var name params).written ∧
      var = ⟨String.ofList name, (params.map Param.list).getD []⟩ := by
  constructor
  · intro found
    obtain ⟨name, named, ⟨rfl, rfl⟩ | ⟨params, closed, rfl, rfl⟩⟩ := read?_sound found
    · exact ⟨name, none, named, nofun, List.append_nil name, rfl⟩
    · refine ⟨name, some params, named, ?_, rfl, rfl⟩
      rintro text ⟨⟩
      exact closed
  · rintro ⟨name, params, named, closed, rfl, rfl⟩
    cases params with
    | none =>
        have found := read?_name named ⟨.nil _, nofun⟩
        rwa [List.append_nil] at found
    | some params => exact read?_params named [] (closed params rfl)

theorem parseBare?_eq_some_iff (text : String) (var : Variable) :
    parseBare? text = some var ↔ read? (Text.trim text.toList) = some (var, []) := by
  unfold parseBare?
  split
  · rename_i other found
    simp [found]
  · rename_i unlike
    simp only [reduceCtorEq, false_iff]
    exact unlike var

theorem derives_of_bare {text : String} {var : Variable} (bare : parseBare? text = some var) :
    Derives text.toList (.var var) ∧ (Text.trim text.toList).head? ≠ some '(' := by
  obtain ⟨name, params, named, closed, word, rfl⟩ :=
    (read?_whole_iff _ var).mp ((parseBare?_eq_some_iff text var).mp bare)
  obtain ⟨before, after, leading, trailing, whole⟩ := Text.trim_split text.toList
  have fits : Fits grammar (.var name params) := .operand (.operand (.operand (.var named closed)))
  rw [word] at whole ⊢
  refine ⟨⟨_, ⟨fits, before, after, leading, trailing, whole⟩, Spelling.means_var name params⟩, ?_⟩
  obtain ⟨first, later⟩ := named
  intro opened
  cases params <;> exact absurd first (by rw [Option.some.inj opened]; decide)

/-- A formula that is a single variable is one variable in its text, or begins with a
parenthesis. -/
theorem bare_of_derives {text : String} {var : Variable} (derived : Derives text.toList (.var var))
    (unopened : (Text.trim text.toList).head? ≠ some '(') : parseBare? text = some var := by
  obtain ⟨spelling, ⟨fits, before, after, leading, trailing, whole⟩, value⟩ := derived
  rw [whole] at unopened
  cases spelling with
  | numeral word => cases value
  | var name params =>
      obtain ⟨named, closed⟩ := fits.named
      have trimmed := Text.trim_between leading trailing (fits.solid after)
        (solid_reverse_var named)
      rw [parseBare?_eq_some_iff, whole, trimmed, read?_whole_iff]
      refine ⟨name, params, named, closed, rfl, ?_⟩
      cases value with
      | bare => rfl
      | var splits => rw [Option.map_some, Option.getD_some, splits.list_eq]
  | group inside inner behind =>
      have back : Ends Text.isBlank (Spelling.group inside inner behind).written.reverse := by
        have turned : (Spelling.group inside inner behind).written.reverse =
            ')' :: (behind.reverse ++ (inner.written.reverse ++ (inside.reverse ++ ['(']))) := by
          simp [Spelling.written]
        rw [turned]
        exact ends_cons.mpr (by decide)
      rw [Text.trim_between leading trailing (fits.solid after) back] at unopened
      exact absurd rfl unopened
  | chain lhs front op back rhs => cases value

end Variable

theorem Formula.parse_eq_ok_iff {text : String} (passes : Passes text) (formula : Formula) :
    parse text = .ok formula ↔ Derives text.toList formula := by
  rw [parse, passes]
  exact ⟨parseList_sound, parseList_complete⟩

theorem Variable.parseBare?_iff {text : String} (passes : Passes text) (var : Variable) :
    parseBare? text = some var ↔
      Formula.parse text = .ok (.var var) ∧ (Text.trim text.toList).head? ≠ some '(' := by
  rw [Formula.parse_eq_ok_iff passes]
  exact ⟨derives_of_bare, fun ⟨derived, unopened⟩ => bare_of_derives derived unopened⟩

end Phrasebook
