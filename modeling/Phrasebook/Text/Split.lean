/-!
Splitting a text at a separator: in two at its first or at its last occurrence, or in parts at all
of them. The separators themselves belong to no part.
-/

namespace Phrasebook.Text

def splitFirst? (separator : Char) : List Char → Option (List Char × List Char)
  | [] => none
  | c :: cs =>
      if c = separator then some ([], cs)
      else (splitFirst? separator cs).map fun parts => (c :: parts.1, parts.2)

def splitLast? (separator : Char) : List Char → Option (List Char × List Char)
  | [] => none
  | c :: cs =>
      match splitLast? separator cs with
      | some parts => some (c :: parts.1, parts.2)
      | none => if c = separator then some ([], cs) else none

/-- The stretches between the separators. There is one more of them than there are separators. -/
def fields (separator : Char) : List Char → List (List Char)
  | [] => [[]]
  | c :: cs =>
      if c = separator then [] :: fields separator cs
      else match fields separator cs with
        | [] => [[c]]
        | first :: rest => (c :: first) :: rest

theorem splitFirst?_eq_some {separator : Char} {text before after : List Char}
    (found : splitFirst? separator text = some (before, after)) :
    text = before ++ separator :: after ∧ separator ∉ before := by
  induction text generalizing before with
  | nil => simp [splitFirst?] at found
  | cons c cs ih =>
      by_cases same : c = separator
      · simp only [splitFirst?, same, if_true, Option.some.injEq, Prod.mk.injEq] at found
        simp [same, ← found.1, ← found.2]
      · simp only [splitFirst?, same, if_false, Option.map_eq_some_iff, Prod.mk.injEq] at found
        obtain ⟨parts, inner, rfl, rfl⟩ := found
        have := ih inner
        simp only [List.cons_append, List.mem_cons, not_or]
        exact ⟨congrArg (c :: ·) this.1, fun equal => same equal.symm, this.2⟩

theorem splitFirst?_eq_none_iff (separator : Char) (text : List Char) :
    splitFirst? separator text = none ↔ separator ∉ text := by
  induction text with
  | nil => simp [splitFirst?]
  | cons c cs ih =>
      by_cases same : c = separator
      · simp [splitFirst?, same]
      · simp [splitFirst?, same, ih, Ne.symm same]

theorem splitFirst?_append {separator : Char} {before : List Char} (after : List Char)
    (absent : separator ∉ before) :
    splitFirst? separator (before ++ separator :: after) = some (before, after) := by
  induction before with
  | nil => simp [splitFirst?]
  | cons c cs ih =>
      simp only [List.mem_cons, not_or] at absent
      rw [List.cons_append, splitFirst?, if_neg (Ne.symm absent.1), ih absent.2]
      rfl

theorem splitLast?_eq_none_iff (separator : Char) (text : List Char) :
    splitLast? separator text = none ↔ separator ∉ text := by
  induction text with
  | nil => simp [splitLast?]
  | cons c cs ih =>
      simp only [splitLast?]
      cases later : splitLast? separator cs with
      | some parts =>
          have member : separator ∈ cs := by
            apply Decidable.byContradiction
            intro absent
            rw [ih.mpr absent] at later
            cases later
          simp [member]
      | none =>
          have absent := ih.mp later
          by_cases same : c = separator
          · simp [same]
          · simp [same, absent, Ne.symm same]

theorem splitLast?_eq_some {separator : Char} {text before after : List Char}
    (found : splitLast? separator text = some (before, after)) :
    text = before ++ separator :: after ∧ separator ∉ after := by
  induction text generalizing before with
  | nil => simp [splitLast?] at found
  | cons c cs ih =>
      simp only [splitLast?] at found
      split at found
      · rename_i parts later
        simp only [Option.some.injEq, Prod.mk.injEq] at found
        obtain ⟨rfl, rfl⟩ := found
        have := ih later
        exact ⟨congrArg (c :: ·) this.1, this.2⟩
      · rename_i later
        split at found
        · rename_i same
          simp only [Option.some.injEq, Prod.mk.injEq] at found
          obtain ⟨rfl, rfl⟩ := found
          exact ⟨by simp [same], (splitLast?_eq_none_iff separator cs).mp later⟩
        · simp at found

theorem splitLast?_length_lt {separator : Char} {text before after : List Char}
    (found : splitLast? separator text = some (before, after)) : before.length < text.length := by
  rw [(splitLast?_eq_some found).1]
  simp

theorem splitLast?_append {separator : Char} {after : List Char} (before : List Char)
    (absent : separator ∉ after) :
    splitLast? separator (before ++ separator :: after) = some (before, after) := by
  have behind := (splitLast?_eq_none_iff separator after).mpr absent
  induction before with
  | nil => simp [splitLast?, behind]
  | cons c cs ih => rw [List.cons_append, splitLast?, ih]

theorem fields_ne_nil (separator : Char) (text : List Char) : fields separator text ≠ [] := by
  cases text with
  | nil => simp [fields]
  | cons c cs =>
      simp only [fields]
      split
      · simp
      · split <;> simp

theorem intercalate_fields (separator : Char) (text : List Char) :
    List.intercalate [separator] (fields separator text) = text := by
  induction text with
  | nil => rfl
  | cons c cs ih =>
      simp only [fields]
      cases rest : fields separator cs with
      | nil => exact absurd rest (fields_ne_nil separator cs)
      | cons first others =>
          rw [rest] at ih
          split
          · rename_i same
            rw [← ih, same]
            simp [List.intercalate, List.intersperse]
          · rw [← ih]
            cases others <;> simp [List.intercalate, List.intersperse]

theorem mem_fields {separator c : Char} {text : List Char} (member : c ∈ text)
    (other : c ≠ separator) : ∃ field ∈ fields separator text, c ∈ field := by
  induction text with
  | nil => cases member
  | cons d ds ih =>
      simp only [fields]
      rcases List.mem_cons.mp member with rfl | later
      · rw [if_neg other]
        split
        · exact ⟨[c], List.mem_cons_self, List.mem_cons_self⟩
        · exact ⟨_, List.mem_cons_self, List.mem_cons_self⟩
      · obtain ⟨field, listed, inside⟩ := ih later
        split
        · exact ⟨field, List.mem_cons_of_mem _ listed, inside⟩
        · split
          · rename_i none
            exact absurd none (fields_ne_nil separator ds)
          · rename_i first rest found
            rw [found] at listed
            rcases List.mem_cons.mp listed with rfl | behind
            · exact ⟨d :: field, List.mem_cons_self, List.mem_cons_of_mem d inside⟩
            · exact ⟨field, List.mem_cons_of_mem _ behind, inside⟩

theorem solid_of_mem_fields {separator : Char} {text field : List Char}
    (listed : field ∈ fields separator text) : separator ∉ field := by
  induction text generalizing field with
  | nil =>
      obtain rfl := List.mem_singleton.mp listed
      exact List.not_mem_nil
  | cons c cs ih =>
      simp only [fields] at listed
      split at listed
      · rcases List.mem_cons.mp listed with rfl | behind
        · exact List.not_mem_nil
        · exact ih behind
      · rename_i different
        split at listed
        · rename_i none
          exact absurd none (fields_ne_nil separator cs)
        · rename_i first rest found
          rcases List.mem_cons.mp listed with rfl | behind
          · have solid := ih (found ▸ List.mem_cons_self)
            simpa [Ne.symm different] using solid
          · exact ih (found ▸ List.mem_cons_of_mem first behind)

theorem length_fields (separator : Char) (text : List Char) :
    (fields separator text).length = text.count separator + 1 := by
  induction text with
  | nil => rfl
  | cons c cs ih =>
      rw [fields, List.count_cons]
      split
      · rename_i same
        simp [ih, same]
      · rename_i different
        cases found : fields separator cs with
        | nil => exact absurd found (fields_ne_nil separator cs)
        | cons first rest =>
            rw [found] at ih
            simp [different, ← ih]

theorem fields_separated {separator : Char} (before after : List Char) :
    fields separator (before ++ separator :: after) =
      fields separator before ++ fields separator after := by
  induction before with
  | nil => simp [fields]
  | cons c cs ih =>
      rw [List.cons_append, fields, fields, ih]
      split
      · rfl
      · cases found : fields separator cs with
        | nil => exact absurd found (fields_ne_nil separator cs)
        | cons first rest => rfl

section Joined

variable {separator : Char} {field : List Char}

theorem fields_solid (solid : separator ∉ field) : fields separator field = [field] := by
  induction field with
  | nil => rfl
  | cons c cs ih =>
      simp only [List.mem_cons, not_or] at solid
      rw [fields, if_neg (Ne.symm solid.1), ih solid.2]

theorem fields_append (rest : List Char) (solid : separator ∉ field) :
    fields separator (field ++ separator :: rest) = field :: fields separator rest := by
  rw [fields_separated, fields_solid solid, List.singleton_append]

theorem fields_joined {stretches : List (List Char)} (nonempty : stretches ≠ []) :
    fields separator (List.intercalate [separator] stretches) =
      stretches.flatMap (fields separator) := by
  induction stretches with
  | nil => exact absurd rfl nonempty
  | cons first rest ih =>
      cases rest with
      | nil => simp
      | cons second others =>
          rw [List.intercalate_cons_cons, List.append_assoc, List.singleton_append,
            fields_separated, ih (List.cons_ne_nil _ _), ← List.flatMap_cons]

theorem fields_intercalate {stretches : List (List Char)} (nonempty : stretches ≠ [])
    (solid : ∀ stretch ∈ stretches, separator ∉ stretch) :
    fields separator (List.intercalate [separator] stretches) = stretches := by
  rw [fields_joined nonempty]
  have single : ∀ stretch ∈ stretches, fields separator stretch = [stretch] :=
    fun stretch listed => fields_solid (solid stretch listed)
  rw [List.flatMap_def, List.map_congr_left single, ← List.flatMap_def, List.flatMap_singleton']

/-- A cut through joined stretches leaves some of them whole and the beginning of the next one. -/
theorem cut_joined {stretches : List (List Char)} {beginning : List Char}
    (nonempty : stretches ≠ []) (cut : beginning <+: List.intercalate [separator] stretches) :
    ∃ before stretch after start, stretches = before ++ stretch :: after ∧ start <+: stretch ∧
      beginning = List.intercalate [separator] (before ++ [start]) := by
  induction stretches generalizing beginning with
  | nil => exact absurd rfl nonempty
  | cons first rest ih =>
      by_cases within : beginning <+: first
      · exact ⟨[], first, rest, beginning, rfl, within, List.intercalate_singleton.symm⟩
      · cases rest with
        | nil =>
            rw [List.intercalate_singleton] at cut
            exact absurd cut within
        | cons second others =>
            rw [List.intercalate_cons_cons] at cut
            -- The cut lies behind the first stretch, and so behind the separator after it.
            have behind : first ++ [separator] <+: beginning := by
              rcases List.prefix_or_prefix_of_prefix cut (List.prefix_append _ _) with short | long
              · rcases List.prefix_concat_iff.mp short with whole | shorter
                · exact whole ▸ List.prefix_rfl
                · exact absurd shorter within
              · exact long
            obtain ⟨later, rfl⟩ := behind
            obtain ⟨before, stretch, after, start, split, starts, rfl⟩ :=
              ih (List.cons_ne_nil _ _) ((List.prefix_append_right_inj _).mp cut)
            refine ⟨first :: before, stretch, after, start, by rw [split]; rfl, starts, ?_⟩
            rw [List.cons_append, List.intercalate_cons_of_ne_nil (List.concat_ne_nil _ _)]

end Joined

end Phrasebook.Text
