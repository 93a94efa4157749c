import Phrasebook.Phrase.Scan

/-!
Braces in slots. A text is balanced when its braces, counted from the left, never close more than
was opened and close all of it in the end. The two splitters of a slot are characterized by this
count: one stops at the brace that closes the slot, the other at the first colon that no inner brace
encloses.
-/

namespace Phrasebook.Braces

/-- How many braces are open behind a character. A brace that was not opened cannot close. -/
def count? (opened : Nat) (c : Char) : Option Nat :=
  if c = '}' then (if opened = 0 then none else some (opened - 1))
  else some (if c = '{' then opened + 1 else opened)

def openAfter? (opened : Nat) (text : List Char) : Option Nat := text.foldlM count? opened

def Balanced (text : List Char) : Prop := openAfter? 0 text = some 0

instance (text : List Char) : Decidable (Balanced text) :=
  inferInstanceAs (Decidable (openAfter? 0 text = some 0))

/-- No colon stands outside of inner braces. -/
def ColonFree (text : List Char) : Prop :=
  ∀ before after, text = before ++ ':' :: after → openAfter? 0 before ≠ some 0

@[simp] theorem openAfter?_nil (opened : Nat) : openAfter? opened [] = some opened := rfl

theorem openAfter?_cons (opened : Nat) (c : Char) (cs : List Char) :
    openAfter? opened (c :: cs) = (count? opened c).bind fun next => openAfter? next cs := by
  rw [openAfter?, List.foldlM_cons]
  rfl

theorem openAfter?_append (opened : Nat) (first second : List Char) :
    openAfter? opened (first ++ second) =
      (openAfter? opened first).bind fun middle => openAfter? middle second := by
  rw [openAfter?, List.foldlM_append]
  rfl

theorem count?_colon (opened : Nat) : count? opened ':' = some opened := by
  simp [count?]

theorem balanced_colon {formula format : List Char} (left : Balanced formula)
    (right : Balanced format) : Balanced (formula ++ ':' :: format) := by
  unfold Balanced at *
  rw [openAfter?_append, left, Option.bind_some, openAfter?_cons, count?_colon, Option.bind_some]
  exact right

theorem balanced_of_braceless {text : List Char}
    (braceless : ∀ c ∈ text, c ≠ '{' ∧ c ≠ '}') : Balanced text := by
  induction text with
  | nil => rfl
  | cons c cs ih =>
      obtain ⟨⟨opens, closes⟩, later⟩ := List.forall_mem_cons.mp braceless
      have kept : count? 0 c = some 0 := by simp [count?, opens, closes]
      rw [Balanced, openAfter?_cons, kept]
      exact ih later

theorem splitBrace?_cons (opened : Nat) (c : Char) (cs : List Char) :
    Scan.splitBrace? opened (c :: cs) =
      match count? opened c with
      | none => some ([], cs)
      | some next => (Scan.splitBrace? next cs).map fun parts => (c :: parts.1, parts.2) := by
  by_cases close : c = '}'
  · cases opened <;> simp [Scan.splitBrace?, count?, close]
  · simp [Scan.splitBrace?, count?, close]

theorem count?_eq_none_iff (opened : Nat) (c : Char) :
    count? opened c = none ↔ c = '}' ∧ opened = 0 := by
  unfold count?
  split <;> simp_all

theorem splitBrace?_eq_some_iff (opened : Nat) (text inner rest : List Char) :
    Scan.splitBrace? opened text = some (inner, rest) ↔
      text = inner ++ '}' :: rest ∧ openAfter? opened inner = some 0 := by
  induction text generalizing opened inner with
  | nil => simp [Scan.splitBrace?]
  | cons c cs ih =>
      rw [splitBrace?_cons]
      cases counted : count? opened c with
      | none =>
          obtain ⟨rfl, rfl⟩ := (count?_eq_none_iff opened c).mp counted
          cases inner with
          | nil => simp
          | cons d ds =>
              have blocked : '}' = d → openAfter? 0 (d :: ds) ≠ some 0 := by
                rintro rfl
                simp [openAfter?_cons, counted]
              simpa using fun same _ => blocked same
      | some next =>
          cases inner with
          | nil =>
              constructor
              · simp
              · rintro ⟨same, closed⟩
                obtain ⟨rfl, _⟩ := List.cons.inj same
                obtain rfl := Option.some.inj closed
                simp [count?] at counted
          | cons d ds =>
              simp only [Option.map_eq_some_iff, Prod.mk.injEq, List.cons.injEq, List.cons_append]
              constructor
              · rintro ⟨parts, found, ⟨rfl, rfl⟩, rfl⟩
                obtain ⟨split, closed⟩ := (ih next parts.1).mp found
                exact ⟨⟨rfl, split⟩, by rw [openAfter?_cons, counted]; exact closed⟩
              · rintro ⟨⟨rfl, split⟩, closed⟩
                rw [openAfter?_cons, counted, Option.bind_some] at closed
                exact ⟨(ds, rest), (ih next ds).mpr ⟨split, closed⟩, ⟨rfl, rfl⟩, rfl⟩

theorem splitColon?_cons {opened next : Nat} {c : Char} (cs : List Char)
    (counted : count? opened c = some next) :
    Scan.splitColon? opened (c :: cs) =
      if c = ':' ∧ opened = 0 then some ([], cs)
      else (Scan.splitColon? next cs).map fun parts => (c :: parts.1, parts.2) := by
  unfold count? at counted
  by_cases close : c = '}'
  · rw [if_pos close] at counted
    split at counted
    · cases counted
    · obtain rfl := Option.some.inj counted
      simp [Scan.splitColon?, close]
  · rw [if_neg close] at counted
    obtain rfl := Option.some.inj counted
    simp [Scan.splitColon?, close]

theorem colonFrom_cons {opened next : Nat} {c : Char} {cs : List Char}
    (counted : count? opened c = some next) (colonless : ¬ (c = ':' ∧ opened = 0)) :
    (∀ before after, c :: cs = before ++ ':' :: after → openAfter? opened before ≠ some 0) ↔
      ∀ before after, cs = before ++ ':' :: after → openAfter? next before ≠ some 0 := by
  constructor
  · intro free before after same
    have here := free (c :: before) after (by rw [same]; rfl)
    rwa [openAfter?_cons, counted] at here
  · intro free before after same
    cases before with
    | nil =>
        obtain ⟨rfl, _⟩ := List.cons.inj same
        simpa using fun none => colonless ⟨rfl, none⟩
    | cons d ds =>
        obtain ⟨rfl, later⟩ := List.cons.inj same
        rw [openAfter?_cons, counted]
        exact free ds after later

theorem splitColon?_spec {opened final : Nat} {text : List Char}
    (closes : openAfter? opened text = some final) :
    match Scan.splitColon? opened text with
    | none => ∀ before after, text = before ++ ':' :: after → openAfter? opened before ≠ some 0
    | some (formula, format) =>
        text = formula ++ ':' :: format ∧ openAfter? opened formula = some 0 ∧
          ∀ before after, formula = before ++ ':' :: after → openAfter? opened before ≠ some 0 := by
  induction text generalizing opened with
  | nil => simp [Scan.splitColon?]
  | cons c cs ih =>
      rw [openAfter?_cons] at closes
      obtain ⟨next, counted, closes⟩ := Option.bind_eq_some_iff.mp closes
      rw [splitColon?_cons cs counted]
      by_cases colon : c = ':' ∧ opened = 0
      · obtain ⟨rfl, rfl⟩ := colon
        simp
      · rw [if_neg colon]
        have later := ih closes
        cases found : Scan.splitColon? next cs with
        | none =>
            rw [found] at later
            exact (colonFrom_cons counted colon).mpr later
        | some parts =>
            rw [found] at later
            obtain ⟨split, level, free⟩ := later
            refine ⟨by rw [split]; rfl, ?_, (colonFrom_cons counted colon).mpr free⟩
            rw [openAfter?_cons, counted]
            exact level

theorem splitColon?_colon {opened : Nat} {formula : List Char} (format : List Char)
    (level : openAfter? opened formula = some 0)
    (free : ∀ before after, formula = before ++ ':' :: after → openAfter? opened before ≠ some 0) :
    Scan.splitColon? opened (formula ++ ':' :: format) = some (formula, format) := by
  induction formula generalizing opened with
  | nil =>
      obtain rfl := Option.some.inj level
      simp [Scan.splitColon?]
  | cons c cs ih =>
      rw [openAfter?_cons] at level
      obtain ⟨next, counted, level⟩ := Option.bind_eq_some_iff.mp level
      have colonless : ¬ (c = ':' ∧ opened = 0) := by
        rintro ⟨rfl, rfl⟩
        exact free [] cs rfl rfl
      rw [List.cons_append, splitColon?_cons _ counted, if_neg colonless,
        ih level ((colonFrom_cons counted colonless).mp free)]
      rfl

theorem slot_formatted {formula : List Char} (format : List Char) (balanced : Balanced formula)
    (free : ColonFree formula) :
    Scan.slot (formula ++ ':' :: format) = .slot formula (some format) := by
  rw [Scan.slot, splitColon?_colon format balanced free]

theorem colonFree_of_not_mem {text : List Char} (absent : ':' ∉ text) : ColonFree text := by
  rintro before after rfl
  exact absurd (by simp) absent

theorem colonFree_iff_split {text : List Char} (balanced : Balanced text) :
    ColonFree text ↔ Scan.splitColon? 0 text = none := by
  have spec := splitColon?_spec balanced
  cases found : Scan.splitColon? 0 text with
  | none =>
      rw [found] at spec
      exact iff_of_true spec rfl
  | some parts =>
      rw [found] at spec
      refine iff_of_false (fun free => ?_) (by simp)
      exact free parts.1 parts.2 spec.1 spec.2.1

theorem slot_plain {formula : List Char} (balanced : Balanced formula) (free : ColonFree formula) :
    Scan.slot formula = .slot formula none := by
  rw [Scan.slot, (colonFree_iff_split balanced).mp free]

theorem slot_balanced {content : List Char} (balanced : Balanced content) :
    ∃ formula format, Scan.slot content = .slot formula format ∧ Balanced formula ∧
      ColonFree formula ∧ ∀ spec ∈ format, Balanced spec := by
  have spec := splitColon?_spec balanced
  cases found : Scan.splitColon? 0 content with
  | none =>
      rw [found] at spec
      exact ⟨content, none, by rw [Scan.slot, found], balanced, spec, by simp⟩
  | some parts =>
      rw [found] at spec
      obtain ⟨split, left, free⟩ := spec
      refine ⟨parts.1, some parts.2, by rw [Scan.slot, found], left, free, ?_⟩
      unfold Balanced at balanced
      rw [split, openAfter?_append, left, Option.bind_some, openAfter?_cons, count?_colon]
        at balanced
      intro format member
      obtain rfl := Option.some.inj member
      exact balanced

end Phrasebook.Braces
