import Mathlib
import Phrasebook.Key.Basic
import Phrasebook.Key.Literal
import Phrasebook.Proofs.Levels

/-!
Which texts are keys, and what is said of those that are none. A text is a key when it is empty or
consists of segments joined by dots. Otherwise the first stretch between dots that is no segment is
named, with its number, its place in bytes, and the first character that may not stand in it.
-/

namespace Phrasebook

open Text

/-- The characters of segments, written out. -/
def InAlphabet (c : Char) : Prop :=
  ('A' ≤ c ∧ c ≤ 'Z') ∨ ('a' ≤ c ∧ c ≤ 'z') ∨ ('0' ≤ c ∧ c ≤ '9') ∨ c = '_' ∨ c = '+' ∨ c = '-'

def IsSegment (segment : String) : Prop :=
  segment ≠ "" ∧ ∀ c ∈ segment.toList, InAlphabet c

/-- The segments with a dot behind each of them. -/
def dotted (segments : List String) : List Char :=
  segments.flatMap fun segment => segment.toList ++ ['.']

/-- The fault is the one of that stretch: that it is empty, or its first foreign character. -/
def SegmentFault.Blames (fault : SegmentFault) (stretch : List Char) : Prop :=
  match fault with
  | .empty => stretch = []
  | .invalidChar char offset =>
      ∃ good rest, stretch = good ++ char :: rest ∧ (∀ c ∈ good, InAlphabet c) ∧
        ¬ InAlphabet char ∧ offset = byteLength good

/-- The violation names the stretch behind these segments, which ends at the next dot or with the
text, and the place of the stretch and of what is wrong in it. -/
structure KeyViolation.Stands (violation : KeyViolation) (text : String) (earlier : List String)
    (after : List Char) : Prop where
  filled : text ≠ ""
  whole : text.toList = dotted earlier ++ violation.segment.toList ++ after
  sound : ∀ segment ∈ earlier, IsSegment segment
  undotted : '.' ∉ violation.segment.toList
  ends : after = [] ∨ ['.'] <+: after
  offset : violation.offset = byteLength (dotted earlier)
  index : violation.index = (dotted earlier).count '.'
  blamed : violation.fault.Blames violation.segment.toList
  foreign : ∀ char offset, violation.fault = .invalidChar char offset →
    StandsAt text.toList (violation.offset + offset) [char]

def KeyViolation.IsFirst (violation : KeyViolation) (text : String) : Prop :=
  ∃ earlier after, violation.Stands text earlier after

theorem isSegmentChar_iff (c : Char) : isSegmentChar c = true ↔ InAlphabet c := by
  simp only [isSegmentChar, InAlphabet, Char.isAlphanum, Char.isAlpha, Char.isUpper, Char.isLower,
    Char.isDigit, Bool.or_eq_true, Bool.and_eq_true, decide_eq_true_eq, Char.le_def, or_assoc]

theorem segmentFault?_none_iff (segment : String) :
    segmentFault? segment.toList = none ↔ IsSegment segment := by
  simp only [segmentFault?_eq_none_iff, isSegmentChar_iff, IsSegment, ne_eq,
    String.toList_eq_nil_iff]

theorem IsSegment.undotted {segment : String} (sound : IsSegment segment) :
    '.' ∉ segment.toList := fun member => absurd (sound.2 '.' member) (by unfold InAlphabet; decide)

theorem foreignChar?_eq_some_iff (start : Nat) (segment : List Char) (char : Char) (place : Nat) :
    foreignChar? start segment = some (char, place) ↔
      ∃ good rest, segment = good ++ char :: rest ∧ (∀ c ∈ good, InAlphabet c) ∧
        ¬ InAlphabet char ∧ place = start + byteLength good := by
  induction segment generalizing start with
  | nil => simp [foreignChar?]
  | cons c cs ih =>
      by_cases allowed : InAlphabet c
      · rw [foreignChar?, if_pos ((isSegmentChar_iff c).mpr allowed), ih]
        constructor
        · rintro ⟨good, rest, rfl, sound, foreign, rfl⟩
          refine ⟨c :: good, rest, rfl, List.forall_mem_cons.mpr ⟨allowed, sound⟩, foreign, ?_⟩
          rw [byteLength_cons, Nat.add_assoc]
        · rintro ⟨good, rest, whole, sound, foreign, rfl⟩
          cases good with
          | nil =>
              obtain ⟨rfl, _⟩ := List.cons.inj whole
              exact absurd allowed foreign
          | cons d ds =>
              obtain ⟨rfl, rfl⟩ := List.cons.inj whole
              refine ⟨ds, rest, rfl, (List.forall_mem_cons.mp sound).2, foreign, ?_⟩
              rw [byteLength_cons, Nat.add_assoc]
      · rw [foreignChar?, if_neg (mt (isSegmentChar_iff c).mp allowed)]
        constructor
        · rintro ⟨⟩
          exact ⟨[], cs, rfl, List.forall_mem_nil _, allowed, rfl⟩
        · rintro ⟨good, rest, whole, sound, foreign, rfl⟩
          cases good with
          | nil =>
              obtain ⟨rfl, _⟩ := List.cons.inj whole
              rfl
          | cons d ds =>
              obtain ⟨rfl, _⟩ := List.cons.inj whole
              exact absurd (sound c List.mem_cons_self) allowed

theorem segmentFault?_eq_some_iff (segment : List Char) (fault : SegmentFault) :
    segmentFault? segment = some fault ↔ fault.Blames segment := by
  cases segment with
  | nil => cases fault <;> simp [segmentFault?, SegmentFault.Blames]
  | cons c cs =>
      have found := foreignChar?_eq_some_iff 0 (c :: cs)
      simp only [Nat.zero_add] at found
      cases fault with
      | empty => simp [segmentFault?, SegmentFault.Blames]
      | invalidChar char offset =>
          rw [SegmentFault.Blames, ← found]
          simp [segmentFault?]

theorem dotted_cons (segment : String) (later : List String) :
    dotted (segment :: later) = segment.toList ++ '.' :: dotted later := by
  simp [dotted]

theorem count_dotted {segments : List String} (sound : ∀ segment ∈ segments, IsSegment segment) :
    (dotted segments).count '.' = segments.length := by
  induction segments with
  | nil => rfl
  | cons segment later ih =>
      obtain ⟨here, behind⟩ := List.forall_mem_cons.mp sound
      rw [dotted_cons, List.count_append, List.count_cons_self, ih behind,
        List.count_eq_zero_of_not_mem here.undotted, List.length_cons, Nat.zero_add]

theorem fields_dotted {segments : List String} (sound : ∀ segment ∈ segments, IsSegment segment)
    (text : List Char) :
    fields '.' (dotted segments ++ text) = segments.map String.toList ++ fields '.' text := by
  induction segments with
  | nil => rfl
  | cons segment later ih =>
      obtain ⟨here, behind⟩ := List.forall_mem_cons.mp sound
      rw [dotted_cons, List.append_assoc, List.cons_append, fields_append _ here.undotted,
        ih behind, List.map_cons, List.cons_append]

theorem intercalate_dotted (segments : List String) (stretch : List Char)
    (later : List (List Char)) :
    List.intercalate ['.'] (segments.map String.toList ++ stretch :: later) =
      dotted segments ++ List.intercalate ['.'] (stretch :: later) := by
  induction segments with
  | nil => rfl
  | cons segment others ih =>
      rw [List.map_cons, List.cons_append, List.intercalate_cons_of_ne_nil (by simp), ih,
        dotted_cons]
      simp

theorem intercalate_ends (stretch : List Char) (later : List (List Char)) :
    ∃ after, List.intercalate ['.'] (stretch :: later) = stretch ++ after ∧
      (after = [] ∨ ['.'] <+: after) := by
  cases later with
  | nil => exact ⟨[], by simp, .inl rfl⟩
  | cons next others =>
      refine ⟨'.' :: List.intercalate ['.'] (next :: others), ?_, .inr (List.prefix_append ['.'] _)⟩
      rw [List.intercalate_cons_cons, List.append_assoc, List.singleton_append]

theorem fields_ended {stretch after : List Char} (undotted : '.' ∉ stretch)
    (ends : after = [] ∨ ['.'] <+: after) :
    ∃ later, fields '.' (stretch ++ after) = stretch :: later := by
  obtain rfl | ⟨rest, rfl⟩ := ends
  · exact ⟨[], by rw [List.append_nil, fields_solid undotted]⟩
  · exact ⟨fields '.' rest, fields_append rest undotted⟩

theorem violation?_passes {earlier : List String} (sound : ∀ segment ∈ earlier, IsSegment segment)
    (index start : Nat) (stretches : List (List Char)) :
    violation? index start (earlier.map String.toList ++ stretches) =
      violation? (index + earlier.length) (start + byteLength (dotted earlier)) stretches := by
  induction earlier generalizing index start with
  | nil => rfl
  | cons segment others ih =>
      obtain ⟨here, behind⟩ := List.forall_mem_cons.mp sound
      have place : start + byteLength segment.toList + 1 + byteLength (dotted others) =
          start + byteLength (dotted (segment :: others)) := by
        rw [dotted_cons, byteLength_append, byteLength_cons, Nat.add_assoc, Nat.add_assoc]
        rfl
      rw [List.map_cons, List.cons_append, violation?, (segmentFault?_none_iff segment).mpr here]
      simp only [ih behind, place]
      rw [List.length_cons, Nat.add_assoc, Nat.add_comm 1]

theorem violation?_faulty {stretch : List Char} {fault : SegmentFault}
    (blamed : fault.Blames stretch) (index start : Nat) (later : List (List Char)) :
    violation? index start (stretch :: later) =
      some ⟨index, String.ofList stretch, start, fault⟩ := by
  rw [violation?, (segmentFault?_eq_some_iff stretch fault).mpr blamed]

theorem exists_faulty {stretches : List (List Char)}
    (faulty : ¬ ∀ stretch ∈ stretches, segmentFault? stretch = none) :
    ∃ (earlier : List String) (stretch : List Char) (later : List (List Char))
      (fault : SegmentFault), stretches = earlier.map String.toList ++ stretch :: later ∧
        (∀ segment ∈ earlier, IsSegment segment) ∧ fault.Blames stretch := by
  have found : (stretches.find? fun stretch => (segmentFault? stretch).isSome).isSome := by
    rw [List.find?_isSome]
    simpa [Option.isSome_iff_ne_none] using faulty
  obtain ⟨stretch, first⟩ := Option.isSome_iff_exists.mp found
  obtain ⟨bad, before, later, split, good⟩ := List.find?_eq_some_iff_append.mp first
  obtain ⟨fault, blamed⟩ := Option.isSome_iff_exists.mp bad
  refine ⟨before.map String.ofList, stretch, later, fault, ?_, ?_, ?_⟩
  · simpa [Function.comp_def] using split
  · refine List.forall_mem_map.mpr fun other listed => ?_
    rw [← segmentFault?_none_iff, String.toList_ofList]
    simpa using good other listed
  · exact (segmentFault?_eq_some_iff stretch fault).mp blamed

theorem splitKey_eq_ok_iff (text : String) (segments : List String) :
    splitKey text = .ok segments ↔ Key.parse text = .ok ⟨segments⟩ := by
  unfold Key.parse
  cases splitKey text <;> simp

theorem splitKey_eq_error_iff (text : String) (violation : KeyViolation) :
    splitKey text = .error violation ↔
      text ≠ "" ∧ violation? 0 0 (fields '.' text.toList) = some violation := by
  unfold splitKey
  by_cases empty : text = ""
  · simp [empty]
  · rw [if_neg (mt String.isEmpty_iff.mp empty)]
    simp only
    split <;> simp_all

theorem parse_eq_ok_iff (text : String) (key : Key) :
    Key.parse text = .ok key ↔
      (∀ segment ∈ key.segments, IsSegment segment) ∧ ".".intercalate key.segments = text := by
  constructor
  · intro parsed
    refine ⟨fun segment listed => ?_, Key.text_of_parse parsed⟩
    exact (segmentFault?_none_iff segment).mp (Key.valid_of_parse parsed segment listed)
  · rintro ⟨sound, rfl⟩
    have valid : key.Valid := fun segment listed =>
      (segmentFault?_none_iff segment).mpr (sound segment listed)
    exact valid.parse_text

theorem KeyViolation.Stands.found {violation : KeyViolation} {text : String}
    {earlier : List String} {after : List Char} (stands : violation.Stands text earlier after) :
    splitKey text = .error violation := by
  obtain ⟨later, last⟩ := fields_ended stands.undotted stands.ends
  refine (splitKey_eq_error_iff text violation).mpr ⟨stands.filled, ?_⟩
  rw [stands.whole, List.append_assoc, fields_dotted stands.sound, last,
    violation?_passes stands.sound, violation?_faulty stands.blamed, String.ofList_toList,
    Nat.zero_add, Nat.zero_add, ← count_dotted stands.sound, ← stands.index, ← stands.offset]

theorem KeyViolation.isFirst_of_splitKey {violation : KeyViolation} {text : String}
    (refused : splitKey text = .error violation) : violation.IsFirst text := by
  obtain ⟨filled, found⟩ := (splitKey_eq_error_iff text violation).mp refused
  have faulty : ¬ ∀ stretch ∈ fields '.' text.toList, segmentFault? stretch = none := by
    rw [← violation?_eq_none_iff 0 0, found]
    exact Option.some_ne_none _
  obtain ⟨earlier, stretch, later, fault, split, sound, blamed⟩ := exists_faulty faulty
  rw [split, violation?_passes sound, violation?_faulty blamed, Nat.zero_add, Nat.zero_add] at found
  obtain rfl := Option.some.inj found
  have joined := intercalate_dotted earlier stretch later
  obtain ⟨after, behind, ends⟩ := intercalate_ends stretch later
  rw [← split, intercalate_fields, behind, ← List.append_assoc] at joined
  have listed : stretch ∈ fields '.' text.toList := by simp [split]
  have undotted := solid_of_mem_fields listed
  refine ⟨earlier, after, ?_⟩
  constructor
  case filled => exact filled
  case whole => rw [joined, String.toList_ofList]
  case sound => exact sound
  case undotted => rwa [String.toList_ofList]
  case ends => exact ends
  case offset => rfl
  case index => exact (count_dotted sound).symm
  case blamed => rwa [String.toList_ofList]
  case foreign =>
    rintro char offset rfl
    obtain ⟨good, rest, rfl, _, _, rfl⟩ := blamed
    exact ⟨dotted earlier ++ good, rest ++ after, by simp [joined], byteLength_append _ _⟩

theorem splitKey_refuses_iff (text : String) (violation : KeyViolation) :
    splitKey text = .error violation ↔ violation.IsFirst text :=
  ⟨KeyViolation.isFirst_of_splitKey, fun ⟨_, _, stands⟩ => stands.found⟩

/-- The texts of keys are the empty one and segments joined by dots, and each is split into what it
was joined from. Any other text is refused for its first violation, which is named exactly. Keys
that are read and keys that are written as literals are the same. -/
theorem splitKey_exact (text : String) :
    (∀ segments, splitKey text = .ok segments ↔
        (∀ segment ∈ segments, IsSegment segment) ∧ ".".intercalate segments = text) ∧
      (∀ violation, splitKey text = .error violation ↔ violation.IsFirst text) ∧
      (∀ key, Key.parse text = .ok key ↔ KeyLiteral.check text = .ok key.segments) ∧
      (∀ error, Key.parse text = .error error ↔ ∃ violation : KeyViolation,
        violation.IsFirst text ∧
          error = ⟨text, violation.index, violation.segment, violation.fault⟩) ∧
      ∀ message, KeyLiteral.check text = .error message ↔ ∃ violation : KeyViolation,
        violation.IsFirst text ∧ message = KeyLiteral.faultMessage text violation := by
  refine ⟨fun segments => ?_, splitKey_refuses_iff text, fun key => ?_, fun error => ?_,
    fun message => ?_⟩
  · rw [splitKey_eq_ok_iff, parse_eq_ok_iff]
  · rw [← splitKey_eq_ok_iff text key.segments, KeyLiteral.check]
    cases splitKey text <;> simp [Except.mapError]
  · simp only [← splitKey_refuses_iff, Key.parse]
    cases splitKey text <;> simp [eq_comm]
  · simp only [← splitKey_refuses_iff, KeyLiteral.check]
    cases splitKey text <;> simp [Except.mapError, eq_comm]

end Phrasebook
