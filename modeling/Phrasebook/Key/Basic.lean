import Phrasebook.Key.Segment

/-!
Dotted keys. A key is its list of segments: it is compared, ordered and extended segment by segment,
and its text is the segments joined by dots. The key without segments is the root.
-/

namespace Phrasebook

structure Key where
  segments : List String
  deriving DecidableEq, Repr, Inhabited

/-- A segment that cannot stand in a key, together with the text of the key it was to stand in. -/
structure KeyError where
  key : String
  index : Nat
  segment : String
  fault : SegmentFault
  deriving DecidableEq, Repr

def KeyError.message (error : KeyError) : String :=
  s!"invalid key '{error.key}': segment {error.index} '{error.segment}': {error.fault.message}"

namespace Key

def root : Key := ⟨[]⟩

def text (key : Key) : String :=
  ".".intercalate key.segments

/-- The segments satisfy the alphabet and none of them is empty. -/
def Valid (key : Key) : Prop :=
  ∀ segment ∈ key.segments, segmentFault? segment.toList = none

instance (key : Key) : Decidable key.Valid :=
  inferInstanceAs (Decidable (∀ segment ∈ key.segments, segmentFault? segment.toList = none))

def parse (text : String) : Except KeyError Key :=
  match splitKey text with
  | .ok segments => .ok ⟨segments⟩
  | .error violation => .error ⟨text, violation.index, violation.segment, violation.fault⟩

def length (key : Key) : Nat := key.segments.length

def isRoot (key : Key) : Bool := key.segments.isEmpty

def last? (key : Key) : Option String := key.segments.getLast?

/-- The key one segment longer, without a check of the segment. -/
def child (key : Key) (segment : String) : Key :=
  ⟨key.segments ++ [segment]⟩

/-- The key one segment longer. The error names the whole text that was attempted. -/
def push (key : Key) (segment : String) : Except KeyError Key :=
  match segmentFault? segment.toList with
  | none => .ok (key.child segment)
  | some fault =>
      let attempted := if key.isRoot then segment else s!"{key.text}.{segment}"
      .error ⟨attempted, key.length, segment, fault⟩

/-- Appends the segments in order, up to the first bad one. -/
def join (key : Key) (extra : List String) : Except KeyError Key :=
  extra.foldlM push key

/-- The segments from `start` up to `stop`, if these lie in the key and in this order. -/
def slice? (key : Key) (start stop : Nat) : Option Key :=
  if start ≤ stop ∧ stop ≤ key.length then some ⟨(key.segments.take stop).drop start⟩ else none

def dropLast (key : Key) (n : Nat) : Key :=
  ⟨key.segments.take (key.length - n)⟩

def parent? (key : Key) : Option Key :=
  if key.isRoot then none else some (key.dropLast 1)

def startsWith (key leading : Key) : Bool :=
  leading.segments.isPrefixOf key.segments

/-- Segment by segment; a key precedes its extensions. -/
protected def compare (first second : Key) : Ordering :=
  compare first.segments second.segments

instance : Ord Key := ⟨Key.compare⟩

def quoted (key : Key) : String :=
  s!"Key({Text.quoted key.text})"

@[simp] theorem parse_empty : parse "" = .ok root := rfl

theorem isKeyChar_of_parse {text : String} {key : Key} (parsed : parse text = .ok key) {c : Char}
    (member : c ∈ text.toList) : isKeyChar c = true := by
  unfold parse splitKey at parsed
  by_cases dot : c = '.'
  · rw [dot]
    rfl
  · obtain ⟨field, listed, inside⟩ := Text.mem_fields member dot
    split at parsed
    · rename_i segments split
      split at split
      · rename_i empty
        rw [String.isEmpty_iff.mp empty] at member
        cases member
      · simp only at split
        cases found : violation? 0 0 (Text.fields '.' text.toList) with
        | some violation => simp [found] at split
        | none =>
            have valid := (violation?_eq_none_iff 0 0 _).mp found field listed
            simp [isKeyChar, ((segmentFault?_eq_none_iff field).mp valid).2 c inside]
    · cases parsed

theorem toList_text (key : Key) :
    key.text.toList = List.intercalate ['.'] (key.segments.map String.toList) := by
  rw [text, String.toList_intercalate]
  rfl

theorem segments_ne_nil {key : Key} (below : key ≠ root) : key.segments ≠ [] :=
  fun bare => below (congrArg Key.mk bare)

theorem fields_text {key : Key} (below : key ≠ root)
    (solid : ∀ segment ∈ key.segments, '.' ∉ segment.toList) :
    Text.fields '.' key.text.toList = key.segments.map String.toList := by
  have nonempty : key.segments.map String.toList ≠ [] :=
    fun bare => segments_ne_nil below (List.map_eq_nil_iff.mp bare)
  rw [toList_text, Text.fields_intercalate nonempty (List.forall_mem_map.mpr solid)]

theorem valid_of_parse {text : String} {key : Key} (parsed : parse text = .ok key) : key.Valid := by
  unfold parse splitKey at parsed
  split at parsed
  · rename_i segments split
    split at split
    · cases split
      cases parsed
      exact List.forall_mem_nil _
    · simp only at split
      split at split
      · cases split
      · rename_i none
        cases split
        cases parsed
        refine List.forall_mem_map.mpr fun field listed => ?_
        rw [String.toList_ofList]
        exact (violation?_eq_none_iff 0 0 _).mp none field listed
  · cases parsed

theorem text_of_parse {text : String} {key : Key} (parsed : parse text = .ok key) :
    key.text = text := by
  unfold parse splitKey at parsed
  split at parsed
  · rename_i segments split
    split at split
    · rename_i empty
      cases split
      cases parsed
      exact (String.isEmpty_iff.mp empty).symm
    · simp only at split
      split at split
      · cases split
      · cases split
        cases parsed
        rw [← String.toList_inj, toList_text, List.map_map]
        have same : String.toList ∘ String.ofList = id := funext fun _ => String.toList_ofList
        rw [same, List.map_id, Text.intercalate_fields]
  · cases parsed

theorem Valid.solid {key : Key} (valid : key.Valid) {segment : String}
    (listed : segment ∈ key.segments) : '.' ∉ segment.toList := by
  intro dotted
  have allowed := ((segmentFault?_eq_none_iff _).mp (valid segment listed)).2 '.' dotted
  exact absurd allowed (by decide)

theorem Valid.parse_text {key : Key} (valid : key.Valid) : parse key.text = .ok key := by
  obtain ⟨segments⟩ := key
  cases segments with
  | nil => rfl
  | cons first rest =>
      have fields : Text.fields '.' (Key.mk (first :: rest)).text.toList =
          (first :: rest).map String.toList :=
        fields_text (by simp [root]) fun _ listed => valid.solid listed
      have filled : (Key.mk (first :: rest)).text.isEmpty = false := by
        refine Bool.eq_false_iff.mpr fun empty => ?_
        rw [String.isEmpty_iff.mp empty] at fields
        have bad := ((segmentFault?_eq_none_iff _).mp (valid first List.mem_cons_self)).1
        exact bad (List.cons.inj fields).1.symm
      have sound : violation? 0 0 ((first :: rest).map String.toList) = none :=
        (violation?_eq_none_iff 0 0 _).mpr (List.forall_mem_map.mpr valid)
      have back : ((first :: rest).map String.toList).map String.ofList = first :: rest := by simp
      simp only [parse, splitKey, filled, fields, sound, back]
      rfl

@[simp] theorem segments_child (key : Key) (segment : String) :
    (key.child segment).segments = key.segments ++ [segment] := rfl

theorem child_ne_root (key : Key) (segment : String) : key.child segment ≠ root := by
  intro same
  simpa [root] using congrArg Key.segments same

@[simp] theorem text_root : root.text = "" := rfl

theorem text_child {key : Key} (below : key ≠ root) (segment : String) :
    (key.child segment).text = key.text ++ "." ++ segment := by
  rw [text, segments_child,
    String.intercalate_append_of_ne_nil (segments_ne_nil below) (List.cons_ne_nil _ _),
    String.intercalate_singleton, text]

theorem text_child_root (segment : String) : (root.child segment).text = segment :=
  String.intercalate_singleton

theorem push_eq_ok_iff (key result : Key) (segment : String) :
    key.push segment = .ok result ↔
      segmentFault? segment.toList = none ∧ result = key.child segment := by
  cases fault : segmentFault? segment.toList with
  | none =>
      simp only [push, fault, Except.ok.injEq, true_and]
      exact eq_comm
  | some _ => simp [push, fault]

@[simp] theorem dropLast_zero (key : Key) : key.dropLast 0 = key := by
  simp [dropLast, length]

end Key

end Phrasebook
