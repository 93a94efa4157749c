import Phrasebook.Text.Measure
import Phrasebook.Text.Quoted
import Phrasebook.Text.Split

/-!
Segments of dotted keys: the alphabet, the faults of a segment, and the split of a dotted text into
its segments. A fault is reported for the first bad segment, with byte offsets into the text.
-/

namespace Phrasebook

def isSegmentChar (c : Char) : Bool :=
  c.isAlphanum || c = '_' || c = '+' || c = '-'

def isKeyChar (c : Char) : Bool :=
  isSegmentChar c || c = '.'

inductive SegmentFault where
  | empty
  | invalidChar (char : Char) (offset : Nat)
  deriving DecidableEq, Repr

def SegmentFault.message : SegmentFault → String
  | .empty => "empty segment"
  | .invalidChar char offset => s!"invalid character {Text.quotedChar char} at offset {offset}"

/-- The first character outside the alphabet, with its byte offset counted from `offset`. -/
def foreignChar? (offset : Nat) : List Char → Option (Char × Nat)
  | [] => none
  | c :: cs => if isSegmentChar c then foreignChar? (offset + c.utf8Size) cs else some (c, offset)

def segmentFault? (segment : List Char) : Option SegmentFault :=
  if segment.isEmpty then some .empty
  else (foreignChar? 0 segment).map fun found => .invalidChar found.1 found.2

structure KeyViolation where
  index : Nat
  segment : String
  offset : Nat
  fault : SegmentFault
  deriving DecidableEq, Repr

/-- The first bad segment, when `index` segments and `offset` bytes stand before these. -/
def violation? (index offset : Nat) : List (List Char) → Option KeyViolation
  | [] => none
  | segment :: rest =>
      match segmentFault? segment with
      | some fault => some ⟨index, String.ofList segment, offset, fault⟩
      | none => violation? (index + 1) (offset + Text.byteLength segment + 1) rest

/-- The segments of a dotted text. The empty text has none. -/
def splitKey (text : String) : Except KeyViolation (List String) :=
  if text.isEmpty then .ok []
  else
    let segments := Text.fields '.' text.toList
    match violation? 0 0 segments with
    | some violation => .error violation
    | none => .ok (segments.map String.ofList)

theorem foreignChar?_eq_none_iff (offset : Nat) (segment : List Char) :
    foreignChar? offset segment = none ↔ ∀ c ∈ segment, isSegmentChar c = true := by
  induction segment generalizing offset with
  | nil => simp [foreignChar?]
  | cons c cs ih =>
      by_cases allowed : isSegmentChar c = true <;> simp [foreignChar?, allowed, ih]

theorem segmentFault?_eq_none_iff (segment : List Char) :
    segmentFault? segment = none ↔ segment ≠ [] ∧ ∀ c ∈ segment, isSegmentChar c = true := by
  cases segment with
  | nil => simp [segmentFault?]
  | cons c cs => simp [segmentFault?, foreignChar?_eq_none_iff]

theorem violation?_eq_none_iff (index offset : Nat) (segments : List (List Char)) :
    violation? index offset segments = none ↔
      ∀ segment ∈ segments, segmentFault? segment = none := by
  induction segments generalizing index offset with
  | nil => simp [violation?]
  | cons segment rest ih =>
      cases fault : segmentFault? segment <;> simp [violation?, fault, ih]

end Phrasebook
