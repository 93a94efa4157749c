import Phrasebook.Color.Code

/-!
Phrases: templates as trees. A phrase is a sequence of pieces. Most pieces stand alone; a colored
stretch has a phrase of its own inside. A sequence is linked piece by piece, so that functions on
phrases are plain recursions.
-/

namespace Phrasebook

inductive Leaf where
  /-- Text as it is written and as it is meant: a backslash hides the meaning of a character. -/
  | text (raw content : String)
  /-- A reference to the phrase of a key, with a tooltip or without. -/
  | reference (tooltip : Bool) (key : String)
  /-- A computed value, and how it is to be formatted. -/
  | slot (formula : String) (format : Option String)
  deriving DecidableEq, Repr

def Leaf.raw : Leaf → String
  | .text raw _ => raw
  | .reference tooltip key => (if tooltip then "$@" else "$") ++ key ++ "$"
  | .slot formula none => "\x7b" ++ formula ++ "\x7d"
  | .slot formula (some format) => "\x7b" ++ formula ++ ":" ++ format ++ "\x7d"

/-- Every piece knows the byte at which it starts. -/
inductive Phrase where
  | nil
  | leaf (start : Nat) (piece : Leaf) (next : Phrase)
  | colored (start : Nat) (code : ColorCode) (inner : String) (body next : Phrase)
  deriving DecidableEq, Repr

def colorMark : Char := '§'

/-- The characters that have a meaning of their own in a template. -/
def isSpecial (c : Char) : Bool :=
  c = '\\' || c = '$' || c = '{' || c = colorMark

def hasSpecial (text : String) : Bool := text.toList.any isSpecial

namespace Phrase

def coloredRaw (code : ColorCode) (inner : String) : String :=
  colorMark.toString ++ code.written ++ inner ++ colorMark.toString

def raw : Phrase → String
  | nil => ""
  | leaf _ piece next => piece.raw ++ next.raw
  | colored _ code inner _ next => coloredRaw code inner ++ next.raw

def size : Phrase → Nat
  | nil => 0
  | leaf _ _ next => next.size + 1
  | colored _ _ _ body next => body.size + next.size + 1

def isEmpty : Phrase → Bool
  | nil => true
  | _ => false

def coloredDepth : Phrase → Nat
  | nil => 0
  | leaf _ _ next => next.coloredDepth
  | colored _ _ _ body next => max (body.coloredDepth + 1) next.coloredDepth

/-- Puts text in front. Two texts side by side become one. -/
def prependText (start : Nat) (raw content : String) : Phrase → Phrase
  | leaf _ (.text later meant) next => leaf start (.text (raw ++ later) (content ++ meant)) next
  | phrase => leaf start (.text raw content) phrase

theorem prependText_prependText (phrase : Phrase) (start place : Nat) (first second : String)
    (content meant : String) :
    (phrase.prependText place second meant).prependText start first content =
      phrase.prependText start (first ++ second) (content ++ meant) := by
  cases phrase with
  | nil => rfl
  | colored => rfl
  | leaf _ piece next =>
      cases piece with
      | text raw said => simp [prependText, String.append_assoc]
      | reference => rfl
      | slot => rfl

end Phrase

inductive IssueKind where
  | unbalancedBraces
  | unclosedColor
  | colorTooDeep
  deriving DecidableEq, Repr

def IssueKind.message : IssueKind → String
  | .unbalancedBraces => "unbalanced '\x7b' kept as text"
  | .unclosedColor => "unclosed color tag kept as text"
  | .colorTooDeep => "color tag nested too deep kept as text"

/-- An opening that closes nowhere, or is nested too deep. -/
structure Issue where
  kind : IssueKind
  opening : Char
  start : Nat
  deriving DecidableEq, Repr

def Issue.span (issue : Issue) : Span :=
  ⟨issue.start, issue.start + issue.opening.utf8Size⟩

end Phrasebook
