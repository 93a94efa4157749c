import Phrasebook.Key.Segment

/-!
Keys written as literals in source code. A literal is checked before the program runs, and stands
for an expression that builds the key from its segments without a further check.
-/

namespace Phrasebook.KeyLiteral

def faultMessage (text : String) (violation : KeyViolation) : String :=
  match violation.fault with
  | .empty => s!"key \"{text}\" has an empty segment at index {violation.index}"
  | .invalidChar char _ =>
      s!"key \"{text}\" has invalid character '{char}' in segment '{violation.segment}' " ++
        "(allowed: A-Z a-z 0-9 _ + -)"

def check (text : String) : Except String (List String) :=
  (splitKey text).mapError (faultMessage text)

def expression (segments : List String) : String :=
  let items := segments.map fun segment => "\"" ++ segment ++ "\""
  "::lokal::Key::from_validated_segments(&[" ++ ",".intercalate items ++ "])"

end Phrasebook.KeyLiteral
