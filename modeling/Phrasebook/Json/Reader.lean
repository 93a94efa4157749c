import Phrasebook.Json.Token

/-!
Reading of JSON texts. The tokens are taken in one by one; what has been opened and not yet closed
is kept on a stack, and a complete value is added to the innermost open bracket. Brackets nest at
most 127 levels deep.
-/

namespace Phrasebook.Json

def maxNesting : Nat := 127

/-- What an open bracket holds so far, last item first, and what may follow. -/
inductive Frame where
  | arrayStart
  | arrayItem (items : List Json)
  | arrayNext (items : List Json)
  | objectStart
  | objectName (members : List (String × Json))
  | objectColon (members : List (String × Json)) (name : String)
  | objectValue (members : List (String × Json)) (name : String)
  | objectNext (members : List (String × Json))

/-- The state between two tokens: the open brackets, innermost first, or the finished value. -/
inductive Progress where
  | inside (stack : List Frame)
  | done (value : Json)

/-- Adds a complete value where the innermost bracket expects one. -/
def place? (value : Json) : List Frame → Option Progress
  | [] => some (.done value)
  | .arrayStart :: outer => some (.inside (.arrayNext [value] :: outer))
  | .arrayItem items :: outer => some (.inside (.arrayNext (value :: items) :: outer))
  | .objectValue members name :: outer =>
      some (.inside (.objectNext ((name, value) :: members) :: outer))
  | _ => none

def expectsValue : List Frame → Bool
  | [] => true
  | .arrayStart :: _ => true
  | .arrayItem _ :: _ => true
  | .objectValue _ _ :: _ => true
  | _ => false

def openBracket? (frame : Frame) (stack : List Frame) : Option Progress :=
  if expectsValue stack && stack.length < maxNesting then some (.inside (frame :: stack)) else none

def advance? : Progress → Token → Option Progress
  | .done _, _ => none
  | .inside stack, .openArray => openBracket? .arrayStart stack
  | .inside stack, .openObject => openBracket? .objectStart stack
  | .inside (.arrayStart :: outer), .closeArray => place? (.array []) outer
  | .inside (.arrayNext items :: outer), .closeArray => place? (.array items.reverse) outer
  | .inside (.objectStart :: outer), .closeObject => place? (.object []) outer
  | .inside (.objectNext members :: outer), .closeObject =>
      place? (.object (sortMembers members.reverse)) outer
  | .inside (.arrayNext items :: outer), .comma => some (.inside (.arrayItem items :: outer))
  | .inside (.objectNext members :: outer), .comma => some (.inside (.objectName members :: outer))
  | .inside (.objectColon members name :: outer), .colon =>
      some (.inside (.objectValue members name :: outer))
  | .inside (.objectStart :: outer), .scalar (.string name) =>
      some (.inside (.objectColon [] name :: outer))
  | .inside (.objectName members :: outer), .scalar (.string name) =>
      some (.inside (.objectColon members name :: outer))
  | .inside stack, .scalar value => place? value stack
  | _, _ => none

def read? (text : String) : Option Json := do
  let tokens ← tokens? text.toList
  match ← tokens.foldlM advance? (.inside []) with
  | .done value => some value
  | .inside _ => none

end Phrasebook.Json
