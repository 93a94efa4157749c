import Phrasebook.File.Basic
import Phrasebook.Json.Printer
import Phrasebook.Json.Reader
import Phrasebook.Lexicon.Basic

/-!
Dictionaries: phrases written as a JSON object. Objects within the object group the phrases, and the
names on the way to a phrase, joined by dots, are its key. Numbers and booleans are phrases that
consist of their JSON text; arrays and nulls are no phrases.
-/

namespace Phrasebook

def Json.kindName : Json → String
  | .null => "null"
  | .bool _ => "a boolean"
  | .number _ => "a number"
  | .string _ => "a string"
  | .array _ => "an array"
  | .object _ => "an object"

inductive DictionaryError where
  | unreadable (path : String) (fault : FileFault)
  | malformed
  | notAnObject (found : Json)
  | unsupported (key : String) (found : Json)
  | load (cause : LoadError)

def DictionaryError.message : DictionaryError → String
  | .unreadable path fault => s!"cannot read dictionary '{path}': {fault.message}"
  | .malformed => "invalid JSON"
  | .notAnObject found =>
      s!"dictionary root must be a JSON object, found {found.kindName}"
  | .unsupported key found =>
      s!"entry '{key}' is {found.kindName}; expected a string or an object"
  | .load cause => cause.message

namespace Dictionary

/-- The path to a name within a group. The outermost group has no path. -/
def pathTo (group name : String) : String :=
  if group.isEmpty then name else group ++ "." ++ name

mutual

/-- The phrases of the members of a group, in order, up to a member that is no phrase. -/
def flatten (group : String) :
    List (String × Json) → Except DictionaryError (List (String × String))
  | [] => .ok []
  | (name, value) :: rest => do
      let first ← flattenValue (pathTo group name) value
      let others ← flatten group rest
      .ok (first ++ others)

def flattenValue (path : String) : Json → Except DictionaryError (List (String × String))
  | .object members => flatten path members
  | .string text => .ok [(path, text)]
  | .number value => .ok [(path, value.text)]
  | .bool value => .ok [(path, if value then "true" else "false")]
  | .array items => .error (.unsupported path (.array items))
  | .null => .error (.unsupported path .null)

end

def ofJson : Json → Except DictionaryError (List (String × String))
  | .object members => flatten "" members
  | found => .error (.notAnObject found)

def read (content : String) : Except DictionaryError (List (String × String)) :=
  match Json.read? content with
  | some value => ofJson value
  | none => .error .malformed

def ofFile (path : String) : FileContent → Except DictionaryError (List (String × String))
  | .ok content => read content
  | .error fault => .error (.unreadable path fault)

def lexicon (pairs : List (String × String)) : Except DictionaryError Lexicon :=
  (Lexicon.ofPairs pairs).mapError .load

def lexiconOfFile (path : String) (content : FileContent) : Except DictionaryError Lexicon := do
  lexicon (← ofFile path content)

end Dictionary

end Phrasebook
