import Phrasebook.Json.Printer
import Phrasebook.Key.Basic
import Phrasebook.Value

/-!
Keys and values in JSON. A key is the string of its text. A value is a string or a number; a number
that is no integer of 64 bits is a floating-point number.
-/

namespace Phrasebook

def Json.typeText : Json → String
  | .null => "null"
  | .bool value => "boolean `" ++ (if value then "true" else "false") ++ "`"
  | .number (.integer whole) => "integer `" ++ toString whole ++ "`"
  | .number (.real amount) => "floating point `" ++ Json.realText amount ++ "`"
  | .string content => "string " ++ Text.quoted content
  | .array _ => "sequence"
  | .object _ => "map"

inductive KeyJsonError where
  | notText (found : Json)
  | invalid (cause : KeyError)

def KeyJsonError.message : KeyJsonError → String
  | .notText found => "invalid type: " ++ found.typeText ++ ", expected a string"
  | .invalid cause => cause.message

def Key.toJson (key : Key) : Json := .string key.text

def Key.ofJson : Json → Except KeyJsonError Key
  | .string text => (Key.parse text).mapError .invalid
  | found => .error (.notText found)

def Value.ofJson? : Json → Option Value
  | .string content => some (.text content)
  | .number (.integer number) =>
      some ((Value.ofInt? number).getD (.real (Float.ofInt number)))
  | .number (.real number) => some (.real number)
  | _ => none

def Value.jsonMismatch : String := "data did not match any variant of untagged enum Value"

theorem Key.ofJson_toJson (key : Key) :
    Key.ofJson key.toJson = (Key.parse key.text).mapError .invalid := rfl

end Phrasebook
