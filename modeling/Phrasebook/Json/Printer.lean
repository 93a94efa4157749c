import Phrasebook.Decimal.Shortest
import Phrasebook.Json.Basic

/-!
Written forms of JSON values: on one line, or over several lines with two spaces of indentation for
every open bracket. Real numbers have the fewest digits that are read back as the same number,
always a point or an exponent, and an exponent from `10 ^ 16` on and below `10 ^ -5`. An exponent
always has a sign.
-/

namespace Phrasebook.Json

def exponentText (exponent : Int) : List Char :=
  (if 0 ≤ exponent then ['+'] else []) ++ (toString exponent).toList

def realNotation (number : Decimal.Digits) : List Char :=
  let count : Int := number.digits.length
  if number.digits.isEmpty then ['0', '.', '0']
  else if count ≤ number.place && number.place ≤ 16 then number.positional ++ ['.', '0']
  else if -5 < number.place && number.place ≤ 16 then number.positional
  else
    let exponent := exponentText (number.place - 1)
    match number.digits with
    | [] => []
    | [digit] => digit :: 'e' :: exponent
    | first :: rest => first :: '.' :: rest ++ 'e' :: exponent

def realText (number : Float) : String :=
  match Decimal.Binary.ofFloat number with
  | .finite negative mantissa exponent =>
      let digits := Decimal.shortest .toEven mantissa exponent
      String.ofList (Decimal.signed negative (realNotation digits))
  | _ => "null"

end Json

def JsonNumber.text : JsonNumber → String
  | .integer number => toString number
  | .real number => Json.realText number

namespace Json

def escapeChar (c : Char) : List Char :=
  match c with
  | '"' => ['\\', '"']
  | '\\' => ['\\', '\\']
  | '\x08' => ['\\', 'b']
  | '\x0c' => ['\\', 'f']
  | '\n' => ['\\', 'n']
  | '\r' => ['\\', 'r']
  | '\t' => ['\\', 't']
  | _ =>
      if c.toNat < 0x20 then
        let digits := Nat.toDigits 16 c.toNat
        ['\\', 'u'] ++ Decimal.zeros (4 - digits.length) ++ digits
      else [c]

def stringText (content : String) : String :=
  String.ofList ('"' :: content.toList.flatMap escapeChar ++ ['"'])

mutual

def compact : Json → String
  | .null => "null"
  | .bool value => if value then "true" else "false"
  | .number value => value.text
  | .string content => stringText content
  | .array items => "[" ++ compactItems items ++ "]"
  | .object members => "\x7b" ++ compactMembers members ++ "\x7d"

def compactItems : List Json → String
  | [] => ""
  | [item] => item.compact
  | item :: rest => item.compact ++ "," ++ compactItems rest

def compactMembers : List (String × Json) → String
  | [] => ""
  | [(name, value)] => stringText name ++ ":" ++ value.compact
  | (name, value) :: rest => stringText name ++ ":" ++ value.compact ++ "," ++ compactMembers rest

end

def lineBreak (level : Nat) : String :=
  "\n" ++ String.ofList (List.replicate (2 * level) ' ')

mutual

/-- The value over several lines, when `level` brackets are open around it. -/
def prettyAt (level : Nat) : Json → String
  | .null => "null"
  | .bool value => if value then "true" else "false"
  | .number value => value.text
  | .string content => stringText content
  | .array [] => "[]"
  | .array items => "[" ++ prettyItems (level + 1) items ++ lineBreak level ++ "]"
  | .object [] => "\x7b\x7d"
  | .object members => "\x7b" ++ prettyMembers (level + 1) members ++ lineBreak level ++ "\x7d"

def prettyItems (level : Nat) : List Json → String
  | [] => ""
  | [item] => lineBreak level ++ item.prettyAt level
  | item :: rest => lineBreak level ++ item.prettyAt level ++ "," ++ prettyItems level rest

def prettyMembers (level : Nat) : List (String × Json) → String
  | [] => ""
  | [(name, value)] => lineBreak level ++ stringText name ++ ": " ++ value.prettyAt level
  | (name, value) :: rest =>
      lineBreak level ++ stringText name ++ ": " ++ value.prettyAt level ++ "," ++
        prettyMembers level rest

end

def pretty (value : Json) : String := value.prettyAt 0

end Phrasebook.Json
