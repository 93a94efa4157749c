/-!
JSON values. A number is an integer or a finite floating-point number. The members of an object keep
the order in which they are given; the reader gives them sorted by name.
-/

namespace Phrasebook

inductive JsonNumber where
  | integer (number : Int)
  | real (number : Float)

inductive Json where
  | null
  | bool (value : Bool)
  | number (value : JsonNumber)
  | string (content : String)
  | array (items : List Json)
  | object (members : List (String × Json))

namespace Json

instance : Inhabited Json := ⟨null⟩

def ofNat (number : Nat) : Json := .number (.integer number)

def member? (name : String) : Json → Option Json
  | .object members => (members.find? fun member => member.1 = name).map (·.2)
  | _ => none

/-- Sorted by name; of several members of one name the last stays. -/
def sortMembers (members : List (String × Json)) : List (String × Json) :=
  let sorted := members.mergeSort fun first second => first.1 ≤ second.1
  sorted.foldr (fun member later =>
    match later with
    | [] => [member]
    | following :: _ => if member.1 = following.1 then later else member :: later) []

end Json

end Phrasebook
