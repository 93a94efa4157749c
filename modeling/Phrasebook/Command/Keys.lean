import Phrasebook.Command.Outcome
import Phrasebook.Command.Request

/-!
Browsing of keys: the names that a partially typed key may continue with, or all keys below it.
-/

namespace Phrasebook.Command.KeysRequest

def withoutFinalDots (text : String) : String :=
  String.ofList (text.toList.reverse.dropWhile (· = '.')).reverse

def names (request : KeysRequest) (lexicon : Lexicon) : Except Failure (List String) :=
  if request.all then
    (parseKey (withoutFinalDots request.typed)).map fun key => (lexicon.lookup key).map (·.text)
  else .ok (lexicon.options request.typed)

/-- One name a line, or a JSON array of names. No name at all is a fault. -/
def report (request : KeysRequest) (names : List String) : Outcome :=
  let output :=
    if request.json then listing (.array (names.map .string))
    else String.join (names.map (· ++ "\n"))
  ⟨Status.ofFault names.isEmpty, output, ""⟩

def answer (request : KeysRequest) (lexicon : Lexicon) : Except Failure Outcome :=
  (request.names lexicon).map request.report

end Phrasebook.Command.KeysRequest
