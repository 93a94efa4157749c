import Phrasebook.Dictionary

/-!
Outcomes of commands. A command that has run may still find fault with its data; a command that
could not run tells why.
-/

namespace Phrasebook.Command

inductive Status where
  | success
  | faultyData
  | failure
  | misuse
  deriving DecidableEq, Repr

def Status.code : Status → Nat
  | .success => 0
  | .faultyData => 65
  | .failure => 70
  | .misuse => 2

/-- A command that has run: what it has written as its result, and beside it. -/
structure Outcome where
  status : Status
  output : String
  remarks : String
  deriving DecidableEq, Repr

inductive Failure where
  | dictionary (cause : DictionaryError)
  | key (cause : KeyError)

def Failure.message : Failure → String
  | .dictionary cause => cause.message
  | .key cause => cause.message

def Status.ofFault (faulty : Bool) : Status :=
  if faulty then .faultyData else .success

def parseKey (name : String) : Except Failure Key :=
  (Key.parse name).mapError .key

def listing (value : Json) : String := value.pretty ++ "\n"

end Phrasebook.Command
