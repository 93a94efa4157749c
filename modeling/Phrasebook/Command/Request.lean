import Phrasebook.Command.Arguments
import Phrasebook.Decimal.Numeral
import Phrasebook.Formula.Basic
import Phrasebook.Render.Context

/-!
What the commands can be asked for, and how it is said in arguments. The depth limit may also be set
for all commands at once; an option on the command itself goes before it.
-/

namespace Phrasebook.Command

inductive Subject where
  | template (text : String)
  | key (name : String)
  deriving DecidableEq, Repr

structure EvalRequest where
  dictionary : Option String
  subject : Subject
  params : List (String × String)
  maxDepth : Nat
  subtraction : SubtractionMode
  json : Bool

structure KeysRequest where
  dictionary : String
  typed : String
  all : Bool
  json : Bool

structure CheckRequest where
  dictionary : String
  maxDepth : Nat
  json : Bool

structure CoverageRequest where
  source : String
  languages : List String
  directory : Option String
  strict : Bool
  json : Bool

inductive Request where
  | check (request : CheckRequest)
  | coverage (request : CoverageRequest)
  | eval (request : EvalRequest)
  | keys (request : KeysRequest)

def largestDepth : Nat := Nat.pow 2 64 - 1

/-- The depth limit: as given, else as set for all commands, else the usual one. -/
def depthOf (given preset : Option String) : Except UsageError Nat :=
  match given.or preset with
  | none => .ok Context.defaultMaxDepth
  | some text =>
      match Decimal.unsigned? largestDepth text.toList with
      | some depth => .ok depth
      | none => .error (.invalidValue "max-depth" text)

def checkPath (option path : String) : Except UsageError String :=
  if path.isEmpty then .error (.invalidValue option path) else .ok path

def path? (option : String) (arguments : List Argument) : Except UsageError (Option String) := do
  match ← value? option arguments with
  | none => .ok none
  | some path => (checkPath option path).map some

def requiredPath (option : String) (arguments : List Argument) : Except UsageError String := do
  match ← path? option arguments with
  | none => .error (.missingOption option)
  | some path => .ok path

/-- The name and the value of a parameter, on both sides of the first equals sign. -/
def paramOf (text : String) : Except UsageError (String × String) :=
  match Text.splitFirst? '=' text.toList with
  | some (name, value) => .ok (String.ofList name, String.ofList value)
  | none => .error (.invalidValue "param" text)

def subtractionOf : Option String → Except UsageError SubtractionMode
  | none => .ok .legacy
  | some "legacy" => .ok .legacy
  | some "arithmetic" => .ok .arithmetic
  | some other => .error (.invalidValue "subtraction" other)

/-- The languages of all occurrences, each of which may list several between commas. -/
def languagesOf (listed : List String) : List String :=
  listed.flatMap fun text => (Text.fields ',' text.toList).map String.ofList

def subjectOf : Option String → Option String → Except UsageError Subject
  | some text, none => .ok (.template text)
  | none, some name => .ok (.key name)
  | some _, some _ => .error (.conflict "template" "key")
  | none, none => .error (.missingOption "template")

def refuseFree (texts : List String) : Except UsageError Unit :=
  match texts with
  | [] => .ok ()
  | text :: _ => .error (.unexpectedArgument text)

namespace EvalRequest

def rules : List OptionRule :=
  [.valued "dict", .valued "template", .valued "key", .lettered "param" 'p', .valued "max-depth",
   .valued "subtraction", .switch "json"]

def read (presetDepth : Option String) (texts : List String) : Except UsageError EvalRequest := do
  let arguments ← readArguments rules texts
  refuseFree (freeTexts arguments)
  let dictionary ← path? "dict" arguments
  let subject ← subjectOf (← value? "template" arguments) (← value? "key" arguments)
  let params ← (valuesOf "param" arguments).mapM paramOf
  let maxDepth ← depthOf (← value? "max-depth" arguments) presetDepth
  let subtraction ← subtractionOf (← value? "subtraction" arguments)
  let json ← isGiven "json" arguments
  return ⟨dictionary, subject, params, maxDepth, subtraction, json⟩

end EvalRequest

namespace KeysRequest

def rules : List OptionRule := [.valued "dict", .switch "all", .switch "json"]

def read (texts : List String) : Except UsageError KeysRequest := do
  let arguments ← readArguments rules texts
  refuseFree ((freeTexts arguments).drop 1)
  let dictionary ← requiredPath "dict" arguments
  let all ← isGiven "all" arguments
  let json ← isGiven "json" arguments
  return ⟨dictionary, (freeTexts arguments).headD "", all, json⟩

end KeysRequest

namespace CheckRequest

def rules : List OptionRule := [.valued "dict", .valued "max-depth", .switch "json"]

def read (presetDepth : Option String) (texts : List String) : Except UsageError CheckRequest := do
  let arguments ← readArguments rules texts
  refuseFree (freeTexts arguments)
  let dictionary ← requiredPath "dict" arguments
  let maxDepth ← depthOf (← value? "max-depth" arguments) presetDepth
  let json ← isGiven "json" arguments
  return ⟨dictionary, maxDepth, json⟩

end CheckRequest

namespace CoverageRequest

def rules : List OptionRule :=
  [.valued "source", .valued "lang", .valued "translations", .switch "strict", .switch "json"]

def read (texts : List String) : Except UsageError CoverageRequest := do
  let arguments ← readArguments rules texts
  refuseFree (freeTexts arguments)
  let source ← requiredPath "source" arguments
  let directory ← path? "translations" arguments
  let strict ← isGiven "strict" arguments
  let json ← isGiven "json" arguments
  return ⟨source, languagesOf (valuesOf "lang" arguments), directory, strict, json⟩

end CoverageRequest

def Request.read (presetDepth : Option String) : List String → Except UsageError Request
  | [] => .error .missingCommand
  | "check" :: rest => (CheckRequest.read presetDepth rest).map .check
  | "coverage" :: rest => (CoverageRequest.read rest).map .coverage
  | "eval" :: rest => (EvalRequest.read presetDepth rest).map .eval
  | "keys" :: rest => (KeysRequest.read rest).map .keys
  | name :: _ => .error (.unknownCommand name)

end Phrasebook.Command
