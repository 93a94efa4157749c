import Phrasebook.Text.Split

/-!
Arguments of a command. An option is given by its name after two dashes or by its letter after one.
The value of an option follows an equals sign, stands directly after the letter, or is the next
argument if that is no option itself. Behind two dashes alone no argument is an option.
-/

namespace Phrasebook.Command

inductive UsageError where
  | missingCommand
  | unknownCommand (name : String)
  | unknownOption (text : String)
  | missingValue (option : String)
  | unexpectedValue (option : String)
  | invalidValue (option value : String)
  | repeated (option : String)
  | missingOption (option : String)
  | conflict (first second : String)
  | unexpectedArgument (text : String)
  deriving DecidableEq, Repr

def UsageError.message : UsageError → String
  | .missingCommand => "a command is required: check, coverage, eval or keys"
  | .unknownCommand name => s!"unknown command '{name}'"
  | .unknownOption text => s!"unknown option '{text}'"
  | .missingValue option => s!"option '--{option}' requires a value"
  | .unexpectedValue option => s!"option '--{option}' takes no value"
  | .invalidValue option value => s!"invalid value '{value}' for option '--{option}'"
  | .repeated option => s!"option '--{option}' cannot be given twice"
  | .missingOption option => s!"option '--{option}' is required"
  | .conflict first second => s!"option '--{first}' cannot be used with '--{second}'"
  | .unexpectedArgument text => s!"unexpected argument '{text}'"

/-- What an option is called and whether a value belongs to it. -/
structure OptionRule where
  name : String
  letter : Option Char
  takesValue : Bool
  deriving DecidableEq, Repr

namespace OptionRule

def switch (name : String) : OptionRule := ⟨name, none, false⟩

def valued (name : String) : OptionRule := ⟨name, none, true⟩

def lettered (name : String) (letter : Char) : OptionRule := ⟨name, some letter, true⟩

end OptionRule

/-- The form of a single argument. An option comes with the value that is attached to it. -/
inductive Form where
  | separator
  | named (name : String) (attached : Option String)
  | lettered (letter : Char) (attached : Option String)
  | plain
  deriving DecidableEq, Repr

def attachedToLetter : List Char → Option String
  | [] => none
  | '=' :: value => some (String.ofList value)
  | value => some (String.ofList value)

def Form.of (text : String) : Form :=
  match text.toList with
  | ['-', '-'] => .separator
  | '-' :: '-' :: rest =>
      match Text.splitFirst? '=' rest with
      | some (name, value) => .named (String.ofList name) (some (String.ofList value))
      | none => .named (String.ofList rest) none
  | '-' :: letter :: rest => .lettered letter (attachedToLetter rest)
  | _ => .plain

inductive Argument where
  | switch (option : String)
  | value (option content : String)
  | free (text : String)
  deriving DecidableEq, Repr

/-- What one argument says, or the option whose value it leaves to the next one. -/
inductive Reading where
  | complete (argument : Argument)
  | awaiting (option : String)
  | separator
  deriving DecidableEq, Repr

def OptionRule.reading (rule : OptionRule) : Option String → Except UsageError Reading
  | none =>
      .ok (if rule.takesValue then .awaiting rule.name else .complete (.switch rule.name))
  | some content =>
      if rule.takesValue then .ok (.complete (.value rule.name content))
      else .error (.unexpectedValue rule.name)

def Reading.of (rules : List OptionRule) (text : String) : Except UsageError Reading :=
  let known (rule? : Option OptionRule) (attached : Option String) :=
    match rule? with
    | some rule => rule.reading attached
    | none => .error (.unknownOption text)
  match Form.of text with
  | .separator => .ok .separator
  | .plain => .ok (.complete (.free text))
  | .named name attached => known (rules.find? fun rule => rule.name = name) attached
  | .lettered letter attached =>
      known (rules.find? fun rule => rule.letter = some letter) attached

/-- Tells the arguments apart under the rules for options. -/
def readArguments (rules : List OptionRule) :
    List String → Except UsageError (List Argument)
  | [] => .ok []
  | text :: rest =>
      match Reading.of rules text with
      | .error error => .error error
      | .ok .separator => .ok (rest.map .free)
      | .ok (.complete argument) => (readArguments rules rest).map (argument :: ·)
      | .ok (.awaiting option) =>
          match rest with
          | [] => .error (.missingValue option)
          | next :: others =>
              if Form.of next = .plain then
                (readArguments rules others).map (.value option next :: ·)
              else .error (.missingValue option)

def valuesOf (option : String) (arguments : List Argument) : List String :=
  arguments.filterMap fun argument =>
    match argument with
    | .value name content => if name = option then some content else none
    | _ => none

def value? (option : String) (arguments : List Argument) : Except UsageError (Option String) :=
  match valuesOf option arguments with
  | [] => .ok none
  | [content] => .ok (some content)
  | _ => .error (.repeated option)

def isGiven (option : String) (arguments : List Argument) : Except UsageError Bool :=
  match arguments.count (.switch option) with
  | 0 => .ok false
  | 1 => .ok true
  | _ => .error (.repeated option)

def freeTexts (arguments : List Argument) : List String :=
  arguments.filterMap fun argument =>
    match argument with
    | .free text => some text
    | _ => none

end Phrasebook.Command
