import Phrasebook.Format.Standard
import Phrasebook.Value

/-!
Registries of number formats. The handlers of a registry are asked in order and the first answer
counts; what none of them knows is tried as a standard format, and otherwise the number is written
plainly. A handler may break down, which is reported with its message.
-/

namespace Phrasebook

/-- A format that is not standard. A custom handler may answer, pass, or break down. -/
inductive FormatHandler where
  /-- A plus sign before another format: the sign of the number is always shown. -/
  | signed
  /-- Thousandths with a precision. -/
  | permille
  /-- Binary sizes of bytes with a precision. -/
  | byteSize
  | custom (answer : Float → String → Except String (Option String))

structure FormatRegistry where
  handlers : List FormatHandler

namespace FormatHandler

def permilleSign : Char := '‰'

def permilleText? (number : Float) (spec : List Char) : Option String :=
  match spec with
  | [] => none
  | c :: digits =>
      if c = permilleSign then
        (Format.precision? 0 digits).map fun places =>
          String.ofList (Decimal.fixed (number * 1000.0) places ++ [permilleSign])
      else none

/-- Divides by 1024 as long as the number is not below it and there is a larger unit. -/
def scaleBytes (number : Float) (unit : String) : List String → Float × String
  | [] => (number, unit)
  | next :: larger =>
      if 1024.0 ≤ number.abs then scaleBytes (number / 1024.0) next larger else (number, unit)

def smallestUnit : String := "B"

def largerUnits : List String := ["KB", "MB", "GB", "TB"]

def byteSizeText? (number : Float) (spec : List Char) : Option String :=
  match spec with
  | 'b' :: 'y' :: 't' :: 'e' :: 's' :: digits =>
      (Format.precision? 1 digits).map fun places =>
        let (scaled, unit) := scaleBytes number smallestUnit largerUnits
        let shown := if unit = smallestUnit then 0 else places
        String.ofList (Decimal.fixed scaled shown) ++ " " ++ unit
  | _ => none

/-- A sign in front, unless there is a minus sign already. -/
def showSign (body : String) : String :=
  if body.toList.head? = some '-' then body else "+" ++ body

/-- The answer of one handler. `afterSign` formats the number as the rest of the format says. -/
def answer (handler : FormatHandler) (number : Float) (spec : List Char)
    (afterSign : Unit → Except String String) : Except String (Option String) :=
  match handler with
  | signed =>
      if spec.head? = some '+' then (afterSign ()).map fun body => some (showSign body)
      else .ok none
  | permille => .ok (permilleText? number spec)
  | byteSize => .ok (byteSizeText? number spec)
  | custom reply => reply number (String.ofList spec)

def firstAnswer (number : Float) (spec : List Char) (afterSign : Unit → Except String String) :
    List FormatHandler → Except String (Option String)
  | [] => .ok none
  | handler :: later =>
      match handler.answer number spec afterSign with
      | .error message => .error message
      | .ok (some text) => .ok (some text)
      | .ok none => firstAnswer number spec afterSign later

end FormatHandler

namespace FormatRegistry

def empty : FormatRegistry := ⟨[]⟩

def defaults : FormatRegistry := ⟨[.signed, .permille, .byteSize]⟩

def register (registry : FormatRegistry) (handler : FormatHandler) : FormatRegistry :=
  ⟨registry.handlers ++ [handler]⟩

def size (registry : FormatRegistry) : Nat := registry.handlers.length

def isEmpty (registry : FormatRegistry) : Bool := registry.handlers.isEmpty

/-- The number in the given format. The empty format is the plain one. -/
def formatList (registry : FormatRegistry) (number : Float) : List Char → Except String String
  | [] => .ok (Decimal.plain number)
  | c :: rest =>
      match FormatHandler.firstAnswer number (c :: rest)
          (fun _ => registry.formatList number rest) registry.handlers with
      | .error message => .error message
      | .ok (some text) => .ok text
      | .ok none =>
          match Format.standard? number (c :: rest) with
          | some text => .ok (String.ofList text)
          | none => .ok (Decimal.plain number)

def format (registry : FormatRegistry) (number : Float) (spec : String) : Except String String :=
  registry.formatList number spec.toList

/-- Texts are left as they are, and numbers too when no format is asked for. -/
def formatValue (registry : FormatRegistry) (value : Value) (spec : Option String) :
    Except String String :=
  match value.real?, spec with
  | some number, some format => registry.format number format
  | _, _ => .ok value.display

@[simp] theorem format_empty (registry : FormatRegistry) (number : Float) :
    registry.format number "" = .ok (Decimal.plain number) := by
  simp [format, formatList]

end FormatRegistry

end Phrasebook
