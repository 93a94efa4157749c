import Phrasebook.Formula.Variable

/-!
Reading of formulas. Sums are chains of products, products chains of powers, and powers chains of
numbers, variables and formulas in parentheses; every chain groups to the left. A reader that
rejects tells where it stopped: an operator without an operand after it is given back together with
the blanks in front of it, whereas a parenthesis is not given back once it has been opened.
-/

namespace Phrasebook

inductive Reply (α : Type) where
  | accept (value : α) (rest : List Char)
  | reject (rest : List Char)

namespace Formula

def digitsOf (text : List Char) : List Char := text.takeWhile Char.isDigit

def afterDigits (text : List Char) : List Char := text.dropWhile Char.isDigit

def fractionPart (text : List Char) : List Char × List Char :=
  match text with
  | '.' :: rest =>
      if (digitsOf rest).isEmpty then ([], text) else ('.' :: digitsOf rest, afterDigits rest)
  | _ => ([], text)

def exponentPart (text : List Char) : List Char × List Char :=
  match text with
  | mark :: rest =>
      if mark = 'e' || mark = 'E' then
        let (sign, body) := match rest with
          | '+' :: after => (['+'], after)
          | '-' :: after => (['-'], after)
          | _ => ([], rest)
        if (digitsOf body).isEmpty then ([], text)
        else (mark :: sign ++ digitsOf body, afterDigits body)
      else ([], text)
  | [] => ([], [])

/-- Splits a numeral off the text. A minus sign directly before the digits belongs to it. -/
def numeral? (text : List Char) : Option (List Char × List Char) :=
  let (sign, body) := match text with
    | '-' :: rest => (['-'], rest)
    | _ => ([], text)
  if (digitsOf body).isEmpty then none
  else
    let (fraction, afterFraction) := fractionPart (afterDigits body)
    let (exponent, rest) := exponentPart afterFraction
    some (sign ++ digitsOf body ++ fraction ++ exponent, rest)

def number? (text : List Char) : Option (Formula × List Char) :=
  match numeral? text with
  | some (numeral, rest) => (Decimal.float? numeral).map fun value => (.number value, rest)
  | none => none

/-- A number, a variable, or what `group` reads in parentheses. -/
def primary (group : List Char → Reply Formula) (text : List Char) : Reply Formula :=
  match number? text with
  | some (formula, rest) => .accept formula rest
  | none =>
      match Variable.read? text with
      | some (found, rest) => .accept (.var found) rest
      | none =>
          match text with
          | '(' :: inside =>
              match group (Text.skipBlanks inside) with
              | .reject rest => .reject rest
              | .accept formula rest =>
                  match Text.skipBlanks rest with
                  | ')' :: after => .accept formula after
                  | unclosed => .reject unclosed
          | _ => .reject text

def operator? (operators : List BinaryOp) (text : List Char) : Option (BinaryOp × List Char) :=
  match Text.skipBlanks text with
  | [] => none
  | c :: cs =>
      (operators.find? fun op => op.symbol = c).map fun op => (op, Text.skipBlanks cs)

/-- Joins operands to the left as long as an operator and an operand follow. -/
def chainFrom (operators : List BinaryOp) (operand : List Char → Reply Formula) (lhs : Formula)
    (text : List Char) : Reply Formula :=
  match operator? operators text with
  | none => .accept lhs text
  | some (op, afterOperator) =>
      match operand afterOperator with
      | .reject _ => .accept lhs text
      | .accept rhs rest =>
          if rest.length < text.length then chainFrom operators operand (.binary op lhs rhs) rest
          else .accept lhs text
termination_by text.length

def chain (operators : List BinaryOp) (operand : List Char → Reply Formula) (text : List Char) :
    Reply Formula :=
  match operand text with
  | .reject rest => .reject rest
  | .accept lhs rest => chainFrom operators operand lhs rest

def sumOperators : List BinaryOp := [.add, .subtract]

def productOperators : List BinaryOp := [.multiply, .divide]

def powerOperators : List BinaryOp := [.power]

def chains (operand : List Char → Reply Formula) : List Char → Reply Formula :=
  chain sumOperators (chain productOperators (chain powerOperators operand))

/-- A formula with fewer than `levels` parentheses inside each other. -/
def expression : Nat → List Char → Reply Formula
  | 0, text => .reject text
  | levels + 1, text => chains (primary (expression levels)) text

/-- Whether more than `limit` parentheses are open at some place. What is not opened is not
closed. -/
def nestsDeeper (limit : Nat) (opened : Nat) : List Char → Bool
  | [] => false
  | '(' :: cs => limit < opened + 1 || nestsDeeper limit (opened + 1) cs
  | ')' :: cs => nestsDeeper limit (opened - 1) cs
  | _ :: cs => nestsDeeper limit opened cs

def column (text rest : List Char) : Nat := text.length - rest.length + 1

def parseList (text : List Char) : Except FormulaFault Formula :=
  match expression (text.length + 1) (Text.skipBlanks text) with
  | .reject rest => .error (.malformed (column text rest))
  | .accept formula rest =>
      match Text.skipBlanks rest with
      | [] => .ok formula
      | c :: cs => .error (.unexpectedChar (column text (c :: cs)) c)

def parse (text : String) : Except FormulaFault Formula :=
  if nestsDeeper maxParentheses 0 text.toList then .error .tooDeep else parseList text.toList

end Formula

end Phrasebook
