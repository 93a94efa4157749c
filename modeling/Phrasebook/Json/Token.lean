import Phrasebook.Json.Numeral

/-!
Tokens of JSON texts: brackets, separators, and the scalar values. White space between them is
skipped, and a text that is no sequence of tokens is refused as a whole.
-/

namespace Phrasebook.Json

inductive Token where
  | openArray
  | closeArray
  | openObject
  | closeObject
  | comma
  | colon
  | scalar (value : Json)

def hexDigit? (c : Char) : Option Nat :=
  if c.isDigit then some (c.toNat - '0'.toNat)
  else if 'a' ≤ c && c ≤ 'f' then some (c.toNat - 'a'.toNat + 10)
  else if 'A' ≤ c && c ≤ 'F' then some (c.toNat - 'A'.toNat + 10)
  else none

def hexUnit? (a b c d : Char) : Option Nat := do
  return ((← hexDigit? a) * 16 + (← hexDigit? b)) * 256 + (← hexDigit? c) * 16 + (← hexDigit? d)

def isHighSurrogate (unit : Nat) : Bool := 0xd800 ≤ unit && unit ≤ 0xdbff

def isLowSurrogate (unit : Nat) : Bool := 0xdc00 ≤ unit && unit ≤ 0xdfff

def joinSurrogates (high low : Nat) : Char :=
  Char.ofNat (0x10000 + (high - 0xd800) * 0x400 + (low - 0xdc00))

def shortEscape? : Char → Option Char
  | '"' => some '"'
  | '\\' => some '\\'
  | '/' => some '/'
  | 'b' => some '\x08'
  | 'f' => some '\x0c'
  | 'n' => some '\n'
  | 'r' => some '\r'
  | 't' => some '\t'
  | _ => none

/-- The content of a string whose opening quote has been read. Surrogates count only in pairs. -/
def readString? (content : List Char) : List Char → Option (List Char × List Char)
  | [] => none
  | '"' :: rest => some (content.reverse, rest)
  | '\\' :: 'u' :: a :: b :: c :: d :: '\\' :: 'u' :: e :: f :: g :: h :: rest =>
      match hexUnit? a b c d, hexUnit? e f g h with
      | some first, some second =>
          if isHighSurrogate first then
            if isLowSurrogate second then readString? (joinSurrogates first second :: content) rest
            else none
          else if isLowSurrogate first then none
          else readString? (Char.ofNat first :: content) ('\\' :: 'u' :: e :: f :: g :: h :: rest)
      | _, _ => none
  | '\\' :: 'u' :: a :: b :: c :: d :: rest =>
      match hexUnit? a b c d with
      | some unit =>
          if isHighSurrogate unit || isLowSurrogate unit then none
          else readString? (Char.ofNat unit :: content) rest
      | none => none
  | '\\' :: letter :: rest =>
      match shortEscape? letter with
      | some meant => readString? (meant :: content) rest
      | none => none
  | c :: rest => if c.toNat < 0x20 || c = '\\' then none else readString? (c :: content) rest

def isSpace (c : Char) : Bool :=
  c = ' ' || c = '\n' || c = '\t' || c = '\r'

def token? : List Char → Option (Token × List Char)
  | '[' :: rest => some (.openArray, rest)
  | ']' :: rest => some (.closeArray, rest)
  | '{' :: rest => some (.openObject, rest)
  | '}' :: rest => some (.closeObject, rest)
  | ',' :: rest => some (.comma, rest)
  | ':' :: rest => some (.colon, rest)
  | '"' :: rest =>
      (readString? [] rest).map fun found => (.scalar (.string (String.ofList found.1)), found.2)
  | 'n' :: 'u' :: 'l' :: 'l' :: rest => some (.scalar .null, rest)
  | 't' :: 'r' :: 'u' :: 'e' :: rest => some (.scalar (.bool true), rest)
  | 'f' :: 'a' :: 'l' :: 's' :: 'e' :: rest => some (.scalar (.bool false), rest)
  | text => (readNumber? text).map fun found => (.scalar (.number found.1), found.2)

/-- All tokens of a text. The fuel bounds their number. -/
def tokensWithin : Nat → List Char → Option (List Token)
  | 0, _ => none
  | fuel + 1, text =>
      match text.dropWhile isSpace with
      | [] => some []
      | c :: rest =>
          match token? (c :: rest) with
          | none => none
          | some (token, following) => (tokensWithin fuel following).map (token :: ·)

/-- No token is empty, so there are at most as many as characters. -/
def tokens? (text : List Char) : Option (List Token) :=
  tokensWithin (text.length + 1) text

end Phrasebook.Json
