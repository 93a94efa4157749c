import Phrasebook.Text.Hidden

/-!
Quotation of characters and texts in messages. The enclosing mark and the backslash are escaped,
common controls have short names, and every other hidden character is written by its code point.
-/

namespace Phrasebook.Text

def codePointEscape (c : Char) : List Char :=
  ['\\', 'u', '{'] ++ Nat.toDigits 16 c.toNat ++ ['}']

def quoteChar (mark c : Char) : List Char :=
  if c = '\x00' then ['\\', '0']
  else if c = '\t' then ['\\', 't']
  else if c = '\r' then ['\\', 'r']
  else if c = '\n' then ['\\', 'n']
  else if c = '\\' || c = mark then ['\\', c]
  else if isHidden c then codePointEscape c
  else [c]

/-- A character between single quotes. A double quote stands for itself in it. -/
def quotedChar (c : Char) : String :=
  String.ofList ('\'' :: quoteChar '\'' c ++ ['\''])

/-- A text between double quotes. A single quote stands for itself in it. -/
def quoted (text : String) : String :=
  String.ofList ('"' :: text.toList.flatMap (quoteChar '"') ++ ['"'])

end Phrasebook.Text
