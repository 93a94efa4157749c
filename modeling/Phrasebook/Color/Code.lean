import Phrasebook.Text.Measure

/-!
Color codes. A code is a letter of the palette, or a number sign and six hexadecimal digits, and it
stands directly after the mark that opens a colored stretch of a template.
-/

namespace Phrasebook

def palette : List (Char × String) :=
  [('A', "#808080"), ('B', "#0000FF"), ('C', "#00FFFF"), ('G', "#00FF00"), ('K', "#000000"),
    ('M', "#FF00FF"), ('O', "#FFA500"), ('P', "#800080"), ('R', "#FF0000"), ('W', "#FFFFFF"),
    ('Y', "#FFFF00")]

def paletteHex? (letter : Char) : Option String :=
  (palette.find? fun entry => entry.1 = letter).map (·.2)

def isHexDigit (c : Char) : Bool :=
  c.isDigit || ('a' ≤ c && c ≤ 'f') || ('A' ≤ c && c ≤ 'F')

inductive ColorCode where
  | letter (name : Char)
  | digits (text : String)
  deriving DecidableEq, Repr

namespace ColorCode

def read? : List Char → Option (ColorCode × List Char)
  | [] => none
  | '#' :: rest =>
      let digits := rest.take 6
      if digits.length = 6 && digits.all isHexDigit then
        some (.digits (String.ofList ('#' :: digits)), rest.drop 6)
      else none
  | first :: rest => (paletteHex? first).map fun _ => (.letter first, rest)

def written : ColorCode → String
  | .letter name => name.toString
  | .digits text => text

def parse? (text : String) : Option ColorCode :=
  match read? text.toList with
  | some (code, []) => some code
  | _ => none

def hex : ColorCode → String
  | .letter name => (paletteHex? name).getD "#FFFFFF"
  | .digits text => text

theorem read?_written {text rest : List Char} {code : ColorCode}
    (found : read? text = some (code, rest)) : text = code.written.toList ++ rest := by
  unfold read? at found
  split at found
  · simp at found
  · simp only [Bool.and_eq_true, decide_eq_true_eq] at found
    split at found
    · simp only [Option.some.injEq, Prod.mk.injEq] at found
      rw [← found.1, ← found.2]
      simp [written]
    · simp at found
  · simp only [Option.map_eq_some_iff, Prod.mk.injEq] at found
    obtain ⟨_, _, sameCode, sameRest⟩ := found
    rw [← sameCode, ← sameRest]
    simp [written]

end ColorCode

end Phrasebook
