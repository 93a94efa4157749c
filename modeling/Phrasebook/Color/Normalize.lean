import Phrasebook.Color.Code

/-!
Normal form of color markup. Stored texts may name a color by its palette letter; in the normal form
every such letter is replaced by the color itself, and nothing else is changed.
-/

namespace Phrasebook

def colorOpening : List Char := ['<', 'c', 'o', 'l', 'o', 'r', '=']

def expandLetter (letter : Char) : List Char :=
  match paletteHex? letter with
  | some hex => hex.toList
  | none => [letter]

/-- A letter counts only between an opening and the end of the tag. After one character other than a
palette letter no new opening can begin before the end of the tag. -/
def normalizeColorList : List Char → List Char
  | '<' :: 'c' :: 'o' :: 'l' :: 'o' :: 'r' :: '=' :: letter :: '>' :: rest =>
      colorOpening ++ expandLetter letter ++ '>' :: normalizeColorList rest
  | c :: cs => c :: normalizeColorList cs
  | [] => []

/-- Replaces the palette letters in the opening tags of a text. -/
def normalizeColors (text : String) : String :=
  String.ofList (normalizeColorList text.toList)

@[simp] theorem normalizeColorList_nil : normalizeColorList [] = [] := rfl

theorem normalizeColorList_of_bare {text : List Char} (bare : '<' ∉ text) :
    normalizeColorList text = text := by
  fun_induction normalizeColorList text with
  | case1 => simp at bare
  | case2 c cs _ ih => rw [ih fun member => bare (List.mem_cons_of_mem c member)]
  | case3 => rfl

theorem normalizeColors_of_bare {text : String} (bare : '<' ∉ text.toList) :
    normalizeColors text = text := by
  rw [normalizeColors, normalizeColorList_of_bare bare, String.ofList_toList]

end Phrasebook
