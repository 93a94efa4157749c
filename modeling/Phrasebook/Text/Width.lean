import Phrasebook.Text.Ligature
import Phrasebook.Text.Picture

/-!
The room that a text takes in columns of equal width. Ideographs and pictures take two columns;
marks that join the character before them, and characters that only direct the layout, take none.
Characters that are shown as one take the room of one: letters that are written together, a picture
and the skin tone after it, and pictures with joiners between them. A selector after a character
asks for its picture, for its plain shape or for its full width. What a character takes depends on
what follows it, so a text is measured from its end.
-/

namespace Phrasebook.Text

def wideRanges : List (Nat × Nat) :=
  [(0x1100, 0x115f), (0x2329, 0x232a), (0x2630, 0x2637), (0x268a, 0x268f), (0x2e80, 0x2e99),
   (0x2e9b, 0x2ef3), (0x2f00, 0x2fd5), (0x2ff0, 0x3029), (0x3030, 0x303e), (0x3041, 0x3096),
   (0x309b, 0x30ff), (0x3105, 0x312f), (0x3131, 0x3163), (0x3165, 0x318e), (0x3190, 0x31e5),
   (0x31ef, 0x321e), (0x3220, 0x3247), (0x3250, 0xa48c), (0xa490, 0xa4c6), (0xa960, 0xa97c),
   (0xac00, 0xd7a3), (0xf900, 0xfaff), (0xfe10, 0xfe19), (0xfe30, 0xfe52), (0xfe54, 0xfe66),
   (0xfe68, 0xfe6b), (0xff01, 0xff60), (0xffe0, 0xffe6), (0x16fe0, 0x16fe3), (0x16ff2, 0x16ff6),
   (0x17000, 0x18cd5), (0x18cff, 0x18d1e), (0x18d80, 0x18df2), (0x1aff0, 0x1aff3),
   (0x1aff5, 0x1affb), (0x1affd, 0x1affe), (0x1b000, 0x1b122), (0x1b132, 0x1b132),
   (0x1b150, 0x1b152), (0x1b155, 0x1b155), (0x1b164, 0x1b167), (0x1b170, 0x1b2fb),
   (0x1d300, 0x1d356), (0x1d360, 0x1d376), (0x1f200, 0x1f200), (0x1f202, 0x1f202),
   (0x1f210, 0x1f219), (0x1f21b, 0x1f22e), (0x1f230, 0x1f231), (0x1f237, 0x1f237),
   (0x1f23b, 0x1f23b), (0x1f240, 0x1f248), (0x1f260, 0x1f265), (0x20000, 0x2fffd),
   (0x30000, 0x3fffd)]

/-- What stands after a character, as far as the room of the character depends on it. -/
inductive Neighbor where
  | plain
  | letter (ligature : Ligature) (joined : Bool)
  | picture
  | skinTone
  | flagLetter
  | flagLetters
  | joinedPicture
  | joinedKeyFrame
  | joinedFlagLetter
  | joinedFlags (paired : Bool)
  | tagLetters (count : Nat)
  | tagDigits (count : Nat)
  deriving DecidableEq, Repr

inductive Selector where
  | plain
  | picture
  | full
  deriving DecidableEq, Repr

namespace Selector

def ofChar? (c : Char) : Option Selector :=
  if c.toNat = 0xfe01 then some .full
  else if c.toNat = 0xfe0e then some .plain
  else if c.toNat = 0xfe0f then some .picture
  else none

def takesFullRequest (c : Char) : Bool := within [(0x2018, 0x2019), (0x201c, 0x201d)] c

end Selector

namespace Neighbor

/-- The columns of a character that stands for itself, and what it is to the character before. -/
def alone (c : Char) : Int × Neighbor :=
  match Ligature.ofChar? c with
  | some ligature => (1, .letter ligature false)
  | none =>
      if c.toNat = 0x17d8 then (3, .plain)
      else if c.toNat = 0x17a4 then (2, .plain)
      else if isFlagLetter c then (1, .flagLetter)
      else if isSkinTone c then (2, .skinTone)
      else if isPicture c then (2, .picture)
      else if isJoined c then (0, .plain)
      else if within wideRanges c then (2, .plain)
      else (1, .plain)

def beforeLetter (ligature : Ligature) (joined : Bool) (c : Char) : Int × Neighbor :=
  if ligature.skips c then (0, .letter ligature (joined || c = zeroWidthJoiner))
  else match ligature.meet? joined c with
    | some (columns, some next) => (columns, .letter next false)
    | some (columns, none) => (columns, .plain)
    | none => alone c

def beforeJoined (c : Char) : Int × Neighbor :=
  if c = keyFrame then (0, .joinedKeyFrame)
  else if isFlagLetter c then (1, .joinedFlagLetter)
  else if isSkinTone c then (0, .skinTone)
  else if c = tagEnd then (0, .tagLetters 0)
  else if isPicture c then (0, .picture)
  else alone c

/-- The columns of a character in front of what follows it, and what it is to the character before.
Flags are counted from the end of a row of their letters. When a row is joined to a picture, the
letter at its front stands alone if their number is odd. -/
def place (c : Char) : Neighbor → Int × Neighbor
  | .letter ligature joined => beforeLetter ligature joined c
  | .picture => if c = zeroWidthJoiner then (0, .joinedPicture) else alone c
  | .skinTone =>
      if isPerson c then (0, .picture)
      else if c = zeroWidthJoiner then (0, .joinedPicture)
      else alone c
  | .flagLetter => if isFlagLetter c then (1, .flagLetters) else alone c
  | .flagLetters =>
      if isFlagLetter c then (1, .flagLetters)
      else if c = zeroWidthJoiner then (0, .joinedPicture)
      else alone c
  | .joinedPicture => beforeJoined c
  | .joinedFlagLetter => if isFlagLetter c then (-1, .joinedFlags true) else alone c
  | .joinedFlags paired =>
      if isFlagLetter c then (if paired then 3 else -1, .joinedFlags !paired)
      else if c = zeroWidthJoiner then (0, .joinedPicture)
      else alone c
  | .tagLetters count =>
      if isTagLetter c ∧ count < 6 then (0, .tagLetters (count + 1))
      else if isTagDigit c ∧ count < 5 then (0, .tagDigits 1)
      else if c = blackFlag ∧ 3 ≤ count then (0, .picture)
      else alone c
  | .tagDigits count =>
      if isTagDigit c ∧ count < 3 then (0, .tagDigits (count + 1))
      else if c = blackFlag ∧ count = 3 then (0, .picture)
      else alone c
  | .plain => alone c
  | .joinedKeyFrame => alone c

def isJoinedPicture : Neighbor → Bool
  | .joinedPicture => true
  | .joinedKeyFrame => true
  | _ => false

def letterOnly : Neighbor → Neighbor
  | .letter ligature joined => .letter ligature joined
  | _ => .plain

def behind (selector : Char) : Neighbor → Neighbor
  | .letter ligature joined => if ligature.skips selector then .letter ligature joined else .plain
  | neighbor =>
      if neighbor.isJoinedPicture ∧ Selector.ofChar? selector = some .picture then neighbor
      else .plain

end Neighbor

/-- What stands after a character, with the selector right after it if there is one. -/
structure Following where
  neighbor : Neighbor
  selector : Option Selector
  deriving DecidableEq, Repr

namespace Following

def nothing : Following := ⟨.plain, none⟩

def ofNeighbor (neighbor : Neighbor) : Following := ⟨neighbor, none⟩

def placeChar (c : Char) (following : Following) : Int × Following :=
  if c.toNat ≤ 0xa0 then (1, nothing)
  else match Selector.ofChar? c with
    | some selector => (0, ⟨following.neighbor.behind c, some selector⟩)
    | none =>
        if following.selector = some .plain ∧ takesPlainRequest c then (1, nothing)
        else if following.selector = some .full ∧ Selector.takesFullRequest c then (2, nothing)
        else (following.neighbor.place c).map id ofNeighbor

def place (c : Char) (following : Following) : Int × Following :=
  if following.selector = some .picture then
    if takesPictureRequest c then
      (if following.neighbor.isJoinedPicture then 0 else 2, ofNeighbor .picture)
    else placeChar c ⟨following.neighbor.letterOnly, none⟩
  else placeChar c following

end Following

/-- The columns of characters side by side, and what they are to a character before them. -/
def measure : List Char → Int × Following
  | [] => (0, .nothing)
  | c :: cs =>
      let rest := measure cs
      let placed := rest.2.place c
      (placed.1 + rest.1, placed.2)

def columns (text : List Char) : Int := (measure text).1

def width (text : String) : Nat := (columns text.toList).toNat

end Phrasebook.Text
