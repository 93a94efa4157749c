import Phrasebook.Text.Joined

/-!
Letters that take one shape together with letters before them. A text is read from its end, so the
last letter of such a shape is met first; it then waits for the others. Marks that may be left out
when a text is shown do not part the letters.
-/

namespace Phrasebook.Text

/-- The end of a shape, from the letter that was met last on the way back through the text. -/
inductive Ligature where
  | arabicAlef
  | hebrewLamed
  | khmerLetter
  | bugineseYa
  | bugineseVowel
  | tifinaghConsonant
  | tifinaghJoiner
  | lisuTone
  | turkicI
  | kiratE
  | kiratAi
  deriving DecidableEq, Repr

def zeroWidthJoiner : Char := Char.ofNat 0x200d

def isArabicAlef (c : Char) : Bool :=
  within [(0x622, 0x623), (0x625, 0x625), (0x627, 0x627), (0x671, 0x673), (0x675, 0x675),
    (0x773, 0x774), (0x870, 0x882)] c

def isArabicLam (c : Char) : Bool :=
  within [(0x644, 0x644), (0x6b5, 0x6b8), (0x76a, 0x76a), (0x8a6, 0x8a6), (0x8c7, 0x8c7)] c

def isKhmerLetter (c : Char) : Bool :=
  within [(0x1780, 0x1782), (0x1784, 0x1787), (0x1789, 0x178c), (0x178e, 0x1793), (0x1795, 0x1798),
    (0x179b, 0x179d), (0x17a0, 0x17a0), (0x17a2, 0x17a2), (0x17a7, 0x17a7), (0x17ab, 0x17ac),
    (0x17af, 0x17af)] c

def isTifinaghConsonant (c : Char) : Bool := within [(0x2d31, 0x2d65), (0x2d6f, 0x2d6f)] c

namespace Ligature

def ofChar? (c : Char) : Option Ligature :=
  if isArabicAlef c then some .arabicAlef
  else if c.toNat = 0x5dc then some .hebrewLamed
  else if isKhmerLetter c then some .khmerLetter
  else if c.toNat = 0x1a10 then some .bugineseYa
  else if isTifinaghConsonant c then some .tifinaghConsonant
  else if within [(0xa4fc, 0xa4fd)] c then some .lisuTone
  else if c.toNat = 0x10c03 then some .turkicI
  else if c.toNat = 0x16d67 then some .kiratE
  else if c.toNat = 0x16d68 then some .kiratAi
  else none

def skips (ligature : Ligature) (c : Char) : Bool :=
  match ligature with
  | .arabicAlef => isTransparent c
  | .kiratE | .kiratAi => false
  | _ => isIgnorableMark c || c = zeroWidthJoiner

/-- The columns that a letter adds in front of a shape it belongs to, and the shape that may go on
before it. Some shapes need a joiner between the letters: `joined` says whether there was one. -/
def meet? (ligature : Ligature) (joined : Bool) (c : Char) : Option (Int × Option Ligature) :=
  match ligature with
  | .arabicAlef => if isArabicLam c then some (0, none) else none
  | .hebrewLamed => if joined ∧ c.toNat = 0x5d0 then some (0, none) else none
  | .khmerLetter => if c.toNat = 0x17d2 then some (-1, none) else none
  | .bugineseYa => if joined ∧ c.toNat = 0x1a17 then some (0, some .bugineseVowel) else none
  | .bugineseVowel => if c.toNat = 0x1a15 then some (0, none) else none
  | .tifinaghConsonant =>
      if c.toNat = 0x2d7f then some (1, some .tifinaghJoiner)
      else if joined ∧ isTifinaghConsonant c then some (0, none)
      else none
  | .tifinaghJoiner => if isTifinaghConsonant c then some (-1, none) else none
  | .lisuTone => if within [(0xa4f8, 0xa4fb)] c then some (0, none) else none
  | .turkicI => if joined ∧ c.toNat = 0x10c32 then some (0, none) else none
  | .kiratE =>
      if c.toNat = 0x16d67 then some (0, some .kiratAi)
      else if c.toNat = 0x16d68 then some (1, some .kiratE)
      else if c.toNat = 0x16d63 ∨ c.toNat = 0x16d69 then some (0, none)
      else none
  | .kiratAi => if c.toNat = 0x16d63 then some (0, none) else none

end Ligature

end Phrasebook.Text
