import Phrasebook.Render.Noted

/-!
Decoration of references. The rendering of a referenced phrase may be underlined and made the anchor
of a link to its key; whether it is depends on the scope of the decoration and on the tooltip sign
of the reference.
-/

namespace Phrasebook

inductive DecorationScope where
  | never
  | tooltipsOnly
  | all
  deriving DecidableEq, Repr

structure Decoration where
  underline : Bool
  link : Bool
  scope : DecorationScope
  deriving DecidableEq, Repr

namespace Decoration

def usual : Decoration := ⟨true, true, .tooltipsOnly⟩

def none : Decoration := ⟨false, false, .never⟩

instance : Inhabited Decoration := ⟨usual⟩

def applies (decoration : Decoration) (tooltip : Bool) : Bool :=
  match decoration.scope with
  | .never => false
  | .tooltipsOnly => tooltip
  | .all => true

/-- What is written one after the other, the link outside. -/
def parts (decoration : Decoration) (key : String) (tooltip : Bool) (text : String) : List String :=
  if decoration.applies tooltip then
    (if decoration.link then ["<link=", key, ">"] else []) ++
      (if decoration.underline then ["<u>"] else []) ++ [text] ++
      (if decoration.underline then ["</u>"] else []) ++
      (if decoration.link then ["</link>"] else [])
  else [text]

def apply (decoration : Decoration) (key : String) (tooltip : Bool) (text : String) : String :=
  String.join (decoration.parts key tooltip text)

def emit (decoration : Decoration) (key : String) (tooltip : Bool) (text : String) : Noted String :=
  ⟨decoration.apply key tooltip text, [], (decoration.parts key tooltip text).map Traffic.write⟩

end Decoration

end Phrasebook
