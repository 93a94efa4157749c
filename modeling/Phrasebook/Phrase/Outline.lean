import Phrasebook.Phrase.Reading
import Phrasebook.Text.Quoted

/-!
Outlines of templates for inspection: one line for every piece, with two spaces of indentation for
every level.
-/

namespace Phrasebook

def Leaf.outline : Leaf → String
  | .text _ content => "Literal " ++ Text.quoted content
  | .reference tooltip key =>
      "KeyReference " ++ Text.quoted key ++ (if tooltip then " tooltip" else "")
  | .slot formula none => "DynamicValue " ++ Text.quoted formula
  | .slot formula (some format) =>
      "DynamicValue " ++ Text.quoted formula ++ " format " ++ Text.quoted format

def outlineBreak (level : Nat) : String :=
  "\n" ++ String.ofList (List.replicate (2 * level) ' ')

def Phrase.outline (level : Nat) : Phrase → String
  | .nil => ""
  | .leaf _ piece next => outlineBreak level ++ piece.outline ++ next.outline level
  | .colored _ code _ body next =>
      outlineBreak level ++ "ColorTag " ++ code.written ++ body.outline (level + 1) ++
        next.outline level

def Template.outline (template : Template) : String :=
  "Root" ++ template.phrase.outline 1

end Phrasebook
