import Phrasebook.Formula.Basic
import Phrasebook.Text.Blank
import Phrasebook.Text.Split

/-!
Reading of variables. A name begins with a letter or an underscore; parameters may follow between
angle brackets, separated by commas. Blanks around a parameter, its key and its value do not count,
and empty parameters are left out.
-/

namespace Phrasebook

def isNameStart (c : Char) : Bool :=
  c.isAlpha || c = '_'

def isNameChar (c : Char) : Bool :=
  c.isAlphanum || c = '_' || c = '.' || c = '~' || c = ':' || c = '='

namespace Param

/-- A parameter from its trimmed text. The first equals sign separates the key from the value. -/
def ofText (text : List Char) : Param :=
  match Text.splitFirst? '=' text with
  | some (key, value) =>
      .named (String.ofList (Text.trim key)) (String.ofList (Text.trim value))
  | none => .flag (String.ofList text)

def list (text : List Char) : List Param :=
  (((Text.fields ',' text).map Text.trim).filter fun field => !field.isEmpty).map ofText

end Param

namespace Variable

/-- The parameters and the rest, if a closed pair of angle brackets comes next. -/
def params? : List Char → Option (List Param × List Char)
  | '<' :: text => (Text.splitFirst? '>' text).map fun parts => (Param.list parts.1, parts.2)
  | _ => none

def read? : List Char → Option (Variable × List Char)
  | [] => none
  | c :: cs =>
      if isNameStart c then
        let name := String.ofList (c :: cs.takeWhile isNameChar)
        let rest := cs.dropWhile isNameChar
        match params? rest with
        | some (params, after) => some (⟨name, params⟩, after)
        | none => some (⟨name, []⟩, rest)
      else none

/-- A text that is one variable and nothing else, apart from blanks around it. -/
def parseBare? (text : String) : Option Variable :=
  match read? (Text.trim text.toList) with
  | some (var, []) => some var
  | _ => none

theorem length_params? {text rest : List Char} {params : List Param}
    (found : params? text = some (params, rest)) : rest.length < text.length := by
  unfold params? at found
  split at found
  · simp only [Option.map_eq_some_iff, Prod.mk.injEq] at found
    obtain ⟨parts, split, _, rfl⟩ := found
    rw [(Text.splitFirst?_eq_some split).1]
    simp only [List.length_append, List.length_cons]
    omega
  · simp at found

end Variable

end Phrasebook
