import Phrasebook.Text.Split

/-!
Paths of files as they are written. The parent of a path is the path without its last component;
separators and single dots at the end do not count as components.
-/

namespace Phrasebook.File

/-- The path without the separators and the single dots at its end. -/
def trimEnd (path : List Char) : List Char :=
  match _found : Text.splitLast? '/' path with
  | none => path
  | some (before, last) =>
      if last = [] ∨ last = ['.'] then
        if before = [] then ['/'] else trimEnd before
      else path
termination_by path.length
decreasing_by exact Text.splitLast?_length_lt ‹_›

def parent? (path : String) : Option String :=
  let trimmed := trimEnd path.toList
  if trimmed = [] ∨ trimmed = ['/'] then none
  else match Text.splitLast? '/' trimmed with
    | none => some ""
    | some ([], _) => some "/"
    | some (before, _) => some (String.ofList (trimEnd before))

/-- The path of a name within a directory. A name that begins at the root stands for itself. -/
def join (directory name : String) : String :=
  if name.startsWith "/" || directory = "" then name
  else if directory.endsWith "/" then directory ++ name
  else directory ++ "/" ++ name

end Phrasebook.File
