import Phrasebook.File.Basic
import Phrasebook.Text.Split

/-!
A working directory held in memory: files by their paths. A directory is there as soon as a file
lies in it. Of everything outside the working directory only directories are known. Names and paths
have a greatest length in bytes.
-/

namespace Phrasebook

/-- The files of a working directory, each by the names on the way to it. -/
structure FileTree where
  files : List (List String × String)

namespace FileTree

inductive Place where
  | file (content : String)
  | directory (names : List String)
  | outside

def namesOf (path : String) : List String :=
  (Text.fields '/' path.toList).map String.ofList

def trail (names : List String) (name : String) : List String :=
  if name = "" ∨ name = "." then names
  else if name = ".." then names.dropLast
  else names ++ [name]

/-- Of two files at the same place the later one stays. -/
def ofList (files : List (String × String)) : FileTree :=
  ⟨files.reverse.map fun file => ((namesOf file.1).foldl trail [], file.2)⟩

def longestName : Nat := 255

def longestPath : Nat := 4095

def placeAt? (tree : FileTree) (names : List String) : Option Place :=
  match tree.files.find? fun file => file.1 = names with
  | some file => some (.file file.2)
  | none =>
      if tree.files.any fun file => names.isPrefixOf file.1 then some (.directory names) else none

/-- One step of a path. Two dots lead to the directory above, a single dot nowhere. -/
def step (tree : FileTree) (place : Place) (name : String) : Except FileFault Place :=
  match place with
  | .file _ => .error .notDirectory
  | .outside =>
      if name = "" ∨ name = "." ∨ name = ".." then .ok .outside
      else if longestName < name.utf8ByteSize then .error .nameTooLong
      else .error .missing
  | .directory names =>
      if name = "" ∨ name = "." then .ok place
      else if name = ".." then
        .ok (if names.isEmpty then .outside else .directory names.dropLast)
      else if longestName < name.utf8ByteSize then .error .nameTooLong
      else match tree.placeAt? (names ++ [name]) with
        | some found => .ok found
        | none => .error .missing

def resolve (tree : FileTree) (path : String) : Except FileFault Place :=
  if path.toList.contains '\x00' then .error .zeroByte
  else if path = "" then .error .missing
  else if longestPath < path.utf8ByteSize then .error .nameTooLong
  else
    let start := if path.startsWith "/" then Place.outside else .directory []
    (namesOf path).foldlM tree.step start

def read (tree : FileTree) (path : String) : FileContent :=
  match tree.resolve path with
  | .ok (.file content) => .ok content
  | .ok _ => .error .isDirectory
  | .error fault => .error fault

end FileTree

end Phrasebook
