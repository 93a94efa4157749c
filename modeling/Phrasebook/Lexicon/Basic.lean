import Phrasebook.KeyTree.View
import Phrasebook.Lexicon.Entry
import Phrasebook.Suggestion
import Phrasebook.Text.Split

/-!
Lexicons: the texts of a phrasebook by key. A load replaces all entries or none. Partially typed
keys are completed from the next segments, and a key that is not there may have neighbours to
suggest.
-/

namespace Phrasebook

structure LoadError where
  key : String
  cause : KeyError
  deriving DecidableEq, Repr

def LoadError.message (error : LoadError) : String :=
  s!"invalid key '{error.key}': {error.cause.message}"

structure Lexicon where
  entries : KeyTree Entry

namespace Lexicon

def empty : Lexicon := ⟨KeyTree.empty⟩

instance : Inhabited Lexicon := ⟨empty⟩

def size (lexicon : Lexicon) : Nat := lexicon.entries.size

def isEmpty (lexicon : Lexicon) : Bool := lexicon.entries.isEmpty

/-- The keys and texts of a load, up to the first text that is no key. -/
def parsePairs (pairs : List (String × String)) : Except LoadError (List (Key × Entry)) :=
  pairs.mapM fun pair =>
    match Key.parse pair.1 with
    | .ok key => .ok (key, Entry.new pair.2)
    | .error cause => .error ⟨pair.1, cause⟩

/-- The lexicon of the given texts. Of several texts for one key the last stays. -/
def ofPairs (pairs : List (String × String)) : Except LoadError Lexicon :=
  (parsePairs pairs).map fun parsed => ⟨KeyTree.ofList parsed⟩

/-- Replaces all entries and tells how many there are. If a text is no key, the lexicon stays as it
is. -/
def load (lexicon : Lexicon) (pairs : List (String × String)) : Except LoadError Nat × Lexicon :=
  match ofPairs pairs with
  | .ok loaded => (.ok loaded.size, loaded)
  | .error error => (.error error, lexicon)

def insert (lexicon : Lexicon) (key : Key) (text : String) : Option String × Lexicon :=
  let result := lexicon.entries.insert key (Entry.new text)
  (result.1.map (·.raw), ⟨result.2⟩)

def remove (lexicon : Lexicon) (key : Key) : Option String × Lexicon :=
  let result := lexicon.entries.remove key
  (result.1.map (·.raw), ⟨result.2⟩)

def entry? (lexicon : Lexicon) (key : Key) : Option Entry :=
  lexicon.entries.get? key

def raw? (lexicon : Lexicon) (key : Key) : Option String :=
  (lexicon.entry? key).map (·.raw)

def text? (lexicon : Lexicon) (key : Key) : Option String :=
  (lexicon.entry? key).map (·.text)

/-- The text in its normal form, and the lexicon that has kept it. -/
def read (lexicon : Lexicon) (key : Key) : Option String × Lexicon :=
  (lexicon.text? key, ⟨lexicon.entries.modify key fun entry => entry.read.2⟩)

def contains (lexicon : Lexicon) (key : Key) : Bool :=
  lexicon.entries.contains key

def keys (lexicon : Lexicon) : List Key := lexicon.entries.keys

def lookup (lexicon : Lexicon) (key : Key) : List Key :=
  ((lexicon.entries.view? key).map (·.keys)).getD []

/-- A partially typed key: the path to complete under, and the beginning of the next segment. -/
def splitTyped (typed : String) : String × String :=
  match Text.splitLast? '.' typed.toList with
  | some (path, start) => (String.ofList path, String.ofList start)
  | none => ("", typed)

/-- The next segments that a partially typed key may continue with, in order. -/
def options (lexicon : Lexicon) (typed : String) : List String :=
  let (path, start) := splitTyped typed
  match Key.parse path with
  | .error _ => []
  | .ok key =>
      match lexicon.entries.view? key with
      | none => []
      | some view => view.names.filter fun name => start.toList.isPrefixOf name.toList

def suggestions (lexicon : Lexicon) (key : Key) : List Key :=
  match key.parent?, key.last? with
  | some parent, some last =>
      match lexicon.entries.view? parent with
      | none => []
      | some view =>
          let siblings := view.names.filter fun name =>
            ((view.child? name).map (·.isTerminal)).getD false
          (nearestNames last siblings).filterMap fun name => (parent.push name).toOption
  | _, _ => []

def missingMessage (lexicon : Lexicon) (key : Key) : String :=
  match lexicon.suggestions key with
  | [] => s!"key '{key.text}' not found"
  | near =>
      let names := ", ".intercalate (near.map (·.text))
      s!"key '{key.text}' not found; did you mean: {names}"

@[simp] theorem text?_empty (key : Key) : empty.text? key = none := by
  simp [text?, entry?, empty]

end Lexicon

end Phrasebook
