import Phrasebook.Key.Basic

/-!
Finite maps from keys, stored by segment. A tree holds the value at its own key and its branches,
ascending by name; every branch counts the values at or below it. A branch that leads to no value is
never kept. Siblings are linked as in a list, so that every function here is a plain recursion.
-/

namespace Phrasebook

universe u

/-- The branches below a key. `below` belongs to the named branch, `next` to its siblings. -/
inductive Branches (α : Type u) where
  | nil
  | cons (name : String) (value : Option α) (count : Nat) (below next : Branches α)

structure KeyTree (α : Type u) where
  value : Option α
  count : Nat
  below : Branches α

variable {α : Type u}

namespace Branches

def isEmpty : Branches α → Bool
  | nil => true
  | cons .. => false

def find? (wanted : String) : Branches α → Option (KeyTree α)
  | nil => none
  | cons name value count below next =>
      if name = wanted then some ⟨value, count, below⟩ else next.find? wanted

def names : Branches α → List String
  | nil => []
  | cons name _ _ _ next => name :: next.names

def toList : Branches α → List (String × KeyTree α)
  | nil => []
  | cons name value count below next => (name, ⟨value, count, below⟩) :: next.toList

/-- One new branch that leads down a path to a value. -/
def spine (name : String) (path : List String) (value : α) (next : Branches α) : Branches α :=
  match path with
  | [] => cons name (some value) 1 nil next
  | segment :: rest => cons name none 1 (spine segment rest value nil) next

/-- Stores a value where none is, and counts it on the way. -/
def add (value : α) : Branches α → String → List String → Branches α
  | nil, segment, rest => spine segment rest value nil
  | cons name old count below next, segment, rest =>
      if name = segment then
        match rest with
        | [] => cons name (some value) (count + 1) below next
        | following :: path => cons name old (count + 1) (below.add value following path) next
      else if segment < name then spine segment rest value (cons name old count below next)
      else cons name old count below (next.add value segment rest)

def modify (change : α → α) : Branches α → String → List String → Branches α
  | nil, _, _ => nil
  | cons name value count below next, segment, rest =>
      if name = segment then
        match rest with
        | [] => cons name (value.map change) count below next
        | following :: path => cons name value count (below.modify change following path) next
      else cons name value count below (next.modify change segment rest)

def keep (name : String) (value : Option α) (count : Nat) (below next : Branches α) : Branches α :=
  if value.isNone && below.isEmpty then next else cons name value count below next

/-- Takes a value out, and with it the branches that led to it alone. -/
def remove? : Branches α → String → List String → Option (α × Branches α)
  | nil, _, _ => none
  | cons name value count below next, segment, rest =>
      if name = segment then
        match rest with
        | [] => value.map fun old => (old, keep name none (count - 1) below next)
        | following :: path =>
            (below.remove? following path).map fun removed =>
              (removed.1, keep name value (count - 1) removed.2 next)
      else
        (next.remove? segment rest).map fun removed =>
          (removed.1, cons name value count below removed.2)

/-- The values below a key with their full keys: a key before its extensions, siblings by name. -/
def entries (key : Key) : Branches α → List (Key × α)
  | nil => []
  | cons name value _ below next =>
      (value.map fun stored => (key.child name, stored)).toList ++
        below.entries (key.child name) ++ next.entries key

end Branches

namespace KeyTree

def empty : KeyTree α := ⟨none, 0, .nil⟩

instance : Inhabited (KeyTree α) := ⟨empty⟩

def size (tree : KeyTree α) : Nat := tree.count

def isEmpty (tree : KeyTree α) : Bool := tree.count = 0

def subtree? (tree : KeyTree α) : List String → Option (KeyTree α)
  | [] => some tree
  | segment :: rest => (tree.below.find? segment).bind fun child => child.subtree? rest

def get? (tree : KeyTree α) (key : Key) : Option α :=
  (tree.subtree? key.segments).bind (·.value)

def contains (tree : KeyTree α) (key : Key) : Bool :=
  (tree.get? key).isSome

def modify (tree : KeyTree α) (key : Key) (change : α → α) : KeyTree α :=
  match key.segments with
  | [] => { tree with value := tree.value.map change }
  | segment :: rest => { tree with below := tree.below.modify change segment rest }

def add (tree : KeyTree α) (key : Key) (value : α) : KeyTree α :=
  match key.segments with
  | [] => ⟨some value, tree.count + 1, tree.below⟩
  | segment :: rest => ⟨tree.value, tree.count + 1, tree.below.add value segment rest⟩

def insert (tree : KeyTree α) (key : Key) (value : α) : Option α × KeyTree α :=
  match tree.get? key with
  | some old => (some old, tree.modify key fun _ => value)
  | none => (none, tree.add key value)

def remove (tree : KeyTree α) (key : Key) : Option α × KeyTree α :=
  match key.segments with
  | [] =>
      match tree.value with
      | some old => (some old, ⟨none, tree.count - 1, tree.below⟩)
      | none => (none, tree)
  | segment :: rest =>
      match tree.below.remove? segment rest with
      | some (old, below) => (some old, ⟨tree.value, tree.count - 1, below⟩)
      | none => (none, tree)

/-- Stores the values in order; the last one of a key stays. -/
def insertAll (tree : KeyTree α) (pairs : List (Key × α)) : KeyTree α :=
  pairs.foldl (fun result pair => (result.insert pair.1 pair.2).2) tree

def ofList (pairs : List (Key × α)) : KeyTree α :=
  empty.insertAll pairs

/-- The values at or below `key`, where this tree hangs. -/
def entriesFrom (tree : KeyTree α) (key : Key) : List (Key × α) :=
  (tree.value.map fun stored => (key, stored)).toList ++ tree.below.entries key

def entries (tree : KeyTree α) : List (Key × α) :=
  tree.entriesFrom Key.root

def keys (tree : KeyTree α) : List Key :=
  tree.entries.map (·.1)

@[simp] theorem subtree?_nil (tree : KeyTree α) : tree.subtree? [] = some tree := rfl

@[simp] theorem get?_empty (key : Key) : (empty : KeyTree α).get? key = none := by
  unfold get? empty
  cases key.segments <;> simp [subtree?, Branches.find?]

theorem subtree?_append (tree : KeyTree α) (first second : List String) :
    tree.subtree? (first ++ second) = (tree.subtree? first).bind (·.subtree? second) := by
  induction first generalizing tree with
  | nil => rfl
  | cons segment rest ih =>
      simp only [List.cons_append, subtree?]
      cases tree.below.find? segment with
      | none => rfl
      | some child => exact ih child

end KeyTree

end Phrasebook
