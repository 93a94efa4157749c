import Phrasebook.KeyTree.Basic

/-!
Views of a key tree. A view is the part at or below a partial key, and knows that key. The walk of a
view hands out its values one by one and tells how many are left; it keeps the views that it has
still to visit and never copies what is below them.
-/

namespace Phrasebook

universe u

variable {α : Type u}

structure KeyView (α : Type u) where
  key : Key
  tree : KeyTree α

/-- What is left of a walk: the views to be visited, the next one first, and the announced number of
entries. -/
structure KeyWalk (α : Type u) where
  waiting : List (KeyView α)
  remaining : Nat

def Branches.nodes : Branches α → Nat
  | nil => 0
  | cons _ _ _ below next => below.nodes + next.nodes + 1

namespace KeyView

def value? (view : KeyView α) : Option α := view.tree.value

def isTerminal (view : KeyView α) : Bool := view.tree.value.isSome

def size (view : KeyView α) : Nat := view.tree.size

def isEmpty (view : KeyView α) : Bool := view.tree.isEmpty

def names (view : KeyView α) : List String := view.tree.below.names

def child? (view : KeyView α) (name : String) : Option (KeyView α) :=
  (view.tree.below.find? name).map fun tree => ⟨view.key.child name, tree⟩

def children (view : KeyView α) : List (KeyView α) :=
  view.tree.below.toList.map fun branch => ⟨view.key.child branch.1, branch.2⟩

def entries (view : KeyView α) : List (Key × α) := view.tree.entriesFrom view.key

def keys (view : KeyView α) : List Key := view.entries.map (·.1)

def walk (view : KeyView α) : KeyWalk α := ⟨[view], view.size⟩

def nodes (view : KeyView α) : Nat := view.tree.below.nodes + 1

def nodesOf : List (KeyView α) → Nat
  | [] => 0
  | view :: behind => view.nodes + nodesOf behind

theorem nodesOf_append (first later : List (KeyView α)) :
    nodesOf (first ++ later) = nodesOf first + nodesOf later := by
  induction first with
  | nil => exact (Nat.zero_add _).symm
  | cons view behind ih => rw [List.cons_append, nodesOf, nodesOf, ih, Nat.add_assoc]

theorem nodesOf_children (view : KeyView α) : nodesOf view.children = view.tree.below.nodes := by
  obtain ⟨key, ⟨value, count, below⟩⟩ := view
  induction below with
  | nil => rfl
  | cons name value count below next inside behind =>
      simp only [children, Branches.toList, List.map_cons, nodesOf, nodes,
        Branches.nodes] at behind ⊢
      omega

theorem nodesOf_visited (view : KeyView α) (behind : List (KeyView α)) :
    nodesOf (view.children ++ behind) < nodesOf (view :: behind) := by
  rw [nodesOf_append, nodesOf_children, nodesOf, nodes]
  exact Nat.add_lt_add_right (Nat.lt_succ_self _) _

end KeyView

namespace KeyWalk

/-- The first entry that is met, and the views that are left. The children of a view are visited
before the views behind it. -/
def visit : List (KeyView α) → Option ((Key × α) × List (KeyView α))
  | [] => none
  | view :: behind =>
      match view.value? with
      | some stored => some ((view.key, stored), view.children ++ behind)
      | none => visit (view.children ++ behind)
termination_by views => KeyView.nodesOf views
decreasing_by exact KeyView.nodesOf_visited view behind

def next (walk : KeyWalk α) : Option (Key × α) × KeyWalk α :=
  match visit walk.waiting with
  | some (entry, waiting) => (some entry, ⟨waiting, walk.remaining - 1⟩)
  | none => (none, ⟨[], walk.remaining⟩)

end KeyWalk

namespace KeyTree

/-- The view at a partial key, if anything is stored at or below it. The root always has one. -/
def view? (tree : KeyTree α) (key : Key) : Option (KeyView α) :=
  (tree.subtree? key.segments).map fun found => ⟨key, found⟩

def rootView (tree : KeyTree α) : KeyView α := ⟨Key.root, tree⟩

def quoted (tree : KeyTree String) : String :=
  let items := tree.entries.map fun entry => entry.1.quoted ++ ": " ++ Text.quoted entry.2
  "\x7b" ++ ", ".intercalate items ++ "\x7d"

@[simp] theorem view?_root (tree : KeyTree α) : tree.view? Key.root = some tree.rootView := rfl

end KeyTree

end Phrasebook
