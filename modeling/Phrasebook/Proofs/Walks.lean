import Phrasebook.Proofs.Loads

/-!
Walks through views. The views that wait hold what the walk has still to hand out: every call of
`next` takes the first of these entries off, and the announced number says how many they are. So the
walk from a view meets the entries at or below its key, in the order of their keys.
-/

namespace Phrasebook

universe u

variable {α : Type u}

theorem KeyView.entries_eq (view : KeyView α) :
    view.entries = (view.value?.map fun stored => (view.key, stored)).toList ++
      view.children.flatMap entries := by
  obtain ⟨key, ⟨value, count, below⟩⟩ := view
  have inside : below.entries key = (children ⟨key, ⟨value, count, below⟩⟩).flatMap entries := by
    induction below with
    | nil => rfl
    | cons name own counted inner next _ ih =>
        simp only [children, Branches.toList, List.map_cons, List.flatMap_cons] at ih ⊢
        rw [Branches.entries, ih, entries, KeyTree.entriesFrom]
  rw [entries, KeyTree.entriesFrom, inside]
  rfl

namespace KeyWalk

/-- The entries that the waiting views hold. -/
def upcoming (walk : KeyWalk α) : List (Key × α) := walk.waiting.flatMap KeyView.entries

def after (walk : KeyWalk α) : Nat → KeyWalk α
  | 0 => walk
  | calls + 1 => (walk.after calls).next.2

/-- The calls of `next` hand out the entries in their order and then nothing more, and the announced
number is that of the entries to come. A call that hands out an entry counts it off. -/
structure Lists (walk : KeyWalk α) (entries : List (Key × α)) : Prop where
  handed : ∀ calls, (walk.after calls).next.1 = entries[calls]?
  announced : ∀ calls, (walk.after calls).remaining = (entries.drop calls).length
  counted : ∀ calls, (walk.after calls).next.1 ≠ none →
    (walk.after calls).remaining = (walk.after calls).next.2.remaining + 1
  exhausted : ∀ calls, (walk.after calls).next.1 = none →
    (walk.after calls).remaining = 0 ∧ (walk.after calls).next.2.remaining = 0

def Counted (walk : KeyWalk α) : Prop := walk.remaining = walk.upcoming.length

theorem visit_cases (views : List (KeyView α)) :
    (visit views = none ∧ views.flatMap KeyView.entries = []) ∨
      ∃ entry waiting, visit views = some (entry, waiting) ∧
        views.flatMap KeyView.entries = entry :: waiting.flatMap KeyView.entries := by
  fun_induction visit views with
  | case1 => exact .inl ⟨rfl, rfl⟩
  | case2 view behind stored held =>
      refine .inr ⟨(view.key, stored), view.children ++ behind, rfl, ?_⟩
      rw [List.flatMap_cons, view.entries_eq, held, List.flatMap_append]
      rfl
  | case3 view behind vacant ih =>
      have passed : (view :: behind).flatMap KeyView.entries =
          (view.children ++ behind).flatMap KeyView.entries := by
        rw [List.flatMap_cons, view.entries_eq, vacant, List.flatMap_append]
        rfl
      rwa [passed]

/-- Everything that a call of `next` can do. -/
theorem next_cases (walk : KeyWalk α) :
    (walk.next = (none, ⟨[], walk.remaining⟩) ∧ walk.upcoming = []) ∨
      ∃ entry later, walk.next.1 = some entry ∧ walk.next.2.upcoming = later ∧
        walk.next.2.remaining = walk.remaining - 1 ∧ walk.upcoming = entry :: later := by
  rcases visit_cases walk.waiting with ⟨ended, nothing⟩ | ⟨entry, waiting, met, first⟩
  · exact .inl ⟨by rw [next, ended], nothing⟩
  · refine .inr ⟨entry, waiting.flatMap KeyView.entries, ?_, ?_, ?_, first⟩
    all_goals rw [next, met]
    rfl

theorem next_fst (walk : KeyWalk α) : walk.next.1 = walk.upcoming.head? := by
  rcases walk.next_cases with ⟨ended, nothing⟩ | ⟨entry, later, given, _, _, first⟩
  · rw [ended, nothing]
    rfl
  · rw [given, first]
    rfl

theorem upcoming_next (walk : KeyWalk α) : walk.next.2.upcoming = walk.upcoming.tail := by
  rcases walk.next_cases with ⟨ended, nothing⟩ | ⟨entry, later, _, left, _, first⟩
  · rw [ended, nothing]
    rfl
  · rw [left, first]
    rfl

theorem Counted.next {walk : KeyWalk α} (counted : walk.Counted) : walk.next.2.Counted := by
  rcases walk.next_cases with ⟨ended, nothing⟩ | ⟨entry, later, _, left, fewer, first⟩
  · rw [Counted, nothing] at counted
    rw [ended]
    exact counted
  · rw [Counted, first, List.length_cons] at counted
    rw [Counted, left, fewer, counted]
    rfl

theorem Counted.remaining_of_some {walk : KeyWalk α} (counted : walk.Counted)
    (given : walk.next.1 ≠ none) : walk.remaining = walk.next.2.remaining + 1 := by
  rcases walk.next_cases with ⟨ended, _⟩ | ⟨entry, later, _, _, fewer, first⟩
  · exact absurd (by rw [ended]) given
  · rw [Counted, first, List.length_cons] at counted
    omega

theorem Counted.remaining_of_none {walk : KeyWalk α} (counted : walk.Counted)
    (finished : walk.next.1 = none) : walk.remaining = 0 ∧ walk.next.2.remaining = 0 := by
  rcases walk.next_cases with ⟨ended, nothing⟩ | ⟨entry, later, given, _⟩
  · rw [Counted, nothing, List.length_nil] at counted
    rw [ended]
    exact ⟨counted, counted⟩
  · rw [given] at finished
    cases finished

theorem upcoming_after (walk : KeyWalk α) (calls : Nat) :
    (walk.after calls).upcoming = walk.upcoming.drop calls := by
  induction calls with
  | zero => rfl
  | succ calls ih => rw [after, upcoming_next, ih, List.tail_drop]

theorem Counted.after {walk : KeyWalk α} (counted : walk.Counted) (calls : Nat) :
    (walk.after calls).Counted := by
  induction calls with
  | zero => exact counted
  | succ calls ih => exact ih.next

theorem Counted.lists {walk : KeyWalk α} (counted : walk.Counted) : walk.Lists walk.upcoming where
  handed calls := by rw [next_fst, upcoming_after, List.head?_drop]
  announced calls := by rw [counted.after calls, upcoming_after]
  counted calls := (counted.after calls).remaining_of_some
  exhausted calls := (counted.after calls).remaining_of_none

end KeyWalk

namespace KeyView

theorem upcoming_walk (view : KeyView α) : view.walk.upcoming = view.entries :=
  List.append_nil _

theorem walk_lists {view : KeyView α} (canonical : view.tree.Canonical) :
    view.walk.Lists view.entries := by
  have counted : view.walk.Counted := by
    rw [KeyWalk.Counted, upcoming_walk, entries, KeyTree.length_entriesFrom]
    exact canonical.counted
  rw [← upcoming_walk]
  exact counted.lists

end KeyView

namespace KeyTree

theorem Represents.mem_part_iff {tree node : KeyTree α} {map : KeyMap α}
    (represents : tree.Represents map) {key : Key} (found : tree.subtree? key.segments = some node)
    (entry : Key × α) :
    entry ∈ node.entriesFrom key ↔
      map.lookup entry.1 = some entry.2 ∧ entry.1.startsWith key := by
  have canonical := canonical_subtree represents.canonical found
  rw [mem_entriesFrom canonical, Key.startsWith, List.isPrefixOf_iff_prefix, ← represents.values]
  constructor
  · rintro ⟨path, same, held⟩
    have keyed : entry.1 = ⟨key.segments ++ path⟩ := Key.eq_of_segments same
    rw [get?_subtree found, ← keyed] at held
    exact ⟨held, path, same.symm⟩
  · rintro ⟨held, path, same⟩
    have keyed : entry.1 = ⟨key.segments ++ path⟩ := Key.eq_of_segments same.symm
    rw [keyed, ← get?_subtree found] at held
    exact ⟨path, same.symm, held⟩

/-- Whatever has been asked of a tree before, the walk from a view hands out the stored values at or
below its key, each once and under its full key, in ascending order of the keys; before and after
every call it announces as many entries as are still to come. -/
theorem walk_exact {requests : List (KeyRequest α)} {key : Key} {view : KeyView α}
    (found : (history requests).2.view? key = some view) :
    view.walk.Lists view.entries ∧
      (∀ entry, entry ∈ view.entries ↔
        (KeyMap.history requests).2.lookup entry.1 = some entry.2 ∧ entry.1.startsWith key) ∧
      view.entries.Pairwise fun first second => compare first.1 second.1 = .lt := by
  have represents := history_represents requests
  obtain ⟨node, here, rfl⟩ := Option.map_eq_some_iff.mp found
  have canonical := canonical_subtree represents.canonical here
  refine ⟨KeyView.walk_lists canonical, represents.mem_part_iff here, ?_⟩
  refine (entriesFrom_ascending canonical key).imp fun before => ?_
  exact (Key.compare_eq_lt_iff _ _).mpr before

def innRequests : List (KeyRequest Nat) :=
  [.insert ⟨["inn", "keeper"]⟩ 1, .insert ⟨["road"]⟩ 2, .insert ⟨["inn", "hall"]⟩ 3,
    .insert ⟨["inn", "cellar"]⟩ 4, .remove ⟨["inn", "keeper"]⟩]

def innView : KeyView Nat :=
  ⟨⟨["inn"]⟩, ⟨none, 2, .cons "cellar" (some 4) 1 .nil (.cons "hall" (some 3) 1 .nil .nil)⟩⟩

theorem walk_exact_inn :
    (history innRequests).2.view? ⟨["inn"]⟩ = some innView ∧
      innView.walk.Lists [(⟨["inn", "cellar"]⟩, 4), (⟨["inn", "hall"]⟩, 3)] := by
  have found : (history innRequests).2.view? ⟨["inn"]⟩ = some innView := by rfl
  exact ⟨found, (walk_exact found).1⟩

end KeyTree

end Phrasebook
