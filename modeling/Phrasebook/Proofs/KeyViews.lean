import Phrasebook.Proofs.KeyMap

/-!
What a history of requests leaves behind. A key tree depends on the values that it holds, and not on
how they came there; its views are those of the stored keys and count them; and a view leads to the
same views below it as the tree does.
-/

namespace Phrasebook

universe u

variable {α : Type u}

namespace KeyTree

theorem canonical_ext {first second : KeyTree α} (left : first.Canonical)
    (right : second.Canonical) (same : ∀ key, first.get? key = second.get? key) :
    first = second := by
  obtain ⟨value, count, below⟩ := first
  obtain ⟨otherValue, otherCount, otherBelow⟩ := second
  obtain rfl : value = otherValue := by simpa using same ⟨[]⟩
  obtain rfl : below = otherBelow := by
    refine Branches.canonical_ext left.branches right.branches fun segment rest => ?_
    simpa using same ⟨segment :: rest⟩
  have counted : count = otherCount := left.counted.trans right.counted.symm
  rw [counted]

theorem count_pos {tree node : KeyTree α} {path : List String} (canonical : tree.Canonical)
    (found : tree.subtree? path = some node) (below : path ≠ []) : 0 < node.count := by
  induction path generalizing tree with
  | nil => exact absurd rfl below
  | cons segment rest ih =>
      obtain ⟨child, here, deeper⟩ := Option.bind_eq_some_iff.mp found
      obtain ⟨inner, alive⟩ := canonical_find? canonical.branches here
      cases rest with
      | nil =>
          obtain rfl := Option.some.inj deeper
          exact alive
      | cons following path => exact ih inner deeper (List.cons_ne_nil _ _)

theorem names_ascending {branches : Branches α} (canonical : branches.Canonical) :
    branches.names.Pairwise (· < ·) := by
  induction canonical with
  | nil => exact .nil
  | cons ascending _ _ _ _ _ ih => exact List.pairwise_cons.mpr ⟨ascending, ih⟩

theorem child?_of_view? {tree : KeyTree α} {key : Key} {view : KeyView α}
    (found : tree.view? key = some view) (name : String) :
    view.child? name = tree.view? (key.child name) := by
  obtain ⟨node, here, rfl⟩ := Option.map_eq_some_iff.mp found
  have below : tree.subtree? (key.child name).segments = node.below.find? name := by
    rw [Key.segments_child, subtree?_append, here]
    cases found : node.below.find? name <;> simp [subtree?, found]
  rw [view?, below]
  rfl

namespace Represents

variable {tree : KeyTree α} {map : KeyMap α}

theorem view?_isSome_iff (represents : tree.Represents map) (key : Key) :
    (tree.view? key).isSome ↔ key = Key.root ∨ ∃ stored ∈ map.keys, stored.startsWith key := by
  rw [view?, Option.isSome_map]
  constructor
  · intro viewed
    obtain ⟨node, found⟩ := Option.isSome_iff_exists.mp viewed
    by_cases top : key.segments = []
    · exact .inl (Key.eq_of_segments top)
    · have alive := count_pos represents.canonical found top
      rw [← size, represents.size_subtree found] at alive
      obtain ⟨stored, member⟩ := Finset.card_pos.mp alive
      exact .inr ⟨stored, Finset.mem_filter.mp member⟩
  · rintro (rfl | ⟨stored, member, starts⟩)
    · rfl
    · obtain ⟨rest, longer⟩ := List.isPrefixOf_iff_prefix.mp starts
      rw [← represents.isSome_iff, get?, ← longer, subtree?_append] at member
      cases found : tree.subtree? key.segments with
      | some node => rfl
      | none =>
          rw [found] at member
          cases member

theorem mem_entries_iff (represents : tree.Represents map) (entry : Key × α) :
    entry ∈ tree.entries ↔ map.lookup entry.1 = some entry.2 := by
  rw [entries, mem_entriesFrom represents.canonical, ← represents.values]
  constructor
  · rintro ⟨path, same, held⟩
    have keyed : entry.1 = ⟨path⟩ := Key.eq_of_segments same
    rwa [keyed]
  · exact fun held => ⟨entry.1.segments, rfl, held⟩

end Represents

/-- However a tree has come to hold what it holds, it is the same tree. Its counts are those of the
values below, nothing in it leads nowhere, and its views are those of the stored keys. -/
theorem history_canonical (requests : List (KeyRequest α)) :
    (∀ path node, (history requests).2.subtree? path = some node →
        node.count = node.entries.length ∧ (path ≠ [] → 0 < node.count) ∧
          node.below.names.Pairwise (· < ·)) ∧
      (∀ key, ((history requests).2.view? key).isSome ↔
        key = Key.root ∨ ∃ stored ∈ (KeyMap.history requests).2.keys, stored.startsWith key) ∧
      (∀ key view, (history requests).2.view? key = some view →
        view.size = ((KeyMap.history requests).2.keys.filter (Key.startsWith · key)).card ∧
          ∀ name, view.child? name = (history requests).2.view? (key.child name)) ∧
      (∀ entry, entry ∈ (history requests).2.entries ↔
        (KeyMap.history requests).2.lookup entry.1 = some entry.2) ∧
      ∀ others, (KeyMap.history others).2 = (KeyMap.history requests).2 →
        (history others).2 = (history requests).2 := by
  have represents := history_represents requests
  refine ⟨?_, represents.view?_isSome_iff, ?_, represents.mem_entries_iff, ?_⟩
  · intro path node found
    have canonical := canonical_subtree represents.canonical found
    refine ⟨?_, count_pos represents.canonical found, names_ascending canonical.branches⟩
    rw [entries, length_entriesFrom, canonical.counted]
  · intro key view found
    obtain ⟨node, here, rfl⟩ := Option.map_eq_some_iff.mp found
    exact ⟨represents.size_subtree here, child?_of_view? found⟩
  · intro others same
    have other := history_represents others
    refine canonical_ext other.canonical represents.canonical fun key => ?_
    rw [other.values, represents.values, same]

end KeyTree

end Phrasebook
