import Mathlib.Data.Finmap
import Phrasebook.KeyTree.View
import Phrasebook.Proofs.Entries

/-!
Key trees as finite maps. A history of requests is answered by a key tree exactly as it is answered
by the finite map from keys to values that is kept beside it, and a request that finds nothing
leaves the tree as it was. The tree stays in canonical form all along.
-/

namespace Phrasebook

universe u v

variable {α : Type u}

abbrev KeyMap (α : Type u) := Finmap fun _ : Key => α

namespace KeyTree

theorem canonical_add {tree : KeyTree α} {key : Key} (value : α) (canonical : tree.Canonical)
    (vacant : tree.get? key = none) : (tree.add key value).Canonical := by
  obtain ⟨path⟩ := key
  have counted := canonical.counted
  cases path with
  | nil =>
      rw [get?_nil] at vacant
      rw [total, vacant] at counted
      exact ⟨by simp [add, total, counted, Nat.add_comm], canonical.branches⟩
  | cons segment rest =>
      rw [get?_cons] at vacant
      rw [total] at counted
      refine ⟨?_, Branches.canonical_add value canonical.branches vacant⟩
      simp [add, total, Branches.total_add value vacant, counted, Nat.add_assoc]

theorem get?_add {tree : KeyTree α} (key : Key) (value : α) (canonical : tree.Canonical)
    (other : Key) :
    (tree.add key value).get? other = if other = key then some value else tree.get? other := by
  obtain ⟨path⟩ := key
  obtain ⟨asked⟩ := other
  cases path with
  | nil => cases asked <;> simp [add]
  | cons segment rest =>
      cases asked with
      | nil => simp [add]
      | cons first later => simp [add, Branches.value?_add value canonical.branches]

theorem canonical_modify {tree : KeyTree α} (key : Key) (change : α → α)
    (canonical : tree.Canonical) : (tree.modify key change).Canonical := by
  obtain ⟨path⟩ := key
  have counted := canonical.counted
  cases path with
  | nil => exact ⟨by cases found : tree.value <;> simpa [modify, total, found] using counted,
      canonical.branches⟩
  | cons segment rest =>
      exact ⟨by simpa [modify, total] using counted,
        Branches.canonical_modify change segment rest canonical.branches⟩

theorem get?_modify (tree : KeyTree α) (key : Key) (change : α → α) (other : Key) :
    (tree.modify key change).get? other =
      if other = key then (tree.get? other).map change else tree.get? other := by
  obtain ⟨path⟩ := key
  obtain ⟨asked⟩ := other
  cases path with
  | nil => cases asked <;> simp [modify]
  | cons segment rest =>
      cases asked with
      | nil => simp [modify]
      | cons first later => simp [modify, Branches.value?_modify]

theorem modify_vacant {tree : KeyTree α} {key : Key} (change : α → α)
    (vacant : tree.get? key = none) : tree.modify key change = tree := by
  obtain ⟨path⟩ := key
  cases path with
  | nil =>
      rw [get?_nil] at vacant
      simp only [modify, vacant, Option.map_none]
      rw [← vacant]
  | cons segment rest =>
      rw [get?_cons] at vacant
      simp only [modify, Branches.modify_vacant change vacant]

theorem insert_fst (tree : KeyTree α) (key : Key) (value : α) :
    (tree.insert key value).1 = tree.get? key := by
  cases found : tree.get? key <;> simp [insert, found]

theorem canonical_insert {tree : KeyTree α} (key : Key) (value : α) (canonical : tree.Canonical) :
    (tree.insert key value).2.Canonical := by
  cases found : tree.get? key with
  | none => simpa [insert, found] using canonical_add value canonical found
  | some old => simpa [insert, found] using canonical_modify key (fun _ => value) canonical

theorem get?_insert {tree : KeyTree α} (key : Key) (value : α) (canonical : tree.Canonical)
    (other : Key) :
    (tree.insert key value).2.get? other = if other = key then some value else tree.get? other := by
  cases found : tree.get? key with
  | none => simp [insert, found, get?_add key value canonical]
  | some old =>
      by_cases same : other = key
      · simp [insert, found, get?_modify, same]
      · simp [insert, found, get?_modify, same]

theorem remove_vacant {tree : KeyTree α} {key : Key} (vacant : tree.get? key = none) :
    tree.remove key = (none, tree) := by
  obtain ⟨path⟩ := key
  cases path with
  | nil =>
      rw [get?_nil] at vacant
      simp [remove, vacant]
  | cons segment rest =>
      rw [get?_cons, ← Branches.remove?_eq_none_iff] at vacant
      simp [remove, vacant]

structure Removal (tree : KeyTree α) (key : Key) (old : α) (left : KeyTree α) : Prop where
  remove_eq : tree.remove key = (some old, left)
  canonical : left.Canonical
  values : ∀ other, left.get? other = if other = key then none else tree.get? other

theorem removal_of_get? {tree : KeyTree α} {key : Key} {old : α} (canonical : tree.Canonical)
    (found : tree.get? key = some old) : ∃ left, tree.Removal key old left := by
  obtain ⟨path⟩ := key
  have counted := canonical.counted
  cases path with
  | nil =>
      rw [get?_nil] at found
      rw [total, found] at counted
      refine ⟨⟨none, tree.count - 1, tree.below⟩, by simp [remove, found], ?_, ?_⟩
      · exact ⟨by simp [total, counted], canonical.branches⟩
      · rintro ⟨asked⟩
        cases asked <;> simp
  | cons segment rest =>
      rw [get?_cons] at found
      rw [total] at counted
      cases taken : tree.below.remove? segment rest with
      | none =>
          rw [(Branches.remove?_eq_none_iff _ _ _).mp taken] at found
          cases found
      | some removed =>
          obtain ⟨stored, below⟩ := removed
          have removal := Branches.removal_of_remove? canonical.branches taken
          have fewer := removal.fewer
          obtain rfl : stored = old := Option.some.inj (removal.found.symm.trans found)
          refine ⟨⟨tree.value, tree.count - 1, below⟩, by simp [remove, taken], ?_, ?_⟩
          · refine ⟨?_, removal.canonical⟩
            simp only [total]
            omega
          · rintro ⟨asked⟩
            cases asked with
            | nil => simp
            | cons first later => simp [removal.values]

theorem remove_fst {tree : KeyTree α} (key : Key) (canonical : tree.Canonical) :
    (tree.remove key).1 = tree.get? key := by
  cases found : tree.get? key with
  | none => rw [remove_vacant found]
  | some old =>
      obtain ⟨left, removal⟩ := removal_of_get? canonical found
      rw [removal.remove_eq]

theorem canonical_remove {tree : KeyTree α} (key : Key) (canonical : tree.Canonical) :
    (tree.remove key).2.Canonical := by
  cases found : tree.get? key with
  | none => rwa [remove_vacant found]
  | some old =>
      obtain ⟨left, removal⟩ := removal_of_get? canonical found
      rw [removal.remove_eq]
      exact removal.canonical

theorem get?_remove {tree : KeyTree α} (key : Key) (canonical : tree.Canonical) (other : Key) :
    (tree.remove key).2.get? other = if other = key then none else tree.get? other := by
  cases found : tree.get? key with
  | none =>
      rw [remove_vacant found]
      split
      · rename_i same
        rw [same, found]
      · rfl
  | some old =>
      obtain ⟨left, removal⟩ := removal_of_get? canonical found
      rw [removal.remove_eq]
      exact removal.values other

/-- The tree is in canonical form and holds what the map holds. -/
structure Represents (tree : KeyTree α) (map : KeyMap α) : Prop where
  canonical : tree.Canonical
  values : ∀ key, tree.get? key = map.lookup key

end KeyTree

/-- What can be asked of a finite map on keys. An update changes the value that it finds. -/
inductive KeyRequest (α : Type u) where
  | insert (key : Key) (value : α)
  | remove (key : Key)
  | update (key : Key) (change : α → α)
  | clear
  | extend (pairs : List (Key × α))
  | collect (pairs : List (Key × α))
  | get (key : Key)
  | contains (key : Key)
  | size
  | isEmpty

inductive KeyReply (α : Type u) where
  | value (found : Option α)
  | truth (holds : Bool)
  | number (count : Nat)
  | done

def KeyTree.answer (tree : KeyTree α) : KeyRequest α → KeyReply α × KeyTree α
  | .insert key value => (.value (tree.insert key value).1, (tree.insert key value).2)
  | .remove key => (.value (tree.remove key).1, (tree.remove key).2)
  | .update key change => (.value (tree.get? key), tree.modify key change)
  | .clear => (.done, empty)
  | .extend pairs => (.done, tree.insertAll pairs)
  | .collect pairs => (.done, ofList pairs)
  | .get key => (.value (tree.get? key), tree)
  | .contains key => (.truth (tree.contains key), tree)
  | .size => (.number tree.size, tree)
  | .isEmpty => (.truth tree.isEmpty, tree)

namespace KeyMap

def insertAll (map : KeyMap α) (pairs : List (Key × α)) : KeyMap α :=
  pairs.foldl (fun result pair => result.insert pair.1 pair.2) map

def update (map : KeyMap α) (key : Key) (change : α → α) : KeyMap α :=
  match map.lookup key with
  | some old => map.insert key (change old)
  | none => map

/-- The specification of the answers. -/
def answer (map : KeyMap α) : KeyRequest α → KeyReply α × KeyMap α
  | .insert key value => (.value (map.lookup key), map.insert key value)
  | .remove key => (.value (map.lookup key), map.erase key)
  | .update key change => (.value (map.lookup key), map.update key change)
  | .clear => (.done, ∅)
  | .extend pairs => (.done, map.insertAll pairs)
  | .collect pairs => (.done, insertAll ∅ pairs)
  | .get key => (.value (map.lookup key), map)
  | .contains key => (.truth (key ∈ map), map)
  | .size => (.number map.keys.card, map)
  | .isEmpty => (.truth (map.keys = ∅), map)

end KeyMap

def KeyRequest.serve {State : Type v} (answer : State → KeyRequest α → KeyReply α × State)
    (state : State) : List (KeyRequest α) → List (KeyReply α) × State
  | [] => ([], state)
  | request :: later =>
      let first := answer state request
      let rest := serve answer first.2 later
      (first.1 :: rest.1, rest.2)

def KeyTree.history (requests : List (KeyRequest α)) : List (KeyReply α) × KeyTree α :=
  KeyRequest.serve KeyTree.answer KeyTree.empty requests

def KeyMap.history (requests : List (KeyRequest α)) : List (KeyReply α) × KeyMap α :=
  KeyRequest.serve KeyMap.answer ∅ requests

namespace KeyTree.Represents

variable {tree : KeyTree α} {map : KeyMap α}

theorem empty : (KeyTree.empty : KeyTree α).Represents ∅ :=
  ⟨canonical_empty, by simp⟩

theorem insert (represents : tree.Represents map) (key : Key) (value : α) :
    (tree.insert key value).2.Represents (map.insert key value) := by
  refine ⟨canonical_insert key value represents.canonical, fun other => ?_⟩
  rw [get?_insert key value represents.canonical]
  by_cases same : other = key
  · subst same
    simp
  · simp [same, represents.values]

theorem insertAll (represents : tree.Represents map) (pairs : List (Key × α)) :
    (tree.insertAll pairs).Represents (KeyMap.insertAll map pairs) := by
  induction pairs generalizing tree map with
  | nil => exact represents
  | cons pair rest ih => exact ih (represents.insert pair.1 pair.2)

theorem remove (represents : tree.Represents map) (key : Key) :
    (tree.remove key).2.Represents (map.erase key) := by
  refine ⟨canonical_remove key represents.canonical, fun other => ?_⟩
  rw [get?_remove key represents.canonical]
  by_cases same : other = key
  · subst same
    simp
  · simp [same, represents.values]

theorem modify (represents : tree.Represents map) (key : Key) (change : α → α) :
    (tree.modify key change).Represents (KeyMap.update map key change) := by
  refine ⟨canonical_modify key change represents.canonical, fun other => ?_⟩
  rw [get?_modify, represents.values, KeyMap.update]
  by_cases same : other = key
  · subst same
    cases found : map.lookup other <;> simp [found]
  · cases map.lookup key <;> simp [same]

theorem isSome_iff (represents : tree.Represents map) (key : Key) :
    (tree.get? key).isSome ↔ key ∈ map.keys := by
  rw [represents.values, Finmap.lookup_isSome, Finmap.mem_keys]

theorem mem_walk_iff (represents : tree.Represents map) {path : List String} {node : KeyTree α}
    (found : tree.subtree? path = some node) (key : Key) :
    key ∈ (node.entriesFrom ⟨path⟩).map (·.1) ↔ key ∈ map.keys ∧ key.startsWith ⟨path⟩ := by
  have canonical := canonical_subtree represents.canonical found
  simp only [List.mem_map, Key.startsWith, List.isPrefixOf_iff_prefix]
  constructor
  · rintro ⟨entry, member, rfl⟩
    obtain ⟨rest, same, held⟩ := (mem_entriesFrom canonical _ entry).mp member
    have keyed : entry.1 = ⟨path ++ rest⟩ := Key.eq_of_segments same
    rw [keyed, ← represents.isSome_iff, ← get?_subtree found, held]
    exact ⟨rfl, List.prefix_append path rest⟩
  · rintro ⟨member, rest, same⟩
    have keyed : key = ⟨path ++ rest⟩ := Key.eq_of_segments same.symm
    rw [keyed, ← represents.isSome_iff, ← get?_subtree found] at member
    obtain ⟨value, held⟩ := Option.isSome_iff_exists.mp member
    exact ⟨(key, value), (mem_entriesFrom canonical _ _).mpr ⟨rest, same.symm, held⟩, rfl⟩

theorem toFinset_walk (represents : tree.Represents map) {path : List String} {node : KeyTree α}
    (found : tree.subtree? path = some node) :
    ((node.entriesFrom ⟨path⟩).map (·.1)).toFinset =
      map.keys.filter (Key.startsWith · ⟨path⟩) := by
  ext key
  rw [List.mem_toFinset, Finset.mem_filter]
  exact represents.mem_walk_iff found key

theorem size_subtree (represents : tree.Represents map) {path : List String} {node : KeyTree α}
    (found : tree.subtree? path = some node) :
    node.size = (map.keys.filter (Key.startsWith · ⟨path⟩)).card := by
  have canonical := canonical_subtree represents.canonical found
  rw [← represents.toFinset_walk found,
    List.toFinset_card_of_nodup (nodup_entriesFrom canonical _), List.length_map,
    length_entriesFrom]
  exact canonical.counted

theorem size_eq (represents : tree.Represents map) : tree.size = map.keys.card := by
  rw [represents.size_subtree (subtree?_nil tree), Finset.filter_true_of_mem]
  exact fun _ _ => rfl

theorem answer (represents : tree.Represents map) (request : KeyRequest α) :
    (tree.answer request).1 = (KeyMap.answer map request).1 ∧
      (tree.answer request).2.Represents (KeyMap.answer map request).2 := by
  have looked := represents.values
  cases request with
  | insert key value =>
      exact ⟨by simp [KeyTree.answer, KeyMap.answer, insert_fst, looked],
        represents.insert key value⟩
  | remove key =>
      exact ⟨by simp [KeyTree.answer, KeyMap.answer, remove_fst key represents.canonical, looked],
        represents.remove key⟩
  | update key change =>
      exact ⟨by simp [KeyTree.answer, KeyMap.answer, looked], represents.modify key change⟩
  | clear => exact ⟨rfl, empty⟩
  | extend pairs => exact ⟨rfl, represents.insertAll pairs⟩
  | collect pairs => exact ⟨rfl, empty.insertAll pairs⟩
  | get key => exact ⟨by simp [KeyTree.answer, KeyMap.answer, looked], represents⟩
  | contains key =>
      have held : tree.contains key = decide (key ∈ map) := by
        rw [contains, looked, Bool.eq_iff_iff, Finmap.lookup_isSome, decide_eq_true_iff]
      exact ⟨by simp [KeyTree.answer, KeyMap.answer, held], represents⟩
  | size => exact ⟨by simp [KeyTree.answer, KeyMap.answer, represents.size_eq], represents⟩
  | isEmpty =>
      have none : tree.isEmpty = decide (map.keys = ∅) := by
        rw [isEmpty, Bool.eq_iff_iff, decide_eq_true_iff, decide_eq_true_iff,
          ← Finset.card_eq_zero, ← represents.size_eq, size]
      exact ⟨by simp [KeyTree.answer, KeyMap.answer, none], represents⟩

theorem serve (represents : tree.Represents map) (requests : List (KeyRequest α)) :
    (KeyRequest.serve KeyTree.answer tree requests).1 =
        (KeyRequest.serve KeyMap.answer map requests).1 ∧
      (KeyRequest.serve KeyTree.answer tree requests).2.Represents
        (KeyRequest.serve KeyMap.answer map requests).2 := by
  induction requests generalizing tree map with
  | nil => exact ⟨rfl, represents⟩
  | cons request later ih =>
      obtain ⟨first, next⟩ := represents.answer request
      obtain ⟨rest, last⟩ := ih next
      exact ⟨by simp only [KeyRequest.serve, first, rest], last⟩

end KeyTree.Represents

theorem KeyTree.history_represents (requests : List (KeyRequest α)) :
    (history requests).2.Represents (KeyMap.history requests).2 :=
  (Represents.empty.serve requests).2

/-- A key tree answers every history of requests like a finite map, and a removal or an update that
finds nothing leaves the whole tree as it was. -/
theorem KeyTree.history_as_map (requests : List (KeyRequest α)) :
    (history requests).1 = (KeyMap.history requests).1 ∧
      (∀ key, (history requests).2.get? key = (KeyMap.history requests).2.lookup key) ∧
      (∀ key, ((history requests).2.remove key).1 = none →
        ((history requests).2.remove key).2 = (history requests).2) ∧
      ∀ key change, (history requests).2.get? key = none →
        (history requests).2.modify key change = (history requests).2 := by
  have represents := history_represents requests
  refine ⟨(Represents.empty.serve requests).1, represents.values, ?_, ?_⟩
  · intro key nothing
    rw [remove_fst key represents.canonical] at nothing
    rw [remove_vacant nothing]
  · exact fun key change vacant => modify_vacant change vacant

end Phrasebook
