import Phrasebook.Proofs.Branches

/-!
The walk through a key tree. It meets every stored value once, under its full key, and the keys
ascend: segment by segment, and a key before its extensions.
-/

namespace Phrasebook

universe u

variable {α : Type u}

theorem Key.eq_of_segments {first second : Key} (same : first.segments = second.segments) :
    first = second := by
  cases first
  cases second
  exact congrArg Key.mk same

/-- The order in which a walk meets the entries. -/
def Key.Precedes (first second : Key) : Prop := first.segments < second.segments

theorem Key.precedes_extension {first second : Key} {segment : String} {rest : List String}
    (extended : second.segments = first.segments ++ segment :: rest) : first.Precedes second := by
  have longer : first.segments ++ [] < first.segments ++ segment :: rest :=
    List.append_left_lt (List.nil_lt_cons segment rest)
  rwa [List.append_nil, ← extended] at longer

theorem Key.precedes_sibling {key first second : Key} {left right : String}
    {later rest : List String} (before : left < right)
    (one : first.segments = key.segments ++ left :: later)
    (other : second.segments = key.segments ++ right :: rest) : first.Precedes second := by
  have less : key.segments ++ left :: later < key.segments ++ right :: rest :=
    List.append_left_lt (List.cons_lt_cons_iff.mpr (.inl before))
  rwa [← one, ← other] at less

namespace Branches

theorem length_entries (branches : Branches α) (key : Key) :
    (branches.entries key).length = branches.total := by
  induction branches generalizing key with
  | nil => rfl
  | cons name value count below next inside behind =>
      cases value <;> simp [entries, total, inside, behind]
      omega

theorem mem_entries {branches : Branches α} (canonical : branches.Canonical) (key : Key)
    (entry : Key × α) :
    entry ∈ branches.entries key ↔ ∃ segment rest,
      entry.1.segments = key.segments ++ segment :: rest ∧
        branches.value? segment rest = some entry.2 := by
  induction canonical generalizing key with
  | nil => simp [entries, value?]
  | @cons name value count below next ascending counted alive inside behind ihInside ihBehind =>
      have fresh := absent_of_ascending ascending
      simp only [entries, List.mem_append, ihInside, ihBehind]
      constructor
      · rintro ((here | ⟨segment, rest, same, found⟩) | ⟨segment, rest, same, found⟩)
        · obtain ⟨stored, rfl, rfl⟩ : ∃ stored, value = some stored ∧
              entry = (key.child name, stored) := by
            cases value <;> simp_all
          exact ⟨name, [], by simp, by simp [value?]⟩
        · exact ⟨name, segment :: rest, by simp [same], by simpa [value?] using found⟩
        · have different : name ≠ segment := by
            rintro rfl
            rw [value?_absent rest fresh] at found
            cases found
          exact ⟨segment, rest, same, by simpa [value?, different] using found⟩
      · rintro ⟨segment, rest, same, found⟩
        rw [value?_cons] at found
        split at found
        · rename_i here
          subst here
          cases rest with
          | nil =>
              refine .inl (.inl ?_)
              have keyed : entry.1 = key.child name := Key.eq_of_segments same
              simp only at found
              simp [found, ← keyed]
          | cons following path =>
              exact .inl (.inr ⟨following, path, by simp [same], found⟩)
        · exact .inr ⟨segment, rest, same, found⟩

theorem entries_ascending {branches : Branches α} (canonical : branches.Canonical) (key : Key) :
    (branches.entries key).Pairwise fun first second => first.1.Precedes second.1 := by
  induction canonical generalizing key with
  | nil => exact .nil
  | @cons name value count below next ascending counted alive inside behind ihInside ihBehind =>
      have own : ∀ entry ∈ (value.map fun stored => (key.child name, stored)).toList,
          entry.1 = key.child name := by
        cases value <;> simp
      refine List.pairwise_append.mpr
        ⟨List.pairwise_append.mpr ⟨?_, ihInside _, ?_⟩, ihBehind _, ?_⟩
      · cases value <;> simp
      · intro first member second later
        obtain ⟨segment, rest, same, _⟩ := (mem_entries inside _ second).mp later
        rw [own first member]
        exact Key.precedes_extension same
      · intro first member second later
        obtain ⟨segment, rest, same, found⟩ := (mem_entries behind _ second).mp later
        have named : segment ∈ next.names := by
          by_contra absent
          rw [value?_absent rest absent] at found
          cases found
        have before := ascending segment named
        rcases List.mem_append.mp member with here | below
        · rw [own first here]
          exact Key.precedes_sibling before rfl same
        · obtain ⟨inner, path, below, _⟩ := (mem_entries inside _ first).mp below
          rw [Key.segments_child, List.append_assoc] at below
          exact Key.precedes_sibling before below same

end Branches

namespace KeyTree

def total (tree : KeyTree α) : Nat := tree.value.toList.length + tree.below.total

structure Canonical (tree : KeyTree α) : Prop where
  counted : tree.count = tree.total
  branches : tree.below.Canonical

theorem canonical_empty : (empty : KeyTree α).Canonical := ⟨rfl, .nil⟩

@[simp] theorem get?_nil (tree : KeyTree α) : tree.get? ⟨[]⟩ = tree.value := rfl

@[simp] theorem get?_cons (tree : KeyTree α) (segment : String) (rest : List String) :
    tree.get? ⟨segment :: rest⟩ = tree.below.value? segment rest := by
  change ((tree.below.find? segment).bind fun child => child.subtree? rest).bind _ = _
  induction tree.below generalizing segment rest with
  | nil => rfl
  | cons name value count below next inside behind =>
      rw [Branches.find?, Branches.value?_cons]
      split
      · cases rest with
        | nil => rfl
        | cons following path => exact inside following path
      · exact behind segment rest

theorem length_entriesFrom (tree : KeyTree α) (key : Key) :
    (tree.entriesFrom key).length = tree.total := by
  rw [entriesFrom, List.length_append, Branches.length_entries, total]
  cases tree.value <;> rfl

theorem mem_entriesFrom {tree : KeyTree α} (canonical : tree.Canonical) (key : Key)
    (entry : Key × α) :
    entry ∈ tree.entriesFrom key ↔
      ∃ path, entry.1.segments = key.segments ++ path ∧ tree.get? ⟨path⟩ = some entry.2 := by
  simp only [entriesFrom, List.mem_append, Branches.mem_entries canonical.branches]
  constructor
  · rintro (here | ⟨segment, rest, same, found⟩)
    · obtain ⟨stored, held, rfl⟩ : ∃ stored, tree.value = some stored ∧ entry = (key, stored) := by
        cases held : tree.value <;> simp_all
      exact ⟨[], by simp, held⟩
    · exact ⟨segment :: rest, same, by simpa using found⟩
  · rintro ⟨path, same, found⟩
    cases path with
    | nil =>
        have keyed : entry.1 = key := Key.eq_of_segments (by simpa using same)
        simp only [get?_nil] at found
        simp [found, ← keyed]
    | cons segment rest => exact .inr ⟨segment, rest, same, by simpa using found⟩

theorem entriesFrom_ascending {tree : KeyTree α} (canonical : tree.Canonical) (key : Key) :
    (tree.entriesFrom key).Pairwise fun first second => first.1.Precedes second.1 := by
  refine List.pairwise_append.mpr ⟨?_, Branches.entries_ascending canonical.branches key, ?_⟩
  · cases tree.value <;> simp
  · intro first member second later
    obtain ⟨segment, rest, same, _⟩ := (Branches.mem_entries canonical.branches _ second).mp later
    have own : first.1 = key := by
      cases found : tree.value <;> simp_all
    rw [own]
    exact Key.precedes_extension same

theorem nodup_entriesFrom {tree : KeyTree α} (canonical : tree.Canonical) (key : Key) :
    ((tree.entriesFrom key).map (·.1)).Nodup := by
  refine List.pairwise_map.mpr ((entriesFrom_ascending canonical key).imp ?_)
  rintro first second before same
  rw [Key.Precedes, same] at before
  exact List.lt_irrefl _ before

theorem canonical_find? {branches : Branches α} (canonical : branches.Canonical) {name : String}
    {child : KeyTree α} (found : branches.find? name = some child) :
    child.Canonical ∧ 0 < child.count := by
  induction canonical with
  | nil => cases found
  | cons _ counted alive inside _ _ ihBehind =>
      rw [Branches.find?] at found
      split at found
      · obtain rfl := Option.some.inj found
        exact ⟨⟨counted, inside⟩, alive⟩
      · exact ihBehind found

theorem canonical_subtree {tree node : KeyTree α} {path : List String} (canonical : tree.Canonical)
    (found : tree.subtree? path = some node) : node.Canonical := by
  induction path generalizing tree with
  | nil =>
      obtain rfl := Option.some.inj found
      exact canonical
  | cons segment rest ih =>
      obtain ⟨child, here, deeper⟩ := Option.bind_eq_some_iff.mp found
      exact ih (canonical_find? canonical.branches here).1 deeper

theorem get?_subtree {tree node : KeyTree α} {path rest : List String}
    (found : tree.subtree? path = some node) : node.get? ⟨rest⟩ = tree.get? ⟨path ++ rest⟩ := by
  rw [get?, get?, subtree?_append, found]
  rfl

end KeyTree

end Phrasebook
