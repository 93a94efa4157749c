import Phrasebook.Proofs.Completions
import Phrasebook.Proofs.Edits
import Phrasebook.Proofs.Violations

/-!
Suggestions for a key that is not there. They are the first three of its stored siblings whose names
are near, by distance and then by name. Siblings that only lead to something stored are passed over,
and so is the key itself.
-/

namespace Phrasebook

section Ranking

variable {α : Type*}

/-- The candidates by their measure; those of one measure stay in their order. -/
structure Ranked (measure : α → Nat) (candidates ranked : List α) : Prop where
  perm : ranked.Perm candidates
  ascending : ranked.Pairwise fun first second => measure first ≤ measure second
  stable : ∀ value, ranked.filter (measure · = value) = candidates.filter (measure · = value)

theorem ranked_mergeSort (measure : α → Nat) (candidates : List α) :
    Ranked measure candidates
      (candidates.mergeSort fun first second => measure first ≤ measure second) := by
  have trans (first second third : α) (before : decide (measure first ≤ measure second) = true)
      (after : decide (measure second ≤ measure third) = true) :
      decide (measure first ≤ measure third) = true := by
    simp only [decide_eq_true_eq] at before after ⊢
    exact Nat.le_trans before after
  have total (first second : α) : (decide (measure first ≤ measure second) ||
      decide (measure second ≤ measure first)) = true := by
    simpa using Nat.le_total (measure first) (measure second)
  have perm := List.mergeSort_perm candidates fun first second => measure first ≤ measure second
  refine ⟨perm, ?_, fun value => ?_⟩
  · simpa using List.pairwise_mergeSort trans total candidates
  · -- What has one measure is in order already, so the sorted list has it as a sublist.
    have level : (candidates.filter (measure · = value)).Pairwise fun first second =>
        decide (measure first ≤ measure second) = true := by
      refine List.pairwise_filter.mpr (List.pairwise_of_forall fun first second one other => ?_)
      simp only [decide_eq_true_eq] at one other ⊢
      omega
    have kept := (List.sublist_mergeSort trans total level List.filter_sublist).filter
      fun candidate => measure candidate = value
    simp only [List.filter_filter, Bool.and_self] at kept
    have same := (perm.filter fun candidate => decide (measure candidate = value)).length_eq
    exact (kept.eq_of_length same.symm).symm

theorem Ranked.lexicographic {measure : α → Nat} {candidates ranked : List α}
    {Before : α → α → Prop} (ordered : Ranked measure candidates ranked)
    (given : candidates.Pairwise Before) :
    ranked.Pairwise fun first second => measure first < measure second ∨
      measure first = measure second ∧ Before first second := by
  rw [List.pairwise_iff_forall_sublist]
  intro first second pair
  have upTo := List.pairwise_iff_forall_sublist.mp ordered.ascending pair
  rcases Nat.lt_or_eq_of_le upTo with less | same
  · exact .inl less
  · refine .inr ⟨same, ?_⟩
    have level := pair.filter fun candidate => measure candidate = measure first
    rw [ordered.stable] at level
    have both : [first, second].filter (measure · = measure first) = [first, second] := by
      simp [same]
    rw [both] at level
    exact List.pairwise_iff_forall_sublist.mp given (level.trans List.filter_sublist)

/-- Two lists have the same members of each measure, in the same order. -/
def SameLevels (measure : α → Nat) (one other : List α) : Prop :=
  ∀ value, one.filter (measure · = value) = other.filter (measure · = value)

theorem SameLevels.mem_iff {measure : α → Nat} {one other : List α}
    (levels : SameLevels measure one other) (candidate : α) :
    candidate ∈ one ↔ candidate ∈ other := by
  have level := congrArg (candidate ∈ ·) (levels (measure candidate))
  simpa using level

theorem SameLevels.tail {measure : α → Nat} {first : α} {one other : List α}
    (levels : SameLevels measure (first :: one) (first :: other)) :
    SameLevels measure one other := by
  intro value
  have level := levels value
  simp only [List.filter_cons] at level
  split at level
  · exact (List.cons.inj level).2
  · exact level

theorem least_of_ascending {measure : α → Nat} {first candidate : α} {later : List α}
    (ascending : (first :: later).Pairwise fun one other => measure one ≤ measure other)
    (member : candidate ∈ first :: later) : measure first ≤ measure candidate := by
  rcases List.mem_cons.mp member with same | behind
  · exact Nat.le_of_eq (congrArg measure same.symm)
  · exact List.rel_of_pairwise_cons ascending behind

theorem SameLevels.eq {measure : α → Nat} {one other : List α}
    (levels : SameLevels measure one other)
    (ascending : one.Pairwise fun first second => measure first ≤ measure second)
    (rising : other.Pairwise fun first second => measure first ≤ measure second) :
    one = other := by
  induction one generalizing other with
  | nil =>
      cases other with
      | nil => rfl
      | cons second others =>
          exact absurd ((levels.mem_iff second).mpr List.mem_cons_self) List.not_mem_nil
  | cons first rest ih =>
      cases other with
      | nil => exact absurd ((levels.mem_iff first).mp List.mem_cons_self) List.not_mem_nil
      | cons second others =>
          have upTo : measure first ≤ measure second :=
            least_of_ascending ascending ((levels.mem_iff second).mpr List.mem_cons_self)
          have downTo : measure second ≤ measure first :=
            least_of_ascending rising ((levels.mem_iff first).mp List.mem_cons_self)
          have same : measure second = measure first := Nat.le_antisymm downTo upTo
          have heads := levels (measure first)
          simp only [List.filter_cons, same, decide_true, if_true] at heads
          obtain ⟨rfl, -⟩ := List.cons.inj heads
          rw [ih levels.tail ascending.of_cons rising.of_cons]

/-- There is one ranking: the members of each measure stay in the order of the candidates. -/
theorem Ranked.unique {measure : α → Nat} {candidates one other : List α}
    (ranked : Ranked measure candidates one) (ordered : Ranked measure candidates other) :
    one = other :=
  SameLevels.eq (fun value => (ranked.stable value).trans (ordered.stable value).symm)
    ranked.ascending ordered.ascending

end Ranking

def nameDistance (name candidate : String) : Nat := editDistance name.toList candidate.toList

def isNear (name candidate : String) : Bool :=
  0 < nameDistance name candidate && nameDistance name candidate ≤ toleratedEdits name

def measured (name candidate : String) : Nat × String := (nameDistance name candidate, candidate)

theorem mergeSort_measured (name : String) (candidates : List String) :
    ((candidates.map (measured name)).mergeSort fun first second => first.1 ≤ second.1) =
      (candidates.mergeSort fun first second =>
        nameDistance name first ≤ nameDistance name second).map (measured name) :=
  (List.map_mergeSort (f := measured name) fun _ _ _ _ => rfl).symm

theorem nearestNames_eq (name : String) (available : List String) :
    nearestNames name available =
      ((available.filter (isNear name)).mergeSort fun first second =>
        nameDistance name first ≤ nameDistance name second).take 3 := by
  change ((((available.map (measured name)).filter _).mergeSort _).take 3).map _ = _
  rw [List.filter_map, mergeSort_measured, ← List.map_take, List.map_map]
  exact List.map_id _

theorem nearestNames_ranked (name : String) (available : List String) :
    ∃ ranked, Ranked (nameDistance name) (available.filter (isNear name)) ranked ∧
      nearestNames name available = ranked.take 3 :=
  ⟨_, ranked_mergeSort _ _, nearestNames_eq name available⟩

theorem InAlphabet.utf8Size_eq_one {c : Char} (allowed : InAlphabet c) : c.utf8Size = 1 := by
  rw [Char.utf8Size_eq_one_iff]
  rcases allowed with ⟨-, upTo⟩ | ⟨-, upTo⟩ | ⟨-, upTo⟩ | rfl | rfl | rfl
  · exact UInt32.le_trans upTo (by decide)
  · exact UInt32.le_trans upTo (by decide)
  · exact UInt32.le_trans upTo (by decide)
  all_goals decide

theorem byteLength_alphabet {cs : List Char} (within : ∀ c ∈ cs, InAlphabet c) :
    Text.byteLength cs = cs.length := by
  induction cs with
  | nil => rfl
  | cons c cs ih =>
      obtain ⟨here, later⟩ := List.forall_mem_cons.mp within
      rw [Text.byteLength_cons, here.utf8Size_eq_one, ih later, List.length_cons, Nat.add_comm]

theorem length_le_byteLength (cs : List Char) : cs.length ≤ Text.byteLength cs := by
  induction cs with
  | nil => exact Nat.le_refl 0
  | cons c cs ih =>
      have positive := c.utf8Size_pos
      rw [Text.byteLength_cons, List.length_cons]
      omega

/-- The length of a name can be told in bytes unless the name is short in characters only. -/
theorem toleratedEdits_of_fits {name : String}
    (fits : name.length ≤ 3 → name.utf8ByteSize ≤ 3) :
    toleratedEdits name = if name.length ≤ 3 then 1 else 2 := by
  have bytes : name.length ≤ name.utf8ByteSize := by
    rw [Text.utf8ByteSize_eq, ← String.length_toList]
    exact length_le_byteLength name.toList
  rw [toleratedEdits]
  by_cases short : name.length ≤ 3
  · rw [if_pos (fits short), if_pos short]
  · rw [if_neg short, if_neg (by omega)]

theorem toleratedEdits_eq {name : String} (sound : IsSegment name) :
    toleratedEdits name = if name.length ≤ 3 then 1 else 2 := by
  refine toleratedEdits_of_fits fun short => ?_
  rwa [Text.utf8ByteSize_eq, byteLength_alphabet sound.2, String.length_toList]

theorem nameDistance_self (name : String) : nameDistance name name = 0 :=
  Nat.le_zero.mp ((editDistance_least _ _).2 (.none name.toList))

/-- The suggestions among some names, if that many edits are tolerated: of the other names within
them the first three by distance, where those of one distance stay in their order. -/
def Suggests (tolerated : Nat) (name : String) (available suggested : List String) : Prop :=
  ∃ ranked, Ranked (nameDistance name) (available.filter fun candidate =>
      0 < nameDistance name candidate && nameDistance name candidate ≤ tolerated) ranked ∧
    suggested = ranked.take 3

theorem Suggests.unique {tolerated : Nat} {name : String} {available one other : List String}
    (first : Suggests tolerated name available one)
    (second : Suggests tolerated name available other) : one = other := by
  obtain ⟨ranked, ordered, rfl⟩ := first
  obtain ⟨_, again, rfl⟩ := second
  rw [ordered.unique again]

theorem suggests_iff (name : String) (available suggested : List String) :
    Suggests (toleratedEdits name) name available suggested ↔
      suggested = nearestNames name available := by
  have nearest : Suggests (toleratedEdits name) name available (nearestNames name available) :=
    nearestNames_ranked name available
  constructor
  · intro suggests
    exact suggests.unique nearest
  · rintro rfl
    exact nearest

/-- What is suggested for a name are the nearest of the available names, at most three. How many
edits are tolerated depends on the length of the name in bytes, which comes to the same as its
length in characters unless it has at most three characters and more bytes. -/
theorem suggestions_by_length (name : String) (available suggested : List String) :
    (Suggests (if name.utf8ByteSize ≤ 3 then 1 else 2) name available suggested ↔
        suggested = nearestNames name available) ∧
      ((name.length ≤ 3 → name.utf8ByteSize ≤ 3) →
        (Suggests (if name.length ≤ 3 then 1 else 2) name available suggested ↔
          suggested = nearestNames name available)) ∧
      ∀ candidate : String,
        IsLeast {count | Edits count name.toList candidate.toList}
          (nameDistance name candidate) := by
  refine ⟨suggests_iff name available suggested, fun fits => ?_,
    fun candidate => editDistance_least _ _⟩
  rw [← toleratedEdits_of_fits fits]
  exact suggests_iff name available suggested

theorem suggestions_by_length_cafe :
    ("café".length ≤ 3 → "café".utf8ByteSize ≤ 3) ∧
      Suggests (if "café".length ≤ 3 then 1 else 2) "café" ["cave", "cafés", "cafe", "café", "case"]
        ["cafés", "cafe", "cave"] := by
  have fits : "café".length ≤ 3 → "café".utf8ByteSize ≤ 3 := by decide
  have suggested := suggestions_by_length "café" ["cave", "cafés", "cafe", "café", "case"]
    ["cafés", "cafe", "cave"]
  exact ⟨fits, (suggested.2.1 fits).mpr (by cbv)⟩

/-- Two characters of two bytes each are taken for a long name, and two edits are tolerated. -/
theorem short_name_of_four_bytes :
    "éé".length ≤ 3 ∧ nearestNames "éé" ["ab"] = ["ab"] ∧
      ¬ Suggests (if "éé".length ≤ 3 then 1 else 2) "éé" ["ab"] (nearestNames "éé" ["ab"]) := by
  refine ⟨by decide, by cbv, ?_⟩
  rintro ⟨ranked, ordered, same⟩
  have far : (["ab"].filter fun candidate => 0 < nameDistance "éé" candidate &&
      nameDistance "éé" candidate ≤ if "éé".length ≤ 3 then 1 else 2) = [] := by cbv
  have empty : ranked = [] := List.perm_nil.mp (far ▸ ordered.perm)
  have listed : nearestNames "éé" ["ab"] = ["ab"] := by cbv
  rw [empty, listed] at same
  cases same

namespace Key

theorem parent?_child (key : Key) (segment : String) : (key.child segment).parent? = some key := by
  simp [parent?, isRoot, dropLast, length, child]

theorem last?_child (key : Key) (segment : String) : (key.child segment).last? = some segment :=
  List.getLast?_concat

theorem eq_child_of_ne_root {key : Key} (below : key ≠ root) :
    ∃ (parent : Key) (segment : String), key = parent.child segment := by
  obtain ⟨path, segment, whole⟩ :=
    (List.eq_nil_or_concat' key.segments).resolve_left (segments_ne_nil below)
  exact ⟨⟨path⟩, segment, eq_of_segments whole⟩

end Key

namespace Lexicon

/-- The stored siblings that are near a name, by distance and then by name. -/
structure Nearest (lexicon : Lexicon) (parent : Key) (name : String) (ranked : List String) :
    Prop where
  mem_iff : ∀ other, other ∈ ranked ↔ lexicon.contains (parent.child other) = true ∧
    0 < nameDistance name other ∧
      nameDistance name other ≤ if name.length ≤ 3 then 1 else 2
  ordered : ranked.Pairwise fun first second =>
    nameDistance name first < nameDistance name second ∨
      nameDistance name first = nameDistance name second ∧ first < second

variable {lexicon : Lexicon} {texts : TextMap}

def siblings (view : KeyView Entry) : List String :=
  view.names.filter fun name => ((view.child? name).map (·.isTerminal)).getD false

theorem contains_of_view? {parent : Key} {view : KeyView Entry}
    (found : lexicon.entries.view? parent = some view) (name : String) :
    ((view.child? name).map (·.isTerminal)).getD false = lexicon.contains (parent.child name) := by
  rw [KeyTree.child?_of_view? found, contains, KeyTree.contains, KeyTree.get?, KeyTree.view?]
  cases lexicon.entries.subtree? (parent.child name).segments <;> rfl

theorem not_contains_of_view? {parent : Key}
    (hidden : lexicon.entries.view? parent = none) (name : String) :
    lexicon.contains (parent.child name) = false := by
  have absent : lexicon.entries.subtree? parent.segments = none :=
    Option.map_eq_none_iff.mp hidden
  rw [contains, KeyTree.contains, KeyTree.get?, Key.segments_child, KeyTree.subtree?_append, absent]
  rfl

theorem mem_siblings_iff {parent : Key} {view : KeyView Entry}
    (found : lexicon.entries.view? parent = some view) (name : String) :
    name ∈ siblings view ↔ lexicon.contains (parent.child name) = true := by
  have held := contains_of_view? found name
  rw [siblings, List.mem_filter, held, and_iff_right_iff_imp]
  intro stored
  rw [← held] at stored
  rw [KeyView.names, ← Branches.isSome_find?_iff]
  cases below : view.tree.below.find? name with
  | some _ => rfl
  | none => simp [KeyView.child?, below] at stored

theorem Holds.siblings_ascending (holds : lexicon.Holds texts) {parent : Key}
    {view : KeyView Entry} (found : lexicon.entries.view? parent = some view) :
    (siblings view).Pairwise (· < ·) := by
  obtain ⟨entries, represents, keeps⟩ := holds
  obtain ⟨node, here, rfl⟩ := Option.map_eq_some_iff.mp found
  have canonical := KeyTree.canonical_subtree represents.canonical here
  exact (KeyTree.names_ascending canonical.branches).filter _

theorem suggestions_root (lexicon : Lexicon) : lexicon.suggestions Key.root = [] := rfl

theorem suggestions_child (lexicon : Lexicon) (parent : Key) (name : String) :
    lexicon.suggestions (parent.child name) =
      match lexicon.entries.view? parent with
      | none => []
      | some view =>
          (nearestNames name (siblings view)).filterMap fun other =>
            (parent.push other).toOption := by
  rw [suggestions, Key.parent?_child, Key.last?_child]
  rfl

theorem Holds.push_stored (holds : lexicon.Holds texts) (valid : texts.Valid) {parent : Key}
    {name : String} (stored : lexicon.contains (parent.child name) = true) :
    parent.push name = .ok (parent.child name) := by
  have sound := valid _ ((holds.contains_iff _).mp stored)
  exact (Key.push_eq_ok_iff _ _ _).mpr ⟨sound name List.mem_concat_self, rfl⟩

theorem Holds.suggestions_child (holds : lexicon.Holds texts) (valid : texts.Valid) {parent : Key}
    {name : String} (sound : IsSegment name) :
    ∃ ranked, lexicon.Nearest parent name ranked ∧
      lexicon.suggestions (parent.child name) = (ranked.take 3).map parent.child := by
  rw [Lexicon.suggestions_child]
  cases found : lexicon.entries.view? parent with
  | none =>
      exact ⟨[], ⟨by simp [not_contains_of_view? found], .nil⟩, rfl⟩
  | some view =>
      obtain ⟨ranked, ordered, first⟩ := nearestNames_ranked name (siblings view)
      have nearest : lexicon.Nearest parent name ranked := by
        refine ⟨fun other => ?_, ?_⟩
        · rw [ordered.perm.mem_iff, List.mem_filter, mem_siblings_iff found, isNear,
            toleratedEdits_eq sound, Bool.and_eq_true, decide_eq_true_eq, decide_eq_true_eq]
        · exact ordered.lexicographic ((holds.siblings_ascending found).filter _)
      refine ⟨ranked, nearest, ?_⟩
      have pushed (other : String) (listed : other ∈ ranked.take 3) :
          (parent.push other).toOption = some (parent.child other) := by
        rw [holds.push_stored valid ((nearest.mem_iff other).mp (List.mem_of_mem_take listed)).1]
        rfl
      simp only [first, List.filterMap_congr pushed, List.filterMap_eq_map']

theorem Nearest.apart {parent : Key} {name : String} {ranked : List String}
    (nearest : lexicon.Nearest parent name ranked) {other : String} (listed : other ∈ ranked) :
    lexicon.contains (parent.child other) = true ∧ parent.child other ≠ parent.child name := by
  obtain ⟨stored, apart, -⟩ := (nearest.mem_iff other).mp listed
  refine ⟨stored, fun same => ?_⟩
  obtain rfl : other = name := by
    simpa [Key.last?_child] using congrArg Key.last? same
  rw [nameDistance_self] at apart
  exact Nat.lt_irrefl 0 apart

def pets : List LexiconRequest :=
  [.load [("pet.cat", "Cat"), ("pet.cab", "Cab"), ("pet.cap", "Cap"), ("pet.car.name", "Car"),
      ("pet.hound", "Hound")],
    .insert ⟨["pet", "can"]⟩ "Can", .insert ⟨["cast"]⟩ "Cast", .get ⟨["pet", "cat"]⟩]

/-- Suggestions are the nearest stored siblings, at most three: by their distance, and those of one
distance in the order of their names. The distance is the least number of characters to put in, take
out or replace. So a suggestion is always stored, and never the key itself. -/
theorem suggestions_nearest (requests : List LexiconRequest)
    (named : ∀ request ∈ requests, request.Valid) (key : Key) (valid : key.Valid) :
    (key = Key.root ∧ (history requests).2.suggestions key = [] ∨
        ∃ parent name ranked, key = parent.child name ∧
          (history requests).2.Nearest parent name ranked ∧
          (history requests).2.suggestions key = (ranked.take 3).map parent.child) ∧
      (∀ near ∈ (history requests).2.suggestions key,
        (history requests).2.contains near = true ∧ near ≠ key) ∧
      ∀ source target : String,
        IsLeast {count | Edits count source.toList target.toList}
          (nameDistance source target) := by
  have least (source target : String) :
      IsLeast {count | Edits count source.toList target.toList} (nameDistance source target) :=
    editDistance_least _ _
  by_cases top : key = Key.root
  · subst top
    exact ⟨.inl ⟨rfl, suggestions_root _⟩, nofun, least⟩
  · obtain ⟨parent, name, rfl⟩ := Key.eq_child_of_ne_root top
    obtain ⟨texts, holds, sound⟩ := holds_history named
    have segment : IsSegment name :=
      (segmentFault?_none_iff name).mp (valid name List.mem_concat_self)
    obtain ⟨ranked, nearest, suggested⟩ := holds.suggestions_child sound segment
    refine ⟨.inr ⟨parent, name, ranked, rfl, nearest, suggested⟩, fun near listed => ?_, least⟩
    rw [suggested] at listed
    obtain ⟨other, early, rfl⟩ := List.mem_map.mp listed
    exact nearest.apart (List.mem_of_mem_take early)

theorem suggestions_nearest_pets :
    (∀ request ∈ pets, request.Valid) ∧ (⟨["pet", "cas"]⟩ : Key).Valid ∧
      (history pets).2.suggestions ⟨["pet", "cas"]⟩ =
        [⟨["pet", "cab"]⟩, ⟨["pet", "can"]⟩, ⟨["pet", "cap"]⟩] ∧
      (∀ near ∈ (history pets).2.suggestions ⟨["pet", "cas"]⟩,
        (history pets).2.contains near = true ∧ near ≠ ⟨["pet", "cas"]⟩) ∧
      ∃ parent name ranked, (⟨["pet", "cas"]⟩ : Key) = parent.child name ∧
        (history pets).2.Nearest parent name ranked := by
  have named : ∀ request ∈ pets, request.Valid := by decide
  have valid : (⟨["pet", "cas"]⟩ : Key).Valid := by decide
  obtain ⟨ranking, stored, -⟩ := suggestions_nearest pets named ⟨["pet", "cas"]⟩ valid
  refine ⟨named, valid, by cbv, stored, ?_⟩
  obtain ⟨top, -⟩ | ⟨parent, name, ranked, same, nearest, -⟩ := ranking
  · cases top
  · exact ⟨parent, name, ranked, same, nearest⟩

end Lexicon

end Phrasebook
