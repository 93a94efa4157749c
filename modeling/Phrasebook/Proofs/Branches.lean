import Mathlib.Data.String.Basic
import Phrasebook.KeyTree.Basic

/-!
Branches in canonical form. Siblings ascend by name, every branch counts the values at or below it,
and no branch leads to nothing. Storing, changing and removing keep that form, and what they do to
the value at one path they do to no other.
-/

namespace Phrasebook

universe u

variable {α : Type u}

namespace Branches

def total : Branches α → Nat
  | nil => 0
  | cons _ value _ below next => value.toList.length + below.total + next.total

inductive Canonical : Branches α → Prop
  | nil : Canonical nil
  | cons {name : String} {value : Option α} {count : Nat} {below next : Branches α}
      (ascending : ∀ other ∈ next.names, name < other)
      (counted : count = value.toList.length + below.total) (alive : 0 < count)
      (inside : Canonical below) (behind : Canonical next) :
      Canonical (cons name value count below next)

/-- The value at the end of a path of at least one segment. -/
def value? : Branches α → String → List String → Option α
  | nil, _, _ => none
  | cons name value _ below next, segment, rest =>
      if name = segment then
        match rest with
        | [] => value
        | following :: path => below.value? following path
      else next.value? segment rest

theorem value?_cons (name : String) (value : Option α) (count : Nat) (below next : Branches α)
    (segment : String) (rest : List String) :
    (cons name value count below next).value? segment rest =
      if name = segment then
        match rest with
        | [] => value
        | following :: path => below.value? following path
      else next.value? segment rest := by
  rw [value?.eq_def]

theorem value?_absent {branches : Branches α} {segment : String} (rest : List String)
    (absent : segment ∉ branches.names) : branches.value? segment rest = none := by
  induction branches with
  | nil => rfl
  | cons name value count below next _ ih =>
      simp only [names, List.mem_cons, not_or] at absent
      rw [value?_cons, if_neg (Ne.symm absent.1)]
      exact ih absent.2

theorem absent_of_ascending {branches : Branches α} {name : String}
    (ascending : ∀ other ∈ branches.names, name < other) : name ∉ branches.names :=
  fun member => String.lt_irrefl name (ascending name member)

/-- A branch that is changed at one path below it tells the same values at all others. -/
theorem value?_changed {name : String} {value kept : Option α} {count counted : Nat}
    {below left next : Branches α} {rest : List String} (result : Option α → Option α)
    (top : kept = if [] = rest then result value else value)
    (deeper : ∀ first later, left.value? first later =
      if first :: later = rest then result (below.value? first later)
      else below.value? first later)
    (other : String) (path : List String) :
    (cons name kept counted left next).value? other path =
      if other = name ∧ path = rest then
        result ((cons name value count below next).value? other path)
      else (cons name value count below next).value? other path := by
  by_cases here : name = other
  · subst here
    cases path with
    | nil => simp [value?, top]
    | cons first later => simp [value?, deeper]
  · simp [value?, here, Ne.symm here]

theorem names_spine (name : String) (path : List String) (value : α) (next : Branches α) :
    (spine name path value next).names = name :: next.names := by
  cases path <;> rfl

theorem total_spine (name : String) (path : List String) (value : α) (next : Branches α) :
    (spine name path value next).total = next.total + 1 := by
  induction path generalizing name next with
  | nil => simp [spine, total, Nat.add_comm]
  | cons segment rest ih => simp [spine, total, ih, Nat.add_comm]

theorem canonical_spine {name : String} {next : Branches α} (path : List String) (value : α)
    (ascending : ∀ other ∈ next.names, name < other) (canonical : next.Canonical) :
    (spine name path value next).Canonical := by
  induction path generalizing name next with
  | nil => exact .cons ascending rfl Nat.one_pos .nil canonical
  | cons segment rest ih =>
      have counted : 1 =
          (none : Option α).toList.length + (spine segment rest value nil).total := by
        simp [total_spine, total]
      exact .cons ascending counted Nat.one_pos (ih (by simp [names]) .nil) canonical

theorem value?_spine {name : String} {next : Branches α} (path : List String) (value : α)
    (fresh : name ∉ next.names) (segment : String) (rest : List String) :
    (spine name path value next).value? segment rest =
      if segment = name ∧ rest = path then some value else next.value? segment rest := by
  induction path generalizing name next segment rest with
  | nil =>
      by_cases same : name = segment
      · subst same
        cases rest with
        | nil => simp [spine, value?]
        | cons following path => simp [spine, value?, value?_absent _ fresh]
      · simp [spine, value?, same, Ne.symm same]
  | cons following path ih =>
      by_cases same : name = segment
      · subst same
        cases rest with
        | nil => simp [spine, value?, value?_absent _ fresh]
        | cons first later =>
            rw [spine, value?, if_pos rfl, ih (by simp [names]) first later]
            simp [value?, value?_absent _ fresh]
      · simp [spine, value?, same, Ne.symm same]

theorem mem_names_add {branches : Branches α} {value : α} {segment : String} {rest : List String}
    {other : String} (member : other ∈ (branches.add value segment rest).names) :
    other = segment ∨ other ∈ branches.names := by
  induction branches with
  | nil => simpa [add, names_spine, names] using member
  | cons name old count below next _ ih =>
      unfold add at member
      split at member
      · refine .inr ?_
        cases rest <;> simpa [names] using member
      · split at member
        · simpa [names_spine] using member
        · simp only [names, List.mem_cons] at member ⊢
          rcases member with same | member
          · exact .inr (.inl same)
          · exact (ih member).imp_right .inr

theorem total_add {branches : Branches α} (value : α) {segment : String} {rest : List String}
    (vacant : branches.value? segment rest = none) :
    (branches.add value segment rest).total = branches.total + 1 := by
  induction branches generalizing segment rest with
  | nil => exact total_spine segment rest value nil
  | cons name old count below next inside behind =>
      rw [value?_cons] at vacant
      unfold add
      split
      · rename_i same
        rw [if_pos same] at vacant
        cases rest with
        | nil =>
            simp only at vacant
            simp only [total, vacant, Option.toList_some, Option.toList_none, List.length_cons,
              List.length_nil]
            omega
        | cons following path =>
            simp only [total, inside vacant]
            omega
      · rename_i different
        rw [if_neg different] at vacant
        split
        · rw [total_spine]
        · simp only [total, behind vacant]
          omega

theorem canonical_add {branches : Branches α} (value : α) {segment : String} {rest : List String}
    (canonical : branches.Canonical) (vacant : branches.value? segment rest = none) :
    (branches.add value segment rest).Canonical := by
  induction canonical generalizing segment rest with
  | nil => exact canonical_spine rest value (by simp [names]) .nil
  | @cons name old count below next ascending counted alive inside behind ihInside ihBehind =>
      rw [value?_cons] at vacant
      unfold add
      split
      · rename_i same
        rw [if_pos same] at vacant
        cases rest with
        | nil =>
            simp only at vacant
            subst vacant
            exact .cons ascending (by simp [counted, Nat.add_comm]) (Nat.succ_pos _) inside behind
        | cons following path =>
            have counted : count + 1 =
                old.toList.length + (below.add value following path).total := by
              rw [total_add value vacant, counted, Nat.add_assoc]
            exact .cons ascending counted (Nat.succ_pos _) (ihInside vacant) behind
      · rename_i different
        rw [if_neg different] at vacant
        split
        · rename_i before
          have ascending : ∀ other ∈ (cons name old count below next).names, segment < other := by
            refine List.forall_mem_cons.mpr ⟨before, ?_⟩
            exact fun other member => String.lt_trans before (ascending other member)
          exact canonical_spine rest value ascending (.cons ‹_› counted alive inside behind)
        · rename_i unordered
          have after : name < segment := (lt_trichotomy name segment).resolve_right
            (not_or.mpr ⟨different, unordered⟩)
          refine .cons ?_ counted alive inside (ihBehind vacant)
          intro other member
          rcases mem_names_add member with rfl | member
          · exact after
          · exact ascending other member

theorem value?_add {branches : Branches α} (value : α) {segment : String} {rest : List String}
    (canonical : branches.Canonical) (other : String) (path : List String) :
    (branches.add value segment rest).value? other path =
      if other = segment ∧ path = rest then some value else branches.value? other path := by
  induction canonical generalizing segment rest other path with
  | nil => exact value?_spine rest value (by simp [names]) other path
  | @cons name old count below next ascending counted alive inside behind ihInside ihBehind =>
      unfold add
      split
      · rename_i same
        subst same
        cases rest with
        | nil => exact value?_changed (fun _ => some value) (by simp) (by simp) other path
        | cons following later =>
            refine value?_changed (fun _ => some value) (by simp) (fun first path => ?_) other path
            simp [ihInside]
      · rename_i different
        split
        · rename_i before
          have fresh : segment ∉ (cons name old count below next).names := by
            apply absent_of_ascending
            refine List.forall_mem_cons.mpr ⟨before, ?_⟩
            exact fun other member => String.lt_trans before (ascending other member)
          exact value?_spine rest value fresh other path
        · by_cases here : name = other
          · subst here
            simp [value?, different]
          · simp [value?, here, ihBehind]

@[simp] theorem names_modify (branches : Branches α) (change : α → α) (segment : String)
    (rest : List String) : (branches.modify change segment rest).names = branches.names := by
  induction branches with
  | nil => rfl
  | cons name value count below next _ ih =>
      unfold modify
      split
      · cases rest <;> rfl
      · simp [names, ih]

@[simp] theorem total_modify (branches : Branches α) (change : α → α) (segment : String)
    (rest : List String) : (branches.modify change segment rest).total = branches.total := by
  induction branches generalizing segment rest with
  | nil => rfl
  | cons name value count below next inside behind =>
      unfold modify
      split
      · cases rest with
        | nil => cases value <;> simp [total]
        | cons following path => simp [total, inside]
      · simp [total, behind]

theorem canonical_modify {branches : Branches α} (change : α → α) (segment : String)
    (rest : List String) (canonical : branches.Canonical) :
    (branches.modify change segment rest).Canonical := by
  induction canonical generalizing segment rest with
  | nil => exact .nil
  | @cons name value count below next ascending counted alive inside behind ihInside ihBehind =>
      unfold modify
      split
      · cases rest with
        | nil =>
            have counted : count = (value.map change).toList.length + below.total := by
              cases value <;> simpa using counted
            exact .cons ascending counted alive inside behind
        | cons following path =>
            exact .cons ascending (by simpa using counted) alive (ihInside following path) behind
      · exact .cons (by simpa using ascending) counted alive inside (ihBehind segment rest)

theorem value?_modify (branches : Branches α) (change : α → α) (segment : String)
    (rest : List String) (other : String) (path : List String) :
    (branches.modify change segment rest).value? other path =
      if other = segment ∧ path = rest then (branches.value? other path).map change
      else branches.value? other path := by
  induction branches generalizing segment rest other path with
  | nil => simp [modify, value?]
  | cons name value count below next inside behind =>
      unfold modify
      split
      · rename_i same
        subst same
        cases rest with
        | nil => exact value?_changed (Option.map change) (by simp) (by simp) other path
        | cons following later =>
            refine value?_changed (Option.map change) (by simp) (fun first path => ?_) other path
            simp [inside]
      · rename_i different
        by_cases here : name = other
        · subst here
          simp [value?, different]
        · simp [value?, here, behind]

theorem modify_vacant {branches : Branches α} (change : α → α) {segment : String}
    {rest : List String} (vacant : branches.value? segment rest = none) :
    branches.modify change segment rest = branches := by
  induction branches generalizing segment rest with
  | nil => rfl
  | cons name value count below next inside behind =>
      rw [value?_cons] at vacant
      unfold modify
      split
      · rename_i same
        rw [if_pos same] at vacant
        cases rest with
        | nil =>
            simp only at vacant
            subst vacant
            rfl
        | cons following path => simp only [inside vacant]
      · rename_i different
        rw [if_neg different] at vacant
        rw [behind vacant]

theorem remove?_eq_none_iff (branches : Branches α) (segment : String) (rest : List String) :
    branches.remove? segment rest = none ↔ branches.value? segment rest = none := by
  induction branches generalizing segment rest with
  | nil => simp [remove?, value?]
  | cons name value count below next inside behind =>
      unfold remove?
      rw [value?_cons]
      split
      · cases rest <;> simp [inside]
      · simp [behind]

/-- What is left of branches from which the value at a path has been taken. -/
structure Removal (branches : Branches α) (segment : String) (rest : List String) (old : α)
    (left : Branches α) : Prop where
  found : branches.value? segment rest = some old
  canonical : left.Canonical
  fewer : left.total + 1 = branches.total
  named : ∀ other ∈ left.names, other ∈ branches.names
  values : ∀ other path, left.value? other path =
    if other = segment ∧ path = rest then none else branches.value? other path

theorem mem_names_keep {name other : String} {value : Option α} {count : Nat}
    {below next : Branches α} (member : other ∈ (keep name value count below next).names) :
    other = name ∨ other ∈ next.names := by
  unfold keep at member
  split at member
  · exact .inr member
  · simpa [names] using member

theorem total_pos {branches : Branches α} (canonical : branches.Canonical)
    (filled : branches.isEmpty = false) : 0 < branches.total := by
  cases canonical with
  | nil => cases filled
  | cons _ counted alive _ _ =>
      simp only [total]
      omega

theorem isEmpty_eq_true {branches : Branches α} (empty : branches.isEmpty = true) :
    branches = nil := by
  cases branches with
  | nil => rfl
  | cons => cases empty

theorem canonical_keep {name : String} {value : Option α} {count : Nat} {below next : Branches α}
    (ascending : ∀ other ∈ next.names, name < other)
    (counted : count = value.toList.length + below.total) (inside : below.Canonical)
    (behind : next.Canonical) : (keep name value count below next).Canonical := by
  unfold keep
  split
  · exact behind
  · rename_i filled
    refine .cons ascending counted ?_ inside behind
    cases value with
    | none =>
        have := total_pos inside (by simpa using filled)
        omega
    | some stored =>
        simp only [counted, Option.toList_some, List.length_cons]
        omega

theorem total_keep (name : String) (value : Option α) (count : Nat) (below next : Branches α) :
    (keep name value count below next).total =
      value.toList.length + below.total + next.total := by
  unfold keep
  split
  · rename_i dead
    simp only [Bool.and_eq_true, Option.isNone_iff_eq_none] at dead
    rw [dead.1, isEmpty_eq_true dead.2]
    simp [total]
  · rfl

theorem value?_keep {name : String} {value : Option α} {count : Nat} {below next : Branches α}
    (fresh : name ∉ next.names) (segment : String) (rest : List String) :
    (keep name value count below next).value? segment rest =
      (cons name value count below next).value? segment rest := by
  unfold keep
  split
  · rename_i dead
    simp only [Bool.and_eq_true, Option.isNone_iff_eq_none] at dead
    rw [dead.1, isEmpty_eq_true dead.2, value?_cons]
    split
    · rename_i same
      subst same
      rw [value?_absent rest fresh]
      cases rest <;> rfl
    · rfl
  · rfl

theorem removal_head {name : String} {value kept : Option α} {count : Nat}
    {below left next : Branches α} {rest : List String} {old : α}
    (canonical : (cons name value count below next).Canonical)
    (found : (cons name value count below next).value? name rest = some old)
    (inside : left.Canonical)
    (fewer : kept.toList.length + left.total + 1 = value.toList.length + below.total)
    (top : kept = if [] = rest then none else value)
    (deeper : ∀ first later, left.value? first later =
      if first :: later = rest then none else below.value? first later) :
    (cons name value count below next).Removal name rest old
      (keep name kept (count - 1) left next) := by
  cases canonical with
  | cons ascending counted _ _ behind =>
      have left : count - 1 = kept.toList.length + left.total := by omega
      refine ⟨found, canonical_keep ascending left inside behind, ?_, ?_, ?_⟩
      · rw [total_keep]
        simp only [total]
        omega
      · exact fun other member => List.mem_cons.mpr (mem_names_keep member)
      · intro other path
        rw [value?_keep (absent_of_ascending ascending)]
        exact value?_changed (fun _ => none) top deeper other path

theorem Removal.behind {name segment : String} {value : Option α} {count : Nat}
    {below next left : Branches α} {rest : List String} {old : α}
    (canonical : (cons name value count below next).Canonical) (different : name ≠ segment)
    (removal : next.Removal segment rest old left) :
    (cons name value count below next).Removal segment rest old
      (cons name value count below left) := by
  have fewer := removal.fewer
  cases canonical with
  | cons ascending counted alive inside _ =>
      refine ⟨by simp [value?, different, removal.found], ?_, ?_, ?_, ?_⟩
      · exact .cons (fun other member => ascending other (removal.named other member)) counted
          alive inside removal.canonical
      · simp only [total]
        omega
      · refine List.forall_mem_cons.mpr ⟨List.mem_cons_self, ?_⟩
        exact fun other member => List.mem_cons_of_mem name (removal.named other member)
      · intro other path
        by_cases here : name = other
        · subst here
          simp [value?, different]
        · simp [value?, here, removal.values]

theorem removal_of_remove? {branches left : Branches α} {segment : String} {rest : List String}
    {old : α} (canonical : branches.Canonical)
    (removed : branches.remove? segment rest = some (old, left)) :
    branches.Removal segment rest old left := by
  induction canonical generalizing segment rest left with
  | nil => cases removed
  | @cons name value count below next ascending counted alive inside behind ihInside ihBehind =>
      have canonical : (cons name value count below next).Canonical :=
        .cons ascending counted alive inside behind
      unfold remove? at removed
      split at removed
      · rename_i same
        subst same
        cases rest with
        | nil =>
            obtain ⟨stored, rfl, same⟩ := Option.map_eq_some_iff.mp removed
            obtain ⟨rfl, rfl⟩ := Prod.mk.inj same
            have fewer : (none : Option α).toList.length + below.total + 1 =
                (some stored).toList.length + below.total := by
              simp [Nat.add_comm]
            exact removal_head canonical (by simp [value?]) inside fewer (by simp) (by simp)
        | cons following later =>
            obtain ⟨⟨stored, kept⟩, taken, same⟩ := Option.map_eq_some_iff.mp removed
            obtain ⟨rfl, rfl⟩ := Prod.mk.inj same
            have inner := ihInside taken
            have fewer : value.toList.length + kept.total + 1 =
                value.toList.length + below.total := by
              rw [Nat.add_assoc, inner.fewer]
            refine removal_head canonical (by simp [value?, inner.found]) inner.canonical fewer
              (by simp) fun first path => ?_
            simp [inner.values]
      · rename_i different
        obtain ⟨⟨stored, kept⟩, taken, same⟩ := Option.map_eq_some_iff.mp removed
        obtain ⟨rfl, rfl⟩ := Prod.mk.inj same
        exact (ihBehind taken).behind canonical different

theorem value_on_branch {branches : Branches α} (canonical : branches.Canonical) {name : String}
    (member : name ∈ branches.names) : ∃ path, (branches.value? name path).isSome := by
  induction canonical generalizing name with
  | nil => cases member
  | @cons first value count below next ascending counted alive inside behind ihInside ihBehind =>
      by_cases here : first = name
      · subst here
        cases value with
        | some stored => exact ⟨[], by simp [value?]⟩
        | none =>
            cases below with
            | nil => simp [counted, total] at alive
            | cons second _ _ _ others =>
                have named : second ∈ second :: others.names := List.mem_cons_self
                obtain ⟨path, found⟩ := ihInside named
                exact ⟨second :: path, by simpa [value?] using found⟩
      · have later := (List.mem_cons.mp member).resolve_left (Ne.symm here)
        obtain ⟨path, found⟩ := ihBehind later
        exact ⟨path, by simpa [value?, here] using found⟩

theorem mem_names_iff {branches : Branches α} (canonical : branches.Canonical) (name : String) :
    name ∈ branches.names ↔ ∃ path, (branches.value? name path).isSome := by
  constructor
  · exact value_on_branch canonical
  · rintro ⟨path, found⟩
    by_contra absent
    rw [value?_absent path absent] at found
    cases found

theorem names_agree {first second : Branches α} (left : first.Canonical)
    (right : second.Canonical) (same : ∀ segment rest,
      first.value? segment rest = second.value? segment rest) (name : String) :
    name ∈ first.names ↔ name ∈ second.names := by
  rw [mem_names_iff left, mem_names_iff right]
  simp only [same]

/-- There is one canonical form for the same values. -/
theorem canonical_ext {first second : Branches α} (left : first.Canonical)
    (right : second.Canonical) (same : ∀ segment rest,
      first.value? segment rest = second.value? segment rest) : first = second := by
  induction left generalizing second with
  | nil =>
      have named := names_agree .nil right same
      cases right with
      | nil => rfl
      | cons => exact absurd ((named _).mpr List.mem_cons_self) (by simp [names])
  | @cons name value count below next ascending counted alive inside behind ihInside ihBehind =>
      have named := names_agree (.cons ascending counted alive inside behind) right same
      cases right with
      | nil => exact absurd ((named _).mp List.mem_cons_self) (by simp [names])
      | @cons other otherValue _ otherBelow otherNext otherAscending otherCounted _ otherInside
          otherBehind =>
          -- Each of the first names is the least one.
          have first : name = other := by
            rcases List.mem_cons.mp ((named name).mp List.mem_cons_self) with equal | member
            · exact equal
            · rcases List.mem_cons.mp ((named other).mpr List.mem_cons_self) with equal | back
              · exact equal.symm
              · exact absurd (ascending other back) (String.lt_asymm (otherAscending name member))
          subst first
          have values : value = otherValue := by simpa [value?] using same name []
          have bodies : below = otherBelow := ihInside otherInside fun segment rest => by
            simpa [value?] using same name (segment :: rest)
          have siblings : next = otherNext := ihBehind otherBehind fun segment rest => by
            by_cases here : name = segment
            · subst here
              rw [value?_absent rest (absent_of_ascending ascending),
                value?_absent rest (absent_of_ascending otherAscending)]
            · simpa [value?, here] using same segment rest
          subst values bodies siblings
          rw [counted, otherCounted]

end Branches

end Phrasebook
