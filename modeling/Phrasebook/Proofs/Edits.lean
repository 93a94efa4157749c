import Mathlib.Order.Bounds.Basic
import Phrasebook.Suggestion

/-!
The distance of two texts is the least number of single edits that lead from one to the other. Edits
may touch any place in any order; an alignment goes through both texts once and says for each
character whether it stays, is replaced, put in or taken out. Neither needs more steps than the
other, and the rows hold the least costs of alignments.
-/

namespace Phrasebook

inductive Edit : List Char → List Char → Prop
  | insert (before after : List Char) (c : Char) : Edit (before ++ after) (before ++ c :: after)
  | delete (before after : List Char) (c : Char) : Edit (before ++ c :: after) (before ++ after)
  | replace (before after : List Char) (c d : Char) :
      Edit (before ++ c :: after) (before ++ d :: after)

inductive Edits : Nat → List Char → List Char → Prop
  | none (text : List Char) : Edits 0 text text
  | more {count : Nat} {source middle target : List Char} (first : Edits count source middle)
      (last : Edit middle target) : Edits (count + 1) source target

/-- An alignment of two texts and what it costs. -/
inductive Aligned : Nat → List Char → List Char → Prop
  | nil : Aligned 0 [] []
  | keep {cost : Nat} {source target : List Char} (c : Char) (rest : Aligned cost source target) :
      Aligned cost (c :: source) (c :: target)
  | replace {cost : Nat} {source target : List Char} (c d : Char)
      (rest : Aligned cost source target) : Aligned (cost + 1) (c :: source) (d :: target)
  | delete {cost : Nat} {source target : List Char} (c : Char)
      (rest : Aligned cost source target) : Aligned (cost + 1) (c :: source) target
  | insert {cost : Nat} {source target : List Char} (d : Char)
      (rest : Aligned cost source target) : Aligned (cost + 1) source (d :: target)

theorem Edit.cons {source target : List Char} (edit : Edit source target) (c : Char) :
    Edit (c :: source) (c :: target) := by
  cases edit with
  | insert before after d => exact .insert (c :: before) after d
  | delete before after d => exact .delete (c :: before) after d
  | replace before after d e => exact .replace (c :: before) after d e

theorem Edits.cons {count : Nat} {source target : List Char} (edits : Edits count source target)
    (c : Char) : Edits count (c :: source) (c :: target) := by
  induction edits with
  | none text => exact .none (c :: text)
  | more _ last ih => exact .more ih (last.cons c)

theorem Aligned.edits {cost : Nat} {source target : List Char}
    (aligned : Aligned cost source target) : Edits cost source target := by
  induction aligned with
  | nil => exact .none []
  | keep c _ ih => exact ih.cons c
  | @replace _ _ target c d _ ih => exact .more (ih.cons c) (.replace [] target c d)
  | @delete _ _ target c _ ih => exact .more (ih.cons c) (.delete [] target c)
  | @insert _ _ target d _ ih => exact .more ih (.insert [] target d)

namespace Aligned

variable {cost more : Nat} {source target before after : List Char}

theorem refl (text : List Char) : Aligned 0 text text := by
  induction text with
  | nil => exact .nil
  | cons c _ ih => exact .keep c ih

theorem deletions (text : List Char) : Aligned text.length text [] := by
  induction text with
  | nil => exact .nil
  | cons c _ ih => exact .delete c ih

theorem insertions (text : List Char) : Aligned text.length [] text := by
  induction text with
  | nil => exact .nil
  | cons d _ ih => exact .insert d ih

theorem length_le (aligned : Aligned cost source target) :
    source.length ≤ cost + target.length ∧ target.length ≤ cost + source.length := by
  induction aligned <;> simp only [List.length_cons, List.length_nil] <;> omega

theorem append (first : Aligned cost source target) (second : Aligned more before after) :
    Aligned (cost + more) (source ++ before) (target ++ after) := by
  induction first with
  | nil => rwa [Nat.zero_add]
  | keep c _ ih => exact .keep c ih
  | replace c d _ ih =>
      rw [Nat.add_right_comm]
      exact .replace c d ih
  | delete c _ ih =>
      rw [Nat.add_right_comm]
      exact .delete c ih
  | insert d _ ih =>
      rw [Nat.add_right_comm]
      exact .insert d ih

theorem reverse (aligned : Aligned cost source target) :
    Aligned cost source.reverse target.reverse := by
  induction aligned with
  | nil => exact .nil
  | keep c _ ih => simpa using ih.append (.refl [c])
  | replace c d _ ih => simpa using ih.append (.replace c d .nil)
  | delete c _ ih => simpa using ih.append (.delete c .nil)
  | insert d _ ih => simpa using ih.append (.insert d .nil)

theorem split (aligned : Aligned cost source (before ++ after)) :
    ∃ left right first last, source = left ++ right ∧ cost = first + last ∧
      Aligned first left before ∧ Aligned last right after := by
  -- Where the second text is split, the first one is.
  generalize whole : before ++ after = target at aligned
  induction aligned generalizing before with
  | nil =>
      obtain ⟨rfl, rfl⟩ := List.append_eq_nil_iff.mp whole
      exact ⟨[], [], 0, 0, rfl, rfl, .nil, .nil⟩
  | @keep cost source target c rest ih =>
      cases before with
      | nil =>
          obtain rfl : after = _ := whole
          exact ⟨[], _, 0, _, rfl, (Nat.zero_add _).symm, .nil, .keep c rest⟩
      | cons d ds =>
          obtain ⟨rfl, behind⟩ := List.cons.inj whole
          obtain ⟨left, right, first, last, rfl, rfl, start, finish⟩ := ih behind
          exact ⟨_, right, first, last, rfl, rfl, .keep d start, finish⟩
  | @replace cost source target c e rest ih =>
      cases before with
      | nil =>
          obtain rfl : after = _ := whole
          exact ⟨[], _, 0, _, rfl, (Nat.zero_add _).symm, .nil, .replace c e rest⟩
      | cons d ds =>
          obtain ⟨rfl, behind⟩ := List.cons.inj whole
          obtain ⟨left, right, first, last, rfl, rfl, start, finish⟩ := ih behind
          exact ⟨_, right, _, last, rfl, Nat.add_right_comm .., .replace c d start, finish⟩
  | delete c rest ih =>
      obtain ⟨left, right, first, last, rfl, rfl, start, finish⟩ := ih whole
      exact ⟨_, right, _, last, rfl, Nat.add_right_comm .., .delete c start, finish⟩
  | @insert cost source target e rest ih =>
      cases before with
      | nil =>
          obtain rfl : after = _ := whole
          exact ⟨[], _, 0, _, rfl, (Nat.zero_add _).symm, .nil, .insert e rest⟩
      | cons d ds =>
          obtain ⟨rfl, behind⟩ := List.cons.inj whole
          obtain ⟨left, right, first, last, rfl, rfl, start, finish⟩ := ih behind
          exact ⟨left, right, _, last, rfl, Nat.add_right_comm .., .insert d start, finish⟩

theorem change {c : Char} (aligned : Aligned cost source [c]) {part : List Char}
    (short : part.length ≤ 1) : ∃ altered ≤ cost + 1, Aligned altered source part := by
  have bound : source.length ≤ cost + 1 := aligned.length_le.1
  match part, short with
  | [], _ => exact ⟨source.length, bound, deletions source⟩
  | [d], _ =>
      cases source with
      | nil => exact ⟨1, Nat.le_add_left 1 cost, insertions [d]⟩
      | cons e es => exact ⟨es.length + 1, bound, .replace e d (deletions es)⟩

theorem change_within {c : Char} (aligned : Aligned cost source (before ++ c :: after))
    {part : List Char} (short : part.length ≤ 1) :
    ∃ altered ≤ cost + 1, Aligned altered source (before ++ (part ++ after)) := by
  obtain ⟨left, right, first, last, rfl, rfl, start, behind⟩ := aligned.split
  have parted : Aligned last right ([c] ++ after) := behind
  obtain ⟨here, later, middle, rest, rfl, rfl, one, finish⟩ := parted.split
  obtain ⟨altered, bound, changed⟩ := one.change short
  exact ⟨first + (altered + rest), by omega, start.append (changed.append finish)⟩

theorem edit (aligned : Aligned cost source target) {edited : List Char}
    (step : Edit target edited) : ∃ altered ≤ cost + 1, Aligned altered source edited := by
  cases step with
  | insert before after c =>
      obtain ⟨left, right, first, last, rfl, rfl, start, finish⟩ := aligned.split
      exact ⟨first + (last + 1), by omega, start.append (.insert c finish)⟩
  | delete before after c =>
      have short : ([] : List Char).length ≤ 1 := Nat.zero_le 1
      exact aligned.change_within short
  | replace before after c d =>
      have short : [d].length ≤ 1 := Nat.le_refl 1
      exact aligned.change_within short

end Aligned

theorem Edits.aligned {count : Nat} {source target : List Char}
    (edits : Edits count source target) : ∃ cost ≤ count, Aligned cost source target := by
  induction edits with
  | none text => exact ⟨0, Nat.le_refl 0, .refl text⟩
  | more _ last ih =>
      obtain ⟨cost, bound, aligned⟩ := ih
      obtain ⟨altered, grown, edited⟩ := aligned.edit last
      exact ⟨altered, Nat.le_trans grown (Nat.succ_le_succ bound), edited⟩

/-- No alignment of the texts costs less, and one costs as much. -/
def LeastCost (source target : List Char) (cost : Nat) : Prop :=
  IsLeast {cost | Aligned cost source target} cost

namespace LeastCost

variable {source target : List Char} {cost : Nat}

theorem edits (least : LeastCost source target cost) :
    IsLeast {count | Edits count source target} cost := by
  refine ⟨least.1.edits, fun count edits => ?_⟩
  obtain ⟨other, bound, aligned⟩ := Edits.aligned edits
  exact Nat.le_trans (least.2 aligned) bound

theorem reverse (least : LeastCost source target cost) :
    LeastCost source.reverse target.reverse cost := by
  refine ⟨least.1.reverse, fun other aligned => least.2 ?_⟩
  simpa using Aligned.reverse aligned

theorem to_nil (source : List Char) : LeastCost source [] source.length :=
  ⟨.deletions source, fun _ aligned => aligned.length_le.1⟩

theorem from_nil (target : List Char) : LeastCost [] target target.length :=
  ⟨.insertions target, fun _ aligned => aligned.length_le.2⟩

/-- An alignment begins with one of four steps, and its rest is an alignment again. -/
theorem step {c d : Char} {left above diagonal : Nat} (put : LeastCost (c :: source) target left)
    (taken : LeastCost source (d :: target) above) (both : LeastCost source target diagonal) :
    LeastCost (c :: source) (d :: target)
      (min (min (left + 1) (above + 1)) (if c = d then diagonal else diagonal + 1)) := by
  have met : Aligned (if c = d then diagonal else diagonal + 1) (c :: source) (d :: target) := by
    split
    · rename_i same
      exact same ▸ .keep c both.1
    · exact .replace c d both.1
  constructor
  · generalize (if c = d then diagonal else diagonal + 1) = replaced at met ⊢
    have choice : min (min (left + 1) (above + 1)) replaced = left + 1 ∨
        min (min (left + 1) (above + 1)) replaced = above + 1 ∨
        min (min (left + 1) (above + 1)) replaced = replaced := by omega
    rcases choice with same | same | same <;> rw [same]
    · exact .insert d put.1
    · exact .delete c taken.1
    · exact met
  · intro cost aligned
    cases aligned with
    | keep _ rest =>
        have bound := both.2 rest
        simp only [if_true]
        omega
    | replace _ _ rest =>
        have bound := both.2 rest
        split <;> omega
    | delete _ rest =>
        have bound := taken.2 rest
        omega
    | insert _ rest =>
        have bound := put.2 rest
        omega

end LeastCost

/-- The entries of a row behind the one of a target that has been read so far. The texts that have
been read are reversed. -/
inductive CostRow (source : List Char) : List Char → List Char → List Nat → Prop
  | nil (read : List Char) : CostRow source read [] []
  | cons {read : List Char} {d : Char} {targets : List Char} {cost : Nat} {costs : List Nat}
      (least : LeastCost source (d :: read) cost)
      (rest : CostRow source (d :: read) targets costs) :
      CostRow source read (d :: targets) (cost :: costs)

namespace CostRow

variable {source read targets : List Char} {costs : List Nat}

theorem extendRow {c : Char} {left diagonal : Nat} (row : CostRow source read targets costs)
    (before : LeastCost (c :: source) read left) (corner : LeastCost source read diagonal) :
    CostRow (c :: source) read targets (extendRow c left diagonal targets costs) := by
  induction row generalizing left diagonal with
  | nil read => exact .nil read
  | cons above _ ih =>
      have entry := before.step above corner
      exact .cons entry (ih entry above)

theorem first (read targets : List Char) :
    CostRow [] read targets (List.range' (read.length + 1) targets.length) := by
  induction targets generalizing read with
  | nil => exact .nil read
  | cons d ds ih => exact .cons (LeastCost.from_nil (d :: read)) (ih (d :: read))

theorem last (row : CostRow source read targets costs) {cost : Nat}
    (least : LeastCost source read cost) :
    LeastCost source (targets.reverse ++ read)
      ((cost :: costs).getLast (List.cons_ne_nil _ _)) := by
  induction row generalizing cost with
  | nil read => exact least
  | cons entry _ ih =>
      simpa using ih entry

end CostRow

def FullCostRow (source target : List Char) (row : List Nat) : Prop :=
  ∃ costs, row = source.length :: costs ∧ CostRow source [] target costs

theorem FullCostRow.nextRow {source target : List Char} {row : List Nat}
    (full : FullCostRow source target row) (c : Char) :
    FullCostRow (c :: source) target (nextRow target row c) := by
  obtain ⟨costs, rfl, rest⟩ := full
  refine ⟨_, rfl, rest.extendRow (.to_nil (c :: source)) (.to_nil source)⟩

theorem FullCostRow.foldl {source target : List Char} {row : List Nat}
    (full : FullCostRow source target row) (text : List Char) :
    FullCostRow (text.reverse ++ source) target (text.foldl (Phrasebook.nextRow target) row) := by
  induction text generalizing source row with
  | nil => exact full
  | cons c cs ih => simpa using ih (full.nextRow c)

theorem fullCostRow_first (target : List Char) :
    FullCostRow [] target (List.range (target.length + 1)) := by
  rw [List.range_eq_range']
  exact ⟨_, rfl, .first [] target⟩

/-- The distance of two texts is the least number of edits from one to the other. -/
theorem editDistance_least (source target : List Char) :
    IsLeast {count | Edits count source target} (editDistance source target) := by
  obtain ⟨costs, row, rest⟩ := (fullCostRow_first target).foldl source
  have least := (rest.last (.to_nil _)).reverse.edits
  rw [editDistance, row, List.getLast?_eq_some_getLast (List.cons_ne_nil _ _), Option.getD_some]
  simpa using least

end Phrasebook
