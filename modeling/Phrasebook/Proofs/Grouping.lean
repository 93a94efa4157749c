import Phrasebook.Proofs.FixedPlaces
import Phrasebook.Proofs.Precisions

/-!
Groups of thousands. Commas are put between the digits in front of the point, three by three from
the right, and nothing else is changed: without its commas the text is the one with fixed places.
-/

namespace Phrasebook

namespace Format

/-- Digits with a comma in front of each group but the first. -/
def withCommas (first : List Char) (later : List (List Char)) : List Char :=
  first ++ later.flatMap (',' :: ·)

/-- A first group of one to three digits and further groups of three. -/
structure Grouped (digits first : List Char) (later : List (List Char)) : Prop where
  whole : digits = first ++ later.flatten
  least : 1 ≤ first.length
  most : first.length ≤ 3
  triples : ∀ group ∈ later, group.length = 3

namespace Grouped

variable {digits first : List Char} {later : List (List Char)}

theorem length_flatten {groups : List (List Char)} (triples : ∀ group ∈ groups, group.length = 3) :
    groups.flatten.length = 3 * groups.length := by
  induction groups with
  | nil => rfl
  | cons group groups ih =>
      obtain ⟨here, behind⟩ := List.forall_mem_cons.mp triples
      rw [List.flatten_cons, List.length_append, here, ih behind, List.length_cons]
      omega

theorem length_mod (grouped : Grouped digits first later) :
    digits.length % 3 = first.length % 3 := by
  have behind := length_flatten grouped.triples
  rw [grouped.whole, List.length_append]
  omega

theorem single (c : Char) : Grouped [c] [c] [] where
  whole := rfl
  least := Nat.le_refl 1
  most := Nat.le_add_left 1 2
  triples := List.forall_mem_nil _

theorem begin (grouped : Grouped digits first later) (full : digits.length % 3 = 0) (c : Char) :
    Grouped (c :: digits) [c] (first :: later) where
  whole := by simp [grouped.whole]
  least := Nat.le_refl 1
  most := Nat.le_add_left 1 2
  triples := by
    have count := grouped.length_mod
    have least := grouped.least
    have most := grouped.most
    exact List.forall_mem_cons.mpr ⟨by omega, grouped.triples⟩

theorem extend (grouped : Grouped digits first later) (part : digits.length % 3 ≠ 0) (c : Char) :
    Grouped (c :: digits) (c :: first) later where
  whole := by simp [grouped.whole]
  least := Nat.le_add_left 1 _
  most := by
    have count := grouped.length_mod
    have most := grouped.most
    rw [List.length_cons]
    omega
  triples := grouped.triples

end Grouped

theorem groupDigits_grouped {digits : List Char} (nonempty : digits ≠ []) :
    ∃ first later, Grouped digits first later ∧ groupDigits digits = withCommas first later := by
  fun_induction groupDigits digits with
  | case1 => exact absurd rfl nonempty
  | case2 c => exact ⟨[c], [], .single c, rfl⟩
  | case3 c cs more full ih =>
      obtain ⟨first, later, grouped, same⟩ := ih more
      exact ⟨[c], first :: later, grouped.begin full c, by rw [same]; rfl⟩
  | case4 c cs more part ih =>
      obtain ⟨first, later, grouped, same⟩ := ih more
      exact ⟨c :: first, later, grouped.extend part c, by rw [same]; rfl⟩

theorem groupThousands_minus (text : List Char) :
    groupThousands ('-' :: text) =
      '-' :: (groupDigits (text.takeWhile (· != '.')) ++ text.dropWhile (· != '.')) := rfl

theorem groupThousands_unsigned {text : List Char} (unsigned : text.head? ≠ some '-') :
    groupThousands text =
      groupDigits (text.takeWhile (· != '.')) ++ text.dropWhile (· != '.') := by
  unfold groupThousands
  split
  rename_i sign magnitude parts
  split at parts
  · exact absurd rfl unsigned
  · obtain ⟨rfl, rfl⟩ := Prod.mk.inj parts
    rfl

theorem filter_of_plain {text : List Char} (plain : ',' ∉ text) :
    text.filter (· != ',') = text := by
  refine List.filter_eq_self.mpr fun c member => ?_
  rw [bne_iff_ne]
  rintro rfl
  exact plain member

theorem filter_magnitude {text : List Char} (plain : ',' ∉ text) :
    (groupDigits (text.takeWhile (· != '.')) ++ text.dropWhile (· != '.')).filter (· != ',') =
      text := by
  have before : ',' ∉ text.takeWhile (· != '.') :=
    fun member => plain ((List.takeWhile_sublist _).subset member)
  have after : ',' ∉ text.dropWhile (· != '.') :=
    fun member => plain ((List.dropWhile_sublist _).subset member)
  rw [List.filter_append, filter_groupDigits _ before, filter_of_plain after,
    List.takeWhile_append_dropWhile]

theorem filter_groupThousands {text : List Char} (plain : ',' ∉ text) :
    (groupThousands text).filter (· != ',') = text := by
  by_cases negative : text.head? = some '-'
  · obtain ⟨rest, rfl⟩ := List.head?_eq_some_iff.mp negative
    rw [groupThousands_minus, List.filter_cons_of_pos (by decide),
      filter_magnitude fun member => plain (List.mem_cons_of_mem '-' member)]
  · rw [groupThousands_unsigned negative, filter_magnitude plain]

theorem groupThousands_placed {point places : Nat} {whole decimals : List Char} (negative : Bool)
    (placed : Decimal.Placed point places whole decimals) :
    groupThousands (Decimal.signed negative (whole ++ Decimal.behindPoint decimals)) =
      Decimal.signed negative (groupDigits whole ++ Decimal.behindPoint decimals) := by
  have pointless : ∀ c ∈ whole, (c != '.') = true := by
    intro c member
    rw [bne_iff_ne]
    rintro rfl
    exact absurd (placed.front.2 '.' member) (by decide)
  have ends : Formula.Ends (· != '.') (Decimal.behindPoint decimals) := by
    cases decimals with
    | nil => exact Formula.Ends.nil _
    | cons c cs => exact Formula.ends_cons.mpr rfl
  have taken := Formula.takeWhile_word pointless ends
  have dropped := Formula.dropWhile_word pointless ends
  cases negative with
  | true =>
      simp only [Decimal.signed, if_true, groupThousands_minus, taken, dropped]
  | false =>
      have first := placed.front.head_ne (Decimal.behindPoint decimals) '-' (by decide)
      rw [Decimal.signed, if_neg Bool.false_ne_true, groupThousands_unsigned first, taken, dropped]
      rfl

end Format

namespace Decimal

theorem comma_not_mem_signed {body : List Char} (negative : Bool) (plain : ',' ∉ body) :
    ',' ∉ signed negative body := by
  cases negative with
  | false => exact plain
  | true => simpa [signed] using plain

theorem comma_not_mem_placed {point places : Nat} {whole decimals : List Char}
    (placed : Placed point places whole decimals) : ',' ∉ whole ++ behindPoint decimals := by
  intro member
  rcases List.mem_append.mp member with front | behind
  · exact absurd (placed.front.2 ',' front) (by decide)
  · cases decimals with
    | nil => cases behind
    | cons c cs =>
        have decimal : ',' ∈ c :: cs := (List.mem_cons.mp behind).resolve_left (by decide)
        exact absurd (placed.behind ',' decimal) (by decide)

theorem comma_not_mem_fixed (number : Float) (places : Nat) : ',' ∉ fixed number places := by
  cases binary : Binary.ofFloat number with
  | notANumber =>
      simp only [fixed, binary]
      decide
  | infinite negative =>
      simp only [fixed, binary]
      exact comma_not_mem_signed _ (by decide)
  | finite negative mantissa exponent =>
      obtain ⟨point, whole, decimals, -, placed, written⟩ := fixed_finite binary places
      rw [written]
      exact comma_not_mem_signed _ (comma_not_mem_placed placed)

end Decimal

namespace FormatRegistry

open Format

/-- A format with groups of thousands writes what the format with fixed places writes, and commas
between groups of three digits in front of the point. -/
theorem grouped_as_fixed (number : Float) {suffix : List Char} {places : Nat}
    (accepts : Accepts 2 suffix places) :
    ∃ ungrouped grouped,
      (∀ mark ∈ Style.fixed.marks, defaults.format number (String.ofList (mark ++ suffix)) =
        .ok (String.ofList ungrouped)) ∧
      (∀ mark ∈ Style.grouped.marks, defaults.format number (String.ofList (mark ++ suffix)) =
        .ok (String.ofList grouped)) ∧
      grouped.filter (· != ',') = ungrouped ∧
      (number.isFinite = true → ∃ negative point whole decimals first later,
        Decimal.Placed point places whole decimals ∧ Grouped whole first later ∧
          grouped = Decimal.signed negative
            (withCommas first later ++ Decimal.behindPoint decimals)) := by
  refine ⟨Decimal.fixed number places, groupThousands (Decimal.fixed number places),
    fun mark asked => format_accepted asked trivial accepts,
    fun mark asked => format_accepted asked trivial accepts,
    filter_groupThousands (Decimal.comma_not_mem_fixed number places), fun finite => ?_⟩
  obtain ⟨negative, mantissa, exponent, binary⟩ := Decimal.ofFloat_finite finite
  obtain ⟨point, whole, decimals, -, placed, written⟩ := Decimal.fixed_finite binary places
  obtain ⟨first, later, grouped, same⟩ := groupDigits_grouped placed.front.1
  refine ⟨negative, point, whole, decimals, first, later, placed, grouped, ?_⟩
  rw [written, groupThousands_placed negative placed, same]

theorem grouped_as_fixed_millions :
    Accepts 2 ['1'] 1 ∧ (-1234567.25 : Float).isFinite = true ∧
      ∃ ungrouped grouped, defaults.format (-1234567.25) "F1" = .ok (String.ofList ungrouped) ∧
        defaults.format (-1234567.25) "N1" = .ok (String.ofList grouped) ∧
        grouped.filter (· != ',') = ungrouped ∧ grouped = "-1,234,567.2".toList ∧
        ∃ negative point whole decimals first later,
          Decimal.Placed point 1 whole decimals ∧ Grouped whole first later ∧
            grouped = Decimal.signed negative
              (withCommas first later ++ Decimal.behindPoint decimals) := by
  have accepts : Accepts 2 ['1'] 1 := (precision?_eq_some_iff 2 ['1'] 1).mp rfl
  obtain ⟨ungrouped, grouped, fixed, commas, same, groups⟩ :=
    grouped_as_fixed (-1234567.25) accepts
  have written : defaults.format (-1234567.25) "N1" = .ok "-1,234,567.2" := rfl
  have one := commas ['N'] List.mem_cons_self
  refine ⟨accepts, rfl, ungrouped, grouped, fixed ['F'] List.mem_cons_self, one, same, ?_,
    groups rfl⟩
  have texts : String.ofList grouped = "-1,234,567.2" := Except.ok.inj (one.symm.trans written)
  rw [← texts, String.toList_ofList]

end FormatRegistry

end Phrasebook
