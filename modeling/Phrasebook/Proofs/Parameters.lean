import Mathlib.Algebra.Group.Nat.Defs
import Phrasebook.Proofs.Calculations
import Phrasebook.Proofs.Nesting
import Phrasebook.Proofs.References

/-!
Integers as parameters. Those of 32 bits and those with a sign are stored and shown as they are, and
so are their sums. A word of 64 bits has no sign: it is stored with the same bits, so the upper half
of the words is shown as negative integers.
-/

namespace Phrasebook

/-- An integer as a caller gives it. -/
inductive GivenInteger where
  | int32 (number : Int32)
  | int64 (number : Int64)
  | uint32 (number : UInt32)
  | word (number : UInt64)

namespace GivenInteger

def toInt : GivenInteger → Int
  | int32 number => number.toInt
  | int64 number => number.toInt
  | uint32 number => number.toNat
  | word number => number.toNat

/-- The same bits with a sign. -/
def stored : GivenInteger → Int64
  | int32 number => number.toInt64
  | int64 number => number
  | uint32 number => number.toUInt64.toInt64
  | word number => number.toInt64

def value (given : GivenInteger) : Value := .integer given.stored

theorem toInt_toInt64 (number : UInt64) :
    number.toInt64.toInt = (number.toNat : Int).bmod (2 ^ 64) := by
  rw [Int64.toInt, UInt64.toBitVec_toInt64, BitVec.toInt_eq_toNat_bmod, UInt64.toNat_toBitVec]

theorem toInt_stored (given : GivenInteger) :
    given.stored.toInt = given.toInt.bmod (2 ^ 64) := by
  cases given with
  | int32 number =>
      rw [stored, toInt, ← Int32.toInt_toInt64]
      exact number.toInt64.toInt_bmod_size.symm
  | int64 number => exact number.toInt_bmod_size.symm
  | uint32 number =>
      rw [stored, toInt_toInt64, UInt32.toNat_toUInt64]
      rfl
  | word number => exact toInt_toInt64 number

/-- Of what does not have 64 bits the lowest 64 are kept. -/
theorem value_eq (given : GivenInteger) : given.value = Value.ofIntWrapping given.toInt := by
  have same : given.stored = Int64.ofInt given.toInt :=
    Int64.toInt_inj.mp ((toInt_stored given).trans Int64.toInt_ofInt.symm)
  rw [value, same, Value.ofIntWrapping]

theorem stored_of_has64Bits {given : GivenInteger} (fits : Has64Bits given.toInt) :
    given.stored.toInt = given.toInt := by
  rw [has64Bits_iff] at fits
  rw [toInt_stored]
  exact Int.bmod_eq_of_le (by omega) (by omega)

theorem word_of_exceeds {given : GivenInteger} (exceeds : ¬ Has64Bits given.toInt) :
    ∃ number, given = .word number ∧ given.stored.toInt = given.toInt - 2 ^ 64 := by
  rw [has64Bits_iff] at exceeds
  cases given with
  | int32 number =>
      have least := number.le_toInt
      have greatest := number.toInt_lt
      exact absurd exceeds (by simp only [toInt]; omega)
  | int64 number => exact absurd exceeds (not_not_intro ⟨number.le_toInt, number.toInt_lt⟩)
  | uint32 number =>
      have greatest := number.toNat_lt
      exact absurd exceeds (by simp only [toInt]; omega)
  | word number =>
      have greatest := number.toNat_lt
      refine ⟨number, rfl, ?_⟩
      rw [toInt_stored, Int.bmod_def]
      simp only [toInt] at exceeds ⊢
      omega

end GivenInteger

open Braces Formula

theorem Template.read_slot {formula : String} (balanced : Balanced formula.toList)
    (free : ColonFree formula.toList) :
    Template.read ("\x7b" ++ formula ++ "\x7d") =
      ⟨"\x7b" ++ formula ++ "\x7d", .leaf 0 (.slot formula none) .nil, []⟩ := by
  have written : ("\x7b" ++ formula ++ "\x7d").toList =
      (Scanned.slot formula.toList none).written ++ [] := by
    simp [Scanned.written]
  have unformatted : ∀ spec ∈ (none : Option (List Char)), Balanced spec := by simp
  rw [read, Reading.within_eq, written,
    Markup.scan_slot maxColorNesting balanced free unformatted, scan_nil]
  simp [Reading.assemble, Reading.empty]

/-- Nothing in the text begins a format, and nothing is enclosed in it. -/
def Formula.Flat (formula : String) : Prop :=
  ∀ c ∈ formula.toList, c ∉ ['{', '}', '(', ')', ':']

instance : DecidablePred Formula.Flat := fun formula =>
  List.decidableBAll (fun c => c ∉ ['{', '}', '(', ')', ':']) formula.toList

namespace Formula.Flat

variable {formula : String} (flat : Flat formula)

include flat

theorem balanced : Balanced formula.toList :=
  balanced_of_braceless fun c member => by
    have outside := flat c member
    constructor <;> rintro rfl <;> exact outside (by decide)

theorem colonFree : ColonFree formula.toList :=
  colonFree_of_not_mem fun member => flat ':' member (by decide)

theorem passes : Passes formula := by
  have plain : Unparenthesized formula.toList := fun c member => by
    have outside := flat c member
    constructor <;> rintro rfl <;> exact outside (by decide)
  rw [Passes, ← List.append_nil formula.toList, nestsDeeper_unparenthesized _ _ _ plain]
  rfl

end Formula.Flat

theorem Renderer.render_slot (renderer : Renderer) (context : Context) {formula : String}
    {parsed : Formula} {value : Value} (flat : Flat formula)
    (derived : Derives formula.toList parsed)
    (evaluated : parsed.evaluate renderer.subtraction (resolve context (renderer.deeper context)) =
      pure (.ok value)) :
    (renderer.render context ("\x7b" ++ formula ++ "\x7d")).value = value.display ∧
      (renderer.render context ("\x7b" ++ formula ++ "\x7d")).diagnostics = [] := by
  obtain ⟨text, diagnostics⟩ := renderer.render_parts context ("\x7b" ++ formula ++ "\x7d")
  rw [Template.read_slot flat.balanced flat.colonFree] at text diagnostics
  have parse := (Formula.parse_eq_ok_iff flat.passes parsed).mpr derived
  have found : renderer.slotValue context (renderer.deeper context) formula =
      pure (.ok value) := by
    rw [renderer.slotValue_eq_thorough flat.passes, Thorough.slotValue, parse]
    exact evaluated
  have shown : (Except.ok value : Except FormulaFault Value).bind (renderer.formatted none) =
      .ok value.display := by
    cases value <;> rfl
  rw [text, diagnostics]
  simp [renderPhrase, renderLeaf, renderSlot, found, shown]

/-- A name that a slot can hold: a colon would begin a format. -/
def IsSlotName (name : String) : Prop := IsName name.toList ∧ ':' ∉ name.toList

namespace IsSlotName

variable {x y : String}

theorem flat (named : IsSlotName x) : Flat x := by
  intro c member structural
  have inside := named.1.isNameChar c member
  simp only [List.mem_cons, List.not_mem_nil, or_false] at structural
  rcases structural with rfl | rfl | rfl | rfl | rfl
  · cases inside
  · cases inside
  · cases inside
  · cases inside
  · exact named.2 member

theorem flat_sum (first : IsSlotName x) (second : IsSlotName y) : Flat (x ++ " + " ++ y) := by
  have between : Flat " + " := by decide
  intro c member
  rw [String.toList_append, String.toList_append, List.mem_append, List.mem_append] at member
  obtain (inFirst | inBetween) | inSecond := member
  · exact first.flat c inFirst
  · exact between c inBetween
  · exact second.flat c inSecond

theorem fits (named : IsSlotName x) : Fits [] (.var x.toList none) := .var named.1 nofun

theorem means (name : String) : (Spelling.var name.toList none).Means (.var ⟨name, []⟩) := by
  have bare : (Spelling.var name.toList none).Means (.var ⟨String.ofList name.toList, []⟩) := .bare
  rwa [String.ofList_toList] at bare

theorem derives (named : IsSlotName x) : Derives x.toList (.var ⟨x, []⟩) := by
  have fits : Fits grammar (.var x.toList none) := .operand (.operand (.operand named.fits))
  refine ⟨_, ⟨fits, [], [], nofun, nofun, ?_⟩, means x⟩
  simp [Spelling.written]

theorem derives_sum (first : IsSlotName x) (second : IsSlotName y) :
    Derives (x ++ " + " ++ y).toList (.binary .add (.var ⟨x, []⟩) (.var ⟨y, []⟩)) := by
  have blank : Blanks [' '] := List.forall_mem_singleton.mpr (by decide)
  have sum : Fits grammar (.chain (.var x.toList none) [' '] .add [' '] (.var y.toList none)) :=
    .chain (.operand (.operand (.operand first.fits))) blank (by decide) blank
      (.operand (.operand second.fits))
  refine ⟨_, ⟨sum, [], [], nofun, nofun, ?_⟩, .chain (means x) (means y)⟩
  simp [Spelling.written, BinaryOp.symbol]

end IsSlotName

theorem Renderer.resolve_given {context : Context} {deeper : Deeper} {name : String}
    {given : GivenInteger} (found : context.params.get? name = some given.value) :
    resolve context deeper ⟨name, []⟩ = pure (.ok given.value) := by
  simp [resolve, Context.lookup, found, GivenInteger.value]

namespace GivenInteger

variable (book : Book) (context : Context) {x y : String} {first second : GivenInteger}

theorem render_given (named : IsSlotName x) (found : context.params.get? x = some first.value) :
    (book.render context ("\x7b" ++ x ++ "\x7d")).1 = ⟨toString first.stored.toInt, []⟩ := by
  have evaluated : (Formula.var ⟨x, []⟩).evaluate book.renderer.subtraction
      (Renderer.resolve context (book.renderer.deeper context)) = pure (.ok first.value) :=
    Renderer.resolve_given found
  obtain ⟨text, diagnostics⟩ :=
    book.renderer.render_slot context named.flat named.derives evaluated
  simp only [Book.render, Book.renderNoted, Book.settle, text, diagnostics, value, Value.display]

theorem apply_add (mode : SubtractionMode)
    (fits : Has64Bits (first.stored.toInt + second.stored.toInt)) :
    ∃ sum : Int64, BinaryOp.add.apply mode first.value second.value = .ok (.integer sum) ∧
      sum.toInt = first.stored.toInt + second.stored.toInt := by
  obtain ⟨sum, held, same⟩ := Value.ofInt?_of_has64Bits fits
  refine ⟨sum, ?_, same⟩
  rw [BinaryOp.apply, value, value, if_pos (by rfl), Value.arithmetic, held, Option.getD_some]

theorem render_sum (namedX : IsSlotName x) (namedY : IsSlotName y)
    (foundX : context.params.get? x = some first.value)
    (foundY : context.params.get? y = some second.value)
    (fits : Has64Bits (first.stored.toInt + second.stored.toInt)) :
    (book.render context ("\x7b" ++ (x ++ " + " ++ y) ++ "\x7d")).1 =
      ⟨toString (first.stored.toInt + second.stored.toInt), []⟩ := by
  obtain ⟨sum, applied, same⟩ := apply_add book.renderer.subtraction fits
  have evaluated : (Formula.binary .add (.var ⟨x, []⟩) (.var ⟨y, []⟩)).evaluate
      book.renderer.subtraction (Renderer.resolve context (book.renderer.deeper context)) =
        pure (.ok (.integer sum)) := by
    simp only [Formula.evaluate, Renderer.resolve_given foundX, Renderer.resolve_given foundY,
      pure_bind, applied]
  obtain ⟨text, diagnostics⟩ := book.renderer.render_slot context (namedX.flat_sum namedY)
    (namedX.derives_sum namedY) evaluated
  simp only [Book.render, Book.renderNoted, Book.settle, text, diagnostics, Value.display, same]

end GivenInteger

namespace Book

/-- An integer of a caller is shown with its own digits if a sign and 63 bits suffice for it, and so
are sums of such integers. A larger word is shown as the negative integer with the same bits. -/
theorem render_integers (book : Book) (context : Context) {x y : String}
    {first second : GivenInteger} (namedX : IsSlotName x) (namedY : IsSlotName y)
    (foundX : context.params.get? x = some first.value)
    (foundY : context.params.get? y = some second.value) :
    (Has64Bits first.toInt →
      (book.render context ("\x7b" ++ x ++ "\x7d")).1 = ⟨toString first.toInt, []⟩) ∧
    (¬ Has64Bits first.toInt → (∃ number, first = .word number) ∧
      (book.render context ("\x7b" ++ x ++ "\x7d")).1 = ⟨toString (first.toInt - 2 ^ 64), []⟩) ∧
    (Has64Bits first.toInt → Has64Bits second.toInt → Has64Bits (first.toInt + second.toInt) →
      (book.render context ("\x7b" ++ (x ++ " + " ++ y) ++ "\x7d")).1 =
        ⟨toString (first.toInt + second.toInt), []⟩) := by
  have shown := GivenInteger.render_given book context namedX foundX
  refine ⟨fun fits => ?_, fun exceeds => ?_, fun fitsX fitsY fits => ?_⟩
  · rw [shown, GivenInteger.stored_of_has64Bits fits]
  · obtain ⟨number, same, wrapped⟩ := GivenInteger.word_of_exceeds exceeds
    exact ⟨⟨number, same⟩, by rw [shown, wrapped]⟩
  · have sameX := GivenInteger.stored_of_has64Bits fitsX
    have sameY := GivenInteger.stored_of_has64Bits fitsY
    rw [← sameX, ← sameY] at fits ⊢
    exact GivenInteger.render_sum book context namedX namedY foundX foundY fits

theorem render_integers_limits :
    let first : GivenInteger := .uint32 4294967295
    let second : GivenInteger := .int64 Int64.minValue
    let third : GivenInteger := .word 18446744073709551615
    let context : Context :=
      .new (.ofList [("x", first.value), ("y", second.value), ("z", third.value)])
    (IsSlotName "x" ∧ IsSlotName "y" ∧ IsSlotName "z" ∧
        context.params.get? "x" = some first.value ∧
        context.params.get? "y" = some second.value ∧
        context.params.get? "z" = some third.value) ∧
      (empty.render context "\x7bx\x7d").1 = ⟨"4294967295", []⟩ ∧
      (empty.render context "\x7bx + y\x7d").1 = ⟨"-9223372032559808513", []⟩ ∧
      (empty.render context "\x7bz\x7d").1 = ⟨"-1", []⟩ := by
  intro first second third context
  have namedX : IsSlotName "x" := ⟨.intro (by decide) nofun, by decide⟩
  have namedY : IsSlotName "y" := ⟨.intro (by decide) nofun, by decide⟩
  have namedZ : IsSlotName "z" := ⟨.intro (by decide) nofun, by decide⟩
  have foundX : context.params.get? "x" = some first.value := by decide
  have foundY : context.params.get? "y" = some second.value := by decide
  have foundZ : context.params.get? "z" = some third.value := by decide
  have fitsX : Has64Bits first.toInt := by decide
  have fitsY : Has64Bits second.toInt := by decide
  have fits : Has64Bits (first.toInt + second.toInt) := by decide
  have exceeds : ¬ Has64Bits third.toInt := by decide
  obtain ⟨shown, -, added⟩ := render_integers empty context namedX namedY foundX foundY
  obtain ⟨-, wrapped, -⟩ := render_integers empty context namedZ namedX foundZ foundX
  exact ⟨⟨namedX, namedY, namedZ, foundX, foundY, foundZ⟩, shown fitsX, added fitsX fitsY fits,
    (wrapped exceeds).2⟩

theorem render_word_negative :
    let given : GivenInteger := .word 9223372036854775808
    let context : Context := .new (.ofList [("x", given.value)])
    toString given.toInt = "9223372036854775808" ∧
      (empty.render context "\x7bx\x7d").1.text = "-9223372036854775808" := by
  decide +kernel

end Book

end Phrasebook
