import Phrasebook.Phrase.Reading
import Phrasebook.Proofs.Braces
import Phrasebook.Proofs.Marks

/-!
What one step of a scan can take from the front of a text, with the condition under which it does.
-/

namespace Phrasebook.Scan

open Braces

/-- The piece that a step takes, and the text behind it. -/
inductive Takes (budget : Nat) : List Char → Scanned → List Char → Prop
  | plain {c : Char} {rest : List Char} (lone : c = '\\' → rest = [])
      (unpaired : c = '$' → '$' ∉ rest) (brace : c ≠ '{')
      (uncoded : c = colorMark → ColorCode.read? rest = none) :
      Takes budget (c :: rest) (.plain c) rest
  | escaped (c : Char) (rest : List Char) : Takes budget ('\\' :: c :: rest) (.escaped c) rest
  | strayBrace {rest : List Char} (unclosed : splitBrace? 0 rest = none) :
      Takes budget ('{' :: rest) (.stray '{' .unbalancedBraces) rest
  | strayMark {code : ColorCode} {body rest : List Char} {kind : IssueKind}
      (coded : ColorCode.read? rest = some (code, body))
      (failed : closeColor budget body = .tooDeep ∧ kind = .colorTooDeep ∨
        closeColor budget body = .missing ∧ kind = .unclosedColor) :
      Takes budget (colorMark :: rest) (.stray colorMark kind) rest
  | reference {tooltip : Bool} {key rest : List Char} (closed : '$' ∉ key)
      (named : tooltip = false → key.head? ≠ some '@') :
      Takes budget ((Scanned.reference tooltip key).written ++ rest) (.reference tooltip key) rest
  | slot {formula : List Char} {format : Option (List Char)} {rest : List Char}
      (balanced : Balanced formula) (free : ColonFree formula)
      (formatted : ∀ spec ∈ format, Balanced spec) :
      Takes budget ((Scanned.slot formula format).written ++ rest) (.slot formula format) rest
  | colored {code : ColorCode} {inner rest : List Char} (proper : code.Proper)
      (closed : closeColor budget (inner ++ colorMark :: rest) = .matched inner rest ∨
        closeColor budget (inner ++ colorMark :: rest) = .firstMark inner rest) :
      Takes budget ((Scanned.colored code inner).written ++ rest) (.colored code inner) rest

theorem reference?_eq_none_iff (text : List Char) : reference? text = none ↔ '$' ∉ text := by
  unfold reference?
  split <;> simp [Text.splitFirst?_eq_none_iff]

theorem reference?_named {text key rest : List Char} {tooltip : Bool}
    (found : reference? text = some (tooltip, key, rest)) :
    '$' ∉ key ∧ (tooltip = false → key.head? ≠ some '@') := by
  unfold reference? at found
  split at found
  · obtain ⟨parts, split, same⟩ := Option.map_eq_some_iff.mp found
    simp only [Prod.mk.injEq] at same
    obtain ⟨rfl, rfl, rfl⟩ := same
    exact ⟨(Text.splitFirst?_eq_some split).2, nofun⟩
  · rename_i unlike
    obtain ⟨parts, split, same⟩ := Option.map_eq_some_iff.mp found
    simp only [Prod.mk.injEq] at same
    obtain ⟨rfl, rfl, rfl⟩ := same
    obtain ⟨whole, closed⟩ := Text.splitFirst?_eq_some split
    refine ⟨closed, fun _ first => ?_⟩
    obtain ⟨tail, first⟩ := List.head?_eq_some_iff.mp first
    exact unlike _ (by rw [whole, first]; rfl)

theorem spends_of_closed {budget : Nat} {body inner rest : List Char}
    (closed : closeColor budget body = .matched inner rest ∨
      closeColor budget body = .firstMark inner rest) : 0 < budget := by
  cases budget with
  | zero => simp [closeColor] at closed
  | succ outer => exact Nat.succ_pos outer

theorem takes_colored {budget : Nat} {code : ColorCode} {text body inner rest : List Char}
    (coded : ColorCode.read? text = some (code, body))
    (closed : closeColor budget body = .matched inner rest ∨
      closeColor budget body = .firstMark inner rest) :
    Takes budget (colorMark :: text) (.colored code inner) rest := by
  have split := closeColor_written closed
  rw [split] at closed
  have whole : (Scanned.colored code inner).written ++ rest = colorMark :: text := by
    simp [Scanned.written, ColorCode.read?_written coded, split]
  rw [← whole]
  exact .colored (ColorCode.proper_of_read? coded) closed

theorem takes_afterMark (budget : Nat) (text : List Char) :
    Takes budget (colorMark :: text) (afterMark budget text).1 (afterMark budget text).2 := by
  unfold afterMark
  split
  · rename_i uncoded
    exact .plain nofun nofun (by decide) fun _ => uncoded
  · rename_i code body coded
    split
    · rename_i inner rest found
      exact takes_colored coded (.inl found)
    · rename_i inner rest found
      exact takes_colored coded (.inr found)
    · rename_i deep
      exact .strayMark coded (.inl ⟨deep, rfl⟩)
    · rename_i missing
      exact .strayMark coded (.inr ⟨missing, rfl⟩)

theorem takes_reference (budget : Nat) {tooltip : Bool} {text key rest : List Char}
    (found : reference? text = some (tooltip, key, rest)) :
    Takes budget ('$' :: text) (.reference tooltip key) rest := by
  obtain ⟨closed, named⟩ := reference?_named found
  rw [reference?_written found]
  exact .reference closed named

theorem takes_slot (budget : Nat) {text content rest : List Char}
    (found : splitBrace? 0 text = some (content, rest)) :
    Takes budget ('{' :: text) (slot content) rest := by
  obtain ⟨split, balanced⟩ := (splitBrace?_eq_some_iff 0 text content rest).mp found
  obtain ⟨formula, format, same, left, free, formatted⟩ := slot_balanced balanced
  have whole : '{' :: text = (slot content).written ++ rest := by
    rw [slot_written, split]
    simp
  rw [whole, same]
  exact .slot left free formatted

theorem takes_step (budget : Nat) (c : Char) (text : List Char) :
    Takes budget (c :: text) (step budget c text).1 (step budget c text).2 := by
  unfold step
  split
  · rename_i backslash
    subst backslash
    split
    · exact .escaped _ _
    · exact .plain (fun _ => rfl) nofun (by decide) nofun
  · rename_i ordinary
    split
    · rename_i dollar
      subst dollar
      split
      · rename_i found
        exact takes_reference budget found
      · rename_i missing
        exact .plain nofun (fun _ => (reference?_eq_none_iff text).mp missing) (by decide) nofun
    · rename_i undollar
      split
      · rename_i brace
        subst brace
        split
        · rename_i found
          exact takes_slot budget found
        · rename_i unclosed
          exact .strayBrace unclosed
      · rename_i unbraced
        split
        · rename_i mark
          subst mark
          exact takes_afterMark budget text
        · rename_i unmarked
          exact .plain (absurd · ordinary) (absurd · undollar) unbraced (absurd · unmarked)

theorem Takes.written {budget : Nat} {text rest : List Char} {piece : Scanned}
    (takes : Takes budget text piece rest) : text = piece.written ++ rest := by
  cases takes <;> rfl

/-- Induction along the pieces of a level. -/
theorem induction {budget : Nat} {motive : List Char → Prop} (nil : motive [])
    (step : ∀ text piece rest, Takes budget text piece rest →
      scan budget text = piece :: scan budget rest → motive rest → motive text)
    (text : List Char) : motive text := by
  fun_induction scan budget text with
  | case1 => exact nil
  | case2 c cs found ih => exact step _ _ _ (takes_step budget c cs) (scan_cons budget c cs) ih

end Phrasebook.Scan
