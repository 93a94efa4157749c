import Phrasebook.Proofs.Composition
import Phrasebook.Proofs.Shortcuts

/-!
References and translations. A template that refers to a key and says nothing else shows what the
translation of that key one level deeper shows, decorated; the text of the key may mean nothing, be
malformed or refer to itself. A key that is not there is shown as it is by both.
-/

namespace Phrasebook

def Key.referred (key : Key) (tooltip : Bool) : String :=
  (if tooltip then "$@" else "$") ++ key.text ++ "$"

theorem Key.Valid.isKeyChar {key : Key} (valid : key.Valid) {c : Char}
    (member : c ∈ key.text.toList) : isKeyChar c = true :=
  isKeyChar_of_parse valid.parse_text member

theorem Template.read_referred {key : Key} (valid : key.Valid) (tooltip : Bool) :
    Template.read (key.referred tooltip) =
      ⟨key.referred tooltip, .leaf 0 (.reference tooltip key.text) .nil, []⟩ := by
  have closed : '$' ∉ key.text.toList := fun member => absurd (valid.isKeyChar member) (by decide)
  -- Behind a bare sign an at sign would be read as the sign of a tooltip.
  have named : tooltip = false → key.text.toList.head? ≠ some '@' := fun _ first =>
    absurd (valid.isKeyChar (List.mem_of_mem_head? first)) (by decide)
  have written : (key.referred tooltip).toList =
      (Scanned.reference tooltip key.text.toList).written ++ [] := by
    cases tooltip <;> simp [Key.referred, Scanned.written]
  rw [read, Reading.within_eq, written, Markup.scan_reference _ closed named, scan_nil]
  simp [Reading.assemble, Reading.empty]

namespace Renderer

variable (renderer : Renderer) (context : Context)

theorem emit_agrees_render {text : String} (plain : ¬ hasSpecial text) :
    (Noted.emit text).Agrees (renderer.render context text) := by
  unfold render readAndRender
  by_cases empty : text = ""
  · rw [empty, Template.read_empty]
    exact ⟨rfl, rfl⟩
  · rw [Template.read_plain plain empty]
    exact ⟨String.append_empty.symm, rfl⟩

theorem expand_agrees_render (text : String) :
    (renderer.expand context text).Agrees (renderer.render context text) := by
  unfold expand expandWith
  split
  · exact .refl _
  · rename_i plain
    exact emit_agrees_render renderer context plain

section Referred

variable {key : Key} (valid : key.Valid) (tooltip : Bool)

include valid

theorem render_referred :
    (renderer.render context (key.referred tooltip)).Agrees
      (renderer.renderReference context (renderer.deeper context)
        ⟨0, (key.referred tooltip).utf8ByteSize⟩ tooltip key.text) := by
  obtain ⟨value, diagnostics⟩ := renderer.render_parts context (key.referred tooltip)
  have raw : (Leaf.reference tooltip key.text).raw = key.referred tooltip := rfl
  rw [Template.read_referred valid] at value diagnostics
  refine ⟨value.trans ?_, diagnostics.trans ?_⟩
  · simp [renderPhrase, renderLeaf, raw]
  · simp [renderPhrase, renderLeaf, raw]

theorem render_stored {text : String} (stored : renderer.lexicon.text? key = some text)
    (left : 0 < context.budget) :
    (renderer.render context (key.referred tooltip)).value =
        renderer.decoration.apply key.text tooltip
          (renderer.render context.descend text).value ∧
      (renderer.render context (key.referred tooltip)).diagnostics =
        (renderer.render context.descend text).diagnostics := by
  have referred := renderer.render_referred context valid tooltip
  have expanded := renderer.expand_agrees_render context.descend text
  rw [← expanded.value, ← expanded.diagnostics, referred.value, referred.diagnostics]
  simp [renderReference, valid.parse_text, stored, deeper_of_budget renderer left,
    Decoration.emit, Noted.renting]

theorem render_missing (missing : renderer.lexicon.text? key = none) :
    (renderer.render context (key.referred tooltip)).value = key.text ∧
      (renderer.render context (key.referred tooltip)).diagnostics =
        [.new .keyNotFound key.text (renderer.lexicon.missingMessage key) none
          (some ⟨0, (key.referred tooltip).utf8ByteSize⟩) context.depth] := by
  have referred := renderer.render_referred context valid tooltip
  rw [referred.value, referred.diagnostics]
  simp [renderReference, valid.parse_text, missing, Noted.report]

end Referred

end Renderer

namespace Book

/-- Referring to a key shows what translating it one level deeper shows: the same diagnostics, and
the text decorated. A key that is not there is shown undecorated by both, and one warning tells it:
they differ in the place of the key and in the depth. -/
theorem reference_as_translation (book : Book) (context : Context) (key : Key)
    (valid : key.Valid) (tooltip : Bool) :
    (∀ text, book.lexicon.text? key = some text → context.depth < context.maxDepth →
        (book.render context (key.referred tooltip)).1 =
          ⟨book.decoration.apply key.text tooltip (book.renderKey context.descend key).1.text,
            (book.renderKey context.descend key).1.diagnostics⟩) ∧
      (book.lexicon.text? key = none →
        (book.render context (key.referred tooltip)).1 =
            ⟨key.text, [⟨.warning, .keyNotFound, key.text, book.lexicon.missingMessage key, none,
              some ⟨0, (key.referred tooltip).utf8ByteSize⟩, context.depth⟩]⟩ ∧
          (book.renderKey context key).1 =
            ⟨key.text, [⟨.warning, .keyNotFound, key.text, book.lexicon.missingMessage key, none,
              none, 0⟩]⟩) := by
  refine ⟨fun text stored left => ?_, fun missing => ⟨?_, ?_⟩⟩
  · have translation : (book.renderKey context.descend key).1 =
        (book.render context.descend text).1 := by
      rw [renderKey, renderKeyNoted, stored]
      rfl
    obtain ⟨value, diagnostics⟩ :=
      book.renderer.render_stored context valid tooltip stored (Nat.sub_pos_of_lt left)
    simp only [translation, render, renderNoted, settle, value, diagnostics]
    rfl
  · obtain ⟨value, diagnostics⟩ := book.renderer.render_missing context valid tooltip missing
    simp only [render, renderNoted, settle, value, diagnostics]
    rfl
  · rw [renderKey, renderKeyNoted, missing]
    rfl

/-- A book whose only text is malformed and refers to itself. -/
def echoing : Book :=
  .ofLexicon (Lexicon.empty.insert ⟨["Echo"]⟩ "again $Echo$ \x7bx").2

theorem reference_as_translation_echoing :
    let context : Context := ⟨0, 2, .empty, .silent⟩
    let echo : Key := ⟨["Echo"]⟩
    let ech : Key := ⟨["Ech"]⟩
    (echo.Valid ∧ echoing.lexicon.text? echo = some "again $Echo$ \x7bx" ∧
        context.depth < context.maxDepth) ∧
      (echoing.render context (echo.referred true)).1 =
        ⟨echoing.decoration.apply echo.text true (echoing.renderKey context.descend echo).1.text,
          (echoing.renderKey context.descend echo).1.diagnostics⟩ ∧
      (echoing.render context "$@Echo$").1.text =
        "<link=Echo><u>again again again $Echo$ \x7bx \x7bx \x7bx</u></link>" ∧
      (ech.Valid ∧ echoing.lexicon.text? ech = none) ∧
      (echoing.renderKey context ech).1 =
        ⟨ech.text, [⟨.warning, .keyNotFound, ech.text, echoing.lexicon.missingMessage ech, none,
          none, 0⟩]⟩ ∧
      echoing.lexicon.missingMessage ech = "key 'Ech' not found; did you mean: Echo" := by
  intro context echo ech
  have valid : echo.Valid := by decide
  have stored : echoing.lexicon.text? echo = some "again $Echo$ \x7bx" := by decide +kernel
  have left : context.depth < context.maxDepth := by decide
  have other : ech.Valid := by decide
  have missing : echoing.lexicon.text? ech = none := by decide +kernel
  obtain ⟨shown, -⟩ := reference_as_translation echoing context echo valid true
  obtain ⟨-, told⟩ := reference_as_translation echoing context ech other false
  refine ⟨⟨valid, stored, left⟩, shown _ stored left, by decide +kernel, ⟨other, missing⟩, ?_,
    by decide +kernel⟩
  exact (told missing).2

end Book

end Phrasebook
