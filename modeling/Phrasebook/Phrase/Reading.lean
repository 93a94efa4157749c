import Phrasebook.Phrase.Scan

/-!
Reading of templates. Each level is scanned, neighbouring texts are joined, and the inside of a
colored stretch is read as a level of its own with one stretch less to spend. Issues come in the
order of the template.
-/

namespace Phrasebook

structure Reading where
  phrase : Phrase
  issues : List Issue
  deriving DecidableEq, Repr

def Reading.empty : Reading := ⟨.nil, []⟩

/-- Joins the scanned pieces of a level that starts at byte `start`. Colored stretches are read by
`readInner`, which is told where the inside starts. -/
def Reading.assemble (readInner : Nat → List Char → Reading) (start : Nat) :
    List Scanned → Reading
  | [] => .empty
  | piece :: later =>
      let rest := assemble readInner (start + Text.byteLength piece.written) later
      match piece with
      | .plain c => ⟨rest.phrase.prependText start c.toString c.toString, rest.issues⟩
      | .escaped c =>
          ⟨rest.phrase.prependText start (String.ofList ['\\', c]) c.toString, rest.issues⟩
      | .stray c kind =>
          ⟨rest.phrase.prependText start c.toString c.toString, ⟨kind, c, start⟩ :: rest.issues⟩
      | .reference tooltip key =>
          ⟨.leaf start (.reference tooltip (String.ofList key)) rest.phrase, rest.issues⟩
      | .slot formula format =>
          ⟨.leaf start (.slot (String.ofList formula) (format.map String.ofList)) rest.phrase,
            rest.issues⟩
      | .colored code inner =>
          let innerStart := start + colorMark.utf8Size + code.written.utf8ByteSize
          let body := readInner innerStart inner
          ⟨.colored start code (String.ofList inner) body.phrase rest.phrase,
            body.issues ++ rest.issues⟩

/-- Reads a level in which `budget` colored stretches may be open at the same time. -/
def Reading.within : Nat → Nat → List Char → Reading
  | 0, start, text => assemble (fun _ _ => .empty) start (scan 0 text)
  | budget + 1, start, text => assemble (within budget) start (scan (budget + 1) text)

def Reading.inside : Nat → Nat → List Char → Reading
  | 0 => fun _ _ => .empty
  | budget + 1 => within budget

theorem Reading.within_eq (budget start : Nat) (text : List Char) :
    within budget start text = assemble (inside budget) start (scan budget text) := by
  cases budget <;> rfl

@[simp] theorem Reading.within_nil (budget start : Nat) : within budget start [] = .empty := by
  rw [within_eq, scan_nil]
  rfl

def maxColorNesting : Nat := 64

structure Template where
  source : String
  phrase : Phrase
  issues : List Issue
  deriving DecidableEq, Repr

namespace Template

def read (source : String) : Template :=
  let reading := Reading.within maxColorNesting 0 source.toList
  ⟨source, reading.phrase, reading.issues⟩

def size (template : Template) : Nat := template.phrase.size + 1

def isEmpty (template : Template) : Bool := template.phrase.isEmpty

end Template

end Phrasebook
