import Phrasebook.Phrase.Reading

/-!
Templates in one table. Every piece is a cell. A cell knows its first and its last piece inside and
the piece that follows it by their places in the table. Texts are stretches of one buffer: it begins
with the template, and the meant texts are put behind it when a run of text ends.
-/

namespace Phrasebook

inductive TokenKind where
  | literal
  | reference
  | slot
  | colored
  deriving DecidableEq, Repr

structure Token where
  kind : TokenKind
  raw : Span
  content : Span
  metadata : Option Span
  tooltip : Bool
  deriving DecidableEq, Repr

namespace Token

def literal (raw content : Span) : Token := ⟨.literal, raw, content, none, false⟩

def reference (start : Nat) (tooltip : Bool) (key : List Char) : Token :=
  let stop := start + Text.byteLength (Scanned.reference tooltip key).written
  let keyStart := start + 1 + tooltip.toNat
  ⟨.reference, ⟨start, stop⟩, ⟨keyStart, keyStart + Text.byteLength key⟩, none, tooltip⟩

def slot (start : Nat) (formula : List Char) (format : Option (List Char)) : Token :=
  let stop := start + Text.byteLength (Scanned.slot formula format).written
  let formulaStop := start + 1 + Text.byteLength formula
  let metadata := format.map fun spec => ⟨formulaStop + 1, formulaStop + 1 + Text.byteLength spec⟩
  ⟨.slot, ⟨start, stop⟩, ⟨start + 1, formulaStop⟩, metadata, false⟩

def colored (start : Nat) (code : ColorCode) (inner : List Char) : Token :=
  let stop := start + Text.byteLength (Scanned.colored code inner).written
  let codeStart := start + colorMark.utf8Size
  let innerStart := codeStart + code.written.utf8ByteSize
  ⟨.colored, ⟨start, stop⟩, ⟨innerStart, innerStart + Text.byteLength inner⟩,
    some ⟨codeStart, innerStart⟩, false⟩

def whole (source : List Char) : Token :=
  literal ⟨0, Text.byteLength source⟩ ⟨0, Text.byteLength source⟩

end Token

structure Cell extends Token where
  firstChild : Option Nat
  lastChild : Option Nat
  nextSibling : Option Nat
  deriving DecidableEq, Repr

def Token.cell (token : Token) : Cell := ⟨token, none, none, none⟩

/-- Text that has been read and is not in a cell yet: where it started, and what it means. -/
structure Pending where
  start : Option Nat
  content : List Char
  deriving DecidableEq, Repr

namespace Pending

def empty : Pending := ⟨none, []⟩

def add (pending : Pending) (start : Nat) (c : Char) : Pending :=
  ⟨some (pending.start.getD start), pending.content ++ [c]⟩

end Pending

structure Arena where
  cells : List Cell
  text : List Char
  issues : List Issue
  deriving DecidableEq, Repr

namespace Arena

/-- Links a first cell behind the last one of `parent`, where `last` is the last one then. -/
def attach (cells : List Cell) (parent first last : Nat) : List Cell :=
  let linked := match (cells[parent]?).bind Cell.lastChild with
    | some previous => cells.modify previous fun cell => { cell with nextSibling := some first }
    | none => cells.modify parent fun cell => { cell with firstChild := some first }
  linked.modify parent fun cell => { cell with lastChild := some last }

def begin (source : List Char) : Arena := ⟨[(Token.whole source).cell], source, []⟩

def push (arena : Arena) (parent : Nat) (token : Token) : Arena :=
  let place := arena.cells.length
  { arena with cells := attach (arena.cells ++ [token.cell]) parent place place }

def report (arena : Arena) (issues : List Issue) : Arena :=
  { arena with issues := arena.issues ++ issues }

def flush (arena : Arena) (parent : Nat) (pending : Pending) (stop : Nat) : Arena :=
  match pending.start with
  | none => arena
  | some start =>
      let place := Text.byteLength arena.text
      let content := ⟨place, place + Text.byteLength pending.content⟩
      { arena with text := arena.text ++ pending.content }.push parent
        (.literal ⟨start, stop⟩ content)

/-- Puts a piece at byte `start` on under `parent`. The inside of a colored stretch is put under its
cell by `fillInner`. -/
def settle (fillInner : Nat → Nat → List Char → Arena → Arena) (parent start : Nat)
    (pending : Pending) (arena : Arena) : Scanned → Pending × Arena
  | .plain c => (pending.add start c, arena)
  | .escaped c => (pending.add start c, arena)
  | .stray c kind => (pending.add start c, arena.report [⟨kind, c, start⟩])
  | .reference tooltip key =>
      (.empty, (arena.flush parent pending start).push parent (.reference start tooltip key))
  | .slot formula format =>
      (.empty, (arena.flush parent pending start).push parent (.slot start formula format))
  | .colored code inner =>
      let flushed := arena.flush parent pending start
      let innerStart := start + colorMark.utf8Size + code.written.utf8ByteSize
      (.empty, fillInner flushed.cells.length innerStart inner
        (flushed.push parent (.colored start code inner)))

def grow (fillInner : Nat → Nat → List Char → Arena → Arena) (parent start : Nat)
    (pending : Pending) (arena : Arena) : List Scanned → Arena
  | [] => arena.flush parent pending start
  | piece :: later =>
      let settled := settle fillInner parent start pending arena piece
      grow fillInner parent (start + Text.byteLength piece.written) settled.1 settled.2 later

/-- Fills the inside of `parent` from a level in which `budget` colored stretches may be open. -/
def fill : Nat → Nat → Nat → List Char → Arena → Arena
  | 0, parent, start, text, arena =>
      grow (fun _ _ _ arena => arena) parent start .empty arena (scan 0 text)
  | budget + 1, parent, start, text, arena =>
      grow (fill budget) parent start .empty arena (scan (budget + 1) text)

def read (source : String) : Arena :=
  fill maxColorNesting 0 0 source.toList (begin source.toList)

end Arena

end Phrasebook
