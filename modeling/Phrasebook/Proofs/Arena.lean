import Phrasebook.Proofs.Laying

/-!
What the table of a template tells of it: cells that hold the pieces, on links that pass every cell
once and in order.
-/

namespace Phrasebook

namespace Arena

/-- The cells behind a link, each before the cells inside of it. -/
inductive Preorder (arena : Arena) : Option Nat → List Nat → Prop
  | nil : Preorder arena none []
  | cons {place : Nat} {cell : Cell} {inside later : List Nat}
      (found : arena.cells[place]? = some cell)
      (children : Preorder arena cell.firstChild inside)
      (siblings : Preorder arena cell.nextSibling later) :
      Preorder arena (some place) (place :: inside ++ later)

theorem Preorder.unique {arena : Arena} {link : Option Nat} {first second : List Nat}
    (walk : arena.Preorder link first) (again : arena.Preorder link second) : first = second := by
  induction walk generalizing second with
  | nil => cases again; rfl
  | cons found _ _ children siblings =>
      cases again with
      | cons same inside later =>
          cases Option.some.inj (found.symm.trans same)
          rw [children inside, siblings later]


def HasCells (arena : Arena) (free : Nat) (part : List Cell) : Prop :=
  ∃ front back, arena.cells = front ++ part ++ back ∧ front.length = free

namespace HasCells

variable {arena : Arena} {free : Nat} {cell : Cell} {first second : List Cell}

theorem head (cells : arena.HasCells free (cell :: first)) : arena.cells[free]? = some cell := by
  obtain ⟨front, back, table, rfl⟩ := cells
  rw [table]
  simp

theorem left (cells : arena.HasCells free (first ++ second)) : arena.HasCells free first := by
  obtain ⟨front, back, table, size⟩ := cells
  exact ⟨front, second ++ back, by simp [table], size⟩

theorem right (cells : arena.HasCells free (first ++ second)) :
    arena.HasCells (free + first.length) second := by
  obtain ⟨front, back, table, size⟩ := cells
  exact ⟨front ++ first, back, by simp [table], by simp [size]⟩

theorem tail (cells : arena.HasCells free (cell :: first)) : arena.HasCells (free + 1) first :=
  @right arena free [cell] first cells

end HasCells

theorem preorder_cells {arena : Arena} {phrase : Phrase} {free place : Nat}
    (stored : arena.HasCells free (phrase.cells free place)) :
    arena.Preorder (phrase.first free) (List.range' free phrase.size) := by
  induction phrase generalizing free place with
  | nil => exact .nil
  | leaf start content next ih =>
      have walk := Preorder.cons stored.head .nil (ih stored.tail)
      rw [Phrase.size, List.range'_succ]
      exact walk
  | colored start code inner body next inside later =>
      have behind := stored.tail.right
      rw [Phrase.length_cells] at behind
      have walk := Preorder.cons stored.head (inside stored.tail.left) (later behind)
      have places : List.range' free (body.size + next.size + 1) =
          free :: List.range' (free + 1) body.size ++
            List.range' (free + 1 + body.size) next.size := by
        rw [List.range'_succ, List.cons_append, List.range'_append_1]
      rw [Phrase.size, places]
      exact walk

end Arena

namespace Piece

def kind : Piece → TokenKind
  | leaf _ (.text _ _) => .literal
  | leaf _ (.reference _ _) => .reference
  | leaf _ (.slot _ _) => .slot
  | colored _ _ _ _ => .colored

def content : Piece → String
  | leaf _ (.text _ content) => content
  | leaf _ (.reference _ key) => key
  | leaf _ (.slot formula _) => formula
  | colored _ _ inner _ => inner

def metadata : Piece → Option String
  | leaf _ (.slot _ format) => format
  | colored _ code _ _ => some code.written
  | _ => none

def tooltip : Piece → Bool
  | leaf _ (.reference tooltip _) => tooltip
  | _ => false

end Piece

namespace Arena

def Reads (arena : Arena) (span : Span) (text : String) : Prop :=
  Text.StandsAt arena.text span.start text.toList ∧
    span.stop = span.start + Text.byteLength text.toList

structure Holds (arena : Arena) (cell : Cell) (piece : Piece) : Prop where
  kind : cell.kind = piece.kind
  tooltip : cell.tooltip = piece.tooltip
  place : cell.raw = piece.span
  raw : arena.Reads cell.raw piece.raw
  content : arena.Reads cell.content piece.content
  metadata : cell.metadata.Rel arena.Reads piece.metadata

/-- The cells behind a link hold the pieces of the phrase, and those inside of them what is inside
of the pieces. -/
inductive Stores (arena : Arena) : Option Nat → Phrase → Prop
  | nil : Stores arena none .nil
  | leaf {place start : Nat} {cell : Cell} {content : Leaf} {next : Phrase}
      (found : arena.cells[place]? = some cell) (holds : arena.Holds cell (.leaf start content))
      (childless : cell.firstChild = none) (later : Stores arena cell.nextSibling next) :
      Stores arena (some place) (.leaf start content next)
  | colored {place start : Nat} {cell : Cell} {code : ColorCode} {inner : String}
      {body next : Phrase} (found : arena.cells[place]? = some cell)
      (holds : arena.Holds cell (.colored start code inner body))
      (inside : Stores arena cell.firstChild body) (later : Stores arena cell.nextSibling next) :
      Stores arena (some place) (.colored start code inner body next)

theorem raw_token (place start : Nat) (content : Leaf) :
    (content.token place start).raw = (Piece.leaf start content).span := by
  cases content with
  | text raw content =>
      rw [Piece.span, Text.utf8ByteSize_eq]
      rfl
  | reference tooltip key =>
      rw [Piece.span, Text.utf8ByteSize_eq, Piece.raw, Leaf.raw_reference]
      rfl
  | slot formula format =>
      rw [Piece.span, Text.utf8ByteSize_eq, Piece.raw, Leaf.raw_slot]
      rfl

theorem reads_span {arena : Arena} {piece : Piece}
    (stands : Text.StandsAt arena.text piece.start piece.raw.toList) :
    arena.Reads piece.span piece.raw :=
  ⟨stands, by rw [Piece.span, Text.utf8ByteSize_eq]⟩

theorem reads_key {arena : Arena} {start : Nat} {tooltip : Bool} {key : String}
    (stands : Text.StandsAt arena.text start (Leaf.reference tooltip key).raw.toList) :
    arena.Reads (Token.reference start tooltip key.toList).content key := by
  refine ⟨?_, rfl⟩
  cases tooltip with
  | false =>
      have split : (Leaf.reference false key).raw.toList = ['$'] ++ key.toList ++ ['$'] := by
        simp [Leaf.raw]
      rw [split] at stands
      exact stands.left.right
  | true =>
      have split : (Leaf.reference true key).raw.toList = ['$', '@'] ++ key.toList ++ ['$'] := by
        simp [Leaf.raw]
      rw [split] at stands
      exact stands.left.right

theorem reads_slot {arena : Arena} {start : Nat} {formula : String} {format : Option String}
    (stands : Text.StandsAt arena.text start (Leaf.slot formula format).raw.toList) :
    let token := Token.slot start formula.toList (format.map String.toList)
    arena.Reads token.content formula ∧ token.metadata.Rel arena.Reads format := by
  cases format with
  | none =>
      have split : (Leaf.slot formula none).raw.toList = ['{'] ++ formula.toList ++ ['}'] := by
        simp [Leaf.raw]
      rw [split] at stands
      exact ⟨⟨stands.left.right, rfl⟩, .none⟩
  | some format =>
      have split : (Leaf.slot formula (some format)).raw.toList =
          ['{'] ++ formula.toList ++ ([':'] ++ format.toList ++ ['}']) := by
        simp [Leaf.raw]
      rw [split] at stands
      have behind := stands.right.left.right
      refine ⟨⟨stands.left.right, rfl⟩, .some ⟨?_, rfl⟩⟩
      rw [Text.byteLength_append, ← Nat.add_assoc] at behind
      exact behind

theorem reads_colored {arena : Arena} {start : Nat} {code : ColorCode} {inner : String}
    (stands : Text.StandsAt arena.text start (Phrase.coloredRaw code inner).toList) :
    let token := Token.colored start code inner.toList
    arena.Reads token.content inner ∧
      token.metadata.Rel arena.Reads (some code.written) := by
  have split : (Phrase.coloredRaw code inner).toList =
      [colorMark] ++ code.written.toList ++ (inner.toList ++ [colorMark]) := by
    simp [Phrase.coloredRaw]
  rw [split] at stands
  have behind := stands.right.left
  rw [Text.byteLength_append, ← Nat.add_assoc, ← Text.utf8ByteSize_eq] at behind
  refine ⟨⟨behind, rfl⟩, .some ⟨stands.left.right, ?_⟩⟩
  rw [← Text.utf8ByteSize_eq]

theorem holds_leaf {arena : Arena} {start place : Nat} {content : Leaf}
    (stands : Text.StandsAt arena.text start content.raw.toList)
    (meant : Text.StandsAt arena.text place content.meant) (next : Option Nat) :
    arena.Holds ⟨content.token place start, none, none, next⟩ (.leaf start content) := by
  have span := raw_token place start content
  have written : arena.Reads (content.token place start).raw content.raw := by
    rw [span]
    exact reads_span stands
  cases content with
  | text raw content => exact ⟨rfl, rfl, span, written, ⟨meant, rfl⟩, .none⟩
  | reference tooltip key => exact ⟨rfl, rfl, span, written, reads_key stands, .none⟩
  | slot formula format =>
      obtain ⟨content, metadata⟩ := reads_slot stands
      exact ⟨rfl, rfl, span, written, content, metadata⟩

theorem holds_colored {arena : Arena} {start : Nat} {code : ColorCode} {inner : String}
    (stands : Text.StandsAt arena.text start (Phrase.coloredRaw code inner).toList)
    (body : Phrase) (first last next : Option Nat) :
    arena.Holds ⟨.colored start code inner.toList, first, last, next⟩
      (.colored start code inner body) := by
  obtain ⟨content, metadata⟩ := reads_colored stands
  have span : (Token.colored start code inner.toList).raw =
      (Piece.colored start code inner body).span := by
    rw [Piece.span, Text.utf8ByteSize_eq, Piece.raw, Phrase.raw_colored]
    rfl
  refine ⟨rfl, rfl, span, ?_, content, metadata⟩
  simp only [span]
  exact reads_span stands

theorem stores_cells {template : Template} {arena : Arena} {phrase : Phrase} {free place : Nat}
    (stands : ∀ piece, template.Contains piece →
      Text.StandsAt arena.text piece.start piece.raw.toList)
    (stored : arena.HasCells free (phrase.cells free place))
    (meant : Text.StandsAt arena.text place phrase.meant)
    (contained : ∀ piece ∈ phrase.pieces, template.Contains piece) :
    arena.Stores (phrase.first free) phrase := by
  induction phrase generalizing free place with
  | nil => exact .nil
  | leaf start content next ih =>
      rw [Phrase.pieces] at contained
      rw [Phrase.cells] at stored
      rw [Phrase.meant] at meant
      obtain ⟨here, later⟩ := List.forall_mem_cons.mp contained
      have written := stands _ here
      simp only [Piece.start, Piece.raw] at written
      exact .leaf stored.head (holds_leaf written meant.left _) rfl
        (ih stored.tail meant.right later)
  | colored start code inner body next inside behind =>
      rw [Phrase.pieces] at contained
      rw [Phrase.cells] at stored
      rw [Phrase.meant] at meant
      obtain ⟨here, later⟩ := List.forall_mem_cons.mp contained
      have after := stored.tail.right
      rw [Phrase.length_cells] at after
      -- The body is a level of its own, so its pieces stand in the source too.
      have within : ∀ piece ∈ body.pieces, template.Contains piece := by
        obtain ⟨start, text, phrase, level, stretch⟩ := here
        intro piece member
        exact ⟨_, _, _, level.inside stretch, member⟩
      have written := stands _ here
      simp only [Piece.start, Piece.raw] at written
      exact .colored stored.head (holds_colored written body _ _ _)
        (inside stored.tail.left meant.left within) (behind after meant.right later)

def root (template : Template) : Cell :=
  ⟨.whole template.source.toList, template.phrase.first 1, template.phrase.last 1, none⟩

theorem hasCells_read (source : String) :
    (read source).HasCells 0 (root (Template.read source) ::
      (Template.read source).phrase.cells 1 (Text.byteLength source.toList)) := by
  rw [read_eq]
  exact ⟨[], [], by simp [root, Template.read], rfl⟩

theorem stores_read (source : String) :
    (read source).Stores ((Template.read source).phrase.first 1) (Template.read source).phrase := by
  have buffer : Text.StandsAt (read source).text (Text.byteLength source.toList)
      (Template.read source).phrase.meant := by
    rw [read_eq]
    exact ⟨source.toList, [], by simp, rfl⟩
  have stands : ∀ piece, (Template.read source).Contains piece →
      Text.StandsAt (read source).text piece.start piece.raw.toList := by
    rintro piece ⟨start, text, phrase, level, member⟩
    rw [read_eq]
    exact ((level_lossless level).stands piece member).append _
  exact stores_cells stands (hasCells_read source).tail buffer
    fun piece member => ⟨_, _, _, .whole, member⟩

theorem preorder_read (source : String) :
    (read source).Preorder (some 0) (List.range (read source).cells.length) := by
  have size : (read source).cells.length = (Template.read source).phrase.size + 1 := by
    rw [read_eq]
    simp [Phrase.length_cells]
  have walk := Preorder.cons (hasCells_read source).head
    (preorder_cells (hasCells_read source).tail) .nil
  rw [size, List.range_eq_range', List.range'_succ]
  simpa using walk

end Arena

/-- Reading loses nothing of a template, however malformed it is. On every level the pieces tile the
level, and the table of the template holds the pieces in the order of a walk along its links. -/
theorem Template.read_lossless (source : String) :
    (∀ start text phrase, (read source).Level start text phrase →
        Level.Lossless source.toList start text phrase) ∧
      (∃ root, (Arena.read source).cells[0]? = some root ∧
        root.toToken = .whole source.toList ∧ root.nextSibling = none ∧
        (Arena.read source).Stores root.firstChild (read source).phrase) ∧
      ∀ places, (Arena.read source).Preorder (some 0) places ↔
        places = List.range (Arena.read source).cells.length := by
  refine ⟨fun _ _ _ => level_lossless, ?_, ?_⟩
  · exact ⟨Arena.root (read source), (Arena.hasCells_read source).head, rfl, rfl,
      Arena.stores_read source⟩
  · intro places
    constructor
    · exact fun walk => walk.unique (Arena.preorder_read source)
    · rintro rfl
      exact Arena.preorder_read source

end Phrasebook
