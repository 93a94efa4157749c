import Phrasebook.Phrase.Arena
import Phrasebook.Proofs.Levels

/-!
The table of a template holds its phrase. The cells of a phrase are computed from the phrase alone,
and filling the table puts exactly these cells behind those that are there.
-/

namespace Phrasebook

/-- The text that a piece puts into the buffer. -/
def Leaf.meant : Leaf → List Char
  | .text _ content => content.toList
  | _ => []

def Leaf.token (place start : Nat) : Leaf → Token
  | .text raw content =>
      .literal ⟨start, start + Text.byteLength raw.toList⟩
        ⟨place, place + Text.byteLength content.toList⟩
  | .reference tooltip key => .reference start tooltip key.toList
  | .slot formula format => .slot start formula.toList (format.map String.toList)

namespace Phrase

def first (free : Nat) : Phrase → Option Nat
  | nil => none
  | _ => some free

def last (free : Nat) : Phrase → Option Nat
  | nil => none
  | leaf _ _ next => some ((next.last (free + 1)).getD free)
  | colored _ _ _ body next => some ((next.last (free + 1 + body.size)).getD free)

def meant : Phrase → List Char
  | nil => []
  | leaf _ content next => content.meant ++ next.meant
  | colored _ _ _ body next => body.meant ++ next.meant

/-- The cells of the phrase from `free` on, when the buffer ends at byte `place`. -/
def cells (free place : Nat) : Phrase → List Cell
  | nil => []
  | leaf start content next =>
      ⟨content.token place start, none, none, next.first (free + 1)⟩ ::
        next.cells (free + 1) (place + Text.byteLength content.meant)
  | colored start code inner body next =>
      ⟨.colored start code inner.toList, body.first (free + 1), body.last (free + 1),
          next.first (free + 1 + body.size)⟩ ::
        (body.cells (free + 1) place ++
          next.cells (free + 1 + body.size) (place + Text.byteLength body.meant))

theorem length_cells (phrase : Phrase) (free place : Nat) :
    (phrase.cells free place).length = phrase.size := by
  induction phrase generalizing free place with
  | nil => rfl
  | leaf start content next ih => simp [cells, size, ih]
  | colored start code inner body next inside later => simp [cells, size, inside, later]

end Phrase

namespace Arena

/-- Cells behind `parent` that hold a phrase whose first cell is `free`. -/
def hang (cells : List Cell) (parent free : Nat) (phrase : Phrase) : List Cell :=
  match phrase.last free with
  | none => cells
  | some last => attach cells parent free last

/-- The arena with a phrase put under `parent`, piece by piece. -/
def lay (arena : Arena) (parent : Nat) : Phrase → Arena
  | .nil => arena
  | .leaf start content next =>
      let token := content.token (Text.byteLength arena.text) start
      ({ arena with text := arena.text ++ content.meant }.push parent token).lay parent next
  | .colored start code inner body next =>
      let opened := arena.push parent (.colored start code inner.toList)
      (opened.lay arena.cells.length body).lay parent next

theorem modify_append {cells : List Cell} (more : List Cell) {place : Nat} (change : Cell → Cell)
    (inside : place < cells.length) :
    (cells ++ more).modify place change = cells.modify place change ++ more := by
  induction cells generalizing place with
  | nil => cases inside
  | cons cell cells ih =>
      cases place with
      | zero => rfl
      | succ place => simp [ih (Nat.lt_of_succ_lt_succ inside)]

theorem modify_behind (cells more : List Cell) (cell : Cell) (change : Cell → Cell) :
    (cells ++ cell :: more).modify cells.length change = cells ++ change cell :: more := by
  induction cells with
  | nil => rfl
  | cons first cells ih => simp [ih]

def lastOf (cells : List Cell) (parent : Nat) : Option Nat :=
  (cells[parent]?).bind Cell.lastChild

structure Linked (cells : List Cell) (parent : Nat) : Prop where
  inside : parent < cells.length
  closed : ∀ last, lastOf cells parent = some last → last < cells.length

theorem attach_append {cells : List Cell} (more : List Cell) {parent : Nat} (first last : Nat)
    (linked : Linked cells parent) :
    attach (cells ++ more) parent first last = attach cells parent first last ++ more := by
  have same : (cells ++ more)[parent]? = cells[parent]? := List.getElem?_append_left linked.inside
  unfold attach
  rw [same]
  cases found : (cells[parent]?).bind Cell.lastChild with
  | none =>
      simp only
      rw [modify_append _ _ linked.inside, modify_append _ _ (by simpa using linked.inside)]
  | some previous =>
      simp only
      rw [modify_append _ _ (linked.closed previous found),
        modify_append _ _ (by simpa using linked.inside)]

theorem length_attach (cells : List Cell) (parent first last : Nat) :
    (attach cells parent first last).length = cells.length := by
  unfold attach
  split <;> simp

theorem lastOf_attach {cells : List Cell} {parent : Nat} (first last : Nat)
    (inside : parent < cells.length) :
    lastOf (attach cells parent first last) parent = some last := by
  unfold lastOf attach
  split <;> simp [inside]

theorem attach_last (cells : List Cell) (parent first last later : Nat) :
    (attach cells parent first last).modify parent
        (fun cell => { cell with lastChild := some later }) = attach cells parent first later := by
  unfold attach
  simp only [List.modify_modify_eq]
  rfl

theorem attach_attach {cells : List Cell} {parent : Nat} (cell : Cell) (more : List Cell)
    (first last : Nat) (linked : Linked cells parent) :
    attach (attach cells parent cells.length cells.length ++ cell :: more) parent first last =
      attach cells parent cells.length last ++ { cell with nextSibling := some first } :: more := by
  have size := length_attach cells parent cells.length cells.length
  have inside : parent < (attach cells parent cells.length cells.length).length := by
    rw [size]
    exact linked.inside
  have found : ((attach cells parent cells.length cells.length ++ cell :: more)[parent]?).bind
      Cell.lastChild = some cells.length := by
    rw [List.getElem?_append_left inside]
    exact lastOf_attach _ _ linked.inside
  rw [attach, found]
  simp only
  have behind := modify_behind (attach cells parent cells.length cells.length) more cell
    fun cell => { cell with nextSibling := some first }
  rw [size] at behind
  rw [behind, modify_append _ _ inside, attach_last]

theorem attach_fresh (cells : List Cell) (token : Token) (first last : Nat) :
    attach (cells ++ [token.cell]) cells.length first last =
      cells ++ [⟨token, some first, some last, none⟩] := by
  have fresh : ((cells ++ [token.cell])[cells.length]?).bind Cell.lastChild = none := by
    simp [Token.cell]
  unfold attach
  rw [fresh]
  simp only [modify_behind]
  rfl

theorem push_eq {cells : List Cell} {parent : Nat} (token : Token) (text : List Char)
    (issues : List Issue) (linked : Linked cells parent) :
    (Arena.mk cells text issues).push parent token =
      ⟨attach cells parent cells.length cells.length ++ [token.cell], text, issues⟩ := by
  rw [push, attach_append _ _ _ linked]

namespace Linked

theorem pushed {cells : List Cell} {parent : Nat} (linked : Linked cells parent) (cell : Cell)
    (more : List Cell) :
    Linked (attach cells parent cells.length cells.length ++ cell :: more) parent := by
  have size := length_attach cells parent cells.length cells.length
  have inside : parent < (attach cells parent cells.length cells.length).length := by
    rw [size]
    exact linked.inside
  constructor
  · simp only [List.length_append, List.length_cons]
    omega
  · intro last found
    rw [lastOf, List.getElem?_append_left inside] at found
    have same := Option.some.inj ((lastOf_attach _ _ linked.inside).symm.trans found)
    simp only [List.length_append, List.length_cons]
    omega

theorem fresh (cells : List Cell) (token : Token) :
    Linked (cells ++ [token.cell]) cells.length := by
  constructor
  · simp
  · simp [lastOf, Token.cell]

end Linked

theorem hang_fresh (cells : List Cell) (token : Token) (free : Nat) (phrase : Phrase) :
    hang (cells ++ [token.cell]) cells.length free phrase =
      cells ++ [⟨token, phrase.first free, phrase.last free, none⟩] := by
  cases phrase with
  | nil => rfl
  | leaf => exact attach_fresh _ _ _ _
  | colored => exact attach_fresh _ _ _ _

theorem hang_behind {cells : List Cell} {parent : Nat} (linked : Linked cells parent)
    (token : Token) (firstChild lastChild : Option Nat) (more : List Cell) (free : Nat)
    (phrase : Phrase) :
    hang (attach cells parent cells.length cells.length ++
        ⟨token, firstChild, lastChild, none⟩ :: more) parent free phrase =
      attach cells parent cells.length ((phrase.last free).getD cells.length) ++
        ⟨token, firstChild, lastChild, phrase.first free⟩ :: more := by
  cases phrase with
  | nil => rfl
  | leaf => exact attach_attach _ _ _ _ linked
  | colored => exact attach_attach _ _ _ _ linked

theorem lay_eq (phrase : Phrase) {cells : List Cell} {parent : Nat} (text : List Char)
    (issues : List Issue) (linked : Linked cells parent) :
    (Arena.mk cells text issues).lay parent phrase =
      ⟨hang cells parent cells.length phrase ++
          phrase.cells cells.length (Text.byteLength text),
        text ++ phrase.meant, issues⟩ := by
  induction phrase generalizing cells parent text with
  | nil => simp [lay, hang, Phrase.last, Phrase.cells, Phrase.meant]
  | leaf start content next ih =>
      rw [lay, push_eq _ _ _ linked, ih _ (linked.pushed _ _), Token.cell, hang_behind linked]
      simp [length_attach, hang, Phrase.last, Phrase.cells, Phrase.meant]
  | colored start code inner body next inside later =>
      have size := length_attach cells parent cells.length cells.length
      have opened := Linked.fresh (attach cells parent cells.length cells.length)
        (.colored start code inner.toList)
      have hung := hang_fresh (attach cells parent cells.length cells.length)
        (.colored start code inner.toList) (cells.length + 1) body
      rw [size] at opened hung
      rw [lay, push_eq _ _ _ linked, inside _ opened]
      simp only [List.length_append, List.length_cons, List.length_nil, size, Nat.zero_add, hung]
      rw [List.append_assoc, List.singleton_append]
      rw [later _ (linked.pushed _ _), hang_behind linked]
      -- The cell of the stretch was the parent of its body and is the last sibling now.
      have behind : cells.length + (body.size + 1) = cells.length + 1 + body.size := by omega
      simp [length_attach, hang, Phrase.last, Phrase.cells, Phrase.meant, Phrase.length_cells,
        behind]

theorem lay_report (phrase : Phrase) (arena : Arena) (parent : Nat) (issues : List Issue) :
    (arena.report issues).lay parent phrase = (arena.lay parent phrase).report issues := by
  induction phrase generalizing arena parent with
  | nil => rfl
  | leaf start content next ih =>
      rw [lay, lay, ← ih]
      rfl
  | colored start code inner body next inside later =>
      rw [lay, lay, ← later, ← inside]
      rfl

/-- A phrase with the pending text, which ends at byte `place`, in front. -/
inductive Covers (place : Nat) (phrase : Phrase) : Pending → Phrase → Prop
  | idle : Covers place phrase .empty phrase
  | run {start : Nat} {written : String} {content : List Char}
      (reaches : start + Text.byteLength written.toList = place) :
      Covers place phrase ⟨some start, content⟩
        (phrase.prependText start written (String.ofList content))

theorem Covers.add {place stop : Nat} {phrase whole : Phrase} {pending : Pending} {c : Char}
    {written : String} (reaches : place + Text.byteLength written.toList = stop)
    (covers : Covers place (phrase.prependText place written c.toString) pending whole) :
    Covers stop phrase (pending.add place c) whole := by
  cases covers with
  | idle => exact .run reaches
  | @run start before content before_reaches =>
      have meant : String.ofList (content ++ [c]) = String.ofList content ++ c.toString := by
        simp [String.ofList_append]
      have extended : start + Text.byteLength (before ++ written).toList = stop := by
        rw [String.toList_append, Text.byteLength_append, ← Nat.add_assoc, before_reaches, reaches]
      rw [Phrase.prependText_prependText, ← meant]
      exact .run extended

theorem Covers.flush {place : Nat} {phrase whole : Phrase} {pending : Pending} (parent : Nat)
    (arena : Arena) (apart : phrase.beginsWithText = false)
    (covers : Covers place phrase pending whole) :
    arena.lay parent whole = (arena.flush parent pending place).lay parent phrase := by
  cases covers with
  | idle => rfl
  | run reaches =>
      rw [Phrase.prependText_apart _ _ _ apart, ← reaches, lay]
      simp only [Leaf.meant, Leaf.token, String.toList_ofList]
      rfl

theorem report_nil (arena : Arena) : arena.report [] = arena := by
  simp [report]

theorem report_report (arena : Arena) (first second : List Issue) :
    (arena.report first).report second = arena.report (first ++ second) := by
  simp [report]

theorem grow_eq {fillInner : Nat → Nat → List Char → Arena → Arena}
    {readInner : Nat → List Char → Reading}
    (inner : ∀ parent start text arena, fillInner parent start text arena =
      (arena.lay parent (readInner start text).phrase).report (readInner start text).issues)
    (pieces : List Scanned) (parent start : Nat) (pending : Pending) (arena : Arena)
    {whole : Phrase}
    (covers : Covers start (Reading.assemble readInner start pieces).phrase pending whole) :
    grow fillInner parent start pending arena pieces =
      (arena.lay parent whole).report (Reading.assemble readInner start pieces).issues := by
  -- The pending text changes with every piece, so the induction is over all of them at once.
  induction pieces generalizing start pending arena whole with
  | nil =>
      rw [covers.flush parent arena rfl, grow, Reading.assemble]
      exact (report_nil _).symm
  | cons piece later ih =>
      rw [grow]
      cases piece with
      | plain c => exact ih _ _ _ (covers.add (by simp [Scanned.written]))
      | escaped c => exact ih _ _ _ (covers.add (by simp [Scanned.written]))
      | stray c kind =>
          rw [settle, ih _ _ _ (covers.add (by simp [Scanned.written])), lay_report, report_report]
          rfl
      | reference tooltip key =>
          rw [settle, ih _ _ _ .idle, covers.flush parent arena rfl]
          simp [Reading.assemble, lay, Leaf.meant, Leaf.token]
      | slot formula format =>
          rw [settle, ih _ _ _ .idle, covers.flush parent arena rfl]
          have same : (format.map String.ofList).map String.toList = format := by simp
          simp [Reading.assemble, lay, Leaf.meant, Leaf.token, same]
      | colored code content =>
          rw [settle, ih _ _ _ .idle, covers.flush parent arena rfl, inner,
            lay_report, report_report]
          simp [Reading.assemble, lay]

theorem fill_lays (budget parent start : Nat) (text : List Char) (arena : Arena) :
    fill budget parent start text arena =
      (arena.lay parent (Reading.within budget start text).phrase).report
        (Reading.within budget start text).issues := by
  induction budget generalizing parent start text arena with
  | zero =>
      rw [fill, Reading.within]
      refine grow_eq ?_ (scan 0 text) parent start .empty arena .idle
      intro parent start text arena
      exact (report_nil _).symm
  | succ budget ih => exact grow_eq ih _ _ _ _ _ .idle

theorem read_eq (source : String) :
    read source =
      ⟨⟨.whole source.toList, (Template.read source).phrase.first 1,
            (Template.read source).phrase.last 1, none⟩ ::
          (Template.read source).phrase.cells 1 (Text.byteLength source.toList),
        source.toList ++ (Template.read source).phrase.meant, (Template.read source).issues⟩ := by
  have root := Linked.fresh [] (.whole source.toList)
  have hung := hang_fresh [] (.whole source.toList) 1 (Template.read source).phrase
  simp only [List.nil_append, List.length_nil] at root hung
  rw [read, fill_lays, begin, lay_eq _ _ _ root]
  simp only [List.length_cons, List.length_nil, Nat.zero_add]
  change report ⟨hang _ 0 1 (Template.read source).phrase ++ _, _, []⟩ _ = _
  rw [hung]
  rfl

end Arena

end Phrasebook
