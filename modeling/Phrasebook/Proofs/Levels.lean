import Phrasebook.Proofs.Steps

/-!
Levels of a template: the template as a whole, and the inside of every colored stretch. On each
level the pieces lie side by side and cover the level, and each piece is what stands at its place in
the template. Whatever is malformed in a template is still somewhere in a text of the phrase.
-/

namespace Phrasebook

/-- The part stands in the source at byte `start`, which is the beginning of a character. -/
def Text.StandsAt (source : List Char) (start : Nat) (part : List Char) : Prop :=
  ∃ before after, source = before ++ part ++ after ∧ byteLength before = start

namespace Text.StandsAt

variable {source first second : List Char} {start : Nat}

theorem whole (source : List Char) : StandsAt source 0 source :=
  ⟨[], [], by simp, rfl⟩

theorem left (stands : StandsAt source start (first ++ second)) : StandsAt source start first := by
  obtain ⟨before, after, whole, place⟩ := stands
  exact ⟨before, second ++ after, by simp [whole], place⟩

theorem right (stands : StandsAt source start (first ++ second)) :
    StandsAt source (start + byteLength first) second := by
  obtain ⟨before, after, whole, place⟩ := stands
  exact ⟨before ++ first, after, by simp [whole], by simp [place]⟩

theorem append (stands : StandsAt source start first) (more : List Char) :
    StandsAt (source ++ more) start first := by
  obtain ⟨before, after, whole, place⟩ := stands
  exact ⟨before, after ++ more, by simp [whole], place⟩

end Text.StandsAt

/-- The meaning of a text: a backslash stands for the character that it hides. -/
def Text.unhide : List Char → List Char
  | '\\' :: hidden :: cs => hidden :: unhide cs
  | c :: cs => c :: unhide cs
  | [] => []

inductive Piece where
  | leaf (start : Nat) (content : Leaf)
  | colored (start : Nat) (code : ColorCode) (inner : String) (body : Phrase)

namespace Piece

def start : Piece → Nat
  | leaf start _ => start
  | colored start _ _ _ => start

def raw : Piece → String
  | leaf _ content => content.raw
  | colored _ code inner _ => Phrase.coloredRaw code inner

def span (piece : Piece) : Span := ⟨piece.start, piece.start + piece.raw.utf8ByteSize⟩

def isText : Piece → Bool
  | leaf _ (.text _ _) => true
  | _ => false

end Piece

open Braces in
/-- What is inside a piece is what the marks around it allow. -/
def Leaf.Proper : Leaf → Prop
  | .text raw content => content.toList = Text.unhide raw.toList
  | .reference tooltip key =>
      '$' ∉ key.toList ∧ (tooltip = false → key.toList.head? ≠ some '@')
  | .slot formula format =>
      Balanced formula.toList ∧ ColonFree formula.toList ∧ ∀ spec ∈ format, Balanced spec.toList

def Piece.Proper : Piece → Prop
  | leaf _ content => content.Proper
  | colored _ code _ _ => ColorCode.parse? code.written = some code

def Phrase.pieces : Phrase → List Piece
  | nil => []
  | leaf start content next => .leaf start content :: next.pieces
  | colored start code inner body next => .colored start code inner body :: next.pieces

/-- Spans side by side, none of them empty, from `first` up to `last`. -/
inductive Tiles : Nat → List Span → Nat → Prop
  | nil (place : Nat) : Tiles place [] place
  | cons {span : Span} {later : List Span} {last : Nat} (nonempty : span.start < span.stop)
      (rest : Tiles span.stop later last) : Tiles span.start (span :: later) last

/-- The levels of a template: where they start, their text, and the phrase that is read there. -/
inductive Template.Level (template : Template) : Nat → String → Phrase → Prop
  | whole : Level template 0 template.source template.phrase
  | inside {start place : Nat} {text inner : String} {phrase body : Phrase} {code : ColorCode}
      (outer : Level template start text phrase)
      (stretch : .colored place code inner body ∈ phrase.pieces) :
      Level template (place + colorMark.utf8Size + code.written.utf8ByteSize) inner body

def Template.Contains (template : Template) (piece : Piece) : Prop :=
  ∃ start text phrase, template.Level start text phrase ∧ piece ∈ phrase.pieces

/-- Nothing of the source is lost on a level, and nothing on it overlaps. -/
structure Level.Lossless (source : List Char) (start : Nat) (text : String) (phrase : Phrase) :
    Prop where
  tiles : Tiles start (phrase.pieces.map Piece.span) (start + text.utf8ByteSize)
  separated : ∀ before first second after,
    phrase.pieces = before ++ first :: second :: after → ¬ (first.isText ∧ second.isText)
  stands : ∀ piece ∈ phrase.pieces, Text.StandsAt source piece.start piece.raw.toList
  proper : ∀ piece ∈ phrase.pieces, piece.Proper

def Phrase.beginsWithText : Phrase → Bool
  | leaf _ (.text _ _) _ => true
  | _ => false

/-- The phrase of a level, in which `budget` more stretches may be open, from the text of the level.
This is the invariant of a scan: it holds of the pieces behind every place of the level. -/
inductive Laid (budget : Nat) : Nat → List Char → Phrase → Prop
  | nil (start : Nat) : Laid budget start [] .nil
  | leaf {start : Nat} {content : Leaf} {later : List Char} {next : Phrase}
      (nonempty : content.raw.toList ≠ []) (proper : content.Proper)
      (apart : (Piece.leaf start content).isText → next.beginsWithText = false)
      (rest : Laid budget (start + Text.byteLength content.raw.toList) later next) :
      Laid budget start (content.raw.toList ++ later) (.leaf start content next)
  | colored {start : Nat} {code : ColorCode} {inner : List Char} {later : List Char} {next : Phrase}
      (spends : 0 < budget) (proper : code.Proper)
      (rest : Laid budget (start + Text.byteLength (Scanned.colored code inner).written) later
        next) :
      Laid budget start ((Scanned.colored code inner).written ++ later)
        (.colored start code (String.ofList inner)
          (Reading.inside budget (start + colorMark.utf8Size + code.written.utf8ByteSize)
            inner).phrase
          next)

theorem Text.unhide_plain {c : Char} (cs : List Char) (plain : c = '\\' → cs = []) :
    unhide (c :: cs) = c :: unhide cs := by
  by_cases backslash : c = '\\'
  · rw [plain backslash, backslash]
    rfl
  · rw [unhide]
    intro hidden tail same
    exact absurd same backslash

theorem Phrase.prependText_apart {phrase : Phrase} (start : Nat) (written content : String)
    (apart : phrase.beginsWithText = false) :
    phrase.prependText start written content = .leaf start (.text written content) phrase := by
  unfold prependText
  split
  · cases apart
  · rfl

theorem Phrase.head_apart {phrase : Phrase} (apart : phrase.beginsWithText = false)
    {first : Piece} {later : List Piece} (head : phrase.pieces = first :: later) :
    ¬ first.isText := by
  cases phrase with
  | nil => cases head
  | leaf start content next =>
      obtain ⟨rfl, _⟩ := List.cons.inj head
      cases content with
      | text raw content => cases apart
      | reference tooltip key => exact nofun
      | slot formula format => exact nofun
  | colored start code inner body next =>
      obtain ⟨rfl, _⟩ := List.cons.inj head
      exact nofun

namespace Laid

theorem text {budget start : Nat} {written content : String} {later : List Char} {next : Phrase}
    (nonempty : written.toList ≠ []) (meant : content.toList = Text.unhide written.toList)
    (apart : next.beginsWithText = false)
    (rest : Laid budget (start + Text.byteLength written.toList) later next) :
    Laid budget start (written.toList ++ later) (.leaf start (.text written content) next) :=
  @leaf budget start (.text written content) later next nonempty meant (fun _ => apart) rest

theorem prependText {budget start : Nat} {written : String} {chars later : List Char}
    {meant : Char} {next : Phrase} (spelled : written.toList = chars) (nonempty : chars ≠ [])
    (unhides : ∀ raw, (later = [] → raw = []) →
      Text.unhide (chars ++ raw) = meant :: Text.unhide raw)
    (rest : Laid budget (start + Text.byteLength chars) later next) :
    Laid budget start (chars ++ later) (next.prependText start written meant.toString) := by
  subst spelled
  -- The text stands alone, or the text behind it grows at its front.
  by_cases fresh : next.beginsWithText = false
  · have single := unhides [] fun _ => rfl
    rw [List.append_nil] at single
    rw [Phrase.prependText_apart start written meant.toString fresh]
    exact text nonempty (by simp [single, Text.unhide]) fresh rest
  · cases rest with
    | nil => exact absurd rfl fresh
    | colored spends proper rest => exact absurd rfl fresh
    | @leaf _ content later next filled proper apart rest =>
        cases content with
        | reference tooltip key => exact absurd rfl fresh
        | slot formula format => exact absurd rfl fresh
        | text raw content =>
            have joined := unhides raw.toList fun none => (List.append_eq_nil_iff.mp none).1
            have meaning : (meant.toString ++ content).toList =
                Text.unhide (written ++ raw).toList := by
              rw [String.toList_append, String.toList_append, joined, ← proper]
              simp
            have filled : (written ++ raw).toList ≠ [] := by simp [nonempty]
            have behind :
                Laid budget (start + Text.byteLength (written ++ raw).toList) later next := by
              rw [String.toList_append, Text.byteLength_append, ← Nat.add_assoc]
              exact rest
            have laid := text filled meaning (apart rfl) behind
            rwa [String.toList_append, List.append_assoc] at laid

theorem character {budget start : Nat} {c : Char} {later : List Char} {next : Phrase}
    (lone : c = '\\' → later = [])
    (rest : Laid budget (start + Text.byteLength [c]) later next) :
    Laid budget start (c :: later) (next.prependText start c.toString c.toString) := by
  have unhides : ∀ raw, (later = [] → raw = []) →
      Text.unhide ([c] ++ raw) = c :: Text.unhide raw := fun raw ends =>
    Text.unhide_plain raw fun backslash => ends (lone backslash)
  have spelled : c.toString.toList = [c] := by simp
  exact prependText spelled (by simp) unhides rest

theorem hiddenCharacter {budget start : Nat} {c : Char} {later : List Char} {next : Phrase}
    (rest : Laid budget (start + Text.byteLength ['\\', c]) later next) :
    Laid budget start ('\\' :: c :: later)
      (next.prependText start (String.ofList ['\\', c]) c.toString) :=
  prependText String.toList_ofList (by simp) (fun _ _ => rfl) rest

theorem piece {budget start : Nat} {content : Leaf} {written later : List Char} {next : Phrase}
    (spelled : content.raw.toList = written) (nonempty : written ≠ []) (proper : content.Proper)
    (apart : (Piece.leaf start content).isText = false)
    (rest : Laid budget (start + Text.byteLength written) later next) :
    Laid budget start (written ++ later) (.leaf start content next) := by
  subst spelled
  exact leaf nonempty proper (fun text => absurd text (by simp [apart])) rest

end Laid

theorem Leaf.raw_reference (tooltip : Bool) (key : String) :
    (Leaf.reference tooltip key).raw.toList = (Scanned.reference tooltip key.toList).written := by
  cases tooltip <;> simp [Leaf.raw, Scanned.written]

theorem Leaf.raw_slot (formula : String) (format : Option String) :
    (Leaf.slot formula format).raw.toList =
      (Scanned.slot formula.toList (format.map String.toList)).written := by
  cases format <;> simp [Leaf.raw, Scanned.written]

theorem Phrase.raw_colored (code : ColorCode) (inner : String) :
    (coloredRaw code inner).toList = (Scanned.colored code inner.toList).written := by
  simp [coloredRaw, Scanned.written]

theorem laid_within (budget start : Nat) (text : List Char) :
    Laid budget start text (Reading.within budget start text).phrase := by
  rw [Reading.within_eq]
  induction text using @Scan.induction budget generalizing start with
  | nil =>
      rw [scan_nil]
      exact .nil start
  | step text piece rest takes scanned ih =>
      rw [scanned]
      cases takes with
      | plain lone _ _ _ => exact .character lone (ih _)
      | escaped hidden => exact .hiddenCharacter (ih _)
      | strayBrace =>
          have unescaped : '{' ≠ '\\' := by decide
          exact .character (fun escape => absurd escape unescaped) (ih _)
      | strayMark =>
          have unescaped : colorMark ≠ '\\' := by decide
          exact .character (fun escape => absurd escape unescaped) (ih _)
      | @reference tooltip key _ closed named =>
          have proper : (Leaf.reference tooltip (String.ofList key)).Proper := by
            simp only [Leaf.Proper, String.toList_ofList]
            exact ⟨closed, named⟩
          have raw := Leaf.raw_reference tooltip (String.ofList key)
          rw [String.toList_ofList] at raw
          exact .piece raw (Scanned.written_ne_nil _) proper rfl (ih _)
      | @slot formula format _ balanced free formatted =>
          have proper : (Leaf.slot (String.ofList formula) (format.map String.ofList)).Proper := by
            simp only [Leaf.Proper, String.toList_ofList]
            refine ⟨balanced, free, ?_⟩
            intro spec member
            obtain ⟨inner, same, rfl⟩ := Option.map_eq_some_iff.mp member
            rw [String.toList_ofList]
            exact formatted inner same
          have raw := Leaf.raw_slot (String.ofList formula) (format.map String.ofList)
          have same : (format.map String.ofList).map String.toList = format := by simp
          rw [String.toList_ofList, same] at raw
          exact .piece raw (Scanned.written_ne_nil _) proper rfl (ih _)
      | colored proper closed => exact .colored (Scan.spends_of_closed closed) proper (ih _)

inductive Row : Nat → List Char → List Piece → Prop
  | nil (start : Nat) : Row start [] []
  | cons {piece : Piece} {written later : List Char} {pieces : List Piece}
      (spelled : piece.raw.toList = written) (nonempty : written ≠ [])
      (rest : Row (piece.start + Text.byteLength written) later pieces) :
      Row piece.start (written ++ later) (piece :: pieces)

theorem Row.tiles {start : Nat} {text : List Char} {pieces : List Piece}
    (row : Row start text pieces) :
    Tiles start (pieces.map Piece.span) (start + Text.byteLength text) := by
  induction row with
  | nil start => exact .nil start
  | @cons piece written later pieces spelled nonempty _ ih =>
      have size : piece.raw.utf8ByteSize = Text.byteLength written := by
        rw [Text.utf8ByteSize_eq, spelled]
      have positive := Text.byteLength_pos nonempty
      have filled : piece.span.start < piece.span.stop := by
        simp only [Piece.span, size]
        omega
      have behind : Tiles piece.span.stop (pieces.map Piece.span)
          (piece.start + Text.byteLength (written ++ later)) := by
        rw [Text.byteLength_append, ← Nat.add_assoc]
        simpa only [Piece.span, size] using ih
      exact .cons filled behind

theorem Row.stands {source : List Char} {start : Nat} {text : List Char} {pieces : List Piece}
    (row : Row start text pieces) (level : Text.StandsAt source start text) :
    ∀ piece ∈ pieces, Text.StandsAt source piece.start piece.raw.toList := by
  induction row with
  | nil => exact nofun
  | cons spelled _ _ ih =>
      refine List.forall_mem_cons.mpr ⟨?_, ih level.right⟩
      rw [spelled]
      exact level.left

namespace Laid

variable {budget start : Nat} {text : List Char} {phrase : Phrase}

theorem row (laid : Laid budget start text phrase) : Row start text phrase.pieces := by
  induction laid with
  | nil start => exact .nil start
  | @leaf start content _ _ nonempty _ _ _ ih =>
      exact @Row.cons (.leaf start content) _ _ _ rfl nonempty ih
  | @colored start code inner _ next spends _ rest ih =>
      have raw := Phrase.raw_colored code (String.ofList inner)
      rw [String.toList_ofList] at raw
      exact @Row.cons (.colored start code (String.ofList inner) _) _ _ _ raw
        (Scanned.written_ne_nil _) ih

theorem proper (laid : Laid budget start text phrase) :
    ∀ piece ∈ phrase.pieces, piece.Proper := by
  induction laid with
  | nil => exact nofun
  | leaf _ proper _ _ ih => exact List.forall_mem_cons.mpr ⟨proper, ih⟩
  | colored _ proper _ ih =>
      exact List.forall_mem_cons.mpr ⟨ColorCode.parse?_written proper, ih⟩

theorem separated (laid : Laid budget start text phrase) (before : List Piece)
    (first second : Piece) (after : List Piece)
    (neighbours : phrase.pieces = before ++ first :: second :: after) :
    ¬ (first.isText ∧ second.isText) := by
  induction laid generalizing before with
  | nil => cases before <;> cases neighbours
  | leaf _ _ apart _ ih =>
      cases before with
      | nil =>
          obtain ⟨rfl, behind⟩ := List.cons.inj neighbours
          rintro ⟨text, again⟩
          exact absurd again (Phrase.head_apart (apart text) behind)
      | cons _ before => exact ih before (List.cons.inj neighbours).2
  | colored _ _ _ ih =>
      cases before with
      | nil =>
          obtain ⟨rfl, _⟩ := List.cons.inj neighbours
          exact nofun
      | cons _ before => exact ih before (List.cons.inj neighbours).2

theorem stretch (laid : Laid budget start text phrase) {place : Nat} {code : ColorCode}
    {inner : String} {body : Phrase} (member : .colored place code inner body ∈ phrase.pieces) :
    ∃ outer, budget = outer + 1 ∧ body = (Reading.within outer
      (place + colorMark.utf8Size + code.written.utf8ByteSize) inner.toList).phrase := by
  induction laid with
  | nil => cases member
  | leaf _ _ _ _ ih =>
      rcases List.mem_cons.mp member with same | member
      · cases same
      · exact ih member
  | colored spends _ _ ih =>
      rcases List.mem_cons.mp member with same | member
      · cases same
        obtain ⟨outer, rfl⟩ := Nat.exists_eq_succ_of_ne_zero (Nat.ne_of_gt spends)
        exact ⟨outer, rfl, by rw [String.toList_ofList]; rfl⟩
      · exact ih member

end Laid

theorem Text.StandsAt.inside {source : List Char} {start : Nat} {code : ColorCode}
    {inner : List Char} (stands : StandsAt source start (Scanned.colored code inner).written) :
    StandsAt source (start + colorMark.utf8Size + code.written.utf8ByteSize) inner := by
  have parts : (Scanned.colored code inner).written =
      [colorMark] ++ (code.written.toList ++ (inner ++ [colorMark])) := by
    simp [Scanned.written]
  rw [parts] at stands
  have inside := stands.right.right.left
  rwa [← utf8ByteSize_eq] at inside

/-- Every level is read like a template of its own, and its text stands in the source. -/
theorem Template.Level.reading {source : String} {start : Nat} {text : String} {phrase : Phrase}
    (level : (Template.read source).Level start text phrase) :
    (∃ budget, phrase = (Reading.within budget start text.toList).phrase) ∧
      Text.StandsAt source.toList start text.toList := by
  induction level with
  | whole => exact ⟨⟨maxColorNesting, rfl⟩, .whole source.toList⟩
  | @inside start place text inner phrase body code _ stretch ih =>
      obtain ⟨⟨budget, rfl⟩, stands⟩ := ih
      have laid := laid_within budget start text.toList
      obtain ⟨outer, _, same⟩ := laid.stretch stretch
      have written := laid.row.stands stands _ stretch
      change Text.StandsAt source.toList place (Phrase.coloredRaw code inner).toList at written
      rw [Phrase.raw_colored] at written
      exact ⟨⟨outer, same⟩, written.inside⟩

theorem level_lossless {source : String} {start : Nat} {text : String} {phrase : Phrase}
    (level : (Template.read source).Level start text phrase) :
    Level.Lossless source.toList start text phrase := by
  obtain ⟨⟨budget, rfl⟩, stands⟩ := level.reading
  have laid := laid_within budget start text.toList
  refine ⟨?_, laid.separated, laid.row.stands stands, laid.proper⟩
  rw [Text.utf8ByteSize_eq]
  exact laid.row.tiles

end Phrasebook
