import Phrasebook.Proofs.Escapes
import Phrasebook.Proofs.Markup
import Phrasebook.Proofs.Places

/-!
Recovery from constructs that do not close. An opening becomes text only where nothing closes it on
its level, and each opening that is kept has one issue of its own: so issues and kept openings of a
template are in one order.
-/

namespace Phrasebook

def Phrase.TextAt (phrase : Phrase) (place : Nat) : Prop :=
  ∃ start raw content, .leaf start (.text raw content) ∈ phrase.pieces ∧
    start ≤ place ∧ place < start + raw.utf8ByteSize

/-- The levels of a template with the number of stretches around them. -/
inductive Template.Nested (template : Template) : Nat → Nat → String → Phrase → Prop
  | whole : Nested template 0 0 template.source template.phrase
  | inside {nesting start place : Nat} {text inner : String} {phrase body : Phrase}
      {code : ColorCode} (outer : Nested template nesting start text phrase)
      (stretch : .colored place code inner body ∈ phrase.pieces) :
      Nested template (nesting + 1)
        (place + colorMark.utf8Size + code.written.utf8ByteSize) inner body

theorem Row.head {start : Nat} {text : List Char} {piece : Piece} {pieces : List Piece}
    (row : Row start text (piece :: pieces)) : piece.start = start := by
  generalize listed : piece :: pieces = all at row
  cases row with
  | nil => cases listed
  | cons =>
      obtain ⟨rfl, _⟩ := List.cons.inj listed
      rfl

theorem Row.first_le {start : Nat} {text : List Char} {pieces : List Piece}
    (row : Row start text pieces) : ∀ piece ∈ pieces, start ≤ piece.start := by
  induction row with
  | nil => exact nofun
  | cons _ _ _ ih =>
      refine List.forall_mem_cons.mpr ⟨Nat.le_refl _, fun piece member => ?_⟩
      exact Nat.le_trans (Nat.le_add_right _ _) (ih piece member)

namespace Phrase

variable {start place : Nat} {written content : String} {phrase : Phrase} {behind : List Char}

theorem textAt_text {first : Nat} {raw : String} {next : Phrase} :
    (leaf first (.text raw content) next).TextAt place ↔
      (first ≤ place ∧ place < first + raw.utf8ByteSize) ∨ next.TextAt place := by
  constructor
  · rintro ⟨start, text, meant, member, after, before⟩
    obtain same | member := List.mem_cons.mp member
    · cases same
      exact .inl ⟨after, before⟩
    · exact .inr ⟨start, text, meant, member, after, before⟩
  · rintro (⟨after, before⟩ | ⟨start, text, meant, member, inside⟩)
    · exact ⟨first, raw, content, List.mem_cons_self, after, before⟩
    · exact ⟨start, text, meant, List.mem_cons_of_mem _ member, inside⟩

theorem textAt_prependText {chars : List Char} (spelled : written.toList = chars)
    (row : Row (start + Text.byteLength chars) behind phrase.pieces) :
    (phrase.prependText start written content).TextAt place ↔
      (start ≤ place ∧ place < start + Text.byteLength chars) ∨ phrase.TextAt place := by
  subst spelled
  rw [← Text.utf8ByteSize_eq] at row ⊢
  fun_cases Phrase.prependText start written content phrase with
  | case1 first later meant next =>
      obtain rfl := row.head
      rw [textAt_text, textAt_text, String.utf8ByteSize_append, ← or_assoc]
      refine or_congr_left ?_
      omega
  | case2 phrase distinct => exact textAt_text

theorem colored_mem_prependText {code : ColorCode} {inner : String} {body : Phrase} :
    .colored place code inner body ∈ (phrase.prependText start written content).pieces ↔
      .colored place code inner body ∈ phrase.pieces := by
  fun_cases Phrase.prependText start written content phrase <;> simp [pieces]

end Phrase

namespace Scan

/-- Reading of a level comes to byte `place` and takes that piece there. -/
inductive Arrives (budget : Nat) : Nat → List Char → Nat → Scanned → List Char → Prop
  | here {start : Nat} {text rest : List Char} {piece : Scanned}
      (takes : Takes budget text piece rest)
      (scanned : scan budget text = piece :: scan budget rest) :
      Arrives budget start text start piece rest
  | later {start place : Nat} {text rest after : List Char} {first piece : Scanned}
      (takes : Takes budget text first rest)
      (scanned : scan budget text = first :: scan budget rest)
      (arrives : Arrives budget (start + Text.byteLength first.written) rest place piece after) :
      Arrives budget start text place piece after

variable {budget start place : Nat} {text rest : List Char} {piece : Scanned}

theorem Arrives.takes (arrives : Arrives budget start text place piece rest) :
    Takes budget (piece.written ++ rest) piece rest := by
  induction arrives with
  | here takes _ =>
      rw [← takes.written]
      exact takes
  | later _ _ _ ih => exact ih

theorem Takes.of_plain {c : Char} (takes : Takes budget text (.plain c) rest) :
    (c = '$' → '$' ∉ rest) ∧ c ≠ '{' ∧ (c = colorMark → ColorCode.read? rest = none) := by
  cases takes with
  | plain _ unpaired brace uncoded => exact ⟨unpaired, brace, uncoded⟩

theorem Takes.of_stray {c : Char} {kind : IssueKind}
    (takes : Takes budget text (.stray c kind) rest) :
    (c = '{' ∧ kind = .unbalancedBraces ∧ splitBrace? 0 rest = none) ∨
      c = colorMark ∧ ∃ code body, ColorCode.read? rest = some (code, body) ∧
        (closeColor budget body = .tooDeep ∧ kind = .colorTooDeep ∨
          closeColor budget body = .missing ∧ kind = .unclosedColor) := by
  cases takes with
  | strayBrace unclosed => exact .inl ⟨rfl, rfl, unclosed⟩
  | strayMark coded failed => exact .inr ⟨rfl, _, _, coded, failed⟩

theorem Takes.stray_ne {c : Char} {kind : IssueKind}
    (takes : Takes budget text (.stray c kind) rest) : c ≠ '\\' := by
  cases takes <;> decide

/-- A step never ends between a backslash and the character that it hides. -/
theorem Takes.whole (takes : Takes budget text piece rest) :
    rest = [] ∨ ¬ Text.Hides piece.written := by
  cases takes with
  | @plain c _ lone _ _ _ =>
      by_cases backslash : c = '\\'
      · exact .inl (lone backslash)
      · exact .inr (Text.not_hides_append [] backslash)
  | escaped c rest => exact .inr id
  | strayBrace => exact .inr (Text.not_hides_append [] (by decide))
  | strayMark => exact .inr (Text.not_hides_append [] (by decide))
  | @reference tooltip key =>
      have ends : '$' ≠ '\\' := by decide
      cases tooltip with
      | false => exact .inr (Text.not_hides_append ('$' :: key) ends)
      | true => exact .inr (Text.not_hides_append ('$' :: '@' :: key) ends)
  | @slot formula format =>
      have ends : '}' ≠ '\\' := by decide
      cases format with
      | none => exact .inr (Text.not_hides_append ('{' :: formula) ends)
      | some format => exact .inr (Text.not_hides_append ('{' :: formula ++ ':' :: format) ends)
  | @colored code inner =>
      have ends : colorMark ≠ '\\' := by decide
      exact .inr (Text.not_hides_append (colorMark :: code.written.toList ++ inner) ends)

theorem Takes.exposed (takes : Takes budget text piece rest) (start : Nat) :
    Text.exposed start text = Text.exposed start piece.written ++
      Text.exposed (start + Text.byteLength piece.written) rest := by
  rw [takes.written]
  obtain rfl | whole := takes.whole
  · simp [Text.exposed]
  · exact Text.exposed_append start rest whole

theorem Arrives.split (arrives : Arrives budget start text place piece rest) :
    ∃ before, text = before ++ (piece.written ++ rest) ∧
      place = start + Text.byteLength before ∧
      ∀ later c, place ≤ later →
        ((later, c) ∈ Text.exposed start text ↔
          (later, c) ∈ Text.exposed place (piece.written ++ rest)) := by
  induction arrives with
  | here takes _ =>
      rw [← takes.written]
      exact ⟨[], rfl, rfl, fun _ _ _ => .rfl⟩
  | @later start place text next after first piece takes _ _ ih =>
      obtain ⟨before, whole, reaches, same⟩ := ih
      refine ⟨first.written ++ before, ?_, ?_, fun later c behind => ?_⟩
      · rw [List.append_assoc, ← whole, ← takes.written]
      · rw [reaches, Text.byteLength_append, Nat.add_assoc]
      · rw [takes.exposed, List.mem_append, ← same later c behind]
        refine or_iff_right fun inside => ?_
        have bound := (Text.exposed_within inside).2
        omega

end Scan

namespace Scanned

def isText : Scanned → Bool
  | plain _ => true
  | escaped _ => true
  | stray _ _ => true
  | _ => false

theorem exposed_text {piece : Scanned} {start place : Nat} {c : Char} (text : piece.isText)
    (exposed : (place, c) ∈ Text.exposed start piece.written) :
    place = start ∧ (piece = .plain c ∨ ∃ kind, piece = .stray c kind) := by
  have alone : ∀ d, (place, c) ∈ Text.exposed start [d] → place = start ∧ c = d := by
    intro d member
    by_cases backslash : d = '\\'
    · subst backslash
      cases member
    · rw [Text.exposed_plain _ _ backslash] at member
      exact Prod.mk.inj (List.mem_singleton.mp member)
  cases piece with
  | plain d =>
      obtain ⟨rfl, rfl⟩ := alone d exposed
      exact ⟨rfl, .inl rfl⟩
  | stray d kind =>
      obtain ⟨rfl, rfl⟩ := alone d exposed
      exact ⟨rfl, .inr ⟨kind, rfl⟩⟩
  | escaped => cases exposed
  | reference => cases text
  | slot => cases text
  | colored => cases text

def issues (budget start : Nat) : Scanned → List Issue
  | stray c kind => [⟨kind, c, start⟩]
  | colored code inner =>
      (Reading.inside budget (start + colorMark.utf8Size + code.written.utf8ByteSize) inner).issues
  | _ => []

def stretch? (budget start : Nat) : Scanned → Option Piece
  | colored code inner =>
      some (.colored start code (String.ofList inner)
        (Reading.inside budget (start + colorMark.utf8Size + code.written.utf8ByteSize)
          inner).phrase)
  | _ => none

end Scanned

section Level

variable {budget start place : Nat} {text rest : List Char} {piece : Scanned}

theorem issues_step (scanned : scan budget text = piece :: scan budget rest) :
    (Reading.within budget start text).issues = piece.issues budget start ++
      (Reading.within budget (start + Text.byteLength piece.written) rest).issues := by
  rw [Reading.within_eq, scanned, Reading.within_eq]
  cases piece <;> rfl

theorem textAt_step (scanned : scan budget text = piece :: scan budget rest) :
    (Reading.within budget start text).phrase.TextAt place ↔
      (piece.isText ∧ start ≤ place ∧ place < start + Text.byteLength piece.written) ∨
        (Reading.within budget (start + Text.byteLength piece.written) rest).phrase.TextAt
          place := by
  have row := (laid_within budget (start + Text.byteLength piece.written) rest).row
  rw [Reading.within_eq] at row
  rw [Reading.within_eq, scanned, Reading.within_eq]
  cases piece with
  | plain c =>
      have spelled : c.toString.toList = (Scanned.plain c).written := by simp [Scanned.written]
      exact (Phrase.textAt_prependText spelled row).trans (by simp [Scanned.isText])
  | escaped c =>
      exact (Phrase.textAt_prependText String.toList_ofList row).trans (by simp [Scanned.isText])
  | stray c kind =>
      have spelled : c.toString.toList = (Scanned.stray c kind).written := by simp [Scanned.written]
      exact (Phrase.textAt_prependText spelled row).trans (by simp [Scanned.isText])
  | reference => simp [Reading.assemble, Phrase.TextAt, Phrase.pieces, Scanned.isText]
  | slot => simp [Reading.assemble, Phrase.TextAt, Phrase.pieces, Scanned.isText]
  | colored => simp [Reading.assemble, Phrase.TextAt, Phrase.pieces, Scanned.isText]

theorem colored_step (scanned : scan budget text = piece :: scan budget rest) {code : ColorCode}
    {inner : String} {body : Phrase} :
    .colored place code inner body ∈ (Reading.within budget start text).phrase.pieces ↔
      piece.stretch? budget start = some (.colored place code inner body) ∨
        .colored place code inner body ∈ (Reading.within budget
          (start + Text.byteLength piece.written) rest).phrase.pieces := by
  rw [Reading.within_eq, scanned, Reading.within_eq]
  cases piece with
  | plain c => simp [Reading.assemble, Phrase.colored_mem_prependText, Scanned.stretch?]
  | escaped c => simp [Reading.assemble, Phrase.colored_mem_prependText, Scanned.stretch?]
  | stray c kind => simp [Reading.assemble, Phrase.colored_mem_prependText, Scanned.stretch?]
  | reference => simp [Reading.assemble, Phrase.pieces, Scanned.stretch?]
  | slot => simp [Reading.assemble, Phrase.pieces, Scanned.stretch?]
  | colored => simp [Reading.assemble, Phrase.pieces, Scanned.stretch?, eq_comm]

theorem textAt_from (inText : (Reading.within budget start text).phrase.TextAt place) :
    start ≤ place := by
  obtain ⟨first, raw, meant, member, after, _⟩ := inText
  exact Nat.le_trans ((laid_within budget start text).row.first_le _ member) after

theorem arrives_of_textAt {c : Char} (exposed : (place, c) ∈ Text.exposed start text)
    (inText : (Reading.within budget start text).phrase.TextAt place) :
    ∃ piece rest, Scan.Arrives budget start text place piece rest ∧
      (piece = .plain c ∨ ∃ kind, piece = .stray c kind) := by
  induction text using @Scan.induction budget generalizing start with
  | nil => cases exposed
  | step text piece rest takes scanned ih =>
      rw [takes.exposed, List.mem_append] at exposed
      rw [textAt_step scanned] at inText
      obtain here | behind := exposed
      · have bound := (Text.exposed_within here).2
        obtain ⟨text, _⟩ | later := inText
        · obtain ⟨rfl, single⟩ := Scanned.exposed_text text here
          exact ⟨piece, rest, .here takes scanned, single⟩
        · exact absurd (textAt_from later) (by omega)
      · have bound := (Text.exposed_within behind).1
        obtain ⟨_, _, before⟩ | later := inText
        · omega
        · obtain ⟨piece, after, arrives, single⟩ := ih behind later
          exact ⟨piece, after, .later takes scanned arrives, single⟩

theorem stray_exposed {c : Char} {kind : IssueKind}
    (arrives : Scan.Arrives budget start text place (.stray c kind) rest) :
    (place, c) ∈ Text.exposed start text ∧
      (Reading.within budget start text).phrase.TextAt place ∧
      ⟨kind, c, place⟩ ∈ (Reading.within budget start text).issues := by
  generalize same : Scanned.stray c kind = piece at arrives
  induction arrives with
  | here takes scanned =>
      subst same
      rw [takes.exposed, textAt_step scanned, issues_step scanned]
      have unlike := takes.stray_ne
      refine ⟨List.mem_append_left _ ?_, .inl ⟨rfl, Nat.le_refl _, ?_⟩, List.mem_cons_self⟩
      · rw [Scanned.written, Text.exposed_plain _ _ unlike]
        exact List.mem_cons_self
      · exact Nat.lt_add_of_pos_right (Text.byteLength_pos (Scanned.written_ne_nil _))
  | later takes scanned _ ih =>
      obtain ⟨exposed, inText, listed⟩ := ih same
      rw [takes.exposed, textAt_step scanned, issues_step scanned]
      exact ⟨List.mem_append_right _ exposed, .inr inText, List.mem_append_right _ listed⟩

theorem issue_arises {issue : Issue} (listed : issue ∈ (Reading.within budget start text).issues) :
    (∃ rest, Scan.Arrives budget start text issue.start (.stray issue.opening issue.kind) rest) ∨
      ∃ first code inner, .colored first code inner (Reading.inside budget
            (first + colorMark.utf8Size + code.written.utf8ByteSize) inner.toList).phrase ∈
          (Reading.within budget start text).phrase.pieces ∧
        issue ∈ (Reading.inside budget
            (first + colorMark.utf8Size + code.written.utf8ByteSize) inner.toList).issues := by
  -- An issue is that of an opening on the level, or of a level inside.
  induction text using @Scan.induction budget generalizing start with
  | nil =>
      rw [Reading.within_nil] at listed
      cases listed
  | step text piece rest takes scanned ih =>
      rw [issues_step scanned, List.mem_append] at listed
      obtain here | behind := listed
      · cases piece with
        | plain => cases here
        | escaped => cases here
        | stray c kind =>
            obtain rfl := List.mem_singleton.mp here
            exact .inl ⟨rest, .here takes scanned⟩
        | reference => cases here
        | slot => cases here
        | colored code inner =>
            refine .inr ⟨start, code, String.ofList inner, ?_, ?_⟩
            · rw [colored_step scanned, String.toList_ofList]
              exact .inl rfl
            · rwa [String.toList_ofList]
      · obtain ⟨after, arrives⟩ | ⟨first, code, inner, member, inside⟩ := ih behind
        · exact .inl ⟨after, .later takes scanned arrives⟩
        · exact .inr ⟨first, code, inner, (colored_step scanned).mpr (.inr member), inside⟩

theorem stretch_reads {code : ColorCode} {inner : String} {body : Phrase}
    (stretch : .colored place code inner body ∈ (Reading.within budget start text).phrase.pieces) :
    let reading := Reading.inside budget
      (place + colorMark.utf8Size + code.written.utf8ByteSize) inner.toList
    0 < budget ∧ body = reading.phrase ∧
      reading.issues ⊆ (Reading.within budget start text).issues := by
  -- The inside of a stretch is read with one stretch less to spend, and its issues are issues of
  -- the level around it.
  induction text using @Scan.induction budget generalizing start with
  | nil =>
      rw [Reading.within_nil] at stretch
      cases stretch
  | step text piece rest takes scanned ih =>
      rw [issues_step scanned]
      obtain here | behind := (colored_step scanned).mp stretch
      · cases takes with
        | @colored found content _ proper closed =>
            obtain ⟨rfl, rfl, rfl, rfl⟩ := Piece.colored.inj (Option.some.inj here)
            rw [String.toList_ofList]
            exact ⟨Scan.spends_of_closed closed, rfl, List.subset_append_left _ _⟩
        | plain => cases here
        | escaped => cases here
        | strayBrace => cases here
        | strayMark => cases here
        | reference => cases here
        | slot => cases here
      · obtain ⟨spends, same, included⟩ := ih behind
        exact ⟨spends, same, List.Subset.trans included (List.subset_append_right _ _)⟩

end Level

open Braces in
/-- Why an opening at byte `place` of a level does not open anything, from what follows it. -/
inductive Level.Fails (nesting start : Nat) (text : List Char) (place : Nat) :
    IssueKind → Char → List Char → Prop
  | unbalanced {after : List Char}
      (unclosed : ∀ inner rest, after = inner ++ '}' :: rest → ¬ Balanced inner) :
      Fails nesting start text place .unbalancedBraces '{' after
  | unclosed {after body : List Char} {code : ColorCode}
      (coded : ColorCode.read? after = some (code, body)) (shallow : nesting < maxColorNesting)
      (last : ∀ later, (later, colorMark) ∈ Text.exposed start text → later ≤ place) :
      Fails nesting start text place .unclosedColor colorMark after
  | tooDeep {after body : List Char} {code : ColorCode}
      (coded : ColorCode.read? after = some (code, body))
      (exceeds : Scan.Exceeds (maxColorNesting - nesting) 1 (Scan.marks body)) :
      Fails nesting start text place .colorTooDeep colorMark after

/-- The marks behind a color code are the marks of the level behind the opening. -/
theorem marks_of_arrives {budget start place : Nat} {text rest body : List Char} {code : ColorCode}
    {kind : IssueKind} (arrives : Scan.Arrives budget start text place (.stray colorMark kind) rest)
    (coded : ColorCode.read? rest = some (code, body)) :
    Scan.marks body = [] ↔
      ∀ later, (later, colorMark) ∈ Text.exposed start text → later ≤ place := by
  obtain ⟨_, _, _, same⟩ := arrives.split
  have plain := ColorCode.ordinary_written (ColorCode.proper_of_read? coded)
  have unmarked : ∀ later, (later, colorMark) ∉
      Text.exposed (place + colorMark.utf8Size) code.written.toList := by
    intro later member
    obtain ⟨before, after, whole, _⟩ := Text.exposed_place member
    exact (plain colorMark (by simp [whole])).2 rfl
  let bodyStart := place + colorMark.utf8Size + Text.byteLength code.written.toList
  have behind : ∀ later, (later, colorMark) ∈ Text.exposed place (colorMark :: rest) ↔
      later = place ∨ (later, colorMark) ∈ Text.exposed bodyStart body := by
    intro later
    have ordinary := Text.not_hides_of_plain fun c member => (plain c member).1
    rw [Text.exposed_plain _ _ (by decide), ColorCode.read?_written coded,
      Text.exposed_append _ _ ordinary, List.mem_cons, List.mem_append]
    simp [unmarked later, bodyStart]
  rw [Scan.marks_eq_nil_iff bodyStart]
  constructor
  · intro absent later member
    refine Nat.le_of_not_lt fun behindPlace => ?_
    obtain rfl | inside := (behind later).mp ((same later _ (Nat.le_of_lt behindPlace)).mp member)
    · exact Nat.lt_irrefl _ behindPlace
    · exact absent later inside
  · intro last later member
    have bound := (Text.exposed_within member).1
    have positive := colorMark.utf8Size_pos
    have listed := (same later colorMark (by omega)).mpr ((behind later).mpr (.inr member))
    have before := last later listed
    omega

theorem Level.fails_of_arrives {nesting start place : Nat} {text rest : List Char} {c : Char}
    {kind : IssueKind} (arrives :
      Scan.Arrives (maxColorNesting - nesting) start text place (.stray c kind) rest) :
    Fails nesting start text place kind c rest := by
  obtain ⟨rfl, rfl, unclosed⟩ | ⟨rfl, code, body, coded, failed⟩ := arrives.takes.of_stray
  · refine .unbalanced fun inner after whole balanced => ?_
    have found := (Braces.splitBrace?_eq_some_iff 0 rest inner after).mpr ⟨whole, balanced⟩
    rw [unclosed] at found
    cases found
  · obtain ⟨deep, rfl⟩ | ⟨missing, rfl⟩ := failed
    · exact .tooDeep coded ((Scan.closeColor_tooDeep_iff _ _).mp deep)
    · obtain ⟨spends, unmarked⟩ := (Scan.closeColor_missing_iff _ _).mp missing
      exact .unclosed coded (by omega) ((marks_of_arrives arrives coded).mp unmarked)

namespace Template

variable {source text : String} {nesting start place : Nat} {phrase : Phrase}

theorem Nested.reading (level : (read source).Nested nesting start text phrase) :
    nesting ≤ maxColorNesting ∧
      phrase = (Reading.within (maxColorNesting - nesting) start text.toList).phrase ∧
      (Reading.within (maxColorNesting - nesting) start text.toList).issues ⊆
        (read source).issues := by
  induction level with
  | whole => exact ⟨Nat.zero_le _, rfl, List.Subset.refl _⟩
  | @inside nesting start place text inner phrase body code _ stretch ih =>
      obtain ⟨_, rfl, included⟩ := ih
      obtain ⟨spends, same, inside⟩ := stretch_reads stretch
      have less : maxColorNesting - nesting = maxColorNesting - (nesting + 1) + 1 := by omega
      rw [less] at same inside
      exact ⟨by omega, same, List.Subset.trans inside (less ▸ included)⟩

theorem issue_origin {issue : Issue} (level : (read source).Nested nesting start text phrase)
    (listed : issue ∈
      (Reading.within (maxColorNesting - nesting) start text.toList).issues) :
    ∃ nesting start text phrase rest, (read source).Nested nesting start text phrase ∧
      Scan.Arrives (maxColorNesting - nesting) start text.toList issue.start
        (.stray issue.opening issue.kind) rest := by
  induction left : maxColorNesting - nesting generalizing nesting start text phrase with
  | zero =>
      rw [left] at listed
      obtain ⟨rest, arrives⟩ | ⟨_, _, _, _, inside⟩ := issue_arises listed
      · exact ⟨nesting, start, text, phrase, rest, level, left ▸ arrives⟩
      · cases inside
  | succ budget ih =>
      obtain ⟨_, same, _⟩ := level.reading
      rw [left] at listed same
      obtain ⟨rest, arrives⟩ | ⟨first, code, inner, stretch, inside⟩ := issue_arises listed
      · exact ⟨nesting, start, text, phrase, rest, level, left ▸ arrives⟩
      · have less : maxColorNesting - (nesting + 1) = budget := by omega
        have deeper : (read source).Nested (nesting + 1) _ inner _ :=
          level.inside (same ▸ stretch)
        exact ih deeper (less ▸ inside) less

theorem issues_ascending (source : String) :
    (read source).issues.Pairwise fun issue later => issue.start < later.start := by
  have openings := openings_within maxColorNesting 0 source.toList (.whole source.toList)
  exact (List.pairwise_map.mp openings.spread.ascending).imp id

theorem issues_alone {issues : List Issue} {issue : Issue}
    (ascending : issues.Pairwise fun issue later => issue.start < later.start)
    (member : issue ∈ issues) :
    issues.filter (fun other => other.start = issue.start) = [issue] := by
  induction ascending with
  | nil => cases member
  | @cons first later before _ ih =>
      obtain rfl | member := List.mem_cons.mp member
      · have none : later.filter (fun other => other.start = issue.start) = [] :=
          List.filter_eq_nil_iff.mpr fun other listed => by
            simpa using Nat.ne_of_gt (before other listed)
        rw [List.filter_cons_of_pos (by simp), none]
      · have behind := before issue member
        rw [List.filter_cons_of_neg (by simpa using Nat.ne_of_lt behind), ih member]

/-- Recovery is exact. On every level a character of a text that stands for itself is a dollar sign
only where no other follows, and an opening only where it fails, and then it has its issue. Every
issue is that of such an opening, and issues stand in the order of the template. -/
theorem recovery_exact (source : String) :
    (∀ nesting start text phrase, (read source).Nested nesting start text phrase →
      ∀ before c after, text.toList = before ++ c :: after →
        let place := start + Text.byteLength before
        (place, c) ∈ Text.exposed start text.toList → phrase.TextAt place →
          (c = '$' → '$' ∉ after) ∧
            (c = '{' ∨ c = colorMark ∧ (ColorCode.read? after).isSome →
              ∃ kind, Level.Fails nesting start text.toList place kind c after ∧
                (read source).issues.filter (fun issue => issue.start = place) =
                  [⟨kind, c, place⟩])) ∧
      (∀ issue ∈ (read source).issues, ∃ nesting start text phrase before after,
        (read source).Nested nesting start text phrase ∧
          text.toList = before ++ issue.opening :: after ∧
          issue.start = start + Text.byteLength before ∧
          (issue.start, issue.opening) ∈ Text.exposed start text.toList ∧
          phrase.TextAt issue.start ∧
          Level.Fails nesting start text.toList issue.start issue.kind issue.opening after) ∧
      (read source).issues.Pairwise fun issue later => issue.start < later.start := by
  have ascending := issues_ascending source
  refine ⟨?_, ?_, ascending⟩
  · intro nesting start text phrase level before c after whole place exposed inText
    obtain ⟨_, rfl, included⟩ := level.reading
    obtain ⟨piece, rest, arrives, single⟩ := arrives_of_textAt exposed inText
    obtain ⟨front, split, reaches, _⟩ := arrives.split
    have written : piece.written = [c] := by
      obtain rfl | ⟨kind, rfl⟩ := single <;> rfl
    rw [written, whole] at split
    obtain ⟨_, same⟩ := Text.split_unique split (Nat.add_left_cancel reaches)
    obtain rfl : after = rest := List.tail_eq_of_cons_eq same
    obtain rfl | ⟨kind, rfl⟩ := single
    · obtain ⟨unpaired, brace, uncoded⟩ := arrives.takes.of_plain
      refine ⟨unpaired, fun opening => ?_⟩
      obtain same | ⟨same, coded⟩ := opening
      · exact absurd same brace
      · rw [uncoded same] at coded
        cases coded
    · refine ⟨?_, fun _ => ⟨kind, Level.fails_of_arrives arrives, ?_⟩⟩
      · rintro rfl
        obtain ⟨same, _⟩ | ⟨same, _⟩ := arrives.takes.of_stray
        · exact absurd same (by decide)
        · exact absurd same (by decide)
      · exact issues_alone ascending (included (stray_exposed arrives).2.2)
  · intro issue listed
    obtain ⟨nesting, start, text, phrase, rest, level, arrives⟩ := issue_origin .whole listed
    obtain ⟨_, rfl, _⟩ := level.reading
    obtain ⟨before, split, reaches, _⟩ := arrives.split
    obtain ⟨exposed, inText, _⟩ := stray_exposed arrives
    exact ⟨nesting, start, text, _, before, rest, level, split, reaches, exposed, inText,
      Level.fails_of_arrives arrives⟩

example : (read "§Ra\x7bb$c").issues = [⟨.unclosedColor, '§', 0⟩, ⟨.unbalancedBraces, '{', 4⟩] := by
  decide +kernel

end Template

end Phrasebook
