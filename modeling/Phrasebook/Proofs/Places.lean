import Phrasebook.Proofs.Levels

/-!
Where the issues of a template are. An issue is found on one level and counts bytes from the
beginning of the template, and the levels inside of a colored stretch are read before what is behind
the stretch: so the issues of a template stand one behind the other, each where its opening stands.
-/

namespace Phrasebook

/-- Spans one behind the other from `first` up to `last`, none of them empty, maybe with gaps. -/
inductive Spread : Nat → List Span → Nat → Prop
  | nil {first last : Nat} (room : first ≤ last) : Spread first [] last
  | cons {first last : Nat} {span : Span} {later : List Span} (behind : first ≤ span.start)
      (nonempty : span.start < span.stop) (rest : Spread span.stop later last) :
      Spread first (span :: later) last

namespace Spread

variable {first middle last : Nat} {spans later : List Span}

theorem single {span : Span} (nonempty : span.start < span.stop) :
    Spread span.start [span] span.stop :=
  .cons (Nat.le_refl _) nonempty (.nil (Nat.le_refl _))

theorem from_before (before : first ≤ middle) (spread : Spread middle spans last) :
    Spread first spans last := by
  cases spread with
  | nil room => exact .nil (Nat.le_trans before room)
  | cons behind nonempty rest => exact .cons (Nat.le_trans before behind) nonempty rest

theorem append (spread : Spread first spans middle) (rest : Spread middle later last) :
    Spread first (spans ++ later) last := by
  induction spread with
  | nil room => exact rest.from_before room
  | cons behind nonempty _ ih => exact .cons behind nonempty (ih rest)

theorem up_to (spread : Spread first spans middle) (behind : middle ≤ last) :
    Spread first spans last := by
  have whole := spread.append (.nil behind)
  rwa [List.append_nil] at whole

theorem first_le (spread : Spread first spans last) : ∀ span ∈ spans, first ≤ span.start := by
  induction spread with
  | nil => exact nofun
  | cons behind nonempty _ ih =>
      refine List.forall_mem_cons.mpr ⟨behind, fun span member => ?_⟩
      have inside := ih span member
      omega

theorem ascending (spread : Spread first spans last) :
    spans.Pairwise fun span later => span.start < later.start := by
  induction spread with
  | nil => exact .nil
  | cons _ nonempty rest ih =>
      refine .cons (fun later member => ?_) ih
      exact Nat.lt_of_lt_of_le nonempty (rest.first_le later member)

end Spread

/-- Issues one behind the other, each at an opening of the source. -/
structure Openings (source : List Char) (first : Nat) (issues : List Issue) (last : Nat) :
    Prop where
  spread : Spread first (issues.map Issue.span) last
  stands : ∀ issue ∈ issues, Text.StandsAt source issue.start [issue.opening]
  opens : ∀ issue ∈ issues, issue.opening = '{' ∨ issue.opening = colorMark

namespace Openings

variable {source : List Char} {first middle last : Nat} {issues later : List Issue}

theorem nil (room : first ≤ last) : Openings source first [] last :=
  ⟨.nil room, List.forall_mem_nil _, List.forall_mem_nil _⟩

theorem single {issue : Issue} (stands : Text.StandsAt source issue.start [issue.opening])
    (opens : issue.opening = '{' ∨ issue.opening = colorMark) :
    Openings source issue.start [issue] (issue.start + Text.byteLength [issue.opening]) := by
  have nonempty : issue.span.start < issue.span.stop :=
    Nat.lt_add_of_pos_right issue.opening.utf8Size_pos
  exact ⟨.single nonempty, List.forall_mem_singleton.mpr stands,
    List.forall_mem_singleton.mpr opens⟩

theorem append (openings : Openings source first issues middle)
    (rest : Openings source middle later last) :
    Openings source first (issues ++ later) last := by
  refine ⟨?_, List.forall_mem_append.mpr ⟨openings.stands, rest.stands⟩,
    List.forall_mem_append.mpr ⟨openings.opens, rest.opens⟩⟩
  rw [List.map_append]
  exact openings.spread.append rest.spread

theorem between (openings : Openings source middle issues last) {earlier behind : Nat}
    (before : earlier ≤ middle) (after : last ≤ behind) :
    Openings source earlier issues behind :=
  ⟨(openings.spread.from_before before).up_to after, openings.stands, openings.opens⟩

end Openings

theorem Scanned.inside_le (start : Nat) (code : ColorCode) (inner : List Char) :
    start + colorMark.utf8Size + code.written.utf8ByteSize + Text.byteLength inner ≤
      start + Text.byteLength (Scanned.colored code inner).written := by
  simp only [Scanned.written, Text.byteLength_append, Text.byteLength_cons, Text.utf8ByteSize_eq]
  omega

theorem openings_assemble {source : List Char} {budget : Nat}
    (inside : ∀ start text, Text.StandsAt source start text →
      Openings source start (Reading.inside budget start text).issues
        (start + Text.byteLength text))
    (start : Nat) (text : List Char) (stands : Text.StandsAt source start text) :
    Openings source start
      (Reading.assemble (Reading.inside budget) start (scan budget text)).issues
      (start + Text.byteLength text) := by
  induction text using @Scan.induction budget generalizing start with
  | nil =>
      rw [scan_nil]
      exact .nil (Nat.le_refl _)
  | step text piece rest takes scanned ih =>
      have written := takes.written
      rw [written] at stands
      rw [scanned, written, Text.byteLength_append, ← Nat.add_assoc]
      have behind := ih _ stands.right
      cases takes with
      | plain => exact behind.between (Nat.le_add_right start _) (Nat.le_refl _)
      | escaped => exact behind.between (Nat.le_add_right start _) (Nat.le_refl _)
      | reference => exact behind.between (Nat.le_add_right start _) (Nat.le_refl _)
      | slot => exact behind.between (Nat.le_add_right start _) (Nat.le_refl _)
      | strayBrace =>
          exact .append (@Openings.single _ ⟨_, '{', start⟩ stands.left (.inl rfl)) behind
      | strayMark =>
          exact .append (@Openings.single _ ⟨_, colorMark, start⟩ stands.left (.inr rfl)) behind
      | @colored code inner =>
          have body := inside _ inner stands.left.inside
          have before : start ≤ start + colorMark.utf8Size + code.written.utf8ByteSize := by omega
          exact .append (body.between before (Scanned.inside_le start code inner)) behind

theorem openings_within {source : List Char} (budget start : Nat) (text : List Char)
    (stands : Text.StandsAt source start text) :
    Openings source start (Reading.within budget start text).issues
      (start + Text.byteLength text) := by
  induction budget generalizing start text with
  | zero =>
      rw [Reading.within_eq]
      exact openings_assemble (fun _ _ _ => .nil (Nat.le_add_right _ _)) start text stands
  | succ budget ih =>
      rw [Reading.within_eq]
      exact openings_assemble ih start text stands

end Phrasebook
