import Phrasebook.Proofs.BareVariables
import Phrasebook.Proofs.Checks
import Phrasebook.Proofs.Figures
import Phrasebook.Proofs.Keyrings
import Phrasebook.Proofs.Violations

/-!
Summaries of renderings. The summary has one line for each diagnostic unless a message breaks the
line. Nothing that a rendering says itself does, and neither does a name, a number or a character
that it quotes; but the text of a reference to no key is quoted as it stands, and so is what a
source or a format says when it breaks down.
-/

namespace Phrasebook

def OneLine (text : String) : Prop := '\n' ∉ text.toList

instance : DecidablePred OneLine := fun text =>
  inferInstanceAs (Decidable ('\n' ∉ text.toList))

theorem oneLine_append_iff {first second : String} :
    OneLine (first ++ second) ↔ OneLine first ∧ OneLine second := by
  simp [OneLine, not_or]

theorem solid_toDigits {base : Nat} (several : 1 < base) (number : Nat) :
    '\n' ∉ Nat.toDigits base number := by
  have digit (value : Nat) : '\n' ≠ value.digitChar := (Nat.digitChar_ne '\n' rfl).symm
  induction number using Nat.strong_induction_on with
  | _ number ih =>
      rw [Nat.toDigits_eq_if several]
      split
      · exact List.mem_singleton.not.mpr (digit number)
      · rename_i large
        have smaller : number / base < number := Nat.div_lt_self (by omega) several
        exact List.not_mem_append (ih _ smaller) (List.mem_singleton.not.mpr (digit _))

theorem oneLine_nat (number : Nat) : OneLine (toString number) := by
  rw [OneLine, Nat.toString_eq_repr, Nat.toList_repr]
  exact solid_toDigits (by decide) number

theorem oneLine_plain (number : Float) : OneLine (Decimal.plain number) :=
  (Decimal.figures_plain number).not_mem rfl

theorem oneLine_char {c : Char} (other : c ≠ '\n') : OneLine (toString c) := by
  change '\n' ∉ c.toString.toList
  simp [Ne.symm other]

theorem oneLine_ofList {text : List Char} (solid : '\n' ∉ text) : OneLine (String.ofList text) := by
  rwa [OneLine, String.toList_ofList]

theorem oneLine_intercalate {separator : String} {texts : List String}
    (joins : OneLine separator) (each : ∀ text ∈ texts, OneLine text) :
    OneLine (separator.intercalate texts) := by
  induction texts with
  | nil => exact List.not_mem_nil
  | cons first later ih =>
      obtain ⟨here, behind⟩ := List.forall_mem_cons.mp each
      cases later with
      | nil => rwa [String.intercalate_singleton]
      | cons second others =>
          rw [String.intercalate_cons_cons, oneLine_append_iff, oneLine_append_iff]
          exact ⟨⟨here, joins⟩, ih behind⟩

theorem Formula.IsName.oneLine {name : List Char} (named : IsName name) :
    OneLine (String.ofList name) :=
  oneLine_ofList fun broken => absurd (named.isNameChar _ broken) (by decide)

theorem Key.Valid.oneLine {key : Key} (valid : key.Valid) : OneLine key.text := by
  intro broken
  have inside := Key.isKeyChar_of_parse valid.parse_text broken
  cases inside

namespace Formula

def Named : Formula → Prop
  | number _ => True
  | var asked => OneLine asked.name
  | binary _ lhs rhs => lhs.Named ∧ rhs.Named

theorem Fits.named_formula {tiers : List (List BinaryOp)} {spelling : Spelling} {formula : Formula}
    (fits : Fits tiers spelling) (read : spelling.Means formula) : formula.Named := by
  induction fits generalizing formula with
  | numeral valid =>
      cases read
      trivial
  | var named closed =>
      cases read <;> exact named.oneLine
  | group _ _ _ ih => exact ih (Spelling.means_group_iff.mp read)
  | operand _ ih => exact ih read
  | chain _ _ _ _ _ ihLhs ihRhs =>
      obtain ⟨left, right, readLeft, readRight, rfl⟩ := Spelling.means_chain_iff.mp read
      exact ⟨ihLhs readLeft, ihRhs readRight⟩

theorem named_of_parse {text : String} {formula : Formula} (parsed : parse text = .ok formula) :
    formula.Named := by
  unfold parse at parsed
  split at parsed
  · cases parsed
  · obtain ⟨spelling, ⟨fits, _⟩, read⟩ := parseList_sound parsed
    exact fits.named_formula read

end Formula

theorem Variable.oneLine_of_bare {text : String} {var : Variable}
    (bare : Variable.parseBare? text = some var) : OneLine var.name := by
  obtain ⟨name, params, named, _, _, rfl⟩ :=
    (Variable.read?_whole_iff _ var).mp ((Variable.parseBare?_eq_some_iff text var).mp bare)
  exact named.oneLine

theorem FormulaFault.oneLine_unexpectedChar (column : Nat) {c : Char} (other : c ≠ '\n') :
    OneLine (unexpectedChar column c).message := by
  unfold message
  simp only [oneLine_append_iff]
  exact ⟨⟨⟨⟨by decide, oneLine_nat column⟩, by decide⟩, oneLine_char other⟩, by decide⟩

theorem FormulaFault.oneLine_malformed (column : Nat) : OneLine (malformed column).message := by
  unfold message
  simp only [oneLine_append_iff]
  exact ⟨⟨⟨by decide, oneLine_nat column⟩, by decide⟩, by decide⟩

theorem FormulaFault.oneLine_unresolved {name : String} (named : OneLine name) :
    OneLine (unresolved name).message := by
  unfold message
  simp only [oneLine_append_iff]
  exact ⟨⟨by decide, named⟩, by decide⟩

theorem FormulaFault.oneLine_brokenDown {name said : String} (named : OneLine name)
    (clear : OneLine said) : OneLine (brokenDown name said).message := by
  unfold message
  simp only [oneLine_append_iff]
  exact ⟨⟨⟨by decide, named⟩, by decide⟩, clear⟩

theorem FormulaFault.oneLine_parse {text : String} {fault : FormulaFault}
    (refused : Formula.parse text = .error fault) : OneLine fault.message := by
  unfold Formula.parse Formula.parseList at refused
  split at refused
  · cases refused
    decide
  · split at refused
    · cases refused
      exact oneLine_malformed _
    · rename_i rest _
      split at refused
      · cases refused
      · rename_i c cs left
        cases refused
        refine oneLine_unexpectedChar _ ?_
        rintro rfl
        have solid := Formula.ends_skipBlanks rest
        rw [left] at solid
        exact absurd (Formula.ends_cons.mp solid) (by decide)

theorem BinaryOp.oneLine_apply {mode : SubtractionMode} {op : BinaryOp} {lhs rhs : Value}
    {fault : FormulaFault} (refused : op.apply mode lhs rhs = .error fault) :
    OneLine fault.message := by
  have operands (left right : ValueType) :
      OneLine (FormulaFault.invalidOperands op left right).message := by
    have symbol : op.symbol ≠ '\n' := by cases op <;> decide
    have named (type : ValueType) : OneLine type.name := by cases type <;> decide
    unfold FormulaFault.message
    simp only [oneLine_append_iff]
    exact ⟨⟨⟨⟨⟨by decide, oneLine_char symbol⟩, by decide⟩, named left⟩, by decide⟩, named right⟩
  have repeated {content : String} {count : Float}
      (replicated : Value.replicate content count = .error fault) : OneLine fault.message := by
    unfold Value.replicate at replicated
    split at replicated
    · cases replicated
      unfold FormulaFault.message
      simp only [oneLine_append_iff]
      exact ⟨⟨by decide, oneLine_plain count⟩, by decide⟩
    · cases replicated
  cases op with
  | add =>
      simp only [apply] at refused
      split at refused <;> cases refused
  | subtract =>
      simp only [apply] at refused
      split at refused
      · split at refused <;> cases refused
      · cases refused
        exact operands _ _
  | multiply =>
      simp only [apply] at refused
      split at refused
      · cases refused
        exact operands _ _
      · exact repeated refused
      · exact repeated refused
      · cases refused
  | divide =>
      simp only [apply] at refused
      split at refused
      · split at refused
        · cases refused
          decide
        · cases refused
      · cases refused
        exact operands _ _
  | power =>
      simp only [apply] at refused
      split at refused
      · cases refused
      · cases refused
        exact operands _ _

theorem Text.oneLine_quotedChar (c : Char) : OneLine (quotedChar c) := by
  have each : '\n' ∉ quoteChar '\'' c := by
    unfold quoteChar
    split_ifs with null tab back broken escaped hidden
    · decide
    · decide
    · decide
    · decide
    · simpa using Ne.symm broken
    · simpa [codePointEscape] using solid_toDigits (by decide) c.toNat
    · simpa using Ne.symm broken
  exact oneLine_ofList (by simp [each])

theorem SegmentFault.oneLine_message (fault : SegmentFault) : OneLine fault.message := by
  cases fault with
  | empty => decide
  | invalidChar c offset =>
      unfold message
      simp only [oneLine_append_iff]
      exact ⟨⟨⟨by decide, Text.oneLine_quotedChar c⟩, by decide⟩, oneLine_nat offset⟩

theorem KeyError.oneLine_message {text : String} {error : KeyError}
    (refused : Key.parse text = .error error) (solid : OneLine text) : OneLine error.message := by
  unfold Key.parse at refused
  split at refused
  · cases refused
  · rename_i violation split
    obtain ⟨earlier, after, stands⟩ := KeyViolation.isFirst_of_splitKey split
    cases refused
    have segment : OneLine violation.segment := fun broken => solid (by
      rw [stands.whole]
      simp [broken])
    unfold message
    simp only [oneLine_append_iff]
    exact ⟨⟨⟨⟨⟨⟨⟨by decide, solid⟩, by decide⟩, oneLine_nat _⟩, by decide⟩, segment⟩, by decide⟩,
      violation.fault.oneLine_message⟩

theorem Lexicon.valid_of_suggested {lexicon : Lexicon} {key other : Key} (valid : key.Valid)
    (suggested : other ∈ lexicon.suggestions key) : other.Valid := by
  unfold suggestions at suggested
  split at suggested
  · rename_i parent last above _
    split at suggested
    · cases suggested
    · obtain ⟨name, _, pushed⟩ := List.mem_filterMap.mp suggested
      cases found : parent.push name with
      | error error =>
          rw [found] at pushed
          cases pushed
      | ok result =>
          rw [found] at pushed
          cases pushed
          exact (valid.parent above).push found
  · cases suggested

theorem Lexicon.oneLine_missingMessage (lexicon : Lexicon) {key : Key} (valid : key.Valid) :
    OneLine (lexicon.missingMessage key) := by
  unfold missingMessage
  split
  · simp only [oneLine_append_iff]
    exact ⟨⟨by decide, valid.oneLine⟩, by decide⟩
  · simp only [oneLine_append_iff]
    refine ⟨⟨⟨by decide, valid.oneLine⟩, by decide⟩, ?_⟩
    refine oneLine_intercalate (by decide) (List.forall_mem_map.mpr fun other listed => ?_)
    exact (valid_of_suggested valid listed).oneLine

namespace Diagnostic

/-- The diagnostic quotes a text with a line break: that of a reference to no key, or what was said
when a source or a format broke down. -/
def Breaks (diagnostic : Diagnostic) : Prop :=
  (diagnostic.kind = .keyNotFound ∧ ¬ OneLine diagnostic.context) ∨
    (diagnostic.kind = .unexpectedError ∧ ¬ OneLine diagnostic.message)

instance : DecidablePred Breaks := fun diagnostic =>
  inferInstanceAs (Decidable ((diagnostic.kind = .keyNotFound ∧ ¬ OneLine diagnostic.context) ∨
    (diagnostic.kind = .unexpectedError ∧ ¬ OneLine diagnostic.message)))

theorem oneLine_display_iff (diagnostic : Diagnostic) :
    OneLine diagnostic.display ↔
      OneLine diagnostic.message ∧ ∀ cause ∈ diagnostic.cause, OneLine cause := by
  have severity : OneLine diagnostic.severity.name := by cases diagnostic.severity <;> decide
  have kind : OneLine diagnostic.kind.name := by cases diagnostic.kind <;> decide
  have line :
      OneLine s!"[{diagnostic.severity.name}] {diagnostic.kind.name}: {diagnostic.message}" ↔
        OneLine diagnostic.message := by
    simp only [oneLine_append_iff]
    refine ⟨And.right, fun clear => ⟨⟨⟨⟨⟨?_, severity⟩, ?_⟩, kind⟩, ?_⟩, clear⟩⟩ <;> decide
  unfold display
  cases diagnostic.cause with
  | none => exact line.trans (by simp)
  | some cause =>
      have both (first : String) :
          OneLine s!"{first} ({cause})" ↔ OneLine first ∧ OneLine cause := by
        simp only [oneLine_append_iff]
        exact ⟨fun ⟨⟨⟨clear, _⟩, more⟩, _⟩ => ⟨clear, more⟩,
          fun ⟨clear, more⟩ => ⟨⟨⟨clear, by decide⟩, more⟩, by decide⟩⟩
      rw [both, line]
      simp

theorem oneLine_display_new (kind : DiagnosticKind) (context message : String)
    (span : Option Span) (depth : Nat) :
    OneLine (new kind context message none span depth).display ↔ OneLine message :=
  (oneLine_display_iff _).trans (and_iff_left (by simp [new]))

/-- The diagnostic is told on one line just if it quotes no line break, and it quotes none if what
comes into the rendering is unbroken. -/
structure Legible (unbroken : Prop) (diagnostic : Diagnostic) : Prop where
  told : OneLine diagnostic.display ↔ ¬ diagnostic.Breaks
  quoted : unbroken → ¬ diagnostic.Breaks

variable {unbroken : Prop} {name message : String} {span : Option Span} {depth : Nat}

theorem Legible.of_oneLine {diagnostic : Diagnostic} (told : OneLine diagnostic.display)
    (intact : ¬ diagnostic.Breaks) : diagnostic.Legible unbroken :=
  ⟨iff_of_true told intact, fun _ => intact⟩

theorem legible_depthLimit (context : Context) {about : String} (named : OneLine about)
    (span : Option Span) : (Renderer.depthLimitReached context about span).Legible unbroken := by
  refine .of_oneLine ((oneLine_display_new ..).mpr ?_) (by rintro (⟨⟨⟩, _⟩ | ⟨⟨⟩, _⟩))
  simp only [oneLine_append_iff]
  exact ⟨⟨⟨⟨by decide, oneLine_nat _⟩, by decide⟩, named⟩, by decide⟩

theorem legible_issue (context : Context) (issue : Issue) :
    (Renderer.issueDiagnostic context issue).Legible unbroken := by
  refine .of_oneLine ((oneLine_display_new ..).mpr ?_) (by rintro (⟨⟨⟩, _⟩ | ⟨⟨⟩, _⟩))
  cases issue.kind <;> decide

theorem legible_invalidKey {error : KeyError} (refused : Key.parse name = .error error)
    (clear : unbroken → OneLine name) :
    (new .keyNotFound name s!"invalid key '{name}'" (some error.message) span depth).Legible
      unbroken := by
  have breaks : (new .keyNotFound name s!"invalid key '{name}'" (some error.message) span
      depth).Breaks ↔ ¬ OneLine name := by
    simp [Breaks, new]
  have message : OneLine s!"invalid key '{name}'" ↔ OneLine name := by
    simp only [oneLine_append_iff]
    exact ⟨fun told => told.1.2, fun named => ⟨⟨by decide, named⟩, by decide⟩⟩
  refine ⟨?_, fun calm broken => breaks.mp broken (clear calm)⟩
  rw [oneLine_display_iff, breaks, not_not]
  -- The cause quotes the name as well, so it has a line break only if the message has one.
  refine ⟨fun told => message.mp told.1, fun named => ⟨message.mpr named, ?_⟩⟩
  rintro cause ⟨⟩
  exact KeyError.oneLine_message refused named

theorem legible_missingKey (lexicon : Lexicon) {key : Key} (parsed : Key.parse name = .ok key) :
    (new .keyNotFound name (lexicon.missingMessage key) none span depth).Legible unbroken := by
  have valid := Key.valid_of_parse parsed
  have named : OneLine name := Key.text_of_parse parsed ▸ valid.oneLine
  have told := lexicon.oneLine_missingMessage valid
  refine .of_oneLine ((oneLine_display_new ..).mpr told) ?_
  rintro (⟨_, broken⟩ | ⟨⟨⟩, _⟩)
  exact broken named

end Diagnostic

def FormulaFault.Legible (unbroken : Prop) (fault : FormulaFault) : Prop :=
  (fault.kind = .unexpectedError → unbroken) → OneLine fault.message

theorem FormulaFault.Legible.diagnostic {unbroken : Prop} {fault : FormulaFault}
    (legible : fault.Legible unbroken) (raw : String) (span : Option Span) (depth : Nat) :
    (Diagnostic.new fault.kind raw fault.message none span depth).Legible unbroken := by
  have breaks : (Diagnostic.new fault.kind raw fault.message none span depth).Breaks ↔
      fault.kind = .unexpectedError ∧ ¬ OneLine fault.message := by
    have other : fault.kind ≠ .keyNotFound := by
      intro same
      cases fault <;> cases same
    simp [Diagnostic.Breaks, Diagnostic.new, other]
  constructor
  · rw [Diagnostic.oneLine_display_new, breaks]
    refine ⟨fun clear broken => broken.2 clear, fun intact => ?_⟩
    by_contra broken
    exact broken (legible fun unexpected => absurd ⟨unexpected, broken⟩ intact)
  · intro calm broken
    exact (breaks.mp broken).2 (legible fun _ => calm)

def Noted.Legible {α : Type} (unbroken : Prop) (noted : Noted α) : Prop :=
  ∀ diagnostic ∈ noted.diagnostics, diagnostic.Legible unbroken

structure Noted.Explained (unbroken : Prop) (noted : Noted (Except FormulaFault Value)) : Prop where
  legible : noted.Legible unbroken
  fault : ∀ fault, noted.value = .error fault → fault.Legible unbroken

/-- Nothing that comes into a rendering holds a line break, apart from its template: no stored text,
no value of a variable, and nothing that is said when a source or a format breaks down. -/
structure Renderer.Unbroken (renderer : Renderer) (context : Context) : Prop where
  texts : ∀ key text, renderer.lexicon.text? key = some text → OneLine text
  values : ∀ var content, context.lookup var = .ok (.text content) → OneLine content
  sources : ∀ var name said, context.lookup var = .error (.brokenDown name said) → OneLine said
  formats : ∀ number spec said, renderer.formats.format number spec = .error said → OneLine said

theorem Renderer.Unbroken.descend {renderer : Renderer} {context : Context}
    (unbroken : renderer.Unbroken context) : renderer.Unbroken context.descend :=
  ⟨unbroken.texts, unbroken.values, unbroken.sources, unbroken.formats⟩

def Deeper.Legible (unbroken : Prop) (deeper : Deeper) : Prop :=
  ∀ expand ∈ deeper, ∀ text : String, (unbroken → OneLine text) → (expand text).Legible unbroken

namespace Noted.Legible

variable {α β : Type} {unbroken : Prop}

theorem of_silent {noted : Noted α} (silent : noted.diagnostics = []) : noted.Legible unbroken := by
  simp [Noted.Legible, silent]

theorem report {diagnostic : Diagnostic} (legible : diagnostic.Legible unbroken) :
    (Noted.report diagnostic).Legible unbroken :=
  List.forall_mem_singleton.mpr legible

theorem bind {noted : Noted α} {next : α → Noted β} (start : noted.Legible unbroken)
    (rest : (next noted.value).Legible unbroken) : (noted >>= next).Legible unbroken :=
  List.forall_mem_append.mpr ⟨start, rest⟩

theorem renting {noted : Noted α} (legible : noted.Legible unbroken) (shelf : Shelf) :
    (Noted.renting shelf noted).Legible unbroken := legible

end Noted.Legible

variable {unbroken : Prop}

theorem FormulaFault.Legible.of_oneLine {fault : FormulaFault} (told : OneLine fault.message) :
    fault.Legible unbroken := fun _ => told

theorem FormulaFault.Legible.of_brokenDown {name said : String}
    (clear : unbroken → OneLine name ∧ OneLine said) :
    (FormulaFault.brokenDown name said).Legible unbroken := fun calm =>
  have ⟨named, told⟩ := clear (calm rfl)
  oneLine_brokenDown named told

theorem Noted.explained_pure {outcome : Except FormulaFault Value}
    (faulty : ∀ fault, outcome = .error fault → fault.Legible unbroken) :
    (pure outcome : Noted _).Explained unbroken :=
  ⟨.of_silent rfl, faulty⟩

theorem Formula.explained_evaluate (mode : SubtractionMode)
    {resolve : Variable → Noted (Except FormulaFault Value)}
    (explained : ∀ var, OneLine var.name → (resolve var).Explained unbroken) {formula : Formula}
    (named : formula.Named) : (formula.evaluate mode resolve).Explained unbroken := by
  induction formula with
  | number value => exact Noted.explained_pure nofun
  | var asked => exact explained asked named
  | binary op lhs rhs ihLhs ihRhs =>
      have left := ihLhs named.1
      have right := ihRhs named.2
      unfold evaluate
      constructor
      · refine .bind left.legible ?_
        split
        · exact .of_silent rfl
        · refine .bind right.legible ?_
          split <;> exact .of_silent rfl
      · intro fault refused
        simp only [Noted.value_bind] at refused
        split at refused
        · rename_i first found
          cases refused
          exact left.fault _ found
        · simp only [Noted.value_bind] at refused
          split at refused
          · rename_i second found
            cases refused
            exact right.fault _ found
          · exact .of_oneLine (BinaryOp.oneLine_apply refused)

namespace Renderer

variable {renderer : Renderer} {context : Context} {deeper : Deeper}

theorem lookup_legible (calm : unbroken → renderer.Unbroken context) {var : Variable}
    (named : OneLine var.name) {fault : FormulaFault} (found : context.lookup var = .error fault) :
    fault.Legible unbroken := by
  have said (name message : String) (broken : fault = .brokenDown name message)
      (steady : unbroken) : OneLine message :=
    (calm steady).sources var name message (broken ▸ found)
  unfold Context.lookup at found
  split at found
  · cases found
  · split at found
    · cases found
      exact .of_brokenDown fun steady => ⟨named, said _ _ rfl steady⟩
    · cases found
      exact .of_oneLine (FormulaFault.oneLine_unresolved named)
    · cases found

theorem resolve_explained (calm : unbroken → renderer.Unbroken context)
    (below : deeper.Legible unbroken) {var : Variable} (named : OneLine var.name) :
    (resolve context deeper var).Explained unbroken := by
  unfold resolve
  split
  · rename_i fault found
    refine Noted.explained_pure ?_
    rintro _ ⟨⟩
    exact lookup_legible calm named found
  · rename_i content found
    split
    · split
      · refine ⟨.bind (.report (Diagnostic.legible_depthLimit context named none)) (.of_silent rfl),
          nofun⟩
      · have clear (steady : unbroken) : OneLine content :=
          (calm steady).values var content found
        exact ⟨.bind (.renting (below _ rfl content clear) .texts) (.of_silent rfl), nofun⟩
    · exact Noted.explained_pure nofun
  · exact Noted.explained_pure nofun

theorem slotValue_explained (calm : unbroken → renderer.Unbroken context)
    (below : deeper.Legible unbroken) (formula : String) :
    (renderer.slotValue context deeper formula).Explained unbroken := by
  unfold slotValue
  split
  · rename_i var bare
    exact resolve_explained calm below (Variable.oneLine_of_bare bare)
  · split
    · rename_i fault refused
      refine Noted.explained_pure ?_
      rintro _ ⟨⟩
      exact .of_oneLine (FormulaFault.oneLine_parse refused)
    · rename_i parsed read
      exact Formula.explained_evaluate _ (fun var => resolve_explained calm below)
        (Formula.named_of_parse read)

theorem formatted_legible (calm : unbroken → renderer.Unbroken context) {format : Option String}
    (clear : unbroken → ∀ spec ∈ format, OneLine spec) {value : Value} {fault : FormulaFault}
    (refused : renderer.formatted format value = .error fault) : fault.Legible unbroken := by
  unfold formatted FormatRegistry.formatValue at refused
  split at refused
  · cases refused
  · rename_i said broken
    cases refused
    split at broken
    · rename_i number spec _
      exact .of_brokenDown fun steady =>
        ⟨clear steady spec rfl, (calm steady).formats number spec said broken⟩
    · cases broken

theorem renderSlot_legible (calm : unbroken → renderer.Unbroken context)
    (below : deeper.Legible unbroken) (span : Span) (raw formula : String) {format : Option String}
    (clear : unbroken → ∀ spec ∈ format, OneLine spec) :
    (renderer.renderSlot context deeper span raw formula format).Legible unbroken := by
  have explained := slotValue_explained calm below formula
  unfold renderSlot
  refine .bind explained.legible ?_
  split
  · exact .of_silent rfl
  · rename_i fault refused
    have legible : fault.Legible unbroken := by
      cases found : (renderer.slotValue context deeper formula).value with
      | error first =>
          rw [found] at refused
          cases refused
          exact explained.fault _ found
      | ok value =>
          rw [found] at refused
          exact formatted_legible calm clear refused
    exact .bind (.report (legible.diagnostic raw (some span) context.depth)) (.of_silent rfl)

theorem renderReference_legible (calm : unbroken → renderer.Unbroken context)
    (below : deeper.Legible unbroken) (span : Span) (tooltip : Bool) {name : String}
    (clear : unbroken → OneLine name) :
    (renderer.renderReference context deeper span tooltip name).Legible unbroken := by
  unfold renderReference
  split
  · rename_i error refused
    exact .bind (.report (Diagnostic.legible_invalidKey refused clear)) (.of_silent rfl)
  · rename_i key parsed
    split
    · exact .bind (.report (Diagnostic.legible_missingKey renderer.lexicon parsed)) (.of_silent rfl)
    · rename_i text found
      split
      · have named : OneLine name := Key.text_of_parse parsed ▸ (Key.valid_of_parse parsed).oneLine
        exact .bind (.report (Diagnostic.legible_depthLimit context named _)) (.of_silent rfl)
      · refine .bind (.renting (below _ rfl text fun steady => ?_) .texts) (.of_silent rfl)
        exact (calm steady).texts key text found

theorem renderLeaf_legible (calm : unbroken → renderer.Unbroken context)
    (below : deeper.Legible unbroken) (start : Nat) {piece : Leaf}
    (clear : unbroken → OneLine piece.raw) :
    (renderer.renderLeaf context deeper start piece).Legible unbroken := by
  cases piece with
  | text raw content => exact .of_silent rfl
  | reference tooltip key =>
      refine renderReference_legible calm below _ tooltip fun steady => ?_
      have raw := clear steady
      unfold Leaf.raw at raw
      simp only [oneLine_append_iff] at raw
      exact raw.1.2
  | slot formula format =>
      refine renderSlot_legible calm below _ _ formula fun steady spec shown => ?_
      have raw := clear steady
      obtain rfl := shown
      unfold Leaf.raw at raw
      simp only [oneLine_append_iff] at raw
      exact raw.1.2

theorem renderInside_legible {body : Phrase} (inner : String)
    (legible : (renderer.renderPhrase context deeper body).Legible unbroken) :
    (renderer.renderInside context deeper inner body).Legible unbroken := by
  cases body with
  | nil => exact .of_silent rfl
  | leaf => exact legible
  | colored => exact legible

theorem laid_legible (calm : unbroken → renderer.Unbroken context)
    (below : deeper.Legible unbroken) {budget start : Nat} {text : List Char} {phrase : Phrase}
    (laid : Laid budget start text phrase)
    (inside : ∀ place inner, (unbroken → '\n' ∉ inner) →
      (renderer.renderPhrase context deeper
        (Reading.inside budget place inner).phrase).Legible unbroken)
    (clear : unbroken → '\n' ∉ text) :
    (renderer.renderPhrase context deeper phrase).Legible unbroken := by
  -- Level by level: what is quoted is a part of the text of its level.
  induction laid with
  | nil => exact .of_silent rfl
  | @leaf start content later next _ _ _ _ ih =>
      have here (steady : unbroken) : OneLine content.raw := fun broken =>
        clear steady (List.mem_append_left _ broken)
      have behind (steady : unbroken) : '\n' ∉ later := fun broken =>
        clear steady (List.mem_append_right _ broken)
      exact .bind (renderLeaf_legible calm below start here) (.bind (ih behind) (.of_silent rfl))
  | @colored start code inner later next _ _ _ ih =>
      have within (steady : unbroken) : '\n' ∉ inner := fun broken =>
        clear steady (List.mem_append_left _ (by simp [Scanned.written, broken]))
      have behind (steady : unbroken) : '\n' ∉ later := fun broken =>
        clear steady (List.mem_append_right _ broken)
      rw [renderPhrase_colored]
      refine .bind (.of_silent rfl) (.bind (.of_silent rfl) (.bind (.of_silent rfl) (.bind ?_ ?_)))
      · exact renderInside_legible _ (inside _ inner within)
      · exact .bind (.of_silent rfl) (.bind (ih behind) (.of_silent rfl))

theorem renderPhrase_legible (calm : unbroken → renderer.Unbroken context)
    (below : deeper.Legible unbroken) (budget start : Nat) {text : List Char}
    (clear : unbroken → '\n' ∉ text) :
    (renderer.renderPhrase context deeper (Reading.within budget start text).phrase).Legible
      unbroken := by
  induction budget generalizing start text with
  | zero =>
      refine laid_legible calm below (laid_within 0 start text) ?_ clear
      exact fun _ _ _ => .of_silent rfl
  | succ budget ih =>
      exact laid_legible calm below (laid_within (budget + 1) start text)
        (fun place inner => ih place) clear

theorem renderTemplate_legible (calm : unbroken → renderer.Unbroken context)
    (below : deeper.Legible unbroken) {text : String} (clear : unbroken → OneLine text) :
    (renderer.renderTemplate context deeper (Template.read text)).Legible unbroken := by
  refine .bind ?_ ?_
  · exact List.forall_mem_map.mpr fun issue _ => Diagnostic.legible_issue context issue
  · split
    · exact .of_silent rfl
    · exact renderPhrase_legible calm below maxColorNesting 0 clear

theorem readAndRender_legible (calm : unbroken → renderer.Unbroken context)
    (below : deeper.Legible unbroken) {text : String} (clear : unbroken → OneLine text) :
    (renderer.readAndRender context deeper text).Legible unbroken := by
  refine .renting (.bind (.of_silent rfl) ?_) .trees
  exact renderTemplate_legible calm below clear

theorem expand_legible (calm : unbroken → renderer.Unbroken context) {text : String}
    (clear : unbroken → OneLine text) : (renderer.expand context text).Legible unbroken := by
  -- By induction on the budget: what is expanded is stored or is the value of a variable.
  induction context using Context.budget_induction generalizing text with
  | step context ih =>
      unfold expand expandWith
      split
      · refine readAndRender_legible calm (fun expand found inner => ?_) clear
        obtain ⟨left, rfl⟩ := (renderer.mem_deeper_iff context expand).mp found
        exact ih left (fun steady => (calm steady).descend)
      · exact .of_silent rfl

theorem render_legible (calm : unbroken → renderer.Unbroken context) {template : String}
    (clear : unbroken → OneLine template) :
    (renderer.render context template).Legible unbroken := by
  refine readAndRender_legible calm (fun expand found inner => ?_) clear
  obtain ⟨-, rfl⟩ := (renderer.mem_deeper_iff context expand).mp found
  exact expand_legible fun steady => (calm steady).descend

end Renderer

def lines (text : String) : List String :=
  (Text.fields '\n' text.toList).map String.ofList

theorem length_lines (text : String) : (lines text).length = text.toList.count '\n' + 1 := by
  rw [lines, List.length_map, Text.length_fields]

theorem lines_of_oneLine {text : String} (single : OneLine text) : lines text = [text] := by
  rw [lines, Text.fields_solid single, List.map_singleton, String.ofList_toList]

theorem lines_intercalate {texts : List String} (nonempty : texts ≠ []) :
    lines ("\n".intercalate texts) = texts.flatMap lines := by
  have filled : texts.map String.toList ≠ [] := mt List.map_eq_nil_iff.mp nonempty
  have separator : "\n".toList = ['\n'] := by decide
  rw [lines, String.toList_intercalate, separator, Text.fields_joined filled, List.map_flatMap,
    List.flatMap_map]
  rfl

theorem length_le_flatMap_lines (texts : List String) :
    texts.length ≤ (texts.flatMap lines).length := by
  induction texts with
  | nil => exact Nat.zero_le _
  | cons first later ih =>
      rw [List.flatMap_cons, List.length_append, length_lines, List.length_cons]
      omega

theorem length_flatMap_lines_iff (texts : List String) :
    (texts.flatMap lines).length = texts.length ↔ ∀ text ∈ texts, OneLine text := by
  induction texts with
  | nil => simp
  | cons first later ih =>
      have least := length_le_flatMap_lines later
      have breaks : OneLine first ↔ first.toList.count '\n' = 0 := List.count_eq_zero.symm
      rw [List.flatMap_cons, List.length_append, length_lines, List.length_cons,
        List.forall_mem_cons, ← ih, breaks]
      omega

theorem flatMap_lines_of_oneLine {texts : List String} (single : ∀ text ∈ texts, OneLine text) :
    texts.flatMap lines = texts := by
  induction texts with
  | nil => rfl
  | cons first later ih =>
      obtain ⟨here, behind⟩ := List.forall_mem_cons.mp single
      rw [List.flatMap_cons, lines_of_oneLine here, ih behind, List.singleton_append]

namespace Diagnostics

theorem oneLine_header (diagnostics : List Diagnostic) : OneLine (header diagnostics) := by
  have number (count : Nat) {one many : String} (single : OneLine one) (several : OneLine many) :
      OneLine (counted count one many) := by
    unfold counted
    split
    · simp only [oneLine_append_iff]
      exact ⟨⟨oneLine_nat count, by decide⟩, single⟩
    · simp only [oneLine_append_iff]
      exact ⟨⟨oneLine_nat count, by decide⟩, several⟩
  unfold header
  simp only [oneLine_append_iff]
  exact ⟨⟨number _ (by decide) (by decide), by decide⟩, number _ (by decide) (by decide)⟩

theorem lines_summary (diagnostics : List Diagnostic) :
    lines (summary diagnostics) =
      header diagnostics :: (diagnostics.map Diagnostic.display).flatMap lines := by
  rw [summary, lines_intercalate (List.cons_ne_nil _ _), List.flatMap_cons,
    lines_of_oneLine (oneLine_header diagnostics), List.singleton_append]

end Diagnostics

/-- A summary tells its counts, which add up to the diagnostics, and then the diagnostics in their
order. Each takes one line unless it quotes a line break, and only a reference to no key and what
was said when a source or a format broke down can quote one. -/
theorem Book.render_summary (book : Book) (context : Context) (template : String) :
    let diagnostics := (book.render context template).1.diagnostics
    lines (Diagnostics.summary diagnostics) =
        Diagnostics.header diagnostics :: (diagnostics.map Diagnostic.display).flatMap lines ∧
      Diagnostics.errorCount diagnostics + Diagnostics.warningCount diagnostics =
        diagnostics.length ∧
      (∀ diagnostic ∈ diagnostics, OneLine diagnostic.display ↔ ¬ diagnostic.Breaks) ∧
      ((lines (Diagnostics.summary diagnostics)).length = diagnostics.length + 1 ↔
        ∀ diagnostic ∈ diagnostics, ¬ diagnostic.Breaks) ∧
      (book.renderer.Unbroken context → OneLine template →
        lines (Diagnostics.summary diagnostics) =
          Diagnostics.header diagnostics :: diagnostics.map Diagnostic.display) := by
  intro diagnostics
  have legible : ∀ diagnostic ∈ diagnostics,
      diagnostic.Legible (book.renderer.Unbroken context ∧ OneLine template) :=
    Renderer.render_legible And.left And.right
  have summarized := Diagnostics.lines_summary diagnostics
  refine ⟨summarized, Diagnostics.errorCount_add_warningCount diagnostics,
    fun diagnostic member => (legible diagnostic member).told, ?_, fun calm clear => ?_⟩
  · rw [summarized, List.length_cons, Nat.add_right_cancel_iff,
      ← List.length_map Diagnostic.display, length_flatMap_lines_iff, List.forall_mem_map]
    exact forall₂_congr fun diagnostic member => (legible diagnostic member).told
  · have single : ∀ line ∈ diagnostics.map Diagnostic.display, OneLine line :=
      List.forall_mem_map.mpr fun diagnostic member =>
        (legible diagnostic member).told.mpr ((legible diagnostic member).quoted ⟨calm, clear⟩)
    rw [summarized, flatMap_lines_of_oneLine single]

theorem Book.render_summary_blanks :
    let context : Context := .new (.ofList [("x", .text "$a b$")])
    let template := "$c d$ \x7bx\x7d \x7by\x7d"
    let summary := Diagnostics.summary (empty.render context template).1.diagnostics
    (empty.renderer.Unbroken context ∧ OneLine template) ∧
      lines summary =
        ["1 error, 2 warnings",
          "[warning] KeyNotFound: invalid key 'c d' (invalid key 'c d': segment 0 'c d': " ++
            "invalid character ' ' at offset 1)",
          "[warning] KeyNotFound: invalid key 'a b' (invalid key 'a b': segment 0 'a b': " ++
            "invalid character ' ' at offset 1)",
          "[error] VariableResolution: unresolved variable 'y'"] := by
  intro context template summary
  have unbroken : empty.renderer.Unbroken context := by
    refine ⟨fun key text stored => ?_, fun var content found => ?_, fun var name said found => ?_,
      fun number spec said refused => ?_⟩
    · cases (Lexicon.text?_empty key).symm.trans stored
    · unfold Context.lookup at found
      split at found
      · rename_i value known
        obtain ⟨entry, given, same⟩ := Option.map_eq_some_iff.mp known
        obtain rfl := List.mem_singleton.mp (List.mem_of_find?_eq_some given)
        cases same
        cases found
        decide
      · cases found
    · unfold Context.lookup at found
      split at found <;> cases found
    · obtain ⟨text, written⟩ := FormatRegistry.formatList_usual number spec.toList
      cases written.symm.trans refused
  have single : OneLine template := by decide
  obtain ⟨-, -, -, -, whole⟩ := render_summary empty context template
  exact ⟨⟨unbroken, single⟩, (whole unbroken single).trans (by decide +kernel)⟩

/-- One diagnostic, told on four lines. -/
theorem Book.render_summary_broken :
    let diagnostics := (empty.render (.new .empty) "$a\nb$").1.diagnostics
    diagnostics.length = 1 ∧
      lines (Diagnostics.summary diagnostics) =
        ["0 errors, 1 warning", "[warning] KeyNotFound: invalid key 'a", "b' (invalid key 'a",
          "b': segment 0 'a", "b': invalid character '\\n' at offset 1)"] := by
  decide +kernel

end Phrasebook
