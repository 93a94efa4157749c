import Phrasebook.Proofs.Grammar

/-!
Reading of formulas is sound and complete for their grammar: what is read has a spelling that fits,
and a spelling that fits is read whole when nothing behind it could go on with it.
-/

namespace Phrasebook.Formula

/-- The reader of a tier, when groups may nest `levels` deep. -/
def reader (levels : Nat) : List (List BinaryOp) → List Char → Reply Formula
  | [] => primary (expression levels)
  | operators :: tiers => chain operators (reader levels tiers)

theorem expression_succ (levels : Nat) (text : List Char) :
    expression (levels + 1) text = reader levels grammar text := rfl

/-- A reader finds a spelling that fits the tiers. -/
def Sound (tiers : List (List BinaryOp)) (read : List Char → Reply Formula) : Prop :=
  ∀ text formula rest, read text = .accept formula rest →
    ∃ spelling, Fits tiers spelling ∧ text = spelling.written ++ rest ∧ spelling.Means formula

theorem number?_sound {text rest : List Char} {formula : Formula}
    (found : number? text = some (formula, rest)) :
    ∃ spelling, Fits [] spelling ∧ text = spelling.written ++ rest ∧
      spelling.Means formula := by
  unfold number? at found
  split at found
  · rename_i word after read
    obtain ⟨valid, whole⟩ := numeral?_sound read
    obtain ⟨value, known, same⟩ := Option.map_eq_some_iff.mp found
    obtain ⟨rfl, rfl⟩ := Prod.mk.inj same
    exact ⟨.numeral word, .numeral valid, whole, .numeral known⟩
  · cases found

theorem var_sound {text rest : List Char} {var : Variable}
    (found : Variable.read? text = some (var, rest)) :
    ∃ spelling, Fits [] spelling ∧ text = spelling.written ++ rest ∧
      spelling.Means (.var var) := by
  obtain ⟨name, named, ⟨rfl, whole⟩ | ⟨params, closed, rfl, whole⟩⟩ := Variable.read?_sound found
  · exact ⟨.var name none, .var named nofun, whole, .bare⟩
  · refine ⟨.var name (some params), .var named ?_, ?_, .var (Param.splits_list params)⟩
    · rintro text ⟨⟩
      exact closed
    · rw [whole, Spelling.written]
      simp

theorem sound_primary {group : List Char → Reply Formula} (inside : Sound grammar group) :
    Sound [] (primary group) := by
  intro text formula rest accepted
  unfold primary at accepted
  split at accepted
  · rename_i found
    cases accepted
    exact number?_sound found
  · split at accepted
    · rename_i found
      cases accepted
      exact var_sound found
    · split at accepted
      · rename_i content _ _
        split at accepted
        · cases accepted
        · rename_i inner after read
          split at accepted
          · rename_i behind closed
            cases accepted
            obtain ⟨before, leading, whole⟩ := skipBlanks_split content
            obtain ⟨between, trailing, follows⟩ := skipBlanks_split after
            obtain ⟨spelling, fits, written, value⟩ := inside _ _ _ read
            refine ⟨.group before spelling between, .group leading fits trailing, ?_, .group value⟩
            rw [whole, written, follows, closed]
            simp [Spelling.written]
          · cases accepted
      · cases accepted

theorem operator?_sound {operators : List BinaryOp} {text rest : List Char} {op : BinaryOp}
    (found : operator? operators text = some (op, rest)) :
    op ∈ operators ∧ ∃ before after, Blanks before ∧ Blanks after ∧
      text = before ++ op.symbol :: (after ++ rest) := by
  obtain ⟨before, leading, whole⟩ := skipBlanks_split text
  unfold operator? at found
  split at found
  · cases found
  · rename_i c cs skipped
    obtain ⟨after, trailing, follows⟩ := skipBlanks_split cs
    obtain ⟨known, searched, same⟩ := Option.map_eq_some_iff.mp found
    obtain ⟨rfl, rfl⟩ := Prod.mk.inj same
    have symbol : known.symbol = c := by simpa using List.find?_some searched
    refine ⟨List.mem_of_find?_eq_some searched, before, after, leading, trailing, ?_⟩
    rw [whole, skipped, symbol, ← follows]

theorem sound_chainFrom {operators : List BinaryOp} {tiers : List (List BinaryOp)}
    {operand : List Char → Reply Formula} (below : Sound tiers operand) {lhs formula : Formula}
    {text rest : List Char} (accepted : chainFrom operators operand lhs text = .accept formula rest)
    {left : Spelling} (fits : Fits (operators :: tiers) left) (value : left.Means lhs) :
    ∃ spelling, Fits (operators :: tiers) spelling ∧
      left.written ++ text = spelling.written ++ rest ∧ spelling.Means formula := by
  -- The spelling of what has been read so far grows with the chain.
  fun_induction chainFrom operators operand lhs text generalizing left with
  | case1 lhs text missing =>
      cases accepted
      exact ⟨left, fits, rfl, value⟩
  | case2 lhs text op after found rejected =>
      cases accepted
      exact ⟨left, fits, rfl, value⟩
  | case3 lhs text op after found rhs behind read shorter ih =>
      obtain ⟨member, before, between, leading, trailing, whole⟩ := operator?_sound found
      obtain ⟨right, fitting, written, known⟩ := below _ _ _ read
      obtain ⟨spelling, fits, same, tree⟩ := ih accepted
        (.chain fits leading member trailing fitting) (.chain value known)
      refine ⟨spelling, fits, ?_, tree⟩
      rw [← same, whole, written]
      simp [Spelling.written]
  | case4 =>
      cases accepted
      exact ⟨left, fits, rfl, value⟩

theorem sound_chain {tiers : List (List BinaryOp)} {operand : List Char → Reply Formula}
    (operators : List BinaryOp) (below : Sound tiers operand) :
    Sound (operators :: tiers) (chain operators operand) := by
  intro text formula rest accepted
  unfold chain at accepted
  split at accepted
  · cases accepted
  · rename_i lhs after read
    obtain ⟨left, fits, rfl, value⟩ := below _ _ _ read
    exact sound_chainFrom below accepted (.operand fits) value

theorem sound_reader {levels : Nat} (inside : Sound grammar (expression levels))
    (tiers : List (List BinaryOp)) : Sound tiers (reader levels tiers) := by
  induction tiers with
  | nil => exact sound_primary inside
  | cons operators tiers ih => exact sound_chain operators ih

theorem sound_expression (levels : Nat) : Sound grammar (expression levels) := by
  induction levels with
  | zero => exact nofun
  | succ levels ih => exact sound_reader ih grammar

theorem primary_numeral {word rest : List Char} {value : Float} (valid : IsNumeral word)
    (known : Decimal.float? word = some value) (ends : EndsWord rest)
    (group : List Char → Reply Formula) :
    primary group (word ++ rest) = .accept (.number value) rest := by
  have read : number? (word ++ rest) = some (.number value, rest) := by
    simp [number?, numeral?_append valid ends.1, known]
  simp [primary, read]

theorem primary_var {text rest : List Char} {var : Variable} (unnumbered : number? text = none)
    (read : Variable.read? text = some (var, rest)) (group : List Char → Reply Formula) :
    primary group text = .accept (.var var) rest := by
  simp [primary, unnumbered, read]

theorem primary_group {group : List Char → Reply Formula} {content after rest : List Char}
    {formula : Formula} (read : group (Text.skipBlanks content) = .accept formula after)
    (closed : Text.skipBlanks after = ')' :: rest) :
    primary group ('(' :: content) = .accept formula rest := by
  have unnumbered : number? ('(' :: content) = none :=
    number?_eq_none (ends_cons.mpr (by decide)) (by simp)
  have unnamed : Variable.read? ('(' :: content) = none := by
    rw [Variable.read?, if_neg (by decide)]
  simp [primary, unnumbered, unnamed, read, closed]

theorem chainFrom_step {operators : List BinaryOp} {operand : List Char → Reply Formula}
    {op : BinaryOp} {before after right rest : List Char} {rhs : Formula} (lhs : Formula)
    (leading : Blanks before) (member : op ∈ operators) (trailing : Blanks after)
    (solid : Ends Text.isBlank right) (read : operand right = .accept rhs rest)
    (shorter : rest.length ≤ right.length) :
    chainFrom operators operand lhs (before ++ op.symbol :: (after ++ right)) =
      chainFrom operators operand (.binary op lhs rhs) rest := by
  have found :
      operator? operators (before ++ op.symbol :: (after ++ right)) = some (op, right) := by
    rw [operator?_behind _ _ leading (isBlank_symbol op), find?_symbol member,
      skipBlanks_append _ trailing, skipBlanks_solid solid]
    rfl
  have less : rest.length < (before ++ op.symbol :: (after ++ right)).length := by
    simp only [List.length_append, List.length_cons]
    omega
  rw [chainFrom]
  simp only [found, read, if_pos less]

/-- What is read once a first formula of the tiers has been read. -/
def resume (levels : Nat) (formula : Formula) (rest : List Char) :
    List (List BinaryOp) → Reply Formula
  | [] => .accept formula rest
  | operators :: tiers => chainFrom operators (reader levels tiers) formula rest

theorem resume_quiet {tiers : List (List BinaryOp)} {rest : List Char} (levels : Nat)
    (formula : Formula) (quiet : Quiet tiers rest) :
    resume levels formula rest tiers = .accept formula rest := by
  cases tiers with
  | nil => rfl
  | cons operators tiers =>
      have missing := quiet operators List.mem_cons_self
      rw [resume, chainFrom]
      simp [missing]

def Apart (tiers : List (List BinaryOp)) : Prop :=
  tiers.Pairwise fun operators below => ∀ op ∈ operators, op ∉ below

theorem apart_grammar : Apart grammar := by
  simp [Apart, grammar]

theorem quiet_closing {blanks : List Char} (tiers : List (List BinaryOp)) (blank : Blanks blanks)
    (rest : List Char) : Quiet tiers (blanks ++ ')' :: rest) := by
  refine quiet_behind rest blank (by decide) ?_
  intro operators _ op _
  cases op <;> decide

theorem endsWord_closing {blanks : List Char} (blank : Blanks blanks) (rest : List Char) :
    EndsWord (blanks ++ ')' :: rest) :=
  .behind blank ⟨ends_cons.mpr (by decide), by simp⟩

theorem reader_group {before after rest : List Char} {inner : Spelling} {formula : Formula}
    {levels : Nat} (leading : Blanks before) (inside : Fits grammar inner)
    (trailing : Blanks after)
    (read : reader levels grammar (inner.written ++ (after ++ ')' :: rest)) =
      resume levels formula (after ++ ')' :: rest) grammar) :
    reader (levels + 1) [] ((Spelling.group before inner after).written ++ rest) =
      .accept formula rest := by
  have closing : Text.skipBlanks (after ++ ')' :: rest) = ')' :: rest := by
    rw [skipBlanks_append _ trailing, Text.skipBlanks_cons_solid _ (by decide)]
  have content := read.trans (resume_quiet levels formula (quiet_closing _ trailing rest))
  rw [← skipBlanks_solid (inside.solid _), ← skipBlanks_append _ leading,
    ← expression_succ] at content
  simpa [reader, Spelling.written] using primary_group content closing

theorem quiet_operator {blanks : List Char} {tiers : List (List BinaryOp)} {op : BinaryOp}
    (blank : Blanks blanks) (foreign : ∀ operators ∈ tiers, op ∉ operators) (rest : List Char) :
    Quiet tiers (blanks ++ op.symbol :: rest) := by
  refine quiet_behind rest blank (isBlank_symbol op) ?_
  intro operators member other inside same
  exact foreign operators member (symbol_inj same ▸ inside)

theorem reader_complete {tiers : List (List BinaryOp)} {spelling : Spelling}
    (fits : Fits tiers spelling) (apart : Apart tiers) {levels : Nat}
    (shallow : spelling.groupDepth ≤ levels) {formula : Formula}
    (value : spelling.Means formula) {rest : List Char} (ends : EndsWord rest)
    (quiet : Quiet tiers.tail rest) :
    reader levels tiers (spelling.written ++ rest) = resume levels formula rest tiers := by
  -- Chains derive to the left while they are read to the right: what is read of the left part
  -- leaves the reader of the same tier in the middle of the chain.
  induction fits generalizing levels formula rest with
  | numeral valid =>
      obtain @⟨_, number, known⟩ := value
      exact primary_numeral valid known ends _
  | @var name params named closed =>
      have unnumbered := named.unnumbered
      cases value with
      | bare => exact primary_var (unnumbered rest) (Variable.read?_name named ends) _
      | @var name params listed splits =>
          obtain rfl := splits.list_eq
          have read := Variable.read?_params named rest (closed params rfl)
          have whole : (Spelling.var name (some params)).written ++ rest =
              name ++ '<' :: (params ++ '>' :: rest) := by
            simp [Spelling.written]
          rw [whole]
          exact primary_var (unnumbered _) read _
  | @group before after inner leading inside trailing ih =>
      obtain ⟨outer, rfl⟩ := Nat.exists_eq_succ_of_ne_zero (Nat.ne_of_gt (Nat.lt_of_lt_of_le
        (Nat.succ_pos _) shallow))
      have fewer := Nat.le_of_succ_le_succ shallow
      exact reader_group leading inside trailing (ih apart_grammar fewer
        (Spelling.means_group_iff.mp value) (endsWord_closing trailing rest)
        (quiet_closing _ trailing rest))
  | @operand operators tiers spelling fits ih =>
      have below := ih (List.pairwise_cons.mp apart).2 shallow value ends
        fun operators member => quiet operators (List.mem_of_mem_tail member)
      have read := below.trans (resume_quiet levels formula quiet)
      rw [reader, chain, read]
      rfl
  | @chain operators tiers lhs rhs before after op left leading member trailing right ihl ihr =>
      obtain ⟨foreign, below⟩ := List.pairwise_cons.mp apart
      simp only [Spelling.groupDepth, Nat.max_le] at shallow
      obtain ⟨first, second, known, found, rfl⟩ := Spelling.means_chain_iff.mp value
      have silent : Quiet tiers (before ++ op.symbol :: (after ++ (rhs.written ++ rest))) :=
        quiet_operator leading (fun others tier => foreign others tier op member) _
      have opening := ihl apart shallow.1 known (.behind leading (endsWord_symbol op _)) silent
      have closing := (ihr below shallow.2 found ends
        fun operators member => quiet operators (List.mem_of_mem_tail member)).trans
          (resume_quiet levels second quiet)
      have step := chainFrom_step first leading member trailing (right.solid rest) closing
        (by simp)
      rw [resume] at opening
      rw [resume, ← step, ← opening, Spelling.written]
      simp only [List.append_assoc, List.cons_append]

theorem groupDepth_le_length (spelling : Spelling) :
    spelling.groupDepth ≤ spelling.written.length := by
  induction spelling with
  | numeral => exact Nat.zero_le _
  | var => exact Nat.zero_le _
  | group before inner after ih =>
      simp only [Spelling.groupDepth, Spelling.written, List.length_cons, List.length_append]
      omega
  | chain lhs before op after rhs left right =>
      simp only [Spelling.groupDepth, Spelling.written, List.length_cons, List.length_append]
      omega

theorem parseList_sound {text : List Char} {formula : Formula}
    (accepted : parseList text = .ok formula) : Derives text formula := by
  unfold parseList at accepted
  split at accepted
  · cases accepted
  · rename_i found rest read
    split at accepted
    · rename_i nothing
      cases accepted
      obtain ⟨before, leading, whole⟩ := skipBlanks_split text
      obtain ⟨after, trailing, follows⟩ := skipBlanks_split rest
      obtain ⟨spelling, fits, written, value⟩ := sound_expression _ _ _ _ read
      rw [nothing, List.append_nil] at follows
      refine ⟨spelling, ⟨fits, before, after, leading, trailing, ?_⟩, value⟩
      rw [whole, written, follows]
    · cases accepted

theorem expression_complete {spelling : Spelling} {before after : List Char} {levels : Nat}
    {formula : Formula} (fits : Fits grammar spelling) (leading : Blanks before)
    (trailing : Blanks after) (shallow : spelling.groupDepth ≤ levels)
    (value : spelling.Means formula) :
    expression (levels + 1) (Text.skipBlanks (before ++ (spelling.written ++ after))) =
      .accept formula after := by
  have ended : EndsWord after := by
    have nothing : EndsWord [] := ⟨.nil _, nofun⟩
    simpa using EndsWord.behind trailing nothing
  have quiet (tiers) : Quiet tiers after := quiet_blanks tiers trailing
  rw [skipBlanks_append _ leading, skipBlanks_solid (fits.solid _), expression_succ,
    reader_complete fits apart_grammar shallow value ended (quiet _)]
  exact resume_quiet _ formula (quiet _)

theorem parseList_complete {text : List Char} {formula : Formula}
    (derived : Derives text formula) : parseList text = .ok formula := by
  obtain ⟨spelling, ⟨fits, before, after, leading, trailing, rfl⟩, value⟩ := derived
  have shallow : spelling.groupDepth ≤ (before ++ (spelling.written ++ after)).length := by
    have := groupDepth_le_length spelling
    simp only [List.length_append]
    omega
  simp only [parseList, expression_complete fits leading trailing shallow value,
    skipBlanks_blanks trailing]

/-- A text whose parentheses pass the check is read exactly when it is derived, as the tree of the
derivation, and it has one tree only. -/
theorem parse_accepts_grammar {text : String}
    (passes : nestsDeeper maxParentheses 0 text.toList = false) :
    (∀ formula, parse text = .ok formula ↔ Derives text.toList formula) ∧
      ((∃ formula, parse text = .ok formula) ↔ ∃ spelling, Spells text.toList spelling) ∧
      ∀ formula other, Derives text.toList formula → Derives text.toList other →
        formula = other := by
  have reads : ∀ formula, parse text = .ok formula ↔ Derives text.toList formula := by
    intro formula
    rw [parse, passes]
    exact ⟨parseList_sound, parseList_complete⟩
  refine ⟨reads, ?_, ?_⟩
  · constructor
    · rintro ⟨formula, accepted⟩
      obtain ⟨spelling, spells, _⟩ := (reads formula).mp accepted
      exact ⟨spelling, spells⟩
    · rintro ⟨spelling, spells⟩
      obtain ⟨formula, value⟩ := spells.1.means
      exact ⟨formula, (reads formula).mpr ⟨spelling, spells, value⟩⟩
  · intro formula other derived again
    have accepted := (reads formula).mpr derived
    rw [(reads other).mpr again] at accepted
    exact (Except.ok.inj accepted).symm

/-- The spelling of `(x - y<a = 1=2, ,) b>) * -1.5e3 ^ z / v + w`. -/
def scaledDifference : Spelling :=
  let difference : Spelling :=
    .chain (.var ['x'] none) [' '] .subtract [' '] (.var ['y'] (some "a = 1=2, ,) b".toList))
  let power : Spelling :=
    .chain (.numeral ['-', '1', '.', '5', 'e', '3']) [' '] .power [' '] (.var ['z'] none)
  let product : Spelling := .chain (.group [] difference []) [' '] .multiply [' '] power
  let quotient : Spelling := .chain product [' '] .divide [' '] (.var ['v'] none)
  .chain quotient [' '] .add [' '] (.var ['w'] none)

theorem digits_single {digit : Char} (valid : digit.isDigit = true) : Digits [digit] :=
  ⟨nofun, List.forall_mem_singleton.mpr valid⟩

theorem fits_letter {letter : Char} (start : isNameStart letter = true) :
    Fits [] (.var [letter] none) :=
  .var (.intro start nofun) nofun

theorem spells_scaledDifference :
    Spells "(x - y<a = 1=2, ,) b>) * -1.5e3 ^ z / v + w".toList scaledDifference := by
  have y : Fits [] (.var ['y'] (some "a = 1=2, ,) b".toList)) := by
    refine .var (.intro (by decide) nofun) ?_
    rintro text ⟨⟩
    decide
  have number : Fits [] (.numeral ['-', '1', '.', '5', 'e', '3']) := by
    have one : Digits ['1'] := digits_single (by decide)
    have five : Digits ['5'] := digits_single (by decide)
    have three : Digits ['3'] := digits_single (by decide)
    have scaled : IsExponent ['e', '3'] := .inr ⟨'e', [], ['3'], .inl rfl, .inl rfl, three, rfl⟩
    exact .numeral (.intro (.inr rfl) one (.inr ⟨['5'], five, rfl⟩) scaled)
  have nothing : Blanks [] := nofun
  have blank : Blanks [' '] := List.forall_mem_singleton.mpr (by decide)
  have letter {c : Char} (start : isNameStart c = true) : Fits [[.power]] (.var [c] none) :=
    .operand (fits_letter start)
  have difference : Fits grammar
      (.chain (.var ['x'] none) [' '] .subtract [' '] (.var ['y'] (some "a = 1=2, ,) b".toList))) :=
    .chain (.operand (.operand (letter (by decide)))) blank (by decide) blank
      (.operand (.operand y))
  have power : Fits [[.power]]
      (.chain (.numeral ['-', '1', '.', '5', 'e', '3']) [' '] .power [' '] (.var ['z'] none)) :=
    .chain (.operand number) blank (by decide) blank (fits_letter (by decide))
  have product := Fits.chain (.operand (.operand (.group nothing difference nothing))) blank
    (List.mem_cons_self : BinaryOp.multiply ∈ [.multiply, .divide]) blank power
  have quotient := Fits.chain product blank (by decide : BinaryOp.divide ∈ _) blank
    (letter (by decide : isNameStart 'v' = true))
  exact ⟨.chain (.operand quotient) blank (by decide) blank (.operand (letter (by decide))),
    [], [], nothing, nothing, rfl⟩

theorem splits_scaledDifference :
    Param.Splits "a = 1=2, ,) b".toList [.named "a" "1=2", .flag ") b"] := by
  have word {text : List Char} (solid : Text.trim text = text) : Text.Trims text text :=
    (Text.trims_iff text text).mpr solid
  have key : Text.Trims ['a', ' '] ['a'] := (Text.trims_iff _ _).mpr (by decide)
  have value : Text.Trims [' ', '1', '=', '2'] ['1', '=', '2'] :=
    (Text.trims_iff _ _).mpr (by decide)
  have named : Param.Denotes "a = 1=2".toList (.named "a" "1=2") := .named (by decide) key value
  have flag : Param.Denotes ") b".toList (.flag ") b") := .flag (by decide)
  have blank : Blanks [' '] := List.forall_mem_singleton.mpr (by decide)
  have last : Param.Listed [") b".toList] [.flag ") b"] :=
    .param (word (by decide)) (by decide) flag .nil
  exact ⟨["a = 1=2".toList, [' '], ") b".toList], List.cons_ne_nil _ _, by decide, by decide,
    .param (word (by decide)) (by decide) named (.blank blank last)⟩

theorem parse_accepts_scaledDifference :
    nestsDeeper maxParentheses 0 "(x - y<a = 1=2, ,) b>) * -1.5e3 ^ z / v + w".toList = false ∧
      parse "(x - y<a = 1=2, ,) b>) * -1.5e3 ^ z / v + w" = .ok (.binary .add
        (.binary .divide
          (.binary .multiply
            (.binary .subtract (.var ⟨"x", []⟩)
              (.var ⟨"y", [.named "a" "1=2", .flag ") b"]⟩))
            (.binary .power (.number (-(Decimal.Scientific.toFloat ⟨15, 2⟩))) (.var ⟨"z", []⟩)))
          (.var ⟨"v", []⟩))
        (.var ⟨"w", []⟩)) := by
  have passes : nestsDeeper maxParentheses 0
      "(x - y<a = 1=2, ,) b>) * -1.5e3 ^ z / v + w".toList = false := by decide
  have difference : Spelling.Means
      (.chain (.var ['x'] none) [' '] .subtract [' '] (.var ['y'] (some "a = 1=2, ,) b".toList)))
      (.binary .subtract (.var ⟨"x", []⟩) (.var ⟨"y", [.named "a" "1=2", .flag ") b"]⟩)) :=
    .chain .bare (.var splits_scaledDifference)
  have power : Spelling.Means
      (.chain (.numeral ['-', '1', '.', '5', 'e', '3']) [' '] .power [' '] (.var ['z'] none))
      (.binary .power (.number (-(Decimal.Scientific.toFloat ⟨15, 2⟩))) (.var ⟨"z", []⟩)) :=
    .chain (.numeral rfl) .bare
  refine ⟨passes, ((parse_accepts_grammar passes).1 _).mpr
    ⟨scaledDifference, spells_scaledDifference, ?_⟩⟩
  exact .chain (.chain (.chain (.group difference) power) .bare) .bare

end Phrasebook.Formula
