import Phrasebook.Phrase.Basic
import Phrasebook.Text.Split

/-!
The pieces of one level of a template, before neighbouring texts are joined and colored stretches
are read. A construct that does not close loses its meaning: its opening becomes text, and reading
goes on right behind it. Nothing of the template is lost, as `scan_written` states.
-/

namespace Phrasebook

inductive Scanned where
  | plain (char : Char)
  | escaped (char : Char)
  | stray (char : Char) (kind : IssueKind)
  | reference (tooltip : Bool) (key : List Char)
  | slot (formula : List Char) (format : Option (List Char))
  | colored (code : ColorCode) (inner : List Char)
  deriving DecidableEq, Repr

def Scanned.written : Scanned → List Char
  | plain char => [char]
  | escaped char => ['\\', char]
  | stray char _ => [char]
  | reference true key => '$' :: '@' :: key ++ ['$']
  | reference false key => '$' :: key ++ ['$']
  | slot formula none => '{' :: formula ++ ['}']
  | slot formula (some format) => '{' :: formula ++ ':' :: format ++ ['}']
  | colored code inner => colorMark :: code.written.toList ++ inner ++ [colorMark]

namespace Scan

/-- The tooltip sign, the key and what follows a reference whose first mark has been read. -/
def reference? (text : List Char) : Option (Bool × List Char × List Char) :=
  match text with
  | '@' :: rest => (Text.splitFirst? '$' rest).map fun parts => (true, parts.1, parts.2)
  | _ => (Text.splitFirst? '$' text).map fun parts => (false, parts.1, parts.2)

/-- Splits at the brace that closes the `depth + 1` open ones. -/
def splitBrace? (depth : Nat) : List Char → Option (List Char × List Char)
  | [] => none
  | c :: cs =>
      if c = '}' then
        match depth with
        | 0 => some ([], cs)
        | outer + 1 => (splitBrace? outer cs).map fun parts => (c :: parts.1, parts.2)
      else
        let inside := if c = '{' then depth + 1 else depth
        (splitBrace? inside cs).map fun parts => (c :: parts.1, parts.2)

/-- Splits at the first colon outside of `depth` inner braces. -/
def splitColon? (depth : Nat) : List Char → Option (List Char × List Char)
  | [] => none
  | c :: cs =>
      if c = ':' && depth = 0 then some ([], cs)
      else
        let inside := if c = '{' then depth + 1 else if c = '}' then depth - 1 else depth
        (splitColon? inside cs).map fun parts => (c :: parts.1, parts.2)

def slot (content : List Char) : Scanned :=
  match splitColon? 0 content with
  | some (formula, format) => .slot formula (some format)
  | none => .slot content none

/-- Where a colored stretch ends: what is inside and what follows. -/
inductive ColorClose where
  | matched (inner rest : List Char)
  | firstMark (inner rest : List Char)
  | tooDeep
  | missing
  deriving DecidableEq, Repr

inductive MarkCount where
  | balanced (inner rest : List Char)
  | exceeded
  | unbalanced
  deriving DecidableEq, Repr

def MarkCount.behind (before : List Char) : MarkCount → MarkCount
  | balanced inner rest => balanced (before ++ inner) rest
  | exceeded => exceeded
  | unbalanced => unbalanced

/-- Counts marks until as many close as are open. A mark before a color code opens a stretch, every
other mark closes one, and a backslash hides the character after it. -/
def countMarks (budget : Nat) : Nat → List Char → MarkCount
  | _, [] => .unbalanced
  | _, ['\\'] => .unbalanced
  | opened, '\\' :: hidden :: cs => (countMarks budget opened cs).behind ['\\', hidden]
  | opened, c :: cs =>
      if c = colorMark then
        if (ColorCode.read? cs).isSome then
          if budget < opened + 1 then .exceeded else (countMarks budget (opened + 1) cs).behind [c]
        else if opened ≤ 1 then .balanced [] cs
        else (countMarks budget (opened - 1) cs).behind [c]
      else (countMarks budget opened cs).behind [c]

def splitMark? : List Char → Option (List Char × List Char)
  | [] => none
  | ['\\'] => none
  | '\\' :: hidden :: cs => (splitMark? cs).map fun parts => ('\\' :: hidden :: parts.1, parts.2)
  | c :: cs =>
      if c = colorMark then some ([], cs)
      else (splitMark? cs).map fun parts => (c :: parts.1, parts.2)

/-- The end of a colored stretch whose code has been read. `budget` more stretches may be open at
the same time. When the marks do not balance, the first of them ends the stretch. -/
def closeColor (budget : Nat) (body : List Char) : ColorClose :=
  if budget = 0 then .tooDeep
  else
    match countMarks budget 1 body with
    | .exceeded => .tooDeep
    | .balanced inner rest => .matched inner rest
    | .unbalanced =>
        match splitMark? body with
        | some (inner, rest) => .firstMark inner rest
        | none => .missing

def afterMark (budget : Nat) (text : List Char) : Scanned × List Char :=
  match ColorCode.read? text with
  | none => (.plain colorMark, text)
  | some (code, body) =>
      match closeColor budget body with
      | .matched inner rest => (.colored code inner, rest)
      | .firstMark inner rest => (.colored code inner, rest)
      | .tooDeep => (.stray colorMark .colorTooDeep, text)
      | .missing => (.stray colorMark .unclosedColor, text)

def step (budget : Nat) (c : Char) (text : List Char) : Scanned × List Char :=
  if c = '\\' then
    match text with
    | hidden :: rest => (.escaped hidden, rest)
    | [] => (.plain c, [])
  else if c = '$' then
    match reference? text with
    | some (tooltip, key, rest) => (.reference tooltip key, rest)
    | none => (.plain c, text)
  else if c = '{' then
    match splitBrace? 0 text with
    | some (content, rest) => (slot content, rest)
    | none => (.stray c .unbalancedBraces, text)
  else if c = colorMark then afterMark budget text
  else (.plain c, text)

theorem splitBrace?_written {depth : Nat} {text inner rest : List Char}
    (found : splitBrace? depth text = some (inner, rest)) : text = inner ++ '}' :: rest := by
  induction text generalizing depth inner with
  | nil => simp [splitBrace?] at found
  | cons c cs ih =>
      simp only [splitBrace?] at found
      split at found
      · rename_i close
        split at found
        · simp only [Option.some.injEq, Prod.mk.injEq] at found
          simp [close, ← found.1, ← found.2]
        · simp only [Option.map_eq_some_iff, Prod.mk.injEq] at found
          obtain ⟨parts, later, rfl, rfl⟩ := found
          simpa using ih later
      · simp only [Option.map_eq_some_iff, Prod.mk.injEq] at found
        obtain ⟨parts, later, rfl, rfl⟩ := found
        simpa using ih later

theorem splitColon?_written {depth : Nat} {text before after : List Char}
    (found : splitColon? depth text = some (before, after)) : text = before ++ ':' :: after := by
  induction text generalizing depth before with
  | nil => simp [splitColon?] at found
  | cons c cs ih =>
      simp only [splitColon?] at found
      split at found
      · rename_i colon
        simp only [Bool.and_eq_true, decide_eq_true_eq] at colon
        simp only [Option.some.injEq, Prod.mk.injEq] at found
        simp [colon.1, ← found.1, ← found.2]
      · simp only [Option.map_eq_some_iff, Prod.mk.injEq] at found
        obtain ⟨parts, later, rfl, rfl⟩ := found
        simpa using ih later

theorem slot_written (content : List Char) : (slot content).written = '{' :: content ++ ['}'] := by
  unfold slot
  split
  · rename_i found
    rw [splitColon?_written found]
    simp [Scanned.written]
  · rfl

theorem reference?_written {text key rest : List Char} {tooltip : Bool}
    (found : reference? text = some (tooltip, key, rest)) :
    '$' :: text = (Scanned.reference tooltip key).written ++ rest := by
  unfold reference? at found
  split at found
  all_goals
    simp only [Option.map_eq_some_iff, Prod.mk.injEq] at found
    obtain ⟨parts, later, rfl, rfl, rfl⟩ := found
    have split := (Text.splitFirst?_eq_some later).1
    simp [Scanned.written, split]

theorem behind_balanced {before inner rest : List Char} {count : MarkCount}
    (found : count.behind before = .balanced inner rest) :
    ∃ later, count = .balanced later rest ∧ inner = before ++ later := by
  cases count with
  | balanced later follows =>
      simp only [MarkCount.behind, MarkCount.balanced.injEq] at found
      exact ⟨later, by rw [found.2], found.1.symm⟩
  | exceeded => simp [MarkCount.behind] at found
  | unbalanced => simp [MarkCount.behind] at found

theorem countMarks_written {budget opened : Nat} {text inner rest : List Char}
    (found : countMarks budget opened text = .balanced inner rest) :
    text = inner ++ colorMark :: rest := by
  fun_induction countMarks budget opened text generalizing inner with
  | case1 => simp at found
  | case2 => simp at found
  | case3 opened hidden cs ih =>
      obtain ⟨later, same, rfl⟩ := behind_balanced found
      simpa using ih same
  | case4 => simp at found
  | case5 opened cs _ _ _ _ ih =>
      obtain ⟨later, same, rfl⟩ := behind_balanced found
      simpa using ih same
  | case6 opened cs _ _ _ _ =>
      simp only [MarkCount.balanced.injEq] at found
      simp [found.1.symm, found.2.symm]
  | case7 opened cs _ _ _ _ ih =>
      obtain ⟨later, same, rfl⟩ := behind_balanced found
      simpa using ih same
  | case8 opened c cs _ _ other ih =>
      obtain ⟨later, same, rfl⟩ := behind_balanced found
      simpa using ih same

theorem splitMark?_written {text inner rest : List Char}
    (found : splitMark? text = some (inner, rest)) : text = inner ++ colorMark :: rest := by
  fun_induction splitMark? text generalizing inner with
  | case1 => simp at found
  | case2 => simp at found
  | case3 hidden cs ih =>
      simp only [Option.map_eq_some_iff, Prod.mk.injEq] at found
      obtain ⟨parts, later, rfl, rfl⟩ := found
      simpa using ih later
  | case4 cs _ =>
      simp only [Option.some.injEq, Prod.mk.injEq] at found
      simp [found.1.symm, found.2.symm]
  | case5 c cs _ _ other ih =>
      simp only [Option.map_eq_some_iff, Prod.mk.injEq] at found
      obtain ⟨parts, later, rfl, rfl⟩ := found
      simpa using ih later

theorem closeColor_written {budget : Nat} {body inner rest : List Char}
    (closed : closeColor budget body = .matched inner rest ∨
      closeColor budget body = .firstMark inner rest) : body = inner ++ colorMark :: rest := by
  unfold closeColor at closed
  split at closed
  · simp at closed
  · split at closed
    · simp at closed
    · rename_i count
      simp only [ColorClose.matched.injEq, reduceCtorEq, or_false] at closed
      obtain ⟨rfl, rfl⟩ := closed
      exact countMarks_written count
    · split at closed
      · rename_i found
        simp only [ColorClose.firstMark.injEq, reduceCtorEq, false_or] at closed
        obtain ⟨rfl, rfl⟩ := closed
        exact splitMark?_written found
      · simp at closed

theorem afterMark_written (budget : Nat) (text : List Char) :
    (afterMark budget text).1.written ++ (afterMark budget text).2 = colorMark :: text := by
  unfold afterMark
  split
  · simp [Scanned.written]
  · rename_i code body coded
    have start := ColorCode.read?_written coded
    split
    · rename_i inner rest found
      simp [Scanned.written, start, closeColor_written (.inl found)]
    · rename_i inner rest found
      simp [Scanned.written, start, closeColor_written (.inr found)]
    · simp [Scanned.written]
    · simp [Scanned.written]

theorem step_written (budget : Nat) (c : Char) (text : List Char) :
    (step budget c text).1.written ++ (step budget c text).2 = c :: text := by
  unfold step
  split
  · rename_i backslash
    split <;> simp [Scanned.written, backslash]
  · split
    · rename_i dollar
      split
      · rename_i found
        rw [dollar]
        exact (reference?_written found).symm
      · simp [Scanned.written]
    · split
      · rename_i brace
        split
        · rename_i found
          simp [slot_written, brace, splitBrace?_written found]
        · simp [Scanned.written]
      · split
        · rename_i mark
          rw [mark]
          exact afterMark_written budget text
        · simp [Scanned.written]

end Scan

theorem Scanned.written_ne_nil (piece : Scanned) : piece.written ≠ [] := by
  cases piece with
  | reference tooltip key => cases tooltip <;> simp [written]
  | slot formula format => cases format <;> simp [written]
  | _ => simp [written]

theorem Scan.length_step (budget : Nat) (c : Char) (text : List Char) :
    (step budget c text).2.length ≤ text.length := by
  have whole := congrArg List.length (step_written budget c text)
  have some_read := List.length_pos_iff.mpr (Scanned.written_ne_nil (step budget c text).1)
  simp only [List.length_append, List.length_cons] at whole
  omega

/-- The pieces of a level, when `budget` more colored stretches may be open at the same time. -/
def scan (budget : Nat) : List Char → List Scanned
  | [] => []
  | c :: cs =>
      let found := Scan.step budget c cs
      found.1 :: scan budget found.2
termination_by text => text.length
decreasing_by
  have := Scan.length_step budget c cs
  simp only [List.length_cons]
  omega

@[simp] theorem scan_nil (budget : Nat) : scan budget [] = [] := by
  rw [scan]

theorem scan_cons (budget : Nat) (c : Char) (cs : List Char) :
    scan budget (c :: cs) = (Scan.step budget c cs).1 :: scan budget (Scan.step budget c cs).2 := by
  rw [scan]

theorem scan_written (budget : Nat) (text : List Char) :
    (scan budget text).flatMap Scanned.written = text := by
  fun_induction scan budget text with
  | case1 => rfl
  | case2 c cs found ih =>
      simp only [List.flatMap_cons]
      rw [ih]
      exact Scan.step_written budget c cs

end Phrasebook
