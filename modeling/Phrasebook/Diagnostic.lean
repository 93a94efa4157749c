import Phrasebook.Text.Measure

/-!
Diagnostics of a rendering. Rendering never fails: whatever goes wrong is recorded here, and a
replacement text takes the place of what could not be rendered. The kind of a problem decides how
severe it is.
-/

namespace Phrasebook

inductive Severity where
  | warning
  | error
  | fatal
  deriving DecidableEq, Repr

namespace Severity

def name : Severity → String
  | .warning => "warning"
  | .error => "error"
  | .fatal => "fatal"

def isError : Severity → Bool
  | .warning => false
  | _ => true

end Severity

inductive DiagnosticKind where
  | keyNotFound
  | recursionDepth
  | tokenizationError
  | parseError
  | variableResolution
  | evaluationError
  | unexpectedError
  deriving DecidableEq, Repr

namespace DiagnosticKind

def name : DiagnosticKind → String
  | .keyNotFound => "KeyNotFound"
  | .recursionDepth => "RecursionDepth"
  | .tokenizationError => "TokenizationError"
  | .parseError => "ParseError"
  | .variableResolution => "VariableResolution"
  | .evaluationError => "EvaluationError"
  | .unexpectedError => "UnexpectedError"

def severity : DiagnosticKind → Severity
  | .keyNotFound => .warning
  | .recursionDepth => .warning
  | .tokenizationError => .warning
  | .parseError => .error
  | .variableResolution => .error
  | .evaluationError => .error
  | .unexpectedError => .error

end DiagnosticKind

/-- A recorded problem. The span lies in the template at whose expansion depth it was found. -/
structure Diagnostic where
  severity : Severity
  kind : DiagnosticKind
  context : String
  message : String
  cause : Option String
  span : Option Span
  depth : Nat
  deriving DecidableEq, Repr

namespace Diagnostic

def new (kind : DiagnosticKind) (context message : String) (cause : Option String)
    (span : Option Span) (depth : Nat) : Diagnostic :=
  ⟨kind.severity, kind, context, message, cause, span, depth⟩

def display (diagnostic : Diagnostic) : String :=
  let line := s!"[{diagnostic.severity.name}] {diagnostic.kind.name}: {diagnostic.message}"
  match diagnostic.cause with
  | some cause => s!"{line} ({cause})"
  | none => line

end Diagnostic

namespace Diagnostics

def hasErrors (diagnostics : List Diagnostic) : Bool :=
  diagnostics.any fun diagnostic => diagnostic.severity.isError

def hasWarnings (diagnostics : List Diagnostic) : Bool :=
  diagnostics.any fun diagnostic => diagnostic.severity = .warning

def countKind (kind : DiagnosticKind) (diagnostics : List Diagnostic) : Nat :=
  diagnostics.countP fun diagnostic => diagnostic.kind = kind

def errorCount (diagnostics : List Diagnostic) : Nat :=
  diagnostics.countP fun diagnostic => diagnostic.severity.isError

/-- What is no error counts as a warning. -/
def warningCount (diagnostics : List Diagnostic) : Nat :=
  diagnostics.length - errorCount diagnostics

def counted (count : Nat) (one many : String) : String :=
  if count = 1 then s!"{count} {one}" else s!"{count} {many}"

def header (diagnostics : List Diagnostic) : String :=
  counted (errorCount diagnostics) "error" "errors" ++ ", " ++
    counted (warningCount diagnostics) "warning" "warnings"

def summary (diagnostics : List Diagnostic) : String :=
  "\n".intercalate (header diagnostics :: diagnostics.map Diagnostic.display)

theorem errorCount_add_warningCount (diagnostics : List Diagnostic) :
    errorCount diagnostics + warningCount diagnostics = diagnostics.length := by
  have bounded : errorCount diagnostics ≤ diagnostics.length := List.countP_le_length
  unfold warningCount
  omega

end Diagnostics

end Phrasebook
