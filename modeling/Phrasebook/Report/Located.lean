import Phrasebook.Diagnostic

/-!
Reports of diagnostics in the template of a key. A diagnostic points into the template only if it
was found in the template itself, and not in a phrase that the template refers to.
-/

namespace Phrasebook

structure Label where
  caption : String
  start : Nat
  length : Nat
  deriving DecidableEq, Repr

structure LocatedDiagnostic where
  diagnostic : Diagnostic
  label : Option Label
  deriving DecidableEq, Repr

namespace LocatedDiagnostic

/-- The stretch that the diagnostic points to, at least one byte long. -/
def label? (template : String) (diagnostic : Diagnostic) : Option Label :=
  match diagnostic.span with
  | none => none
  | some span =>
      if diagnostic.depth = 0 ∧ span.stop ≤ template.utf8ByteSize then
        some ⟨diagnostic.kind.name, span.start, max span.length 1⟩
      else none

def new (template : String) (diagnostic : Diagnostic) : LocatedDiagnostic :=
  ⟨diagnostic, label? template diagnostic⟩

def code (located : LocatedDiagnostic) : String :=
  "lokal::" ++ located.diagnostic.kind.name

def message (located : LocatedDiagnostic) : String := located.diagnostic.message

def help (located : LocatedDiagnostic) : Option String := located.diagnostic.cause

def isError (located : LocatedDiagnostic) : Bool := located.diagnostic.severity.isError

end LocatedDiagnostic

end Phrasebook
