import Phrasebook.Book
import Phrasebook.Command.Outcome
import Phrasebook.Command.Request
import Phrasebook.Report.Listing
import Phrasebook.Report.Located
import Phrasebook.Report.Table

/-!
The check of a dictionary: the phrase of every key is rendered, and those with diagnostics are
reported. All variables stand for the same number, so that only the phrases themselves can be at
fault.
-/

namespace Phrasebook.Command

structure Finding where
  key : Key
  evaluation : Evaluation

namespace Finding

def errorCount (finding : Finding) : Nat :=
  Diagnostics.errorCount finding.evaluation.diagnostics

def warningCount (finding : Finding) : Nat :=
  Diagnostics.warningCount finding.evaluation.diagnostics

def isError (finding : Finding) : Bool :=
  Diagnostics.hasErrors finding.evaluation.diagnostics

def toJson (finding : Finding) : Json :=
  .object [
    ("key", .string finding.key.text),
    ("diagnostics", Diagnostics.toJson finding.evaluation.diagnostics)]

def cells (finding : Finding) : List String :=
  [finding.key.text, toString finding.errorCount, toString finding.warningCount]

/-- The phrase that was rendered; that of a key that is not there is empty. -/
def template (lexicon : Lexicon) (finding : Finding) : String :=
  (lexicon.text? finding.key).getD ""

def reports (lexicon : Lexicon) (finding : Finding) : List LocatedDiagnostic :=
  finding.evaluation.diagnostics.map (LocatedDiagnostic.new (finding.template lexicon))

end Finding

namespace CheckRequest

/-- Answers for every variable with the number one. -/
def placeholder : Source := fun _ _ => .ok (some (.integer 1))

def book (request : CheckRequest) (lexicon : Lexicon) : Book :=
  { Book.ofLexicon lexicon with maxDepth := request.maxDepth }

def context (request : CheckRequest) (lexicon : Lexicon) : Context :=
  ((request.book lexicon).context Params.empty).withSource placeholder

def evaluations (request : CheckRequest) (lexicon : Lexicon) : List Finding :=
  lexicon.keys.map fun key =>
    ⟨key, ((request.book lexicon).renderKey (request.context lexicon) key).1⟩

def findings (request : CheckRequest) (lexicon : Lexicon) : List Finding :=
  (request.evaluations lexicon).filter fun finding => !finding.evaluation.diagnostics.isEmpty

def table (findings : List Finding) : Table :=
  ⟨["Key", "Errors", "Warnings"], findings.map Finding.cells⟩

def highlighted (number : Nat) : String := s!"\x1b[33m{number}\x1b[39m"

def approval : String := "\x1b[1m\x1b[32mok:\x1b[39m\x1b[0m"

def output (request : CheckRequest) (keyCount : Nat) (findings : List Finding) : String :=
  if request.json then listing (.array (findings.map Finding.toJson))
  else if findings.isEmpty then s!"{approval} {keyCount} keys checked\n"
  else
    (table findings).render ++ "\n" ++
      s!"{highlighted findings.length} of {keyCount} keys have diagnostics\n"

def answer (request : CheckRequest) (lexicon : Lexicon) : Outcome :=
  let findings := request.findings lexicon
  ⟨Status.ofFault (findings.any Finding.isError),
    request.output lexicon.keys.length findings, ""⟩

end CheckRequest

end Phrasebook.Command
