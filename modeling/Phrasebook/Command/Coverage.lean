import Phrasebook.Command.Outcome
import Phrasebook.Command.Request
import Phrasebook.File.Path
import Phrasebook.Report.Table

/-!
Coverage of languages: which keys of a source dictionary the dictionary of a language lacks. A
language without a dictionary lacks all of them.
-/

namespace Phrasebook.Command

structure LanguageCoverage where
  language : String
  total : Nat
  missing : List String
  deriving DecidableEq, Repr

namespace LanguageCoverage

def new (language : String) (source found : List String) : LanguageCoverage :=
  ⟨language, source.length, source.filter fun key => !found.contains key⟩

def covered (coverage : LanguageCoverage) : Nat :=
  coverage.total - coverage.missing.length

def isComplete (coverage : LanguageCoverage) : Bool := coverage.missing.isEmpty

def toJson (coverage : LanguageCoverage) : Json :=
  .object [
    ("language", .string coverage.language),
    ("translated", .ofNat coverage.covered),
    ("total", .ofNat coverage.total),
    ("missing", .array (coverage.missing.map .string))]

def cells (coverage : LanguageCoverage) : List String :=
  [coverage.language, s!"{coverage.covered}/{coverage.total}",
    toString coverage.missing.length]

def missingSection (coverage : LanguageCoverage) : String :=
  if coverage.isComplete then ""
  else
    s!"\nMissing in {coverage.language}:\n" ++
      String.join (coverage.missing.map fun key => s!"  - {key}\n")

theorem covered_add_missing (language : String) (source found : List String) :
    (new language source found).covered + (new language source found).missing.length =
      source.length := by
  have bounded := List.length_filter_le (fun key => !found.contains key) source
  simp only [covered, new]
  omega

theorem mem_missing_iff (language key : String) (source found : List String) :
    key ∈ (new language source found).missing ↔ key ∈ source ∧ key ∉ found := by
  simp [new]

end LanguageCoverage

namespace CoverageRequest

/-- The directory of the dictionaries: as given, else the one of the source. -/
def baseDirectory (request : CoverageRequest) : String :=
  (request.directory.or (File.parent? request.source)).getD "."

def languageFile (request : CoverageRequest) (language : String) : String :=
  File.join request.baseDirectory (language ++ ".json")

def keySet (pairs : List (String × String)) : List String :=
  ((pairs.map (·.1)).mergeSort fun first second => first ≤ second).eraseReps

def keysOfFile (path : String) (content : FileContent) : Except Failure (List String) :=
  ((Dictionary.ofFile path content).map keySet).mapError .dictionary

def coverageOf (request : CoverageRequest) (source : List String) (language : String)
    (content : FileContent) : Except Failure LanguageCoverage :=
  if content.isPresent then
    (keysOfFile (request.languageFile language) content).map (.new language source)
  else .ok (.new language source [])

def table (coverages : List LanguageCoverage) : Table :=
  ⟨["Language", "Coverage", "Missing"], coverages.map LanguageCoverage.cells⟩

def output (request : CoverageRequest) (coverages : List LanguageCoverage) : String :=
  if request.json then listing (.array (coverages.map LanguageCoverage.toJson))
  else
    (table coverages).render ++ "\n" ++
      String.join (coverages.map LanguageCoverage.missingSection)

/-- Missing keys are a fault only where completeness is asked for. -/
def report (request : CoverageRequest) (coverages : List LanguageCoverage) : Outcome :=
  let incomplete := coverages.any fun coverage => !coverage.isComplete
  ⟨Status.ofFault (request.strict && incomplete), request.output coverages, ""⟩

def answer (request : CoverageRequest) (source : FileContent)
    (files : List (String × FileContent)) : Except Failure Outcome := do
  let keys ← keysOfFile request.source source
  let coverages ← files.mapM fun file => request.coverageOf keys file.1 file.2
  return request.report coverages

end CoverageRequest

end Phrasebook.Command
