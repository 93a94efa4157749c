import Phrasebook.Book
import Phrasebook.Command.Outcome
import Phrasebook.Command.Request
import Phrasebook.Report.Listing

/-!
Evaluation of a single template, or of the phrase of a key. The text is the result, whether it has
errors or not; the diagnostics are remarks, or part of the result if that is JSON.
-/

namespace Phrasebook.Command.EvalRequest

def book (request : EvalRequest) (lexicon : Lexicon) : Book :=
  { Book.ofLexicon lexicon with maxDepth := request.maxDepth, subtraction := request.subtraction }

/-- The given parameters, each read as a number if it is one. -/
def givenParams (request : EvalRequest) : Params :=
  Params.ofList (request.params.map fun param => (param.1, Value.ofLiteral param.2))

def evaluate (request : EvalRequest) (lexicon : Lexicon) : Except Failure Evaluation :=
  let book := request.book lexicon
  let context := book.context request.givenParams
  match request.subject with
  | .template text => .ok (book.render context text).1
  | .key name => (parseKey name).map fun key => (book.renderKey context key).1

def evaluationJson (evaluation : Evaluation) : Json :=
  .object [
    ("result", .string evaluation.text),
    ("diagnostics", Diagnostics.toJson evaluation.diagnostics)]

def remarks (evaluation : Evaluation) : String :=
  if evaluation.diagnostics.isEmpty then ""
  else Diagnostics.summary evaluation.diagnostics ++ "\n"

def report (request : EvalRequest) (evaluation : Evaluation) : Outcome :=
  let status := Status.ofFault (Diagnostics.hasErrors evaluation.diagnostics)
  if request.json then ⟨status, listing (evaluationJson evaluation), ""⟩
  else ⟨status, evaluation.text ++ "\n", remarks evaluation⟩

def answer (request : EvalRequest) (lexicon : Lexicon) : Except Failure Outcome :=
  (request.evaluate lexicon).map request.report

end Phrasebook.Command.EvalRequest
