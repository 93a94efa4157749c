import Phrasebook.Command.Check
import Phrasebook.Command.Coverage
import Phrasebook.Command.Eval
import Phrasebook.Command.Keys

/-!
Requests, and the files that they need. How a file is read is left open: from the disk, or from a
directory that is held in memory.
-/

namespace Phrasebook.Command

variable {m : Type → Type} [Monad m]

def withDictionary (read : String → m FileContent) (path : String)
    (answer : Lexicon → Except Failure Outcome) : m (Except Failure Outcome) := do
  let content ← read path
  return ((Dictionary.lexiconOfFile path content).mapError .dictionary).bind answer

def Request.run (read : String → m FileContent) : Request → m (Except Failure Outcome)
  | .check request => withDictionary read request.dictionary fun lexicon =>
      .ok (request.answer lexicon)
  | .keys request => withDictionary read request.dictionary request.answer
  | .eval request =>
      match request.dictionary with
      | some path => withDictionary read path request.answer
      | none => pure (request.answer Lexicon.empty)
  | .coverage request => do
      let source ← read request.source
      let files ← request.languages.mapM fun language => do
        return (language, ← read (request.languageFile language))
      return request.answer source files

end Phrasebook.Command
