import Phrasebook.Render.Renderer

/-!
Phrasebooks: a lexicon together with number formats, options and pools. A phrasebook renders
templates and the phrases of keys; a key that is not there is rendered as itself.
-/

namespace Phrasebook

structure Evaluation where
  text : String
  diagnostics : List Diagnostic
  deriving DecidableEq, Repr

structure Book where
  lexicon : Lexicon
  formats : FormatRegistry
  pools : Pools
  maxDepth : Nat
  decoration : Decoration
  subtraction : SubtractionMode

namespace Book

def ofLexicon (lexicon : Lexicon) : Book :=
  ⟨lexicon, .defaults, .new, Context.defaultMaxDepth, .usual, .legacy⟩

def empty : Book := ofLexicon .empty

def renderer (book : Book) : Renderer :=
  ⟨book.lexicon, book.formats, book.decoration, book.subtraction⟩

def context (book : Book) (params : Params) : Context :=
  (Context.new params).withMaxDepth book.maxDepth

/-- The result of a rendering, and the phrasebook whose pools have followed it. -/
def settle (book : Book) (noted : Noted String) : Evaluation × Book :=
  (⟨noted.value, noted.diagnostics⟩, { book with pools := book.pools.follow noted.traffic })

def renderNoted (book : Book) (context : Context) (template : String) : Noted String :=
  book.renderer.render context template

def render (book : Book) (context : Context) (template : String) : Evaluation × Book :=
  book.settle (book.renderNoted context template)

def renderEach (book : Book) (contexts : List Context) (source : String) :
    List Evaluation × Book :=
  let template := Template.read source
  let results := contexts.map fun context => book.renderer.evaluate context template
  let traffic :=
    .rent .trees :: template.readTraffic ++ results.flatMap (·.traffic) ++ [.giveBack .trees]
  (results.map fun result => ⟨result.value, result.diagnostics⟩,
    { book with pools := book.pools.follow traffic })

def missing (book : Book) (key : Key) : Noted String := do
  let message := book.lexicon.missingMessage key
  Noted.report (.new .keyNotFound key.text message none none 0)
  pure key.text

def renderKeyNoted (book : Book) (context : Context) (key : Key) : Noted String :=
  match book.lexicon.text? key with
  | some template => book.renderNoted context template
  | none => book.missing key

def renderKey (book : Book) (context : Context) (key : Key) : Evaluation × Book :=
  book.settle (book.renderKeyNoted context key)

def textOf (book : Book) (params : Params) (key : Key) : String × Book :=
  let result := book.renderKey (book.context params) key
  (result.1.text, result.2)

/-- Replaces the lexicon, if all keys are valid. -/
def reload (book : Book) (pairs : List (String × String)) : Except LoadError Book :=
  (Lexicon.ofPairs pairs).map fun lexicon => { book with lexicon := lexicon }

def insert (book : Book) (key : Key) (text : String) : Option String × Book :=
  let result := book.lexicon.insert key text
  (result.1, { book with lexicon := result.2 })

def remove (book : Book) (key : Key) : Option String × Book :=
  let result := book.lexicon.remove key
  (result.1, { book with lexicon := result.2 })

end Book

end Phrasebook
