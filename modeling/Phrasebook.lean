import Phrasebook.Book
import Phrasebook.Color.Code
import Phrasebook.Color.Normalize
import Phrasebook.Command.Arguments
import Phrasebook.Command.Check
import Phrasebook.Command.Coverage
import Phrasebook.Command.Eval
import Phrasebook.Command.Keys
import Phrasebook.Command.Outcome
import Phrasebook.Command.Request
import Phrasebook.Command.Run
import Phrasebook.Decimal.Binary
import Phrasebook.Decimal.Numeral
import Phrasebook.Decimal.Places
import Phrasebook.Decimal.Shortest
import Phrasebook.Diagnostic
import Phrasebook.Dictionary
import Phrasebook.File.Basic
import Phrasebook.File.Path
import Phrasebook.File.Tree
import Phrasebook.Format.Registry
import Phrasebook.Format.Standard
import Phrasebook.Formula.Basic
import Phrasebook.Formula.Evaluation
import Phrasebook.Formula.Grammar
import Phrasebook.Formula.Variable
import Phrasebook.Json.Basic
import Phrasebook.Json.Exchange
import Phrasebook.Json.Numeral
import Phrasebook.Json.Printer
import Phrasebook.Json.Reader
import Phrasebook.Json.Token
import Phrasebook.Key.Basic
import Phrasebook.Key.Keyring
import Phrasebook.Key.Literal
import Phrasebook.Key.Segment
import Phrasebook.KeyTree.Basic
import Phrasebook.KeyTree.View
import Phrasebook.Lexicon.Basic
import Phrasebook.Lexicon.Entry
import Phrasebook.Main
import Phrasebook.Phrase.Arena
import Phrasebook.Phrase.Basic
import Phrasebook.Phrase.Outline
import Phrasebook.Phrase.Reading
import Phrasebook.Phrase.Scan
import Phrasebook.Pool.Basic
import Phrasebook.Pool.Lending
import Phrasebook.Pool.Traffic
import Phrasebook.Proofs.Additions
import Phrasebook.Proofs.Arena
import Phrasebook.Proofs.BareVariables
import Phrasebook.Proofs.Beginnings
import Phrasebook.Proofs.Braces
import Phrasebook.Proofs.Branches
import Phrasebook.Proofs.Budget
import Phrasebook.Proofs.ByteSizes
import Phrasebook.Proofs.Calculations
import Phrasebook.Proofs.Checks
import Phrasebook.Proofs.Closings
import Phrasebook.Proofs.Completions
import Phrasebook.Proofs.Composition
import Phrasebook.Proofs.Edits
import Phrasebook.Proofs.Entries
import Phrasebook.Proofs.Escapes
import Phrasebook.Proofs.Figures
import Phrasebook.Proofs.FixedPlaces
import Phrasebook.Proofs.Flattening
import Phrasebook.Proofs.Grammar
import Phrasebook.Proofs.Grouping
import Phrasebook.Proofs.Integers
import Phrasebook.Proofs.KeyMap
import Phrasebook.Proofs.KeyViews
import Phrasebook.Proofs.Keyrings
import Phrasebook.Proofs.Kinds
import Phrasebook.Proofs.Laying
import Phrasebook.Proofs.Lendings
import Phrasebook.Proofs.Levels
import Phrasebook.Proofs.Lexemes
import Phrasebook.Proofs.Loads
import Phrasebook.Proofs.Marks
import Phrasebook.Proofs.Markup
import Phrasebook.Proofs.Neighbours
import Phrasebook.Proofs.Nesting
import Phrasebook.Proofs.Normalization
import Phrasebook.Proofs.PaletteTags
import Phrasebook.Proofs.ParameterTexts
import Phrasebook.Proofs.Parameters
import Phrasebook.Proofs.Parsing
import Phrasebook.Proofs.Places
import Phrasebook.Proofs.Pointing
import Phrasebook.Proofs.Precisions
import Phrasebook.Proofs.Recoloring
import Phrasebook.Proofs.Recovery
import Phrasebook.Proofs.References
import Phrasebook.Proofs.Rentals
import Phrasebook.Proofs.Shortcuts
import Phrasebook.Proofs.Steps
import Phrasebook.Proofs.Summaries
import Phrasebook.Proofs.Surplus
import Phrasebook.Proofs.Tags
import Phrasebook.Proofs.Variables
import Phrasebook.Proofs.Violations
import Phrasebook.Proofs.Walks
import Phrasebook.Proofs.Widening
import Phrasebook.Render.Context
import Phrasebook.Render.Decoration
import Phrasebook.Render.Noted
import Phrasebook.Render.Renderer
import Phrasebook.Render.Thorough
import Phrasebook.Report.Listing
import Phrasebook.Report.Located
import Phrasebook.Report.Table
import Phrasebook.Suggestion
import Phrasebook.Text.Blank
import Phrasebook.Text.Hidden
import Phrasebook.Text.Joined
import Phrasebook.Text.Ligature
import Phrasebook.Text.Measure
import Phrasebook.Text.Picture
import Phrasebook.Text.Quoted
import Phrasebook.Text.Range
import Phrasebook.Text.Split
import Phrasebook.Text.Width
import Phrasebook.Value
