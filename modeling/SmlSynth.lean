import SmlSynth.Command.Arguments
import SmlSynth.Command.LogFilter
import SmlSynth.Command.Run
import SmlSynth.Command.ValuePattern
import SmlSynth.Decimal.Shortest
import SmlSynth.Digits
import SmlSynth.Files.Directories
import SmlSynth.Files.Fault
import SmlSynth.Files.Path
import SmlSynth.Files.Tree
import SmlSynth.Gen.Basic
import SmlSynth.Gen.Combinators
import SmlSynth.Gen.Context
import SmlSynth.Gen.Draw
import SmlSynth.Gen.Error
import SmlSynth.Gen.Grammar
import SmlSynth.Gen.Weights
import SmlSynth.Grammar.Catalog
import SmlSynth.Grammar.Characters
import SmlSynth.Grammar.Comment
import SmlSynth.Grammar.Dec
import SmlSynth.Grammar.Exp
import SmlSynth.Grammar.Lexeme
import SmlSynth.Grammar.Literal
import SmlSynth.Grammar.Pat
import SmlSynth.Grammar.Phrase
import SmlSynth.Grammar.Sml
import SmlSynth.Grammar.Ty
import SmlSynth.Grammar.Words
import SmlSynth.Json.Decode
import SmlSynth.Json.Printer
import SmlSynth.Json.Reader
import SmlSynth.Json.Value
import SmlSynth.Main
import SmlSynth.Manifest
import SmlSynth.Profile
import SmlSynth.Profile.Lookup
import SmlSynth.Program.Batch
import SmlSynth.Program.Budget
import SmlSynth.Program.Config
import SmlSynth.Program.Event
import SmlSynth.Program.Shape
import SmlSynth.Program.Tier
import SmlSynth.Random.ChaCha
import SmlSynth.Random.Source
import SmlSynth.Records
import SmlSynth.Report
import SmlSynth.Text
import SmlSynth.Text.Classes
import SmlSynth.Text.Fill
import SmlSynth.Text.LineBreak
import SmlSynth.Toml.Document
import SmlSynth.Toml.Scalar
import SmlSynth.Toml.Value
import SmlSynth.Word
import SmlSynth.Proofs.Sampler
import SmlSynth.Proofs.Frame
import SmlSynth.Proofs.Combinators
import SmlSynth.Proofs.Reading
import SmlSynth.Proofs.Forms
import SmlSynth.Proofs.Marks
import SmlSynth.Proofs.Comments
import SmlSynth.Proofs.Lexemes
import SmlSynth.Proofs.Delimiters
import SmlSynth.Proofs.Fuel
import SmlSynth.Proofs.Termination
import SmlSynth.Proofs.Success
import SmlSynth.Proofs.Plan
import SmlSynth.Proofs.Reaching
import SmlSynth.Proofs.Scopes
import SmlSynth.Proofs.Sanitize
import SmlSynth.Proofs.Selection
import SmlSynth.Proofs.Length
import SmlSynth.Proofs.Detail
import SmlSynth.Proofs.Nesting
import SmlSynth.Proofs.Blocks
import SmlSynth.Proofs.Wording
import SmlSynth.Proofs.Budgets
import SmlSynth.Proofs.Batches
import SmlSynth.Proofs.Switches
import SmlSynth.Proofs.Places
import SmlSynth.Proofs.FileNames
import SmlSynth.Proofs.Profiles
import SmlSynth.Proofs.Numbers
import SmlSynth.Proofs.Writing
import SmlSynth.Proofs.Shares
import SmlSynth.Proofs.Identifiers
import SmlSynth.Proofs.Segments
import SmlSynth.Proofs.Joints
import SmlSynth.Proofs.Rims
import SmlSynth.Proofs.Separators
import SmlSynth.Proofs.Rows
import SmlSynth.Proofs.Literals
import SmlSynth.Proofs.Constants
import SmlSynth.Proofs.Suites
import SmlSynth.Proofs.Logs
import SmlSynth.Proofs.Laws
import SmlSynth.Proofs.Doubles
import SmlSynth.Proofs.Gate
import SmlSynth.Proofs.Repetition
import SmlSynth.Proofs.Rejection
import SmlSynth.Proofs.Printed
import SmlSynth.Proofs.RoundTrip
