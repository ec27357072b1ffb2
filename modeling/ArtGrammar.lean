import ArtGrammar.CommandLine.Files
import ArtGrammar.CommandLine.Options
import ArtGrammar.CommandLine.Session
import ArtGrammar.Decimal.Basic
import ArtGrammar.Decimal.Layout
import ArtGrammar.Decimal.Numeral
import ArtGrammar.Decimal.Scan
import ArtGrammar.Decimal.Shortest
import ArtGrammar.Draws.ChaCha
import ArtGrammar.Draws.Tape
import ArtGrammar.Expr.Basic
import ArtGrammar.Expr.Kind
import ArtGrammar.Expr.Text
import ArtGrammar.Fault
import ArtGrammar.Grammar.Basic
import ArtGrammar.Grammar.Classic
import ArtGrammar.Grammar.Quadrants
import ArtGrammar.Grammar.Validity
import ArtGrammar.GrammarFile.Contents
import ArtGrammar.GrammarFile.Datum
import ArtGrammar.GrammarFile.Decoding
import ArtGrammar.GrammarFile.Header
import ArtGrammar.GrammarFile.Name
import ArtGrammar.GrammarFile.Number
import ArtGrammar.GrammarFile.Quotation
import ArtGrammar.GrammarFile.Range
import ArtGrammar.GrammarFile.Reader
import ArtGrammar.GrammarFile.Spacing
import ArtGrammar.Image.Canvas
import ArtGrammar.Image.Raster
import ArtGrammar.Json.Basic
import ArtGrammar.Json.Decoding
import ArtGrammar.Json.Encoding
import ArtGrammar.Json.Reader
import ArtGrammar.Json.Writer
import ArtGrammar.Main
import ArtGrammar.Proofs.CommandLine.Session
import ArtGrammar.Proofs.Decimal.Naming
import ArtGrammar.Proofs.Decimal.Shortest
import ArtGrammar.Proofs.Decimal.Writing
import ArtGrammar.Proofs.Draws.Numbers
import ArtGrammar.Proofs.Draws.Runs
import ArtGrammar.Proofs.Expr.Measure
import ArtGrammar.Proofs.Expr.Nodes
import ArtGrammar.Proofs.Expr.Substitution
import ArtGrammar.Proofs.Grammar.Assembly
import ArtGrammar.Proofs.Grammar.Defect
import ArtGrammar.Proofs.Grammar.Descent
import ArtGrammar.Proofs.Grammar.History
import ArtGrammar.Proofs.Grammar.Total
import ArtGrammar.Proofs.Grammar.Uniform
import ArtGrammar.Proofs.Grammar.Validity
import ArtGrammar.Proofs.Image.Brightness
import ArtGrammar.Proofs.Image.Channel
import ArtGrammar.Proofs.Image.Geometry
import ArtGrammar.Proofs.Image.Raster
import ArtGrammar.Proofs.Json.Decoding
import ArtGrammar.Proofs.Json.Number
import ArtGrammar.Proofs.Json.RoundTrip
import ArtGrammar.Proofs.Json.Text
import ArtGrammar.Proofs.Shader.Characters
import ArtGrammar.Proofs.Shader.Declaration
import ArtGrammar.Proofs.Shader.Formula
import ArtGrammar.Proofs.Shader.Invariance
import ArtGrammar.Proofs.Shader.Lexeme
import ArtGrammar.Proofs.Shader.Literal
import ArtGrammar.Proofs.Shader.Meaning
import ArtGrammar.Proofs.Shader.Recovery
import ArtGrammar.Proofs.Shader.Refusal
import ArtGrammar.Proofs.Shader.Splice
import ArtGrammar.Proofs.Shader.Template
import ArtGrammar.Proofs.Shader.Term
import ArtGrammar.Proofs.Shader.Token
import ArtGrammar.Proofs.Shader.Transcription
import ArtGrammar.Proofs.Single.Exact
import ArtGrammar.Proofs.Single.Monotone
import ArtGrammar.Proofs.Single.Order
import ArtGrammar.Proofs.Single.Repeated
import ArtGrammar.Proofs.Single.Rounding
import ArtGrammar.Proofs.Single.Shares
import ArtGrammar.Proofs.Single.Weights
import ArtGrammar.Proofs.Synthesis.Calls
import ArtGrammar.Proofs.Synthesis.Choice
import ArtGrammar.Proofs.Synthesis.Configuration
import ArtGrammar.Proofs.Synthesis.Decay
import ArtGrammar.Proofs.Synthesis.Derivation
import ArtGrammar.Proofs.Synthesis.Derived
import ArtGrammar.Proofs.Synthesis.Intervals
import ArtGrammar.Proofs.Synthesis.Locality
import ArtGrammar.Proofs.Synthesis.Nesting
import ArtGrammar.Proofs.Synthesis.Overflow
import ArtGrammar.Proofs.Synthesis.Positive
import ArtGrammar.Proofs.Synthesis.Reachability
import ArtGrammar.Proofs.Synthesis.Spent
import ArtGrammar.Proofs.Synthesis.Stops
import ArtGrammar.Proofs.Synthesis.Termination
import ArtGrammar.Proofs.Synthesis.Typing
import ArtGrammar.Proofs.Synthesis.Unfolding
import ArtGrammar.Proofs.Value.Failure
import ArtGrammar.Proofs.Value.Lanes
import ArtGrammar.Proofs.Value.Selection
import ArtGrammar.Proofs.Value.Static
import ArtGrammar.Proofs.Value.Typing
import ArtGrammar.Shader.Dialect
import ArtGrammar.Shader.Template
import ArtGrammar.Shader.Transcription
import ArtGrammar.Single.Basic
import ArtGrammar.Single.Bits
import ArtGrammar.Single.Sine
import ArtGrammar.Single.Spelling
import ArtGrammar.Synthesis.Choice
import ArtGrammar.Synthesis.Configuration
import ArtGrammar.Synthesis.Expansion
import ArtGrammar.Synthesis.Overflow
import ArtGrammar.Text.Basic
import ArtGrammar.Text.Identifier
import ArtGrammar.Text.Printable
import ArtGrammar.Text.Quoted
import ArtGrammar.Value.Basic
import ArtGrammar.Value.Evaluation
import ArtGrammar.Value.Viewpoint
