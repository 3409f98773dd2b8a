import GrammarCheck.Bundled.Exports
import GrammarCheck.Bundled.Fig
import GrammarCheck.Bundled.Lexeme
import GrammarCheck.Bundled.Nyx
import GrammarCheck.Bundled.Nyx.Draft
import GrammarCheck.Bundled.Nyx.Part
import GrammarCheck.CommandLine.Arguments
import GrammarCheck.CommandLine.Run
import GrammarCheck.Conformance
import GrammarCheck.Decimal.Nearest
import GrammarCheck.Decimal.Shortest
import GrammarCheck.Decimal.Style
import GrammarCheck.FileTree
import GrammarCheck.Files
import GrammarCheck.Grammar.Basic
import GrammarCheck.Grammar.Reading
import GrammarCheck.Grammar.Rule
import GrammarCheck.Grammar.RuleReading
import GrammarCheck.Host
import GrammarCheck.Json.Document
import GrammarCheck.Json.Fault
import GrammarCheck.Json.Number
import GrammarCheck.Json.Quotation
import GrammarCheck.Json.Reading
import GrammarCheck.Json.Token
import GrammarCheck.Language
import GrammarCheck.Loading
import GrammarCheck.Main
import GrammarCheck.Names
import GrammarCheck.NodeKind
import GrammarCheck.Path
import GrammarCheck.Proofs.CommandLine.Arguments
import GrammarCheck.Proofs.CommandLine.Lines
import GrammarCheck.Proofs.CommandLine.Projection
import GrammarCheck.Proofs.CommandLine.Quiet
import GrammarCheck.Proofs.CommandLine.Verdict
import GrammarCheck.Proofs.Conformance.Externals
import GrammarCheck.Proofs.Conformance.FindingCount
import GrammarCheck.Proofs.Conformance.Gathering
import GrammarCheck.Proofs.Conformance.Kinds
import GrammarCheck.Proofs.Conformance.Missing
import GrammarCheck.Proofs.Conformance.TokenLiterals
import GrammarCheck.Proofs.Grammar.Alike
import GrammarCheck.Proofs.Grammar.Dangling
import GrammarCheck.Proofs.Grammar.Height
import GrammarCheck.Proofs.Grammar.Malformed
import GrammarCheck.Proofs.Grammar.Meaning
import GrammarCheck.Proofs.Grammar.ObjectForm
import GrammarCheck.Proofs.Grammar.Occurrence
import GrammarCheck.Proofs.Grammar.Refused
import GrammarCheck.Proofs.Grammar.RuleMeaning
import GrammarCheck.Proofs.Grammar.RuleValue
import GrammarCheck.Proofs.Grammar.Symbols
import GrammarCheck.Proofs.Grammar.Traced
import GrammarCheck.Proofs.Json.Alike
import GrammarCheck.Proofs.Json.Literal
import GrammarCheck.Proofs.Json.Number
import GrammarCheck.Proofs.Json.Quotation
import GrammarCheck.Proofs.Json.Record
import GrammarCheck.Proofs.Json.Shown
import GrammarCheck.Proofs.Json.Spelling
import GrammarCheck.Proofs.Json.Strict
import GrammarCheck.Proofs.Json.Tokens
import GrammarCheck.Proofs.Json.Traced
import GrammarCheck.Proofs.Json.Tree
import GrammarCheck.Proofs.Json.Value
import GrammarCheck.Proofs.Json.Whole
import GrammarCheck.Proofs.Json.Written
import GrammarCheck.Proofs.Loading
import GrammarCheck.Proofs.Path
import GrammarCheck.Proofs.Registry.Defaults
import GrammarCheck.Proofs.Registry.Invariant
import GrammarCheck.Proofs.Registry.Malformed
import GrammarCheck.Proofs.Registry.Meaning
import GrammarCheck.Proofs.Registry.Relocation
import GrammarCheck.Proofs.Registry.Selection
import GrammarCheck.Proofs.Registry.UnknownKeys
import GrammarCheck.Proofs.Registry.Validation
import GrammarCheck.Proofs.RegistryFile.Dialect
import GrammarCheck.Proofs.RegistryFile.Endless
import GrammarCheck.Proofs.RegistryFile.Members
import GrammarCheck.Proofs.RegistryFile.Number
import GrammarCheck.Proofs.RegistryFile.Quotation
import GrammarCheck.Proofs.RegistryFile.Scanning
import GrammarCheck.Proofs.RegistryFile.Skipping
import GrammarCheck.Proofs.RegistryFile.Tokens
import GrammarCheck.Proofs.RegistryFile.Value
import GrammarCheck.Proofs.RegistryFile.Written
import GrammarCheck.Proofs.Report
import GrammarCheck.Proofs.Sample
import GrammarCheck.Proofs.Sample.DocumentOrder
import GrammarCheck.Proofs.Table
import GrammarCheck.Proofs.Text.ByteOrder
import GrammarCheck.Proofs.Text.Lines
import GrammarCheck.Proofs.Text.Units
import GrammarCheck.Proofs.Workers
import GrammarCheck.Registry.Basic
import GrammarCheck.Registry.Entry
import GrammarCheck.Registry.Names
import GrammarCheck.RegistryFile.Fault
import GrammarCheck.RegistryFile.Number
import GrammarCheck.RegistryFile.Quotation
import GrammarCheck.RegistryFile.Reading
import GrammarCheck.RegistryFile.Stream
import GrammarCheck.RegistryFile.Token
import GrammarCheck.Report
import GrammarCheck.Sample
import GrammarCheck.SyntaxTree
import GrammarCheck.Table
import GrammarCheck.Text.Capital
import GrammarCheck.Text.Hidden
import GrammarCheck.Text.Letters
import GrammarCheck.Text.Quoted
import GrammarCheck.Text.Runs
import GrammarCheck.Text.Words
import GrammarCheck.Workers
