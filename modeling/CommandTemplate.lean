import CommandTemplate.Run
import CommandTemplate.Variable.Builtin
import CommandTemplate.Variable.Custom
import CommandTemplate.Variable.Catalog
import CommandTemplate.Document.Basic
import CommandTemplate.Toml.Quoted
import CommandTemplate.Toml.Reader
import CommandTemplate.ProgramError
import CommandTemplate.Prompt.Basic
import CommandTemplate.Settings.Basic
import CommandTemplate.Settings.Decode
import CommandTemplate.Settings.Load
import CommandTemplate.CommandLine.Resolve
import CommandTemplate.CommandLine.Arguments
import CommandTemplate.Document.Json
import CommandTemplate.Settings.LogLevel
import CommandTemplate.CommandLine.Program
import CommandTemplate.Main
import CommandTemplate.Token.Grammar
import CommandTemplate.Proofs.Acceptance
import CommandTemplate.Proofs.Occurrences
import CommandTemplate.Proofs.Capture
import CommandTemplate.Proofs.Stateless
import CommandTemplate.Proofs.Template
import CommandTemplate.Proofs.Phase
import CommandTemplate.Proofs.Isolation
import CommandTemplate.Proofs.Quoting
import CommandTemplate.Proofs.Faults
import CommandTemplate.Proofs.History
import CommandTemplate.Proofs.Consistency
import CommandTemplate.Proofs.Atomicity
import CommandTemplate.Proofs.Finality
import CommandTemplate.Proofs.Splicing
import CommandTemplate.Proofs.Cuts
import CommandTemplate.Proofs.OnePhase
import CommandTemplate.Proofs.CommandText
import CommandTemplate.Proofs.Verbatim
import CommandTemplate.Proofs.CustomSets
import CommandTemplate.Proofs.ByteOrder
import CommandTemplate.Proofs.Layers
import CommandTemplate.Proofs.IdleRuns
import CommandTemplate.Proofs.Requests
import CommandTemplate.Proofs.Outcomes
import CommandTemplate.Proofs.Answers
import CommandTemplate.Proofs.RequestErrors
import CommandTemplate.Proofs.Untouched
import CommandTemplate.Proofs.Sources
import CommandTemplate.Proofs.CustomTokens
import CommandTemplate.Proofs.Success
import CommandTemplate.Proofs.Rendering
import CommandTemplate.Proofs.Closing
import CommandTemplate.Proofs.AsciiCase
import CommandTemplate.Proofs.Encounters
import CommandTemplate.Proofs.Paths
import CommandTemplate.Proofs.PathOptions
import CommandTemplate.Proofs.Numerals
import CommandTemplate.Proofs.Writes
import CommandTemplate.Proofs.Catalogs
import CommandTemplate.Proofs.DateFormats
import CommandTemplate.Proofs.Strftime
import CommandTemplate.Proofs.Identifiers
import CommandTemplate.Proofs.Assignments
import CommandTemplate.Proofs.ShownPaths
import CommandTemplate.Proofs.PromptAnswers
import CommandTemplate.Proofs.Completion
import CommandTemplate.Proofs.Messages
