import PathLabels.Text.Integers
import PathLabels.Text.Quoted
import PathLabels.Decimal.Shortest
import PathLabels.Duration
import PathLabels.PathPattern
import PathLabels.Text.Reader
import PathLabels.Toml.Scalar
import PathLabels.Toml.Document
import PathLabels.RuleTable.Schema
import PathLabels.ConfigError
import PathLabels.RuleTable.Basic
import PathLabels.Ascending
import PathLabels.ChangeSet
import PathLabels.Decision
import PathLabels.Applying
import PathLabels.Git.Basic
import PathLabels.Git.Script
import PathLabels.Tracker.Journal
import PathLabels.Tracker.Memory
import PathLabels.Pipeline
import PathLabels.Config
import PathLabels.Json.Reading
import PathLabels.Json.Writing
import PathLabels.Http.Host
import PathLabels.Http.Url
import PathLabels.GitHub.Client
import PathLabels.Http.Script
import PathLabels.FileTree
import PathLabels.StalePatterns
import PathLabels.Host.Basic
import PathLabels.Host.World
import PathLabels.Labeling
import PathLabels.MatchText
import PathLabels.StepOutput
import PathLabels.Cli.Arguments
import PathLabels.Cli.Command
import PathLabels.Cli.LogFilter
import PathLabels.Cli.Execution
import PathLabels.Main
import PathLabels.Proofs.Reruns
import PathLabels.Proofs.Histories
import PathLabels.Proofs.LongestPrefix
import PathLabels.Proofs.Accounting
import PathLabels.Proofs.Compiling
import PathLabels.Proofs.Placement
import PathLabels.Proofs.WritingOrder
import PathLabels.Proofs.Evolution
import PathLabels.Proofs.Labelling
import PathLabels.Proofs.ExitCode
import PathLabels.Proofs.Idempotence
import PathLabels.Proofs.Deliveries
import PathLabels.Proofs.RateGate
import PathLabels.Proofs.Exhaustion
import PathLabels.Proofs.GlobLanguage
import PathLabels.Proofs.GlobContinuation
import PathLabels.Proofs.Subtree
import PathLabels.Proofs.Isolation
import PathLabels.Proofs.StageOrder
import PathLabels.Proofs.Utf8
import PathLabels.Proofs.Checkout
import PathLabels.Proofs.Listing
import PathLabels.Proofs.Words
import PathLabels.Proofs.Forecast
import PathLabels.Proofs.Existence
import PathLabels.Proofs.Fetching
import PathLabels.Proofs.Edits
import PathLabels.Proofs.JsonText
import PathLabels.Proofs.Appending
import PathLabels.Proofs.StepLines
import PathLabels.Proofs.Restarts
import PathLabels.Proofs.Stages
import PathLabels.Proofs.Arrangement
import PathLabels.Proofs.Components
import PathLabels.Proofs.PrefixOrder
import PathLabels.Proofs.Addresses
import PathLabels.Proofs.Confinement
import PathLabels.Proofs.Credentials
import PathLabels.Proofs.Spelling
import PathLabels.Proofs.NormalForm
import PathLabels.Proofs.LiteralStart
import PathLabels.Proofs.QuotaReport
import PathLabels.Proofs.LeftAlone
import PathLabels.Proofs.Outcomes
import PathLabels.Proofs.FirstFault
import PathLabels.Proofs.Unstarted
import PathLabels.Proofs.NulEnded
import PathLabels.Proofs.OutputLines
import PathLabels.Proofs.RepositoryText
import PathLabels.Proofs.ResetTimes
import PathLabels.Proofs.Fields
