import StackMachine.Assembly
import StackMachine.Cbor.Item
import StackMachine.Cbor.Reader
import StackMachine.Cbor.Record
import StackMachine.Cbor.Writer
import StackMachine.Cli.Command
import StackMachine.Cli.Flag
import StackMachine.Cli.Needs
import StackMachine.Cli.Options
import StackMachine.Digest.Sha256
import StackMachine.Editor.Assist
import StackMachine.Editor.Cursor
import StackMachine.Editor.Message
import StackMachine.Editor.Profile
import StackMachine.Editor.Session
import StackMachine.Engine
import StackMachine.Failure
import StackMachine.History.Archive
import StackMachine.History.Opening
import StackMachine.History.Place
import StackMachine.History.Row
import StackMachine.History.Run
import StackMachine.History.Store
import StackMachine.Host.Address
import StackMachine.Host.FileSystem
import StackMachine.Host.Ip
import StackMachine.Host.Path
import StackMachine.Http.MediaType
import StackMachine.Http.Url
import StackMachine.Instruction
import StackMachine.Json.Datum
import StackMachine.Json.Schema
import StackMachine.Listing
import StackMachine.Main
import StackMachine.Manifest
import StackMachine.Manifest.Decode
import StackMachine.Manifest.Loading
import StackMachine.Number.Dyadic
import StackMachine.Proofs.Archives
import StackMachine.Proofs.Arrivals
import StackMachine.Proofs.Assembling
import StackMachine.Proofs.Calendar
import StackMachine.Proofs.Calls
import StackMachine.Proofs.Cancellation
import StackMachine.Proofs.CharacterCodes
import StackMachine.Proofs.Characters
import StackMachine.Proofs.Completions
import StackMachine.Proofs.CursorWords
import StackMachine.Proofs.Delimiters
import StackMachine.Proofs.Dispatch
import StackMachine.Proofs.Durations
import StackMachine.Proofs.Endings
import StackMachine.Proofs.Entry
import StackMachine.Proofs.ExactArithmetic
import StackMachine.Proofs.ForwardJumps
import StackMachine.Proofs.Framing
import StackMachine.Proofs.HistoryListing
import StackMachine.Proofs.Hovers
import StackMachine.Proofs.Instructions
import StackMachine.Proofs.Isolation
import StackMachine.Proofs.Items
import StackMachine.Proofs.ManifestSearch
import StackMachine.Proofs.Meanings
import StackMachine.Proofs.Messages
import StackMachine.Proofs.NewestFirst
import StackMachine.Proofs.Notices
import StackMachine.Proofs.Numbering
import StackMachine.Proofs.Numerals
import StackMachine.Proofs.Paths
import StackMachine.Proofs.Progress
import StackMachine.Proofs.Protocol
import StackMachine.Proofs.Rebinding
import StackMachine.Proofs.Recording
import StackMachine.Proofs.Records
import StackMachine.Proofs.Refusals
import StackMachine.Proofs.Registrations
import StackMachine.Proofs.Relisting
import StackMachine.Proofs.Remarks
import StackMachine.Proofs.Renumbering
import StackMachine.Proofs.Reopening
import StackMachine.Proofs.Replies
import StackMachine.Proofs.Reports
import StackMachine.Proofs.RunLog
import StackMachine.Proofs.SameRun
import StackMachine.Proofs.Seams
import StackMachine.Proofs.Splitting
import StackMachine.Proofs.StepCap
import StackMachine.Proofs.StepCount
import StackMachine.Proofs.StepLimit
import StackMachine.Proofs.Stopping
import StackMachine.Proofs.Tracing
import StackMachine.Proofs.Turns
import StackMachine.Proofs.Verdicts
import StackMachine.Proofs.Wording
import StackMachine.Proofs.Words
import StackMachine.Registry
import StackMachine.Service.Encoding
import StackMachine.Service.Machine
import StackMachine.Service.Rpc
import StackMachine.Service.Worker
import StackMachine.Standard
import StackMachine.State
import StackMachine.Text.Bytes
import StackMachine.Text.Case
import StackMachine.Text.Numeral
import StackMachine.Text.Percent
import StackMachine.Text.Printable
import StackMachine.Text.Query
import StackMachine.Text.Quoted
import StackMachine.Text.Radix
import StackMachine.Text.Split
import StackMachine.Text.Transcript
import StackMachine.Text.Upper
import StackMachine.Text.Utf8
import StackMachine.Time.Duration
import StackMachine.Time.Instant
import StackMachine.Time.Rfc3339
import StackMachine.Toml.Document
import StackMachine.Toml.Quotation
import StackMachine.Toml.Scalar
import StackMachine.Toml.Statement
import StackMachine.Toml.Value
import StackMachine.Wire.Codec
import StackMachine.Wire.Message
