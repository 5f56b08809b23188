import TriggerDesk.Book.Basic
import TriggerDesk.Channel
import TriggerDesk.Client.Console
import TriggerDesk.Client.Ledger
import TriggerDesk.Client.Link
import TriggerDesk.Client.Terminal
import TriggerDesk.CommandLine.Ending
import TriggerDesk.CommandLine.Reader
import TriggerDesk.CommandLine.Task
import TriggerDesk.Daemon.Guest
import TriggerDesk.Decimal.Binary64
import TriggerDesk.Decimal.Layout
import TriggerDesk.Decimal.Reader
import TriggerDesk.Decimal.Shortest
import TriggerDesk.Feed.Brokers
import TriggerDesk.Feed.Exchange
import TriggerDesk.Feed.Failure
import TriggerDesk.Feed.RandomWalk
import TriggerDesk.Feed.Replay
import TriggerDesk.Journal.Entry
import TriggerDesk.Journal.File
import TriggerDesk.Json.Document
import TriggerDesk.Json.Fault
import TriggerDesk.Json.Number
import TriggerDesk.Json.Reader
import TriggerDesk.Main
import TriggerDesk.Market.Listing
import TriggerDesk.Market.Quote
import TriggerDesk.Market.Trade
import TriggerDesk.Metrics.Exposition
import TriggerDesk.Metrics.Meter
import TriggerDesk.Notice.Desktop
import TriggerDesk.Notice.Summary
import TriggerDesk.Order.Command
import TriggerDesk.Order.Event
import TriggerDesk.Order.Trigger
import TriggerDesk.Outbox
import TriggerDesk.Rehearsal.Script
import TriggerDesk.Rehearsal.Stage
import TriggerDesk.Schedule
import TriggerDesk.Session.Handling
import TriggerDesk.Session.Machine
import TriggerDesk.Session.State
import TriggerDesk.Session.Watching
import TriggerDesk.Session.Work
import TriggerDesk.Settings.Basic
import TriggerDesk.Settings.FeedMode
import TriggerDesk.Table
import TriggerDesk.Text.Blank
import TriggerDesk.Text.Duration
import TriggerDesk.Text.Lowercase
import TriggerDesk.Text.Percent
import TriggerDesk.Text.Printable
import TriggerDesk.Text.Quoted
import TriggerDesk.Wire.CommandLine
import TriggerDesk.Wire.Connection
import TriggerDesk.Wire.Lines
import TriggerDesk.Wire.OfJson
import TriggerDesk.Wire.ToJson
import TriggerDesk.Proofs.Book.Roster
import TriggerDesk.Proofs.Book.Refinement
import TriggerDesk.Proofs.Book.Sections
import TriggerDesk.Proofs.Outbox.Line
import TriggerDesk.Proofs.Progress
import TriggerDesk.Proofs.Outbox.Service
import TriggerDesk.Proofs.Session.Deeds
import TriggerDesk.Proofs.Session.DeskTurns
import TriggerDesk.Proofs.Session.WatcherTurns
import TriggerDesk.Proofs.Session.Runs
import TriggerDesk.Proofs.Session.Staff
import TriggerDesk.Proofs.Book.Entries
import TriggerDesk.Proofs.Book.Shares
import TriggerDesk.Proofs.Session.Effects
import TriggerDesk.Proofs.Session.Chronicle
import TriggerDesk.Proofs.Session.Conservation
import TriggerDesk.Proofs.Session.Baseline
import TriggerDesk.Proofs.Session.Acts
import TriggerDesk.Proofs.Session.Charges
import TriggerDesk.Proofs.Session.Deadlines
import TriggerDesk.Proofs.Session.Gauge
import TriggerDesk.Proofs.Session.Handshakes
import TriggerDesk.Proofs.Session.History
import TriggerDesk.Proofs.Session.Losses
import TriggerDesk.Proofs.Session.Queue
import TriggerDesk.Proofs.Session.Delivery
import TriggerDesk.Proofs.Session.Posts
import TriggerDesk.Proofs.Session.Manned
import TriggerDesk.Proofs.Order.Crossing
import TriggerDesk.Proofs.Order.Tape
import TriggerDesk.Proofs.Session.Firing
import TriggerDesk.Proofs.Client.Record
import TriggerDesk.Proofs.Session.Passage
import TriggerDesk.Proofs.Client.Exchange
import TriggerDesk.Proofs.Client.Agreement
import TriggerDesk.Proofs.Json.Numerals
import TriggerDesk.Proofs.Json.RoundTrip
import TriggerDesk.Proofs.Wire.Framing
import TriggerDesk.Proofs.Wire.Messages
import TriggerDesk.Proofs.Session.Stages
import TriggerDesk.Proofs.Session.Replies
import TriggerDesk.Proofs.Wire.Connections
import TriggerDesk.Proofs.Wire.Schedules
import TriggerDesk.Proofs.Wire.Answers
import TriggerDesk.Proofs.Session.Service
import TriggerDesk.Proofs.Session.Dealings
import TriggerDesk.Proofs.Wire.Service
import TriggerDesk.Proofs.Wire.Completion
import TriggerDesk.Proofs.Decimal.Nearest
import TriggerDesk.Proofs.Decimal.Parts
import TriggerDesk.Proofs.Decimal.Arithmetic
import TriggerDesk.Proofs.Decimal.Digits
import TriggerDesk.Proofs.Json.Scaling
import TriggerDesk.Proofs.Json.DecimalText
import TriggerDesk.Proofs.Json.Rereading
import TriggerDesk.Proofs.Wire.Prices
import TriggerDesk.Proofs.Json.Finite
import TriggerDesk.Proofs.Session.Finiteness
import TriggerDesk.Proofs.Wire.Finiteness
import TriggerDesk.Proofs.Wire.Flight
import TriggerDesk.Proofs.Client.Carriers
import TriggerDesk.Proofs.Client.Doubt
import TriggerDesk.Proofs.Client.Calls
import TriggerDesk.Proofs.Client.Retention
import TriggerDesk.Proofs.Json.Grammar
import TriggerDesk.Proofs.Json.Parsing
import TriggerDesk.Proofs.Json.Sorting
import TriggerDesk.Proofs.Wire.Decoding
import TriggerDesk.Proofs.Feed.Quotes
import TriggerDesk.Proofs.Session.Ownership
import TriggerDesk.Proofs.Session.Shares
import TriggerDesk.Proofs.Session.OwnTurns
import TriggerDesk.Proofs.Session.Strangers
import TriggerDesk.Proofs.Outbox.Excerpts
import TriggerDesk.Proofs.Session.Abreast
import TriggerDesk.Proofs.Session.Pairs
import TriggerDesk.Proofs.Session.Separation
import TriggerDesk.Proofs.Text.Words
import TriggerDesk.Proofs.Settings.Precedence
import TriggerDesk.Proofs.Client.Lines
import TriggerDesk.Proofs.Feed.Streams
import TriggerDesk.Proofs.Feed.Playback
import TriggerDesk.Proofs.Feed.Trades
import TriggerDesk.Proofs.Session.Sifting
import TriggerDesk.Proofs.Session.Passing
import TriggerDesk.Proofs.Session.Readers
import TriggerDesk.Proofs.Session.Frames
