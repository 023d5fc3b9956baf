import PlayerWatch.Text.Blank
import PlayerWatch.Text.Ascii
import PlayerWatch.Text.Utf8
import PlayerWatch.Text.Unshown
import PlayerWatch.Number.Numeral
import PlayerWatch.Number.Layout
import PlayerWatch.Text.Quoted
import PlayerWatch.Address
import PlayerWatch.Failure
import PlayerWatch.Reply
import PlayerWatch.Request
import PlayerWatch.Record
import PlayerWatch.Player
import PlayerWatch.Player.Decode
import PlayerWatch.TagValues
import PlayerWatch.Event
import PlayerWatch.Journal
import PlayerWatch.Bus
import PlayerWatch.Slot
import PlayerWatch.Wait
import PlayerWatch.Peer
import PlayerWatch.Connection
import PlayerWatch.Control
import PlayerWatch.Client
import PlayerWatch.Json.Basic
import PlayerWatch.Json.Numbers
import PlayerWatch.Json.Writer
import PlayerWatch.Number.Integer
import PlayerWatch.Number.Real
import PlayerWatch.Number.Rounded
import PlayerWatch.Number.Shortest
import PlayerWatch.Json.Reader
import PlayerWatch.Event.Json
import PlayerWatch.Json.Fields
import PlayerWatch.Player.Json
import PlayerWatch.Toml.Basic
import PlayerWatch.Toml.Scalars
import PlayerWatch.Toml.Sections
import PlayerWatch.Toml.Strings
import PlayerWatch.Toml.Tables
import PlayerWatch.Settings.Basic
import PlayerWatch.Settings.Json
import PlayerWatch.Settings.Path
import PlayerWatch.Settings.Sources
import PlayerWatch.Settings.Tree
import PlayerWatch.Settings.Load
import PlayerWatch.Settings.Values
import PlayerWatch.Pace
import PlayerWatch.Controller
import PlayerWatch.Network
import PlayerWatch.Ticker
import PlayerWatch.Watcher
import PlayerWatch.CommandLine.Arguments
import PlayerWatch.CommandLine.Reporter
import PlayerWatch.CommandLine.Run
import PlayerWatch.CommandLine.StatusText
import PlayerWatch.Live
import PlayerWatch.Transport
import PlayerWatch.Main
import PlayerWatch.Proofs.Connection.Writing
import PlayerWatch.Proofs.Request.OneLine
import PlayerWatch.Proofs.Connection.Replies
import PlayerWatch.Proofs.Connection.Conversation
import PlayerWatch.Proofs.Watcher.Moves
import PlayerWatch.Proofs.Watcher.Attempts
import PlayerWatch.Proofs.Watcher.Publishing
import PlayerWatch.Proofs.Watcher.LostSong
import PlayerWatch.Proofs.Connection.Limits
import PlayerWatch.Proofs.Controller.Dialling
import PlayerWatch.Proofs.Watcher.Waiting
import PlayerWatch.Proofs.Settings.Reading
import PlayerWatch.Proofs.Settings.Masking
import PlayerWatch.Proofs.Settings.Numerals
import PlayerWatch.Proofs.Settings.Given
import PlayerWatch.Proofs.Settings.Layers
import PlayerWatch.Proofs.Watcher.Delays
import PlayerWatch.Proofs.Settings.Safety
import PlayerWatch.Proofs.Slots.History
import PlayerWatch.Proofs.Slots.Register
import PlayerWatch.Proofs.Settings.Precedence
import PlayerWatch.Proofs.Connection.Scanning
import PlayerWatch.Proofs.Connection.Truncation
import PlayerWatch.Proofs.Client.Announcing
import PlayerWatch.Proofs.Controller.Deeds
import PlayerWatch.Proofs.CommandLine.Once
import PlayerWatch.Proofs.Json.RoundTrip
import PlayerWatch.Proofs.Json.Members
import PlayerWatch.Proofs.Event.Forms
import PlayerWatch.Proofs.Settings.Forms
import PlayerWatch.Proofs.Json.Forms
import PlayerWatch.Proofs.Client.Listing
import PlayerWatch.Proofs.CommandLine.Toggle
import PlayerWatch.Proofs.Client.Status
import PlayerWatch.Proofs.Record.Lines
import PlayerWatch.Proofs.Player.Places
import PlayerWatch.Proofs.Number.Decimals
import PlayerWatch.Proofs.Player.Replies
import PlayerWatch.Proofs.Request.Words
import PlayerWatch.Proofs.Connection.Greeting
import PlayerWatch.Proofs.Record.TagValues
import PlayerWatch.Proofs.Bus.Accounting
import PlayerWatch.Proofs.Player.Forms
import PlayerWatch.Proofs.Number.Doubles
import PlayerWatch.Proofs.Number.Rounding
import PlayerWatch.Proofs.Number.Arithmetic
import PlayerWatch.Proofs.Number.Digits
import PlayerWatch.Proofs.Number.Shortest
import PlayerWatch.Proofs.Number.Numerals
import PlayerWatch.Proofs.Number.Nearness
import PlayerWatch.Proofs.Json.Scaling
import PlayerWatch.Proofs.Json.Reals
import PlayerWatch.Proofs.Player.Survival
import PlayerWatch.Proofs.Address
import PlayerWatch.Proofs.Settings.Ways
import PlayerWatch.Proofs.Settings.Orders
import PlayerWatch.Proofs.Settings.Loads
