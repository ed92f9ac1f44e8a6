import FlagServer.Build.Basic
import FlagServer.Build.DatabaseSystem
import FlagServer.Build.System
import FlagServer.CommandLine
import FlagServer.Connection.Basic
import FlagServer.Connection.Calls
import FlagServer.Connection.Dispatch
import FlagServer.Connection.InFlight
import FlagServer.Database.Basic
import FlagServer.Database.Reader
import FlagServer.FileSystem
import FlagServer.Frame
import FlagServer.Json.Basic
import FlagServer.Json.Double
import FlagServer.Json.Literal
import FlagServer.Json.Printer
import FlagServer.Json.Reader
import FlagServer.Main
import FlagServer.Message.Basic
import FlagServer.Message.Envelope
import FlagServer.Options
import FlagServer.Path.Basic
import FlagServer.Proofs.Bindings
import FlagServer.Proofs.Build.Discovery
import FlagServer.Proofs.Build.IndexStore
import FlagServer.Proofs.Build.Operations
import FlagServer.Proofs.Build.Reloads
import FlagServer.Proofs.Build.Stability
import FlagServer.Proofs.Catalogue
import FlagServer.Proofs.Connection.Calls
import FlagServer.Proofs.Connection.Cancellation
import FlagServer.Proofs.Connection.Collision
import FlagServer.Proofs.Connection.Fate
import FlagServer.Proofs.Connection.Notices
import FlagServer.Proofs.Connection.Offers
import FlagServer.Proofs.Connection.Output
import FlagServer.Proofs.Connection.Parting
import FlagServer.Proofs.Connection.Requests
import FlagServer.Proofs.Connection.Traffic
import FlagServer.Proofs.Database.Coverage
import FlagServer.Proofs.Database.Loading
import FlagServer.Proofs.Database.Lookup
import FlagServer.Proofs.Database.Respelling
import FlagServer.Proofs.Envelope
import FlagServer.Proofs.FrameGrammar
import FlagServer.Proofs.Framing
import FlagServer.Proofs.Json
import FlagServer.Proofs.Path.Ancestors
import FlagServer.Proofs.Path.Components
import FlagServer.Proofs.Path.Resolution
import FlagServer.Proofs.Schema
import FlagServer.Proofs.Server.Closing
import FlagServer.Proofs.Server.Course
import FlagServer.Proofs.Server.Cut
import FlagServer.Proofs.Server.Documents
import FlagServer.Proofs.Server.Exit
import FlagServer.Proofs.Server.Handed
import FlagServer.Proofs.Server.Rejection
import FlagServer.Proofs.Server.Scenes
import FlagServer.Proofs.Server.Stream
import FlagServer.Proofs.Server.Traffic
import FlagServer.Proofs.Server.Verdicts
import FlagServer.Proofs.Server.Written
import FlagServer.Proofs.Session.Diary
import FlagServer.Proofs.Session.Lifecycle
import FlagServer.Proofs.Session.Lines
import FlagServer.Proofs.Session.Moves
import FlagServer.Proofs.Session.Refreshing
import FlagServer.Proofs.Session.Scene
import FlagServer.Proofs.Session.Settings
import FlagServer.Proofs.Session.Tending
import FlagServer.Proofs.Session.Watching
import FlagServer.Proofs.ShellWords
import FlagServer.Proofs.Text
import FlagServer.Proofs.Truncation
import FlagServer.Proofs.Wire
import FlagServer.Protocol.Catalogue
import FlagServer.Protocol.Registry
import FlagServer.Protocol.Shapes
import FlagServer.Schema.Basic
import FlagServer.Schema.Decode
import FlagServer.Server.Basic
import FlagServer.Server.Handler
import FlagServer.Server.Run
import FlagServer.Session.Basic
import FlagServer.Session.Engine
import FlagServer.Session.Handle
import FlagServer.Session.Line
import FlagServer.Session.Stage
import FlagServer.ShellWords
import FlagServer.Text.Basic
import FlagServer.Text.Quoted
import FlagServer.Text.Utf8
import FlagServer.Url.Basic
import FlagServer.Url.Host
import FlagServer.Url.Parser
import FlagServer.Url.Percent
