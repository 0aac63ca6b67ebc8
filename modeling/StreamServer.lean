import StreamServer.Binary64
import StreamServer.Binary64.Shortest
import StreamServer.Client
import StreamServer.Clock
import StreamServer.Codec
import StreamServer.Command
import StreamServer.CommandLine.Arguments
import StreamServer.CommandLine.Invocation
import StreamServer.CommandLine.Option
import StreamServer.CommandLine.Run
import StreamServer.Config
import StreamServer.Config.Fields
import StreamServer.Config.File
import StreamServer.Config.Location
import StreamServer.Config.Object
import StreamServer.Config.Seconds
import StreamServer.Config.Store
import StreamServer.Control.Dialogue
import StreamServer.Control.Handshake
import StreamServer.Control.Inbox
import StreamServer.Control.Link
import StreamServer.Disk
import StreamServer.Duration
import StreamServer.Endpoint
import StreamServer.Error
import StreamServer.Flags
import StreamServer.Greeting
import StreamServer.Json
import StreamServer.Json.Number
import StreamServer.Listener
import StreamServer.Liveness
import StreamServer.Log
import StreamServer.Main
import StreamServer.Mode
import StreamServer.Network
import StreamServer.Registry
import StreamServer.Registry.Keeper
import StreamServer.Retry
import StreamServer.Server
import StreamServer.Session
import StreamServer.Session.Holder
import StreamServer.SessionId
import StreamServer.Stream
import StreamServer.Supervisor.Event
import StreamServer.Supervisor.Run
import StreamServer.Supervisor.State
import StreamServer.Supervisor.Step
import StreamServer.Supervisor.Visits
import StreamServer.Text.Printable
import StreamServer.Text.Quoted
import StreamServer.Toml.Document
import StreamServer.Toml.Moment
import StreamServer.Toml.Number
import StreamServer.Toml.Quotes
import StreamServer.Toml.Reader
import StreamServer.Toml.Writer
import StreamServer.Value
import StreamServer.Word
import StreamServer.Worker
import StreamServer.Worker.Copy
import StreamServer.Proofs.Runs
import StreamServer.Proofs.Ending
import StreamServer.Proofs.Conservation
import StreamServer.Proofs.Finalize
import StreamServer.Proofs.ControlWords
import StreamServer.Proofs.EventTrace
import StreamServer.Proofs.SessionCap
import StreamServer.Proofs.Delivery
import StreamServer.Proofs.Pinging
import StreamServer.Proofs.WordTiming
import StreamServer.Proofs.Custody
import StreamServer.Proofs.Reconnect
import StreamServer.Proofs.Connection
import StreamServer.Proofs.Dialling
import StreamServer.Proofs.SpokenWords
import StreamServer.Proofs.Copying
import StreamServer.Proofs.Echoing
import StreamServer.Proofs.TomlText
import StreamServer.Proofs.Files
import StreamServer.Proofs.SavedConfig
import StreamServer.Proofs.RegistryLaws
import StreamServer.Proofs.Handling
import StreamServer.Proofs.Silence
import StreamServer.Proofs.IdleWords
import StreamServer.Proofs.Indifference
import StreamServer.Proofs.WordStream
import StreamServer.Proofs.Reaching
import StreamServer.Proofs.Draining
import StreamServer.Proofs.Rounding
import StreamServer.Proofs.FractionalSeconds
import StreamServer.Proofs.ShortestDecimal
import StreamServer.Proofs.FloatText
import StreamServer.Proofs.Settling
import StreamServer.Proofs.WrittenConfig
import StreamServer.Proofs.TomlTables
import StreamServer.Proofs.SettingKeys
import StreamServer.Proofs.Rewriting
import StreamServer.Proofs.Reloading
import StreamServer.Proofs.Footprint
import StreamServer.Proofs.Subscribers
import StreamServer.Proofs.OwnKeys
import StreamServer.Proofs.Collecting
