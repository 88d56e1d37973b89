import FieldCamera.Activity
import FieldCamera.Address
import FieldCamera.Command
import FieldCamera.Command.Diagnosis
import FieldCamera.Command.Execution
import FieldCamera.Command.Help
import FieldCamera.Command.Misuse
import FieldCamera.Command.Topic
import FieldCamera.Device
import FieldCamera.Device.Record
import FieldCamera.Device.Resolution
import FieldCamera.Device.Store
import FieldCamera.Enrolment
import FieldCamera.Files
import FieldCamera.Json
import FieldCamera.Json.Reading
import FieldCamera.Json.Skipping
import FieldCamera.Json.Structure
import FieldCamera.Link.Reader
import FieldCamera.Link.Stream
import FieldCamera.Main
import FieldCamera.Node
import FieldCamera.Number.Binary
import FieldCamera.Number.Leading
import FieldCamera.Number.Nearest
import FieldCamera.Number.Places
import FieldCamera.Number.Shortest
import FieldCamera.Request
import FieldCamera.Request.Receiver
import FieldCamera.Settings
import FieldCamera.Settings.Check
import FieldCamera.Settings.Reading
import FieldCamera.Settings.SocketAddress
import FieldCamera.Setup.Encoding
import FieldCamera.Setup.Halves
import FieldCamera.Setup.Listener
import FieldCamera.Setup.Page
import FieldCamera.Setup.Portal
import FieldCamera.Setup.Serving
import FieldCamera.Setup.Submission
import FieldCamera.Setup.Token
import FieldCamera.Setup.Visit
import FieldCamera.Signal
import FieldCamera.Span
import FieldCamera.SystemFault
import FieldCamera.Text.Blank
import FieldCamera.Text.Cut
import FieldCamera.Text.Hex
import FieldCamera.Text.Likeness
import FieldCamera.Text.Printable
import FieldCamera.Text.Quoted
import FieldCamera.Text.Utf8
import FieldCamera.Toml
import FieldCamera.Toml.Moment
import FieldCamera.Toml.Number
import FieldCamera.Toml.Reading
import FieldCamera.Toml.Text
import FieldCamera.Upload.Envelope
import FieldCamera.Upload.Fault
import FieldCamera.Upload.Frame
import FieldCamera.Upload.Post
import FieldCamera.Upload.Reply
import FieldCamera.Upload.Report
import FieldCamera.Upload.StatusLine
import FieldCamera.Upload.Uplink
import FieldCamera.Proofs.Link.Course
import FieldCamera.Proofs.Upload.ReplyCourse
import FieldCamera.Proofs.Link.Writing
import FieldCamera.Proofs.Request.Feeding
import FieldCamera.Proofs.Request.Grammar
import FieldCamera.Proofs.Setup.Hearing
import FieldCamera.Proofs.Setup.Visits
import FieldCamera.Proofs.Upload.Connecting
import FieldCamera.Proofs.Upload.Sending
import FieldCamera.Proofs.Upload.Posting
import FieldCamera.Proofs.Upload.Holding
import FieldCamera.Proofs.Upload.Routing
import FieldCamera.Proofs.Number.Leading
import FieldCamera.Proofs.Text.Utf8
import FieldCamera.Proofs.Upload.Framing
import FieldCamera.Proofs.Text.Occurrence
import FieldCamera.Proofs.Upload.Parts
import FieldCamera.Proofs.Setup.Fields
import FieldCamera.Proofs.Setup.Turns
import FieldCamera.Proofs.Setup.Guard
import FieldCamera.Proofs.Text.Blank
import FieldCamera.Proofs.Setup.Halves
import FieldCamera.Proofs.Setup.Typed
import FieldCamera.Proofs.Text.Markup
import FieldCamera.Proofs.Setup.Shown
import FieldCamera.Proofs.Json.Texts
import FieldCamera.Proofs.Json.Values
import FieldCamera.Proofs.Json.Objects
import FieldCamera.Proofs.Files.Places
import FieldCamera.Proofs.Device.Record
import FieldCamera.Proofs.Device.Store
import FieldCamera.Proofs.Request.Bounds
import FieldCamera.Proofs.Upload.Patience
import FieldCamera.Proofs.Upload.Head
import FieldCamera.Proofs.Upload.Clock
import FieldCamera.Proofs.Upload.Rounds
import FieldCamera.Proofs.Address.NormalForm
import FieldCamera.Proofs.Setup.Server
import FieldCamera.Proofs.Setup.Choice
import FieldCamera.Proofs.Json.Grammar
import FieldCamera.Proofs.Json.Passing
import FieldCamera.Proofs.Json.Layouts
import FieldCamera.Proofs.Device.Partial
import FieldCamera.Proofs.Number.Numeral
import FieldCamera.Proofs.Number.Readings
import FieldCamera.Proofs.Upload.StatusLine
import FieldCamera.Proofs.Setup.Serving
import FieldCamera.Proofs.Node
