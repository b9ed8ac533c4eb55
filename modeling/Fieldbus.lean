import Fieldbus.Attribute.Key
import Fieldbus.Attribute.Records
import Fieldbus.Bus
import Fieldbus.CommandLine.Arguments
import Fieldbus.CommandLine.Commands
import Fieldbus.CommandLine.Scan
import Fieldbus.Controller.Basic
import Fieldbus.Controller.Event
import Fieldbus.Controller.Issue
import Fieldbus.Controller.Pool
import Fieldbus.Controller.Query
import Fieldbus.Controller.Receive
import Fieldbus.Controller.Sweep
import Fieldbus.Controller.Timeout
import Fieldbus.Device.Application
import Fieldbus.Device.Attributes
import Fieldbus.Device.Basic
import Fieldbus.Device.Dispatch
import Fieldbus.Device.Poll
import Fieldbus.DidSet
import Fieldbus.Fault
import Fieldbus.Frame
import Fieldbus.Identifier
import Fieldbus.Log
import Fieldbus.Main
import Fieldbus.Monitor
import Fieldbus.Narration
import Fieldbus.Platform
import Fieldbus.Proofs.Agenda
import Fieldbus.Proofs.Controller.Accept
import Fieldbus.Proofs.Controller.ActiveSweep
import Fieldbus.Proofs.Controller.Agenda
import Fieldbus.Proofs.Controller.Answer
import Fieldbus.Proofs.Controller.Cancel
import Fieldbus.Proofs.Controller.Classify
import Fieldbus.Proofs.Controller.Clock
import Fieldbus.Proofs.Controller.Effects
import Fieldbus.Proofs.Controller.Expiry
import Fieldbus.Proofs.Controller.Fate
import Fieldbus.Proofs.Controller.FirstAnswer
import Fieldbus.Proofs.Controller.History
import Fieldbus.Proofs.Controller.Invariant
import Fieldbus.Proofs.Controller.Issue
import Fieldbus.Proofs.Controller.Lifecycle
import Fieldbus.Proofs.Controller.Lookup
import Fieldbus.Proofs.Controller.Noninterference
import Fieldbus.Proofs.Controller.PassiveSweep
import Fieldbus.Proofs.Controller.Poll
import Fieldbus.Proofs.Controller.Refusal
import Fieldbus.Proofs.Controller.Run
import Fieldbus.Proofs.Controller.Search
import Fieldbus.Proofs.Controller.SweepTrace
import Fieldbus.Proofs.Controller.Sweeping
import Fieldbus.Proofs.Controller.SplitTime
import Fieldbus.Proofs.Controller.Timing
import Fieldbus.Proofs.Deadlines
import Fieldbus.Proofs.Device.Response
import Fieldbus.Proofs.Frame
import Fieldbus.Proofs.Pool.Agenda
import Fieldbus.Proofs.Pool.Change
import Fieldbus.Proofs.Pool.Links
import Fieldbus.Proofs.Pool.Queue
import Fieldbus.Proofs.Pool.View
import Fieldbus.Proofs.Pool.WellKept
import Fieldbus.Random.ChaCha
import Fieldbus.Random.Chance
import Fieldbus.Report
import Fieldbus.Scheduler
import Fieldbus.Simulation
import Fieldbus.Text.Blank
import Fieldbus.Text.Hex
import Fieldbus.Text.HexInput
import Fieldbus.Text.Json
import Fieldbus.Text.Numeral
import Fieldbus.Text.Real
import Fieldbus.Thermostat
import Fieldbus.Timestamp
import Fieldbus.Words
import Fieldbus.Proofs.Attribute
import Fieldbus.Proofs.Attribute.Window
import Fieldbus.Proofs.Device.Attributes
import Fieldbus.Proofs.Device.Answer
import Fieldbus.Proofs.Device.FailedWrite
import Fieldbus.Proofs.Device.Run
import Fieldbus.Proofs.Device.ErrorRegisters
import Fieldbus.Proofs.Device.ClockSync
import Fieldbus.Proofs.Device.Period
import Fieldbus.Proofs.Device.Sends
import Fieldbus.Proofs.Device.Counters
import Fieldbus.Proofs.Device.Traffic
import Fieldbus.Proofs.Frame.Stored
import Fieldbus.Proofs.Frame.Wire
import Fieldbus.Proofs.Bus.Landing
import Fieldbus.Proofs.Bus.Order
import Fieldbus.Proofs.Bus.Run
import Fieldbus.Proofs.Bus.Conservation
import Fieldbus.Proofs.Device.AttributeStore
import Fieldbus.Proofs.Attribute.Unresolved
import Fieldbus.Proofs.Device.RefusedWrite
import Fieldbus.Proofs.Device.Unsolicited
import Fieldbus.Proofs.Device.Jobs
import Fieldbus.Proofs.Device.HandlerCalls
import Fieldbus.Proofs.Device.Uptime
import Fieldbus.Proofs.Device.Pace
import Fieldbus.Proofs.Device.Countdown
import Fieldbus.Proofs.Platform
import Fieldbus.Proofs.Platform.Delay
import Fieldbus.Proofs.Device.Alike
import Fieldbus.Proofs.Device.FailedReceive
import Fieldbus.Proofs.Device.Delay
import Fieldbus.Proofs.Text.Hex
import Fieldbus.Proofs.Text.HexInput
import Fieldbus.Proofs.Text.Numeral
import Fieldbus.Proofs.CommandLine.Encode
import Fieldbus.Proofs.CommandLine.RoundTrip
import Fieldbus.Proofs.Attribute.Name
import Fieldbus.Proofs.Bus.Connection
import Fieldbus.Proofs.Device.Handled
import Fieldbus.Proofs.Node
import Fieldbus.Proofs.Scheduler
import Fieldbus.Proofs.Scheduler.Relays
import Fieldbus.Proofs.Device.Handlers
import Fieldbus.Proofs.Thermostat
import Fieldbus.Proofs.Node.Heating
