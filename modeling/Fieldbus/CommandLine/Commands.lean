import Fieldbus.CommandLine.Scan
import Fieldbus.Log
import Fieldbus.Report
import Fieldbus.Simulation

namespace Fieldbus

/-- A simulation as it is asked for; the probability of loss may still be out of range. -/
structure SimulateRequest where
  plan : SimulationPlan
  dropRate : Float

inductive Command
  | decode (request : DecodeRequest)
  | encode (request : EncodeRequest)
  | simulate (request : SimulateRequest)

structure Invocation where
  json : Bool
  logFile : Option String
  verbose : Nat
  quiet : Nat
  command : Command

/-- The rank of the least serious log entries that are shown; each `-q` hides one level more. -/
def Invocation.logRank (i : Invocation) : Nat := LogLevel.info.rank + i.quiet - i.verbose

namespace CommandSpec

def globals : List OptionSpec :=
  [⟨.json, none, "json", .flag⟩, ⟨.logFile, none, "log-file", .value .path⟩,
    ⟨.verbose, some 'v', "verbose", .count⟩, ⟨.quiet, some 'q', "quiet", .count⟩,
    ⟨.help, some 'h', "help", .help⟩]

def top : CommandSpec where
  options := globals ++ [⟨.version, some 'V', "version", .version⟩]
  conflicts := [(.quiet, .verbose)]

def decode : CommandSpec where
  options := globals
  positionals := [.identifier, .payload]
  conflicts := [(.quiet, .verbose)]
  required := [.identifier]

def byteValue : OptionKind := .value (.ranged 0 0xFF)

def word32Value : OptionKind := .value (.ranged 0 0xFFFFFFFF)

def word64Value : OptionKind := .value .word64

def encode : CommandSpec where
  options := globals ++
    [⟨.frameType, some 't', "type",
        .value (.choice ["command", "telemetry", "write-attribute", "read-attribute"])⟩,
      ⟨.response, some 'r', "response", .flag⟩,
      ⟨.deviceClass, some 'c', "class", byteValue⟩,
      ⟨.subId, some 's', "subid", byteValue⟩,
      ⟨.broadcast, some 'b', "broadcast", .flag⟩,
      ⟨.endpoint, some 'e', "endpoint", byteValue⟩,
      ⟨.data, some 'd', "data", .value .text⟩,
      ⟨.key, some 'k', "key", .value .text⟩,
      ⟨.value, none, "value", word32Value⟩]
  conflicts :=
    [(.quiet, .verbose), (.broadcast, .deviceClass), (.broadcast, .subId), (.data, .key)]
  required := [.frameType]
  requires := [(.value, .key)]

def simulate : CommandSpec where
  options := globals ++
    [⟨.devices, some 'n', "devices", .value (.ranged 1 63)⟩,
      ⟨.discovery, none, "discovery", .value (.choice ["active", "passive", "none"])⟩,
      ⟨.discoveryMs, none, "discovery-ms", word32Value⟩,
      ⟨.timeoutMs, none, "timeout-ms", word32Value⟩,
      ⟨.queryIntervalMs, none, "query-interval-ms", word64Value⟩,
      ⟨.telemetryPeriodMs, none, "telemetry-period-ms", word32Value⟩,
      ⟨.pollMs, none, "poll-ms", word64Value⟩,
      ⟨.duration, some 'd', "duration", word64Value⟩,
      ⟨.dropRate, none, "drop-rate", .value .real⟩,
      ⟨.seed, none, "seed", word64Value⟩]
  conflicts := [(.quiet, .verbose)]

end CommandSpec

inductive CommandName
  | decode
  | encode
  | simulate
  | help
deriving DecidableEq

namespace CommandName

def ofText? (s : String) : Option CommandName :=
  if s = "decode" then some decode
  else if s = "encode" then some encode
  else if s = "simulate" then some simulate
  else if s = "help" then some help
  else none

end CommandName

namespace Given

def decodeRequest (g : Given) : DecodeRequest where
  identifier := (g.text? .identifier).getD ""
  payload := (g.text? .payload).getD ""

def frameType (g : Given) : FrameType :=
  match g.text? .frameType with
  | some "telemetry" => .telemetry
  | some "write-attribute" => .writeAttribute
  | some "read-attribute" => .readAttribute
  | _ => .command

def encodeRequest (g : Given) : EncodeRequest where
  frameType := g.frameType
  response := g.flag .response
  deviceClass := (g.number? .deviceClass).getD 0
  subId := (g.number? .subId).getD 0
  broadcast := g.flag .broadcast
  endpoint := (g.number? .endpoint).getD 0
  data := (g.text? .data).getD ""
  key := g.text? .key
  value := (g.number? .value).map UInt32.ofNat

def discovery (g : Given) : DiscoveryChoice :=
  match g.text? .discovery with
  | some "passive" => .passive
  | some "none" => .none
  | _ => .active

def simulateRequest (g : Given) : SimulateRequest :=
  let dropRate := (g.real? .dropRate).getD 0
  { dropRate
    plan := {
      devices := (g.number? .devices).getD 3
      discovery := g.discovery
      discoveryMs := UInt32.ofNat ((g.number? .discoveryMs).getD 1000)
      timeoutMs := UInt32.ofNat ((g.number? .timeoutMs).getD 200)
      queryIntervalMs := (g.number? .queryIntervalMs).getD 500
      telemetryPeriodMs := UInt32.ofNat ((g.number? .telemetryPeriodMs).getD 5000)
      pollMs := (g.number? .pollMs).getD 5
      duration := (g.number? .duration).getD 10
      loss := .ofProbability dropRate
      seed := UInt64.ofNat ((g.number? .seed).getD 1) } }

end Given

namespace Invocation

/-- Reads the arguments of a named command; `help` may name one command to explain. -/
def readCommand (name : CommandName) (args : List String) :
    Except UsageError (Given × Command) :=
  match name with
  | .decode => (CommandSpec.decode.read args).map fun g => (g, .decode g.decodeRequest)
  | .encode => (CommandSpec.encode.read args).map fun g => (g, .encode g.encodeRequest)
  | .simulate => (CommandSpec.simulate.read args).map fun g => (g, .simulate g.simulateRequest)
  | .help =>
    match args with
    | [] => .error .help
    | [topic] =>
      if (CommandName.ofText? topic).isSome then .error .help else .error .invalidSubcommand
    | _ => .error .invalidSubcommand

/-- Options given to the command itself go before those given ahead of it. -/
def combine (outer inner : Given) (command : Command) : Invocation where
  json := inner.flag .json || outer.flag .json
  logFile := (inner.text? .logFile).or (outer.text? .logFile)
  verbose := if inner.count .verbose = 0 then outer.count .verbose else inner.count .verbose
  quiet := if inner.count .quiet = 0 then outer.count .quiet else inner.count .quiet
  command := command

/-- Reads arguments up to the name of a command and hands the rest to it. -/
def readFrom : Scan → List String → Except UsageError Invocation
  | s, [] => do
    let s ← s.settle
    throw (if s.given.isEmpty then .helpOnMissing else .missingSubcommand)
  | s, text :: rest =>
    let name := CommandName.ofText? text
    match s.trailing || s.awaiting, name with
    | false, some name => do
      let (inner, command) ← readCommand name rest
      let s ← s.settle
      CommandSpec.top.check s.given
      return combine s.given inner command
    | _, _ => do
      let excess := if name.isSome then .unknownArgument else .invalidSubcommand
      let s ← s.step CommandSpec.top text excess
      readFrom s rest

/-- Reads a whole command line, without the name of the program. -/
def read (args : List String) : Except UsageError Invocation := readFrom { positionals := [] } args

end Invocation

inductive Failure
  | input (error : InputError)
  | dropRate (rate : Float)
  | fault (fault : Fault)

def Failure.message : Failure → String
  | input e => e.message
  | dropRate x => "Drop rate must be between 0 and 1, got " ++ Real64.text x
  | fault f => f.message

namespace Command

def decodeLines (json : Bool) (r : DecodeRequest) : Except InputError (List String) :=
  r.frame.map fun f => if json then [f.report.pretty ""] else f.lines

def encodeLines (json : Bool) (r : EncodeRequest) : Except InputError (List String) :=
  r.frame.map fun f => if json then [f.report.pretty ""] else f.dumpLine :: f.lines

/-- A probability lies between zero and one, both included. -/
def checkRate (r : SimulateRequest) : Except Failure SimulationPlan :=
  if 0 ≤ r.dropRate && r.dropRate ≤ 1 then .ok r.plan else .error (.dropRate r.dropRate)

/-- Runs a command to its end; `epoch` is the wall clock at the start, in milliseconds. -/
def run (json : Bool) (epoch : Nat) : Command → Except Failure (List Output)
  | decode r => ((decodeLines json r).mapError .input).map fun lines => lines.map .line
  | encode r => ((encodeLines json r).mapError .input).map fun lines => lines.map .line
  | simulate r => do
    let plan ← checkRate r
    (Simulation.run plan json epoch).mapError .fault

end Command

end Fieldbus
