import Fieldbus.Narration
import Fieldbus.Device.Poll
import Fieldbus.Scheduler

namespace Fieldbus

inductive DiscoveryChoice
  | active
  | passive
  | none
deriving DecidableEq

/-- The settings of a simulation; times without unit are in milliseconds. -/
structure SimulationPlan where
  devices : Nat := 3
  discovery : DiscoveryChoice := .active
  discoveryMs : UInt32 := 1000
  timeoutMs : UInt32 := 200
  queryIntervalMs : Nat := 500
  telemetryPeriodMs : UInt32 := 5000
  pollMs : Nat := 5
  /-- In seconds; a simulation of zero seconds goes on until it is stopped. -/
  duration : Nat := 10
  loss : LossRate := .never
  seed : UInt64 := 1
deriving DecidableEq

structure Node where
  device : Device Thermostat
  offset : Int := 0

namespace Node

def demo (index : Nat) (telemetryPeriod : UInt32) : Node where
  device := .build
    (.ofName (.ofRaw index) 0x0100 ("thermostat-" ++ toString index) 0x5EEDCA17)
    (Config.setRandomDelay { telemetryPeriod } true)
    { temperature := 1800 + 25 * index }

/-- Polls a device until its receive queue is empty, with `fuel` polls after the first at most. -/
def serveQueue [Application α] [Platform π] : Nat → Device α → π → Polled α π
  | 0, d, p => d.poll p
  | fuel + 1, d, p =>
    let polled := d.poll p
    match polled.result with
    | .error _ => polled
    | .ok () =>
      if Platform.waiting polled.platform = 0 then polled
      else
        let rest := serveQueue fuel polled.device polled.platform
        { rest with acts := polled.acts ++ rest.acts }

/-- One step of the heater, then answers to every frame that waits. -/
def poll [Platform π] (d : Device Thermostat) (p : π) : Polled Thermostat π :=
  serveQueue (Platform.waiting p) { d with app := d.app.step } p

end Node

structure Simulation where
  plan : SimulationPlan
  /-- Events are shown as lines of JSON and not in the log. -/
  json : Bool
  bus : Bus SeededChance
  nodes : List Node
  controller : Controller Monitor 16 := .new {}
  offset : Int := 0
  known : List Did := []
  timeSynced : Bool := false
  lastQuery : Nat := 0
  scheduler : Scheduler := {}

namespace Simulation

/-- The controller is connected behind the devices. -/
def connection (s : Simulation) : Connection SeededChance := ⟨s.bus, s.nodes.length, s.offset⟩

def adopt (s : Simulation) (p : Connection SeededChance) : Simulation :=
  { s with bus := p.bus, offset := p.offset }

def outputs (s : Simulation) (acts : List ControllerAct) : List Output :=
  acts.map (ControllerAct.output s.json s.nodes.length)

def learn (s : Simulation) (acts : List ControllerAct) : Simulation :=
  { s with known := s.known ++ (relaysOf acts).map Prod.fst }

def startDiscovery (s : Simulation) : Except Fault (Simulation × List Output) :=
  let launch (plan : SweepPlan) := do
    let started := s.controller.startSweep s.connection plan fun _ => true
    started.result
    let outputs := s.outputs started.acts
    return ({ s with controller := started.controller }.adopt started.platform, outputs)
  let timeout := Timeout.millis s.plan.discoveryMs
  match s.plan.discovery with
  | .active => launch ⟨.active, .telemetry .app, false, timeout⟩
  | .passive => launch ⟨.passive, .any, false, timeout⟩
  | .none => .ok ({ s with known := (List.range s.plan.devices).map Did.ofRaw }, [])

def start (plan : SimulationPlan) (json : Bool) (epoch : Nat) :
    Except Fault (Simulation × List Output) := do
  let bus : Bus SeededChance :=
    { epoch, inboxes := .replicate (plan.devices + 1) [], chance := .ofSeed plan.seed plan.loss }
  let nodes := (List.range plan.devices).map fun i => Node.demo i plan.telemetryPeriodMs
  let ready : LogRecord :=
    ⟨.info, "Simulated bus ready",
      [("devices", toString plan.devices), ("seed", toString plan.seed.toNat)]⟩
  let (s, outputs) ← startDiscovery { plan, json, bus, nodes }
  return (s, .record ready :: outputs)

/-- Polls the nodes in order, each on the bus that the one before left behind. -/
def pollNodes (bus : Bus SeededChance) :
    Nat → List Node → Except Fault (Bus SeededChance × List Node × List Output)
  | _, [] => .ok (bus, [], [])
  | index, node :: rest => do
    let polled := Node.poll node.device (⟨bus, index, node.offset⟩ : Connection SeededChance)
    polled.result
    let outputs := polled.acts.filterMap fun act =>
      (act.record? polled.device.did index bus.clock).map Output.record
    let (bus, nodes, more) ← pollNodes polled.platform.bus (index + 1) rest
    return (bus, ⟨polled.device, polled.platform.offset⟩ :: nodes, outputs ++ more)

def syncClocks (s : Simulation) : Except Fault (Simulation × List Output) := do
  let secs := s.connection.now.secs
  let note : LogRecord :=
    ⟨.info, "Synchronizing device clocks to " ++ toString secs.toNat,
      [("devices", toString s.known.length)]⟩
  let asked :=
    s.controller.queryWrite s.connection .broadcast .time secs (.ofMillis s.plan.timeoutMs)
  let _ ← asked.result
  let outputs := s.outputs asked.acts
  return ({ s with controller := asked.controller, timeSynced := true }.adopt asked.platform,
    .record note :: outputs)

def probe (s : Simulation) : Except Fault (Simulation × List Output) :=
  let attempt :=
    s.scheduler.attempt s.controller s.connection s.known (.ofMillis s.plan.timeoutMs)
  match attempt.fault? with
  | some fault => .error fault
  | none =>
    let outputs := s.outputs attempt.exchange.acts
    let s := { s with scheduler := attempt.scheduler, controller := attempt.exchange.controller }
    .ok (s.adopt attempt.exchange.platform,
      outputs ++ (attempt.skipRecord?.map Output.record).toList)

/-- Issues a query when the search is over and the last query is long enough ago. -/
def issue (s : Simulation) : Except Fault (Simulation × List Output) :=
  let now := s.bus.elapsed
  if s.controller.isSweeping || now - s.lastQuery < s.plan.queryIntervalMs then .ok (s, [])
  else
    let s := { s with lastQuery := now }
    if s.timeSynced then s.probe else s.syncClocks

/-- Everything that happens at one point in time, in milliseconds since the start. -/
def tick (s : Simulation) (now : Nat) : Except Fault (Simulation × List Output) := do
  let (bus, mishaps) := { s.bus with elapsed := now }.deliver
  let (bus, nodes, served) ← pollNodes bus 0 s.nodes
  let s := { s with bus, nodes }
  let polled := s.controller.poll s.connection
  polled.result
  let seen := s.outputs polled.acts
  let s := ({ s with controller := polled.controller }.adopt polled.platform).learn polled.acts
  let (s, issued) ← s.issue
  return (s, mishaps.map (fun m => .record m.logRecord) ++ served ++ seen ++ issued)

def controllerSummary (s : MonitorStats) : LogRecord :=
  ⟨.info, "Controller summary",
    [("ok", toString (s.ok : Nat)), ("errors", toString (s.errors : Nat)),
      ("timeouts", toString (s.timeouts : Nat)), ("cancelled", toString (s.cancelled : Nat)),
      ("orphans", toString (s.orphans : Nat))]⟩

def busSummary (s : BusStats) : LogRecord :=
  ⟨.info, "Bus summary",
    [("sent", toString (s.sent : Nat)), ("delivered", toString (s.delivered : Nat)),
      ("dropped", toString (s.dropped : Nat)), ("overruns", toString (s.overruns : Nat))]⟩

def deviceSummary (d : Device Thermostat) : LogRecord :=
  ⟨.info, "Device summary",
    [("did", d.did.text), ("received", toString d.system.receivedTotal.toNat),
      ("sent", toString d.system.sentTotal.toNat),
      ("telemetry", toString d.system.sentTelemetry.toNat),
      ("uptime", toString d.system.uptime.toNat)]⟩

def finish (s : Simulation) : List Output :=
  let (controller, acts) := s.controller.cancelAll true
  let (monitor, more) := controller.close
  s.outputs (acts ++ more) ++
    (controllerSummary monitor.stats :: busSummary s.bus.stats ::
      s.nodes.map fun node => deviceSummary node.device).map Output.record

def period (plan : SimulationPlan) : Nat := max plan.pollMs 1

/-- Whether the planned end has come; without a duration it never does. -/
def isOver (plan : SimulationPlan) (now : Nat) : Bool :=
  0 < plan.duration && plan.duration * 1000 ≤ now

def nextTick (plan : SimulationPlan) (now : Nat) : Nat := (now / period plan + 1) * period plan

def ticks (plan : SimulationPlan) : Nat :=
  (plan.duration * 1000 + period plan - 1) / period plan

/-- Runs `n` ticks, the first of them with number `k`, and then sums up. -/
def runFrom (s : Simulation) (shown : Array Output) (k : Nat) :
    Nat → Except Fault (Array Output)
  | 0 => .ok (shown ++ s.finish)
  | n + 1 => do
    let (s, outputs) ← s.tick (k * period s.plan)
    s.runFrom (shown ++ outputs) (k + 1) n

/-- The output of a whole simulation, every tick at its time. -/
def run (plan : SimulationPlan) (json : Bool) (epoch : Nat) : Except Fault (List Output) := do
  let (s, outputs) ← start plan json epoch
  let shown ← s.runFrom outputs.toArray 0 (ticks plan)
  return shown.toList

end Simulation

end Fieldbus
