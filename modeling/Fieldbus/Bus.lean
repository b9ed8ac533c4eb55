import Fieldbus.Platform
import Fieldbus.Random.Chance

namespace Fieldbus

/-- A frame on its way, with the time from which it may arrive. -/
structure InFlight where
  sender : Nat
  frame : Frame
  deliverAt : Nat
deriving DecidableEq

/-- Counts of frames, in words that start again when they are full. -/
structure BusStats where
  sent : UInt64 := 0
  delivered : UInt64 := 0
  dropped : UInt64 := 0
  overruns : UInt64 := 0
deriving DecidableEq

/-- A bus in memory: every node receives what the others send. -/
structure Bus (ρ : Type) where
  elapsed : Nat := 0
  epoch : Nat
  inFlight : List InFlight := []
  inboxes : List (List Frame) := []
  chance : ρ
  stats : BusStats := {}

inductive BusMishap
  | lost (sender : Nat) (frame : Frame)
  | overrun (node : Nat)
deriving DecidableEq

namespace Bus

variable {ρ : Type}

def inboxDepth : Nat := 64

/-- Connects one more node; its number is the number of nodes before. -/
def attach (b : Bus ρ) : Bus ρ := { b with inboxes := b.inboxes ++ [[]] }

/-- The wall clock counts milliseconds in 64 bits. -/
def clock (b : Bus ρ) : Nat := (b.epoch + b.elapsed) % 0x10000000000000000

def inbox (b : Bus ρ) (node : Nat) : List Frame := b.inboxes.getD node []

def send (b : Bus ρ) (node : Nat) (frame : Frame) (delay : Nat) : Bus ρ :=
  { b with
    inFlight := b.inFlight ++ [⟨node, frame, b.elapsed + delay⟩]
    stats := { b.stats with sent := b.stats.sent + 1 } }

def take (b : Bus ρ) (node : Nat) : Option Frame × Bus ρ :=
  match b.inbox node with
  | [] => (none, b)
  | f :: rest => (some f, { b with inboxes := b.inboxes.set node rest })

/-- A frame gets into every queue but its sender's that is not full. -/
def fits (sender node : Nat) (queue : List Frame) : Bool :=
  node ≠ sender && queue.length < inboxDepth

def fullNodes (b : Bus ρ) (sender : Nat) : List Nat :=
  (b.inboxes.zipIdx.filter fun e => e.2 ≠ sender && inboxDepth ≤ e.1.length).map Prod.snd

def spread (b : Bus ρ) (x : InFlight) : Bus ρ × List BusMishap :=
  let full := b.fullNodes x.sender
  ({ b with
      inboxes := b.inboxes.mapIdx fun node queue =>
        if fits x.sender node queue then queue ++ [x.frame] else queue
      stats := { b.stats with
        delivered := b.stats.delivered +
          .ofNat (b.inboxes.zipIdx.countP fun e => fits x.sender e.2 e.1)
        overruns := b.stats.overruns + .ofNat full.length } },
    full.map .overrun)

variable [Chance ρ]

def arrive (b : Bus ρ) (x : InFlight) : Bus ρ × List BusMishap :=
  let (lost, chance) := Chance.loses b.chance
  let b := { b with chance }
  if lost then
    ({ b with stats := { b.stats with dropped := b.stats.dropped + 1 } },
      [.lost x.sender x.frame])
  else b.spread x

def arriveAll (b : Bus ρ) : List InFlight → Bus ρ × List BusMishap
  | [] => (b, [])
  | x :: rest =>
    let (b, mishaps) := b.arrive x
    let (b, more) := b.arriveAll rest
    (b, mishaps ++ more)

/-- Lets every frame arrive whose time has come, by that time and then in order of sending. -/
def deliver (b : Bus ρ) : Bus ρ × List BusMishap :=
  let (due, later) := b.inFlight.partition fun x => x.deliverAt ≤ b.elapsed
  { b with inFlight := later }.arriveAll (due.mergeSort fun x y => x.deliverAt ≤ y.deliverAt)

end Bus

/-- A node's connection to a bus, with a clock that may be off by some milliseconds. -/
structure Connection (ρ : Type) where
  bus : Bus ρ
  node : Nat
  offset : Int := 0

namespace Connection

variable {ρ : Type}

def signedClock (p : Connection ρ) : Int := (UInt64.ofNat p.bus.clock).toInt64.toInt

/-- The node's own clock counts in 64 bits with a sign, and never shows a time before zero. -/
def now (p : Connection ρ) : Timestamp :=
  .ofMillis ((p.signedClock + p.offset).bmod 0x10000000000000000).toNat

/-- Moves the node's clock to the given second; a bus clock beyond 63 bits cannot be matched. -/
def setClock (p : Connection ρ) (secs : UInt32) : Except Fault Unit × Connection ρ :=
  if p.bus.clock < 0x8000000000000000 then
    (.ok (), { p with offset := (secs.toNat * 1000 : Int) - p.bus.clock })
  else (.error (.driver (-1)), p)

def receive (p : Connection ρ) : Except Fault (Option Frame) × Connection ρ :=
  let (frame, bus) := p.bus.take p.node
  (.ok frame, { p with bus })

theorem inbox_receive {p p' : Connection ρ} {f : Frame} (h : p.receive = (.ok (some f), p')) :
    (p'.bus.inbox p'.node).length < (p.bus.inbox p.node).length := by
  simp only [receive, Bus.take] at h
  split at h
  next => cases h
  next g rest hq =>
    cases h
    have hlt : p.node < p.bus.inboxes.length := by
      rcases Nat.lt_or_ge p.node p.bus.inboxes.length with hlt | hge
      · exact hlt
      · simp [Bus.inbox, List.getElem?_eq_none hge] at hq
    have hqueue : p.bus.inboxes[p.node] = f :: rest := by simpa [Bus.inbox, hlt] using hq
    simp [Bus.inbox, hlt, hqueue]

instance [Chance ρ] : Platform (Connection ρ) where
  send p f delay := (.ok (), { p with bus := p.bus.send p.node f delay })
  receive := receive
  now := now
  setClock := setClock
  entropy p n :=
    let (bytes, chance) := Chance.bytes p.bus.chance n
    (bytes, { p with bus := { p.bus with chance } })
  waiting p := (p.bus.inbox p.node).length
  waiting_receive _ _ _ h := inbox_receive h

end Connection

end Fieldbus
