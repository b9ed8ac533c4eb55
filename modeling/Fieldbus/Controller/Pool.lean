import Fieldbus.Controller.Query

namespace Fieldbus

/-- The largest time span that is kept, in milliseconds. -/
def maxSpan : Nat := 0xFFFFFFFF

/-- The sum of two time spans, cut off at the largest one. -/
def addSpans (a b : Nat) : Nat := min (a + b) maxSpan

inductive Link (N : Nat)
  | forever
  /-- The delay after the query before it, and the slot of the next one. -/
  | queued (delay : Nat) (next : Option (Fin N))

inductive Slot (N : Nat)
  | free (next : Option (Fin N))
  | inUse (query : PendingQuery) (link : Link N)

/-- Slots for pending queries; the free ones are linked, and so are those that wait. -/
structure Pool (N : Nat) where
  slots : Vector (Slot N) N
  freeHead : Option (Fin N)
  queueHead : Option (Fin N)
  pending : DidSet

/-- The slots on the way from one to the next, `n` of them at most. -/
def walk {ι : Type} (next : ι → Option ι) : Nat → Option ι → List ι
  | 0, _ => []
  | _ + 1, none => []
  | n + 1, some i => i :: walk next n (next i)

namespace Slot

variable {N : Nat}

def query? : Slot N → Option PendingQuery
  | free _ => none
  | inUse q _ => some q

def nextFree : Slot N → Option (Fin N)
  | free next => next
  | inUse _ _ => none

def link? : Slot N → Option (Nat × Option (Fin N))
  | inUse _ (.queued delay next) => some (delay, next)
  | _ => none

def mapLink (f : Nat → Option (Fin N) → Nat × Option (Fin N)) : Slot N → Slot N
  | inUse q (.queued delay next) => inUse q (.queued (f delay next).1 (f delay next).2)
  | s => s

def setLink (link : Link N) : Slot N → Slot N
  | inUse q _ => inUse q link
  | s => s

def setQuery (q : PendingQuery) : Slot N → Slot N
  | inUse _ link => inUse q link
  | s => s

end Slot

namespace Pool

variable {N : Nat}

/-- All slots are free, the first one is taken first. -/
def new : Pool N where
  slots := .ofFn fun i => .free (if h : i.val + 1 < N then some ⟨i.val + 1, h⟩ else none)
  freeHead := if h : 0 < N then some ⟨0, h⟩ else none
  queueHead := none
  pending := .empty

def slot (p : Pool N) (i : Fin N) : Slot N := p.slots.get i

def modify (p : Pool N) (i : Fin N) (f : Slot N → Slot N) : Pool N :=
  { p with slots := p.slots.set i (f (p.slot i)) i.isLt }

def query? (p : Pool N) (i : Fin N) : Option PendingQuery := (p.slot i).query?

def setQuery (p : Pool N) (i : Fin N) (q : PendingQuery) : Pool N := p.modify i (.setQuery q)

def nextFree (p : Pool N) (i : Fin N) : Option (Fin N) := (p.slot i).nextFree

def link? (p : Pool N) (i : Fin N) : Option (Nat × Option (Fin N)) := (p.slot i).link?

def nextQueued (p : Pool N) (i : Fin N) : Option (Fin N) := (p.link? i).bind Prod.snd

/-- The free slots in the order in which they are taken. -/
def freeSlots (p : Pool N) : List (Fin N) := walk p.nextFree N p.freeHead

/-- The slots of the queries that wait for a deadline, in order of expiry. -/
def queue (p : Pool N) : List (Fin N) := walk p.nextQueued N p.queueHead

def freeCount (p : Pool N) : Nat := p.freeSlots.length

def pendingCount (p : Pool N) : Nat := p.slots.toList.countP fun s => s.query?.isSome

def alloc? (p : Pool N) : Option (Fin N × Pool N) :=
  p.freeHead.map fun i => (i, { p with freeHead := p.nextFree i })

def release (p : Pool N) (i : Fin N) : Pool N :=
  { p.modify i fun _ => .free p.freeHead with freeHead := some i }

/-- Lets another query expire after `prev`, or as the first one. -/
def relink (p : Pool N) (prev next : Option (Fin N)) : Pool N :=
  match prev with
  | none => { p with queueHead := next }
  | some k => p.modify k (.mapLink fun delay _ => (delay, next))

def mapDelay (p : Pool N) (i : Fin N) (f : Nat → Nat) : Pool N :=
  p.modify i (.mapLink fun delay next => (f delay, next))

/-- Where to put a query that expires `remaining` after `prev`: what is left of that time, and the
queries before and after it. -/
def place (p : Pool N) (remaining : Nat) (prev : Option (Fin N)) :
    List (Fin N) → Nat × Option (Fin N) × Option (Fin N)
  | [] => (remaining, prev, none)
  | k :: rest =>
    match p.link? k with
    | none => (remaining, prev, some k)
    | some (delay, _) =>
      if remaining < delay then (remaining, prev, some k)
      else p.place (remaining - delay) (some k) rest

/-- Lets a query expire in `ms`, behind those that expire at the same time. -/
def schedule (p : Pool N) (i : Fin N) (ms : Nat) : Pool N :=
  let (remaining, prev, next) := p.place ms none p.queue
  let p := next.elim p fun k => p.mapDelay k (· - remaining)
  (p.modify i (.setLink (.queued remaining next))).relink prev (some i)

/-- The query that expires before the one in a slot; none at all if that one does not wait. -/
def before? (i : Fin N) (prev : Option (Fin N)) : List (Fin N) → Option (Option (Fin N))
  | [] => none
  | k :: rest => if k = i then some prev else before? i (some k) rest

/-- Takes a query out of the queue; the next one takes over its delay. -/
def unschedule (p : Pool N) (i : Fin N) : Pool N :=
  match p.link? i, before? i none p.queue with
  | some (delay, next), some prev =>
    let p := next.elim p fun k => p.mapDelay k (addSpans · delay)
    (p.relink prev next).modify i (.setLink .forever)
  | _, _ => p

def fill (p : Pool N) (i : Fin N) (q : PendingQuery) (timeout : Timeout) : Pool N :=
  let p := p.modify i fun _ => .inUse q .forever
  let p :=
    match timeout with
    | .millis ms => p.schedule i ms.toNat
    | _ => p
  { p with pending := p.pending.insert q.did }

def finish (p : Pool N) (i : Fin N) (q : PendingQuery) : Pool N :=
  { (p.unschedule i).release i with pending := p.pending.erase q.did }

/-- Lets time pass for the queries that wait; those that are due keep a delay of zero. -/
def elapseFrom (p : Pool N) (left : Nat) : List (Fin N) → Pool N
  | [] => p
  | i :: rest =>
    if left = 0 then p
    else
      match p.link? i with
      | none => p
      | some (delay, _) =>
        if delay ≤ left then (p.mapDelay i fun _ => 0).elapseFrom (left - delay) rest
        else p.mapDelay i (· - left)

def elapse (p : Pool N) (ms : Nat) : Pool N := p.elapseFrom ms p.queue

/-- Whether no time is left for a query once the one before it expired. -/
def isDue (p : Pool N) (i : Fin N) : Bool := (p.link? i).any fun l => l.1 = 0

/-- The time left for a query, on top of `passed`. -/
def remainingFrom? (p : Pool N) (i : Fin N) (passed : Nat) : List (Fin N) → Option Nat
  | [] => none
  | k :: rest =>
    match p.link? k with
    | none => none
    | some (delay, _) =>
      if k = i then some (addSpans passed delay)
      else p.remainingFrom? i (addSpans passed delay) rest

def remaining? (p : Pool N) (i : Fin N) : Option Nat := p.remainingFrom? i 0 p.queue

def nextTimeout? (p : Pool N) : Option Nat :=
  (p.queueHead.bind p.link?).map Prod.fst

/-- The query that is pending for an address, with its slot. -/
def find? (p : Pool N) (d : Did) : Option (Fin N × PendingQuery) :=
  (List.finRange N).findSome? fun i =>
    ((p.query? i).filter fun q => q.did = d).map fun q => (i, q)

/-- The slot and the query that a handle stands for, while it is pending. -/
def lookup? (p : Pool N) (h : Handle) : Option (Fin N × PendingQuery) :=
  if hlt : h.slot < N then
    ((p.query? ⟨h.slot, hlt⟩).filter fun q => q.handle = h).map fun q => (⟨h.slot, hlt⟩, q)
  else none

end Pool

end Fieldbus
