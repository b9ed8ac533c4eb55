import Fieldbus.Identifier
import Fieldbus.Words

namespace Fieldbus

/-- The last place at or before the given one where no character of the text is cut, looked for
step by step backwards. -/
def lastBoundary (text : String) : Nat → Nat
  | 0 => 0
  | n + 1 => if (⟨n + 1⟩ : String.Pos.Raw).IsValid text then n + 1 else lastBoundary text n

/-- Who a device is; no attribute write changes it. -/
structure Identification where
  /-- Any byte; only its low six bits make the address. -/
  didByte : UInt8
  version : UInt16
  name : Vector UInt8 32
  magicNumber : UInt32
  buildDate : UInt32 := 0
  buildCommit : Vector UInt8 20 := .replicate 20 0
  features : UInt32 := 0
deriving DecidableEq

namespace Identification

def did (i : Identification) : Did := .ofRaw i.didByte.toNat

/-- The bytes that a name field stores of a text: whole characters only, 32 bytes at most. -/
def nameBytes (text : String) : List UInt8 :=
  text.toUTF8.data.toList.take (lastBoundary text (min text.utf8ByteSize 32))

def ofName (did : Did) (version : UInt16) (text : String) (magicNumber : UInt32) :
    Identification where
  didByte := .ofNat did.raw
  version := version
  name := fitBytes 32 (nameBytes text)
  magicNumber := magicNumber

@[simp] theorem did_ofName (did : Did) (version : UInt16) (text : String) (magicNumber : UInt32) :
    (ofName did version text magicNumber).did = did := by
  have hlt := did.raw_lt
  have hbyte : (UInt8.ofNat did.raw).toNat = did.raw := by
    rw [UInt8.toNat_ofNat']
    omega
  rw [Identification.did, ofName, hbyte, Did.ofRaw_raw]

/-- The stored name up to its first zero byte; empty when that is not a text in UTF-8. -/
def nameText (i : Identification) : String :=
  (String.fromUTF8? ⟨(i.name.toList.takeWhile (· ≠ 0)).toArray⟩).getD ""

def toBytes (i : Identification) : List UInt8 :=
  leBytes 1 i.didByte.toNat ++ leBytes 2 i.version.toNat ++ i.name.toList ++
    leBytes 4 i.magicNumber.toNat ++ leBytes 4 i.buildDate.toNat ++ i.buildCommit.toList ++
    leBytes 4 i.features.toNat

end Identification

/-- The clock, the counters and the last failures of a device; counters wrap. -/
@[ext] structure SystemStatus where
  uptimeSynced : UInt32 := 0
  time : UInt32 := 0
  uptime : UInt32 := 0
  startTime : UInt32 := 0
  lastTelemetry : UInt32 := 0
  receivedTotal : UInt32 := 0
  receivedReadAttribute : UInt32 := 0
  receivedWriteAttribute : UInt32 := 0
  receivedCommand : UInt32 := 0
  receivedRequestTelemetry : UInt32 := 0
  receivedIgnored : UInt32 := 0
  sentTotal : UInt32 := 0
  sentTelemetry : UInt32 := 0
  lastCommandError : UInt16 := 0
  lastTelemetryError : UInt16 := 0
  battery : UInt8 := 0
deriving DecidableEq

def word32 (offset : Nat) (bytes : List UInt8) : UInt32 :=
  UInt32.ofNat (ofLeBytes (window offset 4 bytes))

def word16 (offset : Nat) (bytes : List UInt8) : UInt16 :=
  UInt16.ofNat (ofLeBytes (window offset 2 bytes))

def word8 (offset : Nat) (bytes : List UInt8) : UInt8 :=
  UInt8.ofNat (ofLeBytes (window offset 1 bytes))

namespace SystemStatus

def toBytes (s : SystemStatus) : List UInt8 :=
  leBytes 4 s.uptimeSynced.toNat ++ leBytes 4 s.time.toNat ++ leBytes 4 s.uptime.toNat ++
    leBytes 4 s.startTime.toNat ++ leBytes 4 s.lastTelemetry.toNat ++
    leBytes 4 s.receivedTotal.toNat ++ leBytes 4 s.receivedReadAttribute.toNat ++
    leBytes 4 s.receivedWriteAttribute.toNat ++ leBytes 4 s.receivedCommand.toNat ++
    leBytes 4 s.receivedRequestTelemetry.toNat ++ leBytes 4 s.receivedIgnored.toNat ++
    leBytes 4 s.sentTotal.toNat ++ leBytes 4 s.sentTelemetry.toNat ++
    leBytes 2 s.lastCommandError.toNat ++ leBytes 2 s.lastTelemetryError.toNat ++
    leBytes 1 s.battery.toNat

def ofBytes (bytes : List UInt8) : SystemStatus where
  uptimeSynced := word32 0 bytes
  time := word32 4 bytes
  uptime := word32 8 bytes
  startTime := word32 12 bytes
  lastTelemetry := word32 16 bytes
  receivedTotal := word32 20 bytes
  receivedReadAttribute := word32 24 bytes
  receivedWriteAttribute := word32 28 bytes
  receivedCommand := word32 32 bytes
  receivedRequestTelemetry := word32 36 bytes
  receivedIgnored := word32 40 bytes
  sentTotal := word32 44 bytes
  sentTelemetry := word32 48 bytes
  lastCommandError := word16 52 bytes
  lastTelemetryError := word16 54 bytes
  battery := word8 56 bytes

def resetCounters (s : SystemStatus) : SystemStatus :=
  { s with
    receivedTotal := 0
    receivedReadAttribute := 0
    receivedWriteAttribute := 0
    receivedCommand := 0
    receivedRequestTelemetry := 0
    receivedIgnored := 0
    sentTotal := 0
    sentTelemetry := 0
    lastCommandError := 0
    lastTelemetryError := 0 }

end SystemStatus

/-- The settings of a device; times are in milliseconds. -/
@[ext] structure Config where
  telemetryPeriod : UInt32 := 60000
  telemetryDelay : UInt16 := 5
  telemetryDelayMin : UInt16 := 0
  telemetryDelayMax : UInt16 := 100
  flags : UInt8 := 1
  timezone : Int32 := 0
  region : Vector UInt8 2 := .replicate 2 0
  country : Vector UInt8 2 := .replicate 2 0
  classConfig : Vector UInt8 32 := .replicate 32 0
deriving DecidableEq

namespace Config

def toBytes (c : Config) : List UInt8 :=
  leBytes 4 c.telemetryPeriod.toNat ++ leBytes 2 c.telemetryDelay.toNat ++
    leBytes 2 c.telemetryDelayMin.toNat ++ leBytes 2 c.telemetryDelayMax.toNat ++
    leBytes 1 c.flags.toNat ++ leBytes 4 c.timezone.toUInt32.toNat ++ c.region.toList ++
    c.country.toList ++ c.classConfig.toList

def ofBytes (bytes : List UInt8) : Config where
  telemetryPeriod := word32 0 bytes
  telemetryDelay := word16 4 bytes
  telemetryDelayMin := word16 6 bytes
  telemetryDelayMax := word16 8 bytes
  flags := word8 10 bytes
  timezone := (word32 11 bytes).toInt32
  region := fitBytes 2 (window 15 2 bytes)
  country := fitBytes 2 (window 17 2 bytes)
  classConfig := fitBytes 32 (window 19 32 bytes)

/-- Flag bit 0: failed queries are answered by an error frame. -/
def errorResponse (c : Config) : Bool := c.flags &&& 1 ≠ 0

/-- Flag bit 1: the delay of periodic telemetry is drawn at random. -/
def randomDelay (c : Config) : Bool := c.flags &&& 2 ≠ 0

/-- Flag bits 2 and 3: the endpoint of periodic telemetry. -/
def telemetryEndpoint (c : Config) : Endpoint := .ofCode ((c.flags &&& 12) >>> 2).toNat

def setFlag (c : Config) (mask : UInt8) (on : Bool) : Config :=
  { c with flags := if on then c.flags ||| mask else c.flags &&& ~~~mask }

def setErrorResponse (c : Config) (on : Bool) : Config := c.setFlag 1 on

def setRandomDelay (c : Config) (on : Bool) : Config := c.setFlag 2 on

def setTelemetryEndpoint (c : Config) (e : Endpoint) : Config :=
  { c with flags := (c.flags &&& ~~~(12 : UInt8)) ||| (UInt8.ofNat e.code <<< 2) }

end Config

end Fieldbus
