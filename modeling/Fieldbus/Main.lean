import Fieldbus.CommandLine.Commands
import Std.Time.DateTime.Timestamp

namespace Fieldbus

/-- Where output goes: lines to standard output, log entries to standard error and a file. -/
structure Console where
  rank : Nat
  logFile : Option IO.FS.Handle

namespace Console

def connect (i : Invocation) : IO Console := do
  let logFile ← i.logFile.mapM fun path => IO.FS.Handle.mk path .write
  return ⟨i.logRank, logFile⟩

def write (c : Console) : Output → IO Unit
  | .line text => IO.println text
  | .record r =>
    if c.rank ≤ r.level.rank then do
      IO.eprintln r.line
      if let some file := c.logFile then
        file.putStrLn r.line
        file.flush
    else pure ()

def writeAll (c : Console) (outputs : List Output) : IO Unit := outputs.forM c.write

def fail (c : Console) (message : String) : IO UInt32 := do
  c.write (.record ⟨.error, message, []⟩)
  return 1

partial def pace (c : Console) (start : Nat) (s : Simulation) : IO UInt32 := do
  let now := (← IO.monoMsNow) - start
  if Simulation.isOver s.plan now then
    c.writeAll s.finish
    return 0
  match s.tick now with
  | .error fault => c.fail fault.message
  | .ok (s, outputs) =>
    c.writeAll outputs
    let after := (← IO.monoMsNow) - start
    IO.sleep (UInt32.ofNat (min (Simulation.nextTick s.plan now - after) 0xFFFFFFFF))
    c.pace start s

def simulate (c : Console) (plan : SimulationPlan) (json : Bool) : IO UInt32 := do
  let epoch := (← Std.Time.Timestamp.now).toMillisecondsSinceUnixEpoch.toInt.toNat
  match Simulation.start plan json epoch with
  | .error fault => c.fail fault.message
  | .ok (s, outputs) =>
    c.writeAll outputs
    c.pace (← IO.monoMsNow) s

def perform (c : Console) (i : Invocation) : IO UInt32 :=
  match i.command with
  | .simulate request =>
    match Command.checkRate request with
    | .error failure => c.fail failure.message
    | .ok plan => c.simulate plan i.json
  | command =>
    match command.run i.json 0 with
    | .error failure => c.fail failure.message
    | .ok outputs => do
      c.writeAll outputs
      return 0

end Console

end Fieldbus

open Fieldbus in
/-- Exit code 1 stands for a command that failed, 2 for a command line that is wrong. -/
def main (args : List String) : IO UInt32 :=
  match Invocation.read args with
  | .ok i => do (← Console.connect i).perform i
  | .error e =>
    if e.isRequest then do
      IO.println e.message
      return 0
    else do
      IO.eprintln ("error: " ++ e.message)
      return 2
