namespace Fieldbus

inductive LogLevel
  | trace
  | debug
  | info
  | warn
  | error
deriving DecidableEq

namespace LogLevel

def text : LogLevel → String
  | trace => "TRACE"
  | debug => "DEBUG"
  | info => "INFO"
  | warn => "WARN"
  | error => "ERROR"

/-- Higher levels are more serious. -/
def rank : LogLevel → Nat
  | trace => 0
  | debug => 1
  | info => 2
  | warn => 3
  | error => 4

end LogLevel

structure LogRecord where
  level : LogLevel
  message : String
  fields : List (String × String) := []
deriving DecidableEq

def LogRecord.line (r : LogRecord) : String :=
  r.level.text ++ " " ++ r.message ++ String.join (r.fields.map fun f => " " ++ f.1 ++ "=" ++ f.2)

def optionText : Option String → String
  | none => "None"
  | some s => "Some(" ++ s ++ ")"

inductive Output
  | line (text : String)
  | record (record : LogRecord)
deriving DecidableEq

namespace Output

def lines (outputs : List Output) : List String :=
  outputs.filterMap fun
    | .line s => some s
    | .record _ => none

def records (rank : Nat) (outputs : List Output) : List LogRecord :=
  outputs.filterMap fun
    | .line _ => none
    | .record r => if rank ≤ r.level.rank then some r else none

end Output

end Fieldbus
