import Fieldbus.Text.Real

namespace Fieldbus

inductive Arg
  | json
  | logFile
  | verbose
  | quiet
  | help
  | version
  | identifier
  | payload
  | frameType
  | response
  | deviceClass
  | subId
  | broadcast
  | endpoint
  | data
  | key
  | value
  | devices
  | discovery
  | discoveryMs
  | timeoutMs
  | queryIntervalMs
  | telemetryPeriodMs
  | pollMs
  | duration
  | dropRate
  | seed
deriving DecidableEq

inductive ValueKind
  | text
  | path
  | ranged (low high : Nat)
  | word64
  | real
  | choice (names : List String)
deriving DecidableEq

inductive OptionKind
  | value (kind : ValueKind)
  | flag
  | count
  | help
  | version
deriving DecidableEq

structure OptionSpec where
  arg : Arg
  short : Option Char
  long : String
  kind : OptionKind
deriving DecidableEq

structure CommandSpec where
  options : List OptionSpec
  positionals : List Arg := []
  conflicts : List (Arg × Arg) := []
  required : List Arg := []
  /-- Arguments that are only allowed together with another one. -/
  requires : List (Arg × Arg) := []

/-- Why a command line is refused, or what is shown instead of running a command. -/
inductive UsageError
  | invalidValue
  | valueValidation
  | unknownArgument
  | tooManyValues
  | conflict
  | missingRequired
  | missingSubcommand
  | invalidSubcommand
  | help
  | helpOnMissing
  | version
deriving DecidableEq

namespace UsageError

/-- Whether the command line asks for an explanation and is not wrong. -/
def isRequest : UsageError → Bool
  | help => true
  | version => true
  | _ => false

def message : UsageError → String
  | invalidValue => "invalid or missing value of an option"
  | valueValidation => "value out of range or not a number"
  | unknownArgument => "unexpected argument"
  | tooManyValues => "unexpected value for a flag"
  | conflict => "arguments that cannot be used together, or one used twice"
  | missingRequired => "a required argument is missing"
  | missingSubcommand => "a command is missing"
  | invalidSubcommand => "unknown command"
  | help => "commands: decode, encode, simulate, help"
  | helpOnMissing => "a command is missing: decode, encode, simulate or help"
  | version => "fieldbus 0.1.0"

end UsageError

inductive ArgValue
  | text (s : String)
  | number (n : Nat)
  | real (x : Float)

namespace ValueKind

def read (k : ValueKind) (s : String) : Except UsageError ArgValue :=
  match k with
  | text => .ok (.text s)
  | path => if s.isEmpty then .error .invalidValue else .ok (.text s)
  | ranged low high =>
    match Numeral.integer? 10 s.toList with
    | some (.ofNat n) => if low ≤ n ∧ n ≤ high then .ok (.number n) else .error .valueValidation
    | _ => .error .valueValidation
  | word64 =>
    match Numeral.bounded? 10 0x10000000000000000 s.toList with
    | some n => .ok (.number n)
    | none => .error .valueValidation
  | real =>
    match Real64.read? s.toList with
    | some x => .ok (.real x)
    | none => .error .valueValidation
  | choice names => if names.contains s then .ok (.text s) else .error .invalidValue

end ValueKind

/-- The arguments given to one command, in the order in which they were accepted. -/
structure Given where
  values : List (Arg × ArgValue) := []
  flags : List Arg := []
  counts : List Arg := []

namespace Given

def value? (g : Given) (a : Arg) : Option ArgValue := g.values.lookup a

def text? (g : Given) (a : Arg) : Option String :=
  match g.value? a with
  | some (.text s) => some s
  | _ => none

def number? (g : Given) (a : Arg) : Option Nat :=
  match g.value? a with
  | some (.number n) => some n
  | _ => none

def real? (g : Given) (a : Arg) : Option Float :=
  match g.value? a with
  | some (.real x) => some x
  | _ => none

def flag (g : Given) (a : Arg) : Bool := g.flags.contains a

/-- Counting a repeated flag stops at this number. -/
def countLimit : Nat := 255

/-- How often a flag was given, as far as it is counted. -/
def count (g : Given) (a : Arg) : Nat := min (g.counts.count a) countLimit

def has (g : Given) (a : Arg) : Bool :=
  (g.value? a).isSome || g.flag a || g.counts.contains a

def isEmpty (g : Given) : Bool := g.values.isEmpty && g.flags.isEmpty && g.counts.isEmpty

def addValue (g : Given) (a : Arg) (kind : ValueKind) (s : String) : Except UsageError Given :=
  if (g.value? a).isSome then .error .conflict
  else (kind.read s).map fun v => { g with values := g.values ++ [(a, v)] }

def addFlag (g : Given) (a : Arg) : Except UsageError Given :=
  if g.flag a then .error .conflict else .ok { g with flags := g.flags ++ [a] }

def addCount (g : Given) (a : Arg) : Given := { g with counts := g.counts ++ [a] }

end Given

end Fieldbus
