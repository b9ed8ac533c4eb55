import Fieldbus.CommandLine.Arguments

namespace Fieldbus

structure Scan where
  given : Given := {}
  /-- A value option whose value is not yet accepted, with the value once it is known. -/
  pending : Option (Arg × ValueKind × Option String) := none
  /-- The next argument that is no option is the value of the pending option. -/
  awaiting : Bool := false
  /-- Behind `--` nothing is an option. -/
  trailing : Bool := false
  positionals : List Arg

namespace Scan

/-- Accepts the pending option; one without value is refused. -/
def settle (s : Scan) : Except UsageError Scan :=
  match s.pending with
  | none => .ok s
  | some (_, _, none) => .error .invalidValue
  | some (a, kind, some text) => do
    let given ← s.given.addValue a kind text
    return { s with given, pending := none }

def plain (s : Scan) (a : Arg) (kind : OptionKind) : Except UsageError Scan := do
  let s ← s.settle
  let s := { s with awaiting := false }
  match kind with
  | .help => .error .help
  | .version => .error .version
  | .count => return { s with given := s.given.addCount a }
  | _ =>
    let given ← s.given.addFlag a
    return { s with given }

def valued (s : Scan) (a : Arg) (kind : ValueKind) (attached : Option String) :
    Except UsageError Scan := do
  let s ← s.settle
  match attached with
  | some text =>
    let given ← s.given.addValue a kind text
    return { s with given, awaiting := false }
  | none => return { s with pending := some (a, kind, none), awaiting := true }

def long (spec : CommandSpec) (s : Scan) (cs : List Char) : Except UsageError Scan :=
  let name := String.ofList (cs.takeWhile (· ≠ '='))
  let attached :=
    match cs.dropWhile (· ≠ '=') with
    | [] => none
    | _ :: rest => some (String.ofList rest)
  match spec.options.find? fun o => o.long = name with
  | none => .error .unknownArgument
  | some o =>
    match o.kind, attached with
    | .value kind, _ => s.valued o.arg kind attached
    | kind, none => s.plain o.arg kind
    | _, some _ => .error .tooManyValues

/-- Takes a cluster of short options, behind the dash; a value may be attached to the last. -/
def short (spec : CommandSpec) : Scan → List Char → Except UsageError Scan
  | s, [] => .ok s
  | s, c :: rest =>
    match spec.options.find? fun o => o.short = some c with
    | none => .error .unknownArgument
    | some o =>
      match o.kind with
      | .value kind =>
        let attached :=
          match rest with
          | [] => none
          | '=' :: value => some (String.ofList value)
          | value => some (String.ofList value)
        s.valued o.arg kind attached
      | kind => do
        let s ← s.plain o.arg kind
        short spec s rest

/-- Takes an argument that is no option; `excess` tells what is wrong when none is expected. -/
def positional (s : Scan) (text : String) (excess : UsageError) : Except UsageError Scan :=
  match s.positionals with
  | [] => .error excess
  | a :: rest => do
    let s ← s.settle
    let given ← s.given.addValue a .text text
    return { s with given, positionals := rest }

def step (spec : CommandSpec) (s : Scan) (text : String) (excess : UsageError) :
    Except UsageError Scan :=
  if s.trailing then s.positional text excess
  else
    match text.toList, s.awaiting, s.pending with
    | ['-', '-'], _, _ => .ok { s with trailing := true }
    | '-' :: '-' :: cs, _, _ => s.long spec cs
    | '-' :: c :: cs, _, _ => s.short spec (c :: cs)
    | _, true, some (a, kind, _) =>
      .ok { s with pending := some (a, kind, some text), awaiting := false }
    | _, _, _ => s.positional text excess

def all (spec : CommandSpec) : Scan → List String → Except UsageError Scan
  | s, [] => s.settle
  | s, text :: rest => do
    let s ← s.step spec text .unknownArgument
    all spec s rest

end Scan

namespace CommandSpec

def conflicting (spec : CommandSpec) (g : Given) : Bool :=
  spec.conflicts.any fun c => g.has c.1 && g.has c.2

def excluded (spec : CommandSpec) (g : Given) (a : Arg) : Bool :=
  spec.conflicts.any fun c => (c.1 = a && g.has c.2) || (c.2 = a && g.has c.1)

/-- The arguments that have to be given; those that are shut out need not. -/
def lacking (spec : CommandSpec) (g : Given) : Bool :=
  let demanded := spec.required ++ (spec.requires.filter fun r => g.has r.1).map Prod.snd
  demanded.any fun a => !g.has a && !spec.excluded g a

/-- Refuses arguments that exclude each other, then missing ones. -/
def check (spec : CommandSpec) (g : Given) : Except UsageError Unit :=
  if spec.conflicting g then .error .conflict
  else if spec.lacking g then .error .missingRequired
  else .ok ()

def read (spec : CommandSpec) (args : List String) : Except UsageError Given := do
  let s ← Scan.all spec { positionals := spec.positionals } args
  spec.check s.given
  return s.given

end CommandSpec

end Fieldbus
