import Fieldbus.Text.Hex

namespace Fieldbus

/-- A value of the interchange format; numbers are whole. -/
inductive Json
  | null
  | bool (b : Bool)
  | number (n : Int)
  | text (s : String)
  | array (items : List Json)
  | object (members : List (String × Json))

namespace Json

/-- A control character without a short escape is written by its code. -/
def escapeChar (c : Char) : List Char :=
  if c = '"' then ['\\', '"']
  else if c = '\\' then ['\\', '\\']
  else if c = '\n' then ['\\', 'n']
  else if c = '\r' then ['\\', 'r']
  else if c = '\t' then ['\\', 't']
  else if c.toNat = 8 then ['\\', 'b']
  else if c.toNat = 12 then ['\\', 'f']
  else if c.toNat < 32 then '\\' :: 'u' :: Hex.fixed 4 c.toNat
  else [c]

def quote (s : String) : String := "\"" ++ String.ofList (s.toList.flatMap escapeChar) ++ "\""

mutual

def compact : Json → String
  | null => "null"
  | bool b => if b then "true" else "false"
  | number n => toString n
  | text s => quote s
  | array items => "[" ++ String.intercalate "," (compactItems items) ++ "]"
  | object members => "\x7b" ++ String.intercalate "," (compactMembers members) ++ "\x7d"

def compactItems : List Json → List String
  | [] => []
  | v :: rest => compact v :: compactItems rest

def compactMembers : List (String × Json) → List String
  | [] => []
  | (k, v) :: rest => (quote k ++ ":" ++ compact v) :: compactMembers rest

end

mutual

/-- One item or member to a line, two blanks deeper for each level; an empty one stays closed. -/
def pretty (indent : String) : Json → String
  | null => "null"
  | bool b => if b then "true" else "false"
  | number n => toString n
  | text s => quote s
  | array [] => "[]"
  | array (item :: items) =>
    "[\n" ++ String.intercalate ",\n" (prettyItems (indent ++ "  ") (item :: items)) ++
      "\n" ++ indent ++ "]"
  | object [] => "\x7b\x7d"
  | object (member :: members) =>
    "\x7b\n" ++ String.intercalate ",\n" (prettyMembers (indent ++ "  ") (member :: members)) ++
      "\n" ++ indent ++ "\x7d"

def prettyItems (indent : String) : List Json → List String
  | [] => []
  | v :: rest => (indent ++ pretty indent v) :: prettyItems indent rest

def prettyMembers (indent : String) : List (String × Json) → List String
  | [] => []
  | (k, v) :: rest =>
    (indent ++ quote k ++ ": " ++ pretty indent v) :: prettyMembers indent rest

end

def ofOption (f : α → Json) : Option α → Json
  | none => null
  | some a => f a

def ofNat (n : Nat) : Json := number n

end Json

end Fieldbus
