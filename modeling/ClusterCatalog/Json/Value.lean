import ClusterCatalog.Text.Bytes
/-! JSON values, as far as the catalog's messages need them, and their text. -/
namespace ClusterCatalog.Json

inductive Number where
  | natural (n : Nat)
  | negative (n : Nat)
  | real
  deriving DecidableEq, Repr

inductive Value where
  | null
  | bool (b : Bool)
  | number (n : Number)
  | string (text : String)
  | array (items : List Value)
  | object (members : List (String × Value))
  /-- Text that may be skipped but denotes nothing: half a surrogate pair, or a number beyond the
  range of floating point. -/
  | broken
  deriving Repr, Inhabited

namespace Value

def nat (n : Nat) : Value := .number (.natural n)

def word (n : UInt64) : Value := .nat n.toNat

mutual

def sound : Value → Bool
  | .broken => false
  | .array items => soundItems items
  | .object members => soundMembers members
  | _ => true

def soundItems : List Value → Bool
  | [] => true
  | v :: rest => v.sound && soundItems rest

def soundMembers : List (String × Value) → Bool
  | [] => true
  | (_, v) :: rest => v.sound && soundMembers rest

end

mutual

def depth : Value → Nat
  | .array items => depthItems items + 1
  | .object members => depthMembers members + 1
  | _ => 0

def depthItems : List Value → Nat
  | [] => 0
  | v :: rest => max v.depth (depthItems rest)

def depthMembers : List (String × Value) → Nat
  | [] => 0
  | (_, v) :: rest => max v.depth (depthMembers rest)

end

mutual

/-- The value with null for every empty object that is the only member of an object. -/
def emptyAsNull : Value → Value
  | .array items => .array (emptyAsNullItems items)
  | .object [(name, .object [])] => .object [(name, .null)]
  | .object members => .object (emptyAsNullMembers members)
  | v => v

def emptyAsNullItems : List Value → List Value
  | [] => []
  | v :: rest => v.emptyAsNull :: emptyAsNullItems rest

def emptyAsNullMembers : List (String × Value) → List (String × Value)
  | [] => []
  | (name, v) :: rest => (name, v.emptyAsNull) :: emptyAsNullMembers rest

end

def member? (name : String) : Value → Option Value
  | .object members => members.lookup name
  | _ => none

end Value

def escapeCode (c : Char) : List Char :=
  ['\\', 'u', '0', '0', Hex.digit (c.toNat / 16), Hex.digit (c.toNat % 16)]

def escape : List Char → List Char
  | [] => []
  | '"' :: rest => '\\' :: '"' :: escape rest
  | '\\' :: rest => '\\' :: '\\' :: escape rest
  | c :: rest => if c.toNat < 32 then escapeCode c ++ escape rest else c :: escape rest

def quote (text : String) : String := "\"" ++ String.ofList (escape text.toList) ++ "\""

def Number.render : Number → String
  | .natural n => String.ofList (Nat.toDigits 10 n)
  | .negative n => "-" ++ String.ofList (Nat.toDigits 10 n)
  | .real => "0.0"

namespace Value

mutual

def render : Value → String
  | .null => "null"
  | .bool b => if b then "true" else "false"
  | .number n => n.render
  | .string text => quote text
  | .array items => "[" ++ ",".intercalate (renderItems items) ++ "]"
  | .object members => "\x7b" ++ ",".intercalate (renderMembers members) ++ "\x7d"
  | .broken => "null"

def renderItems : List Value → List String
  | [] => []
  | v :: rest => v.render :: renderItems rest

def renderMembers : List (String × Value) → List String
  | [] => []
  | (name, v) :: rest => (quote name ++ ":" ++ v.render) :: renderMembers rest

end

end Value

end ClusterCatalog.Json
