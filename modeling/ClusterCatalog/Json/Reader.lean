import ClusterCatalog.Json.Value
import ClusterCatalog.Text.Decimal
import ClusterCatalog.Text.Double
/-!
Reading JSON. Every function takes characters off the front and returns the rest; `value` is given
fuel, of which twice the length of the text is always enough.
-/
namespace ClusterCatalog.Json.Reader

def isBlank (c : Char) : Bool := c == ' ' || c == '\n' || c == '\t' || c == '\r'

def skipBlank (text : List Char) : List Char := text.dropWhile isBlank

def code : List Char → Option (Nat × List Char)
  | a :: b :: c :: d :: rest => (Hex.readDigits 0 [a, b, c, d]).map fun n => (n, rest)
  | _ => none

def shortEscape : Char → Option Char
  | '"' => some '"'
  | '\\' => some '\\'
  | '/' => some '/'
  | 'b' => some '\x08'
  | 'f' => some '\x0c'
  | 'n' => some '\n'
  | 'r' => some '\r'
  | 't' => some '\t'
  | _ => none

inductive Piece where
  | char (c : Char)
  | half

def escaped (text : List Char) : Option (Piece × List Char) :=
  match code text with
  | none => none
  | some (high, rest) =>
    if 0xD800 ≤ high ∧ high ≤ 0xDBFF then
      match rest with
      | '\\' :: 'u' :: more =>
        match code more with
        | none => none
        | some (low, after) =>
          if 0xDC00 ≤ low ∧ low ≤ 0xDFFF then
            some (.char (Char.ofNat (0x10000 + (high - 0xD800) * 0x400 + (low - 0xDC00))), after)
          else some (.half, rest)
      | _ => some (.half, rest)
    else if 0xDC00 ≤ high ∧ high ≤ 0xDFFF then some (.half, rest)
    else some (.char (Char.ofNat high), rest)

/-- The rest of a string behind its opening quote; `none` inside for one with half a surrogate
pair. -/
def string (taken : List Char) (sound : Bool) : Nat → List Char → Option (Option String × List Char)
  | 0, _ => none
  | _, [] => none
  | _ + 1, '"' :: rest => some (if sound then some (String.ofList taken.reverse) else none, rest)
  | fuel + 1, '\\' :: 'u' :: rest =>
    match escaped rest with
    | none => none
    | some (.char c, rest) => string (c :: taken) sound fuel rest
    | some (.half, rest) => string taken false fuel rest
  | _ + 1, ['\\'] => none
  | fuel + 1, '\\' :: c :: rest =>
    match shortEscape c with
    | none => none
    | some c => string (c :: taken) sound fuel rest
  | fuel + 1, c :: rest => if c.toNat < 32 then none else string (c :: taken) sound fuel rest

def digits (text : List Char) : List Char × List Char :=
  text.span fun c => (Decimal.digit? c).isSome

def whole : List Char → Option (List Char × List Char)
  | '0' :: rest =>
    match rest with
    | c :: _ => if (Decimal.digit? c).isSome then none else some (['0'], rest)
    | [] => some (['0'], [])
  | text =>
    let (ds, rest) := digits text
    if ds.isEmpty then none else some (ds, rest)

def fraction : List Char → Option (List Char × List Char)
  | '.' :: text =>
    let (ds, rest) := digits text
    if ds.isEmpty then none else some (ds, rest)
  | text => some ([], text)

def exponent : List Char → Option (Option Int × List Char)
  | c :: text =>
    if c = 'e' ∨ c = 'E' then
      let (negative, text) := match text with
        | '-' :: rest => (true, rest)
        | '+' :: rest => (false, rest)
        | _ => (false, text)
      let (ds, rest) := digits text
      if ds.isEmpty then none
      else some (some (if negative then -(Decimal.valueOf ds : Int) else Decimal.valueOf ds), rest)
    else some (none, c :: text)
  | [] => some (none, [])

def gather (n : Nat) : List Char → Nat × List Char
  | [] => (n, [])
  | c :: rest =>
    let next := n * 10 + (Decimal.digit? c).getD 0
    if next < UInt64.size then gather next rest else (n, c :: rest)

def significand (whole fraction : List Char) : Nat × Int :=
  let (n, beyond) := gather 0 whole
  let (n, left) := gather n fraction
  (n, beyond.length - (fraction.length - left.length : Nat))

/-- A number beyond the range of double precision denotes nothing. -/
def number (text : List Char) : Option (Value × List Char) :=
  let (negative, text) := match text with
    | '-' :: rest => (true, rest)
    | _ => (false, text)
  match whole text with
  | none => none
  | some (ds, rest) =>
    match fraction rest with
    | none => none
    | some (fs, rest) =>
      match exponent rest with
      | none => none
      | some (e, rest) =>
        let (n, scale) := significand ds fs
        let value :=
          if !Double.productIsFinite n (e.getD 0 + scale) then Value.broken
          else if fs.isEmpty ∧ e.isNone then
            if !negative then .number (.natural (Decimal.valueOf ds))
            else if n = 0 then .number .real
            else .number (.negative (Decimal.valueOf ds))
          else .number .real
        some (value, rest)

def keyword : List Char → Value → List Char → Option (Value × List Char)
  | [], v, text => some (v, text)
  | k :: word, v, c :: text => if k = c then keyword word v text else none
  | _ :: _, _, [] => none

abbrev Members := List (Option String × Value)

def ofMembers (members : Members) : Value :=
  match members.mapM fun (name, v) => name.map (·, v) with
  | some named => .object named
  | none => .broken

def memberName (fuel : Nat) (text : List Char) : Option (Option String × List Char) :=
  match skipBlank text with
  | '"' :: rest => string [] true fuel rest
  | _ => none

def memberRest (text : List Char) : Option (List Char) :=
  match skipBlank text with
  | ':' :: rest => some rest
  | _ => none

mutual

def value : Nat → List Char → Option (Value × List Char)
  | 0, _ => none
  | fuel + 1, text =>
    match skipBlank text with
    | '"' :: rest => (string [] true fuel rest).map fun (s, rest) =>
        ((s.map Value.string).getD .broken, rest)
    | '[' :: rest =>
      match skipBlank rest with
      | ']' :: rest => some (.array [], rest)
      | rest => (items fuel rest).map fun (vs, rest) => (.array vs, rest)
    | '{' :: rest =>
      match skipBlank rest with
      | '}' :: rest => some (.object [], rest)
      | rest => (members fuel rest).map fun (ms, rest) => (ofMembers ms, rest)
    | 't' :: rest => keyword ['r', 'u', 'e'] (.bool true) rest
    | 'f' :: rest => keyword ['a', 'l', 's', 'e'] (.bool false) rest
    | 'n' :: rest => keyword ['u', 'l', 'l'] .null rest
    | rest => number rest

def items : Nat → List Char → Option (List Value × List Char)
  | 0, _ => none
  | fuel + 1, text =>
    match value fuel text with
    | none => none
    | some (v, rest) =>
      match skipBlank rest with
      | ',' :: rest => (items fuel rest).map fun (vs, rest) => (v :: vs, rest)
      | ']' :: rest => some ([v], rest)
      | _ => none

def members : Nat → List Char → Option (Members × List Char)
  | 0, _ => none
  | fuel + 1, text =>
    match memberName fuel text with
    | none => none
    | some (name, rest) =>
      match memberRest rest with
      | none => none
      | some rest =>
        match value fuel rest with
        | none => none
        | some (v, rest) =>
          match skipBlank rest with
          | ',' :: rest => (members fuel rest).map fun (ms, rest) => ((name, v) :: ms, rest)
          | '}' :: rest => some ([(name, v)], rest)
          | _ => none

end

def fuelFor (text : List Char) : Nat := 2 * text.length + 2

end Reader

open Reader in
def readPrefix? (text : String) : Option (Value × List Char) :=
  let chars := text.toList
  value (fuelFor chars) chars

open Reader in
def parse? (text : String) : Option Value :=
  match readPrefix? text with
  | some (v, rest) => if (skipBlank rest).isEmpty then some v else none
  | none => none

end ClusterCatalog.Json
