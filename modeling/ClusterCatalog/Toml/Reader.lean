import ClusterCatalog.Toml.Document
import ClusterCatalog.Text.Decimal
import ClusterCatalog.Text.Double
import ClusterCatalog.Text.Bytes
/-!
Reading TOML 1.0. Every function takes characters off the front and returns the rest, or nothing
for text that is not well formed; those that nest are given fuel, of which twice the length of the
text is always enough.
-/
namespace ClusterCatalog.Toml.Reader

def isSpace (c : Char) : Bool := c == ' ' || c == '\t'

def skipSpace (text : List Char) : List Char := text.dropWhile isSpace

def isPrintable (c : Char) : Bool := c == '\t' || (32 ≤ c.toNat && c.toNat != 127)

def newline? : List Char → Option (List Char)
  | '\n' :: rest => some rest
  | '\r' :: '\n' :: rest => some rest
  | _ => none

def skipComment : List Char → List Char
  | '#' :: rest => rest.dropWhile isPrintable
  | text => text

def endOfLine (text : List Char) : Option (List Char) :=
  match skipComment (skipSpace text) with
  | [] => some []
  | rest => newline? rest

def skipLines : Nat → List Char → List Char
  | 0, text => text
  | fuel + 1, text =>
    let rest := skipComment (skipSpace text)
    match newline? rest with
    | some rest => skipLines fuel rest
    | none => rest

def isDigit (c : Char) : Bool := (Decimal.digit? c).isSome

def isBare (c : Char) : Bool :=
  ('a' ≤ c && c ≤ 'z') || ('A' ≤ c && c ≤ 'Z') || isDigit c || c == '_' || c == '-'

def codePoint (width : Nat) (text : List Char) : Option (Char × List Char) := do
  let ds := text.take width
  if ds.length ≠ width then none
  let n ← Hex.readDigits 0 ds
  if n.isValidChar then some (Char.ofNat n, text.drop width) else none

def escaped : List Char → Option (Char × List Char)
  | 'b' :: rest => some ('\x08', rest)
  | 't' :: rest => some ('\t', rest)
  | 'n' :: rest => some ('\n', rest)
  | 'f' :: rest => some ('\x0c', rest)
  | 'r' :: rest => some ('\r', rest)
  | '"' :: rest => some ('"', rest)
  | '\\' :: rest => some ('\\', rest)
  | 'u' :: rest => codePoint 4 rest
  | 'U' :: rest => codePoint 8 rest
  | _ => none

def basicString (taken : List Char) : Nat → List Char → Option (String × List Char)
  | 0, _ => none
  | _, [] => none
  | _ + 1, '"' :: rest => some (String.ofList taken.reverse, rest)
  | fuel + 1, '\\' :: rest => (escaped rest).bind fun (c, rest) => basicString (c :: taken) fuel rest
  | fuel + 1, c :: rest => if isPrintable c then basicString (c :: taken) fuel rest else none

def literalString (text : List Char) : Option (String × List Char) :=
  let inside := text.takeWhile fun c => isPrintable c && c != '\''
  match text.drop inside.length with
  | '\'' :: rest => some (String.ofList inside, rest)
  | _ => none

def skipBlankLines : List Char → List Char
  | [] => []
  | '\n' :: rest => skipBlankLines rest
  | '\r' :: '\n' :: rest => skipBlankLines rest
  | c :: rest => if isSpace c then skipBlankLines rest else c :: rest

def lineJoin (text : List Char) : Option (List Char) :=
  (newline? (skipSpace text)).map skipBlankLines

/-- Quotes in front of the closing three belong to the string, at most two of them. -/
def closing (quote : Char) (text : List Char) : Option (List Char × List Char) :=
  let run := (text.takeWhile (· == quote)).length
  if run < 3 then none
  else some (List.replicate (min run 5 - 3) quote, text.drop (min run 5))

def longBasic (taken : List Char) : Nat → List Char → Option (String × List Char)
  | 0, _ => none
  | fuel + 1, text =>
    match closing '"' text with
    | some (more, rest) => some (String.ofList (taken.reverse ++ more), rest)
    | none =>
      match newline? text with
      | some rest => longBasic ('\n' :: taken) fuel rest
      | none =>
        match text with
        | [] => none
        | '\\' :: rest =>
          match lineJoin rest with
          | some rest => longBasic taken fuel rest
          | none => (escaped rest).bind fun (c, rest) => longBasic (c :: taken) fuel rest
        | c :: rest => if isPrintable c then longBasic (c :: taken) fuel rest else none

def longLiteral (taken : List Char) : Nat → List Char → Option (String × List Char)
  | 0, _ => none
  | fuel + 1, text =>
    match closing '\'' text with
    | some (more, rest) => some (String.ofList (taken.reverse ++ more), rest)
    | none =>
      match newline? text with
      | some rest => longLiteral ('\n' :: taken) fuel rest
      | none =>
        match text with
        | [] => none
        | c :: rest => if isPrintable c then longLiteral (c :: taken) fuel rest else none

def trimFirst (text : List Char) : List Char := (newline? text).getD text

def string (fuel : Nat) : List Char → Option (String × List Char)
  | '"' :: '"' :: '"' :: rest => longBasic [] fuel (trimFirst rest)
  | '\'' :: '\'' :: '\'' :: rest => longLiteral [] fuel (trimFirst rest)
  | '"' :: rest => basicString [] fuel rest
  | '\'' :: rest => literalString rest
  | _ => none

def simpleKey (fuel : Nat) : List Char → Option (String × List Char)
  | '"' :: rest => basicString [] fuel rest
  | '\'' :: rest => literalString rest
  | text =>
    let name := text.takeWhile isBare
    if name.isEmpty then none else some (String.ofList name, text.drop name.length)

def nestingLimit : Nat := 80

def key : Nat → List Char → Option ((List String) × List Char)
  | 0, _ => none
  | fuel + 1, text => do
    let (name, rest) ← simpleKey fuel text
    match skipSpace rest with
    | '.' :: rest =>
      let (path, rest) ← key fuel (skipSpace rest)
      return (name :: path, rest)
    | _ => return ([name], rest)

def path (fuel : Nat) (text : List Char) : Option (List String × List Char) := do
  let (names, rest) ← key fuel text
  if names.length < nestingLimit then some (names, rest) else none

def digitRun (isDigit : Char → Bool) : Nat → List Char → Option ((List Char) × List Char)
  | 0, _ => none
  | _, [] => none
  | fuel + 1, c :: rest =>
    if !isDigit c then none
    else match digitRun isDigit fuel rest with
      | some (ds, rest) => some (c :: ds, rest)
      | none =>
        match rest with
        | '_' :: more =>
          match digitRun isDigit fuel more with
          | some (ds, rest) => some (c :: ds, rest)
          | none => some ([c], rest)
        | _ => some ([c], rest)

def sign : List Char → Bool × List Char
  | '-' :: rest => (true, rest)
  | '+' :: rest => (false, rest)
  | text => (false, text)

def decimal (text : List Char) : Option ((List Char) × List Char) :=
  match text with
  | '0' :: rest => some (['0'], rest)
  | _ => digitRun isDigit text.length text

def fits (n : Int) : Option Value :=
  if -9223372036854775808 ≤ n ∧ n < 9223372036854775808 then some (.integer n) else none

def based (base : Nat) (text : List Char) : Option (Value × List Char) := do
  let value := fun c => (Hex.digit? c).bind fun d => if d < base then some d else none
  let (ds, rest) ← digitRun (fun c => (value c).isSome) text.length text
  let v ← fits (ds.foldl (fun n c => n * base + (value c).getD 0) (0 : Nat))
  return (v, rest)

def integer (text : List Char) : Option (Value × List Char) :=
  match text with
  | '0' :: 'x' :: rest => based 16 rest
  | '0' :: 'o' :: rest => based 8 rest
  | '0' :: 'b' :: rest => based 2 rest
  | _ => do
    let (negative, rest) := sign text
    let (ds, rest) ← decimal rest
    let n : Int := Decimal.valueOf ds
    let v ← fits (if negative then -n else n)
    return (v, rest)

def fraction (text : List Char) : Option (List Char × List Char) :=
  match text with
  | '.' :: rest => digitRun isDigit rest.length rest
  | _ => none

def exponent (text : List Char) : Option (Int × List Char) :=
  match text with
  | c :: rest =>
    if c = 'e' ∨ c = 'E' then
      let (negative, rest) := sign rest
      (digitRun isDigit rest.length rest).map fun (ds, rest) =>
        (if negative then -(Decimal.valueOf ds : Int) else Decimal.valueOf ds, rest)
    else none
  | [] => none

def fractional (negative : Bool) (text : List Char) : Option (Value × List Char) := do
  let (ds, rest) ← decimal text
  let fraction? := fraction rest
  let (fs, rest) := fraction?.getD ([], rest)
  let exponent? := exponent rest
  let (e, rest) := exponent?.getD (0, rest)
  if fraction?.isNone ∧ exponent?.isNone then none
  else if !negative ∧ !Double.isFinite (Decimal.valueOf (ds ++ fs)) (e - fs.length) then none
  else some (.float, rest)

def float (text : List Char) : Option (Value × List Char) :=
  let (negative, unsigned) := sign text
  match unsigned with
  | 'i' :: 'n' :: 'f' :: rest => some (.float, rest)
  | 'n' :: 'a' :: 'n' :: rest => some (.float, rest)
  | _ => fractional negative unsigned

def field (width low high : Nat) (text : List Char) : Option (Nat × List Char) := do
  let ds := text.take width
  if ds.length ≠ width ∨ !ds.all isDigit then none
  let n := Decimal.valueOf ds
  if low ≤ n ∧ n ≤ high then some (n, text.drop width) else none

def expect (c : Char) : List Char → Option (List Char)
  | [] => none
  | x :: rest => if x = c then some rest else none

def daysIn (year month : Nat) : Nat :=
  if month = 2 then (if year % 4 = 0 ∧ (year % 100 ≠ 0 ∨ year % 400 = 0) then 29 else 28)
  else if month ∈ [4, 6, 9, 11] then 30 else 31

def date (text : List Char) : Option (List Char) := do
  let (year, rest) ← field 4 0 9999 text
  let (month, rest) ← field 2 1 12 (← expect '-' rest)
  let (_, rest) ← field 2 1 (daysIn year month) (← expect '-' rest)
  return rest

def time (text : List Char) : Option (List Char) := do
  let (_, rest) ← field 2 0 23 text
  let (_, rest) ← field 2 0 59 (← expect ':' rest)
  let (_, rest) ← field 2 0 60 (← expect ':' rest)
  match rest with
  | '.' :: more =>
    let ds := more.takeWhile isDigit
    if ds.isEmpty then none else return more.drop ds.length
  | _ => return rest

def offset : List Char → Option (List Char)
  | 'Z' :: rest => some rest
  | 'z' :: rest => some rest
  | '+' :: rest => hours rest
  | '-' :: rest => hours rest
  | _ => none
where
  hours (text : List Char) : Option (List Char) := do
    let (_, rest) ← field 2 0 23 text
    let (_, rest) ← field 2 0 59 (← expect ':' rest)
    return rest

def moment (text : List Char) : Option (Value × List Char) :=
  match date text with
  | some rest =>
    let clock := match rest with
      | c :: more => if c = 'T' ∨ c = 't' ∨ c = ' ' then time more else none
      | [] => none
    match clock with
    | some rest => some (.moment, (offset rest).getD rest)
    | none => some (.moment, rest)
  | none => (time text).map (Value.moment, ·)

def keyword : List Char → Value → List Char → Option (Value × List Char)
  | [], v, text => some (v, text)
  | k :: word, v, c :: text => if k = c then keyword word v text else none
  | _ :: _, _, [] => none

mutual

def value (depth : Nat) : Nat → List Char → Option (Value × List Char)
  | 0, _ => none
  | fuel + 1, text =>
    match text with
    | [] => none
    | '[' :: rest =>
      if nestingLimit ≤ depth + 1 then none
      else (items (depth + 1) fuel (skipLines fuel rest)).map fun (vs, rest) => (.array vs, rest)
    | '{' :: rest =>
      if nestingLimit ≤ depth + 1 then none
      else match skipSpace rest with
      | '}' :: rest => some (.table [], rest)
      | rest => (inlineEntries (depth + 1) fuel [] rest).map fun (es, rest) => (.table (entryValues es), rest)
    | 't' :: rest => keyword ['r', 'u', 'e'] (.boolean true) rest
    | 'f' :: rest => keyword ['a', 'l', 's', 'e'] (.boolean false) rest
    | c :: _ =>
      if c = '"' ∨ c = '\'' then (string fuel text).map fun (s, rest) => (.string s, rest)
      else moment text <|> float text <|> integer text

def items (depth : Nat) : Nat → List Char → Option ((List Value) × List Char)
  | 0, _ => none
  | _ + 1, ']' :: rest => some ([], rest)
  | fuel + 1, text =>
    match value depth fuel text with
    | none => none
    | some (v, rest) =>
      match skipLines fuel rest with
      | ',' :: rest => (items depth fuel (skipLines fuel rest)).map fun (vs, rest) => (v :: vs, rest)
      | ']' :: rest => some ([v], rest)
      | _ => none

def inlineEntries (depth : Nat) : Nat → Entries → List Char → Option (Entries × List Char)
  | 0, _, _ => none
  | fuel + 1, entries, text =>
    match path fuel text with
    | none => none
    | some (names, rest) =>
      match skipSpace rest with
      | '=' :: rest =>
        match value depth fuel (skipSpace rest) with
        | none => none
        | some (v, rest) =>
          match entries.assign v names with
          | none => none
          | some entries =>
            match skipSpace rest with
            | ',' :: rest => inlineEntries depth fuel entries (skipSpace rest)
            | '}' :: rest => some (entries, rest)
            | _ => none
      | _ => none

end

def header (fuel : Nat) (text : List Char) : Option ((Entries.Header × List String) × List Char) := do
  match text with
  | '[' :: rest =>
    let (names, rest) ← path fuel (skipSpace rest)
    let rest ← expect ']' (skipSpace rest)
    let rest ← expect ']' rest
    return ((.element, names), ← endOfLine rest)
  | rest =>
    let (names, rest) ← path fuel (skipSpace rest)
    let rest ← expect ']' (skipSpace rest)
    return ((.table, names), ← endOfLine rest)

def lines : Nat → Entries → List String → List Char → Option Entries
  | 0, _, _, _ => none
  | fuel + 1, entries, opened, text =>
    match skipLines fuel text with
    | [] => some entries
    | '[' :: rest =>
      match header fuel rest with
      | none => none
      | some ((kind, opened), rest) =>
        (entries.openHeader kind opened).bind fun entries => lines fuel entries opened rest
    | rest => do
      let (names, rest) ← path fuel rest
      let rest ← expect '=' (skipSpace rest)
      let (v, rest) ← value 0 fuel (skipSpace rest)
      let entries ← entries.within (fun inner => inner.assign v names) opened
      lines fuel entries opened (← endOfLine rest)

end Reader

def parse? (text : String) : Option (List (String × Value)) :=
  let chars := match text.toList with
    | '\ufeff' :: rest => rest
    | chars => chars
  (Reader.lines (2 * chars.length + 2) [] [] chars).map entryValues

end ClusterCatalog.Toml
