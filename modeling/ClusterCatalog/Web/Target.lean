import ClusterCatalog.Text.Bytes
/-! The target of a request: a path, and a query of names with values, both percent-encoded. -/
namespace ClusterCatalog.Web

def unescape : List UInt8 → List UInt8
  | 37 :: a :: b :: rest =>
    match Hex.digit? (Char.ofNat a.toNat), Hex.digit? (Char.ofNat b.toNat) with
    | some high, some low => UInt8.ofNat (high * 16 + low) :: unescape rest
    | _, _ => 37 :: unescape (a :: b :: rest)
  | b :: rest => b :: unescape rest
  | [] => []
termination_by bytes => bytes.length

def pathPart? (text : String) : Option String := Utf8.decode (unescape (Utf8.encode text))

/-- A part of a query, where a plus sign is a blank. Bytes that are no text read as a character that
is in no name. -/
def queryPart (text : String) : String :=
  let plain := (Utf8.encode text).map fun b => if b = 43 then 32 else b
  (Utf8.decode (unescape plain)).getD "\uFFFD"

def queryPair (text : String) : String × String :=
  let chars := text.toList
  (queryPart (String.ofList (chars.takeWhile (· != '='))),
    queryPart (String.ofList ((chars.dropWhile (· != '=')).drop 1)))

def queryPairs (query : String) : List (String × String) :=
  ((query.splitOn "&").filter (· != "")).map queryPair

structure Target where
  path : String
  query : List (String × String)
  deriving DecidableEq, Repr

def isPathChar (c : Char) : Bool := 32 < c.toNat && !"<>\x60".toList.contains c

def isQueryChar (c : Char) : Bool := 32 < c.toNat && !"<>\"".toList.contains c

def isSchemeChar (c : Char) : Bool := c.isAlphanum || c == '+' || c == '-' || c == '.'

def isHostChar (c : Char) : Bool := c.isAlphanum || "!$%&'()*+,-.:;=@[]_~".toList.contains c

structure HostScan where
  colons : Nat := 0
  opened : Bool := false
  closed : Bool := false
  escaped : Bool := false

/-- Takes a character of a host. A literal address in brackets may have eight colons; what stands
behind an at sign starts afresh. -/
def HostScan.take (s : HostScan) (c : Char) : Option HostScan :=
  if !isHostChar c then none
  else match c with
    | ':' => if s.colons < 8 then some { s with colons := s.colons + 1 } else none
    | '[' => if s.escaped || s.opened then none else some { s with opened := true }
    | ']' =>
      if !s.opened || s.closed then none else some { s with closed := true, colons := 0, escaped := false }
    | '@' => some { s with colons := 0, escaped := false }
    | '%' => some { s with escaped := true }
    | _ => some s

def isHost (text : List Char) : Bool :=
  text.getLast?.any (· != '@') &&
    (text.foldlM HostScan.take {}).any fun s => s.opened == s.closed && s.colons ≤ 1 && !s.escaped

def Target.ofPath? (text : List Char) : Option Target :=
  let text := text.takeWhile (· != '#')
  let (path, query) := text.span (· != '?')
  if path.all isPathChar && (query.drop 1).all isQueryChar then
    some ⟨if path.isEmpty then "/" else String.ofList path, queryPairs (String.ofList (query.drop 1))⟩
  else none

def afterScheme? (text : List Char) : Option (List Char) :=
  match text.span isSchemeChar with
  | (scheme, ':' :: '/' :: '/' :: rest) => if scheme.length ≤ 64 then some rest else none
  | _ => none

/-- A target is a path, an address with a scheme, or the name of a host alone, which has no path. -/
def Target.ofText? (text : String) : Option Target :=
  if 65534 < text.utf8ByteSize then none
  else match text.toList with
    | ['*'] => some ⟨"*", []⟩
    | '/' :: rest => Target.ofPath? ('/' :: rest)
    | chars => match afterScheme? chars with
      | some rest =>
        let (host, path) := rest.span fun c => c != '/' && c != '?' && c != '#'
        if isHost host then Target.ofPath? path else none
      | none => if isHost chars then some ⟨"", []⟩ else none

def word? {α : Type} (read? : String → Option α) (query : List (String × String)) (name : String) :
    Option (Option α) :=
  match query.filter (·.1 == name) with
  | [] => some none
  | [(_, value)] => (read? value).map some
  | _ => none

end ClusterCatalog.Web
