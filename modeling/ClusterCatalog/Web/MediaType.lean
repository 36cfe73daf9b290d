/-!
Media types: a type and a subtype, which may end in the form that it is built on behind a plus sign,
and parameters, which are read but not kept. Tokens, headers and plain text are told by their characters.
-/
namespace ClusterCatalog.Web

def isTokenChar (c : Char) : Bool := c.isAlphanum || "!#$%&'*+-.^_`|~".toList.contains c

def isToken (text : String) : Bool := !text.isEmpty && text.toList.all isTokenChar

def isHeaderChar (c : Char) : Bool := c == '\t' || 32 ≤ c.toNat && c.toNat ≠ 127

def isPlainChar (c : Char) : Bool := 32 ≤ c.toNat && c.toNat < 127

structure MediaType where
  type : String
  subtype : String
  suffix? : Option String := none
  deriving DecidableEq, Repr

namespace MediaType

/-- What follows the opening quote of a value, behind its closing quote. A quote at the front is part
of the value, which is never empty. -/
def quoted? : List Char → Option (List Char)
  | first :: rest =>
    let (more, rest) := rest.span fun c => isPlainChar c && c != '"'
    if isPlainChar first then
      match more, rest with
      | _, '"' :: rest => some rest
      | _, _ => none
    else none
  | [] => none

def afterValue? : List Char → Option (List Char)
  | '"' :: rest => do
    match (← quoted? rest).dropWhile (· == ' ') with
    | [] => some []
    | ';' :: rest => some rest
    | _ => none
  | text =>
    let (value, rest) := text.span isTokenChar
    match rest with
    | [] => some []
    | ';' :: rest => if value.isEmpty then none else some rest
    | _ => none

def areParameters : Nat → List Char → Bool
  | 0, _ => false
  | fuel + 1, text =>
    match (text.dropWhile (· == ' ')).span isTokenChar with
    | ([], rest) => rest.isEmpty
    | (_, '=' :: rest) => (afterValue? rest).any (areParameters fuel)
    | _ => false

/-- The part of a subtype before its last plus sign and the part behind it. A plus sign at the front
is part of the subtype. -/
def ofSubtype (type : String) : List Char → MediaType
  | [] => ⟨type, "", none⟩
  | first :: rest =>
    match rest.reverse.span (· != '+') with
    | (suffix, _ :: before) =>
      ⟨type, String.ofList (first :: before.reverse), some (String.ofList suffix.reverse)⟩
    | (_, []) => ⟨type, String.ofList (first :: rest), none⟩

def parse? (text : String) : Option MediaType :=
  let (type, rest) := (text.toList.map Char.toLower).span isTokenChar
  match rest with
  | '/' :: rest =>
    let (subtype, rest) := rest.span isTokenChar
    let good := match rest with
      | [] => true
      | ';' :: parameters => !subtype.isEmpty && areParameters (text.length + 1) parameters
      | _ => false
    if good && !type.isEmpty then some (ofSubtype (String.ofList type) subtype) else none
  | _ => none

def isJson (m : MediaType) : Bool :=
  m.type == "application" && (m.subtype == "json" || m.suffix? == some "json")

end MediaType

end ClusterCatalog.Web
