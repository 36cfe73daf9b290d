import ClusterCatalog.Text.Decimal
import ClusterCatalog.Text.Bytes
/-!
Socket addresses: `1.2.3.4:80` and `[v6]:80`, the latter with an optional `%scope`. Reading accepts
every spelling of an IPv6 address; writing gives the compressed canonical one. A flow label has no text.
-/
namespace ClusterCatalog

structure IPv4 where
  a : UInt8
  b : UInt8
  c : UInt8
  d : UInt8
  deriving DecidableEq, Repr, Inhabited

structure IPv6 where
  groups : Vector UInt16 8
  deriving DecidableEq, Repr, Inhabited

inductive SocketAddress where
  | v4 (ip : IPv4) (socket : UInt16)
  | v6 (ip : IPv6) (socket : UInt16) (flow scope : UInt32)
  deriving DecidableEq, Repr, Inhabited

namespace SocketAddress

def unspecified : SocketAddress := .v4 ⟨0, 0, 0, 0⟩ 0

end SocketAddress

namespace Address

def skip (c : Char) : List Char → Option (List Char)
  | [] => none
  | x :: rest => if x = c then some rest else none

/-- Reads the digits at the front as a number below `bound`. At most `width` of them are read, and
unless `padded` a number of more digits may not start with a zero. -/
def number (digit? : Char → Option Nat) (base bound : Nat) (width : Option Nat) (padded : Bool)
    (text : List Char) : Option (Nat × List Char) :=
  let digits := text.takeWhile fun c => (digit? c).isSome
  let digits := match width with
    | some w => digits.take (w + 1)
    | none => digits
  let value := digits.foldl (fun n c => n * base + (digit? c).getD 0) 0
  if digits.isEmpty ∨ width.any (· < digits.length) ∨ bound ≤ value ∨
      (!padded ∧ digits.head? = some '0' ∧ 1 < digits.length) then none
  else some (value, text.drop digits.length)

def socket (text : List Char) : Option (UInt16 × List Char) := do
  let rest ← skip ':' text
  let (n, rest) ← number Decimal.digit? 10 UInt16.size none true rest
  return (UInt16.ofNat n, rest)

def octet (text : List Char) : Option (UInt8 × List Char) :=
  (number Decimal.digit? 10 UInt8.size (some 3) false text).map fun (n, rest) => (UInt8.ofNat n, rest)

def ipv4 (text : List Char) : Option (IPv4 × List Char) := do
  let (a, rest) ← octet text
  let (b, rest) ← skip '.' rest >>= octet
  let (c, rest) ← skip '.' rest >>= octet
  let (d, rest) ← skip '.' rest >>= octet
  return (⟨a, b, c, d⟩, rest)

def group (text : List Char) : Option (UInt16 × List Char) :=
  (number Hex.digit? 16 UInt16.size (some 4) true text).map fun (n, rest) => (UInt16.ofNat n, rest)

def separated (first : Bool) (text : List Char) : Option (List Char) :=
  if first then some text else skip ':' text

def halves (ip : IPv4) : List UInt16 :=
  [ip.a.toUInt16 * 256 + ip.b.toUInt16, ip.c.toUInt16 * 256 + ip.d.toUInt16]

/-- Reads at most `limit` groups, the last two of which may be written as an IPv4 address. Tells
whether they were. -/
def groups (first : Bool) : Nat → List Char → List UInt16 × Bool × List Char
  | 0, text => ([], false, text)
  | limit + 1, text =>
    match if limit = 0 then none else separated first text >>= ipv4 with
    | some (ip, rest) => (halves ip, true, rest)
    | none =>
      match separated first text >>= group with
      | none => ([], false, text)
      | some (g, rest) =>
        let (more, embedded, rest) := groups false limit rest
        (g :: more, embedded, rest)

def spread (head tail : List UInt16) : IPv6 :=
  let all := head ++ List.replicate (8 - head.length - tail.length) 0 ++ tail
  ⟨Vector.ofFn fun i => all.getD i 0⟩

def ipv6 (text : List Char) : Option (IPv6 × List Char) :=
  let (head, embedded, rest) := groups true 8 text
  if head.length = 8 then some (spread head [], rest)
  else if embedded then none
  else do
    let rest ← skip ':' rest >>= skip ':'
    let (tail, _, rest) := groups true (7 - head.length) rest
    return (spread head tail, rest)

def scope (text : List Char) : UInt32 × List Char :=
  match skip '%' text >>= number Decimal.digit? 10 UInt32.size none true with
  | some (n, rest) => (UInt32.ofNat n, rest)
  | none => (0, text)

def socketV4 (text : List Char) : Option SocketAddress := do
  let (ip, rest) ← ipv4 text
  let (p, rest) ← socket rest
  if rest.isEmpty then some (.v4 ip p) else none

def socketV6 (text : List Char) : Option SocketAddress := do
  let rest ← skip '[' text
  let (ip, rest) ← ipv6 rest
  let (s, rest) := scope rest
  let rest ← skip ']' rest
  let (p, rest) ← socket rest
  if rest.isEmpty then some (.v6 ip p 0 s) else none

end Address

namespace IPv4

def render (ip : IPv4) : String :=
  ".".intercalate ([ip.a, ip.b, ip.c, ip.d].map fun n => Decimal.render n.toUInt64)

end IPv4

namespace IPv6

def longestZeros (groups : List UInt16) : Nat × Nat :=
  let step := fun (state : (Nat × Nat) × (Nat × Nat)) (item : UInt16 × Nat) =>
    let (best, run) := state
    if item.1 = 0 then
      let run := if run.2 = 0 then (item.2, 1) else (run.1, run.2 + 1)
      (if best.2 < run.2 then run else best, run)
    else (best, (0, 0))
  (groups.zipIdx.foldl step ((0, 0), (0, 0))).1

def renderGroup (g : UInt16) : String := String.ofList (Nat.toDigits 16 g.toNat)

def mapped? (ip : IPv6) : Option IPv4 :=
  match ip.groups.toList with
  | [0, 0, 0, 0, 0, 0xffff, x, y] =>
    some ⟨(x / 256).toUInt8, (x % 256).toUInt8, (y / 256).toUInt8, (y % 256).toUInt8⟩
  | _ => none

def render (ip : IPv6) : String :=
  let groups := ip.groups.toList
  let plain := fun gs : List UInt16 => ":".intercalate (gs.map renderGroup)
  match ip.mapped? with
  | some ip => "::ffff:" ++ ip.render
  | none =>
    let (start, length) := longestZeros groups
    if 1 < length then plain (groups.take start) ++ "::" ++ plain (groups.drop (start + length))
    else plain groups

end IPv6

namespace SocketAddress

def parse? (text : String) : Option SocketAddress :=
  Address.socketV4 text.toList <|> Address.socketV6 text.toList

def render : SocketAddress → String
  | .v4 ip socket => ip.render ++ ":" ++ Decimal.render socket.toUInt64
  | .v6 ip socket _ 0 => "[" ++ ip.render ++ "]:" ++ Decimal.render socket.toUInt64
  | .v6 ip socket _ scope =>
    "[" ++ ip.render ++ "%" ++ Decimal.render scope.toUInt64 ++ "]:" ++ Decimal.render socket.toUInt64

end SocketAddress

end ClusterCatalog
