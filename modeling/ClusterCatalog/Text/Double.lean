/-!
Sizes in double precision: whole numbers are kept to 53 binary digits, and there is a least number
that is too large.
-/
namespace ClusterCatalog.Double

/-- The least number that rounds to infinity: halfway between the greatest value and the next power
of two. -/
def limit : Nat := Nat.pow 2 1024 - Nat.pow 2 970

def nearest (n d : Nat) : Nat :=
  match compare (2 * (n % d)) d with
  | .lt => n / d
  | .gt => n / d + 1
  | .eq => if n / d % 2 = 0 then n / d else n / d + 1

def round (n : Nat) : Nat :=
  let unit := Nat.pow 2 (n.log2 - 52)
  nearest n unit * unit

def isFinite (mantissa : Nat) (scale : Int) : Bool :=
  let size := (Nat.toDigits 10 mantissa).length + scale
  if mantissa = 0 ∨ size < 309 then true
  else if 309 < size then false
  else mantissa * Nat.pow 10 scale.toNat < limit * Nat.pow 10 (-scale).toNat

/-- Whether `mantissa * 10 ^ scale` is finite when both factors are rounded before their product is;
a power beyond `10 ^ 308` is not. -/
def productIsFinite (mantissa : Nat) (scale : Int) : Bool :=
  if mantissa = 0 ∨ scale < 0 then true
  else if 308 < scale then false
  else round mantissa * round (Nat.pow 10 scale.toNat) < limit

end ClusterCatalog.Double
