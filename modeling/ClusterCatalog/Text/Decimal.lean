/-!
Unsigned 64-bit numbers in decimal. `parse` reads an optional plus sign and then digits, and names
the first thing that is wrong; `render` writes the shortest digits.
-/
namespace ClusterCatalog.Decimal

inductive Fault where
  | empty
  | invalidDigit
  | tooLarge
  deriving DecidableEq, Repr

def Fault.message : Fault → String
  | .empty => "cannot parse integer from empty string"
  | .invalidDigit => "invalid digit found in string"
  | .tooLarge => "number too large to fit in target type"

def digit? (c : Char) : Option Nat :=
  if '0' ≤ c ∧ c ≤ '9' then some (c.toNat - '0'.toNat) else none

/-- Reads digits onto `value`, a bad character being noticed before an overflow at the same place. -/
def readDigits (value : Nat) : List Char → Except Fault Nat
  | [] => .ok value
  | c :: rest =>
    match digit? c with
    | none => .error .invalidDigit
    | some d =>
      if value * 10 + d < UInt64.size then readDigits (value * 10 + d) rest else .error .tooLarge

def parse : List Char → Except Fault UInt64
  | [] => .error .empty
  | ['+'] => .error .invalidDigit
  | '+' :: digits => (readDigits 0 digits).map UInt64.ofNat
  | digits => (readDigits 0 digits).map UInt64.ofNat

def parse? (text : List Char) : Option UInt64 := (parse text).toOption

def valueOf (digits : List Char) : Nat := digits.foldl (fun n c => n * 10 + (digit? c).getD 0) 0

def render (n : UInt64) : String := String.ofList (Nat.toDigits 10 n.toNat)

end ClusterCatalog.Decimal
