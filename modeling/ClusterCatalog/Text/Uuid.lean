import ClusterCatalog.Text.Bytes
/-!
Universally unique identifiers: 128 bits, ordered as their sixteen bytes are. Read in the
hyphenated form (bare, in braces or behind `urn:uuid:`) and as 32 plain digits; written hyphenated.
-/
namespace ClusterCatalog

structure Uuid where
  bits : BitVec 128
  deriving DecidableEq, Repr, Inhabited

namespace Uuid

instance : Ord Uuid := ⟨compareOn Uuid.bits⟩

instance : Std.TransOrd Uuid := inferInstanceAs (Std.TransCmp (compareOn Uuid.bits))

instance : Std.LawfulEqOrd Uuid where
  eq_of_compare {a b} h := by
    have same : a.bits = b.bits := Std.LawfulEqOrd.eq_of_compare (α := BitVec 128) h
    cases a; cases b; simp_all

def unhyphenate (text : List Char) : Option (List Char) :=
  let separated := (text.drop 8).head? == some '-' && (text.drop 13).head? == some '-' &&
    (text.drop 18).head? == some '-' && (text.drop 23).head? == some '-'
  if text.length = 36 ∧ separated then
    some (text.take 8 ++ (text.drop 9).take 4 ++ (text.drop 14).take 4 ++ (text.drop 19).take 4 ++
      text.drop 24)
  else none

def ofDigits? (digits : List Char) : Option Uuid :=
  if digits.length = 32 then (Hex.readDigits 0 digits).map fun n => ⟨BitVec.ofNat 128 n⟩ else none

def parse? (text : List Char) : Option Uuid :=
  if text.length = 32 then ofDigits? text
  else if text.length = 36 then unhyphenate text >>= ofDigits?
  else if text.length = 38 ∧ text.head? = some '{' ∧ text.getLast? = some '}' then
    unhyphenate ((text.drop 1).take 36) >>= ofDigits?
  else if text.length = 45 ∧ (text.take 9).map Char.toLower = "urn:uuid:".toList then
    unhyphenate (text.drop 9) >>= ofDigits?
  else none

def digits (u : Uuid) : List Char :=
  (List.range 32).map fun i => Hex.digit (u.bits.toNat / Nat.pow 16 (31 - i) % 16)

def render (u : Uuid) : String :=
  let ds := u.digits
  String.ofList (ds.take 8 ++ '-' :: (ds.drop 8).take 4 ++ '-' :: (ds.drop 12).take 4 ++
    '-' :: (ds.drop 16).take 4 ++ '-' :: ds.drop 20)

end Uuid

end ClusterCatalog
