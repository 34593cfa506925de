import TinyScript.Number.Decimal
import TinyScript.Number.Radix

/-! What number literals stand for. -/

namespace TinyScript.Token

open Number

/-- An integer literal's digits and the radix they are in: sixteen after `0x`,
two after `0b`, eight after a leading zero, else ten. -/
def radixOf : List Char → List Char × Nat
  | '0' :: 'x' :: ds => (ds, 16)
  | '0' :: 'X' :: ds => (ds, 16)
  | '0' :: 'b' :: ds => (ds, 2)
  | '0' :: 'B' :: ds => (ds, 2)
  | '0' :: d :: ds => (d :: ds, 8)
  | ds => (ds, 10)

def integerValue (text : String) : Except Radix.ReadError Int :=
  let (ds, radix) := radixOf text.toList
  Radix.read radix ds

def floatValue (text : String) : Except Double.ReadError Double :=
  Double.read text.toList

end TinyScript.Token
