import TinyScript.Text.Case
import TinyScript.Text.Utf8

/-! String functions of the library. Lengths and positions count bytes. What
works on characters first replaces everything that is none. -/

namespace TinyScript.Library

open Text (Bytes)
open Text.Utf8 (encode decode)

/-- A natural number as a 32-bit integer, at most the greatest. -/
def clampInt32 (n : Nat) : Int32 :=
  Int32.ofNat (min n Int32.maxValue.toInt.toNat)

namespace Strings

/-- Applies a function to the characters of a string. -/
def onChars (f : List Char → List Char) (s : Bytes) : Bytes :=
  encode (f (decode s))

/-- A string with every piece that is no character replaced. -/
def wellFormed (s : Bytes) : Bytes :=
  onChars id s

def reverse (s : Bytes) : Bytes := onChars List.reverse s

def upper (s : Bytes) : Bytes := onChars Text.upper s

def lower (s : Bytes) : Bytes := onChars Text.lower s

def length (s : Bytes) : Int32 := clampInt32 s.length

/-- The bytes from `start` on, `len` of them or as many as there are. -/
def substring (s : Bytes) (start len : Int32) : Bytes :=
  (s.drop start.toInt.toNat).take len.toInt.toNat

/-- The first place in `s` where `part` starts. -/
def findFrom (part : Bytes) : Bytes → Option Nat
  | [] => if part = [] then some 0 else none
  | b :: s => if part.isPrefixOf (b :: s) then some 0 else (findFrom part s).map (· + 1)

/-- The position of the first occurrence, or minus one. -/
def find (s part : Bytes) : Int32 :=
  match findFrom (wellFormed part) (wellFormed s) with
  | some at' => if (at' : Int) ≤ Int32.maxValue.toInt then Int32.ofNat at' else -1
  | none => -1

def concat (a b : Bytes) : Bytes :=
  wellFormed a ++ wellFormed b

end Strings

end TinyScript.Library
