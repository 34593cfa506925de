import TinyScript.Text.Quoted
import TinyScript.Text.Utf8

/-! Spans of source text, counted in bytes, and values located at a span. -/

namespace TinyScript.Text

/-- The bytes from `lo` up to, not including, `hi`. -/
structure Span where
  lo : Nat
  hi : Nat
  deriving DecidableEq, Repr

namespace Span

def length (s : Span) : Nat := s.hi - s.lo

def isEmpty (s : Span) : Bool := s.lo == s.hi

/-- `lo..hi` -/
def render (s : Span) : String :=
  toString s.lo ++ ".." ++ toString s.hi

/-- The characters left after the first `n` bytes, if a character starts there
or the text ends there. -/
def dropBytes : Nat → List Char → Option (List Char)
  | 0, cs => some cs
  | _ + 1, [] => none
  | n + 1, c :: cs => if c.utf8Size ≤ n + 1 then dropBytes (n + 1 - c.utf8Size) cs else none

/-- The characters in the first `n` bytes, if a character ends there. -/
def takeBytes : Nat → List Char → Option (List Char)
  | 0, _ => some []
  | _ + 1, [] => none
  | n + 1, c :: cs =>
    if c.utf8Size ≤ n + 1 then (takeBytes (n + 1 - c.utf8Size) cs).map (c :: ·) else none

/-- One of the two bounds of a span. -/
inductive Bound where
  | start
  | finish
  deriving DecidableEq, Repr

def Bound.name : Bound → String
  | start => "start"
  | finish => "end"

/-- Why two bounds make no span, or a span covers no text of a source. -/
inductive Misfit where
  | reversed
  /-- This bound is after the end of the source. -/
  | outOfRange (bound : Bound) (index : Nat)
  /-- This bound is inside a character. -/
  | insideCharacter (bound : Bound) (index : Nat)
  deriving DecidableEq, Repr

/-- The span between two bounds, which must be in the right order. -/
def ofBounds (lo hi : Nat) : Except Misfit Span :=
  if hi < lo then .error .reversed else .ok ⟨lo, hi⟩

/-- The text a span covers. Its bounds must be in the right order and be
character boundaries of the source; the start is looked at first. -/
def text (s : Span) (source : List Char) : Except Misfit (List Char) :=
  if s.hi < s.lo then .error .reversed
  else if Utf8.size source < s.lo then .error (.outOfRange .start s.lo)
  else if Utf8.size source < s.hi then .error (.outOfRange .finish s.hi)
  else
    match dropBytes s.lo source with
    | none => .error (.insideCharacter .start s.lo)
    | some rest =>
      match takeBytes s.length rest with
      | none => .error (.insideCharacter .finish s.hi)
      | some covered => .ok covered

/-- The character that holds byte `index`, and where it starts, the text itself
starting at `pos`. -/
def charAround (index pos : Nat) : List Char → Option (Nat × Char)
  | [] => none
  | c :: cs =>
    if index < pos + c.utf8Size then some (pos, c) else charAround index (pos + c.utf8Size) cs

/-- The bound, as a message begins with it. -/
def Bound.describe (b : Bound) (index : Nat) : String :=
  b.name ++ " byte index " ++ toString index

def Misfit.message (source : List Char) : Misfit → String
  | reversed => "assertion failed: hi >= lo"
  | outOfRange b i =>
    b.describe i ++ " is out of bounds for string of length " ++ toString (Utf8.size source)
  | insideCharacter b i =>
    match charAround i 0 source with
    | none => b.describe i ++ " is not a char boundary"
    | some (start, c) =>
      b.describe i ++ " is not a char boundary; it is inside '" ++
        String.ofList (Quoted.escape c) ++ "' (bytes " ++
        (Span.mk start (start + c.utf8Size)).render ++ " of string)"

end Span

/-- A value and the place in the source it is about. -/
structure Located (α : Type) where
  value : α
  span : Span
  deriving DecidableEq, Repr

/-- The value's text with its place in front. -/
def Located.render {α : Type} (show' : α → String) (x : Located α) : String :=
  x.span.render ++ ": " ++ show' x.value

end TinyScript.Text
