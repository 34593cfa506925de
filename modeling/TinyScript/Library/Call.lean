import TinyScript.Library.Arithmetic
import TinyScript.Library.Arrays
import TinyScript.Library.Files
import TinyScript.Library.Random
import TinyScript.Library.Strings
import TinyScript.Library.Value
import TinyScript.Number.Hypot

/-! Calls of library functions: what they give, what they do to an array and to
the world. -/

namespace TinyScript.Library

open Number (Double)
open Text (Bytes)

/-- What outlives a call: the state of the random numbers, and the files. -/
structure World where
  random : UInt64
  files : Files
  deriving DecidableEq, Repr

def World.initial : World := ⟨Random.initial, .empty⟩

/-- What a call leaves behind. -/
structure Outcome where
  result : Value
  /-- The elements of the array argument after the call. -/
  array : Option (List Int32)
  world : World
  deriving DecidableEq, Repr

/-- A missing string counts as empty. -/
def text (s : Option Bytes) : Bytes := s.getD []

/-- The characters of a path. -/
def path (s : Option Bytes) : List Char := Text.Utf8.decode (text s)

/-- A string for the program: without NUL. -/
def given (bytes : Bytes) : Value := .str (some (bytes.filter (· ≠ 0)))

def ofBool (b : Bool) : Value := .i32 (if b then 1 else 0)

/-! ### Shapes of calls

Each takes what a function computes to what a call of it does, for arguments of
the right number and types. -/

/-- A call that leaves the world alone. -/
def plain (w : World) (result : Value) : Option Outcome := some ⟨result, none, w⟩

def onReal (g : Float → Float) (w : World) : List Value → Option Outcome
  | [.f64 x] => plain w (.f64 (.ofFloat (g x.toFloat)))
  | _ => none

def onReals (g : Float → Float → Float) (w : World) : List Value → Option Outcome
  | [.f64 x, .f64 y] => plain w (.f64 (.ofFloat (g x.toFloat y.toFloat)))
  | _ => none

def onInt (g : Int32 → Int32) (w : World) : List Value → Option Outcome
  | [.i32 a] => plain w (.i32 (g a))
  | _ => none

def onInts (g : Int32 → Int32 → Int32) (w : World) : List Value → Option Outcome
  | [.i32 a, .i32 b] => plain w (.i32 (g a b))
  | _ => none

def onText (g : Bytes → Value) (w : World) : List Value → Option Outcome
  | [.str s] => plain w (g (text s))
  | _ => none

def onTexts (g : Bytes → Bytes → Value) (w : World) : List Value → Option Outcome
  | [.str s, .str t] => plain w (g (text s) (text t))
  | _ => none

/-- A function that only reads an array. -/
def onArray (g : List Int32 → Value) (w : World) : List Value → Option Outcome
  | [.array xs] => some ⟨g xs, some xs, w⟩
  | _ => none

/-- A function that changes an array. -/
def changingArray (g : List Int32 → List Int32) (w : World) : List Value → Option Outcome
  | [.array xs] => some ⟨.void, some (g xs), w⟩
  | _ => none

/-- A function that changes an array by an integer. -/
def changingArrayBy (g : List Int32 → Int32 → List Int32) (w : World) :
    List Value → Option Outcome
  | [.array xs, .i32 k] => some ⟨.void, some (g xs k), w⟩
  | _ => none

/-! ### The functions -/

/-- The double nearest to the ratio of a circle's circumference to its
diameter. -/
def pi : Float := Float.ofBits 0x400921FB54442D18

def distance (w : World) : List Value → Option Outcome
  | [.f64 x₁, .f64 y₁, .f64 x₂, .f64 y₂] =>
    plain w (.f64 (Double.hypot (.ofFloat (x₂.toFloat - x₁.toFloat))
      (.ofFloat (y₂.toFloat - y₁.toFloat))))
  | _ => none

def absReal (w : World) : List Value → Option Outcome
  | [.f64 x] => plain w (.f64 x.abs)
  | _ => none

def substring (w : World) : List Value → Option Outcome
  | [.str s, .i32 start, .i32 len] => plain w (given (Strings.substring (text s) start len))
  | _ => none

def countEqual (w : World) : List Value → Option Outcome
  | [.array xs, .i32 k] => some ⟨.i32 (Arrays.countEqual xs k), some xs, w⟩
  | _ => none

/-- The contents of a file; nothing if it cannot be read. -/
def readContents (w : World) : List Value → Option Outcome
  | [.str s] =>
    match w.files.read (path s) with
    | .ok contents => plain w (given contents)
    | .error _ => plain w (given [])
  | _ => none

/-- Whether a file could be written. -/
def writeContents (w : World) : List Value → Option Outcome
  | [.str (some s), .str (some contents)] =>
    match w.files.write (path (some s)) contents with
    | .ok files => plain { w with files } (ofBool true)
    | .error _ => plain w (ofBool false)
  | [.str _, .str _] => plain w (ofBool false)
  | _ => none

def lookUp (w : World) : List Value → Option Outcome
  | [.str s] => plain w (ofBool (w.files.contains (path s)))
  | _ => none

def reseed (w : World) : List Value → Option Outcome
  | [.i32 n] => plain { w with random := Random.seed n } .void
  | _ => none

def drawInt (w : World) : List Value → Option Outcome
  | [.i32 a, .i32 b] =>
    let state := Random.advance w.random
    plain { w with random := state } (.i32 (Random.between state a b))
  | _ => none

def drawDouble (w : World) : List Value → Option Outcome
  | [] =>
    let state := Random.advance w.random
    plain { w with random := state } (.f64 (Random.unit state))
  | _ => none

/-- Sleeping takes time, which nothing here can tell. -/
def sleep (w : World) : List Value → Option Outcome
  | [.i32 _] => plain w .void
  | _ => none

/-- What a call does, if the arguments fit the function. -/
def Function.call? (w : World) : Function → List Value → Option Outcome
  | .mathSqrt => onReal Float.sqrt w
  | .mathPow => onReals Float.pow w
  | .mathAbsF64 => absReal w
  | .mathAbsI32 => onInt absWrapping w
  | .mathSin => onReal Float.sin w
  | .mathCos => onReal Float.cos w
  | .mathTan => onReal Float.tan w
  | .mathLog => onReal Float.log w
  | .mathExp => onReal Float.exp w
  | .mathGcd => onInts gcd w
  | .mathLcm => onInts lcm w
  | .mathIsPrime => onInt (fun n => if isPrime n then 1 else 0) w
  | .mathFibonacci => onInt fibonacci w
  | .mathFactorial => onInt factorial w
  | .stringReverse => onText (given ∘ Strings.reverse) w
  | .stringUpper => onText (given ∘ Strings.upper) w
  | .stringLower => onText (given ∘ Strings.lower) w
  | .stringLength => onText (.i32 ∘ Strings.length) w
  | .stringSubstring => substring w
  | .stringFind => onTexts (fun s part => .i32 (Strings.find s part)) w
  | .stringConcat => onTexts (fun a b => given (Strings.concat a b)) w
  | .freeString => onText (fun _ => .void) w
  | .arraySum | .simdArraySum => onArray (.i32 ∘ Arrays.sum) w
  | .arrayMax | .simdArrayMax => onArray (.i32 ∘ Arrays.max) w
  | .arrayMin | .simdArrayMin => onArray (.i32 ∘ Arrays.min) w
  | .arraySort => changingArray Arrays.sort w
  | .arrayReverse => changingArray List.reverse w
  | .simdArrayMultiply => changingArrayBy Arrays.multiply w
  | .simdArrayAdd => changingArrayBy Arrays.add w
  | .simdArrayCountEqual => countEqual w
  | .statsMean => onArray (.f64 ∘ Arrays.mean) w
  | .statsMedian => onArray (.f64 ∘ Arrays.median) w
  | .statsStddev => onArray (.f64 ∘ Arrays.deviation) w
  | .geomDistance => distance w
  | .geomCircleArea => onReal (fun r => pi * (r * r)) w
  | .geomRectangleArea => onReals (fun a b => a * b) w
  | .geomTriangleArea => onReals (fun a b => 0.5 * a * b) w
  | .fileRead => readContents w
  | .fileWrite => writeContents w
  | .fileExists => lookUp w
  | .randomInt => drawInt w
  | .randomDouble => drawDouble w
  | .randomSeed => reseed w
  | .sleepMs => sleep w

end TinyScript.Library
