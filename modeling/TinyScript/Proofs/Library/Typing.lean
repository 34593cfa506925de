import Mathlib.Data.List.Forall2
import TinyScript.Library.Call

/-! Library calls keep their promises: on arguments of the types of the
parameters, every function gives an outcome with a result of its result type, and
an array that is given back has as many elements as the one that was passed, which
is always the first argument. -/

namespace TinyScript.Library

/-- What a value passed or given back looks like. A string that is missing is no
value of a program. -/
inductive Value.HasType : Ty → Value → Prop
  | void : HasType .void .void
  | i32 (n : Int32) : HasType .i32 (.i32 n)
  | f64 (d : Number.Double) : HasType .f64 (.f64 d)
  | str (b : Text.Bytes) : HasType .str (.str (some b))
  | array (xs : List Int32) : HasType (.array .i32) (.array xs)

/-- What a call with these arguments and a result of type `t` may leave behind. -/
structure Outcome.Fits (args : List Value) (t : Ty) (out : Outcome) : Prop where
  result : out.result.HasType t
  array : ∀ ys, out.array = some ys →
    ∃ xs, args.head? = some (.array xs) ∧ ys.length = xs.length

/-- Types that parameters have. -/
def Passable (t : Ty) : Prop := t = .i32 ∨ t = .f64 ∨ t = .str ∨ t = .array .i32

theorem Function.params_passable (f : Function) : ∀ t ∈ f.signature.params, Passable t := by
  cases f <;> simp [Function.signature, Passable]

theorem Function.result_not_array (f : Function) (elem : Ty) : f.signature.result ≠ .array elem := by
  cases f <;> simp [Function.signature]

/-- Some outcome, and one that fits. -/
def Answers (args : List Value) (t : Ty) (answer : Option Outcome) : Prop :=
  ∃ out, answer = some out ∧ out.Fits args t

/-! ### Shapes of calls -/

section Shapes

variable {w w' : World} {args : List Value} {t : Ty}

theorem plain_fits {v : Value} (h : v.HasType t) : Answers args t (plain w v) :=
  ⟨_, rfl, h, by intro ys hys; cases hys⟩

theorem given_hasType (b : Text.Bytes) : (given b).HasType .str := .str _

theorem ofBool_hasType (b : Bool) : (ofBool b).HasType .i32 := .i32 _

/-- An outcome that gives the array back with as many elements. -/
theorem fits_of_length {v : Value} {xs ys : List Int32} (h : v.HasType t)
    (hhead : args.head? = some (.array xs)) (hlen : ys.length = xs.length) :
    Answers args t (some ⟨v, some ys, w⟩) := by
  refine ⟨_, rfl, h, ?_⟩
  intro zs hzs
  cases hzs
  exact ⟨xs, hhead, hlen⟩

abbrev Matches (params : List Ty) (args : List Value) : Prop :=
  List.Forall₂ Value.HasType params args

theorem onReal_fits {g : Float → Float} (h : Matches [.f64] args) :
    Answers args .f64 (onReal g w args) := by
  rcases h with _ | ⟨⟨x⟩, _ | _⟩
  exact plain_fits (.f64 _)

theorem onReals_fits {g : Float → Float → Float} (h : Matches [.f64, .f64] args) :
    Answers args .f64 (onReals g w args) := by
  rcases h with _ | ⟨⟨x⟩, _ | ⟨⟨y⟩, _ | _⟩⟩
  exact plain_fits (.f64 _)

theorem onInt_fits {g : Int32 → Int32} (h : Matches [.i32] args) :
    Answers args .i32 (onInt g w args) := by
  rcases h with _ | ⟨⟨a⟩, _ | _⟩
  exact plain_fits (.i32 _)

theorem onInts_fits {g : Int32 → Int32 → Int32} (h : Matches [.i32, .i32] args) :
    Answers args .i32 (onInts g w args) := by
  rcases h with _ | ⟨⟨a⟩, _ | ⟨⟨b⟩, _ | _⟩⟩
  exact plain_fits (.i32 _)

theorem onText_fits {g : Text.Bytes → Value} (hg : ∀ s, (g s).HasType t)
    (h : Matches [.str] args) : Answers args t (onText g w args) := by
  rcases h with _ | ⟨⟨s⟩, _ | _⟩
  exact plain_fits (hg _)

theorem onTexts_fits {g : Text.Bytes → Text.Bytes → Value} (hg : ∀ a b, (g a b).HasType t)
    (h : Matches [.str, .str] args) : Answers args t (onTexts g w args) := by
  rcases h with _ | ⟨⟨a⟩, _ | ⟨⟨b⟩, _ | _⟩⟩
  exact plain_fits (hg _ _)

theorem onArray_fits {g : List Int32 → Value} (hg : ∀ xs, (g xs).HasType t)
    (h : Matches [.array .i32] args) : Answers args t (onArray g w args) := by
  rcases h with _ | ⟨⟨xs⟩, _ | _⟩
  exact fits_of_length (hg _) rfl rfl

theorem changingArray_fits {g : List Int32 → List Int32} (hg : ∀ xs, (g xs).length = xs.length)
    (h : Matches [.array .i32] args) : Answers args .void (changingArray g w args) := by
  rcases h with _ | ⟨⟨xs⟩, _ | _⟩
  exact fits_of_length .void rfl (hg _)

theorem changingArrayBy_fits {g : List Int32 → Int32 → List Int32}
    (hg : ∀ xs k, (g xs k).length = xs.length) (h : Matches [.array .i32, .i32] args) :
    Answers args .void (changingArrayBy g w args) := by
  rcases h with _ | ⟨⟨xs⟩, _ | ⟨⟨k⟩, _ | _⟩⟩
  exact fits_of_length .void rfl (hg _ _)

theorem countEqual_fits (h : Matches [.array .i32, .i32] args) :
    Answers args .i32 (countEqual w args) := by
  rcases h with _ | ⟨⟨xs⟩, _ | ⟨⟨k⟩, _ | _⟩⟩
  exact fits_of_length (.i32 _) rfl rfl

theorem distance_fits (h : Matches [.f64, .f64, .f64, .f64] args) :
    Answers args .f64 (distance w args) := by
  rcases h with _ | ⟨⟨a⟩, _ | ⟨⟨b⟩, _ | ⟨⟨c⟩, _ | ⟨⟨d⟩, _ | _⟩⟩⟩⟩
  exact plain_fits (.f64 _)

theorem absReal_fits (h : Matches [.f64] args) : Answers args .f64 (absReal w args) := by
  rcases h with _ | ⟨⟨x⟩, _ | _⟩
  exact plain_fits (.f64 _)

theorem substring_fits (h : Matches [.str, .i32, .i32] args) :
    Answers args .str (substring w args) := by
  rcases h with _ | ⟨⟨s⟩, _ | ⟨⟨a⟩, _ | ⟨⟨b⟩, _ | _⟩⟩⟩
  exact plain_fits (given_hasType _)

theorem readContents_fits (h : Matches [.str] args) : Answers args .str (readContents w args) := by
  rcases h with _ | ⟨⟨s⟩, _ | _⟩
  simp only [readContents]
  split
  · exact plain_fits (given_hasType _)
  · exact plain_fits (given_hasType _)

theorem writeContents_fits (h : Matches [.str, .str] args) :
    Answers args .i32 (writeContents w args) := by
  rcases h with _ | ⟨⟨s⟩, _ | ⟨⟨t⟩, _ | _⟩⟩
  simp only [writeContents]
  split
  · exact plain_fits (ofBool_hasType _)
  · exact plain_fits (ofBool_hasType _)

theorem lookUp_fits (h : Matches [.str] args) : Answers args .i32 (lookUp w args) := by
  rcases h with _ | ⟨⟨s⟩, _ | _⟩
  exact plain_fits (ofBool_hasType _)

theorem reseed_fits (h : Matches [.i32] args) : Answers args .void (reseed w args) := by
  rcases h with _ | ⟨⟨n⟩, _ | _⟩
  exact plain_fits .void

theorem drawInt_fits (h : Matches [.i32, .i32] args) : Answers args .i32 (drawInt w args) := by
  rcases h with _ | ⟨⟨a⟩, _ | ⟨⟨b⟩, _ | _⟩⟩
  exact plain_fits (.i32 _)

theorem drawDouble_fits (h : Matches [] args) : Answers args .f64 (drawDouble w args) := by
  rcases h with _ | _
  exact plain_fits (.f64 _)

theorem sleep_fits (h : Matches [.i32] args) : Answers args .void (sleep w args) := by
  rcases h with _ | ⟨⟨n⟩, _ | _⟩
  exact plain_fits .void

end Shapes

/-- A function answers arguments of the types of its parameters. -/
theorem Function.call?_fits (f : Function) (w : World) {args : List Value}
    (h : Matches f.signature.params args) :
    Answers args f.signature.result (f.call? w args) := by
  cases f with
  | mathSqrt | mathSin | mathCos | mathTan | mathLog | mathExp => exact onReal_fits h
  | mathPow => exact onReals_fits h
  | mathAbsF64 => exact absReal_fits h
  | mathAbsI32 | mathIsPrime | mathFibonacci | mathFactorial => exact onInt_fits h
  | mathGcd | mathLcm => exact onInts_fits h
  | stringReverse | stringUpper | stringLower => exact onText_fits (fun _ => given_hasType _) h
  | stringLength => exact onText_fits (fun _ => .i32 _) h
  | stringSubstring => exact substring_fits h
  | stringFind => exact onTexts_fits (fun _ _ => .i32 _) h
  | stringConcat => exact onTexts_fits (fun _ _ => given_hasType _) h
  | freeString => exact onText_fits (fun _ => .void) h
  | arraySum | simdArraySum | arrayMax | simdArrayMax | arrayMin | simdArrayMin =>
    exact onArray_fits (fun _ => .i32 _) h
  | arraySort => exact changingArray_fits (fun xs => List.length_mergeSort xs) h
  | arrayReverse => exact changingArray_fits (fun _ => List.length_reverse) h
  | simdArrayMultiply | simdArrayAdd => exact changingArrayBy_fits (fun _ _ => List.length_map _) h
  | simdArrayCountEqual => exact countEqual_fits h
  | statsMean | statsMedian | statsStddev => exact onArray_fits (fun _ => .f64 _) h
  | geomDistance => exact distance_fits h
  | geomCircleArea => exact onReal_fits (g := fun r => pi * (r * r)) h
  | geomRectangleArea => exact onReals_fits (g := fun a b => a * b) h
  | geomTriangleArea => exact onReals_fits (g := fun a b => 0.5 * a * b) h
  | fileRead => exact readContents_fits h
  | fileWrite => exact writeContents_fits h
  | fileExists => exact lookUp_fits h
  | randomInt => exact drawInt_fits h
  | randomDouble => exact drawDouble_fits h
  | randomSeed => exact reseed_fits h
  | sleepMs => exact sleep_fits h

end TinyScript.Library
