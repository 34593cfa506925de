import TinyScript.Proofs.Meaning.Resolved

/-! Typing of checked programs. A program is typed against the list of places its
declarations and array literals own: a variable's slot is a cell of the variable's
type, a literal's slot a storage for as many elements as the literal has. The list
is that of the whole program, so a judgement says nothing about what was set up
so far. -/

namespace TinyScript.Core

open Meaning (Place)

/-- The operands of a comparison are two integers or two truth values. -/
def Comparable (t : Ty) : Prop := t = .i32 ∨ t = .bool

inductive Typed (L : List Place) : Expr → Prop
  | str (s : String) : Typed L (.str s)
  | int (n : Int32) : Typed L (.int n)
  | float (d : Number.Double) : Typed L (.float d)
  | bool (b : Bool) : Typed L (.bool b)
  | load {v : Var} (place : L[v.slot]? = some (.cell v.type)) : Typed L (.load v)
  | arith (op : ArithOp) {l r : Expr} (lhs : Typed L l) (rhs : Typed L r)
      (ltype : l.type = .i32) (rtype : r.type = .i32) : Typed L (.arith op l r)
  | compare (op : CompareOp) {l r : Expr} (lhs : Typed L l) (rhs : Typed L r)
      (ltype : Comparable l.type) (same : r.type = l.type) : Typed L (.compare op l r)
  | sameText (negated : Bool) {l r : Expr} (lhs : Typed L l) (rhs : Typed L r)
      (ltype : l.type = .str) (rtype : r.type = .str) : Typed L (.sameText negated l r)
  | nonzero {e : Expr} (value : Typed L e) (type : e.type = .i32) : Typed L (.nonzero e)
  | array {slot : Nat} {elem : Ty} {es : List Expr} (elements : ∀ e ∈ es, Typed L e)
      (types : ∀ e ∈ es, e.type = elem)
      (place : L[slot]? = some (.storage elem es.length)) : Typed L (.array slot elem es)
  | element {elem : Ty} {a i : Expr} (array : Typed L a) (index : Typed L i)
      (atype : a.type = .array elem) (itype : i.type = .i32) : Typed L (.element elem a i)
  | length {elem : Ty} {a : Expr} (array : Typed L a) (atype : a.type = .array elem) :
      Typed L (.length a)
  | call {f : Library.Function} {es : List Expr} (args : ∀ e ∈ es, Typed L e)
      (types : es.map Expr.type = f.signature.params) (result : f.signature.result ≠ .void) :
      Typed L (.call f es)

/-- A value fits a declared type as it is, or by the conversion written with it. -/
structure Stored.Typed (L : List Place) (v : Var) (s : Stored) : Prop where
  value : Core.Typed L s.value
  fits : match s.convert with
    | none => s.value.type = v.type
    | some c => Conversion.between? s.value.type v.type = some c
  place : L[v.slot]? = some (.cell v.type)

/-- A condition is a truth value. -/
structure Condition (L : List Place) (e : Expr) : Prop where
  value : Typed L e
  type : e.type = .bool

/-- Only as a statement may a call be of a function without a result. -/
inductive Stmt.Typed (L : List Place) : Stmt → Prop
  | declare {v : Var} (place : L[v.slot]? = some (.cell v.type)) : Typed L (.declare v none)
  | init {v : Var} {s : Stored} (value : s.Typed L v) : Typed L (.declare v (some s))
  | assign {v : Var} {s : Stored} (value : s.Typed L v) : Typed L (.assign v s)
  | setElement {elem : Ty} {a i e : Expr} (array : Core.Typed L a) (index : Core.Typed L i)
      (value : Core.Typed L e) (atype : a.type = .array elem) (itype : i.type = .i32)
      (etype : e.type = elem) : Typed L (.setElement elem a i e)
  | call {f : Library.Function} {es : List Expr} (args : ∀ e ∈ es, Core.Typed L e)
      (types : es.map Expr.type = f.signature.params) : Typed L (.eval (.call f es))
  | eval {e : Expr} (value : Core.Typed L e) : Typed L (.eval e)
  | printText (newline : Bool) {e : Expr} (value : Core.Typed L e) (type : e.type = .str) :
      Typed L (.printText newline e)
  | printInt (newline : Bool) {e : Expr} (value : Core.Typed L e) (type : e.type = .i32) :
      Typed L (.printInt newline e)
  | branch {cond : Expr} {yes no : List Stmt} (condition : Condition L cond)
      (first : ∀ s ∈ yes, Typed L s) (second : ∀ s ∈ no, Typed L s) : Typed L (.branch cond yes no)
  | loopWhile {cond : Expr} {body : List Stmt} (condition : Condition L cond)
      (turn : ∀ s ∈ body, Typed L s) : Typed L (.loopWhile cond body)
  | doWhile {cond : Expr} {body : List Stmt} (turn : ∀ s ∈ body, Typed L s)
      (condition : Condition L cond) : Typed L (.doWhile body cond)
  | loopFor {init step : Option Stmt} {cond : Option Expr} {body : List Stmt}
      (first : ∀ s ∈ init, Typed L s) (condition : ∀ e ∈ cond, Condition L e)
      (turn : ∀ s ∈ body, Typed L s) (last : ∀ s ∈ step, Typed L s) :
      Typed L (.loopFor init cond step body)

/-- Every statement is typed against the places of the whole program. -/
def Program.Typed (p : Program) : Prop := ∀ s ∈ p, s.Typed (Meaning.Resolved.stmtsPlaces p)

end TinyScript.Core
