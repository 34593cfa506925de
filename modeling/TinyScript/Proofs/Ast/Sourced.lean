import TinyScript.Proofs.Ast.Soundness

/-! Trees that have a text. There are more trees than texts spell: in one that is read a
call is of a function there is, an array literal has the type name that its first element
suggests, and the type of a declaration stands in the text if it has one. -/

namespace TinyScript

/-- The types that array literals may have for their elements. -/
def Ty.scalars : List Ty := [.str, .i32, .f64, .bool]

namespace Ast

open Grammar

inductive Expr.Sourced : Expr → Prop where
  | str (s : String) : Sourced (.str s)
  | int (n : Int) : Sourced (.int n)
  | float (d : Number.Double) : Sourced (.float d)
  | bool (b : Bool) : Sourced (.bool b)
  | var (name : String) : Sourced (.var name)
  | binary {op : BinaryOp} {l r : Expr} (hl : Sourced l) (hr : Sourced r) :
      Sourced (.binary op l r)
  | array {es : List Expr} (hes : ∀ e ∈ es, Sourced e) : Sourced (.array (suggested es.head?) es)
  | index {a i : Expr} (ha : Sourced a) (hi : Sourced i) : Sourced (.index a i)
  | object {fs : List (String × Expr)} (hfs : ∀ f ∈ fs, Sourced f.2) : Sourced (.object fs)
  | member {base : Expr} {name : String} (hbase : Sourced base) : Sourced (.member base name)
  | call {name : String} {args : List Expr} (hknown : Builtin.isKnown name)
      (hargs : ∀ e ∈ args, Sourced e) : Sourced (.call name args)

/-- Tokens in which a declaration is annotated with a type name. -/
inductive Annotates (type : String) : List Token → Prop where
  | mk {k name colon : Token} {us : List Token} (before after : List Token)
      (hk : k.kind ∈ [.kwLet, .kwConst, .kwVar]) (hname : name.kind = .identifier)
      (hcolon : colon.kind = .colon) (htype : TypeName type us) :
      Annotates type (before ++ k :: name :: colon :: (us ++ after))

/-- A statement all of whose type names stand in some tokens. -/
inductive Stmt.Sourced (ts : List Token) : Stmt → Prop where
  | declare {name type : String} {init : Option Expr} (htype : type ≠ auto → Annotates type ts)
      (hinit : ∀ e ∈ init, e.Sourced) : Sourced ts (.declare name type init)
  | assign {name : String} {e : Expr} (he : e.Sourced) : Sourced ts (.assign name e)
  | setElement {a i e : Expr} (ha : a.Sourced) (hi : i.Sourced) (he : e.Sourced) :
      Sourced ts (.setElement a i e)
  | expr {e : Expr} (he : e.Sourced) : Sourced ts (.expr e)
  | branch {cond : Expr} {yes no : List Stmt} (hcond : cond.Sourced)
      (hyes : ∀ s ∈ yes, Sourced ts s) (hno : ∀ s ∈ no, Sourced ts s) :
      Sourced ts (.branch cond yes no)
  | loopWhile {cond : Expr} {body : List Stmt} (hcond : cond.Sourced)
      (hbody : ∀ s ∈ body, Sourced ts s) : Sourced ts (.loopWhile cond body)
  | doWhile {cond : Expr} {body : List Stmt} (hbody : ∀ s ∈ body, Sourced ts s)
      (hcond : cond.Sourced) : Sourced ts (.doWhile body cond)
  | loopFor {init step : Option Stmt} {cond : Option Expr} {body : List Stmt}
      (hinit : ∀ s ∈ init, Sourced ts s) (hcond : ∀ e ∈ cond, e.Sourced)
      (hstep : ∀ s ∈ step, Sourced ts s) (hbody : ∀ s ∈ body, Sourced ts s) :
      Sourced ts (.loopFor init cond step body)

variable {ts us : List Token}

namespace Grammar

/-! ### Expressions -/

def Phrase.Sourced : Phrase → Prop
  | .comparison e | .additive e | .multiplicative e | .suffixed e | .primary e => e.Sourced
  | .items es => ∀ e ∈ es, e.Sourced
  | .fields fs => ∀ f ∈ fs, f.2.Sourced

def Sentence.Sourced (ts : List Token) : Sentence → Prop
  | .statement s | .branch s => s.Sourced ts
  | .block ss | .statements ss => ∀ s ∈ ss, s.Sourced ts

end Grammar

end Ast

end TinyScript
