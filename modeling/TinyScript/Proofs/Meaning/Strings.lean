import TinyScript.Proofs.Core.Judge
import TinyScript.Proofs.Meaning.Source

/-! The texts of a program as it is written. Every string literal needs a constant, where
it stands and whatever becomes of it, and so does the format of every print that formats.
They are operands in fewer places: a literal where its value is stored, compared or passed
on, a format in its print. Both go along the text like the evaluation does, and the type of
a printed value, which decides on the format, is the judge's. -/

namespace TinyScript.Meaning.Source

open Ast (Expr Stmt)

/-- What a part of a program asks of a text. -/
inductive Mention where
  /-- There is a constant for it. -/
  | need (text : String)
  /-- It is an operand. -/
  | use (text : String)
  deriving DecidableEq, Repr

def Mention.needed? : Mention → Option String
  | need s => some s
  | use _ => none

def Mention.used? : Mention → Option String
  | need _ => none
  | use s => some s

/-! ### Expressions -/

/-- The texts that an expression is as an operand. -/
def literal : Expr → List String
  | .str s => [s]
  | _ => []

/-- Expressions as operands, one after the other. -/
def uses (es : List Expr) : List Mention := (es.flatMap literal).map .use

mutual

/-- What an expression asks for before it is an operand itself. -/
@[simp] def mentions : Expr → List Mention
  | .str s => [.need s]
  | .int _ | .float _ | .bool _ | .var _ | .object _ => []
  | .binary _ l r => mentions l ++ mentions r ++ uses [l, r]
  | .array _ es => mentionsIn es ++ uses es
  | .index a i => mentions a ++ mentions i
  | .member base _ => mentions base
  | .call _ args => mentionsIn args ++ uses args

@[simp] def mentionsIn : List Expr → List Mention
  | [] => []
  | e :: es => mentions e ++ mentionsIn es

end

/-! ### Statements -/

/-- The types of the names declared before a point of the text. -/
def Context.types (c : Context) : Core.Judge.Types := fun name => (c.lookup? name).map (·.type)

/-- A print with a format. -/
def formatted (format : String) (e : Expr) : List Mention := .need format :: .use format :: uses [e]

/-- The print of one value. A text on a line of its own needs no format. -/
def printed (c : Context) (newline : Bool) (e : Expr) : List Mention :=
  match Core.Judge.expr c.types e with
  | .ok .str => if newline then uses [e] else formatted "%s" e
  | _ => formatted (if newline then "%d\n" else "%d") e

/-- A call as a statement. -/
def callMentions (c : Context) (name : String) (args : List Expr) : List Mention :=
  match Builtin.ofName? name with
  | some (.print newline) => mentionsIn args ++ args.flatMap (printed c newline)
  | _ => mentionsIn args ++ uses args

/-- A value that is stored into a variable. -/
def stored (e : Expr) : List Mention := mentions e ++ uses [e]

mutual

@[simp] def stmtMentions (c : Context) : Stmt → List Mention
  | .declare _ _ init => (init.map stored).getD []
  | .assign _ e => stored e
  | .setElement a i e => mentions a ++ mentions i ++ stored e
  | .expr (.call name args) => callMentions c name args
  | .expr e => mentions e
  | .branch cond yes no =>
    mentions cond ++ stmtsMentions (c.past cond) yes ++
      stmtsMentions (afterAll (c.past cond) yes) no
  | .loopWhile cond body => mentions cond ++ stmtsMentions (c.past cond) body
  | .doWhile body cond => stmtsMentions c body ++ mentions cond
  | .loopFor init cond step body =>
    let c₁ := (afterClause c init).pastOption cond
    clauseMentions c init ++ (cond.map mentions).getD [] ++ stmtsMentions c₁ body ++
      clauseMentions (afterAll c₁ body) step

@[simp] def clauseMentions (c : Context) : Option Stmt → List Mention
  | none => []
  | some s => stmtMentions c s

@[simp] def stmtsMentions (c : Context) : List Stmt → List Mention
  | [] => []
  | s :: ss => stmtMentions c s ++ stmtsMentions (after c s) ss

end

/-! ### Programs -/

/-- The texts a program needs constants for, each where it is first needed. -/
def needed (p : Ast.Program) : List String :=
  ((stmtsMentions .empty p).filterMap Mention.needed?).eraseDups

/-- The texts that are operands, once for every time. -/
def used (p : Ast.Program) : List String := (stmtsMentions .empty p).filterMap Mention.used?

end TinyScript.Meaning.Source
