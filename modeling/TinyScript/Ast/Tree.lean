import TinyScript.Ast
import TinyScript.Number.Decimal
import TinyScript.Text.Quoted

/-! A program as an indented tree, one node to a line and two blanks to a level.
Nothing closes a node: it ends where the indentation returns to its own. -/

namespace TinyScript.Ast.Tree

structure Line where
  depth : Nat
  text : String
  deriving DecidableEq, Repr

def Line.render (l : Line) : String :=
  String.ofList (List.replicate (2 * l.depth) ' ') ++ l.text ++ "\n"

mutual

def expr (depth : Nat) : Expr → List Line
  | .str s => [⟨depth, "string " ++ Text.Quoted.render s⟩]
  | .int n => [⟨depth, "int " ++ toString n⟩]
  | .float d => [⟨depth, "float " ++ d.render⟩]
  | .bool b => [⟨depth, if b then "bool true" else "bool false"⟩]
  | .var name => [⟨depth, "var " ++ name⟩]
  | .binary op l r => ⟨depth, "binary " ++ op.name⟩ :: expr (depth + 1) l ++ expr (depth + 1) r
  | .array hint elements => ⟨depth, "array " ++ hint⟩ :: exprs (depth + 1) elements
  | .index a i => ⟨depth, "index"⟩ :: expr (depth + 1) a ++ expr (depth + 1) i
  | .object fs => ⟨depth, "object"⟩ :: fields (depth + 1) fs
  | .member base name => ⟨depth, "member " ++ name⟩ :: expr (depth + 1) base
  | .call name args => ⟨depth, "call " ++ name⟩ :: exprs (depth + 1) args

def exprs (depth : Nat) : List Expr → List Line
  | [] => []
  | e :: es => expr depth e ++ exprs depth es

def fields (depth : Nat) : List (String × Expr) → List Line
  | [] => []
  | (key, e) :: fs => ⟨depth, "property " ++ key⟩ :: expr (depth + 1) e ++ fields depth fs

end

/-- A label and what stands under it, if there is anything to show. -/
def part (depth : Nat) (label : String) : Option (List Line) → List Line
  | none => []
  | some lines => ⟨depth, label⟩ :: lines

mutual

def stmt (depth : Nat) : Stmt → List Line
  | .declare name type init =>
    ⟨depth, "let " ++ name ++ ": " ++ type⟩ :: (init.map (expr (depth + 1))).getD []
  | .assign name value => ⟨depth, "assign " ++ name⟩ :: expr (depth + 1) value
  | .setElement a i v =>
    ⟨depth, "index-assign"⟩ :: expr (depth + 1) a ++ expr (depth + 1) i ++ expr (depth + 1) v
  | .expr e => ⟨depth, "expr"⟩ :: expr (depth + 1) e
  | .branch cond yes no =>
    ⟨depth, "if"⟩ :: ⟨depth + 1, "cond"⟩ :: expr (depth + 2) cond ++
      ⟨depth + 1, "then"⟩ :: stmts (depth + 2) yes ++
      if no.isEmpty then [] else ⟨depth + 1, "else"⟩ :: stmts (depth + 2) no
  | .loopWhile cond body =>
    ⟨depth, "while"⟩ :: ⟨depth + 1, "cond"⟩ :: expr (depth + 2) cond ++
      ⟨depth + 1, "body"⟩ :: stmts (depth + 2) body
  | .doWhile body cond =>
    ⟨depth, "do-while"⟩ :: ⟨depth + 1, "body"⟩ :: stmts (depth + 2) body ++
      ⟨depth + 1, "cond"⟩ :: expr (depth + 2) cond
  | .loopFor init cond step body =>
    ⟨depth, "for"⟩ :: part (depth + 1) "init" (clause (depth + 2) init) ++
      part (depth + 1) "cond" (cond.map (expr (depth + 2))) ++
      part (depth + 1) "step" (clause (depth + 2) step) ++
      ⟨depth + 1, "body"⟩ :: stmts (depth + 2) body

def clause (depth : Nat) : Option Stmt → Option (List Line)
  | none => none
  | some s => some (stmt depth s)

def stmts (depth : Nat) : List Stmt → List Line
  | [] => []
  | s :: ss => stmt depth s ++ stmts depth ss

end

def render (lines : List Line) : String :=
  String.join (lines.map Line.render)

end TinyScript.Ast.Tree

namespace TinyScript.Ast

def Expr.tree (e : Expr) : String := Tree.render (Tree.expr 0 e)

def Program.tree (p : Program) : String := Tree.render (Tree.stmts 0 p)

end TinyScript.Ast
