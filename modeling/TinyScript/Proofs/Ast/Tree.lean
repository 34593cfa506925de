import TinyScript.Proofs.Ast.Outline

/-! Programs as outlines. Every node has a first word of its own, the rest of its line
holds its name, text or number, and what stands under it its parts. The tree of a program
is its outline laid out. -/

namespace TinyScript.Ast

open TinyScript.Ast.Tree (Outline Head)

/-- A part that is there or not. -/
def Tree.Outline.part (head : Head) : Option (List Outline) → List Outline
  | none => []
  | some parts => [.node ⟨head, none⟩ parts]

mutual

def Expr.outline : Expr → Outline
  | .str s => .node ⟨.string, some (Text.Quoted.render s)⟩ []
  | .int n => .node ⟨.int, some (toString n)⟩ []
  | .float d => .node ⟨.float, some d.render⟩ []
  | .bool b => .node ⟨.bool, some (if b then "true" else "false")⟩ []
  | .var x => .node ⟨.var, some x⟩ []
  | .binary op l r => .node ⟨.binary, some op.name⟩ [l.outline, r.outline]
  | .array hint es => .node ⟨.array, some hint⟩ (Expr.outlines es)
  | .index a i => .node ⟨.index, none⟩ [a.outline, i.outline]
  | .object fs => .node ⟨.object, none⟩ (Expr.fieldOutlines fs)
  | .member base x => .node ⟨.member, some x⟩ [base.outline]
  | .call x args => .node ⟨.call, some x⟩ (Expr.outlines args)

def Expr.outlines : List Expr → List Outline
  | [] => []
  | e :: es => e.outline :: Expr.outlines es

def Expr.fieldOutlines : List (String × Expr) → List Outline
  | [] => []
  | (key, e) :: fs => .node ⟨.property, some key⟩ [e.outline] :: Expr.fieldOutlines fs

end

mutual

def Stmt.outline : Stmt → Outline
  | .declare x type init =>
    .node ⟨.declare, some (x ++ ": " ++ type)⟩ (init.map Expr.outline).toList
  | .assign x e => .node ⟨.assign, some x⟩ [e.outline]
  | .setElement a i e => .node ⟨.setElement, none⟩ [a.outline, i.outline, e.outline]
  | .expr e => .node ⟨.expr, none⟩ [e.outline]
  | .branch cond yes no =>
    .node ⟨.branch, none⟩ (.node ⟨.cond, none⟩ [cond.outline] ::
      .node ⟨.yes, none⟩ (Stmt.outlines yes) ::
      Outline.part .no (if no.isEmpty then none else some (Stmt.outlines no)))
  | .loopWhile cond body =>
    .node ⟨.loopWhile, none⟩ [.node ⟨.cond, none⟩ [cond.outline],
      .node ⟨.body, none⟩ (Stmt.outlines body)]
  | .doWhile body cond =>
    .node ⟨.doWhile, none⟩ [.node ⟨.body, none⟩ (Stmt.outlines body),
      .node ⟨.cond, none⟩ [cond.outline]]
  | .loopFor init cond step body =>
    .node ⟨.loopFor, none⟩ (Outline.part .init (Stmt.clauseOutline init) ++
      (Outline.part .cond (cond.map fun e => [e.outline]) ++
        (Outline.part .step (Stmt.clauseOutline step) ++
          [.node ⟨.body, none⟩ (Stmt.outlines body)])))

def Stmt.clauseOutline : Option Stmt → Option (List Outline)
  | none => none
  | some s => some [s.outline]

def Stmt.outlines : List Stmt → List Outline
  | [] => []
  | s :: ss => s.outline :: Stmt.outlines ss

end

/-! ### The tree is the outline's -/

namespace Tree

open Outline (lines forest)

mutual

theorem expr_lines (depth : Nat) (e : Expr) : expr depth e = e.outline.lines depth := by
  match e with
  | .str _ | .int _ | .float _ | .var _ => rfl
  | .bool b => cases b <;> rfl
  | .binary op l r =>
    rw [expr, expr_lines (depth + 1) l, expr_lines (depth + 1) r, Expr.outline, lines, forest,
      forest, forest, List.append_nil]
    rfl
  | .array hint es =>
    rw [expr, exprs_lines (depth + 1) es, Expr.outline, lines]
    rfl
  | .index a i =>
    rw [expr, expr_lines (depth + 1) a, expr_lines (depth + 1) i, Expr.outline, lines, forest,
      forest, forest, List.append_nil]
    rfl
  | .object fs =>
    rw [expr, fields_lines (depth + 1) fs, Expr.outline, lines]
    rfl
  | .member base x =>
    rw [expr, expr_lines (depth + 1) base, Expr.outline, lines, forest, forest, List.append_nil]
    rfl
  | .call x args =>
    rw [expr, exprs_lines (depth + 1) args, Expr.outline, lines]
    rfl

theorem exprs_lines (depth : Nat) (es : List Expr) :
    exprs depth es = forest depth (Expr.outlines es) := by
  match es with
  | [] => rfl
  | e :: es => rw [exprs, expr_lines depth e, exprs_lines depth es, Expr.outlines, forest]

theorem fields_lines (depth : Nat) (fs : List (String × Expr)) :
    fields depth fs = forest depth (Expr.fieldOutlines fs) := by
  match fs with
  | [] => rfl
  | (key, e) :: fs =>
    rw [fields, expr_lines (depth + 1) e, fields_lines depth fs, Expr.fieldOutlines, forest,
      lines, forest, forest, List.append_nil]
    rfl

end

theorem part_lines {depth : Nat} {head : Head} {ls : Option (List Line)}
    {ts : Option (List Outline)} (h : ls = ts.map (forest (depth + 1))) :
    part depth head.word ls = forest depth (Outline.part head ts) := by
  subst h
  cases ts with
  | none => rfl
  | some ts =>
    rw [Outline.part, forest, forest, lines, List.append_nil]
    rfl

theorem optional_lines (depth : Nat) (cond : Option Expr) :
    cond.map (expr depth) = (cond.map fun e => [e.outline]).map (forest depth) := by
  cases cond with
  | none => rfl
  | some e =>
    simp only [Option.map_some, forest, List.append_nil, expr_lines]

mutual

theorem stmt_lines (depth : Nat) (s : Stmt) : stmt depth s = s.outline.lines depth := by
  match s with
  | .declare x type init =>
    have htext :
        "let " ++ x ++ ": " ++ type = Label.text ⟨.declare, some (x ++ ": " ++ type)⟩ := by
      show _ = "let" ++ " " ++ (x ++ ": " ++ type)
      rw [← String.append_assoc, ← String.append_assoc]
      rfl
    rw [stmt, htext, Stmt.outline, lines]
    cases init with
    | none => rfl
    | some e =>
      rw [Option.map_some, Option.getD_some, expr_lines, Option.map_some, Option.toList_some, forest,
        forest, List.append_nil]
  | .assign x e =>
    rw [stmt, expr_lines, Stmt.outline, lines, forest, forest, List.append_nil]
    rfl
  | .setElement a i e =>
    simp only [stmt, expr_lines, Stmt.outline, lines, forest, List.append_nil, List.append_assoc,
      List.cons_append]
    rfl
  | .expr e =>
    rw [stmt, expr_lines, Stmt.outline, lines, forest, forest, List.append_nil]
    rfl
  | .branch cond yes no =>
    have hno : (if no.isEmpty then [] else ⟨depth + 1, "else"⟩ :: stmts (depth + 2) no) =
        forest (depth + 1)
          (Outline.part .no (if no.isEmpty then none else some (Stmt.outlines no))) := by
      rw [stmts_lines (depth + 2) no, ← part_lines rfl]
      cases no <;> rfl
    rw [stmt, hno, stmts_lines (depth + 2) yes, expr_lines]
    simp only [Stmt.outline, lines, forest, List.append_nil, List.append_assoc,
      List.cons_append]
    rfl
  | .loopWhile cond body =>
    rw [stmt, stmts_lines (depth + 2) body, expr_lines]
    simp only [Stmt.outline, lines, forest, List.append_nil, List.cons_append]
    rfl
  | .doWhile body cond =>
    rw [stmt, stmts_lines (depth + 2) body, expr_lines]
    simp only [Stmt.outline, lines, forest, List.append_nil, List.cons_append]
    rfl
  | .loopFor init cond step body =>
    have hinit := @part_lines (depth + 1) .init _ _ (clause_lines (depth + 2) init)
    have hcond := @part_lines (depth + 1) .cond _ _ (optional_lines (depth + 2) cond)
    have hstep := @part_lines (depth + 1) .step _ _ (clause_lines (depth + 2) step)
    rw [stmt, stmts_lines (depth + 2) body]
    simp only [Stmt.outline, lines, Outline.forest_append, forest, List.append_nil,
      List.append_assoc, ← hinit, ← hcond, ← hstep]
    rfl

theorem clause_lines (depth : Nat) (s : Option Stmt) :
    clause depth s = (Stmt.clauseOutline s).map (forest depth) := by
  match s with
  | none => rfl
  | some s =>
    rw [clause, stmt_lines depth s, Stmt.clauseOutline, Option.map_some, forest, forest,
      List.append_nil]

theorem stmts_lines (depth : Nat) (ss : List Stmt) :
    stmts depth ss = forest depth (Stmt.outlines ss) := by
  match ss with
  | [] => rfl
  | s :: ss => rw [stmts, stmt_lines depth s, stmts_lines depth ss, Stmt.outlines, forest]

end

end Tree

theorem Program.tree_eq (p : Program) :
    Program.tree p = Tree.render (Outline.forest 0 (Stmt.outlines p)) := by
  rw [Program.tree, Tree.stmts_lines]

end TinyScript.Ast
