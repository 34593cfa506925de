import TinyScript.Proofs.Core.Judge

/-! Checking mirrors judging. Whatever the options, generating a module fails where the
judge does and with the judge's error, and else gives its warnings. The checker asks of
all it holds whether that has values, and whether a comparison is one. The judge does not,
so neither question is ever answered in the negative. -/

namespace TinyScript.Core.Judge

open Ast (BinaryOp)

open Check (Scope Checked)

/-- What a judge knows of a scope. -/
def seen (sc : Scope) : State := ⟨fun name => (sc.lookup? name).map (·.type), sc.warnings⟩

section Mirrors

variable {α β γ δ : Type}

/-- Two outcomes with the same error, or with values that belong together. -/
inductive Mirrors (R : α → Scope → β → Prop) :
    Except CheckError (α × Scope) → Verdict β → Prop where
  | ok {a : α} {sc : Scope} {b : β} : R a sc b → Mirrors R (.ok (a, sc)) (.ok b)
  | error (e : CheckError) : Mirrors R (.error e) (.error e)

theorem Mirrors.bind {R : α → Scope → β → Prop} {S : γ → Scope → δ → Prop} {x : Checked α}
    {f : α → Checked γ} {y : Verdict β} {g : β → Verdict δ} {sc : Scope} (h : Mirrors R (x sc) y)
    (hf : ∀ a sc' b, R a sc' b → Mirrors S (f a sc') (g b)) :
    Mirrors S ((x >>= f) sc) (y >>= g) := by
  show Mirrors S (Except.bind (x sc) fun p => f p.1 p.2) (Except.bind y g)
  generalize x sc = outcome at h
  cases h with
  | ok hab => exact hf _ _ _ hab
  | error e => exact .error e

/-- The judge's value may be asked for more. -/
theorem Mirrors.of_judged {R : α → Scope → β → Prop} {P : β → Prop}
    {x : Except CheckError (α × Scope)} {y : Verdict β} (h : Mirrors R x y) (hy : ∀ b, y = .ok b → P b) :
    Mirrors (fun a sc b => R a sc b ∧ P b) x y := by
  cases h with
  | ok hab => exact .ok ⟨hab, hy _ rfl⟩
  | error e => exact .error e

/-- The checker makes something of what it got, which the judge does not see. -/
theorem Mirrors.map {R : α → Scope → β → Prop} {S : γ → Scope → β → Prop} {x : Checked α}
    {f : α → γ} {y : Verdict β} {sc : Scope} (h : Mirrors R (x sc) y)
    (hf : ∀ a sc' b, R a sc' b → S (f a) sc' b) :
    Mirrors S ((x >>= fun a => pure (f a)) sc) y := by
  show Mirrors S (Except.bind (x sc) fun p => .ok (f p.1, p.2)) y
  generalize x sc = outcome at h
  cases h with
  | ok hab => exact .ok (hf _ _ _ hab)
  | error e => exact .error e

theorem Mirrors.imp {R S : α → Scope → β → Prop} {x : Except CheckError (α × Scope)}
    {y : Verdict β} (h : Mirrors R x y) (hS : ∀ a sc b, R a sc b → S a sc b) : Mirrors S x y := by
  cases h with
  | ok hab => exact .ok (hS _ _ _ hab)
  | error e => exact .error e

/-- A step that only the checker takes. -/
theorem Mirrors.after {S : γ → Scope → δ → Prop} {x : Checked α} {f : α → Checked γ} {a : α}
    {sc sc' : Scope} {z : Verdict δ} (hx : x sc = .ok (a, sc')) (hf : Mirrors S (f a sc') z) :
    Mirrors S ((x >>= f) sc) z := by
  show Mirrors S (Except.bind (x sc) fun p => f p.1 p.2) z
  rw [hx]
  exact hf

theorem Mirrors.mapM {R : γ → Scope → β → Prop} {f : α → Checked γ} {a : α} {y : Verdict β}
    {sc : Scope} (h : Mirrors R (f a sc) y) :
    Mirrors (fun o sc' b => ∃ c, o = some c ∧ R c sc' b) ((some a).mapM f sc) y := by
  show Mirrors _ (Except.bind (f a sc) fun p => .ok (some p.1, p.2)) y
  generalize f a sc = outcome at h
  cases h with
  | ok hcb => exact .ok ⟨_, rfl, hcb⟩
  | error e => exact .error e

/-- A judge sees no change. -/
def Kept (sc : Scope) (_ : α) (sc' : Scope) (_ : β) : Prop := seen sc' = seen sc

end Mirrors

theorem held_eq_ok {t : Ty} (h : t.Solid) (sc : Scope) : Check.held t sc = .ok ((), sc) := by
  rw [Check.held, if_pos h.hasValues]
  rfl

/-- An expression has its type, and checking it changes nothing that a judge sees. -/
def ExprMirrors (e : Ast.Expr) : Prop :=
  ∀ sc, AllSolid (seen sc).types →
    Mirrors (fun c sc' t => c.type = t ∧ seen sc' = seen sc) (Check.expr e sc)
      (expr (seen sc).types e)

/-- An operator that is no comparison never comes to be one. -/
theorem operation_mirrors (op : BinaryOp) (lhs rhs : Expr) (sc : Scope) :
    Mirrors (fun c sc' t => c.type = t ∧ sc' = sc) (Check.binary op lhs rhs sc)
      (match operation op lhs.type rhs.type with
        | some t => .ok t
        | none => .error (.invalidOperands op lhs.type rhs.type)) := by
  unfold Check.binary
  generalize lhs.type = l, rhs.type = r
  cases l <;> cases r <;>
    first
    | exact .error _
    | cases op <;> first | exact .ok ⟨rfl, rfl⟩ | exact .error _

theorem binary_mirrors {op : BinaryOp} {l r : Ast.Expr} (hl : ExprMirrors l) (hr : ExprMirrors r) :
    ExprMirrors (.binary op l r) := by
  intro sc solid
  refine (hl sc solid).bind ?_
  rintro lhs sc₁ _ ⟨rfl, hsc₁⟩
  rw [← hsc₁] at solid ⊢
  refine (hr sc₁ solid).bind ?_
  rintro rhs sc₂ _ ⟨rfl, hsc₂⟩
  rw [← hsc₂]
  refine (operation_mirrors op lhs rhs sc₂).imp ?_
  rintro c sc₃ _ ⟨rfl, rfl⟩
  exact ⟨rfl, rfl⟩

theorem elements_mirrors {elem : Ty} {es : List Ast.Expr} (h : ∀ e ∈ es, ExprMirrors e)
    (sc : Scope) (solid : AllSolid (seen sc).types) :
    Mirrors (Kept sc) (Check.elements elem es sc) (elements (seen sc).types elem es) := by
  induction es generalizing sc with
  | nil => exact .ok rfl
  | cons e es ih =>
    refine (h e List.mem_cons_self sc solid).bind ?_
    rintro c sc₁ _ ⟨rfl, hsc₁⟩
    split
    · rw [← hsc₁] at solid ⊢
      refine (ih (fun e he => h e (List.mem_cons_of_mem _ he)) sc₁ solid).map ?_
      exact fun _ _ _ hsc₂ => hsc₂.trans hsc₁
    · exact .error _

theorem array_mirrors {hint : String} {es : List Ast.Expr} (h : ∀ e ∈ es, ExprMirrors e) :
    ExprMirrors (.array hint es) := by
  intro sc solid
  rw [Check.expr, expr]
  cases hhint : Ty.ofName? hint with
  | none => exact .error _
  | some elem =>
    have helem : elem.Solid := Ty.solid_ofName? hhint
    refine (elements_mirrors h sc solid).bind ?_
    intro cs sc₁ _ hsc₁
    refine .after (held_eq_ok helem sc₁) ?_
    refine .after (a := sc₁.slots) rfl ?_
    refine .after (held_eq_ok (t := .array elem) helem _) ?_
    exact .ok ⟨rfl, hsc₁⟩

theorem index_mirrors {a i : Ast.Expr} (ha : ExprMirrors a) (hi : ExprMirrors i) :
    ExprMirrors (.index a i) := by
  intro sc solid
  refine ((ha sc solid).of_judged fun _ => expr_solid solid).bind ?_
  rintro array sc₁ _ ⟨⟨rfl, hsc₁⟩, harray⟩
  cases htype : array.type with
  | array elem =>
    rw [htype] at harray
    dsimp only [Ty.element?]
    rw [← hsc₁] at solid ⊢
    refine (hi sc₁ solid).bind ?_
    rintro index sc₂ _ ⟨rfl, hsc₂⟩
    cases index.type with
    | i32 => exact .after (held_eq_ok (t := elem) harray sc₂) (.ok ⟨rfl, hsc₂⟩)
    | _ => exact .error _
  | _ => exact .error _

theorem member_mirrors {base : Ast.Expr} {name : String} (h : ExprMirrors base) :
    ExprMirrors (.member base name) := by
  intro sc solid
  rw [Check.expr, expr]
  split
  · refine (h sc solid).bind ?_
    rintro array sc₁ _ ⟨rfl, hsc₁⟩
    cases htype : array.type with
    | array elem => exact .ok ⟨rfl, hsc₁⟩
    | _ => exact .error _
  · exact .error _

/-- What a call gives, void if nothing. -/
def Gives (c : Check.Call) (t : Ty) : Prop :=
  match c.value? with
  | none => t = .void
  | some e => e.type = t ∧ t ≠ .void

theorem library_gives (f : Library.Function) (args : List Expr) :
    Gives (.library f args) f.signature.result := by
  by_cases hvoid : f.signature.result = .void
  · simp [Gives, Check.Call.value?, hvoid]
  · simp [Gives, Check.Call.value?, hvoid, Expr.type]

theorem printed_mirrors (name : String) (newline : Bool) (e : Expr) (sc : Scope) :
    Mirrors (fun c sc' t => Gives c t ∧ seen sc' = seen sc) (Check.printed newline e sc)
      (takes name (.print newline) 0 e.type >>= fun _ => .ok .void) := by
  unfold Check.printed takes
  cases e.type with
  | str => exact .ok ⟨rfl, rfl⟩
  | i32 => exact .ok ⟨rfl, rfl⟩
  | _ => exact .error _

theorem accept_mirrors (name : String) {f : Library.Function} {position : Nat}
    (h : position < f.signature.params.length) (actual : Ty) (sc : Scope) :
    Mirrors (fun (_ : Unit) sc' (_ : Unit) => sc' = sc)
      (Check.accept name (position + 1) (some f.signature.params[position]) actual sc)
      (takes name (.library f) position actual) := by
  simp only [Check.accept, takes, List.getElem?_eq_getElem h]
  split
  · exact .ok rfl
  · exact .error _

/-- Arguments from a position on, against the parameters from there on. -/
theorem arguments_mirrors {name : String} {f : Library.Function} {es : List Ast.Expr}
    (h : ∀ e ∈ es, ExprMirrors e) (sc : Scope) (solid : AllSolid (seen sc).types) (position : Nat)
    (hcount : position + es.length = f.signature.params.length) :
    Mirrors (Kept sc)
      (Check.arguments name (position + 1) es ((f.signature.params.drop position).map some) sc)
      (arguments (seen sc).types (takes name (.library f)) position es) := by
  induction es generalizing sc position with
  | nil =>
    cases f.signature.params.drop position with
    | nil => exact .ok rfl
    | cons _ _ => exact .ok rfl
  | cons e es ih =>
    rw [List.length_cons] at hcount
    have hlt : position < f.signature.params.length := by omega
    rw [List.drop_eq_getElem_cons hlt]
    refine (h e List.mem_cons_self sc solid).bind ?_
    rintro c sc₁ _ ⟨rfl, hsc₁⟩
    refine (accept_mirrors name hlt c.type sc₁).bind ?_
    rintro _ _ _ rfl
    rw [← hsc₁] at solid ⊢
    refine (ih (fun e he => h e (List.mem_cons_of_mem _ he)) _ solid (position + 1)
      (by omega)).map ?_
    exact fun _ _ _ hsc₂ => hsc₂.trans hsc₁

theorem call_mirrors {args : List Ast.Expr} (name : String) (h : ∀ e ∈ args, ExprMirrors e)
    (sc : Scope) (solid : AllSolid (seen sc).types) :
    Mirrors (fun c sc' t => Gives c t ∧ seen sc' = seen sc) (Check.call name args sc)
      (call (seen sc).types name args) := by
  have hcount (f : Builtin) : arity f = (Check.parameters f).length := by
    cases f with
    | print newline => rfl
    | library f => exact (List.length_map _).symm
  unfold Check.call Check.callee call applied
  cases Builtin.ofName? name with
  | none => exact .error _
  | some f =>
    dsimp only
    rw [hcount f]
    split
    · rename_i hargs
      refine Mirrors.after (show _ = Except.ok (f, sc) from rfl) ?_
      cases f with
      | print newline =>
        obtain ⟨e, rfl⟩ := List.length_eq_one_iff.1 hargs
        simp only [Check.parameters, Check.arguments, arguments, Check.accept, bind_assoc, pure_bind]
        refine (h e List.mem_cons_self sc solid).bind ?_
        rintro c sc₁ _ ⟨rfl, hsc₁⟩
        rw [← hsc₁]
        exact printed_mirrors name newline c sc₁
      | library f =>
        refine (arguments_mirrors h sc solid 0 (by simpa [Check.parameters] using hargs)).bind ?_
        intro cs sc₁ _ hsc₁
        exact .ok ⟨library_gives f cs, hsc₁⟩
    · exact .error _

theorem callExpr_mirrors {args : List Ast.Expr} (name : String) (h : ∀ e ∈ args, ExprMirrors e) :
    ExprMirrors (.call name args) := by
  intro sc solid
  rw [Check.expr]
  simp only [← bind_assoc]
  refine (call_mirrors name h sc solid).bind ?_
  rintro c sc₁ t ⟨hgives, hsc₁⟩
  unfold Gives at hgives
  split at hgives
  · rename_i hvalue
    rw [hvalue, hgives]
    exact .error _
  · rename_i e hvalue
    rw [hvalue]
    cases t with
    | void => exact absurd rfl hgives.2
    | _ => exact .ok ⟨hgives.1, hsc₁⟩

theorem lookup_mirrors (name : String) (sc : Scope) :
    Mirrors (fun v sc' t => v.type = t ∧ sc' = sc) (Check.lookup name sc)
      (lookup (seen sc).types name) := by
  unfold Check.lookup lookup
  refine Mirrors.after (show _ = Except.ok (sc, sc) from rfl) ?_
  dsimp only [seen]
  cases sc.lookup? name with
  | none => exact .error _
  | some v => exact .ok ⟨rfl, rfl⟩

theorem expr_mirrors (e : Ast.Expr) : ExprMirrors e := by
  induction e using Ast.Expr.induct with
  | str s => exact fun _ _ => .ok ⟨rfl, rfl⟩
  | int n =>
    intro sc _
    have hrange : Int32.minValue.toInt ≤ n ∧ n ≤ Int32.maxValue.toInt ↔
        -2 ^ 31 ≤ n ∧ n < 2 ^ 31 := by
      show -2147483648 ≤ n ∧ n ≤ 2147483647 ↔ _
      omega
    simp only [Check.expr, Check.int, expr, hrange]
    split
    · exact .ok ⟨rfl, rfl⟩
    · exact .error _
  | float d => exact fun _ _ => .ok ⟨rfl, rfl⟩
  | bool b => exact fun _ _ => .ok ⟨rfl, rfl⟩
  | var name =>
    intro sc solid
    show Mirrors _ _ (lookup (seen sc).types name)
    rw [← bind_pure (lookup (seen sc).types name)]
    refine ((lookup_mirrors name sc).of_judged fun t h => solid name t (lookup_eq_ok h)).bind ?_
    rintro v _ _ ⟨⟨rfl, rfl⟩, htype⟩
    exact .after (held_eq_ok htype _) (.ok ⟨rfl, rfl⟩)
  | binary op l r hl hr => exact binary_mirrors hl hr
  | array hint es hes => exact array_mirrors hes
  | index a i ha hi => exact index_mirrors ha hi
  | object fs => exact fun _ _ => .error _
  | member base name hbase => exact member_mirrors hbase
  | call name args hargs => exact callExpr_mirrors name hargs

theorem condition_mirrors (e : Ast.Expr) (sc : Scope) (solid : AllSolid (seen sc).types) :
    Mirrors (Kept sc) (Check.condition e sc) (condition (seen sc).types e) := by
  refine (expr_mirrors e sc solid).bind ?_
  rintro c sc₁ _ ⟨rfl, hsc₁⟩
  cases c.type with
  | bool => exact .ok hsc₁
  | i32 => exact .ok hsc₁
  | _ => exact .error _

/-! ### Statements -/

/-- What the judge goes on with is what it sees of the scope the checker goes on with. -/
structure Seen {α : Type} (_ : α) (sc : Scope) (s : State) : Prop where
  same : seen sc = s
  solid : AllSolid s.types

theorem isSome_between? {actual declared : Ty} (h : actual ≠ declared) :
    (Conversion.between? actual declared).isSome =
      (isConvertible declared && isConvertible actual) := by
  cases actual <;> cases declared <;> first | rfl | exact absurd rfl h

theorem stored_mirrors (name : String) (declared : Ty) (value : Expr) (sc : Scope)
    (solid : AllSolid (seen sc).types) :
    Mirrors Seen (Check.stored name declared value sc)
      (store name declared value.type (seen sc)) := by
  unfold Check.stored store
  split
  · exact .ok ⟨rfl, solid⟩
  · rename_i htype
    have hsome := isSome_between? htype
    refine Mirrors.after (a := ()) rfl ?_
    cases hconvert : Conversion.between? value.type declared with
    | none =>
      rw [hconvert] at hsome
      rw [if_neg (by simp_all)]
      exact .error _
    | some c =>
      rw [hconvert] at hsome
      rw [if_pos (by simp_all)]
      exact .ok ⟨rfl, solid⟩

theorem annotated_mirrors (name type : String) (init : Option Ast.Expr) (sc : Scope) :
    Mirrors (fun t sc' r => r = (t, seen sc') ∧ (seen sc').types = (seen sc).types ∧ t.Solid)
      (Check.declaredType name type init sc) (annotated name type init (seen sc)) := by
  unfold Check.declaredType annotated
  split
  · cases init with
    | none => exact .ok ⟨rfl, rfl, trivial⟩
    | some e =>
      cases e with
      | array hint es => exact .ok ⟨rfl, rfl, Ty.solid_nameOrInt hint⟩
      | _ => exact .ok ⟨rfl, rfl, trivial⟩
  · cases htype : Ty.ofName? type with
    | none => exact .error _
    | some t => exact .ok ⟨rfl, rfl, Ty.solid_ofName? htype⟩

theorem seen_cons (v : Var) (sc : Scope) :
    seen { sc with vars := v :: sc.vars } = (seen sc).declare v.name v.type := by
  unfold seen State.declare Scope.lookup?
  congr 1
  funext n
  rw [List.find?_cons]
  by_cases h : n = v.name
  · simp [h]
  · have hne : (v.name == n) = false := beq_false_of_ne (Ne.symm h)
    simp [h, hne]

theorem declared_solid {s : State} (h : AllSolid s.types) (name : String) {t : Ty} (ht : t.Solid) :
    AllSolid (s.declare name t).types := by
  intro n u hu
  change (if n = name then some t else s.types n) = some u at hu
  split at hu
  · cases hu
    exact ht
  · exact h n u hu

theorem declare_mirrors (name type : String) (init : Option Ast.Expr) (sc : Scope)
    (solid : AllSolid (seen sc).types) :
    Mirrors Seen (Check.declare name type init sc) (declare name type init (seen sc)) := by
  refine (annotated_mirrors name type init sc).bind ?_
  rintro t sc₁ _ ⟨rfl, htypes, ht⟩
  rw [← htypes] at solid
  cases init with
  | none =>
    refine .after (a := none) rfl ?_
    refine .after (held_eq_ok ht sc₁) ?_
    exact .ok ⟨seen_cons _ _, declared_solid solid name ht⟩
  | some e =>
    refine (expr_mirrors e sc₁ solid).mapM.bind ?_
    rintro _ sc₂ _ ⟨c, rfl, rfl, hsc₂⟩
    rw [← hsc₂] at solid ⊢
    refine .after (held_eq_ok ht sc₂) ?_
    refine .after (a := sc₂.slots) rfl ?_
    refine (stored_mirrors name t c { sc₂ with slots := sc₂.slots + 1 } solid).mapM.bind ?_
    rintro _ sc₃ _ ⟨_, rfl, rfl, solid₃⟩
    exact .ok ⟨seen_cons _ _, declared_solid solid₃ name ht⟩

/-- Checking a statement is judging it. -/
def StmtMirrors (s : Ast.Stmt) : Prop :=
  ∀ sc, AllSolid (seen sc).types → Mirrors Seen (Check.stmt s sc) (stmt s (seen sc))

theorem stmts_mirror {ss : List Ast.Stmt} (h : ∀ s ∈ ss, StmtMirrors s) (sc : Scope)
    (solid : AllSolid (seen sc).types) :
    Mirrors Seen (Check.stmts ss sc) (stmts ss (seen sc)) := by
  induction ss generalizing sc with
  | nil => exact .ok ⟨rfl, solid⟩
  | cons s ss ih =>
    refine (h s List.mem_cons_self sc solid).bind ?_
    rintro c sc₁ _ ⟨rfl, solid₁⟩
    have hss := ih (fun s hs => h s (List.mem_cons_of_mem _ hs)) sc₁ solid₁
    exact hss.map fun _ _ _ h => ⟨h.1, h.2⟩

theorem clause_mirrors {s : Option Ast.Stmt} (h : ∀ s' ∈ s, StmtMirrors s') (sc : Scope)
    (solid : AllSolid (seen sc).types) :
    Mirrors Seen (Check.clause s sc) (clause s (seen sc)) := by
  cases s with
  | none => exact .ok ⟨rfl, solid⟩
  | some s => exact (h s rfl sc solid).map fun _ _ _ h => ⟨h.1, h.2⟩

theorem assign_mirrors (name : String) (value : Ast.Expr) : StmtMirrors (.assign name value) := by
  intro sc solid
  refine (lookup_mirrors name sc).bind ?_
  rintro v _ _ ⟨rfl, rfl⟩
  refine (expr_mirrors value _ solid).bind ?_
  rintro c sc₁ _ ⟨rfl, hsc₁⟩
  rw [← hsc₁] at solid ⊢
  exact (stored_mirrors name v.type c sc₁ solid).map fun _ _ _ h => ⟨h.1, h.2⟩

theorem setElement_mirrors (a i v : Ast.Expr) : StmtMirrors (.setElement a i v) := by
  intro sc solid
  simp only [stmt, expr, bind_assoc]
  refine ((expr_mirrors a sc solid).of_judged fun _ => expr_solid solid).bind ?_
  rintro array sc₁ _ ⟨⟨rfl, hsc₁⟩, harray⟩
  cases htype : array.type with
  | array elem =>
    rw [htype] at harray
    dsimp only [Ty.element?]
    rw [← hsc₁] at solid ⊢
    rw [bind_assoc]
    refine (expr_mirrors i sc₁ solid).bind ?_
    rintro index sc₂ _ ⟨rfl, hsc₂⟩
    cases index.type with
    | i32 =>
      rw [← hsc₂] at solid ⊢
      refine .after (held_eq_ok (t := elem) harray sc₂) ?_
      refine (expr_mirrors v sc₂ solid).bind ?_
      rintro value sc₃ _ ⟨rfl, hsc₃⟩
      split
      · exact .ok ⟨hsc₃, solid⟩
      · exact .error _
    | _ => exact .error _
  | _ => exact .error _

theorem exprStmt_mirrors (e : Ast.Expr) : StmtMirrors (.expr e) := by
  intro sc solid
  cases e with
  | call name args =>
    refine (call_mirrors name (fun e _ => expr_mirrors e) sc solid).bind ?_
    rintro c sc₁ t ⟨_, hsc₁⟩
    exact .ok ⟨hsc₁, solid⟩
  | _ =>
    refine (expr_mirrors _ sc solid).bind ?_
    rintro c sc₁ _ ⟨rfl, hsc₁⟩
    exact .ok ⟨hsc₁, solid⟩

theorem stmt_mirrors (s : Ast.Stmt) : StmtMirrors s := by
  induction s using Ast.Stmt.induct with
  | declare name type init => exact declare_mirrors name type init
  | assign name value => exact assign_mirrors name value
  | setElement a i v => exact setElement_mirrors a i v
  | expr e => exact exprStmt_mirrors e
  | branch cond yes no hyes hno =>
    intro sc solid
    refine (condition_mirrors cond sc solid).bind ?_
    intro _ sc₁ _ hsc₁
    rw [← hsc₁] at solid ⊢
    refine (stmts_mirror hyes sc₁ solid).bind ?_
    rintro _ sc₂ _ ⟨rfl, solid₂⟩
    exact (stmts_mirror hno sc₂ solid₂).map fun _ _ _ h => ⟨h.1, h.2⟩
  | loopWhile cond body hbody =>
    intro sc solid
    refine (condition_mirrors cond sc solid).bind ?_
    intro _ sc₁ _ hsc₁
    rw [← hsc₁] at solid ⊢
    exact (stmts_mirror hbody sc₁ solid).map fun _ _ _ h => ⟨h.1, h.2⟩
  | doWhile body cond hbody =>
    intro sc solid
    refine (stmts_mirror hbody sc solid).bind ?_
    rintro _ sc₁ _ ⟨rfl, solid₁⟩
    refine (condition_mirrors cond sc₁ solid₁).bind ?_
    intro _ sc₂ _ hsc₂
    exact .ok ⟨hsc₂, solid₁⟩
  | loopFor init cond step body hinit hstep hbody =>
    intro sc solid
    refine (clause_mirrors hinit sc solid).bind ?_
    rintro _ sc₁ _ ⟨rfl, solid₁⟩
    have hrest (cond : Option Expr) (init : Option Stmt) (sc₂ : Scope)
        (solid₂ : AllSolid (seen sc₂).types) : Mirrors Seen
        ((do
          let body ← Check.stmts body
          let step ← Check.clause step
          return Stmt.loopFor init cond step body : Checked Stmt) sc₂)
        (do clause step (← stmts body (seen sc₂))) := by
      refine (stmts_mirror hbody sc₂ solid₂).bind ?_
      rintro _ sc₃ _ ⟨rfl, solid₃⟩
      exact (clause_mirrors hstep sc₃ solid₃).map fun _ _ _ h => ⟨h.1, h.2⟩
    cases cond with
    | none => exact hrest _ _ sc₁ solid₁
    | some cond =>
      refine (condition_mirrors cond sc₁ solid₁).mapM.bind ?_
      rintro _ sc₂ _ ⟨_, rfl, hsc₂⟩
      rw [← hsc₂] at solid₁ ⊢
      exact hrest _ _ sc₂ solid₁

theorem generate_judged (p : Ast.Program) (options : Options) :
    (generate p options).map (·.warnings) = program p := by
  have h := stmts_mirror (fun s (_ : s ∈ p) => stmt_mirrors s) Scope.empty nofun
  show ((Check.stmts p Scope.empty >>= fun r => Except.ok (r.1, r.2.warnings)) >>= fun r =>
      Except.ok (Compiled.mk (Program.lower r.1 options) r.2)).map (·.warnings) =
    stmts p (seen Scope.empty) >>= fun s => Except.ok s.warnings
  generalize Check.stmts p Scope.empty = outcome, stmts p (seen Scope.empty) = verdict at h
  cases h with
  | ok hseen =>
    rw [← hseen.same]
    rfl
  | error e => rfl

end TinyScript.Core.Judge
