import TinyScript.Ast
import TinyScript.Core

/-! Induction over programs, as they are written and as they are checked.
Expressions and statements hold lists of themselves; these principles give the
hypothesis for every member. -/

namespace TinyScript.Ast

variable {motive : Expr → Prop}

theorem Expr.induct (str : ∀ s, motive (.str s)) (int : ∀ n, motive (.int n))
    (float : ∀ d, motive (.float d)) (bool : ∀ b, motive (.bool b)) (var : ∀ x, motive (.var x))
    (binary : ∀ op l r, motive l → motive r → motive (.binary op l r))
    (array : ∀ hint es, (∀ e ∈ es, motive e) → motive (.array hint es))
    (index : ∀ a i, motive a → motive i → motive (.index a i))
    (object : ∀ fields, (∀ f ∈ fields, motive f.2) → motive (.object fields))
    (member : ∀ base x, motive base → motive (.member base x))
    (call : ∀ x args, (∀ e ∈ args, motive e) → motive (.call x args)) (e : Expr) : motive e :=
  @Expr.rec motive (fun es => ∀ e ∈ es, motive e) (fun fields => ∀ f ∈ fields, motive f.2)
    (fun f => motive f.2)
    str int float bool var binary array index object member call
    (fun _ h => (nomatch h)) (fun _ _ he hes => List.forall_mem_cons.2 ⟨he, hes⟩)
    (fun _ h => (nomatch h)) (fun _ _ hf hfs => List.forall_mem_cons.2 ⟨hf, hfs⟩)
    (fun _ _ he => he) e

variable {motive : Stmt → Prop}

theorem Stmt.induct (declare : ∀ x t init, motive (.declare x t init))
    (assign : ∀ x e, motive (.assign x e)) (setElement : ∀ a i e, motive (.setElement a i e))
    (expr : ∀ e, motive (.expr e))
    (branch : ∀ cond yes no, (∀ s ∈ yes, motive s) → (∀ s ∈ no, motive s) →
      motive (.branch cond yes no))
    (loopWhile : ∀ cond body, (∀ s ∈ body, motive s) → motive (.loopWhile cond body))
    (doWhile : ∀ body cond, (∀ s ∈ body, motive s) → motive (.doWhile body cond))
    (loopFor : ∀ init cond step body, (∀ s ∈ init, motive s) → (∀ s ∈ step, motive s) →
      (∀ s ∈ body, motive s) → motive (.loopFor init cond step body)) (s : Stmt) : motive s :=
  @Stmt.rec motive (fun ss => ∀ s ∈ ss, motive s) (fun clause => ∀ s ∈ clause, motive s)
    declare assign setElement expr branch loopWhile doWhile loopFor
    (fun _ h => (nomatch h)) (fun _ _ hs hss => List.forall_mem_cons.2 ⟨hs, hss⟩)
    (fun _ h => (nomatch h)) (fun _ hs _ h => Option.mem_some.1 h ▸ hs) s

end TinyScript.Ast

namespace TinyScript.Core

variable {motive : Expr → Prop}

theorem Expr.induct (str : ∀ s, motive (.str s)) (int : ∀ n, motive (.int n))
    (float : ∀ d, motive (.float d)) (bool : ∀ b, motive (.bool b)) (load : ∀ v, motive (.load v))
    (arith : ∀ op l r, motive l → motive r → motive (.arith op l r))
    (compare : ∀ op l r, motive l → motive r → motive (.compare op l r))
    (sameText : ∀ negated l r, motive l → motive r → motive (.sameText negated l r))
    (nonzero : ∀ e, motive e → motive (.nonzero e))
    (array : ∀ slot elem es, (∀ e ∈ es, motive e) → motive (.array slot elem es))
    (element : ∀ elem a i, motive a → motive i → motive (.element elem a i))
    (length : ∀ a, motive a → motive (.length a))
    (call : ∀ f es, (∀ e ∈ es, motive e) → motive (.call f es)) (e : Expr) : motive e :=
  @Expr.rec motive (fun es => ∀ e ∈ es, motive e)
    str int float bool load arith compare sameText nonzero array element length call
    (fun _ h => (nomatch h)) (fun _ _ he hes => List.forall_mem_cons.2 ⟨he, hes⟩) e

variable {motive : Stmt → Prop}

theorem Stmt.induct (declare : ∀ v init, motive (.declare v init))
    (assign : ∀ v s, motive (.assign v s))
    (setElement : ∀ elem a i e, motive (.setElement elem a i e)) (eval : ∀ e, motive (.eval e))
    (printText : ∀ newline e, motive (.printText newline e))
    (printInt : ∀ newline e, motive (.printInt newline e))
    (branch : ∀ cond yes no, (∀ s ∈ yes, motive s) → (∀ s ∈ no, motive s) →
      motive (.branch cond yes no))
    (loopWhile : ∀ cond body, (∀ s ∈ body, motive s) → motive (.loopWhile cond body))
    (doWhile : ∀ body cond, (∀ s ∈ body, motive s) → motive (.doWhile body cond))
    (loopFor : ∀ init cond step body, (∀ s ∈ init, motive s) → (∀ s ∈ step, motive s) →
      (∀ s ∈ body, motive s) → motive (.loopFor init cond step body)) (s : Stmt) : motive s :=
  @Stmt.rec motive (fun ss => ∀ s ∈ ss, motive s) (fun clause => ∀ s ∈ clause, motive s)
    declare assign setElement eval printText printInt branch loopWhile doWhile loopFor
    (fun _ h => (nomatch h)) (fun _ _ hs hss => List.forall_mem_cons.2 ⟨hs, hss⟩)
    (fun _ h => (nomatch h)) (fun _ hs _ h => Option.mem_some.1 h ▸ hs) s

end TinyScript.Core
