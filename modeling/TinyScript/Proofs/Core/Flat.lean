import TinyScript.Proofs.Ast.Sourced
import TinyScript.Proofs.Core.Typing
import TinyScript.Proofs.Meaning.Places

/-! Types of a program that has a text. Its declarations have scalar types or arrays of
scalars, the elements of its array literals are scalars, and no function has a result that
is more. So every variable and every value in it is a scalar or an array of scalars. -/

namespace TinyScript

/-- A scalar, or an array of scalars. -/
inductive Ty.Flat : Ty → Prop where
  | scalar {t : Ty} (h : t ∈ scalars) : Flat t
  | array {elem : Ty} (h : elem ∈ scalars) : Flat (.array elem)

theorem Ty.Flat.element {elem : Ty} (h : (Ty.array elem).Flat) : elem ∈ scalars := by
  cases h with
  | scalar h => exact absurd h (by simp [scalars])
  | array h => exact h

theorem Library.Function.result_flat (f : Function) (h : f.signature.result ≠ .void) :
    f.signature.result.Flat := by
  refine .scalar ?_
  cases f <;> first | exact absurd rfl h | decide

namespace Meaning

def Place.Flat : Place → Prop
  | cell t => t.Flat
  | storage elem _ => elem ∈ Ty.scalars

/-- All of these places are for scalars or arrays of scalars. -/
def Flat (P : List Place) : Prop := ∀ place ∈ P, place.Flat

theorem Flat.nil : Flat [] := nofun

theorem Flat.append {P Q : List Place} (hP : Flat P) (hQ : Flat Q) : Flat (P ++ Q) :=
  List.forall_mem_append.2 ⟨hP, hQ⟩

theorem Flat.single {place : Place} (h : place.Flat) : Flat [place] :=
  List.forall_mem_singleton.2 h

theorem Flat.get {P : List Place} (h : Flat P) {k : Nat} {place : Place}
    (hk : P[k]? = some place) : place.Flat := h place (List.mem_of_getElem? hk)

namespace Source

open Ast.Grammar (suggested)

end Source

end Meaning

namespace Core

open Meaning (Flat Place)

variable {L : List Place}

/-! ### The parts of a program -/

/-- What an expression is directly made of. -/
def Expr.operands : Expr → List Expr
  | .str _ | .int _ | .float _ | .bool _ | .load _ => []
  | .arith _ l r | .compare _ l r | .sameText _ l r => [l, r]
  | .nonzero e | .length e => [e]
  | .array _ _ es | .call _ es => es
  | .element _ a i => [a, i]

/-- The expressions in an expression, itself among them. -/
inductive Expr.Part : Expr → Expr → Prop where
  | self (e : Expr) : Part e e
  | operand {e' o e : Expr} (ho : o ∈ e.operands) (h : Part e' o) : Part e' e

/-- The values that a statement uses itself. A call without a result is none, but its
arguments are. -/
def Stmt.values : Stmt → List Expr
  | .declare _ init => init.toList.map (·.value)
  | .assign _ s => [s.value]
  | .setElement _ a i e => [a, i, e]
  | .eval (.call f args) => if f.signature.result = .void then args else [.call f args]
  | .eval e | .printText _ e | .printInt _ e => [e]
  | .branch cond _ _ | .loopWhile cond _ | .doWhile _ cond => [cond]
  | .loopFor _ cond _ _ => cond.toList

/-- The statements that a statement is directly made of. -/
def Stmt.inner : Stmt → List Stmt
  | .branch _ yes no => yes ++ no
  | .loopWhile _ body | .doWhile body _ => body
  | .loopFor init _ step body => init.toList ++ body ++ step.toList
  | _ => []

/-- The statements in a statement, itself among them. -/
inductive Stmt.Part : Stmt → Stmt → Prop where
  | self (s : Stmt) : Part s s
  | inner {s' i s : Stmt} (hi : i ∈ s.inner) (h : Part s' i) : Part s' s

/-- The types of the variables that a program declares and of the values in it. -/
inductive Program.Mentions (q : Program) : Ty → Prop where
  | declared {s : Stmt} {v : Var} {init : Option Stored} (hs : s ∈ q)
      (h : Stmt.Part (.declare v init) s) : Mentions q v.type
  | value {s s' : Stmt} {e e' : Expr} (hs : s ∈ q) (hpart : Stmt.Part s' s) (he : e ∈ s'.values)
      (h : Expr.Part e' e) : Mentions q e'.type

/-- The values in a program, and their parts. -/
def Program.Holds (q : Program) (e : Expr) : Prop :=
  ∃ s ∈ q, ∃ s' e₀, Stmt.Part s' s ∧ e₀ ∈ s'.values ∧ Expr.Part e e₀

/-! ### Their types -/

theorem Typed.operand {o e : Expr} (h : Typed L e) (ho : o ∈ e.operands) : Typed L o := by
  cases h with
  | str | int | float | bool | load => cases ho
  | arith _ hl hr | compare _ hl hr | sameText _ hl hr =>
    rcases List.mem_pair.1 ho with rfl | rfl
    · exact hl
    · exact hr
  | nonzero h | length h =>
    obtain rfl := List.mem_singleton.1 ho
    exact h
  | array h | call h => exact h o ho
  | element ha hi =>
    rcases List.mem_pair.1 ho with rfl | rfl
    · exact ha
    · exact hi

theorem Typed.part {e' e : Expr} (h : Typed L e) (hpart : Expr.Part e' e) : Typed L e' := by
  induction hpart with
  | self => exact h
  | operand ho _ ih => exact ih (h.operand ho)

theorem Typed.flat (flat : Flat L) {e : Expr} (h : Typed L e) : e.type.Flat := by
  induction h with
  | load place => exact flat.get place
  | array _ _ place => exact .array (flat.get place)
  | element _ _ atype _ ha =>
    rw [atype] at ha
    exact .scalar ha.element
  | @call f _ _ _ result => exact f.result_flat result
  | _ => exact .scalar (by simp [Expr.type, Ty.scalars])

theorem Stmt.Typed.value {s : Stmt} {e : Expr} (h : s.Typed L) (he : e ∈ s.values) :
    Core.Typed L e := by
  cases h with
  | declare => cases he
  | init value | assign value =>
    obtain rfl := List.mem_singleton.1 he
    exact value.value
  | setElement array index value =>
    simp only [values, List.mem_cons, List.not_mem_nil, or_false] at he
    rcases he with rfl | rfl | rfl
    · exact array
    · exact index
    · exact value
  | @call f es args types =>
    rw [values] at he
    split at he
    · exact args e he
    · rename_i hresult
      obtain rfl := List.mem_singleton.1 he
      exact .call args types hresult
  | @eval e₀ value =>
    cases value with
    | call args types result =>
      rw [values, if_neg result] at he
      obtain rfl := List.mem_singleton.1 he
      exact .call args types result
    | _ =>
      obtain rfl := List.mem_singleton.1 he
      constructor <;> assumption
  | printText _ value | printInt _ value =>
    obtain rfl := List.mem_singleton.1 he
    exact value
  | branch condition | loopWhile condition =>
    obtain rfl := List.mem_singleton.1 he
    exact condition.value
  | doWhile _ condition =>
    obtain rfl := List.mem_singleton.1 he
    exact condition.value
  | loopFor _ condition => exact (condition e (Option.mem_toList.1 he)).value

theorem Stmt.Typed.inner {s i : Stmt} (h : s.Typed L) (hi : i ∈ s.inner) : i.Typed L := by
  cases h with
  | branch _ first second => exact (List.mem_append.1 hi).elim (first i) (second i)
  | loopWhile _ turn | doWhile turn => exact turn i hi
  | loopFor first _ turn last =>
    simp only [Stmt.inner, List.mem_append, Option.mem_toList] at hi
    rcases hi with (hfirst | hturn) | hlast
    · exact first i hfirst
    · exact turn i hturn
    · exact last i hlast
  | _ => cases hi

theorem Stmt.Typed.part {s' s : Stmt} (h : s.Typed L) (hpart : Stmt.Part s' s) : s'.Typed L := by
  induction hpart with
  | self => exact h
  | inner hi _ ih => exact ih (h.inner hi)

theorem Stmt.Typed.place {v : Var} {init : Option Stored}
    (h : Stmt.Typed L (.declare v init)) : L[v.slot]? = some (.cell v.type) := by
  cases h with
  | declare place => exact place
  | init value => exact value.place

theorem Program.Typed.value {q : Program} (typed : q.Typed) {e : Expr} (h : q.Holds e) :
    Core.Typed (Meaning.Resolved.stmtsPlaces q) e := by
  obtain ⟨s, hs, s', e₀, hpart, he₀, he⟩ := h
  exact (((typed s hs).part hpart).value he₀).part he

theorem Program.Typed.flat {q : Program} (typed : q.Typed)
    (flat : Flat (Meaning.Resolved.stmtsPlaces q)) {t : Ty} (h : q.Mentions t) : t.Flat := by
  cases h with
  | declared hs hpart => exact flat.get ((typed _ hs).part hpart).place
  | value hs hpart he h => exact (typed.value ⟨_, hs, _, _, hpart, he, h⟩).flat flat

end Core

end TinyScript
