import Mathlib.Algebra.Group.Int.Defs
import TinyScript.Compile
import TinyScript.Proofs.Meaning.Places

/-! Types alone decide. A judge goes through a program as it is written and keeps
the types of the names declared so far and the warnings it has raised, and nothing
else: no slots, no values, no code. What it finds to have a type has values of that
type, so nothing has to be asked about that. -/

namespace TinyScript.Core.Judge

open Ast (BinaryOp)

/-- The types of the names declared so far. -/
abbrev Types := String → Option Ty

abbrev Verdict := Except CheckError

/-! ### Expressions -/

def isComparison : BinaryOp → Bool
  | .eq | .ne | .lt | .le | .gt | .ge => true
  | .add | .sub | .mul | .div | .rem => false

/-- Integers have every operator, booleans the comparisons, strings only
equality and its negation. -/
def operation (op : BinaryOp) : Ty → Ty → Option Ty
  | .i32, .i32 => some (if isComparison op then .bool else .i32)
  | .bool, .bool => if isComparison op then some .bool else none
  | .str, .str => if op = .eq ∨ op = .ne then some .bool else none
  | _, _ => none

def arity : Builtin → Nat
  | .print _ => 1
  | .library f => f.signature.params.length

def result : Builtin → Ty
  | .print _ => .void
  | .library f => f.signature.result

/-- Whether an argument may have a type; the first argument has position zero. -/
def takes (name : String) (f : Builtin) (position : Nat) (actual : Ty) : Verdict Unit :=
  match f with
  | .print _ => if actual = .str ∨ actual = .i32 then .ok () else .error (.printArgument actual)
  | .library f =>
    match f.signature.params[position]? with
    | none => .ok ()
    | some expected =>
      if actual = expected then .ok ()
      else .error (.argumentType name (position + 1) expected actual)

/-- The result of a call, its arguments being looked at with what the function takes. -/
def applied (name : String) (count : Nat) (arguments : (Nat → Ty → Verdict Unit) → Verdict Unit) :
    Verdict Ty :=
  match Builtin.ofName? name with
  | none => .error (.unknownFunction name)
  | some f =>
    if count = arity f then do
      arguments (takes name f)
      return result f
    else .error (.argumentCount name (arity f) count)

def lookup (types : Types) (name : String) : Verdict Ty :=
  match types name with
  | some t => .ok t
  | none => .error (.unknownVariable name)

mutual

def expr (types : Types) : Ast.Expr → Verdict Ty
  | .str _ => .ok .str
  | .int n =>
    if -2 ^ 31 ≤ n ∧ n < 2 ^ 31 then .ok .i32
    else .error (.unsupported "an integer literal outside the i32 range")
  | .float _ => .ok .f64
  | .bool _ => .ok .bool
  | .var name => lookup types name
  | .binary op l r => do
    let lhs ← expr types l
    let rhs ← expr types r
    match operation op lhs rhs with
    | some t => .ok t
    | none => .error (.invalidOperands op lhs rhs)
  | .array hint es =>
    match Ty.ofName? hint with
    | none => .error (.unknownType hint)
    | some elem => do
      elements types elem es
      return .array elem
  | .index a i => do
    match ← expr types a with
    | .array elem => do
      match ← expr types i with
      | .i32 => .ok elem
      | t => .error (.indexType t)
    | t => .error (.notAnArray t)
  | .object _ => .error (.unsupported "object literal")
  | .member base name =>
    if name = "length" then do
      match ← expr types base with
      | .array _ => .ok .i32
      | t => .error (.lengthOfNonArray t)
    else .error (.unsupported "object property access")
  | .call name args => do
    match ← applied name args.length fun takes => arguments types takes 0 args with
    | .void => .error (.voidValue name)
    | t => .ok t

def elements (types : Types) (elem : Ty) : List Ast.Expr → Verdict Unit
  | [] => .ok ()
  | e :: es => do
    let actual ← expr types e
    if actual = elem then elements types elem es else .error (.arrayElementType elem actual)

def arguments (types : Types) (takes : Nat → Ty → Verdict Unit) (position : Nat) :
    List Ast.Expr → Verdict Unit
  | [] => .ok ()
  | e :: es => do
    takes position (← expr types e)
    arguments types takes (position + 1) es

end

def call (types : Types) (name : String) (args : List Ast.Expr) : Verdict Ty :=
  applied name args.length fun takes => arguments types takes 0 args

def condition (types : Types) (e : Ast.Expr) : Verdict Unit := do
  match ← expr types e with
  | .bool | .i32 => .ok ()
  | t => .error (.conditionType t)

/-! ### Statements -/

structure State where
  types : Types
  /-- In the order raised. -/
  warnings : List Warning

def State.empty : State := ⟨fun _ => none, []⟩

def State.warn (s : State) (w : Warning) : State := { s with warnings := s.warnings ++ [w] }

def State.declare (s : State) (name : String) (type : Ty) : State :=
  { s with types := fun n => if n = name then some type else s.types n }

/-- Types whose values a store converts into each other. -/
def isConvertible : Ty → Bool
  | .i32 | .f64 | .bool => true
  | .str | .void | .array _ => false

def store (name : String) (declared actual : Ty) (s : State) : Verdict State :=
  if actual = declared then .ok s
  else if isConvertible declared ∧ isConvertible actual then
    .ok (s.warn (.typeMismatch name declared actual))
  else .error (.incompatibleValue name declared actual)

/-- The type that an initial value shows by its form: literals and array literals do. -/
def shown : Option Ast.Expr → Option Ty
  | some (.str _) => some .str
  | some (.int _) => some .i32
  | some (.float _) => some .f64
  | some (.bool _) => some .bool
  | some (.array hint _) => some (.array ((Ty.ofName? hint).getD .i32))
  | _ => none

def annotated (name type : String) (init : Option Ast.Expr) (s : State) : Verdict (Ty × State) :=
  if type = Ast.auto then
    match shown init with
    | some t => .ok (t, s)
    | none => .ok (.i32, s.warn (.inferredDefault name))
  else
    match Ty.ofName? type with
    | some t => .ok (t, s)
    | none => .error (.unknownType type)

def declare (name type : String) (init : Option Ast.Expr) (s : State) : Verdict State := do
  let (declared, s) ← annotated name type init s
  match init with
  | none => return s.declare name declared
  | some e => do
    let actual ← expr s.types e
    let s ← store name declared actual s
    return s.declare name declared

mutual

def stmt : Ast.Stmt → State → Verdict State
  | .declare name type init, s => declare name type init s
  | .assign name value, s => do
    let declared ← lookup s.types name
    let actual ← expr s.types value
    store name declared actual s
  | .setElement a i v, s => do
    let elem ← expr s.types (.index a i)
    let actual ← expr s.types v
    if actual = elem then .ok s else .error (.arrayElementType elem actual)
  | .expr (.call name args), s => do
    let _ ← call s.types name args
    return s
  | .expr e, s => do
    let _ ← expr s.types e
    return s
  | .branch cond yes no, s => do
    condition s.types cond
    stmts no (← stmts yes s)
  | .loopWhile cond body, s => do
    condition s.types cond
    stmts body s
  | .doWhile body cond, s => do
    let s ← stmts body s
    condition s.types cond
    return s
  | .loopFor init cond step body, s => do
    let s ← clause init s
    match cond with
    | none => clause step (← stmts body s)
    | some cond => do
      condition s.types cond
      clause step (← stmts body s)

def clause : Option Ast.Stmt → State → Verdict State
  | none, s => .ok s
  | some s, st => stmt s st

def stmts : List Ast.Stmt → State → Verdict State
  | [], s => .ok s
  | s :: ss, st => do stmts ss (← stmt s st)

end

/-- The warnings about a program, if it is accepted. -/
def program (p : Ast.Program) : Verdict (List Warning) := do
  return (← stmts p .empty).warnings

/-! ### Types that are judged have values -/

section Values

theorem bind_eq_ok {ε α β : Type} {x : Except ε α} {f : α → Except ε β} {b : β}
    (h : (x >>= f) = .ok b) : ∃ a, x = .ok a ∧ f a = .ok b := by
  cases x with
  | error e => cases h
  | ok a => exact ⟨a, rfl, h⟩

variable {types : Types} {t : Ty}

theorem lookup_eq_ok {name : String} (h : lookup types name = .ok t) : types name = some t := by
  unfold lookup at h
  split at h
  · rename_i hname
    cases h
    exact hname
  · cases h

theorem operation_type {op : BinaryOp} {lhs rhs : Ty} (h : operation op lhs rhs = some t) :
    t = if isComparison op then .bool else .i32 := by
  unfold operation at h
  split at h
  · cases h
    rfl
  · split at h
    · rename_i hop
      cases h
      rw [if_pos hop]
    · cases h
  · split at h
    · rename_i hop
      cases h
      obtain rfl | rfl := hop <;> rfl
    · cases h
  · cases h

theorem applied_eq_ok {name : String} {count : Nat}
    {arguments : (Nat → Ty → Verdict Unit) → Verdict Unit}
    (h : applied name count arguments = .ok t) :
    t = ((Builtin.ofName? name).map result).getD .void := by
  unfold applied at h
  split at h
  · cases h
  · rename_i f hname
    rw [hname]
    split at h
    · obtain ⟨_, _, h⟩ := bind_eq_ok h
      cases h
      rfl
    · cases h

/-- All names have types with values. -/
def AllSolid (types : Types) : Prop := ∀ name t, types name = some t → t.Solid

theorem operation_solid {op : BinaryOp} {lhs rhs : Ty} (h : operation op lhs rhs = some t) :
    t.Solid := by
  rw [operation_type h]
  split <;> trivial

theorem result_solid (f : Builtin) : result f = .void ∨ (result f).Solid := by
  cases f with
  | print newline => exact .inl rfl
  | library f => cases f <;> first | exact .inl rfl | exact .inr trivial

/-- What is judged to have a type has values of it. -/
theorem expr_solid (htypes : AllSolid types) {e : Ast.Expr} (h : expr types e = .ok t) :
    t.Solid := by
  induction e using Ast.Expr.induct generalizing t with
  | str s | float d | bool b =>
    cases h
    trivial
  | int n =>
    rw [expr] at h
    split at h
    · cases h
      trivial
    · cases h
  | var name => exact htypes name t (lookup_eq_ok h)
  | binary op l r _ _ =>
    obtain ⟨lhs, _, h⟩ := bind_eq_ok h
    obtain ⟨rhs, _, h⟩ := bind_eq_ok h
    split at h
    · rename_i hop
      cases h
      exact operation_solid hop
    · cases h
  | array hint es _ =>
    rw [expr] at h
    split at h
    · cases h
    · rename_i elem helem
      obtain ⟨_, _, h⟩ := bind_eq_ok h
      cases h
      show elem.Solid
      exact Ty.solid_ofName? helem
  | index a i ha _ =>
    obtain ⟨array, harray, h⟩ := bind_eq_ok h
    split at h
    · obtain ⟨index, _, h⟩ := bind_eq_ok h
      split at h
      · cases h
        have hsolid : (Ty.array t).Solid := ha harray
        exact hsolid
      · cases h
    · cases h
  | object fs => cases h
  | member base name _ =>
    rw [expr] at h
    split at h
    · obtain ⟨array, _, h⟩ := bind_eq_ok h
      split at h
      · cases h
        trivial
      · cases h
    · cases h
  | call name args _ =>
    obtain ⟨u, hcall, h⟩ := bind_eq_ok h
    split at h
    · cases h
    · rename_i hvoid
      cases h
      have htype := applied_eq_ok hcall
      cases hname : Builtin.ofName? name with
      | none =>
        rw [hname] at htype
        exact absurd htype hvoid
      | some f =>
        rw [hname] at htype
        rw [htype]
        exact (result_solid f).resolve_left fun hresult => hvoid (htype.trans hresult)

end Values

end TinyScript.Core.Judge
