import TinyScript.Machine

/-! What an operation does, once the values of its operands are known, and what a
step does, once it is known what comes next. -/

namespace TinyScript.Machine

open Ir

attribute [local simp] perform step

variable {m : Module} {s : State} {a b : Operand} {v w : Value}

theorem perform_load {type : Ir.Ty} {x : Address} (ha : operand? m s a = some (.address x))
    (h : s.memory.read? x = some v) : perform m s (.load type a) = .ok (gives v) := by
  simp only [perform, ha, orStuck]
  show (do return gives (← orStuck (s.memory.read? x)) : Except Ending _) = _
  rw [h]
  rfl

theorem perform_load_unwritten {type : Ir.Ty} {x : Address}
    (ha : operand? m s a = some (.address x)) (h : s.memory.read? x = none) :
    perform m s (.load type a) = .error .stuck := by
  simp only [perform, ha, orStuck]
  show (do return gives (← orStuck (s.memory.read? x)) : Except Ending _) = _
  rw [h]
  rfl

theorem perform_store {x : Address} (ha : operand? m s a = some v)
    (hb : operand? m s b = some (.address x)) (h : s.memory.contains x = true) :
    perform m s (.store a b) = .ok (.write x v, none) := by
  simp only [perform, ha, hb, orStuck]
  show (if s.memory.contains x then _ else _ : Except Ending _) = _
  rw [if_pos h]
  rfl

theorem perform_store_outside {x : Address} (ha : operand? m s a = some v)
    (hb : operand? m s b = some (.address x)) (h : s.memory.contains x = false) :
    perform m s (.store a b) = .error .stuck := by
  simp only [perform, ha, hb, orStuck]
  show (if s.memory.contains x then _ else _ : Except Ending _) = _
  rw [h, if_neg Bool.false_ne_true]
  rfl

theorem perform_arith {op : ArithOp} {x y : Int32} (ha : operand? m s a = some (.int x))
    (hb : operand? m s b = some (.int y)) :
    perform m s (.arith op a b) = (arith op x y).map fun c => gives (.int c) := by
  simp only [perform, ha, hb, orStuck]
  show (do return gives (.int (← arith op x y)) : Except Ending _) = _
  cases arith op x y with
  | error e => rfl
  | ok c => rfl

theorem perform_icmp {cond : IntCond} {r : Bool} (ha : operand? m s a = some v)
    (hb : operand? m s b = some w) (h : icmp? cond v w = some r) :
    perform m s (.icmp cond a b) = .ok (gives (.bool r)) := by
  simp only [perform, ha, hb, orStuck]
  show (do return gives (.bool (← orStuck (icmp? cond v w))) : Except Ending _) = _
  rw [h]
  rfl

theorem perform_fcmpOne {x y : Number.Double} (ha : operand? m s a = some (.double x))
    (hb : operand? m s b = some (.double y)) :
    perform m s (.fcmpOne a b) = .ok (gives (.bool (orderedAndDiffer x y))) := by
  simp only [perform, ha, hb, orStuck]
  rfl

theorem perform_cast {kind : Cast} {target : Ir.Ty} (ha : operand? m s a = some v)
    (h : cast? kind v = some w) : perform m s (.cast kind a target) = .ok (gives w) := by
  simp only [perform, ha, orStuck]
  show (do return gives (← orStuck (cast? kind v)) : Except Ending _) = _
  rw [h]
  rfl

theorem perform_elementAddress {elem : Ir.Ty} {x : Address} {n : Int32}
    (ha : operand? m s a = some (.address x)) (hb : operand? m s b = some (.int n)) :
    perform m s (.elementAddress elem a b) =
      .ok (gives (.address { x with offset := x.offset + n.toInt })) := by
  simp only [perform, ha, hb, orStuck]
  rfl

theorem perform_firstAddress {n : Nat} {elem : Ir.Ty} {x : Address}
    (ha : operand? m s a = some (.address x)) :
    perform m s (.firstAddress n elem a) = .ok (gives (.address x)) := by
  simp only [perform, ha, orStuck]
  rfl

theorem perform_extract {field : Field} (ha : operand? m s a = some v)
    (h : extract? field v = some w) : perform m s (.extract a field) = .ok (gives w) := by
  simp only [perform, ha, orStuck]
  show (do return gives (← orStuck (extract? field v)) : Except Ending _) = _
  rw [h]
  rfl

theorem perform_insert {field : Field} {r : Value} (ha : operand? m s a = some v)
    (hb : operand? m s b = some w) (h : insert? field v w = some r) :
    perform m s (.insert a b field) = .ok (gives r) := by
  simp only [perform, ha, hb, orStuck]
  show (do return gives (← orStuck (insert? field v w)) : Except Ending _) = _
  rw [h]
  rfl

/-! ### Calls -/

theorem mapM_orStuck {args : List Operand} {vs : List Value}
    (h : args.mapM (operand? m s) = some vs) :
    args.mapM (fun o => orStuck (operand? m s o)) = .ok vs := by
  induction args generalizing vs with
  | nil =>
    cases h
    rfl
  | cons o args ih =>
    simp only [List.mapM_cons, Option.bind_eq_bind, Option.bind_eq_some_iff] at h
    obtain ⟨v, hv, ws, hws, h⟩ := h
    cases h
    rw [List.mapM_cons, hv, ih hws]
    rfl

theorem perform_call {f : External} {args : List Operand} {vs : List Value}
    (h : args.mapM (operand? m s) = some vs) (hf : f ≠ .boundsFail) :
    perform m s (.call f args) = orStuck (call? s f vs) := by
  simp only [perform]
  rw [mapM_orStuck h]
  cases f with
  | boundsFail => exact absurd rfl hf
  | _ => rfl

theorem perform_boundsFail {i n : Int32} (ha : operand? m s a = some (.int i))
    (hb : operand? m s b = some (.int n)) :
    perform m s (.call .boundsFail [a, b]) = .error (.outOfBounds i n) := by
  have h : [a, b].mapM (operand? m s) = some [.int i, .int n] := by
    simp only [List.mapM_cons, List.mapM_nil, ha, hb]
    rfl
  simp only [perform]
  rw [mapM_orStuck h]
  rfl

/-! ### Steps -/

section Step

variable {i : Instr} {rest : List Instr} {target yes no : Nat} {value : Bool}

theorem step_performs {effect : Effect} {r : Option Value} (hbody : s.body = i :: rest)
    (h : perform m s i.op = .ok (effect, r)) :
    step m s = .next (record ({ s with body := rest }.apply effect) i.id r) := by
  simp only [step, hbody, h]

theorem step_fails {e : Ending} (hbody : s.body = i :: rest)
    (h : perform m s i.op = .error e) : step m s = halt s e := by
  simp only [step, hbody, h]

theorem step_jumps (hbody : s.body = []) (hend : s.terminator = .jump target) :
    step m s = enter m s target := by
  simp only [step, hbody, hend]

theorem step_branches (hbody : s.body = []) (hend : s.terminator = .branch a yes no)
    (ha : operand? m s a = some (.bool value)) :
    step m s = enter m s (if value then yes else no) := by
  simp only [step, hbody, hend, ha]

theorem step_returns {n : Int32} (hbody : s.body = []) (hend : s.terminator = .ret (.int n)) :
    step m s = .halt (.returned n) s := by
  simp only [step, hbody, hend, operand?]

end Step

end TinyScript.Machine
