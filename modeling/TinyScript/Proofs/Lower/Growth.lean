import TinyScript.Proofs.Lower.Assembly
import TinyScript.Proofs.Meaning.Resolved

/-! Lowering grows the module under construction: it takes nothing back, and the
slots it adds are those of the declarations and array literals of what is lowered,
in their order. -/

namespace TinyScript

/-- What holds a place. -/
def Meaning.Place.type : Place → Ir.Ty
  | cell t => .ofSource t
  | storage elem n => .array n (.ofSource elem)

namespace Core.Lower

open Ir (Operand)
open Ir.Builder
open Meaning

variable {checked : Bool}

/-- The types of slots for places. -/
abbrev slotTypes (P : List Place) : List Ir.Ty := P.map Place.type

theorem slotTypes_append (P Q : List Place) : slotTypes P ++ slotTypes Q = slotTypes (P ++ Q) :=
  List.map_append.symm

/-! ### Parts of expressions -/

theorem compare_grows (cond : Ir.IntCond) (a b : Operand) : Grows [] (compare cond a b) :=
  emit_grows _ _ _

theorem convert_grows (v : Operand) (c : Conversion) : Grows [] (convert v c) := by
  cases c <;> exact emit_grows _ _ _

theorem checkBounds_grows (slice index : Operand) : Grows [] (checkBounds slice index) := by
  refine (emit_grows _ _ _).seq fun len => ?_
  refine (emit_grows _ _ _).seq fun within => ?_
  refine (create_grows _).seq fun ok => ?_
  refine (create_grows _).seq fun fail => ?_
  refine (endBlock_grows _ _).seq fun _ => ?_
  refine (declare_grows _).seq fun _ => ?_
  refine (emitVoid_grows _).seq fun _ => ?_
  exact endBlock_grows _ _

theorem elementAddress_grows (elem : Ir.Ty) (slice index : Operand) :
    Grows [] (elementAddress checked elem slice index) := by
  have tail : Grows [] (do
      let data ← emit "arr.ptr" (.ptr elem) (.extract slice .data)
      emit "elem.ptr" (.ptr elem) (.elementAddress elem data index)) :=
    (emit_grows _ _ _).seq fun _ => emit_grows _ _ _
  cases checked with
  | true => exact (checkBounds_grows slice index).seq fun _ => tail
  | false => exact tail

theorem fill_grows (elem : Ir.Ty) (data : Operand) (k : Nat) (vs : List Operand) :
    Grows [] (fill elem data k vs) := by
  induction vs generalizing k with
  | nil => exact .pure ()
  | cons v vs ih =>
    refine (emit_grows _ _ _).seq fun address => ?_
    refine (emitVoid_grows _).seq fun _ => ?_
    exact ih (k + 1)

theorem slice_grows (slot : Nat) (elem : Ir.Ty) (values : List Operand) :
    Grows [.array values.length elem] (slice slot elem values) := by
  refine ((addSlot_grows _ _).bind fun _ => ?_).congr (List.append_nil _)
  refine (emit_grows _ _ _).seq fun data => ?_
  refine (fill_grows _ _ _ _).seq fun _ => ?_
  refine (emit_grows _ _ _).seq fun half => ?_
  exact emit_grows _ _ _

theorem pass_grows (type : Ty) (v : Operand) : Grows [] (pass type v) := by
  cases type with
  | array elem =>
    refine (emit_grows _ _ _).seq fun data => ?_
    refine (emit_grows _ _ _).seq fun len => ?_
    exact .pure _
  | str | i32 | f64 | bool | void => exact .pure _

theorem call_grows (f : Library.Function) (args : List Operand) : Grows [] (call f args) := by
  unfold call
  refine (declare_grows _).seq fun _ => ?_
  split
  · exact (emitVoid_grows _).seq fun _ => .pure _
  · exact emit_grows _ _ _

/-! ### Expressions -/

/-- There are as many operands as expressions. -/
theorem length_exprs (es : List Expr) (b : Ir.Builder) :
    ((exprs checked es).run b).1.length = es.length := by
  induction es generalizing b with
  | nil => rfl
  | cons e es ih => exact congrArg (· + 1) (ih _)

/-- An expression adds the slots of its array literals. -/
def ExprGrows (checked : Bool) (e : Expr) : Prop :=
  Grows (slotTypes (Resolved.places e)) (expr checked e)

theorem exprs_grow {es : List Expr} (h : ∀ e ∈ es, ExprGrows checked e) :
    Grows (slotTypes (Resolved.placesIn es)) (exprs checked es) := by
  induction es with
  | nil => exact .pure _
  | cons e es ih =>
    refine ((h e List.mem_cons_self).bind fun _ => ?_).congr (slotTypes_append _ _)
    refine ((ih fun e he => h e (List.mem_cons_of_mem _ he)).bind fun _ => ?_).congr
      (List.append_nil _)
    exact .pure _

theorem arguments_grow {es : List Expr} (h : ∀ e ∈ es, ExprGrows checked e) :
    Grows (slotTypes (Resolved.placesIn es)) (arguments checked es) := by
  induction es with
  | nil => exact .pure _
  | cons e es ih =>
    refine ((h e List.mem_cons_self).bind fun _ => ?_).congr (slotTypes_append _ _)
    refine (pass_grows _ _).seq fun passed => ?_
    refine ((ih fun e he => h e (List.mem_cons_of_mem _ he)).bind fun _ => ?_).congr
      (List.append_nil _)
    exact .pure _

/-- Two operands and something that adds no slots. -/
theorem binary_grows {l r : Expr} {f : Operand → Operand → Build Operand}
    (hl : ExprGrows checked l) (hr : ExprGrows checked r) (hf : ∀ a b, Grows [] (f a b)) :
    Grows (slotTypes (Resolved.places l ++ Resolved.places r))
      (do let a ← expr checked l; let b ← expr checked r; f a b) := by
  refine (hl.bind fun _ => ?_).congr (slotTypes_append _ _)
  exact (hr.bind fun _ => hf _ _).congr (List.append_nil _)

theorem expr_grows (e : Expr) : ExprGrows checked e := by
  induction e using Expr.induct with
  | str s => exact text_grows s
  | int n => exact .pure _
  | float d => exact .pure _
  | bool b => exact .pure _
  | load v => exact emit_grows _ _ _
  | arith op l r hl hr => exact binary_grows hl hr fun _ _ => emit_grows _ _ _
  | compare op l r hl hr => exact binary_grows hl hr fun _ _ => compare_grows _ _ _
  | sameText negated l r hl hr =>
    refine binary_grows hl hr fun _ _ => ?_
    refine (declare_grows _).seq fun _ => ?_
    refine (emit_grows _ _ _).seq fun order => ?_
    exact compare_grows _ _ _
  | nonzero e he => exact (he.bind fun _ => emit_grows _ _ _).congr (List.append_nil _)
  | array slot elem es hes =>
    refine ((exprs_grow hes).bind fun b => ?_).congr (slotTypes_append _ _)
    refine (slice_grows _ _ _).congr ?_
    rw [length_exprs]
    rfl
  | element elem a i ha hi =>
    refine binary_grows ha hi fun _ _ => ?_
    refine (elementAddress_grows _ _ _).seq fun address => ?_
    exact emit_grows _ _ _
  | length a ha => exact (ha.bind fun _ => emit_grows _ _ _).congr (List.append_nil _)
  | call f es hes =>
    exact ((arguments_grow hes).bind fun _ => call_grows _ _).congr (List.append_nil _)

/-! ### Statements -/

theorem store_grows (v : Var) (c : Option Conversion) (value : Operand) :
    Grows [] (store v c value) := by
  have tail : ∀ value, Grows []
      (emitVoid (.store value (.slot v.slot (.ofSource v.type)))) := fun _ => emitVoid_grows _
  cases c with
  | none => exact tail value
  | some c => exact (convert_grows value c).seq fun value => tail value

theorem printf_grows (format : String) (v : Operand) : Grows [] (printf format v) := by
  refine (declare_grows _).seq fun _ => ?_
  refine (text_grows _).seq fun _ => ?_
  exact (emit_grows _ _ _).seq fun _ => .pure _

theorem printText_grows (newline : Bool) (v : Operand) : Grows [] (printText newline v) := by
  cases newline with
  | true =>
    refine (declare_grows _).seq fun _ => ?_
    exact (emit_grows _ _ _).seq fun _ => .pure _
  | false => exact printf_grows _ _

theorem declareVar_grows (v : Var) (init : Option Stored) :
    Grows (slotTypes (Resolved.stmtPlaces (.declare v init))) (declareVar checked v init) := by
  cases init with
  | none => exact addSlot_grows _ _
  | some s =>
    refine ((expr_grows s.value).bind fun _ => ?_).congr (slotTypes_append _ _)
    exact ((addSlot_grows _ _).bind fun _ => store_grows _ _ _).congr (List.append_nil _)

/-- A statement adds the slots of its declarations and array literals. -/
def StmtGrows (checked : Bool) (s : Stmt) : Prop :=
  Grows (slotTypes (Resolved.stmtPlaces s)) (stmt checked s)

theorem stmts_grow {ss : List Stmt} (h : ∀ s ∈ ss, StmtGrows checked s) :
    Grows (slotTypes (Resolved.stmtsPlaces ss)) (stmts checked ss) := by
  induction ss with
  | nil => exact .pure _
  | cons s ss ih =>
    refine ((h s List.mem_cons_self).bind fun _ => ?_).congr (slotTypes_append _ _)
    exact ih fun s hs => h s (List.mem_cons_of_mem _ hs)

theorem clause_grows {s : Option Stmt} (h : ∀ s' ∈ s, StmtGrows checked s') :
    Grows (slotTypes (Resolved.clausePlaces s)) (clause checked s) := by
  cases s with
  | none => exact .pure _
  | some s => exact h s rfl

/-- What is lowered before the end of a block. -/
theorem ended_grows {α : Type} {x : Build α} {ts : List Ir.Ty} (hx : Grows ts x)
    (t : α → Ir.Terminator) (next : Nat) : Grows ts (do let a ← x; endBlock (t a) next) :=
  (hx.bind fun _ => endBlock_grows _ _).congr (List.append_nil _)

theorem branch_grows {cond : Expr} {yes no : List Stmt}
    (hyes : ∀ s ∈ yes, StmtGrows checked s) (hno : ∀ s ∈ no, StmtGrows checked s) :
    StmtGrows checked (.branch cond yes no) := by
  have hy := stmts_grow hyes
  have hn := stmts_grow hno
  unfold StmtGrows
  rw [Resolved.stmtPlaces, List.append_assoc, ← slotTypes_append]
  refine (expr_grows cond).bind fun _ => ?_
  refine (create_grows _).seq fun thenBlock => ?_
  split
  · rename_i hempty
    rw [List.isEmpty_iff.1 hempty, Resolved.stmtsPlaces, List.append_nil]
    refine (create_grows _).seq fun merge => ?_
    refine (endBlock_grows _ _).seq fun _ => ?_
    exact ended_grows hy (fun _ => _) _
  · refine (create_grows _).seq fun elseBlock => ?_
    refine (create_grows _).seq fun merge => ?_
    refine (endBlock_grows _ _).seq fun _ => ?_
    refine (hy.bind fun _ => ?_).congr (slotTypes_append _ _)
    refine (endBlock_grows _ _).seq fun _ => ?_
    exact ended_grows hn (fun _ => _) _

theorem loopWhile_grows {cond : Expr} {body : List Stmt}
    (hbody : ∀ s ∈ body, StmtGrows checked s) : StmtGrows checked (.loopWhile cond body) := by
  refine (create_grows _).seq fun condBlock => ?_
  refine (create_grows _).seq fun bodyBlock => ?_
  refine (create_grows _).seq fun exit => ?_
  refine (endBlock_grows _ _).seq fun _ => ?_
  refine ((expr_grows cond).bind fun _ => ?_).congr (slotTypes_append _ _)
  refine (endBlock_grows _ _).seq fun _ => ?_
  exact ended_grows (stmts_grow hbody) (fun _ => _) _

theorem doWhile_grows {body : List Stmt} {cond : Expr}
    (hbody : ∀ s ∈ body, StmtGrows checked s) : StmtGrows checked (.doWhile body cond) := by
  refine (create_grows _).seq fun bodyBlock => ?_
  refine (create_grows _).seq fun condBlock => ?_
  refine (create_grows _).seq fun exit => ?_
  refine (endBlock_grows _ _).seq fun _ => ?_
  refine ((stmts_grow hbody).bind fun _ => ?_).congr (slotTypes_append _ _)
  refine (endBlock_grows _ _).seq fun _ => ?_
  exact ended_grows (expr_grows cond) (fun _ => _) _

theorem guard_grows (cond : Option Expr) (bodyBlock exit : Nat) :
    Grows (slotTypes ((cond.map Resolved.places).getD [])) (guard checked cond bodyBlock exit) := by
  cases cond with
  | none => exact endBlock_grows _ _
  | some cond => exact ended_grows (expr_grows cond) (fun _ => _) _

theorem loopFor_grows {init step : Option Stmt} {cond : Option Expr} {body : List Stmt}
    (hinit : ∀ s ∈ init, StmtGrows checked s) (hstep : ∀ s ∈ step, StmtGrows checked s)
    (hbody : ∀ s ∈ body, StmtGrows checked s) :
    StmtGrows checked (.loopFor init cond step body) := by
  unfold StmtGrows
  rw [Resolved.stmtPlaces, List.append_assoc, List.append_assoc, ← slotTypes_append]
  refine (clause_grows hinit).bind fun _ => ?_
  refine (create_grows _).seq fun condBlock => ?_
  refine (create_grows _).seq fun bodyBlock => ?_
  refine (create_grows _).seq fun stepBlock => ?_
  refine (create_grows _).seq fun exit => ?_
  refine (endBlock_grows _ _).seq fun _ => ?_
  refine ((guard_grows cond bodyBlock exit).bind fun _ => ?_).congr (slotTypes_append _ _)
  refine ((stmts_grow hbody).bind fun _ => ?_).congr (slotTypes_append _ _)
  refine (endBlock_grows _ _).seq fun _ => ?_
  exact ended_grows (clause_grows hstep) (fun _ => _) _

theorem stmt_grows (s : Stmt) : StmtGrows checked s := by
  induction s using Stmt.induct with
  | declare v init => exact declareVar_grows v init
  | assign v s =>
    exact ((expr_grows s.value).bind fun _ => store_grows _ _ _).congr (List.append_nil _)
  | setElement elem a i e =>
    unfold StmtGrows
    rw [Resolved.stmtPlaces, List.append_assoc, ← slotTypes_append]
    refine (expr_grows a).bind fun _ => ?_
    refine ((expr_grows i).bind fun _ => ?_).congr (slotTypes_append _ _)
    refine (elementAddress_grows _ _ _).seq fun address => ?_
    exact ((expr_grows e).bind fun _ => emitVoid_grows _).congr (List.append_nil _)
  | eval e => exact ((expr_grows e).bind fun _ => .pure ()).congr (List.append_nil _)
  | printText newline e =>
    exact ((expr_grows e).bind fun _ => printText_grows _ _).congr (List.append_nil _)
  | printInt newline e =>
    exact ((expr_grows e).bind fun _ => printf_grows _ _).congr (List.append_nil _)
  | branch cond yes no hyes hno => exact branch_grows hyes hno
  | loopWhile cond body hbody => exact loopWhile_grows hbody
  | doWhile body cond hbody => exact doWhile_grows hbody
  | loopFor init cond step body hinit hstep hbody => exact loopFor_grows hinit hstep hbody

theorem program_grows (p : Program) :
    Grows (slotTypes (Resolved.stmtsPlaces p)) (stmts checked p) :=
  stmts_grow fun s _ => stmt_grows s

theorem final_stage (p : Program) (options : Options) :
    Stage (p.lower options) (final p options) := by
  refine ⟨⟨_, mem_lower_blocks.2 (.inl rfl), rfl, List.prefix_refl _⟩,
    fun block hblock => mem_lower_blocks.2 (.inr hblock), ?_, ?_, ?_⟩
  · exact lower_symbols p options ▸ List.prefix_refl _
  · exact lower_slots_eq p options ▸ List.prefix_refl _
  · exact lower_hints p options ▸ List.prefix_refl _

/-- The slots of a module are those of the places of its program. -/
theorem lower_slots (p : Program) (options : Options) :
    (p.lower options).main.slots.map Ir.Slot.type = slotTypes (Resolved.stmtsPlaces p) := by
  rw [lower_slots_eq]
  exact (program_grows p).slots start

/-! ### Lowering as building -/

instance (cond : Ir.IntCond) (a b : Operand) : Building (compare cond a b) :=
  (compare_grows cond a b).building

instance (v : Operand) (c : Conversion) : Building (convert v c) := (convert_grows v c).building

instance (slice index : Operand) : Building (checkBounds slice index) :=
  (checkBounds_grows slice index).building

instance (elem : Ir.Ty) (slice index : Operand) :
    Building (elementAddress checked elem slice index) :=
  (elementAddress_grows elem slice index).building

instance (elem : Ir.Ty) (data : Operand) (k : Nat) (vs : List Operand) :
    Building (fill elem data k vs) := (fill_grows elem data k vs).building

instance (slot : Nat) (elem : Ir.Ty) (values : List Operand) : Building (slice slot elem values) :=
  (slice_grows slot elem values).building

instance (type : Ty) (v : Operand) : Building (pass type v) := (pass_grows type v).building

instance (f : Library.Function) (args : List Operand) : Building (call f args) :=
  (call_grows f args).building

instance (e : Expr) : Building (expr checked e) := (expr_grows e).building

instance (es : List Expr) : Building (exprs checked es) :=
  (exprs_grow fun e _ => expr_grows e).building

instance (es : List Expr) : Building (arguments checked es) :=
  (arguments_grow fun e _ => expr_grows e).building

instance (v : Var) (c : Option Conversion) (value : Operand) : Building (store v c value) :=
  (store_grows v c value).building

instance (format : String) (v : Operand) : Building (printf format v) :=
  (printf_grows format v).building

instance (newline : Bool) (v : Operand) : Building (printText newline v) :=
  (printText_grows newline v).building

instance (cond : Option Expr) (bodyBlock exit : Nat) :
    Building (guard checked cond bodyBlock exit) := (guard_grows cond bodyBlock exit).building

instance (s : Stmt) : Building (stmt checked s) := (stmt_grows s).building

instance (ss : List Stmt) : Building (stmts checked ss) :=
  (stmts_grow fun s _ => stmt_grows s).building

instance (s : Option Stmt) : Building (clause checked s) :=
  (clause_grows fun s _ => stmt_grows s).building

/-! ### Parts of statements -/

/-- A branch with one arm, once its condition is there. -/
def oneArm (checked : Bool) (c : Operand) (yes : List Stmt) : Build Unit := do
  let thenBlock ← create "then"
  let merge ← create "merge"
  endBlock (.branch c thenBlock merge) thenBlock
  stmts checked yes
  endBlock (.jump merge) merge

instance (c : Operand) (yes : List Stmt) : Building (oneArm checked c yes) := by
  unfold oneArm
  infer_instance

/-- A branch with two arms, once its condition is there. -/
def twoArms (checked : Bool) (c : Operand) (yes no : List Stmt) : Build Unit := do
  let thenBlock ← create "then"
  let elseBlock ← create "else"
  let merge ← create "merge"
  endBlock (.branch c thenBlock elseBlock) thenBlock
  stmts checked yes
  endBlock (.jump merge) elseBlock
  stmts checked no
  endBlock (.jump merge) merge

instance (c : Operand) (yes no : List Stmt) : Building (twoArms checked c yes no) := by
  unfold twoArms
  infer_instance

/-- The part of a loop with clauses that is repeated. -/
def repeated (checked : Bool) (cond : Option Expr) (step : Option Stmt) (body : List Stmt) :
    Build Unit := do
  let condBlock ← create "for.cond"
  let bodyBlock ← create "for.body"
  let stepBlock ← create "for.step"
  let exit ← create "for.exit"
  endBlock (.jump condBlock) condBlock
  guard checked cond bodyBlock exit
  stmts checked body
  endBlock (.jump stepBlock) stepBlock
  clause checked step
  endBlock (.jump condBlock) exit

instance (cond : Option Expr) (step : Option Stmt) (body : List Stmt) :
    Building (repeated checked cond step body) := by
  unfold repeated
  infer_instance

end Core.Lower

end TinyScript
