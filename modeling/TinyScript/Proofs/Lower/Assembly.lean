import TinyScript.Core.Lower
import TinyScript.Proofs.Induction
import TinyScript.Proofs.Ir.Assembly

/-! Lowering with an assembler and with a builder. Lowering asks nothing of a module under
construction but the steps that both have, so what it does to them agrees step by step.
Each statement opens every block that it creates; so whatever waits to be opened before it
waits afterwards, and nothing waits after a program. -/

namespace TinyScript.Core.Lower

open Ir (Operand Assemble Matched)
open Ir.Builder (Build)
open Ir (create_matched emit_matched emitVoid_matched endBlock_matched addSlot_matched text_matched
  declare_matched)

variable {checked : Bool} {α β : Type}

/-- Two buildings that agree and leave no block to be opened. -/
def Alike (x : Assemble α) (y : Build α) : Prop := ∀ P, Matched P x y fun _ => P

theorem Alike.pure (a : α) : Alike (pure a) (pure a) := fun P => .pure a P

theorem Alike.bind {x : Assemble α} {y : Build α} {f : α → Assemble β} {g : α → Build β}
    (hx : Alike x y) (hf : ∀ a, Alike (f a) (g a)) : Alike (x >>= f) (y >>= g) :=
  fun P => (hx P).bind fun a => hf a P

section Steps

open Ir.MonadAssemble

theorem emit_alike (hint : String) (type : Ir.Ty) (op : Ir.Op) :
    Alike (emit hint type op) (emit hint type op) := fun P => emit_matched P hint type op

theorem emitVoid_alike (op : Ir.Op) : Alike (emitVoid op) (emitVoid op) :=
  fun P => emitVoid_matched P op

theorem declare_alike (f : Ir.External) : Alike (declare f) (declare f) :=
  fun P => declare_matched P f

theorem addSlot_alike (hint : String) (type : Ir.Ty) :
    Alike (addSlot hint type) (addSlot hint type) := fun P => addSlot_matched P hint type

theorem text_alike (s : String) : Alike (text s) (text s) := fun P => text_matched P s

end Steps

/-! ### Parts of expressions -/

theorem compare_alike (cond : Ir.IntCond) (a b : Operand) :
    Alike (compare cond a b) (compare cond a b) := emit_alike _ _ _

theorem convert_alike (v : Operand) (c : Conversion) : Alike (convert v c) (convert v c) := by
  cases c <;> exact emit_alike _ _ _

theorem checkBounds_alike (slice index : Operand) :
    Alike (checkBounds slice index) (checkBounds slice index) := by
  intro P
  refine (emit_matched P _ _ _).bind fun len => ?_
  refine (emit_matched P _ _ _).bind fun within => ?_
  refine (create_matched P _).bind fun ok => ?_
  refine (create_matched _ _).bind fun fail => ?_
  refine (endBlock_matched [] _ _ _).bind fun _ => ?_
  refine (declare_matched _ _).bind fun _ => ?_
  refine (emitVoid_matched _ _).bind fun _ => ?_
  exact endBlock_matched [] P _ _

theorem elementAddress_alike (elem : Ir.Ty) (slice index : Operand) :
    Alike (elementAddress checked elem slice index) (elementAddress checked elem slice index) := by
  cases checked with
  | true =>
    refine (checkBounds_alike slice index).bind fun _ => ?_
    exact (emit_alike _ _ _).bind fun _ => emit_alike _ _ _
  | false => exact (emit_alike _ _ _).bind fun _ => emit_alike _ _ _

theorem fill_alike (elem : Ir.Ty) (data : Operand) (k : Nat) (vs : List Operand) :
    Alike (fill elem data k vs) (fill elem data k vs) := by
  induction vs generalizing k with
  | nil => exact .pure ()
  | cons v vs ih =>
    refine (emit_alike _ _ _).bind fun address => ?_
    exact (emitVoid_alike _).bind fun _ => ih (k + 1)

theorem slice_alike (slot : Nat) (elem : Ir.Ty) (values : List Operand) :
    Alike (slice slot elem values) (slice slot elem values) := by
  refine (addSlot_alike _ _).bind fun _ => ?_
  refine (emit_alike _ _ _).bind fun data => ?_
  refine (fill_alike _ _ _ _).bind fun _ => ?_
  exact (emit_alike _ _ _).bind fun half => emit_alike _ _ _

theorem pass_alike (type : Ty) (v : Operand) : Alike (pass type v) (pass type v) := by
  cases type with
  | array elem =>
    refine (emit_alike _ _ _).bind fun data => ?_
    exact (emit_alike _ _ _).bind fun len => .pure _
  | str | i32 | f64 | bool | void => exact .pure _

theorem call_alike (f : Library.Function) (args : List Operand) :
    Alike (call f args) (call f args) := by
  refine (declare_alike _).bind fun _ => ?_
  split
  · exact (emitVoid_alike _).bind fun _ => .pure _
  · exact emit_alike _ _ _

/-! ### Expressions -/

def ExprAlike (checked : Bool) (e : Expr) : Prop := Alike (expr checked e) (expr checked e)

theorem exprs_alike {es : List Expr} (h : ∀ e ∈ es, ExprAlike checked e) :
    Alike (exprs checked es) (exprs checked es) := by
  induction es with
  | nil => exact .pure _
  | cons e es ih =>
    refine Alike.bind (h e List.mem_cons_self) fun v => ?_
    exact (ih fun e he => h e (List.mem_cons_of_mem _ he)).bind fun _ => .pure _

theorem arguments_alike {es : List Expr} (h : ∀ e ∈ es, ExprAlike checked e) :
    Alike (arguments checked es) (arguments checked es) := by
  induction es with
  | nil => exact .pure _
  | cons e es ih =>
    refine Alike.bind (h e List.mem_cons_self) fun v => ?_
    refine (pass_alike _ _).bind fun passed => ?_
    exact (ih fun e he => h e (List.mem_cons_of_mem _ he)).bind fun _ => .pure _

theorem binary_alike {l r : Expr} {f : Operand → Operand → Assemble α}
    {g : Operand → Operand → Build α} (hl : ExprAlike checked l) (hr : ExprAlike checked r)
    (hf : ∀ a b, Alike (f a b) (g a b)) :
    Alike (do let a ← expr checked l; let b ← expr checked r; f a b)
      (do let a ← expr checked l; let b ← expr checked r; g a b) :=
  Alike.bind hl fun a => Alike.bind hr (hf a)

theorem expr_alike (e : Expr) : ExprAlike checked e := by
  induction e using Expr.induct with
  | str s => exact text_alike s
  | int n => exact .pure _
  | float d => exact .pure _
  | bool b => exact .pure _
  | load v => exact emit_alike _ _ _
  | arith op l r hl hr => exact binary_alike hl hr fun _ _ => emit_alike _ _ _
  | compare op l r hl hr => exact binary_alike hl hr fun _ _ => compare_alike _ _ _
  | sameText negated l r hl hr =>
    refine binary_alike hl hr fun _ _ => ?_
    refine (declare_alike _).bind fun _ => ?_
    exact (emit_alike _ _ _).bind fun order => compare_alike _ _ _
  | nonzero e he => exact Alike.bind he fun _ => emit_alike _ _ _
  | array slot elem es hes => exact (exprs_alike hes).bind fun _ => slice_alike _ _ _
  | element elem a i ha hi =>
    refine binary_alike ha hi fun _ _ => ?_
    exact (elementAddress_alike _ _ _).bind fun address => emit_alike _ _ _
  | length a ha => exact Alike.bind ha fun _ => emit_alike _ _ _
  | call f es hes => exact (arguments_alike hes).bind fun _ => call_alike _ _

/-! ### Statements -/

theorem store_alike (v : Var) (c : Option Conversion) (value : Operand) :
    Alike (store v c value) (store v c value) := by
  cases c with
  | none => exact emitVoid_alike _
  | some c => exact (convert_alike value c).bind fun _ => emitVoid_alike _

theorem declareVar_alike (v : Var) (init : Option Stored) :
    Alike (declareVar checked v init) (declareVar checked v init) := by
  cases init with
  | none => exact addSlot_alike _ _
  | some s =>
    refine (expr_alike s.value).bind fun value => ?_
    exact (addSlot_alike _ _).bind fun _ => store_alike _ _ _

theorem printf_alike (format : String) (v : Operand) :
    Alike (printf format v) (printf format v) := by
  refine (declare_alike _).bind fun _ => ?_
  refine (text_alike _).bind fun _ => ?_
  exact (emit_alike _ _ _).bind fun _ => .pure _

theorem printText_alike (newline : Bool) (v : Operand) :
    Alike (printText newline v) (printText newline v) := by
  cases newline with
  | true => exact (declare_alike _).bind fun _ => (emit_alike _ _ _).bind fun _ => .pure _
  | false => exact printf_alike _ _

theorem guard_matched (cond : Option Expr) (bodyBlock exit : Nat) (Q R : List Nat) :
    Matched (Q ++ bodyBlock :: R) (guard checked cond bodyBlock exit)
      (guard checked cond bodyBlock exit) fun _ => Q ++ R := by
  cases cond with
  | none => exact endBlock_matched Q R _ _
  | some cond => exact (expr_alike cond _).bind fun c => endBlock_matched Q R _ _

def StmtAlike (checked : Bool) (s : Stmt) : Prop := Alike (stmt checked s) (stmt checked s)

theorem stmts_alike {ss : List Stmt} (h : ∀ s ∈ ss, StmtAlike checked s) :
    Alike (stmts checked ss) (stmts checked ss) := by
  induction ss with
  | nil => exact .pure _
  | cons s ss ih =>
    refine Alike.bind (h s List.mem_cons_self) fun _ => ?_
    exact ih fun s hs => h s (List.mem_cons_of_mem _ hs)

theorem clause_alike {s : Option Stmt} (h : ∀ s' ∈ s, StmtAlike checked s') :
    Alike (clause checked s) (clause checked s) := by
  cases s with
  | none => exact .pure _
  | some s => exact h s rfl

theorem branch_alike {cond : Expr} {yes no : List Stmt}
    (hyes : ∀ s ∈ yes, StmtAlike checked s) (hno : ∀ s ∈ no, StmtAlike checked s) :
    StmtAlike checked (.branch cond yes no) := by
  intro P
  refine (expr_alike cond P).bind fun c => ?_
  refine (create_matched P _).bind fun thenBlock => ?_
  split
  · refine (create_matched _ _).bind fun merge => ?_
    refine (endBlock_matched [merge] P _ thenBlock).bind fun _ => ?_
    exact (stmts_alike hyes _).bind fun _ => endBlock_matched [] P _ merge
  · refine (create_matched _ _).bind fun elseBlock => ?_
    refine (create_matched _ _).bind fun merge => ?_
    refine (endBlock_matched [merge, elseBlock] P _ thenBlock).bind fun _ => ?_
    refine (stmts_alike hyes _).bind fun _ => ?_
    refine (endBlock_matched [merge] P _ elseBlock).bind fun _ => ?_
    exact (stmts_alike hno _).bind fun _ => endBlock_matched [] P _ merge

theorem loopWhile_alike {cond : Expr} {body : List Stmt}
    (hbody : ∀ s ∈ body, StmtAlike checked s) : StmtAlike checked (.loopWhile cond body) := by
  intro P
  refine (create_matched P _).bind fun condBlock => ?_
  refine (create_matched _ _).bind fun bodyBlock => ?_
  refine (create_matched _ _).bind fun exit => ?_
  refine (endBlock_matched [exit, bodyBlock] P _ condBlock).bind fun _ => ?_
  refine (expr_alike cond _).bind fun c => ?_
  refine (endBlock_matched [exit] P _ bodyBlock).bind fun _ => ?_
  exact (stmts_alike hbody _).bind fun _ => endBlock_matched [] P _ exit

theorem doWhile_alike {body : List Stmt} {cond : Expr}
    (hbody : ∀ s ∈ body, StmtAlike checked s) : StmtAlike checked (.doWhile body cond) := by
  intro P
  refine (create_matched P _).bind fun bodyBlock => ?_
  refine (create_matched _ _).bind fun condBlock => ?_
  refine (create_matched _ _).bind fun exit => ?_
  refine (endBlock_matched [exit, condBlock] P _ bodyBlock).bind fun _ => ?_
  refine (stmts_alike hbody _).bind fun _ => ?_
  refine (endBlock_matched [exit] P _ condBlock).bind fun _ => ?_
  exact (expr_alike cond _).bind fun c => endBlock_matched [] P _ exit

theorem loopFor_alike {init step : Option Stmt} {cond : Option Expr} {body : List Stmt}
    (hinit : ∀ s ∈ init, StmtAlike checked s) (hstep : ∀ s ∈ step, StmtAlike checked s)
    (hbody : ∀ s ∈ body, StmtAlike checked s) :
    StmtAlike checked (.loopFor init cond step body) := by
  intro P
  refine (clause_alike hinit P).bind fun _ => ?_
  refine (create_matched P _).bind fun condBlock => ?_
  refine (create_matched _ _).bind fun bodyBlock => ?_
  refine (create_matched _ _).bind fun stepBlock => ?_
  refine (create_matched _ _).bind fun exit => ?_
  refine (endBlock_matched [exit, stepBlock, bodyBlock] P _ condBlock).bind fun _ => ?_
  refine (guard_matched cond bodyBlock exit [exit, stepBlock] P).bind fun _ => ?_
  refine (stmts_alike hbody _).bind fun _ => ?_
  refine (endBlock_matched [exit] P _ stepBlock).bind fun _ => ?_
  exact (clause_alike hstep _).bind fun _ => endBlock_matched [] P _ exit

theorem stmt_alike (s : Stmt) : StmtAlike checked s := by
  induction s using Stmt.induct with
  | declare v init => exact declareVar_alike v init
  | assign v s => exact (expr_alike s.value).bind fun _ => store_alike _ _ _
  | setElement elem a i e =>
    refine binary_alike (expr_alike a) (expr_alike i) fun _ _ => ?_
    refine (elementAddress_alike _ _ _).bind fun address => ?_
    exact (expr_alike e).bind fun _ => emitVoid_alike _
  | eval e => exact (expr_alike e).bind fun _ => .pure ()
  | printText newline e => exact (expr_alike e).bind fun _ => printText_alike _ _
  | printInt newline e => exact (expr_alike e).bind fun _ => printf_alike _ _
  | branch cond yes no hyes hno => exact branch_alike hyes hno
  | loopWhile cond body hbody => exact loopWhile_alike hbody
  | doWhile body cond hbody => exact doWhile_alike hbody
  | loopFor init cond step body hinit hstep hbody => exact loopFor_alike hinit hstep hbody

/-! ### Programs -/

/-- The builder that is left after a program is lowered. -/
def final (p : Program) (options : Options) : Ir.Builder :=
  ((stmts options.boundsChecks p : Build Unit).run Ir.Builder.start).2

/-- The assembler that is left agrees with it, and no block waits to be opened. -/
theorem final_assembles (p : Program) (options : Options) :
    Ir.Assembles [] ((stmts options.boundsChecks p : Assemble Unit).run Ir.Assembler.start).2
      (final p options) :=
  (stmts_alike (fun s _ => stmt_alike s) [] _ _ Ir.start_assembles).2

/-- The module of a program is the one that the builder finishes. -/
theorem lower_eq (p : Program) (options : Options) :
    p.lower options = (final p options).finish options.moduleName :=
  (final_assembles p options).finish options.moduleName

theorem lower_blocks (p : Program) (options : Options) :
    (p.lower options).main.blocks = (final p options).blocks (.ret (.int 0)) := by
  rw [lower_eq, Ir.Builder.finish_blocks]

theorem mem_lower_blocks {p : Program} {options : Options} {x : Ir.Block} :
    x ∈ (p.lower options).main.blocks ↔
      x = ⟨(final p options).block, (final p options).body.reverse, .ret (.int 0)⟩ ∨
        x ∈ (final p options).finished := by
  rw [lower_blocks, ((final p options).blocks_perm _).mem_iff, List.mem_cons]

/-- The numbers of the blocks of a module, in the order in which lowering ends the blocks. -/
def endOrder (p : Program) (options : Options) : List Nat :=
  ((final p options).written (.ret (.int 0))).map Ir.Block.id

theorem written_perm_lower (p : Program) (options : Options) :
    ((final p options).written (.ret (.int 0))).Perm (p.lower options).main.blocks :=
  lower_blocks p options ▸ (final p options).written_perm _

theorem lower_hints (p : Program) (options : Options) :
    (p.lower options).main.hints = (final p options).hints := by
  rw [lower_eq]
  rfl

theorem lower_symbols (p : Program) (options : Options) :
    (p.lower options).symbols = (final p options).symbols := by
  rw [lower_eq]
  rfl

/-- However deep a slot is needed, it is set up at the beginning of the entry. -/
theorem lower_hoists (p : Program) (options : Options) :
    (p.lower options).main.Hoists (final p options).slots := by
  rw [lower_eq]
  exact (final_assembles p options).finish_hoists options.moduleName

theorem lower_slots_eq (p : Program) (options : Options) :
    (p.lower options).main.slots = (final p options).slots :=
  (lower_hoists p options).slots_eq

theorem lower_sections_ne_nil (p : Program) (options : Options) :
    (p.lower options).main.sections ≠ [] := by
  obtain ⟨entry, rest, _, hsections, -⟩ := lower_hoists p options
  rw [hsections]
  exact List.cons_ne_nil _ _

theorem lower_main (p : Program) (options : Options) :
    (p.lower options).main.name = "main" ∧ (p.lower options).main.type = ⟨.i32, [], false⟩ := by
  rw [lower_eq]
  exact ⟨rfl, rfl⟩

/-- Whatever a module declares is a function that lowering knows. -/
theorem lower_declared {p : Program} {options : Options} {d : Ir.Declaration}
    (h : d ∈ (p.lower options).declarations) : ∃ f : Ir.External, d = f.declaration := by
  obtain ⟨s, hs, hsd⟩ := List.mem_filterMap.1 h
  cases s with
  | text _ => cases hsd
  | function d' =>
    cases hsd
    exact (final_assembles p options).declared d (lower_symbols p options ▸ hs)

/-- The module of a program can be linked. -/
theorem lower_link (p : Program) (options : Options) :
    Ir.link (p.lower options).functions =
      .ok ((p.lower options).functions.filterMap Ir.Linkable.mapped?) :=
  Ir.Module.link_functions (lower_main p options).1 (lower_sections_ne_nil p options)
    fun _ hd => lower_declared hd

theorem lower_ended (p : Program) (options : Options) : (p.lower options).main.Ended := by
  rw [lower_eq]
  exact (final p options).finish_ended options.moduleName

end TinyScript.Core.Lower
