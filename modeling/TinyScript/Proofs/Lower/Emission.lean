import Mathlib.Data.List.Forall2
import TinyScript.Proofs.Core.Typing
import TinyScript.Proofs.Ir.Emission
import TinyScript.Proofs.Lower.Growth

/-! What lowering a program leaves in its module. The log of a checked program says in
which order its lowering asks for symbols, calls functions and uses string constants.
A string is an operand only as it is written: a literal under an operator, in an array,
as an argument or on its way into a variable or an element. Everything else that has a
string for a value is the result of an instruction. -/

namespace TinyScript.Core

open Ir (Event)

/-! ### Logs -/

/-- The texts that an expression is as an operand. -/
def Expr.literal : Expr → List String
  | .str s => [s]
  | _ => []

theorem Expr.literal_eq_nil {e : Expr} (h : e.type ≠ .str) : e.literal = [] := by
  cases e with
  | str s => exact absurd rfl h
  | _ => rfl

/-- The texts among the operands that some expressions are. -/
def literals (es : List Expr) : List String := es.flatMap Expr.literal

def uses (es : List Expr) : List Event := (literals es).map .use

/-- What checking an index leaves. -/
def boundsCheck (checked : Bool) : List Event :=
  if checked then Event.declared .boundsFail else []

mutual

@[simp] def events (checked : Bool) : Expr → List Event
  | .str s => [.intern (.text s)]
  | .int _ | .float _ | .bool _ | .load _ => []
  | .arith _ l r | .compare _ l r => events checked l ++ events checked r
  | .sameText _ l r =>
    events checked l ++ events checked r ++ Event.declared .strcmp ++ uses [l, r]
  | .nonzero e | .length e => events checked e
  | .array _ _ es => eventsIn checked es ++ uses es
  | .element _ a i => events checked a ++ events checked i ++ boundsCheck checked
  | .call f es => eventsIn checked es ++ Event.declared (.library f) ++ uses es

@[simp] def eventsIn (checked : Bool) : List Expr → List Event
  | [] => []
  | e :: es => events checked e ++ eventsIn checked es

end

/-- What printing with a format leaves. -/
def formatted (format : String) (e : Expr) : List Event :=
  .intern (.function Ir.External.printf.declaration) :: .intern (.text format) ::
    .call .printf :: .use format :: uses [e]

mutual

@[simp] def stmtEvents (checked : Bool) : Stmt → List Event
  | .declare _ none => []
  | .declare _ (some s) | .assign _ s => events checked s.value ++ uses [s.value]
  | .setElement _ a i v =>
    events checked a ++ events checked i ++ boundsCheck checked ++ events checked v ++ uses [v]
  | .eval e => events checked e
  | .printText newline e =>
    events checked e ++
      if newline then Event.declared .puts ++ uses [e] else formatted "%s" e
  | .printInt newline e => events checked e ++ formatted (if newline then "%d\n" else "%d") e
  | .branch cond yes no => events checked cond ++ stmtsEvents checked yes ++ stmtsEvents checked no
  | .loopWhile cond body => events checked cond ++ stmtsEvents checked body
  | .doWhile body cond => stmtsEvents checked body ++ events checked cond
  | .loopFor init cond step body =>
    clauseEvents checked init ++ (cond.map (events checked)).getD [] ++ stmtsEvents checked body ++
      clauseEvents checked step

@[simp] def clauseEvents (checked : Bool) : Option Stmt → List Event
  | none => []
  | some s => stmtEvents checked s

@[simp] def stmtsEvents (checked : Bool) : List Stmt → List Event
  | [] => []
  | s :: ss => stmtEvents checked s ++ stmtsEvents checked ss

end

theorem Comparable.ne_str {t u : Ty} (h : Comparable t) (same : u = t) : t ≠ .str ∧ u ≠ .str := by
  obtain rfl | rfl := h <;> subst same <;> exact ⟨nofun, nofun⟩

namespace Lower

open Ir (Operand Spells)
open Ir.Builder
open Meaning (Place)

variable {m : Ir.Module} {checked : Bool} {L : List Place}

/-! ### Parts of expressions -/

/-- An operand that an expression became. -/
abbrev Names (m : Ir.Module) (e : Expr) (o : Operand) : Prop := Spells m [o] e.literal

theorem Names.silent {e : Expr} {o : Operand} (h : Names m e o) (htype : e.type ≠ .str) :
    Silent m o := by
  rw [Names, Expr.literal_eq_nil htype] at h
  exact h

theorem compare_emits {cond : Ir.IntCond} {a b : Operand} (h : Spells m [a, b] []) :
    Emits m [] (Silent m) (compare cond a b) :=
  emit_silent h rfl

theorem convert_emits {v : Operand} (c : Conversion) (h : Silent m v) :
    Emits m [] (Silent m) (convert v c) := by
  cases c with
  | i32ToBool | f64ToBool => exact emit_silent (h.append (silent_of_text? rfl)) rfl
  | _ => exact emit_silent h rfl

theorem checkBounds_emits {slice index : Operand} (hslice : Silent m slice)
    (hindex : Silent m index) :
    Emits m (Event.declared .boundsFail) Any (checkBounds slice index) := by
  refine (emit_silent hslice rfl).seq fun len hlen => ?_
  refine (emit_silent (hindex.append hlen) rfl).seq fun within hwithin => ?_
  refine (create_emits _).seq fun ok _ => ?_
  refine (create_emits _).seq fun fail _ => ?_
  refine (endBlock_emits fail hwithin).seq fun _ _ => ?_
  refine (declare_emits _).bind fun _ _ => ?_
  exact (emitVoid_call (hindex.append hlen)).bind fun _ _ => endBlock_emits ok rfl

theorem elementAddress_emits (elem : Ir.Ty) {slice index : Operand} (hslice : Silent m slice)
    (hindex : Silent m index) :
    Emits m (boundsCheck checked) (Silent m) (elementAddress checked elem slice index) := by
  have tail : Emits m [] (Silent m) (do
      let data ← emit "arr.ptr" (.ptr elem) (.extract slice .data)
      emit "elem.ptr" (.ptr elem) (.elementAddress elem data index)) :=
    (emit_silent hslice rfl).seq fun data hdata => emit_silent (hdata.append hindex) rfl
  cases checked with
  | true => exact (checkBounds_emits hslice hindex).bind fun _ _ => tail
  | false => exact tail

theorem uses_cons (e : Expr) (es : List Expr) :
    uses (e :: es) = e.literal.map .use ++ uses es := by
  simp [uses, literals]

theorem uses_singleton (e : Expr) : uses [e] = e.literal.map .use := by
  simp [uses, literals]

/-- Operands one after the other. -/
abbrev NamesAll (m : Ir.Module) : List Expr → List Operand → Prop := List.Forall₂ (Names m)

theorem NamesAll.spells {es : List Expr} {os : List Operand} (h : NamesAll m es os) :
    Spells m os (literals es) := by
  induction h with
  | nil => rfl
  | cons head _ ih => exact head.append ih

theorem fill_emits (elem : Ir.Ty) {data : Operand} (hdata : Silent m data) (k : Nat)
    {es : List Expr} {vs : List Operand} (h : NamesAll m es vs) :
    Emits m (uses es) Any (fill elem data k vs) := by
  induction h generalizing k with
  | nil => exact .pure trivial
  | @cons e v es vs head tail ih =>
    rw [uses_cons]
    refine (emit_silent (hdata.append (silent_of_text? rfl)) rfl).seq fun address haddress => ?_
    exact (emitVoid_store head haddress).bind fun _ _ => ih (k + 1)

theorem slice_emits (slot : Nat) (elem : Ir.Ty) {es : List Expr} {vs : List Operand}
    (h : NamesAll m es vs) : Emits m (uses es) (Silent m) (slice slot elem vs) := by
  refine (addSlot_emits _ _).seq fun _ _ => ?_
  refine (emit_silent (silent_of_text? rfl) rfl).seq fun data hdata => ?_
  refine ((fill_emits elem hdata 0 h).bind fun _ _ => ?_).congr (List.append_nil _)
  refine (emit_silent ((silent_of_text? rfl).append hdata) rfl).seq fun half hhalf => ?_
  exact emit_silent (hhalf.append (silent_of_text? rfl)) rfl

theorem pass_emits {e : Expr} {v : Operand} (h : Names m e v) :
    Emits m [] (fun os => Spells m os e.literal) (pass e.type v) := by
  cases htype : e.type with
  | array elem =>
    have hv : Silent m v := h.silent (by simp [htype])
    rw [Expr.literal_eq_nil (by simp [htype])]
    refine (emit_silent hv rfl).seq fun data hdata => ?_
    refine (emit_silent hv rfl).seq fun len hlen => ?_
    exact .pure (hdata.append hlen)
  | str | i32 | f64 | bool | void => exact .pure h

theorem call_emits (f : Library.Function) {args : List Operand} {ts : List String}
    (h : Spells m args ts) :
    Emits m (Event.declared (.library f) ++ ts.map .use) (Silent m) (call f args) := by
  unfold call
  refine (declare_emits _).bind fun _ _ => ?_
  split
  · refine ((emitVoid_call h).bind fun _ _ => ?_).congr (List.append_nil _)
    exact .pure (silent_of_text? rfl)
  · exact emit_call h

/-! ### Expressions -/

/-- Lowering an expression leaves its log, and gives its text if it is a string literal. -/
def ExprEmits (m : Ir.Module) (checked : Bool) (e : Expr) : Prop :=
  Emits m (events checked e) (Names m e) (expr checked e)

theorem exprs_emit {es : List Expr} (h : ∀ e ∈ es, ExprEmits m checked e) :
    Emits m (eventsIn checked es) (NamesAll m es) (exprs checked es) := by
  induction es with
  | nil => exact .pure .nil
  | cons e es ih =>
    refine (h e List.mem_cons_self).bind fun v hv => ?_
    refine ((ih fun e he => h e (List.mem_cons_of_mem _ he)).bind fun vs hvs => ?_).congr
      (List.append_nil _)
    exact .pure (.cons hv hvs)

theorem arguments_emit {es : List Expr} (h : ∀ e ∈ es, ExprEmits m checked e) :
    Emits m (eventsIn checked es) (fun os => Spells m os (literals es)) (arguments checked es) := by
  induction es with
  | nil => exact .pure rfl
  | cons e es ih =>
    refine (h e List.mem_cons_self).bind fun v hv => ?_
    refine (pass_emits hv).seq fun passed hpassed => ?_
    refine ((ih fun e he => h e (List.mem_cons_of_mem _ he)).bind fun os hos => ?_).congr
      (List.append_nil _)
    exact .pure (hpassed.append hos)

theorem callExpr_emits (f : Library.Function) {es : List Expr}
    (h : ∀ e ∈ es, ExprEmits m checked e) : ExprEmits m checked (.call f es) := by
  rw [ExprEmits, events, List.append_assoc]
  exact (arguments_emit h).bind fun os hos => call_emits f hos

theorem expr_emits {e : Expr} (h : Typed L e) : ExprEmits m checked e := by
  induction h with
  | str s => exact text_emits s
  | int n | float d | bool b => exact .pure (silent_of_text? rfl)
  | load place => exact emit_silent (silent_of_text? rfl) rfl
  | arith op _ _ ltype rtype hl hr =>
    refine hl.bind fun a ha => ?_
    refine (hr.bind fun b hb => ?_).congr (List.append_nil _)
    exact emit_silent ((ha.silent (by simp [ltype])).append (hb.silent (by simp [rtype]))) rfl
  | compare op _ _ ltype same hl hr =>
    obtain ⟨hlt, hrt⟩ := ltype.ne_str same
    refine hl.bind fun a ha => ?_
    refine (hr.bind fun b hb => ?_).congr (List.append_nil _)
    exact compare_emits ((ha.silent hlt).append (hb.silent hrt))
  | @sameText negated l r _ _ _ _ hl hr =>
    rw [ExprEmits, events, List.append_assoc, List.append_assoc]
    refine hl.bind fun a ha => hr.bind fun b hb => ?_
    refine (declare_emits _).bind fun _ _ => ?_
    have hab : Spells m [a, b] (literals [l, r]) := NamesAll.spells (.cons ha (.cons hb .nil))
    refine ((emit_call hab).bind fun order horder => ?_).congr (List.append_nil _)
    exact compare_emits (horder.append (silent_of_text? rfl))
  | nonzero _ type he =>
    refine (he.bind fun v hv => ?_).congr (List.append_nil _)
    exact emit_silent ((hv.silent (by simp [type])).append (silent_of_text? rfl)) rfl
  | array elements types place hes => exact (exprs_emit hes).bind fun vs hvs => slice_emits _ _ hvs
  | element _ _ atype itype ha hi =>
    rw [ExprEmits, events, List.append_assoc]
    refine ha.bind fun a ha => hi.bind fun i hi => ?_
    have ha' := ha.silent (by simp [atype])
    have hi' := hi.silent (by simp [itype])
    refine ((elementAddress_emits _ ha' hi').bind fun address haddress => ?_).congr
      (List.append_nil _)
    exact emit_silent haddress rfl
  | length _ atype ha =>
    refine (ha.bind fun a ha => ?_).congr (List.append_nil _)
    exact emit_silent (ha.silent (by simp [atype])) rfl
  | call args types result hes => exact callExpr_emits _ hes

/-! ### Statements -/

theorem store_emits {v : Var} {s : Stored} (h : s.Typed L v) {o : Operand}
    (ho : Names m s.value o) : Emits m (uses [s.value]) Any (store v s.convert o) := by
  have tail {o : Operand} (ho : Names m s.value o) :
      Emits m (uses [s.value]) Any (emitVoid (.store o (.slot v.slot (.ofSource v.type)))) :=
    (emitVoid_store ho (silent_of_text? rfl)).congr (uses_singleton _).symm
  have fits := h.fits
  cases hconvert : s.convert with
  | none => exact (Emits.pure ho).seq fun _ => tail
  | some c =>
    rw [hconvert] at fits
    -- Only numbers and booleans are converted.
    have htype : s.value.type ≠ .str := fun hstr => by simp [hstr, Conversion.between?] at fits
    refine (convert_emits c (ho.silent htype)).seq fun o ho => tail ?_
    rw [Names, Expr.literal_eq_nil htype]
    exact ho

theorem printf_emits (format : String) {e : Expr} {v : Operand} (h : Names m e v) :
    Emits m (formatted format e) Any (printf format v) := by
  refine (declare_emits _).bind fun _ _ => ?_
  refine (text_emits _).bind fun f hf => ?_
  refine ((emit_call (hf.append h)).bind fun _ _ => .pure trivial).congr ?_
  simp [uses_singleton]

theorem printText_emits (newline : Bool) {e : Expr} {v : Operand} (h : Names m e v) :
    Emits m (if newline then Event.declared .puts ++ uses [e] else formatted "%s" e) Any
      (printText newline v) := by
  cases newline with
  | true =>
    refine (declare_emits _).bind fun _ _ => ?_
    refine ((emit_call h).bind fun _ _ => .pure trivial).congr ?_
    simp [uses_singleton]
  | false => exact printf_emits _ h

theorem guard_emits {cond : Option Expr} (h : ∀ e ∈ cond, Condition L e) (bodyBlock exit : Nat) :
    Emits m ((cond.map (events checked)).getD []) Any (guard checked cond bodyBlock exit) := by
  cases cond with
  | none => exact jump_emits _ bodyBlock
  | some cond =>
    obtain ⟨hvalue, htype⟩ := h cond rfl
    refine ((expr_emits hvalue).bind fun c hc => ?_).congr (List.append_nil _)
    exact endBlock_emits bodyBlock (hc.silent (by simp [htype]))

/-- Lowering a statement leaves its log. -/
def StmtEmits (m : Ir.Module) (checked : Bool) (s : Stmt) : Prop :=
  Emits m (stmtEvents checked s) Any (stmt checked s)

theorem stmts_emit {ss : List Stmt} (h : ∀ s ∈ ss, StmtEmits m checked s) :
    Emits m (stmtsEvents checked ss) Any (stmts checked ss) := by
  induction ss with
  | nil => exact .pure trivial
  | cons s ss ih =>
    refine (h s List.mem_cons_self).bind fun _ _ => ?_
    exact ih fun s hs => h s (List.mem_cons_of_mem _ hs)

theorem clause_emits {s : Option Stmt} (h : ∀ s' ∈ s, StmtEmits m checked s') :
    Emits m (clauseEvents checked s) Any (clause checked s) := by
  cases s with
  | none => exact .pure trivial
  | some s => exact h s rfl

theorem branch_emits {cond : Expr} {yes no : List Stmt} (hcond : Condition L cond)
    (hyes : ∀ s ∈ yes, StmtEmits m checked s) (hno : ∀ s ∈ no, StmtEmits m checked s) :
    StmtEmits m checked (.branch cond yes no) := by
  rw [StmtEmits, stmtEvents, List.append_assoc]
  refine (expr_emits hcond.value).bind fun c hc => ?_
  have hsilent := hc.silent (by simp [hcond.type])
  refine (create_emits _).seq fun thenBlock _ => ?_
  split
  · rename_i hempty
    rw [List.isEmpty_iff.1 hempty]
    refine (create_emits _).seq fun merge _ => ?_
    refine (endBlock_emits thenBlock hsilent).seq fun _ _ => ?_
    exact (stmts_emit hyes).bind fun _ _ => jump_emits _ merge
  · refine (create_emits _).seq fun elseBlock _ => ?_
    refine (create_emits _).seq fun merge _ => ?_
    refine (endBlock_emits thenBlock hsilent).seq fun _ _ => ?_
    refine (stmts_emit hyes).bind fun _ _ => ?_
    refine (jump_emits _ elseBlock).seq fun _ _ => ?_
    refine ((stmts_emit hno).bind fun _ _ => ?_).congr (List.append_nil _)
    exact jump_emits _ merge

theorem loopWhile_emits {cond : Expr} {body : List Stmt} (hcond : Condition L cond)
    (hbody : ∀ s ∈ body, StmtEmits m checked s) : StmtEmits m checked (.loopWhile cond body) := by
  refine (create_emits _).seq fun condBlock _ => ?_
  refine (create_emits _).seq fun bodyBlock _ => ?_
  refine (create_emits _).seq fun exit _ => ?_
  refine (jump_emits _ condBlock).seq fun _ _ => ?_
  refine (expr_emits hcond.value).bind fun c hc => ?_
  refine (endBlock_emits bodyBlock (hc.silent (by simp [hcond.type]))).seq fun _ _ => ?_
  refine ((stmts_emit hbody).bind fun _ _ => ?_).congr (List.append_nil _)
  exact jump_emits _ exit

theorem doWhile_emits {body : List Stmt} {cond : Expr}
    (hbody : ∀ s ∈ body, StmtEmits m checked s) (hcond : Condition L cond) :
    StmtEmits m checked (.doWhile body cond) := by
  refine (create_emits _).seq fun bodyBlock _ => ?_
  refine (create_emits _).seq fun condBlock _ => ?_
  refine (create_emits _).seq fun exit _ => ?_
  refine (jump_emits _ bodyBlock).seq fun _ _ => ?_
  refine (stmts_emit hbody).bind fun _ _ => ?_
  refine (jump_emits _ condBlock).seq fun _ _ => ?_
  refine ((expr_emits hcond.value).bind fun c hc => ?_).congr (List.append_nil _)
  exact endBlock_emits exit (hc.silent (by simp [hcond.type]))

-- Every step has to be known as a building, for all the steps after it at once.
set_option synthInstance.maxSize 256 in
theorem repeated_emits {step : Option Stmt} {cond : Option Expr} {body : List Stmt}
    (hcond : ∀ e ∈ cond, Condition L e) (hbody : ∀ s ∈ body, StmtEmits m checked s)
    (hstep : ∀ s ∈ step, StmtEmits m checked s) :
    Emits m ((cond.map (events checked)).getD [] ++
      (stmtsEvents checked body ++ clauseEvents checked step)) Any
      (repeated checked cond step body) := by
  refine (create_emits _).seq fun condBlock _ => ?_
  refine (create_emits _).seq fun bodyBlock _ => ?_
  refine (create_emits _).seq fun stepBlock _ => ?_
  refine (create_emits _).seq fun exit _ => ?_
  refine (jump_emits _ condBlock).seq fun _ _ => ?_
  refine (guard_emits hcond bodyBlock exit).bind fun _ _ => ?_
  refine (stmts_emit hbody).bind fun _ _ => ?_
  refine (jump_emits _ stepBlock).seq fun _ _ => ?_
  refine ((clause_emits hstep).bind fun _ _ => ?_).congr (List.append_nil _)
  exact jump_emits _ exit

theorem loopFor_emits {init step : Option Stmt} {cond : Option Expr} {body : List Stmt}
    (hinit : ∀ s ∈ init, StmtEmits m checked s) (hcond : ∀ e ∈ cond, Condition L e)
    (hbody : ∀ s ∈ body, StmtEmits m checked s) (hstep : ∀ s ∈ step, StmtEmits m checked s) :
    StmtEmits m checked (.loopFor init cond step body) := by
  rw [StmtEmits, stmtEvents, List.append_assoc, List.append_assoc]
  show Emits m _ Any (clause checked init >>= fun _ => repeated checked cond step body)
  exact (clause_emits hinit).bind fun _ _ => repeated_emits hcond hbody hstep

theorem stmt_emits {s : Stmt} (h : s.Typed L) : StmtEmits m checked s := by
  induction h with
  | declare place => exact addSlot_emits _ _
  | init value =>
    refine (expr_emits value.value).bind fun o ho => ?_
    exact (addSlot_emits _ _).seq fun _ _ => store_emits value ho
  | assign value => exact (expr_emits value.value).bind fun o ho => store_emits value ho
  | setElement array index value atype itype etype =>
    rw [StmtEmits, stmtEvents]
    simp only [List.append_assoc]
    refine (expr_emits array).bind fun a ha => (expr_emits index).bind fun i hi => ?_
    have ha' := ha.silent (by simp [atype])
    have hi' := hi.silent (by simp [itype])
    refine (elementAddress_emits _ ha' hi').bind fun address haddress => ?_
    refine (expr_emits value).bind fun v hv => ?_
    exact (emitVoid_store hv haddress).congr (uses_singleton _).symm
  | @call f es args types =>
    have hargs : ∀ e ∈ es, ExprEmits m checked e := fun e he => expr_emits (args e he)
    have hcall := callExpr_emits f hargs
    exact (hcall.bind fun _ _ => .pure trivial).congr (List.append_nil _)
  | eval value =>
    exact ((expr_emits value).bind fun _ _ => .pure trivial).congr (List.append_nil _)
  | printText newline value type =>
    exact (expr_emits value).bind fun v hv => printText_emits newline hv
  | printInt newline value type => exact (expr_emits value).bind fun v hv => printf_emits _ hv
  | branch condition first second hyes hno => exact branch_emits condition hyes hno
  | loopWhile condition turn hbody => exact loopWhile_emits condition hbody
  | doWhile turn condition hbody => exact doWhile_emits hbody condition
  | loopFor first condition turn last hinit hbody hstep =>
    exact loopFor_emits hinit condition hbody hstep

/-! ### Functions are asked for to be called -/

section Balance

open Ir.Event (Balanced)

theorem balanced_boundsCheck (checked : Bool) : Balanced (boundsCheck checked) := by
  cases checked <;> rfl

theorem balanced_uses (es : List Expr) : Balanced (uses es) := Event.balanced_uses _

theorem balanced_formatted (format : String) (e : Expr) : Balanced (formatted format e) := by
  have hcall : Balanced [.intern (.function Ir.External.printf.declaration),
      .intern (.text format), .call .printf, .use format] := rfl
  exact hcall.append (balanced_uses [e])

theorem balanced_eventsIn {es : List Expr} (h : ∀ e ∈ es, Balanced (events checked e)) :
    Balanced (eventsIn checked es) := by
  induction es with
  | nil => rfl
  | cons e es ih =>
    exact (h e List.mem_cons_self).append (ih fun e he => h e (List.mem_cons_of_mem _ he))

theorem balanced_events (e : Expr) : Balanced (events checked e) := by
  induction e using Expr.induct with
  | str s | int n | float d | bool b | load v => rfl
  | arith op l r hl hr | compare op l r hl hr => exact hl.append hr
  | sameText negated l r hl hr =>
    exact ((hl.append hr).append (Event.balanced_declared _)).append (balanced_uses _)
  | nonzero e he | length a he => exact he
  | array slot elem es hes => exact (balanced_eventsIn hes).append (balanced_uses es)
  | element elem a i ha hi => exact (ha.append hi).append (balanced_boundsCheck checked)
  | call f es hes =>
    exact ((balanced_eventsIn hes).append (Event.balanced_declared _)).append (balanced_uses es)

theorem balanced_stmtsEvents {ss : List Stmt} (h : ∀ s ∈ ss, Balanced (stmtEvents checked s)) :
    Balanced (stmtsEvents checked ss) := by
  induction ss with
  | nil => rfl
  | cons s ss ih =>
    exact (h s List.mem_cons_self).append (ih fun s hs => h s (List.mem_cons_of_mem _ hs))

theorem balanced_clauseEvents {s : Option Stmt}
    (h : ∀ s' ∈ s, Balanced (stmtEvents checked s')) : Balanced (clauseEvents checked s) := by
  cases s with
  | none => rfl
  | some s => exact h s rfl

theorem balanced_stmtEvents (s : Stmt) : Balanced (stmtEvents checked s) := by
  induction s using Stmt.induct with
  | declare v init =>
    cases init with
    | none => rfl
    | some s => exact (balanced_events s.value).append (balanced_uses _)
  | assign v s => exact (balanced_events s.value).append (balanced_uses _)
  | setElement elem a i v =>
    have hoperands : Balanced (events checked a ++ events checked i) :=
      (balanced_events a).append (balanced_events i)
    have haddress := hoperands.append (balanced_boundsCheck checked)
    exact (haddress.append (balanced_events v)).append (balanced_uses _)
  | eval e => exact balanced_events e
  | printText newline e =>
    cases newline with
    | true =>
      have hputs : Balanced (Event.declared .puts ++ uses [e]) :=
        (Event.balanced_declared .puts).append (balanced_uses _)
      exact (balanced_events e).append hputs
    | false => exact (balanced_events e).append (balanced_formatted _ _)
  | printInt newline e => exact (balanced_events e).append (balanced_formatted _ _)
  | branch cond yes no hyes hno =>
    exact ((balanced_events cond).append (balanced_stmtsEvents hyes)).append
      (balanced_stmtsEvents hno)
  | loopWhile cond body hbody => exact (balanced_events cond).append (balanced_stmtsEvents hbody)
  | doWhile body cond hbody => exact (balanced_stmtsEvents hbody).append (balanced_events cond)
  | loopFor init cond step body hinit hstep hbody =>
    have hcond : Balanced ((cond.map (events checked)).getD []) := by
      cases cond with
      | none => rfl
      | some cond => exact balanced_events cond
    exact (((balanced_clauseEvents hinit).append hcond).append
      (balanced_stmtsEvents hbody)).append (balanced_clauseEvents hstep)

end Balance

/-! ### Modules -/

/-- **What lowering leaves.** The symbols of a module are those that its log asks for, in
the order of the first time. Its blocks, in the order in which they were ended, call what the
log calls and have the string operands that the log uses, one for one. -/
theorem lower_emits {p : Program} (h : p.Typed) (options : Options) :
    (p.lower options).symbols =
        ((stmtsEvents options.boundsChecks p).filterMap Event.symbol?).eraseDups ∧
      ((final p options).written (.ret (.int 0))).flatMap Ir.Block.callees =
        (stmtsEvents options.boundsChecks p).filterMap Event.callee? ∧
      (((final p options).written (.ret (.int 0))).flatMap Ir.Block.texts).map
          (p.lower options).text? =
        ((stmtsEvents options.boundsChecks p).filterMap Event.used?).map some := by
  have hstmts : Emits (p.lower options) (stmtsEvents options.boundsChecks p) Any
      (stmts options.boundsChecks p) := stmts_emit fun s hs => stmt_emits (h s hs)
  obtain ⟨hemitted, -⟩ := hstmts start (final_stage p options)
  refine ⟨?_, ?_, ?_⟩
  · rw [lower_symbols]
    exact hemitted.symbols.trans (Ir.foldl_pooled_nil _)
  · rw [written_callees]
    exact hemitted.callees
  · rw [written_texts (final p options) rfl]
    exact hemitted.texts

/-- The functions of a module are those that its blocks call, each where it is first called. -/
theorem lower_declarations {p : Program} (h : p.Typed) (options : Options) :
    (p.lower options).declarations =
      (((final p options).written (.ret (.int 0))).flatMap Ir.Block.callees).eraseDups.map
        Ir.External.declaration := by
  obtain ⟨hsymbols, hcallees, -⟩ := lower_emits h options
  have hbalanced : Event.Balanced (stmtsEvents options.boundsChecks p) :=
    balanced_stmtsEvents fun s _ => balanced_stmtEvents s
  rw [hcallees, Ir.map_eraseDups Ir.External.declaration_injective, ← hbalanced,
    Ir.Module.declarations, hsymbols,
    Ir.filterMap_eraseDups fun h h' => Ir.Symbol.declaration?_injective h h',
    List.filterMap_filterMap]
  rfl

end Lower

end TinyScript.Core
