import TinyScript.Ir.Printer
import TinyScript.Proofs.Lower.Assembly

/-! Lowering without bounds checks. A building that checks no index declares and
calls nothing for a failed check, and the blocks it ends and opens are called after
the parts of branches and loops. Names are made of hints by adding to them, so the
labels of such a module do not begin like those of a check either. -/

namespace TinyScript.Ir

/-! ### Names begin with their hints -/

namespace Naming

theorem numbered_begins (separator base : String) (taken : List String) (fuel count : Nat) :
    base.toList <+: (numbered separator base taken fuel count).1.toList := by
  have begins (n : Nat) : base.toList <+: (base ++ separator ++ toString n).toList := by
    rw [String.toList_append, String.toList_append, List.append_assoc]
    exact List.prefix_append _ _
  induction fuel generalizing count with
  | zero => exact begins (count + 1)
  | succ fuel ih =>
    rw [numbered]
    split
    · exact ih (count + 1)
    · exact begins (count + 1)

theorem fresh_begins (separator base : String) (taken : List String) (count : Nat) :
    base.toList <+: (fresh separator base taken count).1.toList := by
  unfold fresh
  split
  · exact numbered_begins separator base taken taken.length count
  · exact List.prefix_refl _

theorem assign_begins (separator : String) {wishes : List String} {i : Nat} {wish : String}
    (h : wishes[i]? = some wish) (taken : List String) (count : Nat) :
    ∃ name, (assign separator taken count wishes)[i]? = some name ∧
      wish.toList <+: name.toList := by
  induction wishes generalizing i taken count with
  | nil => cases h
  | cons base rest ih =>
    rw [assign]
    cases i with
    | zero =>
      cases h
      exact ⟨_, rfl, fresh_begins separator _ taken count⟩
    | succ i => exact ih h _ _

end Naming

/-- The label of a block in the text of a module. -/
def Module.label (m : Module) (b : Block) : String :=
  (Printer.Names.ofModule m).locals.getD b.id ""

theorem Module.label_begins {m : Module} {b : Block} {hint : String}
    (h : m.main.hints[b.id]? = some hint) : hint.toList <+: (m.label b).toList := by
  obtain ⟨name, hname, hbegins⟩ := Naming.assign_begins "" h [] 0
  have hlabel : m.label b = name := by
    show (Naming.unique "" m.main.hints).toArray.getD b.id "" = name
    rw [Array.getD_eq_getD_getElem?, List.getElem?_toArray, Naming.unique, hname]
    rfl
  rw [hlabel]
  exact hbegins

/-- Everything but the call after a failed bounds check. -/
def Op.Plain : Op → Prop
  | .call .boundsFail _ => False
  | _ => True

/-! ### Building without checks -/

namespace Builder

/-- What blocks are called that no check makes. -/
def blockHints : List String :=
  ["entry", "then", "else", "merge", "while.cond", "while.body", "while.exit",
    "do.body", "do.cond", "do.exit", "for.cond", "for.body", "for.step", "for.exit"]

/-- The number of a block that no check made. -/
def Named (hints : List String) (id : Nat) : Prop :=
  ∃ hint ∈ blockHints, hints[id]? = some (cutHint hint)

theorem Named.mono {hints hints' : List String} {id : Nat} (h : Named hints id)
    (hmore : hints <+: hints') : Named hints' id := by
  obtain ⟨hint, hmem, hid⟩ := h
  obtain ⟨rest, rfl⟩ := hmore
  refine ⟨hint, hmem, ?_⟩
  rw [List.getElem?_append_left (List.getElem?_eq_some_iff.1 hid).1, hid]

/-- Nothing in a builder belongs to a check. -/
structure Plain (b : Builder) : Prop where
  symbols : Symbol.function External.boundsFail.declaration ∉ b.symbols
  body : ∀ i ∈ b.body, i.op.Plain
  finished : ∀ block ∈ b.finished, Named b.hints block.id ∧ ∀ i ∈ block.body, i.op.Plain
  block : Named b.hints b.block

theorem Plain.hints {b : Builder} (h : Plain b) {hints : List String}
    (hmore : b.hints <+: hints) : Plain { b with hints } := by
  refine ⟨h.symbols, h.body, ?_, h.block.mono hmore⟩
  intro block hmem
  obtain ⟨hnamed, hbody⟩ := h.finished block hmem
  exact ⟨hnamed.mono hmore, hbody⟩

theorem Plain.push {b : Builder} (h : Plain b) {i : Instr} (hi : i.op.Plain) :
    Plain { b with body := i :: b.body } := by
  refine ⟨h.symbols, ?_, h.finished, h.block⟩
  exact List.forall_mem_cons.2 ⟨hi, h.body⟩

variable {α β : Type} {ids : List Nat}

/-- A building that checks no index, if the numbers it goes on to are of blocks that
no check made. -/
structure Unchecked (ids : List Nat) (x : Build α) : Prop where
  plain : ∀ b : Builder, (∀ id ∈ ids, Named b.hints id) → Plain b → Plain (x.run b).2
  hints : ∀ b : Builder, b.hints <+: (x.run b).2.hints

theorem Unchecked.pure (a : α) : Unchecked ids (pure a : Build α) :=
  ⟨fun _ _ h => h, fun _ => List.prefix_refl _⟩

theorem Unchecked.bind {x : Build α} {f : α → Build β} (hx : Unchecked ids x)
    (hf : ∀ a, Unchecked ids (f a)) : Unchecked ids (x >>= f) := by
  refine ⟨?_, ?_⟩
  · intro b hids h
    refine (hf _).plain _ ?_ (hx.plain b hids h)
    exact fun id hid => (hids id hid).mono (hx.hints b)
  · intro b
    exact (hx.hints b).trans ((hf _).hints _)

/-- The number of a new block may be gone on to. -/
theorem Unchecked.create {hint : String} {f : Nat → Build β} (hhint : hint ∈ blockHints)
    (hf : ∀ id, Unchecked (id :: ids) (f id)) : Unchecked ids (Builder.create hint >>= f) := by
  have grows (b : Builder) : b.hints <+: b.hints ++ [cutHint hint] := List.prefix_append _ _
  refine ⟨?_, ?_⟩
  · intro b hids h
    rw [run_bind, run_create]
    refine (hf _).plain _ ?_ (h.hints (grows b))
    refine List.forall_mem_cons.2 ⟨⟨hint, hhint, ?_⟩, fun id hid => (hids id hid).mono (grows b)⟩
    exact List.getElem?_concat_length
  · intro b
    rw [run_bind, run_create]
    exact (grows b).trans ((hf b.hints.length).hints { b with hints := b.hints ++ [cutHint hint] })

theorem emit_unchecked {hint : String} {type : Ty} {op : Op} (hop : op.Plain) :
    Unchecked ids (emit hint type op) := by
  have grows (b : Builder) : b.hints <+: b.hints ++ [cutHint hint] := List.prefix_append _ _
  refine ⟨?_, grows⟩
  intro b _ h
  rw [run_emit]
  exact (h.hints (grows b)).push (i := ⟨some b.hints.length, op⟩) hop

theorem emitVoid_unchecked {op : Op} (hop : op.Plain) : Unchecked ids (emitVoid op) :=
  ⟨fun _ _ h => h.push (i := ⟨none, op⟩) hop, fun _ => List.prefix_refl _⟩

theorem endBlock_unchecked {t : Terminator} {next : Nat} (hnext : next ∈ ids) :
    Unchecked ids (endBlock t next) := by
  refine ⟨?_, fun _ => List.prefix_refl _⟩
  intro b hids h
  rw [run_endBlock]
  refine ⟨h.symbols, fun _ hi => (nomatch hi), ?_, hids next hnext⟩
  refine List.forall_mem_cons.2 ⟨⟨h.block, ?_⟩, h.finished⟩
  exact fun i hi => h.body i (List.mem_reverse.1 hi)

theorem addSlot_unchecked (hint : String) (type : Ty) : Unchecked ids (addSlot hint type) := by
  refine ⟨?_, fun _ => List.prefix_append _ _⟩
  intro b _ h
  have hhints := h.hints (List.prefix_append b.hints [cutHint hint])
  exact ⟨hhints.symbols, hhints.body, hhints.finished, hhints.block⟩

theorem intern_unchecked {s : Symbol}
    (hs : s ≠ .function External.boundsFail.declaration) :
    Unchecked ids (intern s) := by
  have run (b : Builder) : ∃ rest, ((intern s).run b).2 = { b with symbols := b.symbols ++ rest } ∧
      Symbol.function External.boundsFail.declaration ∉ rest := by
    cases h : b.symbols.idxOf? s with
    | none =>
      refine ⟨[s], ?_, fun hmem => hs (List.mem_singleton.1 hmem).symm⟩
      rw [run_intern_new h]
    | some k =>
      refine ⟨[], ?_, List.not_mem_nil⟩
      rw [run_intern_known h, List.append_nil]
  refine ⟨?_, ?_⟩
  · intro b _ h
    obtain ⟨rest, hrun, hrest⟩ := run b
    rw [hrun]
    refine ⟨?_, h.body, h.finished, h.block⟩
    exact fun hmem => (List.mem_append.1 hmem).elim h.symbols hrest
  · intro b
    obtain ⟨rest, hrun, _⟩ := run b
    have hhints : b.hints = ((intern s).run b).2.hints := by rw [hrun]
    exact hhints ▸ List.prefix_refl _

theorem text_unchecked (s : String) : Unchecked ids (text s) :=
  (intern_unchecked (s := .text s) fun h => (nomatch h)).bind fun _ => .pure _

theorem declare_unchecked {f : External} (hf : f ≠ .boundsFail) :
    Unchecked ids (declare f) :=
  (intern_unchecked fun h => hf (External.name_injective
    (congrArg Declaration.name (Symbol.function.inj h)))).bind fun _ => .pure _

end Builder

end TinyScript.Ir

namespace TinyScript.Core.Lower

open Ir (Operand)
open Ir.Builder

variable {ids : List Nat}

/-! ### Expressions -/

theorem convert_unchecked (v : Operand) (c : Conversion) : Unchecked ids (convert v c) := by
  cases c <;> exact emit_unchecked (by trivial)

theorem elementAddress_unchecked (elem : Ir.Ty) (slice index : Operand) :
    Unchecked ids (elementAddress false elem slice index) := by
  refine Unchecked.bind (x := emit _ _ _) (emit_unchecked (by trivial)) fun _ => ?_
  exact emit_unchecked (by trivial)

theorem fill_unchecked (elem : Ir.Ty) (data : Operand) (k : Nat) (vs : List Operand) :
    Unchecked ids (fill elem data k vs) := by
  induction vs generalizing k with
  | nil => exact .pure ()
  | cons v vs ih =>
    refine (emit_unchecked (by trivial)).bind fun _ => ?_
    refine (emitVoid_unchecked (by trivial)).bind fun _ => ?_
    exact ih (k + 1)

theorem slice_unchecked (slot : Nat) (elem : Ir.Ty) (values : List Operand) :
    Unchecked ids (slice slot elem values) := by
  refine (addSlot_unchecked _ _).bind fun _ => ?_
  refine (emit_unchecked (by trivial)).bind fun _ => ?_
  refine (fill_unchecked _ _ _ _).bind fun _ => ?_
  refine (emit_unchecked (by trivial)).bind fun _ => ?_
  exact emit_unchecked (by trivial)

theorem pass_unchecked (type : Ty) (v : Operand) : Unchecked ids (pass type v) := by
  cases type with
  | array elem =>
    refine (emit_unchecked (by trivial)).bind fun _ => ?_
    refine (emit_unchecked (by trivial)).bind fun _ => ?_
    exact .pure _
  | str | i32 | f64 | bool | void => exact .pure _

theorem call_unchecked (f : Library.Function) (args : List Operand) :
    Unchecked ids (call f args) := by
  unfold call
  refine (declare_unchecked (by nofun)).bind fun _ => ?_
  split
  · exact (emitVoid_unchecked (by trivial)).bind fun _ => .pure _
  · exact emit_unchecked (by trivial)

theorem exprs_unchecked {es : List Expr} (h : ∀ e ∈ es, Unchecked ids (expr false e)) :
    Unchecked ids (exprs false es) := by
  induction es with
  | nil => exact .pure _
  | cons e es ih =>
    refine (h e List.mem_cons_self).bind fun _ => ?_
    exact (ih fun e he => h e (List.mem_cons_of_mem _ he)).bind fun _ => .pure _

theorem arguments_unchecked {es : List Expr} (h : ∀ e ∈ es, Unchecked ids (expr false e)) :
    Unchecked ids (arguments false es) := by
  induction es with
  | nil => exact .pure _
  | cons e es ih =>
    refine (h e List.mem_cons_self).bind fun _ => ?_
    refine (pass_unchecked _ _).bind fun _ => ?_
    exact (ih fun e he => h e (List.mem_cons_of_mem _ he)).bind fun _ => .pure _

theorem expr_unchecked (e : Expr) : Unchecked ids (expr false e) := by
  induction e using Expr.induct with
  | str s => exact text_unchecked s
  | int n => exact .pure _
  | float d => exact .pure _
  | bool b => exact .pure _
  | load v => exact emit_unchecked (by trivial)
  | arith op l r hl hr | compare op l r hl hr =>
    exact hl.bind fun _ => hr.bind fun _ => emit_unchecked (by trivial)
  | sameText negated l r hl hr =>
    refine hl.bind fun _ => hr.bind fun _ => ?_
    refine (declare_unchecked (by nofun)).bind fun _ => ?_
    refine (emit_unchecked (by trivial)).bind fun _ => ?_
    exact emit_unchecked (by trivial)
  | nonzero e he => exact he.bind fun _ => emit_unchecked (by trivial)
  | array slot elem es hes => exact (exprs_unchecked hes).bind fun _ => slice_unchecked _ _ _
  | element elem a i ha hi =>
    refine ha.bind fun _ => hi.bind fun _ => ?_
    refine (elementAddress_unchecked _ _ _).bind fun _ => ?_
    exact emit_unchecked (by trivial)
  | length a ha => exact ha.bind fun _ => emit_unchecked (by trivial)
  | call f es hes => exact (arguments_unchecked hes).bind fun _ => call_unchecked _ _

/-! ### Statements -/

theorem store_unchecked (v : Var) (c : Option Conversion) (value : Operand) :
    Unchecked ids (store v c value) := by
  have tail : ∀ value, Unchecked ids
      (emitVoid (.store value (.slot v.slot (.ofSource v.type)))) :=
    fun _ => emitVoid_unchecked (by trivial)
  cases c with
  | none => exact tail value
  | some c => exact (convert_unchecked value c).bind fun value => tail value

theorem printf_unchecked (format : String) (v : Operand) : Unchecked ids (printf format v) := by
  refine (declare_unchecked (by nofun)).bind fun _ => ?_
  refine (text_unchecked _).bind fun _ => ?_
  exact (emit_unchecked (by trivial)).bind fun _ => .pure _

theorem printText_unchecked (newline : Bool) (v : Operand) :
    Unchecked ids (printText newline v) := by
  cases newline with
  | true =>
    refine (declare_unchecked (by nofun)).bind fun _ => ?_
    exact (emit_unchecked (by trivial)).bind fun _ => .pure _
  | false => exact printf_unchecked _ _

theorem guard_unchecked (cond : Option Expr) (bodyBlock exit : Nat)
    (hbody : bodyBlock ∈ ids) : Unchecked ids (guard false cond bodyBlock exit) := by
  cases cond with
  | none => exact endBlock_unchecked hbody
  | some cond => exact (expr_unchecked cond).bind fun _ => endBlock_unchecked hbody

/-- Wherever a statement stands, its lowering checks no index. -/
def StmtUnchecked (s : Stmt) : Prop := ∀ ids, Unchecked ids (stmt false s)

theorem stmts_unchecked {ss : List Stmt} (h : ∀ s ∈ ss, StmtUnchecked s) :
    Unchecked ids (stmts false ss) := by
  induction ss with
  | nil => exact .pure _
  | cons s ss ih =>
    refine (h s List.mem_cons_self ids).bind fun _ => ?_
    exact ih fun s hs => h s (List.mem_cons_of_mem _ hs)

theorem clause_unchecked {s : Option Stmt} (h : ∀ s' ∈ s, StmtUnchecked s') :
    Unchecked ids (clause false s) := by
  cases s with
  | none => exact .pure _
  | some s => exact h s rfl ids

theorem branch_unchecked {cond : Expr} {yes no : List Stmt} (hyes : ∀ s ∈ yes, StmtUnchecked s)
    (hno : ∀ s ∈ no, StmtUnchecked s) : StmtUnchecked (.branch cond yes no) := by
  intro ids
  refine (expr_unchecked cond).bind fun _ => ?_
  refine .create (by simp [blockHints]) fun thenBlock => ?_
  split
  · refine .create (by simp [blockHints]) fun merge => ?_
    refine (endBlock_unchecked (by simp)).bind fun _ => ?_
    exact (stmts_unchecked hyes).bind fun _ => endBlock_unchecked (by simp)
  · refine .create (by simp [blockHints]) fun elseBlock => ?_
    refine .create (by simp [blockHints]) fun merge => ?_
    refine (endBlock_unchecked (by simp)).bind fun _ => ?_
    refine (stmts_unchecked hyes).bind fun _ => ?_
    refine (endBlock_unchecked (by simp)).bind fun _ => ?_
    exact (stmts_unchecked hno).bind fun _ => endBlock_unchecked (by simp)

theorem stmt_unchecked (s : Stmt) : StmtUnchecked s := by
  induction s using Stmt.induct with
  | declare v init =>
    intro ids
    cases init with
    | none => exact addSlot_unchecked _ _
    | some s =>
      refine (expr_unchecked s.value).bind fun _ => ?_
      exact (addSlot_unchecked _ _).bind fun _ => store_unchecked _ _ _
  | assign v s => exact fun _ => (expr_unchecked s.value).bind fun _ => store_unchecked _ _ _
  | setElement elem a i e =>
    intro ids
    refine (expr_unchecked a).bind fun _ => (expr_unchecked i).bind fun _ => ?_
    refine (elementAddress_unchecked _ _ _).bind fun _ => ?_
    exact (expr_unchecked e).bind fun _ => emitVoid_unchecked (by trivial)
  | eval e => exact fun _ => (expr_unchecked e).bind fun _ => .pure _
  | printText newline e =>
    exact fun _ => (expr_unchecked e).bind fun _ => printText_unchecked _ _
  | printInt newline e => exact fun _ => (expr_unchecked e).bind fun _ => printf_unchecked _ _
  | branch cond yes no hyes hno => exact branch_unchecked hyes hno
  | loopWhile cond body hbody =>
    intro ids
    refine .create (by simp [blockHints]) fun condBlock => ?_
    refine .create (by simp [blockHints]) fun bodyBlock => ?_
    refine .create (by simp [blockHints]) fun exit => ?_
    refine (endBlock_unchecked (by simp)).bind fun _ => ?_
    refine (expr_unchecked cond).bind fun _ => ?_
    refine (endBlock_unchecked (by simp)).bind fun _ => ?_
    exact (stmts_unchecked hbody).bind fun _ => endBlock_unchecked (by simp)
  | doWhile body cond hbody =>
    intro ids
    refine .create (by simp [blockHints]) fun bodyBlock => ?_
    refine .create (by simp [blockHints]) fun condBlock => ?_
    refine .create (by simp [blockHints]) fun exit => ?_
    refine (endBlock_unchecked (by simp)).bind fun _ => ?_
    refine (stmts_unchecked hbody).bind fun _ => ?_
    refine (endBlock_unchecked (by simp)).bind fun _ => ?_
    exact (expr_unchecked cond).bind fun _ => endBlock_unchecked (by simp)
  | loopFor init cond step body hinit hstep hbody =>
    intro ids
    refine (clause_unchecked hinit).bind fun _ => ?_
    refine .create (by simp [blockHints]) fun condBlock => ?_
    refine .create (by simp [blockHints]) fun bodyBlock => ?_
    refine .create (by simp [blockHints]) fun stepBlock => ?_
    refine .create (by simp [blockHints]) fun exit => ?_
    refine (endBlock_unchecked (by simp)).bind fun _ => ?_
    refine (guard_unchecked cond _ _ (by simp)).bind fun _ => ?_
    refine (stmts_unchecked hbody).bind fun _ => ?_
    refine (endBlock_unchecked (by simp)).bind fun _ => ?_
    exact (clause_unchecked hstep).bind fun _ => endBlock_unchecked (by simp)

/-! ### Modules -/

theorem start_plain : Plain start := by
  refine ⟨List.not_mem_nil, fun _ h => (nomatch h), fun _ h => (nomatch h), "entry", ?_, ?_⟩
  · simp [blockHints]
  · simp [start, Ir.cutHint]

/-- No block of a module without checks is called like one of a check, and nothing is
declared or called for one that failed. -/
theorem lower_unchecked (p : Program) (options : Options) (h : options.boundsChecks = false) :
    (∀ d ∈ (p.lower options).declarations, d.name ≠ Ir.External.boundsFail.name) ∧
      ∀ block ∈ (p.lower options).main.blocks, (∀ i ∈ block.body, i.op.Plain) ∧
        ¬"bounds".toList <+: ((p.lower options).label block).toList := by
  have hplain : Plain ((stmts options.boundsChecks p).run start).2 := by
    rw [h]
    have hstmts : Unchecked [] (stmts false p) := stmts_unchecked fun s _ => stmt_unchecked s
    exact hstmts.plain start (fun _ h => (nomatch h)) start_plain
  refine ⟨?_, ?_⟩
  · intro d hd hname
    obtain ⟨f, rfl⟩ := lower_declared hd
    rw [Ir.External.name_injective hname] at hd
    obtain ⟨s, hs, hsd⟩ := List.mem_filterMap.1 hd
    cases s with
    | text t => cases hsd
    | function d =>
      cases hsd
      rw [lower_symbols] at hs
      exact hplain.symbols hs
  · intro block hmem
    have hblock : Named (p.lower options).main.hints block.id ∧ ∀ i ∈ block.body, i.op.Plain := by
      rw [lower_hints]
      rcases mem_lower_blocks.1 hmem with rfl | hdone
      · exact ⟨hplain.block, fun i hi => hplain.body i (List.mem_reverse.1 hi)⟩
      · exact hplain.finished block hdone
    obtain ⟨⟨hint, hhint, hid⟩, hbody⟩ := hblock
    refine ⟨hbody, ?_⟩
    intro hbounds
    have hbegins := Ir.Module.label_begins hid
    rw [Ir.cutHint, String.toList_ofList] at hbegins
    have hapart : ∀ hint ∈ blockHints,
        ¬"bounds".toList <+: hint.toList.takeWhile (· ≠ '\x00') ∧
        ¬hint.toList.takeWhile (· ≠ '\x00') <+: "bounds".toList := by simp [blockHints]
    rcases List.prefix_or_prefix_of_prefix hbounds hbegins with h | h
    · exact (hapart hint hhint).1 h
    · exact (hapart hint hhint).2 h

end TinyScript.Core.Lower
