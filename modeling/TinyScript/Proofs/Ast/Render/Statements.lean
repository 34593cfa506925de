import TinyScript.Proofs.Ast.Render

/-! Statements and whole programs as text. An `else` that holds one `if` and nothing else
is written `else if`, and one that holds nothing is left out. -/

namespace TinyScript.Ast

open Grammar Number
open Token (Terminal terminal)
open Token.Terminal (fixed legible_fixed)

namespace Render

variable (spell : Double → String)

/-! ### Written statements -/

def word (x : String) : Terminal := ⟨Token.wordKind x, x⟩

def typeName (type : String) : List Terminal :=
  match Ty.stripBrackets? type with
  | some elem => word elem :: enclosed .lbracket [] .rbracket
  | none => [word type]

def annotated (type : String) : List Terminal :=
  if type = auto then [] else fixed .colon :: typeName type

/-- Something, or nothing. -/
def optional {α : Type} (write : α → List Terminal) (x : Option α) : List Terminal :=
  x.elim [] write

/-- A statement that can be a clause of a `for`, without its semicolon. -/
def simple : Stmt → List Terminal
  | .declare x type init =>
    fixed .kwLet :: name x :: (annotated type ++
      optional (fun e => fixed .assign :: expr spell 0 e) init)
  | .assign x e => name x :: fixed .assign :: expr spell 0 e
  | .setElement a i e =>
    expr spell 4 a ++ enclosed .lbracket (expr spell 0 i) .rbracket ++
      fixed .assign :: expr spell 0 e
  | .expr e => expr spell 0 e
  | _ => []

def parenthesized (e : Expr) : List Terminal := enclosed .lparen (expr spell 0 e) .rparen

def clauses (init : Option Stmt) (cond : Option Expr) (step : Option Stmt) : List Terminal :=
  enclosed .lparen (optional (simple spell) init ++ fixed .semicolon ::
    (optional (expr spell 0) cond ++ fixed .semicolon :: optional (simple spell) step)) .rparen

def isBranch : Stmt → Bool
  | .branch .. => true
  | _ => false

mutual

def stmt : Stmt → List Terminal
  | .branch cond yes no =>
    fixed .kwIf :: (parenthesized spell cond ++
      (enclosed .lbrace (stmts yes) .rbrace ++ otherwise no))
  | .loopWhile cond body =>
    fixed .kwWhile :: (parenthesized spell cond ++ enclosed .lbrace (stmts body) .rbrace)
  | .doWhile body cond =>
    fixed .kwDo :: (enclosed .lbrace (stmts body) .rbrace ++
      fixed .kwWhile :: (parenthesized spell cond ++ [fixed .semicolon]))
  | .loopFor init cond step body =>
    fixed .kwFor :: (clauses spell init cond step ++ enclosed .lbrace (stmts body) .rbrace)
  | s => simple spell s ++ [fixed .semicolon]

/-- The second arm of an `if`. -/
def otherwise : List Stmt → List Terminal
  | [] => []
  | s :: ss =>
    fixed .kwElse ::
      if ss.isEmpty && isBranch s then stmt s else enclosed .lbrace (stmt s ++ stmts ss) .rbrace

def stmts : List Stmt → List Terminal
  | [] => []
  | s :: ss => stmt s ++ stmts ss

end

end Render

/-- A program as text, with blanks between its tokens. -/
def Program.render (spell : Double → String) (p : Program) : String :=
  Terminal.source (Render.stmts spell p)

/-! ### Expressible statements -/

/-- Declarations, assignments and expressions that start with the name of a known function,
which may stand in the clauses of a `for` too. -/
inductive Stmt.ExpressibleClause (spell : Double → String) : Stmt → Prop where
  | declare {x type : String} {init : Option Expr} (hx : IsName x) (htype : IsDeclaredType type)
      (hinit : ∀ e ∈ init, e.Expressible spell) : ExpressibleClause spell (.declare x type init)
  | assign {x : String} {e : Expr} (hx : IsName x) (hknown : ¬Builtin.isKnown x)
      (he : e.Expressible spell) : ExpressibleClause spell (.assign x e)
  | setElement {x : String} {i e : Expr} (hx : IsName x) (hknown : ¬Builtin.isKnown x)
      (hi : i.Expressible spell) (he : e.Expressible spell) :
      ExpressibleClause spell (.setElement (.var x) i e)
  | expr {e : Expr} {f : String} (he : e.Expressible spell) (hf : Builtin.isKnown f)
      (hhead : (Render.expr spell 0 e).head? = some (Render.name f)) :
      ExpressibleClause spell (.expr e)

/-- Statements that text can express. -/
inductive Stmt.Expressible (spell : Double → String) : Stmt → Prop where
  | simple {s : Stmt} (h : s.ExpressibleClause spell) : Expressible spell s
  | branch {cond : Expr} {yes no : List Stmt} (hcond : cond.Expressible spell)
      (hyes : ∀ s ∈ yes, Expressible spell s) (hno : ∀ s ∈ no, Expressible spell s) :
      Expressible spell (.branch cond yes no)
  | loopWhile {cond : Expr} {body : List Stmt} (hcond : cond.Expressible spell)
      (hbody : ∀ s ∈ body, Expressible spell s) : Expressible spell (.loopWhile cond body)
  | doWhile {cond : Expr} {body : List Stmt} (hbody : ∀ s ∈ body, Expressible spell s)
      (hcond : cond.Expressible spell) : Expressible spell (.doWhile body cond)
  | loopFor {init step : Option Stmt} {cond : Option Expr} {body : List Stmt}
      (hinit : ∀ s ∈ init, s.ExpressibleClause spell) (hcond : ∀ e ∈ cond, e.Expressible spell)
      (hstep : ∀ s ∈ step, s.ExpressibleClause spell) (hbody : ∀ s ∈ body, Expressible spell s) :
      Expressible spell (.loopFor init cond step body)

namespace Render

variable {spell : Double → String}

/-! ### Legible statements -/

theorem stripBrackets?_word {x : String} (h : Token.isWord x.toList) :
    Ty.stripBrackets? x = none := by
  rw [Ty.stripBrackets?, if_neg]
  intro hdrop
  have hmem : '[' ∈ x.toList := List.mem_of_mem_drop (hdrop ▸ List.mem_cons_self)
  cases hx : x.toList with
  | nil =>
    rw [hx] at hmem
    cases hmem
  | cons c cs =>
    rw [hx] at h hmem
    rw [Token.isWord, Bool.and_eq_true, List.all_eq_true] at h
    rcases List.mem_cons.1 hmem with rfl | hmem
    · exact absurd h.1 (by decide)
    · exact absurd (h.2 _ hmem) (by decide)

theorem stripBrackets?_brackets (x : String) : Ty.stripBrackets? (x ++ "[]") = some x := by
  simp [Ty.stripBrackets?]

theorem legible_annotated {type : String} (h : IsDeclaredType type) :
    ∀ t ∈ annotated type, t.Legible := by
  rw [annotated]
  split
  case isTrue => nofun
  case isFalse hauto =>
    refine List.forall_mem_cons.2 ⟨legible_fixed (by decide), ?_⟩
    cases h with
    | auto => exact absurd rfl hauto
    | scalar hx =>
      rw [typeName, stripBrackets?_word hx.1]
      exact List.forall_mem_singleton.2 (Terminal.legible_word hx.1)
    | @array x hx =>
      rw [typeName, stripBrackets?_brackets]
      exact List.forall_mem_cons.2 ⟨Terminal.legible_word hx.1,
        legible_enclosed (by decide) nofun (by decide)⟩

theorem legible_optional {α : Type} {write : α → List Terminal} {x : Option α}
    (h : ∀ a ∈ x, ∀ t ∈ write a, t.Legible) : ∀ t ∈ optional write x, t.Legible := by
  cases x with
  | none => nofun
  | some a => exact h a rfl

theorem legible_simple {s : Stmt} (h : s.ExpressibleClause spell) :
    ∀ t ∈ simple spell s, t.Legible := by
  cases h with
  | declare hx htype hinit =>
    simp only [simple, List.forall_mem_cons, List.forall_mem_append]
    refine ⟨legible_fixed (by decide), legible_name hx, legible_annotated htype, ?_⟩
    exact legible_optional fun e he =>
      List.forall_mem_cons.2 ⟨legible_fixed (by decide), legible_expr (hinit e he) 0⟩
  | assign hx _ he =>
    simp only [simple, List.forall_mem_cons]
    exact ⟨legible_name hx, legible_fixed (by decide), legible_expr he 0⟩
  | setElement hx _ hi he =>
    simp only [simple, List.forall_mem_cons, List.forall_mem_append]
    exact ⟨⟨legible_expr (.var hx) 4, legible_enclosed (by decide) (legible_expr hi 0) (by decide)⟩,
      legible_fixed (by decide), legible_expr he 0⟩
  | expr he => exact legible_expr he 0

theorem legible_parenthesized {e : Expr} (h : e.Expressible spell) :
    ∀ t ∈ parenthesized spell e, t.Legible :=
  legible_enclosed (by decide) (legible_expr h 0) (by decide)

theorem legible_stmts {ss : List Stmt} (h : ∀ s ∈ ss, ∀ t ∈ stmt spell s, t.Legible) :
    ∀ t ∈ stmts spell ss, t.Legible := by
  induction ss with
  | nil => nofun
  | cons s ss ih =>
    rw [List.forall_mem_cons] at h
    exact List.forall_mem_append.2 ⟨h.1, ih h.2⟩

theorem legible_block {ss : List Stmt} (h : ∀ s ∈ ss, ∀ t ∈ stmt spell s, t.Legible) :
    ∀ t ∈ enclosed .lbrace (stmts spell ss) .rbrace, t.Legible :=
  legible_enclosed (by decide) (legible_stmts h) (by decide)

theorem legible_otherwise {ss : List Stmt} (h : ∀ s ∈ ss, ∀ t ∈ stmt spell s, t.Legible) :
    ∀ t ∈ otherwise spell ss, t.Legible := by
  cases ss with
  | nil => nofun
  | cons s ss =>
    refine List.forall_mem_cons.2 ⟨legible_fixed (by decide), ?_⟩
    split
    · exact h s List.mem_cons_self
    · exact legible_block h

theorem stmt_simple {s : Stmt} (h : s.ExpressibleClause spell) :
    stmt spell s = simple spell s ++ [fixed .semicolon] := by
  cases h <;> rfl

theorem legible_stmt {s : Stmt} (h : s.Expressible spell) : ∀ t ∈ stmt spell s, t.Legible := by
  induction h with
  | simple h =>
    rw [stmt_simple h, List.forall_mem_append]
    exact ⟨legible_simple h, List.forall_mem_singleton.2 (legible_fixed (by decide))⟩
  | branch hcond _ _ ihyes ihno =>
    simp only [stmt, List.forall_mem_cons, List.forall_mem_append]
    exact ⟨legible_fixed (by decide), legible_parenthesized hcond, legible_block ihyes,
      legible_otherwise ihno⟩
  | loopWhile hcond _ ih =>
    simp only [stmt, List.forall_mem_cons, List.forall_mem_append]
    exact ⟨legible_fixed (by decide), legible_parenthesized hcond, legible_block ih⟩
  | doWhile _ hcond ih =>
    simp only [stmt, List.forall_mem_cons, List.forall_mem_append]
    exact ⟨legible_fixed (by decide), legible_block ih, legible_fixed (by decide),
      legible_parenthesized hcond, legible_fixed (by decide), nofun⟩
  | loopFor hinit hcond hstep _ ih =>
    simp only [stmt, clauses, List.forall_mem_cons, List.forall_mem_append]
    refine ⟨legible_fixed (by decide), legible_enclosed (by decide) ?_ (by decide),
      legible_block ih⟩
    simp only [List.forall_mem_cons, List.forall_mem_append]
    exact ⟨legible_optional fun s hs => legible_simple (hinit s hs), legible_fixed (by decide),
      legible_optional fun e he => legible_expr (hcond e he) 0, legible_fixed (by decide),
      legible_optional fun s hs => legible_simple (hstep s hs)⟩

/-! ### Composed statements -/

theorem composes_typeName {type : String} {ts : List Token} (h : IsDeclaredType type)
    (hauto : type ≠ auto) (hts : ts.map terminal = typeName type) : TypeName type ts := by
  cases h with
  | auto => exact absurd rfl hauto
  | scalar hx =>
    rw [typeName, stripBrackets?_word hx.1] at hts
    obtain ⟨t, rfl, ht⟩ := List.map_eq_singleton_iff.1 hts
    obtain ⟨hkind, rfl⟩ := Terminal.mk.inj ht
    exact .scalar (hkind ▸ hx.2)
  | @array x hx =>
    rw [typeName, stripBrackets?_brackets] at hts
    obtain ⟨t, us, rfl, ht, hus⟩ := List.map_eq_cons_iff.1 hts
    obtain ⟨l, us, r, rfl, hl, hus, hr⟩ := cut_enclosed hus
    obtain rfl := List.map_eq_nil_iff.1 hus
    obtain ⟨hkind, rfl⟩ := Terminal.mk.inj ht
    exact .array (hkind ▸ hx.2) hl hr

theorem composes_annotated {type : String} {ts : List Token} (h : IsDeclaredType type)
    (hts : ts.map terminal = annotated type) : Annotated type ts := by
  rw [annotated] at hts
  split at hts
  case isTrue hauto =>
    rw [hauto, List.map_eq_nil_iff.1 hts]
    exact .none
  case isFalse hauto =>
    obtain ⟨t, ts, rfl, ht, hts⟩ := cut_fixed hts
    exact .some ht (composes_typeName h hauto hts)

theorem perhaps_optional {α : Type} {P : α → List Token → Prop} {write : α → List Terminal}
    {x : Option α} (h : ∀ a ∈ x, ∀ ts, ts.map terminal = write a → P a ts) {ts : List Token}
    (hts : ts.map terminal = optional write x) : Perhaps P x ts := by
  cases x with
  | none =>
    rw [List.map_eq_nil_iff.1 hts]
    exact .none
  | some a => exact .some (h a rfl ts hts)

theorem spells_expr {e : Expr} (h : e.Expressible spell) (ts : List Token)
    (hts : ts.map terminal = expr spell 0 e) : Spells e ts :=
  derives_expr h 0 ts hts

theorem clause_simple {s : Stmt} (h : s.ExpressibleClause spell) (ts : List Token)
    (hts : ts.map terminal = simple spell s) : Clause s ts := by
  cases h with
  | declare hx htype hinit =>
    obtain ⟨k, ts, rfl, hk, h₁⟩ := cut_fixed hts
    obtain ⟨t, ts, rfl, ht, rfl, h₂⟩ := cut_name h₁
    obtain ⟨ts, us, rfl, htypes, hinits⟩ := List.map_eq_append_iff.1 h₂
    refine .declaration (.mk (hk ▸ List.mem_cons_self) ht
      (composes_annotated htype htypes) (perhaps_optional ?_ hinits))
    intro e he vs hvs
    obtain ⟨u, vs, rfl, hu, hvalue⟩ := cut_fixed hvs
    exact .mk hu (spells_expr (hinit e he) vs hvalue)
  | assign hx hknown he =>
    obtain ⟨t, ts, rfl, ht, rfl, h₁⟩ := cut_name hts
    obtain ⟨u, ts, rfl, hu, hvalue⟩ := cut_fixed h₁
    exact .simple (.assign ht hknown hu (spells_expr he ts hvalue))
  | setElement hx hknown hi he =>
    obtain ⟨ts, us, rfl, hplace, h₁⟩ := List.map_eq_append_iff.1 hts
    obtain ⟨ts, vs, rfl, hname, h₂⟩ := List.map_eq_append_iff.1 hplace
    obtain ⟨t, rfl, ht⟩ := List.map_eq_singleton_iff.1 hname
    obtain ⟨l, vs, r, rfl, hl, hindex, hr⟩ := cut_enclosed h₂
    obtain ⟨u, us, rfl, hu, hvalue⟩ := cut_fixed h₁
    obtain ⟨hkind, rfl⟩ := Terminal.mk.inj ht
    have hset := Simple.setElement hkind hknown hl (spells_expr hi vs hindex) hr hu
      (spells_expr he us hvalue)
    simpa using Clause.simple hset
  | @expr e f he hf hhead =>
    cases ts with
    | nil =>
      rw [← show _ = expr spell 0 e from hts] at hhead
      cases hhead
    | cons t ts =>
      rw [← show _ = expr spell 0 e from hts] at hhead
      obtain ⟨hkind, rfl⟩ := Terminal.mk.inj (Option.some.inj hhead)
      exact .simple (.known hkind hf (spells_expr he _ hts))

theorem composes_parenthesized {e : Expr} {ts : List Token} (h : e.Expressible spell)
    (hts : ts.map terminal = parenthesized spell e) : Parenthesized e ts := by
  obtain ⟨l, ts, r, rfl, hl, hts, hr⟩ := cut_enclosed hts
  exact .mk hl (spells_expr h ts hts) hr

theorem composes_clauses {init step : Option Stmt} {cond : Option Expr} {ts : List Token}
    (hinit : ∀ s ∈ init, s.ExpressibleClause spell) (hcond : ∀ e ∈ cond, e.Expressible spell)
    (hstep : ∀ s ∈ step, s.ExpressibleClause spell)
    (hts : ts.map terminal = clauses spell init cond step) :
    ForClauses (init, cond, step) ts := by
  obtain ⟨l, ts, r, rfl, hl, h₁, hr⟩ := cut_enclosed hts
  obtain ⟨ts, us, rfl, hinits, h₂⟩ := List.map_eq_append_iff.1 h₁
  obtain ⟨t, us, rfl, ht, h₃⟩ := cut_fixed h₂
  obtain ⟨us, vs, rfl, hconds, h₄⟩ := List.map_eq_append_iff.1 h₃
  obtain ⟨u, vs, rfl, hu, hsteps⟩ := cut_fixed h₄
  have hclauses := ForClauses.mk hl
    (perhaps_optional (fun s hs => clause_simple (hinit s hs)) hinits) ht
    (perhaps_optional (fun e he => spells_expr (hcond e he)) hconds) hu
    (perhaps_optional (fun s hs => clause_simple (hstep s hs)) hsteps) hr
  simpa using hclauses

/-- What is written for a statement is one, and what is written for a branch is one after
its `if` too. -/
structure Composed (spell : Double → String) (s : Stmt) : Prop where
  statement : ∀ ts, ts.map terminal = stmt spell s → Composes (.statement s) ts
  branch : isBranch s → ∀ t ts, (t :: ts).map terminal = stmt spell s → Composes (.branch s) ts

theorem composes_stmts {ss : List Stmt} (h : ∀ s ∈ ss, Composed spell s) {ts : List Token}
    (hts : ts.map terminal = stmts spell ss) : Composes (.statements ss) ts := by
  induction ss generalizing ts with
  | nil =>
    rw [List.map_eq_nil_iff.1 hts]
    exact .nil
  | cons s ss ih =>
    rw [List.forall_mem_cons] at h
    obtain ⟨ts, us, rfl, hts, hus⟩ := List.map_eq_append_iff.1 hts
    exact .cons (h.1.statement ts hts) (ih h.2 hus)

theorem composes_block {ss : List Stmt} (h : ∀ s ∈ ss, Composed spell s) {ts : List Token}
    (hts : ts.map terminal = enclosed .lbrace (stmts spell ss) .rbrace) :
    Composes (.block ss) ts := by
  obtain ⟨l, ts, r, rfl, hl, hts, hr⟩ := cut_enclosed hts
  exact .block hl (composes_stmts h hts) hr

theorem composes_branch {cond : Expr} {yes no : List Stmt} (hcond : cond.Expressible spell)
    (hyes : ∀ s ∈ yes, Composed spell s) (hno : ∀ s ∈ no, Composed spell s) {ts : List Token}
    (hts : ts.map terminal = parenthesized spell cond ++
      (enclosed .lbrace (stmts spell yes) .rbrace ++ otherwise spell no)) :
    Composes (.branch (.branch cond yes no)) ts := by
  obtain ⟨ts, us, rfl, hconds, h₁⟩ := List.map_eq_append_iff.1 hts
  obtain ⟨us, vs, rfl, hblock, hotherwise⟩ := List.map_eq_append_iff.1 h₁
  have hcond := composes_parenthesized hcond hconds
  have hyes := composes_block hyes hblock
  cases no with
  | nil =>
    rw [List.map_eq_nil_iff.1 hotherwise, List.append_nil]
    exact .oneArm hcond hyes
  | cons s ss =>
    obtain ⟨k, vs, rfl, hk, hvs⟩ := cut_fixed hotherwise
    split at hvs
    case isTrue hnested =>
      rw [Bool.and_eq_true, List.isEmpty_iff] at hnested
      obtain ⟨rfl, hs⟩ := hnested
      cases s with
      | branch cond yes no =>
        obtain ⟨l, ws, rfl, hl, _⟩ := cut_fixed hvs
        exact .elseIf hcond hyes hk hl ((hno _ List.mem_cons_self).branch rfl l ws hvs)
      | _ => cases hs
    case isFalse =>
      exact .elseBlock hcond hyes hk (composes_block hno hvs)

theorem composed_stmt {s : Stmt} (h : s.Expressible spell) : Composed spell s := by
  induction h with
  | simple h =>
    constructor
    · intro ts hts
      rw [stmt_simple h] at hts
      obtain ⟨ts, us, rfl, hclause, h₁⟩ := List.map_eq_append_iff.1 hts
      obtain ⟨t, rfl, ht⟩ := cut_last h₁
      cases clause_simple h ts hclause with
      | declaration h => exact .declaration h ht
      | simple h => exact .simple h ht
    · intro hbranch
      cases h <;> cases hbranch
  | branch hcond _ _ ihyes ihno =>
    constructor
    · intro ts hts
      obtain ⟨k, ts, rfl, hk, hrest⟩ := cut_fixed hts
      exact .branch hk (composes_branch hcond ihyes ihno hrest)
    · intro _ t ts hts
      exact composes_branch hcond ihyes ihno (List.cons.inj hts).2
  | loopWhile hcond _ ih =>
    refine ⟨?_, nofun⟩
    intro ts hts
    obtain ⟨k, ts, rfl, hk, h₁⟩ := cut_fixed hts
    obtain ⟨ts, us, rfl, hconds, hblock⟩ := List.map_eq_append_iff.1 h₁
    exact .loopWhile hk (composes_parenthesized hcond hconds) (composes_block ih hblock)
  | doWhile _ hcond ih =>
    refine ⟨?_, nofun⟩
    intro ts hts
    obtain ⟨k, ts, rfl, hk, h₁⟩ := cut_fixed hts
    obtain ⟨ts, us, rfl, hblock, h₂⟩ := List.map_eq_append_iff.1 h₁
    obtain ⟨l, us, rfl, hl, h₃⟩ := cut_fixed h₂
    obtain ⟨us, vs, rfl, hconds, h₄⟩ := List.map_eq_append_iff.1 h₃
    obtain ⟨t, rfl, ht⟩ := cut_last h₄
    exact .doWhile hk (composes_block ih hblock) hl (composes_parenthesized hcond hconds) ht
  | loopFor hinit hcond hstep _ ih =>
    refine ⟨?_, nofun⟩
    intro ts hts
    obtain ⟨k, ts, rfl, hk, h₁⟩ := cut_fixed hts
    obtain ⟨ts, us, rfl, hclauses, hblock⟩ := List.map_eq_append_iff.1 h₁
    exact .loopFor hk (composes_clauses hinit hcond hstep hclauses) (composes_block ih hblock)

/-! ### Round trip -/

/-- The tokens in front of the end are those that were written. -/
theorem written_source {us : List Terminal} (h : ∀ t ∈ us, t.Legible) :
    ((Token.tokens (Terminal.source us)).takeWhile (·.kind ≠ .endOfInput)).map terminal = us := by
  have htokens := Terminal.tokens_source h
  have hnotEnd : ∀ t ∈ us, decide (t.kind ≠ .endOfInput) = true := by
    intro t ht
    obtain ⟨_, _, _, hspells⟩ := h t ht
    exact decide_eq_true hspells.notEnd
  have hmap := congrArg (List.takeWhile fun t => decide (t.kind ≠ .endOfInput)) htokens
  rw [List.takeWhile_map, List.takeWhile_append_of_pos hnotEnd,
    List.takeWhile_cons_of_neg (by decide), List.append_nil] at hmap
  exact hmap

end Render

/-- **Round trip.** What is written for an expressible program is read as that program. -/
theorem parse_render (spell : Double → String) (p : Program)
    (h : ∀ s ∈ p, s.Expressible spell) : Program.parse (p.render spell) = .ok p := by
  have hlegible := Render.legible_stmts fun s hs => Render.legible_stmt (h s hs)
  have hcomposes := Render.composes_stmts (fun s hs => Render.composed_stmt (h s hs))
    (Render.written_source hlegible)
  exact Parser.program_complete hcomposes

/-- A loop, an `else if`, parentheses on the right, quotes in a text and a float. -/
def sample : Program :=
  [.declare "grid" "i32[]" (some (.array "i32" [.int 7, .int 8])),
    .loopFor (some (.declare "i" auto (some (.int 0))))
      (some (.binary .lt (.var "i") (.int 2)))
      (some (.assign "i" (.binary .add (.var "i") (.int 1))))
      [.setElement (.var "grid") (.var "i")
        (.binary .sub (.var "i") (.binary .sub (.float ⟨0x4004000000000000⟩) (.int 1)))],
    .branch (.binary .eq (.index (.var "grid") (.int 0)) (.int 7)) []
      [.branch (.bool true) [.expr (.call "println" [.str "say \"hi\"\n"])] []]]

theorem sample_round_trip :
    (∀ s ∈ sample, s.Expressible fun _ => "2.5") ∧
      sample.render (fun _ => "2.5") = "let grid : i32 [ ] = [ 7 , 8 ] ; " ++
        "for ( let i = 0 ; i < 2 ; i = i + 1 ) \x7b grid [ i ] = i - ( 2.5 - 1 ) ; \x7d " ++
        "if ( grid [ 0 ] == 7 ) \x7b \x7d else if ( true ) " ++
        "\x7b println ( \"say \\\"hi\\\"\\n\" ) ; \x7d" ∧
      Program.parse (sample.render fun _ => "2.5") = .ok sample := by
  have hnat (n : Nat) (hn : (n : Int) ≤ Radix.greatest) :
      Expr.Expressible (fun _ => "2.5") (.int n) := .int (Int.natCast_nonneg n) hn
  have hgrid : IsName "grid" := by decide
  have hi : IsName "i" := by decide
  have hfloat : Expr.Expressible (fun _ => "2.5") (.float ⟨0x4004000000000000⟩) := by
    refine .float ⟨['2'], ['5'], [], rfl, ⟨nofun, List.forall_mem_singleton.2 rfl⟩,
      ⟨nofun, List.forall_mem_singleton.2 rfl⟩, .none⟩ ?_
    have hread : (Token.floatValue "2.5").toOption = some ⟨0x4004000000000000⟩ := by
      decide +kernel
    cases hvalue : Token.floatValue "2.5" with
    | ok d =>
      rw [hvalue] at hread
      exact congrArg Except.ok (Option.some.inj hread)
    | error err =>
      rw [hvalue] at hread
      cases hread
  have h : ∀ s ∈ sample, s.Expressible fun _ => "2.5" := by
    simp only [sample, List.forall_mem_cons]
    refine ⟨.simple (.declare hgrid (.array (x := "i32") (by decide)) ?_),
      .loopFor ?_ ?_ ?_ ?_, .branch (.binary .eq (.index (.var hgrid) (hnat 0 (by decide)))
        (hnat 7 (by decide))) nofun ?_, nofun⟩
    · rintro _ ⟨⟩
      exact .array (List.forall_mem_cons.2 ⟨hnat 7 (by decide),
        List.forall_mem_singleton.2 (hnat 8 (by decide))⟩)
    · rintro _ ⟨⟩
      exact .declare hi .auto (by rintro _ ⟨⟩; exact hnat 0 (by decide))
    · rintro _ ⟨⟩
      exact .binary .lt (.var hi) (hnat 2 (by decide))
    · rintro _ ⟨⟩
      exact .assign hi (by decide) (.binary .add (.var hi) (hnat 1 (by decide)))
    · refine List.forall_mem_singleton.2 (.simple (.setElement hgrid (by decide) (.var hi) ?_))
      exact .binary .sub (.var hi) (.binary .sub hfloat (hnat 1 (by decide)))
    · refine List.forall_mem_singleton.2 (.branch (.bool true) ?_ nofun)
      refine List.forall_mem_singleton.2 (.simple (.expr (f := "println") ?_ (by decide) rfl))
      exact .call (by decide) (List.forall_mem_singleton.2 (.str _))
  exact ⟨h, by decide +kernel, parse_render _ sample h⟩

end TinyScript.Ast
