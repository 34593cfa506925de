import TinyScript.Proofs.Ast.Completeness
import TinyScript.Proofs.Ast.Soundness

/-! Statements the grammar composes are read. A semicolon or a parenthesis ends what
has no block, and an `if` without an `else` ends where no `else` comes next, which no
statement begins with. So the programs that are read are the grammar's, all of them and
no others. -/

namespace TinyScript.Ast.Parser

open Grammar

variable {α : Type} {fin : Token} {ts us rest : List Token}

/-! ### Simple statements -/

theorem typeName_read {type : String} (h : TypeName type ts) (hrest : Lacks .lbracket rest) :
    plain (typeName fin (ts ++ rest)) = .ok (type, rest) := by
  have isType {k : Token.Kind}
      (hk : k ∈ [.tyNumber, .tyString, .tyBoolean, .tyI32, .tyF64, .identifier]) :
      k.isTypeName ∨ k = .identifier := by
    revert hk
    cases k <;> decide
  cases h with
  | scalar ht =>
    rw [List.singleton_append, plain_typeName]
    dsimp only
    rw [if_pos (isType ht), after?_eq_none hrest]
  | array ht hl hr =>
    rw [List.cons_append, List.cons_append, List.singleton_append, plain_typeName]
    dsimp only
    rw [if_pos (isType ht), after?_of_kind hl]
    dsimp only
    rw [expected_of_kind hr]
    rfl

theorem declaredType_read {type : String} (h : Annotated type ts)
    (hcolon : Lacks .colon rest) (hrest : Lacks .lbracket rest) :
    plain (declaredType fin (ts ++ rest)) = .ok (type, rest) := by
  cases h with
  | none => rw [List.nil_append, plain_declaredType, after?_eq_none hcolon]
  | some ht htype =>
    rw [List.cons_append, plain_declaredType, after?_of_kind ht]
    exact typeName_read htype hrest

theorem initialValue_read {init : Option Expr} (h : Perhaps Initial init ts)
    (hassign : Lacks .assign rest) (hrest : Follows 0 rest) :
    plain (initialValue fin (ts ++ rest)) = .ok (init, rest) := by
  cases h with
  | none => rw [List.nil_append, plain_initialValue, after?_eq_none hassign]
  | some h =>
    obtain ⟨ht, he⟩ := h
    rw [List.cons_append, plain_initialValue, after?_of_kind ht]
    dsimp only
    rw [spells_read he hrest]
    rfl

/-- What ends a statement or a clause. -/
def enders : List Token.Kind := [.semicolon, .rparen]

theorem closer_of_ender {t : Token} (ht : t.kind ∈ enders) : t.kind ∈ closers := by
  revert ht
  cases t.kind <;> decide

theorem lacks_of_ender {t : Token} {k : Token.Kind} (ht : t.kind ∈ enders) (hk : k ∉ enders)
    (rest : List Token) : Lacks k (t :: rest) := by
  rintro u ⟨⟩ rfl
  exact hk ht

theorem declaration_read (fin : Token) {s : Stmt} (h : Declaration s us) :
    ∃ k ts, us = k :: ts ∧ k.kind ∈ [.kwLet, .kwConst, .kwVar] ∧ ∀ t rest, t.kind ∈ enders →
      plain (declaration fin (ts ++ t :: rest)) = .ok (s, t :: rest) := by
  obtain @⟨k, name, ts, us, type, init, hk, hname, htype, hinit⟩ := h
  refine ⟨k, name :: (ts ++ us), rfl, hk, ?_⟩
  intro t rest ht
  have hlacks {k' : Token.Kind} (hender : k' ∉ enders) (hassign : .assign ≠ k') :
      Lacks k' (us ++ t :: rest) := by
    cases hinit with
    | none => exact lacks_of_ender ht hender rest
    | some h =>
      obtain ⟨hu, _⟩ := h
      rintro v ⟨⟩
      rwa [hu]
  have hts : name :: (ts ++ us) ++ t :: rest = name :: (ts ++ (us ++ t :: rest)) := by simp
  rw [hts, plain_declaration, expected_of_kind hname]
  show (plain (declaredType fin (ts ++ (us ++ t :: rest))) >>= _) = _
  rw [declaredType_read htype (hlacks (by decide) (by decide)) (hlacks (by decide) (by decide))]
  show (plain (initialValue fin (us ++ t :: rest)) >>= _) = _
  rw [initialValue_read hinit (lacks_of_ender ht (by decide) rest)
    (follows_of_closer (closer_of_ender ht) rest)]
  rfl

theorem simple_read (fin : Token) {s : Stmt} (h : Simple s us) :
    ∃ name ts, us = name :: ts ∧ name.kind = .identifier ∧ ∀ t rest, t.kind ∈ enders →
      plain (simple fin name (ts ++ t :: rest)) = .ok (s, t :: rest) := by
  have follows {t : Token} (ht : t.kind ∈ enders) (rest : List Token) : Follows 0 (t :: rest) :=
    follows_of_closer (closer_of_ender ht) rest
  cases h with
  | @known name e ts hname hknown he =>
    refine ⟨name, ts, rfl, hname, ?_⟩
    intro t rest ht
    have hread : plain (expr fin 0 (name :: (ts ++ t :: rest))) = .ok (e, t :: rest) :=
      spells_read he (follows ht rest)
    rw [plain_simple, if_pos hknown, hread]
    rfl
  | @assign u name e ts hname hknown hu he =>
    refine ⟨name, u :: ts, rfl, hname, ?_⟩
    intro t rest ht
    rw [plain_simple, if_neg hknown, List.cons_append]
    dsimp only
    rw [hu]
    dsimp only
    rw [spells_read he (follows ht rest)]
    rfl
  | @increment u name hname hknown hu | @decrement u name hname hknown hu =>
    refine ⟨name, [u], rfl, hname, ?_⟩
    intro t rest ht
    rw [plain_simple, if_neg hknown, List.singleton_append]
    dsimp only
    rw [hu]
  | @setElement u l r name e i ts us hname hknown hl hi hr hu he =>
    refine ⟨name, l :: (ts ++ r :: u :: us), rfl, hname, ?_⟩
    intro t rest ht
    have hts : l :: (ts ++ r :: u :: us) ++ t :: rest = l :: (ts ++ r :: u :: (us ++ t :: rest)) := by
      simp
    rw [hts, plain_simple, if_neg hknown]
    dsimp only
    rw [hl]
    dsimp only
    rw [if_pos (assignsElement_of_spells hl hi hr hu _),
      spells_read hi (follows_of_closer (t := r) (by simp [hr, closers]) _)]
    show (expected fin .rbracket (r :: u :: (us ++ t :: rest)) >>= _) = _
    rw [expected_of_kind hr]
    show (expected fin .assign (u :: (us ++ t :: rest)) >>= _) = _
    rw [expected_of_kind hu]
    show (plain (expr fin 0 (us ++ t :: rest)) >>= _) = _
    rw [spells_read he (follows ht rest)]
    rfl

/-- What a simple statement or a clause begins with. -/
def openers : List Token.Kind := [.kwLet, .kwConst, .kwVar, .identifier]

theorem clause_read (fin : Token) {s : Stmt} (h : Clause s us) :
    Begins openers us ∧ ∀ t rest, t.kind ∈ enders →
      plain (clause fin (us ++ t :: rest)) = .ok (s, t :: rest) := by
  cases h with
  | declaration h =>
    obtain ⟨k, ts, rfl, hk, hread⟩ := declaration_read fin h
    refine ⟨⟨k, ts, rfl, ?_⟩, ?_⟩
    · revert hk
      cases k.kind <;> decide
    · intro t rest ht
      rw [List.cons_append, plain_clause]
      dsimp only
      simp only [List.mem_cons, List.not_mem_nil, or_false] at hk
      rcases hk with hk | hk | hk <;> rw [hk] <;> exact hread t rest ht
  | simple h =>
    obtain ⟨name, ts, rfl, hname, hread⟩ := simple_read fin h
    refine ⟨begins_of_kind hname (by decide) ts, ?_⟩
    intro t rest ht
    rw [List.cons_append, plain_clause]
    dsimp only
    rw [hname]
    exact hread t rest ht

theorem optional_read {R : α → List Token → Prop} {k : Token.Kind} {t : Token} {o : Option α}
    {read : Result (α × Shorter (us ++ t :: rest))} (h : Perhaps R o us) (ht : t.kind = k)
    (hread : ∀ a, R a us → plain read = .ok (a, t :: rest))
    (hlacks : ∀ a, R a us → Lacks k (us ++ t :: rest)) :
    plain (optional k (us ++ t :: rest) read) = .ok (o, t :: rest) := by
  rw [plain_optional]
  cases h with
  | none => exact if_pos (at?_of_kind ht rest)
  | some h =>
    have hat : ¬at? k (us ++ t :: rest) = true := by
      rw [at?_eq_false (hlacks _ h)]
      exact Bool.false_ne_true
    rw [if_neg hat, hread _ h]
    rfl

theorem parenthesized_read {e : Expr} (h : Parenthesized e ts) :
    plain (parenthesized fin (ts ++ rest)) = .ok (e, rest) := by
  obtain @⟨l, r, _, ts, hl, he, hr⟩ := h
  have hts : l :: (ts ++ [r]) ++ rest = l :: (ts ++ r :: rest) := by simp
  rw [hts, plain_parenthesized, expected_of_kind hl]
  exact closed (f := id)
    (spells_read he (follows_of_closer (t := r) (by simp [hr, closers]) rest)) hr

theorem optional_clause_read {k : Token.Kind} {t : Token} {o : Option Stmt}
    (h : Perhaps Clause o us) (ht : t.kind = k) (hk : k ∈ enders) :
    plain (optional k (us ++ t :: rest) (clause fin (us ++ t :: rest))) = .ok (o, t :: rest) := by
  refine optional_read h ht ?_ ?_
  · exact fun s hs => (clause_read fin hs).2 t rest (ht ▸ hk)
  · intro s hs
    refine ((clause_read fin hs).1.append _).lacks ?_
    revert hk
    cases k <;> decide

theorem optional_expr_read {t : Token} {o : Option Expr} (h : Perhaps Spells o us)
    (ht : t.kind = .semicolon) :
    plain (optional .semicolon (us ++ t :: rest) (expr fin 0 (us ++ t :: rest))) =
      .ok (o, t :: rest) := by
  refine optional_read h ht ?_ ?_
  · exact fun e he => spells_read he (follows_of_closer (t := t) (by simp [ht, closers]) rest)
  · intro e he
    have hbegins : Begins starters us := derives_starts he
    exact (hbegins.append _).lacks (by decide)

theorem forClauses_read {clauses : Option Stmt × Option Expr × Option Stmt}
    (h : ForClauses clauses ts) :
    plain (forClauses fin (ts ++ rest)) = .ok (clauses, rest) := by
  obtain @⟨t, l, r, ts, us, init, step, cond, vs, t', hl, hinit, ht, hcond, ht', hstep, hr⟩ := h
  have hts : l :: (ts ++ t :: (us ++ t' :: (vs ++ [r]))) ++ rest =
      l :: (ts ++ t :: (us ++ t' :: (vs ++ r :: rest))) := by simp
  rw [hts, plain_forClauses, expected_of_kind hl]
  show (plain (optional .semicolon (ts ++ t :: (us ++ t' :: (vs ++ r :: rest))) _) >>= _) = _
  rw [optional_clause_read hinit ht (by decide)]
  show (expected fin .semicolon (t :: (us ++ t' :: (vs ++ r :: rest))) >>= _) = _
  rw [expected_of_kind ht]
  show (plain (optional .semicolon (us ++ t' :: (vs ++ r :: rest)) _) >>= _) = _
  rw [optional_expr_read hcond ht']
  show (expected fin .semicolon (t' :: (vs ++ r :: rest)) >>= _) = _
  rw [expected_of_kind ht']
  show (plain (optional .rparen (vs ++ r :: rest) _) >>= _) = _
  rw [optional_clause_read hstep hr (by decide)]
  show (expected fin .rparen (r :: rest) >>= _) = _
  rw [expected_of_kind hr]
  rfl

/-! ### Statements -/

/-- What a statement begins with. -/
def leaders : List Token.Kind :=
  [.kwLet, .kwConst, .kwVar, .kwIf, .kwWhile, .kwDo, .kwFor, .identifier]

/-- What readers do with the tokens of a sentence. An `if` without an `else` is read up
to where there is none. -/
def Completes (fin : Token) : Sentence → List Token → Prop
  | .statement s, ts => Begins leaders ts ∧ ∀ rest, Lacks .kwElse rest →
    plain (stmt fin (ts ++ rest)) = .ok (s, rest)
  | .branch s, ts => ∀ rest, Lacks .kwElse rest → plain (branch fin (ts ++ rest)) = .ok (s, rest)
  | .block ss, ts => Begins [.lbrace] ts ∧ ∀ rest, plain (block fin (ts ++ rest)) = .ok (ss, rest)
  | .statements ss, ts => (ts = [] ∨ Begins leaders ts) ∧ program fin ts = .ok ss ∧
    ∀ r rest, r.kind = .rbrace → plain (stmts fin (ts ++ r :: rest)) = .ok (ss, r :: rest)

theorem declarationStmt_read {t : Token} {s : Stmt} (h : Declaration s ts)
    (ht : t.kind = .semicolon) : Completes fin (.statement s) (ts ++ [t]) := by
  obtain ⟨k, ts, rfl, hk, hread⟩ := declaration_read fin h
  refine ⟨⟨k, ts ++ [t], rfl, ?_⟩, ?_⟩
  · revert hk
    cases k.kind <;> decide
  · intro rest _
    have hts : k :: ts ++ [t] ++ rest = k :: (ts ++ t :: rest) := by simp
    rw [hts, plain_stmt]
    dsimp only
    simp only [List.mem_cons, List.not_mem_nil, or_false] at hk
    rcases hk with hk | hk | hk <;> rw [hk] <;>
      exact closed (f := id) (hread t rest (by simp [ht, enders])) ht

theorem simpleStmt_read {t : Token} {s : Stmt} (h : Simple s ts) (ht : t.kind = .semicolon) :
    Completes fin (.statement s) (ts ++ [t]) := by
  obtain ⟨name, ts, rfl, hname, hread⟩ := simple_read fin h
  refine ⟨begins_of_kind hname (by decide) _, ?_⟩
  intro rest _
  have hts : name :: ts ++ [t] ++ rest = name :: (ts ++ t :: rest) := by simp
  rw [hts, plain_stmt]
  dsimp only
  rw [hname]
  exact closed (f := id) (hread t rest (by simp [ht, enders])) ht

theorem branchStmt_read {k : Token} {s : Stmt} (hk : k.kind = .kwIf)
    (h : Completes fin (.branch s) ts) : Completes fin (.statement s) (k :: ts) := by
  refine ⟨begins_of_kind hk (by decide) _, ?_⟩
  intro rest hrest
  rw [List.cons_append, plain_stmt]
  dsimp only
  rw [hk]
  exact h rest hrest

theorem loopWhile_read {k : Token} {cond : Expr} {body : List Stmt} (hk : k.kind = .kwWhile)
    (hcond : Parenthesized cond ts) (hbody : Completes fin (.block body) us) :
    Completes fin (.statement (.loopWhile cond body)) (k :: (ts ++ us)) := by
  refine ⟨begins_of_kind hk (by decide) _, ?_⟩
  intro rest _
  rw [List.cons_append, List.append_assoc, plain_stmt]
  dsimp only
  rw [hk]
  dsimp only
  rw [parenthesized_read hcond]
  show (plain (block fin (us ++ rest)) >>= _) = _
  rw [hbody.2 rest]
  rfl

theorem doWhile_read {t k l : Token} {cond : Expr} {body : List Stmt} (hk : k.kind = .kwDo)
    (hbody : Completes fin (.block body) ts) (hl : l.kind = .kwWhile)
    (hcond : Parenthesized cond us) (ht : t.kind = .semicolon) :
    Completes fin (.statement (.doWhile body cond)) (k :: (ts ++ l :: (us ++ [t]))) := by
  refine ⟨begins_of_kind hk (by decide) _, ?_⟩
  intro rest _
  have hts : k :: (ts ++ l :: (us ++ [t])) ++ rest = k :: (ts ++ l :: (us ++ t :: rest)) := by simp
  rw [hts, plain_stmt]
  dsimp only
  rw [hk]
  dsimp only
  rw [hbody.2]
  show (expected fin .kwWhile (l :: (us ++ t :: rest)) >>= _) = _
  rw [expected_of_kind hl]
  exact closed (parenthesized_read hcond) ht

theorem loopFor_read {k : Token} {init step : Option Stmt} {cond : Option Expr} {body : List Stmt}
    (hk : k.kind = .kwFor) (hclauses : ForClauses (init, cond, step) ts)
    (hbody : Completes fin (.block body) us) :
    Completes fin (.statement (.loopFor init cond step body)) (k :: (ts ++ us)) := by
  refine ⟨begins_of_kind hk (by decide) _, ?_⟩
  intro rest _
  rw [List.cons_append, List.append_assoc, plain_stmt]
  dsimp only
  rw [hk]
  dsimp only
  rw [forClauses_read hclauses]
  show (plain (block fin (us ++ rest)) >>= _) = _
  rw [hbody.2 rest]
  rfl

/-- What comes after the block of an `if`. -/
theorem branch_after {cond : Expr} {yes : List Stmt} (hcond : Parenthesized cond ts)
    (hyes : Completes fin (.block yes) us) (rest : List Token) :
    plain (branch fin (ts ++ (us ++ rest))) =
      match after? .kwElse rest with
      | none => .ok (.branch cond yes [], rest)
      | some rest₃ =>
        match after? .kwIf rest₃ with
        | some rest₄ => do
          let (no, rest₅) ← plain (branch fin rest₄)
          return (.branch cond yes [no], rest₅)
        | none => do
          let (no, rest₅) ← plain (block fin rest₃)
          return (.branch cond yes no, rest₅) := by
  rw [plain_branch, parenthesized_read hcond]
  show (plain (block fin (us ++ rest)) >>= _) = _
  rw [hyes.2 rest]
  rfl

theorem oneArm_read {cond : Expr} {yes : List Stmt} (hcond : Parenthesized cond ts)
    (hyes : Completes fin (.block yes) us) :
    Completes fin (.branch (.branch cond yes [])) (ts ++ us) := by
  intro rest hrest
  rw [List.append_assoc, branch_after hcond hyes, after?_eq_none hrest]

theorem elseIf_read {cond : Expr} {yes : List Stmt} {no : Stmt} {k l : Token} {vs : List Token}
    (hcond : Parenthesized cond ts) (hyes : Completes fin (.block yes) us) (hk : k.kind = .kwElse)
    (hl : l.kind = .kwIf) (hno : Completes fin (.branch no) vs) :
    Completes fin (.branch (.branch cond yes [no])) (ts ++ (us ++ k :: l :: vs)) := by
  intro rest hrest
  have hts : ts ++ (us ++ k :: l :: vs) ++ rest = ts ++ (us ++ k :: l :: (vs ++ rest)) := by simp
  rw [hts, branch_after hcond hyes, after?_of_kind hk]
  dsimp only
  rw [after?_of_kind hl]
  dsimp only
  rw [hno rest hrest]
  rfl

theorem elseBlock_read {cond : Expr} {yes no : List Stmt} {k : Token} {vs : List Token}
    (hcond : Parenthesized cond ts) (hyes : Completes fin (.block yes) us) (hk : k.kind = .kwElse)
    (hno : Completes fin (.block no) vs) :
    Completes fin (.branch (.branch cond yes no)) (ts ++ (us ++ k :: vs)) := by
  intro rest _
  have hts : ts ++ (us ++ k :: vs) ++ rest = ts ++ (us ++ k :: (vs ++ rest)) := by simp
  rw [hts, branch_after hcond hyes, after?_of_kind hk]
  dsimp only
  rw [after?_eq_none ((hno.1.append rest).lacks (by decide)), hno.2 rest]
  rfl

theorem block_read {ss : List Stmt} {l r : Token} (hl : l.kind = .lbrace)
    (hss : Completes fin (.statements ss) ts) (hr : r.kind = .rbrace) :
    Completes fin (.block ss) (l :: (ts ++ [r])) := by
  refine ⟨begins_of_kind hl (by decide) _, ?_⟩
  intro rest
  have hts : l :: (ts ++ [r]) ++ rest = l :: (ts ++ r :: rest) := by simp
  rw [hts, plain_block, expected_of_kind hl]
  exact closed (f := id) (hss.2.2 r rest hr) hr

theorem noStmts_read : Completes fin (.statements []) [] := by
  refine ⟨.inl rfl, by rw [program_eq], ?_⟩
  intro r rest hr
  rw [List.nil_append, plain_stmts]
  exact if_pos hr

theorem moreStmts_read {s : Stmt} {ss : List Stmt} (hs : Completes fin (.statement s) ts)
    (hss : Completes fin (.statements ss) us) :
    Completes fin (.statements (s :: ss)) (ts ++ us) := by
  obtain ⟨hbegins, hread⟩ := hs
  obtain ⟨hnext, hprogram, hstmts⟩ := hss
  refine ⟨.inr (hbegins.append us), ?_, ?_⟩
  · have hlacks : Lacks .kwElse us := by
      rcases hnext with rfl | hnext
      · exact nofun
      · exact hnext.lacks (by decide)
    have hfirst := hread us hlacks
    obtain ⟨t, ts, rfl, ht⟩ := hbegins
    rw [List.cons_append] at hfirst ⊢
    rw [program_eq]
    dsimp only
    rw [hfirst]
    show (program fin us >>= _) = _
    rw [hprogram]
    rfl
  · intro r rest hr
    have hlacks : Lacks .kwElse (us ++ r :: rest) := by
      rcases hnext with rfl | hnext
      · rintro u ⟨⟩
        rw [hr]
        decide
      · exact (hnext.append _).lacks (by decide)
    have hfirst := hread _ hlacks
    obtain ⟨t, ts, rfl, ht⟩ := hbegins
    have hbrace : t.kind ≠ .rbrace := by
      rintro heq
      rw [heq] at ht
      exact absurd ht (by decide)
    rw [List.cons_append] at hfirst
    rw [List.append_assoc, List.cons_append, plain_stmts]
    dsimp only
    rw [if_neg hbrace, hfirst]
    show (plain (stmts fin (us ++ r :: rest)) >>= _) = _
    rw [hstmts r rest hr]
    rfl

theorem composes_read {c : Sentence} (h : Composes c ts) : Completes fin c ts := by
  induction h with
  | declaration h ht => exact declarationStmt_read h ht
  | simple h ht => exact simpleStmt_read h ht
  | branch hk _ ih => exact branchStmt_read hk ih
  | loopWhile hk hcond _ ih => exact loopWhile_read hk hcond ih
  | doWhile hk _ hl hcond ht ih => exact doWhile_read hk ih hl hcond ht
  | loopFor hk hclauses _ ih => exact loopFor_read hk hclauses ih
  | oneArm hcond _ ih => exact oneArm_read hcond ih
  | elseIf hcond _ hk hl _ ihyes ihno => exact elseIf_read hcond ihyes hk hl ihno
  | elseBlock hcond _ hk _ ihyes ihno => exact elseBlock_read hcond ihyes hk ihno
  | block hl _ hr ih => exact block_read hl ih hr
  | nil => exact noStmts_read
  | cons _ _ ihs ihss => exact moreStmts_read ihs ihss

/-- What the grammar composes is the program that is read. -/
theorem program_complete {p : Program} (h : Composes (.statements p) ts) :
    program fin ts = .ok p :=
  (composes_read h).2.1

end TinyScript.Ast.Parser

namespace TinyScript.Ast

open Grammar

/-- **The parser accepts its grammar.** Tokens are read as a program if and only if those
before the first end of input spell it. -/
theorem ofTokens_eq_ok_iff (ts : List Token) (p : Program) :
    Program.ofTokens ts = .ok p ↔
      Composes (.statements p) (ts.takeWhile (·.kind ≠ .endOfInput)) := by
  constructor
  · intro h
    exact Parser.program_sound h
  · intro h
    exact Parser.program_complete h

end TinyScript.Ast
