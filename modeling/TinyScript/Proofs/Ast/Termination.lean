import TinyScript.Proofs.Ast.Cursor

/-! Reading comes to an end. From where a cursor stands, a walk has the outcome that the
reader of the same name returns for the tokens seen from there, and a reader always returns.
This is an induction on how many tokens are seen, with the same order of calls as in the
readers. What a reader leaves is fewer tokens, so the cursor has moved on; the one walk that
may start at an end of input, that from a name, is followed from the token after that. Main
statement: reading comes to an end on all tokens, from every cursor. -/

namespace TinyScript.Ast.Cursor

open TinyScript.Ast.Parser (beforeEnd plain expected keyed after? at? plain_eq_ok after?_lt
  expected_lt keyed_lt)

variable {ts : List Token} {stop : Nat}

/-- Fuel that is more than something can be spent. -/
theorem fueled {m n : Nat} (h : m < n) : ∃ k, n = k + 1 :=
  Nat.exists_eq_add_one_of_ne_zero (Nat.ne_zero_of_lt h)

/-! ### Fields -/

/-- A key, its colon and its value. -/
def field (fin : Token) (us : List Token) : Parser.Result ((String × Expr) × List Token) := do
  let (key, rest) ← keyed fin us
  let (_, rest₁) ← expected fin .colon rest
  let (e, rest₂) ← plain (Parser.expr fin 0 rest₁)
  return ((key, e), rest₂)

theorem field_lt {fin : Token} {us rest : List Token} {f : String × Expr}
    (h : field fin us = .ok (f, rest)) : rest.length < us.length := by
  obtain ⟨⟨key, rest₁⟩, hkey, h₁⟩ := Parser.bind_eq_ok h
  obtain ⟨⟨t, rest₂⟩, hcolon, h₂⟩ := Parser.bind_eq_ok h₁
  obtain ⟨⟨e, rest₃⟩, he, h₃⟩ := Parser.bind_eq_ok h₂
  cases h₃
  have hlt := keyed_lt hkey
  have hlt₁ := expected_lt hcolon
  have hlt₂ := plain_eq_ok he
  omega

theorem plain_fields_field (fin : Token) (us : List Token) :
    plain (Parser.fields fin us) =
      if at? .rbrace us then .ok ([], us)
      else do
        let (f, rest) ← field fin us
        match after? .comma rest with
        | none => return ([f], rest)
        | some rest₁ => do
          let (fs, rest₂) ← plain (Parser.fields fin rest₁)
          return (f :: fs, rest₂) := by
  rw [Parser.plain_fields]
  split
  · rfl
  · rw [field, bind_assoc]
    refine bind_congr fun (key, rest) => ?_
    dsimp only
    rw [bind_assoc]
    refine bind_congr fun (_, rest₁) => ?_
    dsimp only
    rw [bind_assoc]
    exact bind_congr fun _ => rfl

/-! ### Expressions -/

-- Fuel and cursor are bound after the tokens, whose length the induction is on: where the tokens
-- are split into the next one and the others, what is known of them is stated of the parts. On
-- the same tokens the calls go down as in the readers, and the fuel with them.
mutual

theorem expr_agrees (level : Nat) {us : List Token} :
    ∀ {n c}, 4 * us.length + 2 < n → Stands ts stop c us →
      Agrees ts stop (expr ts n level c) (plain (Parser.expr (tokenAt ts stop) level us)) := by
  intro n c hn hs
  obtain ⟨n, rfl⟩ := fueled hn
  rw [Parser.plain_expr, expr]
  refine (postfixExpr_agrees (by omega) hs).bind fun lhs c' rest h hs' => ?_
  have hlt := plain_eq_ok h
  dsimp only
  exact operators_agrees level lhs (by omega) hs'
termination_by 4 * us.length + 2
decreasing_by all_goals omega

theorem operators_agrees (level : Nat) (lhs : Expr) {us : List Token} :
    ∀ {n c}, 4 * us.length < n → Stands ts stop c us → Agrees ts stop (operators ts n level lhs c)
      (plain (Parser.operators (tokenAt ts stop) level lhs us)) := by
  cases us with
  | nil =>
    intro n c hn hs
    obtain ⟨n, rfl⟩ := fueled hn
    rw [Parser.plain_operators, operators]
    refine .peek ?_
    rw [hs.nil.1, hs.ends]
    exact .pure lhs hs
  | cons t us =>
    intro n c hn hs
    obtain ⟨n, rfl⟩ := fueled hn
    rw [List.length_cons] at hn
    rw [Parser.plain_operators, operators]
    refine .peek ?_
    rw [hs.cons.1]
    dsimp only
    cases Parser.binaryOp? t.kind with
    | none => exact .pure lhs hs
    | some op =>
      dsimp only
      split
      · exact .pure lhs hs
      · refine .advance hs fun hs' => ?_
        refine (expr_agrees (op.level + 1) (by omega) hs').bind fun rhs c' rest h hs₁ => ?_
        have hlt := plain_eq_ok h
        dsimp only
        exact operators_agrees level (.binary op lhs rhs) (by omega) hs₁
termination_by 4 * us.length
decreasing_by all_goals (simp only [List.length_cons] at *; omega)

theorem postfixExpr_agrees {us : List Token} :
    ∀ {n c}, 4 * us.length + 1 < n → Stands ts stop c us →
      Agrees ts stop (postfixExpr ts n c) (plain (Parser.postfixExpr (tokenAt ts stop) us)) := by
  intro n c hn hs
  obtain ⟨n, rfl⟩ := fueled hn
  rw [Parser.plain_postfixExpr, postfixExpr]
  refine (primary_agrees (by omega) hs).bind fun e c' rest h hs' => ?_
  have hlt := plain_eq_ok h
  dsimp only
  exact suffixes_agrees e (by omega) hs'
termination_by 4 * us.length + 1
decreasing_by all_goals omega

theorem suffixes_agrees (e : Expr) {us : List Token} :
    ∀ {n c}, 4 * us.length < n → Stands ts stop c us →
      Agrees ts stop (suffixes ts n e c) (plain (Parser.suffixes (tokenAt ts stop) e us)) := by
  intro n c hn hs
  obtain ⟨n, rfl⟩ := fueled hn
  rw [Parser.plain_suffixes, suffixes]
  cases hindex : after? .lbracket us with
  | some us' =>
    have hus := after?_lt hindex
    refine .taken hs hindex fun hs' => ?_
    refine (expr_agrees 0 (by omega) hs').bind fun i c₁ rest h hs₁ => ?_
    have hlt := plain_eq_ok h
    refine (consume_agrees (by decide) hs₁).bind fun r c₂ rest' h' hs₂ => ?_
    have hlt' := expected_lt h'
    exact suffixes_agrees (.index e i) (by omega) hs₂
  | none =>
    refine .passed (by decide) hs hindex ?_
    cases hmember : after? .dot us with
    | some us' =>
      have hus := after?_lt hmember
      refine .taken hs hmember fun hs' => ?_
      refine (consume_agrees (by decide) hs').bind fun name c₁ rest h hs₁ => ?_
      have hlt := expected_lt h
      exact suffixes_agrees (.member e name.text) (by omega) hs₁
    | none => exact .passed (by decide) hs hmember (.pure e hs)
termination_by 4 * us.length
decreasing_by all_goals omega

theorem primary_agrees {us : List Token} :
    ∀ {n c}, 4 * us.length < n → Stands ts stop c us →
      Agrees ts stop (primary ts n c) (plain (Parser.primary (tokenAt ts stop) us)) := by
  cases us with
  | nil =>
    intro n c hn hs
    obtain ⟨n, rfl⟩ := fueled hn
    rw [Parser.plain_primary, primary]
    refine .advanceEnd hs fun c' => ?_
    rw [hs.ends]
    exact .error _
  | cons t us =>
    intro n c hn hs
    obtain ⟨n, rfl⟩ := fueled hn
    rw [List.length_cons] at hn
    rw [Parser.plain_primary, primary]
    refine .advance hs fun hs' => ?_
    dsimp only
    cases t.kind with
    | stringLiteral | kwTrue | kwFalse => exact .pure _ hs'
    | integerLiteral =>
      dsimp only
      cases Token.integerValue t.text with
      | ok v => exact .pure _ hs'
      | error e => exact .error _
    | floatLiteral =>
      dsimp only
      cases Token.floatValue t.text with
      | ok d => exact .pure _ hs'
      | error e => exact .error _
    | identifier =>
      dsimp only
      cases hcall : after? .lparen us with
      | none => exact .passed (by decide) hs' hcall (.pure _ hs')
      | some us' =>
        have hus := after?_lt hcall
        refine .taken hs' hcall fun hs₁ => ?_
        dsimp only
        split
        · exact (list_agrees (by decide) (by omega) hs₁).closed (by decide) (Expr.call t.text)
        · exact .error _
    | lparen => exact (expr_agrees 0 (by omega) hs').closed (by decide) id
    | lbracket =>
      exact (list_agrees (by decide) (by omega) hs').closed (by decide)
        fun es => Expr.array (Parser.hintOf es) es
    | lbrace => exact (fields_agrees (by omega) hs').closed (by decide) Expr.object
    | _ => exact .error _
termination_by 4 * us.length
decreasing_by all_goals (simp only [List.length_cons] at *; omega)

theorem list_agrees {close : Token.Kind} (hclose : close ≠ .endOfInput) {us : List Token} :
    ∀ {n c}, 4 * us.length + 3 < n → Stands ts stop c us →
      Agrees ts stop (list ts n close c) (plain (Parser.list (tokenAt ts stop) close us)) := by
  intro n c hn hs
  obtain ⟨n, rfl⟩ := fueled hn
  rw [Parser.plain_list, list]
  refine .isAt hclose hs (.pure [] hs) ?_
  refine (expr_agrees 0 (by omega) hs).bind fun e c' rest h hs' => ?_
  have hlt := plain_eq_ok h
  dsimp only
  cases hcomma : after? .comma rest with
  | none => exact .passed (by decide) hs' hcomma (.pure [e] hs')
  | some us' =>
    have hus := after?_lt hcomma
    refine .taken hs' hcomma fun hs₁ => ?_
    exact (list_agrees hclose (by omega) hs₁).map (e :: ·)
termination_by 4 * us.length + 3
decreasing_by all_goals omega

theorem property_agrees {us : List Token} :
    ∀ {n c}, 4 * us.length < n → Stands ts stop c us →
      Agrees ts stop (property ts n c) (field (tokenAt ts stop) us) := by
  cases us with
  | nil =>
    intro n c hn hs
    obtain ⟨n, rfl⟩ := fueled hn
    rw [property]
    refine .peek ?_
    rw [hs.nil.1, if_neg (by rw [hs.ends]; decide)]
    exact .error _
  | cons t us =>
    intro n c hn hs
    obtain ⟨n, rfl⟩ := fueled hn
    rw [List.length_cons] at hn
    rw [property]
    refine .peek ?_
    rw [hs.cons.1, field, keyed]
    split
    · refine .advance hs fun hs' => ?_
      refine (consume_agrees (by decide) hs').bind fun r c₁ rest h hs₁ => ?_
      have hlt := expected_lt h
      exact (expr_agrees 0 (by omega) hs₁).map fun e => (t.text, e)
    · exact .error _
termination_by 4 * us.length
decreasing_by all_goals (simp only [List.length_cons] at *; omega)

theorem fields_agrees {us : List Token} :
    ∀ {n c}, 4 * us.length + 1 < n → Stands ts stop c us →
      Agrees ts stop (fields ts n c) (plain (Parser.fields (tokenAt ts stop) us)) := by
  intro n c hn hs
  obtain ⟨n, rfl⟩ := fueled hn
  rw [plain_fields_field, fields]
  refine .isAt (by decide) hs (.pure [] hs) ?_
  refine (property_agrees (by omega) hs).bind fun f c' rest h hs' => ?_
  have hlt := field_lt h
  dsimp only
  cases hcomma : after? .comma rest with
  | none => exact .passed (by decide) hs' hcomma (.pure [f] hs')
  | some us' =>
    have hus := after?_lt hcomma
    refine .taken hs' hcomma fun hs₁ => ?_
    exact (fields_agrees (by omega) hs₁).map (f :: ·)
termination_by 4 * us.length + 1
decreasing_by all_goals omega

end

/-! ### Simple statements -/

section

variable {us : List Token} {n c : Nat}

theorem typeName_agrees (hs : Stands ts stop c us) :
    Agrees ts stop (typeName ts c) (plain (Parser.typeName (tokenAt ts stop) us)) := by
  rw [Parser.plain_typeName, typeName]
  refine .peek ?_
  cases us with
  | nil =>
    rw [hs.nil.1, if_neg (by rw [hs.ends]; decide)]
    exact .error _
  | cons t us =>
    rw [hs.cons.1]
    dsimp only
    split
    · refine .advance hs fun hs' => ?_
      cases harray : after? .lbracket us with
      | none => exact .passed (by decide) hs' harray (.pure t.text hs')
      | some us' =>
        refine .taken hs' harray fun hs₁ => ?_
        exact (consume_agrees (by decide) hs₁).map fun _ => t.text ++ "[]"
    · exact .error _

theorem declaredType_agrees (hs : Stands ts stop c us) :
    Agrees ts stop (declaredType ts c) (plain (Parser.declaredType (tokenAt ts stop) us)) := by
  rw [Parser.plain_declaredType, declaredType]
  cases hcolon : after? .colon us with
  | none => exact .passed (by decide) hs hcolon (.pure auto hs)
  | some us' => exact .taken hs hcolon typeName_agrees

theorem initialValue_agrees (hn : 4 * us.length + 2 < n) (hs : Stands ts stop c us) :
    Agrees ts stop (initialValue ts n c) (plain (Parser.initialValue (tokenAt ts stop) us)) := by
  rw [Parser.plain_initialValue, initialValue]
  cases hassign : after? .assign us with
  | none => exact .passed (by decide) hs hassign (.pure none hs)
  | some us' =>
    have hus := after?_lt hassign
    refine .taken hs hassign fun hs' => ?_
    exact (expr_agrees 0 (by omega) hs').map some

theorem declaration_agrees (hn : 4 * us.length + 2 < n) (hs : Stands ts stop c us) :
    Agrees ts stop (declaration ts n c) (plain (Parser.declaration (tokenAt ts stop) us)) := by
  rw [Parser.plain_declaration, declaration]
  refine (consume_agrees (by decide) hs).bind fun name c₁ rest₁ h₁ hs₁ => ?_
  have hlt₁ := expected_lt h₁
  refine (declaredType_agrees hs₁).bind fun type c₂ rest₂ h₂ hs₂ => ?_
  have hle₂ := plain_eq_ok h₂
  exact (initialValue_agrees (by omega) hs₂).map (Stmt.declare name.text type)

theorem change_agrees {name : Token} (hname : ¬ Builtin.isKnown name.text)
    (hn : 4 * us.length + 2 < n) (hs : Stands ts stop c us) :
    Agrees ts stop (change ts n name c) (plain (Parser.simple (tokenAt ts stop) name us)) := by
  rw [Parser.plain_simple, if_neg hname, change]
  refine .peek ?_
  cases us with
  | nil =>
    rw [hs.nil.1, hs.ends]
    exact .error _
  | cons t us =>
    rw [List.length_cons] at hn
    rw [hs.cons.1]
    dsimp only
    cases t.kind with
    | assign =>
      refine .advance hs fun hs' => ?_
      exact (expr_agrees 0 (by omega) hs').map (Stmt.assign name.text)
    | plusPlus | minusMinus => exact .advance hs fun hs' => .pure _ hs'
    | lbracket =>
      refine .here ?_
      rw [hs.seen]
      dsimp only
      split
      · refine .advance hs fun hs₁ => ?_
        refine (expr_agrees 0 (by omega) hs₁).bind fun i c₂ rest₂ h₂ hs₂ => ?_
        have hlt₂ := plain_eq_ok h₂
        refine (consume_agrees (by decide) hs₂).bind fun r c₃ rest₃ h₃ hs₃ => ?_
        have hlt₃ := expected_lt h₃
        refine (consume_agrees (by decide) hs₃).bind fun a c₄ rest₄ h₄ hs₄ => ?_
        have hlt₄ := expected_lt h₄
        exact (expr_agrees 0 (by omega) hs₄).map (Stmt.setElement (.var name.text) i)
      · exact .error _
    | _ => exact .error _

/-- A statement that starts with a name. -/
theorem simple_agrees {name : Token} (hn : 4 * us.length + 6 < n)
    (hs : Stands ts stop c (name :: us)) :
    Agrees ts stop (simple ts n c) (plain (Parser.simple (tokenAt ts stop) name us)) := by
  rw [simple]
  refine .peek ?_
  rw [hs.cons.1]
  by_cases hname : Builtin.isKnown name.text
  · rw [Parser.plain_simple, if_pos hname, if_pos hname]
    exact (expr_agrees 0 (by rw [List.length_cons]; omega) hs).map Stmt.expr
  · rw [if_neg hname]
    exact .advance hs (change_agrees hname (by omega))

theorem clause_agrees (hn : 4 * us.length + 2 < n) (hs : Stands ts stop c us) :
    Agrees ts stop (clause ts n c) (plain (Parser.clause (tokenAt ts stop) us)) := by
  rw [Parser.plain_clause, clause]
  refine .peek ?_
  cases us with
  | nil =>
    rw [hs.nil.1, hs.ends]
    exact .error _
  | cons t us =>
    rw [List.length_cons] at hn
    rw [hs.cons.1]
    dsimp only
    cases t.kind with
    | kwLet | kwConst | kwVar => exact .advance hs (declaration_agrees (by omega))
    | identifier => exact simple_agrees (by omega) hs
    | _ => exact .error _

theorem optional_agrees {α : Type} {k : Token.Kind} (hk : k ≠ .endOfInput) {walk : Walk α}
    {read : Parser.Result (α × Parser.Shorter us)} (hs : Stands ts stop c us)
    (h : Agrees ts stop (walk c) (plain read)) :
    Agrees ts stop (optional ts k walk c) (plain (Parser.optional k us read)) := by
  rw [Parser.plain_optional, optional]
  exact .isAt hk hs (.pure none hs) (h.map some)

theorem parenthesized_agrees (hn : 4 * us.length + 2 < n) (hs : Stands ts stop c us) :
    Agrees ts stop (parenthesized ts n c) (plain (Parser.parenthesized (tokenAt ts stop) us)) := by
  rw [Parser.plain_parenthesized, parenthesized]
  refine (consume_agrees (by decide) hs).bind fun l c₁ rest h hs₁ => ?_
  have hlt := expected_lt h
  exact (expr_agrees 0 (by omega) hs₁).closed (by decide) id

theorem forClauses_agrees (hn : 4 * us.length + 2 < n) (hs : Stands ts stop c us) :
    Agrees ts stop (forClauses ts n c) (plain (Parser.forClauses (tokenAt ts stop) us)) := by
  rw [Parser.plain_forClauses, forClauses]
  refine (consume_agrees (by decide) hs).bind fun l c₁ rest₁ h₁ hs₁ => ?_
  have hlt₁ := expected_lt h₁
  have hinit := clause_agrees (n := n) (by omega) hs₁
  refine (optional_agrees (by decide) hs₁ hinit).bind fun init c₂ rest₂ h₂ hs₂ => ?_
  have hle₂ := plain_eq_ok h₂
  refine (consume_agrees (by decide) hs₂).bind fun s c₃ rest₃ h₃ hs₃ => ?_
  have hlt₃ := expected_lt h₃
  have hcond := expr_agrees 0 (n := n) (by omega) hs₃
  refine (optional_agrees (by decide) hs₃ hcond).bind fun cond c₄ rest₄ h₄ hs₄ => ?_
  have hle₄ := plain_eq_ok h₄
  refine (consume_agrees (by decide) hs₄).bind fun s' c₅ rest₅ h₅ hs₅ => ?_
  have hlt₅ := expected_lt h₅
  have hstep := clause_agrees (n := n) (by omega) hs₅
  exact (optional_agrees (by decide) hs₅ hstep).closed (by decide) fun step => (init, cond, step)

end

/-! ### Statements -/

mutual

theorem stmt_agrees {us : List Token} :
    ∀ {n c}, 4 * us.length + 3 < n → Stands ts stop c us →
      Agrees ts stop (stmt ts n c) (plain (Parser.stmt (tokenAt ts stop) us)) := by
  cases us with
  | nil =>
    intro n c hn hs
    obtain ⟨n, rfl⟩ := fueled hn
    rw [Parser.plain_stmt, stmt]
    refine .peek ?_
    rw [hs.nil.1, hs.ends]
    exact .error _
  | cons t us =>
    intro n c hn hs
    obtain ⟨n, rfl⟩ := fueled hn
    rw [List.length_cons] at hn
    rw [Parser.plain_stmt, stmt]
    refine .peek ?_
    rw [hs.cons.1]
    dsimp only
    cases t.kind with
    | kwLet | kwConst | kwVar =>
      refine .advance hs fun hs₁ => ?_
      exact (declaration_agrees (by omega) hs₁).closed (by decide) id
    | kwIf => exact .advance hs (branch_agrees (by omega))
    | kwWhile =>
      refine .advance hs fun hs₁ => ?_
      refine (parenthesized_agrees (by omega) hs₁).bind fun cond c₂ rest h hs₂ => ?_
      have hlt := plain_eq_ok h
      exact (block_agrees (by omega) hs₂).map (Stmt.loopWhile cond)
    | kwDo =>
      refine .advance hs fun hs₁ => ?_
      refine (block_agrees (by omega) hs₁).bind fun body c₂ rest₂ h₂ hs₂ => ?_
      have hlt₂ := plain_eq_ok h₂
      refine (consume_agrees (by decide) hs₂).bind fun w c₃ rest₃ h₃ hs₃ => ?_
      have hlt₃ := expected_lt h₃
      exact (parenthesized_agrees (by omega) hs₃).closed (by decide) (Stmt.doWhile body)
    | kwFor =>
      refine .advance hs fun hs₁ => ?_
      refine (forClauses_agrees (by omega) hs₁).bind fun clauses c₂ rest h hs₂ => ?_
      obtain ⟨init, cond, step⟩ := clauses
      have hlt := plain_eq_ok h
      exact (block_agrees (by omega) hs₂).map (Stmt.loopFor init cond step)
    | identifier => exact (simple_agrees (by omega) hs).closed (by decide) id
    | _ => exact .error _
termination_by 2 * us.length
decreasing_by all_goals (simp only [List.length_cons] at *; omega)

theorem branch_agrees {us : List Token} :
    ∀ {n c}, 4 * us.length + 3 < n → Stands ts stop c us →
      Agrees ts stop (branch ts n c) (plain (Parser.branch (tokenAt ts stop) us)) := by
  intro n c hn hs
  obtain ⟨n, rfl⟩ := fueled hn
  rw [Parser.plain_branch, branch]
  refine (parenthesized_agrees (by omega) hs).bind fun cond c₁ rest₁ h₁ hs₁ => ?_
  have hlt₁ := plain_eq_ok h₁
  refine (block_agrees (by omega) hs₁).bind fun yes c₂ rest₂ h₂ hs₂ => ?_
  have hlt₂ := plain_eq_ok h₂
  dsimp only
  cases helse : after? .kwElse rest₂ with
  | none => exact .passed (by decide) hs₂ helse (.pure _ hs₂)
  | some us' =>
    have hus := after?_lt helse
    refine .taken hs₂ helse fun hs₃ => ?_
    dsimp only
    cases hif : after? .kwIf us' with
    | none =>
      refine .passed (by decide) hs₃ hif ?_
      exact (block_agrees (by omega) hs₃).map (Stmt.branch cond yes)
    | some vs =>
      have hvs := after?_lt hif
      refine .taken hs₃ hif fun hs₄ => ?_
      exact (branch_agrees (by omega) hs₄).map fun no => Stmt.branch cond yes [no]
termination_by 2 * us.length
decreasing_by all_goals omega

theorem block_agrees {us : List Token} :
    ∀ {n c}, 4 * us.length + 3 < n → Stands ts stop c us →
      Agrees ts stop (block ts n c) (plain (Parser.block (tokenAt ts stop) us)) := by
  intro n c hn hs
  obtain ⟨n, rfl⟩ := fueled hn
  rw [Parser.plain_block, block]
  refine (consume_agrees (by decide) hs).bind fun l c₁ rest h hs₁ => ?_
  have hlt := expected_lt h
  exact (stmts_agrees (by omega) hs₁).closed (by decide) id
termination_by 2 * us.length
decreasing_by all_goals omega

theorem stmts_agrees {us : List Token} :
    ∀ {n c}, 4 * us.length + 4 < n → Stands ts stop c us →
      Agrees ts stop (stmts ts n c) (plain (Parser.stmts (tokenAt ts stop) us)) := by
  cases us with
  | nil =>
    intro n c hn hs
    obtain ⟨n, rfl⟩ := fueled hn
    rw [Parser.plain_stmts, stmts]
    refine .peek ?_
    rw [hs.nil.1, if_pos (.inr hs.ends)]
    exact .pure [] hs
  | cons t us =>
    intro n c hn hs
    obtain ⟨n, rfl⟩ := fueled hn
    rw [Parser.plain_stmts, stmts]
    refine .peek ?_
    obtain ⟨htoken, hkind, -⟩ := hs.cons
    rw [htoken]
    simp only [hkind, or_false]
    split
    · exact .pure [] hs
    · refine (stmt_agrees (by omega) hs).bind fun s c₁ rest h hs₁ => ?_
      have hlt := plain_eq_ok h
      exact (stmts_agrees (by omega) hs₁).map (s :: ·)
termination_by 2 * us.length + 1
decreasing_by all_goals omega

end

theorem program_agrees {us : List Token} :
    ∀ {n c}, 4 * us.length + 4 < n → Stands ts stop c us →
      Agrees ts stop (program ts n c) (Parser.whole (tokenAt ts stop) us) := by
  cases us with
  | nil =>
    intro n c hn hs
    obtain ⟨n, rfl⟩ := fueled hn
    rw [Parser.whole, Parser.program_eq, program]
    refine .is ?_
    rw [if_pos (by rw [hs.nil.1, hs.ends]; rfl)]
    exact .pure [] hs
  | cons t us =>
    intro n c hn hs
    obtain ⟨n, rfl⟩ := fueled hn
    rw [Parser.whole_cons, program]
    refine .is ?_
    rw [if_neg (by rw [hs.cons.1]; simpa using hs.cons.2.1)]
    refine (stmt_agrees (by omega) hs).bind fun s c₁ rest h hs₁ => ?_
    have hlt := plain_eq_ok h
    exact (program_agrees (by omega) hs₁).map (s :: ·)
termination_by us.length
decreasing_by exact hlt

/-! ### Progress -/

section

variable {α : Type}

/-- An error, or a cursor that has moved on and is not past the tokens. -/
inductive Moved (ts : List Token) (c : Nat) : Except ParseError (α × Nat) → Prop where
  | ok {a : α} {c' : Nat} (advances : c < c') (inside : c' ≤ ts.length) : Moved ts c (.ok (a, c'))
  | error (e : ParseError) : Moved ts c (.error e)

/-- A walk is over with fuel that the number of tokens bounds, and more changes nothing. -/
def Settles (ts : List Token) (walk : Nat → Walk α) (c : Nat) (o : Except ParseError (α × Nat)) :
    Prop := ∀ more, walk (4 * ts.length + 5 + more) c = some o

/-- From every cursor the walk comes to an end. -/
def Returns (ts : List Token) (walk : Nat → Walk α) : Prop := ∀ c, ∃ o, Settles ts walk c o

/-- From every cursor the walk comes to an end, and unless it fails it has taken a token. -/
def Progresses (ts : List Token) (walk : Nat → Walk α) : Prop :=
  ∀ c, ∃ o, Settles ts walk c o ∧ Moved ts c o

/-- What a reader returns, with a cursor in place of the tokens before the end. -/
def outcome (stop : Nat) (r : Parser.Result (α × List Token)) : Except ParseError (α × Nat) :=
  r.map fun x => (x.1, stop - x.2.length)

variable {c : Nat} {o : Option (Except ParseError (α × Nat))} {r : Parser.Result (α × List Token)}
  {walk : Nat → Walk α}

theorem Agrees.eq (h : Agrees ts stop o r) : o = some (outcome stop r) := by
  cases h with
  | error e => rfl
  | ok hs => rw [outcome, ← hs.stops, Except.map, Nat.add_sub_cancel]

theorem settled (h : ∀ more, Agrees ts stop (walk (4 * ts.length + 5 + more) c) r)
    (hr : ∀ {a rest}, r = .ok (a, rest) → c + rest.length < stop ∧ stop ≤ ts.length) :
    ∃ o, Settles ts walk c o ∧ Moved ts c o := by
  refine ⟨outcome stop r, fun more => (h more).eq, ?_⟩
  cases r with
  | error e => exact .error e
  | ok x =>
    obtain ⟨a, rest⟩ := x
    have hstop := hr rfl
    show Moved ts c (.ok (a, stop - rest.length))
    exact .ok (by omega) (by omega)

theorem length_beforeEnd_drop_le (ts : List Token) (c : Nat) :
    (beforeEnd (ts.drop c)).length ≤ ts.length - c := by
  rw [← List.length_drop]
  exact (List.takeWhile_sublist _).length_le

/-- That much fuel covers a walk over the tokens seen from any cursor. -/
theorem enough (ts : List Token) (c more : Nat) {k : Nat}
    (h : k ≤ 4 * (beforeEnd (ts.drop c)).length + 4) :
    k < 4 * ts.length + 5 + more := by
  have hlength := length_beforeEnd_drop_le ts c
  omega

/-- A reader that leaves fewer tokens than are seen has moved the cursor on. -/
theorem progress
    (h : ∀ more, Agrees ts (c + (beforeEnd (ts.drop c)).length)
      (walk (4 * ts.length + 5 + more) c) r)
    (hlt : ∀ {a rest}, r = .ok (a, rest) → rest.length < (beforeEnd (ts.drop c)).length) :
    ∃ o, Settles ts walk c o ∧ Moved ts c o := by
  refine settled h fun hread => ?_
  have hshorter := hlt hread
  have hlength := length_beforeEnd_drop_le ts c
  omega

end

theorem simple_of_known {n c : Nat} (hname : Builtin.isKnown (tokenAt ts c).text) :
    simple ts n c = (expr ts n 0 >>= fun e => return .expr e) c := by
  change (ite _ _ _ : Walk Stmt) c = _
  rw [if_pos hname]

theorem simple_of_advance {n c c' : Nat} (hname : ¬Builtin.isKnown (tokenAt ts c).text)
    (h : advance ts c = some (.ok (tokenAt ts c, c'))) :
    simple ts n c = change ts n (tokenAt ts c) c' := by
  change (ite _ _ _ : Walk Stmt) c = _
  rw [if_neg hname]
  exact bind_of_ok h

/-- From a name and what follows it. Where the cursor is at an end of input, the token after
that is taken for what follows, and where it is after all tokens nothing is. -/
theorem simple_progresses (ts : List Token) : Progresses ts (simple ts) := by
  intro c
  by_cases hname : Builtin.isKnown (tokenAt ts c).text
  · have hagrees (more : Nat) :=
      (expr_agrees 0 (enough ts c more (by omega)) (stands ts c)).map Stmt.expr
    refine progress (fun more => (simple_of_known hname).symm ▸ hagrees more) fun hread => ?_
    obtain ⟨⟨e, rest⟩, he, hpure⟩ := Parser.bind_eq_ok hread
    cases hpure
    exact plain_eq_ok he
  · by_cases hc : c < ts.length
    · have hsimple (n : Nat) := simple_of_advance (n := n) hname (advance_eq hc)
      have hagrees (more : Nat) :=
        change_agrees hname (enough ts (c + 1) more (by omega)) (stands ts (c + 1))
      refine settled (fun more => (hsimple _).symm ▸ hagrees more) fun hread => ?_
      have hshorter := plain_eq_ok hread
      have hlength := length_beforeEnd_drop_le ts (c + 1)
      simp only [List.length_cons] at hshorter
      omega
    · have hle := Nat.le_of_not_lt hc
      have hsimple (n : Nat) := simple_of_advance (n := n) hname (advance_end hle)
      have hend : Stands ts c c [] := ⟨by rw [List.drop_eq_nil_of_le hle]; rfl, rfl⟩
      have hagrees (more : Nat) :=
        change_agrees hname (enough ts c more (Nat.le_add_left 2 _)) hend
      refine settled (fun more => (hsimple _).symm ▸ hagrees more) fun hread => ?_
      rw [Parser.plain_simple, if_neg hname] at hread
      cases hread

/-! ### Whole inputs -/

theorem endOf_eq (ts : List Token) : Parser.endOf ts = tokenAt ts (beforeEnd ts).length := by
  have hlength : (beforeEnd ts).length = ts.findIdx (·.kind = .endOfInput) := by
    rw [beforeEnd, List.takeWhile_eq_take_findIdx_not, List.length_take,
      Nat.min_eq_left List.findIdx_le_length]
    simp
  rw [Parser.endOf, List.find?_eq_getElem?_findIdx, hlength]
  rfl

/-- The program that tokens spell is read from the first of them up to the end of input. -/
theorem program_settles (ts : List Token) :
    Settles ts (program ts) 0 ((Program.ofTokens ts).map (·, (beforeEnd ts).length)) := by
  intro more
  have hs : Stands ts (beforeEnd ts).length 0 (beforeEnd ts) := ⟨rfl, Nat.zero_add _⟩
  have hn : 4 * (beforeEnd ts).length + 4 < 4 * ts.length + 5 + more :=
    enough ts 0 more (Nat.le_refl _)
  rw [(program_agrees hn hs).eq, ← endOf_eq, Parser.whole, Program.ofTokens]
  cases Parser.program (Parser.endOf ts) (beforeEnd ts) <;> rfl

/-- **Reading comes to an end on all tokens.** Wherever the cursor is, before or after an
end of input or past everything, each walk is over with fuel in proportion to the number of
tokens, and a statement, an expression or a field that is read has moved the cursor on and
left it inside the tokens. The walks that repeat others are over as well, and all of the
tokens are read into a program or an error, the same as without a cursor. -/
theorem parsing_terminates (ts : List Token) :
    (Progresses ts (stmt ts) ∧ Progresses ts (simple ts) ∧ Progresses ts (block ts)) ∧
    ((∀ level, Progresses ts fun n => expr ts n level) ∧ Progresses ts (postfixExpr ts) ∧
      Progresses ts (primary ts) ∧ Progresses ts (property ts)) ∧
    (Returns ts (stmts ts) ∧ (∀ level lhs, Returns ts fun n => operators ts n level lhs) ∧
      (∀ e, Returns ts fun n => suffixes ts n e) ∧
      (Returns ts fun n => list ts n .rparen) ∧ (Returns ts fun n => list ts n .rbracket) ∧
      Returns ts (fields ts)) ∧
    Settles ts (program ts) 0 ((Program.ofTokens ts).map (·, (beforeEnd ts).length)) := by
  refine ⟨⟨?_, simple_progresses ts, ?_⟩, ⟨?_, ?_, ?_, ?_⟩, ⟨?_, ?_, ?_, ?_, ?_, ?_⟩,
    program_settles ts⟩
  · intro c
    exact progress (fun m => stmt_agrees (enough ts c m (by omega)) (stands ts c)) plain_eq_ok
  · intro c
    exact progress (fun m => block_agrees (enough ts c m (by omega)) (stands ts c)) plain_eq_ok
  · intro level c
    exact progress (fun m => expr_agrees level (enough ts c m (by omega)) (stands ts c)) plain_eq_ok
  · intro c
    exact progress (fun m => postfixExpr_agrees (enough ts c m (by omega)) (stands ts c))
      plain_eq_ok
  · intro c
    exact progress (fun m => primary_agrees (enough ts c m (by omega)) (stands ts c)) plain_eq_ok
  · intro c
    exact progress (fun m => property_agrees (enough ts c m (by omega)) (stands ts c)) field_lt
  · intro c
    exact ⟨_, fun m => (stmts_agrees (enough ts c m (by omega)) (stands ts c)).eq⟩
  · intro level lhs c
    exact ⟨_, fun m => (operators_agrees level lhs (enough ts c m (by omega)) (stands ts c)).eq⟩
  · intro e c
    exact ⟨_, fun m => (suffixes_agrees e (enough ts c m (by omega)) (stands ts c)).eq⟩
  · intro c
    exact ⟨_, fun m => (list_agrees (by decide) (enough ts c m (by omega)) (stands ts c)).eq⟩
  · intro c
    exact ⟨_, fun m => (list_agrees (by decide) (enough ts c m (by omega)) (stands ts c)).eq⟩
  · intro c
    exact ⟨_, fun m => (fields_agrees (enough ts c m (by omega)) (stands ts c)).eq⟩

end TinyScript.Ast.Cursor
