import TinyScript.Proofs.Ast.Errors

/-! How the tokens end is of no account. The end token is looked at and never taken, so
two ends of input lead every reader through the same steps, and its results differ at
most in where they say that the end is. Main statement: tokens are read alike with an end
of input after them and without one, and nothing after the end of input is read at all. -/

open TinyScript.Ast.Parser

namespace TinyScript.Ast

/-- The kind of the token that was found in another's place, for errors about that. -/
def ParseError.Cause.actual? : ParseError.Cause → Option Token.Kind
  | .unexpected _ actual | .expectedExpression actual | .expectedStatement actual
  | .expectedType actual => some actual
  | _ => none

namespace Parser

variable {α β : Type} {fin fin' : Token}

/-- Results with two ends of input. They are the same, but for the place of an error
about the end. -/
inductive Alike (fin fin' : Token) : Result α → Result α → Prop
  | same (r : Result α) : Alike fin fin' r r
  | finish (cause : ParseError.Cause) (about : cause.actual? = some .endOfInput) :
    Alike fin fin' (.error ⟨cause, fin.span⟩) (.error ⟨cause, fin'.span⟩)

theorem Alike.bind {r r' : Result α} {g g' : α → Result β} (h : Alike fin fin' r r')
    (hg : ∀ a, r = .ok a → Alike fin fin' (g a) (g' a)) :
    Alike fin fin' (r >>= g) (r' >>= g') := by
  cases h with
  | same =>
    cases r with
    | error e => exact .same _
    | ok a => exact hg a rfl
  | finish cause about => exact .finish cause about

/-- A last step that is the same for both ends. -/
theorem Alike.map {r r' : Result α} (h : Alike fin fin' r r') (g : α → Result β) :
    Alike fin fin' (r >>= g) (r' >>= g) :=
  h.bind fun _ _ => .same _

/-- Two ends of input, where tokens run out. -/
structure Ends (fin fin' : Token) : Prop where
  left : fin.kind = .endOfInput
  right : fin'.kind = .endOfInput

/-- An error about the end names its kind and stands at its place. -/
theorem Ends.alike (ends : Ends fin fin') (cause : Token.Kind → ParseError.Cause)
    (about : (cause .endOfInput).actual? = some .endOfInput) :
    Alike fin fin' (.error (errorAt fin (cause fin.kind)) : Result α)
      (.error (errorAt fin' (cause fin'.kind))) := by
  simp only [errorAt, ends.left, ends.right, reduceCtorEq, ite_false]
  exact .finish _ about

theorem expected_alike (ends : Ends fin fin') (k : Token.Kind) (ts : List Token) :
    Alike fin fin' (expected fin k ts) (expected fin' k ts) := by
  cases ts with
  | nil => exact ends.alike (.unexpected k) rfl
  | cons t ts => exact .same _

theorem keyed_alike (ends : Ends fin fin') (ts : List Token) :
    Alike fin fin' (keyed fin ts) (keyed fin' ts) := by
  cases ts with
  | nil => exact ends.alike (.unexpected .identifier) rfl
  | cons t ts => exact .same _

/-- Something and the token that closes it. -/
theorem Alike.closed (ends : Ends fin fin') {r r' : Result (α × List Token)}
    (h : Alike fin fin' r r') (k : Token.Kind) (f : α → β) :
    Alike fin fin'
      (do
        let (a, rest₁) ← r
        let (_, rest₂) ← expected fin k rest₁
        return (f a, rest₂))
      (do
        let (a, rest₁) ← r'
        let (_, rest₂) ← expected fin' k rest₁
        return (f a, rest₂)) := by
  apply h.bind
  rintro ⟨a, rest⟩ -
  exact (expected_alike ends k rest).map _

/-! ### Expressions -/

-- On the same tokens an expression starts with a postfix expression and this with a primary
-- one, as in the reader; everything else is called on fewer tokens.
mutual

theorem expr_alike (ends : Ends fin fin') (level : Nat) (ts : List Token) :
    Alike fin fin' (plain (expr fin level ts)) (plain (expr fin' level ts)) := by
  rw [plain_expr, plain_expr]
  apply (postfixExpr_alike ends ts).bind
  rintro ⟨lhs, rest⟩ h
  have hlt := plain_eq_ok h
  exact operators_alike ends level lhs rest
termination_by 4 * ts.length + 2
decreasing_by all_goals omega

theorem operators_alike (ends : Ends fin fin') (level : Nat) (lhs : Expr) (ts : List Token) :
    Alike fin fin' (plain (operators fin level lhs ts)) (plain (operators fin' level lhs ts)) := by
  rw [plain_operators, plain_operators]
  cases ts with
  | nil => exact .same _
  | cons t ts =>
    dsimp only
    cases binaryOp? t.kind with
    | none => exact .same _
    | some op =>
      dsimp only
      split
      · exact .same _
      · apply (expr_alike ends (op.level + 1) ts).bind
        rintro ⟨rhs, rest⟩ h
        have hlt := plain_eq_ok h
        exact operators_alike ends level (.binary op lhs rhs) rest
termination_by 4 * ts.length
decreasing_by all_goals (simp only [List.length_cons] at *; omega)

theorem postfixExpr_alike (ends : Ends fin fin') (ts : List Token) :
    Alike fin fin' (plain (postfixExpr fin ts)) (plain (postfixExpr fin' ts)) := by
  rw [plain_postfixExpr, plain_postfixExpr]
  apply (primary_alike ends ts).bind
  rintro ⟨e, rest⟩ h
  have hlt := plain_eq_ok h
  exact suffixes_alike ends e rest
termination_by 4 * ts.length + 1
decreasing_by all_goals omega

theorem suffixes_alike (ends : Ends fin fin') (e : Expr) (ts : List Token) :
    Alike fin fin' (plain (suffixes fin e ts)) (plain (suffixes fin' e ts)) := by
  rw [plain_suffixes, plain_suffixes]
  cases hindex : after? .lbracket ts with
  | some us =>
    have hus := after?_lt hindex
    apply (expr_alike ends 0 us).bind
    rintro ⟨i, rest⟩ h
    have hlt := plain_eq_ok h
    apply (expected_alike ends .rbracket rest).bind
    rintro ⟨r, rest'⟩ h'
    have hlt' := expected_lt h'
    exact suffixes_alike ends (.index e i) rest'
  | none =>
    cases hmember : after? .dot ts with
    | some us =>
      have hus := after?_lt hmember
      apply (expected_alike ends .identifier us).bind
      rintro ⟨name, rest⟩ h
      have hlt := expected_lt h
      exact suffixes_alike ends (.member e name.text) rest
    | none => exact .same _
termination_by 4 * ts.length
decreasing_by all_goals omega

theorem primary_alike (ends : Ends fin fin') (ts : List Token) :
    Alike fin fin' (plain (primary fin ts)) (plain (primary fin' ts)) := by
  rw [plain_primary, plain_primary]
  cases ts with
  | nil => exact ends.alike .expectedExpression rfl
  | cons t ts =>
    dsimp only
    cases t.kind with
    | identifier =>
      dsimp only
      cases hcall : after? .lparen ts with
      | none => exact .same _
      | some us =>
        have hus := after?_lt hcall
        dsimp only
        split
        · exact (list_alike ends .rparen us).closed ends .rparen (Expr.call t.text)
        · exact .same _
    | lparen => exact (expr_alike ends 0 ts).closed ends .rparen id
    | lbracket =>
      exact (list_alike ends .rbracket ts).closed ends .rbracket fun es => Expr.array (hintOf es) es
    | lbrace => exact (fields_alike ends ts).closed ends .rbrace Expr.object
    | _ => exact .same _
termination_by 4 * ts.length
decreasing_by all_goals (simp only [List.length_cons] at *; omega)

theorem list_alike (ends : Ends fin fin') (close : Token.Kind) (ts : List Token) :
    Alike fin fin' (plain (list fin close ts)) (plain (list fin' close ts)) := by
  rw [plain_list, plain_list]
  split
  · exact .same _
  · apply (expr_alike ends 0 ts).bind
    rintro ⟨e, rest⟩ h
    have hlt := plain_eq_ok h
    dsimp only
    cases hcomma : after? .comma rest with
    | none => exact .same _
    | some us =>
      have hus := after?_lt hcomma
      exact (list_alike ends close us).map _
termination_by 4 * ts.length + 3
decreasing_by all_goals omega

theorem fields_alike (ends : Ends fin fin') (ts : List Token) :
    Alike fin fin' (plain (fields fin ts)) (plain (fields fin' ts)) := by
  rw [plain_fields, plain_fields]
  split
  · exact .same _
  · apply (keyed_alike ends ts).bind
    rintro ⟨key, rest⟩ h
    have hlt := keyed_lt h
    apply (expected_alike ends .colon rest).bind
    rintro ⟨c, rest₁⟩ h₁
    have hlt₁ := expected_lt h₁
    apply (expr_alike ends 0 rest₁).bind
    rintro ⟨e, rest₂⟩ h₂
    have hlt₂ := plain_eq_ok h₂
    dsimp only
    cases hcomma : after? .comma rest₂ with
    | none => exact .same _
    | some us =>
      have hus := after?_lt hcomma
      exact (fields_alike ends us).map _
termination_by 4 * ts.length
decreasing_by all_goals omega

end

/-! ### Simple statements -/

theorem typeName_alike (ends : Ends fin fin') (ts : List Token) :
    Alike fin fin' (plain (typeName fin ts)) (plain (typeName fin' ts)) := by
  rw [plain_typeName, plain_typeName]
  cases ts with
  | nil => exact ends.alike .expectedType rfl
  | cons t ts =>
    dsimp only
    split
    · cases after? .lbracket ts with
      | none => exact .same _
      | some us => exact (expected_alike ends .rbracket us).map _
    · exact .same _

theorem declaredType_alike (ends : Ends fin fin') (ts : List Token) :
    Alike fin fin' (plain (declaredType fin ts)) (plain (declaredType fin' ts)) := by
  rw [plain_declaredType, plain_declaredType]
  cases after? .colon ts with
  | none => exact .same _
  | some us => exact typeName_alike ends us

theorem initialValue_alike (ends : Ends fin fin') (ts : List Token) :
    Alike fin fin' (plain (initialValue fin ts)) (plain (initialValue fin' ts)) := by
  rw [plain_initialValue, plain_initialValue]
  cases after? .assign ts with
  | none => exact .same _
  | some us => exact (expr_alike ends 0 us).map _

theorem declaration_alike (ends : Ends fin fin') (ts : List Token) :
    Alike fin fin' (plain (declaration fin ts)) (plain (declaration fin' ts)) := by
  rw [plain_declaration, plain_declaration]
  apply (expected_alike ends .identifier ts).bind
  rintro ⟨name, rest₁⟩ -
  apply (declaredType_alike ends rest₁).bind
  rintro ⟨type, rest₂⟩ -
  exact (initialValue_alike ends rest₂).map _

/-- Whether an element is assigned to is seen from tokens before the end alone. -/
theorem simple_alike (ends : Ends fin fin') (name : Token) (ts : List Token) :
    Alike fin fin' (plain (simple fin name ts)) (plain (simple fin' name ts)) := by
  rw [plain_simple, plain_simple]
  split
  · exact (expr_alike ends 0 (name :: ts)).map _
  · cases ts with
    | nil => exact ends.alike (.unexpected .assign) rfl
    | cons t ts =>
      dsimp only
      cases t.kind with
      | assign => exact (expr_alike ends 0 ts).map _
      | lbracket =>
        dsimp only
        split
        · apply (expr_alike ends 0 ts).bind
          rintro ⟨i, rest₁⟩ -
          apply (expected_alike ends .rbracket rest₁).bind
          rintro ⟨r, rest₂⟩ -
          apply (expected_alike ends .assign rest₂).bind
          rintro ⟨a, rest₃⟩ -
          exact (expr_alike ends 0 rest₃).map _
        · exact .same _
      | _ => exact .same _

theorem clause_alike (ends : Ends fin fin') (ts : List Token) :
    Alike fin fin' (plain (clause fin ts)) (plain (clause fin' ts)) := by
  rw [plain_clause, plain_clause]
  cases ts with
  | nil => exact ends.alike .expectedStatement rfl
  | cons t ts =>
    dsimp only
    cases t.kind with
    | kwLet | kwConst | kwVar => exact declaration_alike ends ts
    | identifier => exact simple_alike ends t ts
    | _ => exact .same _

theorem optional_alike (k : Token.Kind) (ts : List Token) {r r' : Result (α × Shorter ts)}
    (h : Alike fin fin' (plain r) (plain r')) :
    Alike fin fin' (plain (optional k ts r)) (plain (optional k ts r')) := by
  rw [plain_optional, plain_optional]
  split
  · exact .same _
  · exact h.map _

theorem parenthesized_alike (ends : Ends fin fin') (ts : List Token) :
    Alike fin fin' (plain (parenthesized fin ts)) (plain (parenthesized fin' ts)) := by
  rw [plain_parenthesized, plain_parenthesized]
  apply (expected_alike ends .lparen ts).bind
  rintro ⟨l, rest⟩ -
  exact (expr_alike ends 0 rest).closed ends .rparen id

theorem forClauses_alike (ends : Ends fin fin') (ts : List Token) :
    Alike fin fin' (plain (forClauses fin ts)) (plain (forClauses fin' ts)) := by
  rw [plain_forClauses, plain_forClauses]
  apply (expected_alike ends .lparen ts).bind
  rintro ⟨l, rest₁⟩ -
  apply (optional_alike .semicolon rest₁ (clause_alike ends rest₁)).bind
  rintro ⟨init, rest₂⟩ -
  apply (expected_alike ends .semicolon rest₂).bind
  rintro ⟨s, rest₃⟩ -
  apply (optional_alike .semicolon rest₃ (expr_alike ends 0 rest₃)).bind
  rintro ⟨cond, rest₄⟩ -
  apply (expected_alike ends .semicolon rest₄).bind
  rintro ⟨s', rest₅⟩ -
  exact (optional_alike .rparen rest₅ (clause_alike ends rest₅)).closed ends .rparen
    fun step => (init, cond, step)

/-! ### Statements -/

mutual

theorem stmt_alike (ends : Ends fin fin') (ts : List Token) :
    Alike fin fin' (plain (stmt fin ts)) (plain (stmt fin' ts)) := by
  rw [plain_stmt, plain_stmt]
  cases ts with
  | nil => exact ends.alike .expectedStatement rfl
  | cons t ts =>
    dsimp only
    cases t.kind with
    | kwLet | kwConst | kwVar => exact (declaration_alike ends ts).closed ends .semicolon id
    | kwIf => exact branch_alike ends ts
    | kwWhile =>
      apply (parenthesized_alike ends ts).bind
      rintro ⟨cond, rest⟩ h
      have hlt := plain_eq_ok h
      exact (block_alike ends rest).map _
    | kwDo =>
      apply (block_alike ends ts).bind
      rintro ⟨body, rest₁⟩ -
      apply (expected_alike ends .kwWhile rest₁).bind
      rintro ⟨w, rest₂⟩ -
      exact (parenthesized_alike ends rest₂).closed ends .semicolon (Stmt.doWhile body)
    | kwFor =>
      apply (forClauses_alike ends ts).bind
      rintro ⟨⟨init, cond, step⟩, rest⟩ h
      have hlt := plain_eq_ok h
      exact (block_alike ends rest).map _
    | identifier => exact (simple_alike ends t ts).closed ends .semicolon id
    | _ => exact .same _
termination_by 2 * ts.length
decreasing_by all_goals (simp only [List.length_cons] at *; omega)

theorem branch_alike (ends : Ends fin fin') (ts : List Token) :
    Alike fin fin' (plain (branch fin ts)) (plain (branch fin' ts)) := by
  rw [plain_branch, plain_branch]
  apply (parenthesized_alike ends ts).bind
  rintro ⟨cond, rest₁⟩ h₁
  have hlt₁ := plain_eq_ok h₁
  apply (block_alike ends rest₁).bind
  rintro ⟨yes, rest₂⟩ h₂
  have hlt₂ := plain_eq_ok h₂
  dsimp only
  cases helse : after? .kwElse rest₂ with
  | none => exact .same _
  | some us =>
    have hus := after?_lt helse
    dsimp only
    cases hif : after? .kwIf us with
    | none => exact (block_alike ends us).map _
    | some vs =>
      have hvs := after?_lt hif
      exact (branch_alike ends vs).map _
termination_by 2 * ts.length
decreasing_by all_goals omega

theorem block_alike (ends : Ends fin fin') (ts : List Token) :
    Alike fin fin' (plain (block fin ts)) (plain (block fin' ts)) := by
  rw [plain_block, plain_block]
  apply (expected_alike ends .lbrace ts).bind
  rintro ⟨l, rest⟩ h
  have hlt := expected_lt h
  exact (stmts_alike ends rest).closed ends .rbrace id
termination_by 2 * ts.length
decreasing_by all_goals omega

theorem stmts_alike (ends : Ends fin fin') (ts : List Token) :
    Alike fin fin' (plain (stmts fin ts)) (plain (stmts fin' ts)) := by
  rw [plain_stmts, plain_stmts]
  cases ts with
  | nil => exact .same _
  | cons t ts =>
    dsimp only
    split
    · exact .same _
    · apply (stmt_alike ends (t :: ts)).bind
      rintro ⟨s, rest⟩ h
      have hlt := plain_eq_ok h
      exact (stmts_alike ends rest).map _
termination_by 2 * ts.length + 1
decreasing_by all_goals omega

end

theorem program_alike (ends : Ends fin fin') (ts : List Token) :
    Alike fin fin' (program fin ts) (program fin' ts) := by
  rw [program_eq, program_eq]
  cases ts with
  | nil => exact .same _
  | cons t ts =>
    apply (stmt_alike ends (t :: ts)).bind
    rintro ⟨s, rest⟩ h
    have hlt := plain_eq_ok h
    exact (program_alike ends rest).map _
termination_by ts.length
decreasing_by exact hlt

/-! ### Whole inputs -/

theorem Alike.outcome {r r' : Result α} (h : Alike fin fin' r r') :
    (∃ a, r = .ok a ∧ r' = .ok a) ∨
      ∃ cause span span', r = .error ⟨cause, span⟩ ∧ r' = .error ⟨cause, span'⟩ ∧
        (span = span' ∨
          cause.actual? = some .endOfInput ∧ span = fin.span ∧ span' = fin'.span) := by
  cases h with
  | same =>
    cases r with
    | ok a => exact .inl ⟨a, rfl, rfl⟩
    | error e => exact .inr ⟨e.value, e.span, e.span, rfl, rfl, .inl rfl⟩
  | finish cause about => exact .inr ⟨cause, _, _, rfl, rfl, .inr ⟨about, rfl, rfl⟩⟩

variable {ts : List Token}

/-- Tokens that do not say where they end are followed by an end all the same. -/
theorem endOf_kind (hts : ∀ t ∈ ts, t.kind ≠ .endOfInput) : (endOf ts).kind = .endOfInput := by
  have hnone : ts.find? (·.kind = .endOfInput) = none := by simpa using hts
  rw [endOf, hnone]
  rfl

theorem beforeEnd_eq_self (hts : ∀ t ∈ ts, t.kind ≠ .endOfInput) : beforeEnd ts = ts := by
  have h := beforeEnd_append hts []
  rw [List.append_nil] at h
  rw [h, beforeEnd, List.takeWhile_nil, List.append_nil]

end Parser

/-- **How the tokens end is of no account.** Nothing after the end of input is read. With
an end of input after them or without one the same program is read from tokens, or the
error is the same, down to its place unless it is about the end. -/
theorem ofTokens_ending {ts : List Token} {last : Token} (hts : ∀ t ∈ ts, t.kind ≠ .endOfInput)
    (hlast : last.kind = .endOfInput) (rest : List Token) :
    Program.ofTokens (ts ++ [last] ++ rest) = Program.ofTokens (ts ++ [last]) ∧
      ((∃ p, Program.ofTokens ts = .ok p ∧ Program.ofTokens (ts ++ [last]) = .ok p) ∨
        ∃ cause span span', Program.ofTokens ts = .error ⟨cause, span⟩ ∧
          Program.ofTokens (ts ++ [last]) = .error ⟨cause, span'⟩ ∧
          (span = span' ∨ cause.actual? = some .endOfInput ∧
            span = (endOf ts).span ∧ span' = last.span)) := by
  have hended := ofTokens_ended hts hlast []
  constructor
  · rw [List.append_assoc, List.singleton_append, ofTokens_ended hts hlast, hended]
  · have hopen : Program.ofTokens ts = program (endOf ts) ts := by
      rw [Program.ofTokens, beforeEnd_eq_self hts]
    rw [hended, hopen]
    exact (program_alike ⟨endOf_kind hts, hlast⟩ ts).outcome

/-- A declaration that breaks off before its value. -/
def unfinished : List Token :=
  [⟨.kwLet, "let", ⟨0, 3⟩⟩, ⟨.identifier, "x", ⟨4, 5⟩⟩, ⟨.assign, "=", ⟨6, 7⟩⟩]

theorem unfinished_ending :
    (∀ t ∈ unfinished, t.kind ≠ .endOfInput) ∧
      (Program.ofTokens unfinished).map (fun _ => ()) =
        .error ⟨.expectedExpression .endOfInput, ⟨7, 7⟩⟩ ∧
      (Program.ofTokens (unfinished ++ [⟨.endOfInput, "", ⟨9, 9⟩⟩])).map (fun _ => ()) =
        .error ⟨.expectedExpression .endOfInput, ⟨9, 9⟩⟩ ∧
      Program.ofTokens (unfinished ++ [⟨.endOfInput, "", ⟨9, 9⟩⟩] ++
          [⟨.integerLiteral, "1", ⟨9, 10⟩⟩, ⟨.semicolon, ";", ⟨10, 11⟩⟩]) =
        Program.ofTokens (unfinished ++ [⟨.endOfInput, "", ⟨9, 9⟩⟩]) := by
  have hopen : ∀ t ∈ unfinished, t.kind ≠ .endOfInput := by decide
  exact ⟨hopen, by decide +kernel, by decide +kernel, (ofTokens_ending hopen rfl _).1⟩

end TinyScript.Ast
