import TinyScript.Ast.Parser

/-! The readers, one equation each. A reader returns the tokens it leaves together
with the fact that they are fewer, which only its recursion needs. Without that fact
what a reader does is an equation between plain results, and these equations are all
that is used of the readers. -/

namespace TinyScript.Ast.Parser

variable {α β : Type} {P Q : List Token → Prop}

/-- What a reader returns, the tokens it leaves as a mere list. -/
def plain (r : Result (α × { rest : List Token // P rest })) : Result (α × List Token) :=
  r.map fun x => (x.1, x.2.1)

theorem plain_bind {r : Result (α × { rest : List Token // P rest })}
    {f : α × { rest : List Token // P rest } → Result (β × { rest : List Token // Q rest })}
    {g : α × List Token → Result (β × List Token)}
    (h : ∀ a rest hrest, plain (f (a, ⟨rest, hrest⟩)) = g (a, rest)) :
    plain (r >>= f) = plain r >>= g := by
  cases r with
  | error e => rfl
  | ok x => exact h x.1 x.2.1 x.2.2

/-- A last step that only says anew that fewer tokens are left. -/
theorem plain_last {r : Result (α × { rest : List Token // P rest })}
    {f : α × { rest : List Token // P rest } → Result (α × { rest : List Token // Q rest })}
    (h : ∀ a rest hrest, plain (f (a, ⟨rest, hrest⟩)) = .ok (a, rest)) :
    plain (r >>= f) = plain r := by
  cases r with
  | error e => rfl
  | ok x => exact h x.1 x.2.1 x.2.2

theorem plain_eq_ok {r : Result (α × { rest : List Token // P rest })} {a : α}
    {rest : List Token} (h : plain r = .ok (a, rest)) : P rest := by
  cases r with
  | error e => cases h
  | ok x =>
    cases h
    exact x.2.2

variable (fin : Token)

/-! ### Single tokens -/

/-- The next token, if it has a kind, and the tokens after it. -/
def expected (k : Token.Kind) : List Token → Result (Token × List Token)
  | [] => .error (errorAt fin (.unexpected k fin.kind))
  | t :: rest => if t.kind = k then .ok (t, rest) else .error (errorAt t (.unexpected k t.kind))

theorem plain_expect (k : Token.Kind) (ts : List Token) :
    plain (expect fin k ts) = expected fin k ts := by
  cases ts with
  | nil => rfl
  | cons t rest =>
    rw [expect, expected]
    split <;> rfl

/-- The tokens after the next one, if that has a kind. -/
def after? (k : Token.Kind) : List Token → Option (List Token)
  | [] => none
  | t :: rest => if t.kind = k then some rest else none

theorem take?_map (k : Token.Kind) (ts : List Token) : (take? k ts).map (·.1) = after? k ts := by
  cases ts with
  | nil => rfl
  | cons t rest =>
    rw [take?, after?]
    split <;> rfl

/-- A name or a string in front of a field's colon, and the tokens after it. -/
def keyed : List Token → Result (String × List Token)
  | [] => .error (errorAt fin (.unexpected .identifier fin.kind))
  | t :: rest =>
    if t.kind = .identifier ∨ t.kind = .stringLiteral then .ok (t.text, rest)
    else .error (errorAt t (.unexpected .identifier t.kind))

theorem plain_fieldKey (ts : List Token) : plain (fieldKey fin ts) = keyed fin ts := by
  cases ts with
  | nil => rfl
  | cons t rest =>
    rw [fieldKey, keyed]
    split <;> rfl

/-! ### Expressions -/

theorem plain_expr (level : Nat) (ts : List Token) :
    plain (expr fin level ts) = plain (postfixExpr fin ts) >>= fun r =>
      plain (operators fin level r.1 r.2) := by
  rw [expr]
  refine plain_bind fun lhs rest _ => ?_
  exact plain_last fun e rest' _ => rfl

theorem plain_operators (level : Nat) (lhs : Expr) (ts : List Token) :
    plain (operators fin level lhs ts) =
      match ts with
      | [] => .ok (lhs, [])
      | t :: rest =>
        match binaryOp? t.kind with
        | none => .ok (lhs, t :: rest)
        | some op =>
          if op.level < level then .ok (lhs, t :: rest)
          else plain (expr fin (op.level + 1) rest) >>= fun r =>
            plain (operators fin level (.binary op lhs r.1) r.2) := by
  cases ts with
  | nil =>
    rw [operators]
    rfl
  | cons t rest =>
    rw [operators]
    dsimp only
    cases binaryOp? t.kind with
    | none => rfl
    | some op =>
      dsimp only
      split
      · rfl
      · refine plain_bind fun rhs rest₁ _ => ?_
        exact plain_last fun e rest₂ _ => rfl

theorem plain_postfixExpr (ts : List Token) :
    plain (postfixExpr fin ts) = plain (primary fin ts) >>= fun r =>
      plain (suffixes fin r.1 r.2) := by
  rw [postfixExpr]
  refine plain_bind fun e rest _ => ?_
  exact plain_last fun e' rest' _ => rfl

theorem plain_suffixes (e : Expr) (ts : List Token) :
    plain (suffixes fin e ts) =
      match after? .lbracket ts with
      | some rest => do
        let (i, rest₁) ← plain (expr fin 0 rest)
        let (_, rest₂) ← expected fin .rbracket rest₁
        plain (suffixes fin (.index e i) rest₂)
      | none =>
        match after? .dot ts with
        | some rest => do
          let (name, rest₁) ← expected fin .identifier rest
          plain (suffixes fin (.member e name.text) rest₁)
        | none => .ok (e, ts) := by
  rw [suffixes]
  simp only [← take?_map, ← plain_expect]
  cases take? .lbracket ts with
  | some rest =>
    refine plain_bind fun i rest₁ _ => ?_
    refine plain_bind fun _ rest₂ _ => ?_
    exact plain_last fun e' rest₃ _ => rfl
  | none =>
    cases take? .dot ts with
    | some rest =>
      refine plain_bind fun name rest₁ _ => ?_
      exact plain_last fun e' rest₂ _ => rfl
    | none => rfl

theorem plain_primary (ts : List Token) :
    plain (primary fin ts) =
      match ts with
      | [] => .error (errorAt fin (.expectedExpression fin.kind))
      | t :: rest =>
        match t.kind with
        | .stringLiteral => .ok (.str t.text, rest)
        | .integerLiteral =>
          match Token.integerValue t.text with
          | .ok n => .ok (.int n, rest)
          | .error _ => .error ⟨.integerOutOfRange, t.span⟩
        | .floatLiteral =>
          match Token.floatValue t.text with
          | .ok d => .ok (.float d, rest)
          | .error _ => .error ⟨.invalidFloat, t.span⟩
        | .kwTrue => .ok (.bool true, rest)
        | .kwFalse => .ok (.bool false, rest)
        | .identifier =>
          match after? .lparen rest with
          | none => .ok (.var t.text, rest)
          | some args =>
            if Builtin.isKnown t.text then do
              let (es, rest₁) ← plain (list fin .rparen args)
              let (_, rest₂) ← expected fin .rparen rest₁
              return (.call t.text es, rest₂)
            else .error ⟨.unknownFunction t.text, t.span⟩
        | .lparen => do
          let (e, rest₁) ← plain (expr fin 0 rest)
          let (_, rest₂) ← expected fin .rparen rest₁
          return (e, rest₂)
        | .lbracket => do
          let (es, rest₁) ← plain (list fin .rbracket rest)
          let (_, rest₂) ← expected fin .rbracket rest₁
          return (.array (hintOf es) es, rest₂)
        | .lbrace => do
          let (fs, rest₁) ← plain (fields fin rest)
          let (_, rest₂) ← expected fin .rbrace rest₁
          return (.object fs, rest₂)
        | k => .error (errorAt t (.expectedExpression k)) := by
  rw [primary.eq_def]
  cases ts with
  | nil => rfl
  | cons t rest =>
    simp only [← take?_map, ← plain_expect]
    cases t.kind with
    | integerLiteral =>
      dsimp only
      cases Token.integerValue t.text <;> rfl
    | floatLiteral =>
      dsimp only
      cases Token.floatValue t.text <;> rfl
    | identifier =>
      dsimp only
      cases take? .lparen rest with
      | none => rfl
      | some args =>
        dsimp only [Option.map]
        split
        · refine plain_bind fun es rest₁ _ => ?_
          exact plain_bind fun _ rest₂ _ => rfl
        · rfl
    | lparen | lbracket | lbrace =>
      refine plain_bind fun x rest₁ _ => ?_
      exact plain_bind fun _ rest₂ _ => rfl
    | _ => rfl

theorem plain_list (close : Token.Kind) (ts : List Token) :
    plain (list fin close ts) =
      if at? close ts then .ok ([], ts)
      else do
        let (e, rest) ← plain (expr fin 0 ts)
        match after? .comma rest with
        | none => return ([e], rest)
        | some rest₁ => do
          let (es, rest₂) ← plain (list fin close rest₁)
          return (e :: es, rest₂) := by
  rw [list]
  split
  · rfl
  · refine plain_bind fun e rest _ => ?_
    simp only [← take?_map]
    cases take? .comma rest with
    | none => rfl
    | some rest₁ => exact plain_bind fun es rest₂ _ => rfl

theorem plain_fields (ts : List Token) :
    plain (fields fin ts) =
      if at? .rbrace ts then .ok ([], ts)
      else do
        let (key, rest) ← keyed fin ts
        let (_, rest₁) ← expected fin .colon rest
        let (e, rest₂) ← plain (expr fin 0 rest₁)
        match after? .comma rest₂ with
        | none => return ([(key, e)], rest₂)
        | some rest₃ => do
          let (fs, rest₄) ← plain (fields fin rest₃)
          return ((key, e) :: fs, rest₄) := by
  rw [fields]
  simp only [← plain_fieldKey, ← plain_expect]
  split
  · rfl
  · refine plain_bind fun key rest _ => ?_
    refine plain_bind fun _ rest₁ _ => ?_
    refine plain_bind fun e rest₂ _ => ?_
    simp only [← take?_map]
    cases take? .comma rest₂ with
    | none => rfl
    | some rest₃ => exact plain_bind fun fs rest₄ _ => rfl

/-! ### Statements -/

theorem plain_typeName (ts : List Token) :
    plain (typeName fin ts) =
      match ts with
      | [] => .error (errorAt fin (.expectedType fin.kind))
      | t :: rest =>
        if t.kind.isTypeName ∨ t.kind = .identifier then
          match after? .lbracket rest with
          | none => .ok (t.text, rest)
          | some rest₁ => do
            let (_, rest₂) ← expected fin .rbracket rest₁
            return (t.text ++ "[]", rest₂)
        else .error (errorAt t (.expectedType t.kind)) := by
  cases ts with
  | nil => rfl
  | cons t rest =>
    rw [typeName]
    simp only [← take?_map, ← plain_expect]
    split
    · cases take? .lbracket rest with
      | none => rfl
      | some rest₁ => exact plain_bind fun _ rest₂ _ => rfl
    · rfl

theorem plain_declaredType (ts : List Token) :
    plain (declaredType fin ts) =
      match after? .colon ts with
      | none => .ok (auto, ts)
      | some rest => plain (typeName fin rest) := by
  rw [declaredType, ← take?_map]
  cases take? .colon ts with
  | none => rfl
  | some rest => exact plain_last fun type rest₁ _ => rfl

theorem plain_initialValue (ts : List Token) :
    plain (initialValue fin ts) =
      match after? .assign ts with
      | none => .ok (none, ts)
      | some rest => do
        let (e, rest₁) ← plain (expr fin 0 rest)
        return (some e, rest₁) := by
  rw [initialValue, ← take?_map]
  cases take? .assign ts with
  | none => rfl
  | some rest => exact plain_bind fun e rest₁ _ => rfl

theorem plain_declaration (ts : List Token) :
    plain (declaration fin ts) = do
      let (name, rest₁) ← expected fin .identifier ts
      let (type, rest₂) ← plain (declaredType fin rest₁)
      let (init, rest₃) ← plain (initialValue fin rest₂)
      return (.declare name.text type init, rest₃) := by
  rw [declaration]
  simp only [← plain_expect]
  refine plain_bind fun name rest₁ _ => ?_
  refine plain_bind fun type rest₂ _ => ?_
  exact plain_bind fun init rest₃ _ => rfl

theorem plain_simple (name : Token) (rest : List Token) :
    plain (simple fin name rest) =
      if Builtin.isKnown name.text then do
        let (e, rest₁) ← plain (expr fin 0 (name :: rest))
        return (.expr e, rest₁)
      else
        match rest with
        | [] => .error (errorAt fin (.unexpected .assign fin.kind))
        | t :: rest₁ =>
          match t.kind with
          | .assign => do
            let (e, rest₂) ← plain (expr fin 0 rest₁)
            return (.assign name.text e, rest₂)
          | .plusPlus => .ok (.assign name.text (.binary .add (.var name.text) (.int 1)), rest₁)
          | .minusMinus => .ok (.assign name.text (.binary .sub (.var name.text) (.int 1)), rest₁)
          | .lbracket =>
            if assignsElement 0 (t :: rest₁) then do
              let (i, rest₂) ← plain (expr fin 0 rest₁)
              let (_, rest₃) ← expected fin .rbracket rest₂
              let (_, rest₄) ← expected fin .assign rest₃
              let (e, rest₅) ← plain (expr fin 0 rest₄)
              return (.setElement (.var name.text) i e, rest₅)
            else .error ⟨.bareIndexExpression, t.span⟩
          | .lparen => .error ⟨.unknownFunction name.text, name.span⟩
          | k => .error (errorAt t (.unexpected .assign k)) := by
  unfold simple
  simp only [← plain_expect]
  split
  · exact plain_bind fun e rest₁ _ => rfl
  · cases rest with
    | nil => rfl
    | cons t rest₁ =>
      dsimp only
      cases t.kind with
      | assign => exact plain_bind fun e rest₂ _ => rfl
      | lbracket =>
        dsimp only
        split
        · refine plain_bind fun i rest₂ _ => ?_
          refine plain_bind fun _ rest₃ _ => ?_
          refine plain_bind fun _ rest₄ _ => ?_
          exact plain_bind fun e rest₅ _ => rfl
        · rfl
      | _ => rfl

theorem plain_clause (ts : List Token) :
    plain (clause fin ts) =
      match ts with
      | [] => .error (errorAt fin (.expectedStatement fin.kind))
      | t :: rest =>
        match t.kind with
        | .kwLet | .kwConst | .kwVar => plain (declaration fin rest)
        | .identifier => plain (simple fin t rest)
        | k => .error (errorAt t (.expectedStatement k)) := by
  cases ts with
  | nil => rfl
  | cons t rest =>
    unfold clause
    dsimp only
    cases t.kind with
    | kwLet | kwConst | kwVar => exact plain_last fun s rest₁ _ => rfl
    | _ => rfl

theorem plain_optional (k : Token.Kind) (ts : List Token) (read : Result (α × Shorter ts)) :
    plain (optional k ts read) =
      if at? k ts then .ok (none, ts)
      else do
        let (x, rest) ← plain read
        return (some x, rest) := by
  unfold optional
  split
  · rfl
  · exact plain_bind fun x rest _ => rfl

theorem plain_parenthesized (ts : List Token) :
    plain (parenthesized fin ts) = do
      let (_, rest₁) ← expected fin .lparen ts
      let (e, rest₂) ← plain (expr fin 0 rest₁)
      let (_, rest₃) ← expected fin .rparen rest₂
      return (e, rest₃) := by
  unfold parenthesized
  simp only [← plain_expect]
  refine plain_bind fun _ rest₁ _ => ?_
  refine plain_bind fun e rest₂ _ => ?_
  exact plain_bind fun _ rest₃ _ => rfl

theorem plain_forClauses (ts : List Token) :
    plain (forClauses fin ts) = do
      let (_, rest₁) ← expected fin .lparen ts
      let (init, rest₂) ← plain (optional .semicolon rest₁ (clause fin rest₁))
      let (_, rest₃) ← expected fin .semicolon rest₂
      let (cond, rest₄) ← plain (optional .semicolon rest₃ (expr fin 0 rest₃))
      let (_, rest₅) ← expected fin .semicolon rest₄
      let (step, rest₆) ← plain (optional .rparen rest₅ (clause fin rest₅))
      let (_, rest₇) ← expected fin .rparen rest₆
      return ((init, cond, step), rest₇) := by
  unfold forClauses
  simp only [← plain_expect]
  refine plain_bind fun _ rest₁ _ => ?_
  refine plain_bind fun init rest₂ _ => ?_
  refine plain_bind fun _ rest₃ _ => ?_
  refine plain_bind fun cond rest₄ _ => ?_
  refine plain_bind fun _ rest₅ _ => ?_
  refine plain_bind fun step rest₆ _ => ?_
  exact plain_bind fun _ rest₇ _ => rfl

theorem plain_stmt (ts : List Token) :
    plain (stmt fin ts) =
      match ts with
      | [] => .error (errorAt fin (.expectedStatement fin.kind))
      | t :: rest =>
        match t.kind with
        | .kwLet | .kwConst | .kwVar => do
          let (s, rest₁) ← plain (declaration fin rest)
          let (_, rest₂) ← expected fin .semicolon rest₁
          return (s, rest₂)
        | .kwIf => plain (branch fin rest)
        | .kwWhile => do
          let (cond, rest₁) ← plain (parenthesized fin rest)
          let (body, rest₂) ← plain (block fin rest₁)
          return (.loopWhile cond body, rest₂)
        | .kwDo => do
          let (body, rest₁) ← plain (block fin rest)
          let (_, rest₂) ← expected fin .kwWhile rest₁
          let (cond, rest₃) ← plain (parenthesized fin rest₂)
          let (_, rest₄) ← expected fin .semicolon rest₃
          return (.doWhile body cond, rest₄)
        | .kwFor => do
          let ((init, cond, step), rest₁) ← plain (forClauses fin rest)
          let (body, rest₂) ← plain (block fin rest₁)
          return (.loopFor init cond step body, rest₂)
        | .identifier => do
          let (s, rest₁) ← plain (simple fin t rest)
          let (_, rest₂) ← expected fin .semicolon rest₁
          return (s, rest₂)
        | k => .error (errorAt t (.expectedStatement k)) := by
  rw [stmt.eq_def]
  cases ts with
  | nil => rfl
  | cons t rest =>
    simp only [← plain_expect]
    cases t.kind with
    | kwLet | kwConst | kwVar | kwWhile | identifier =>
      refine plain_bind fun x rest₁ _ => ?_
      exact plain_bind fun y rest₂ _ => rfl
    | kwIf => exact plain_last fun s rest₁ _ => rfl
    | kwDo =>
      refine plain_bind fun body rest₁ _ => ?_
      refine plain_bind fun _ rest₂ _ => ?_
      refine plain_bind fun cond rest₃ _ => ?_
      exact plain_bind fun _ rest₄ _ => rfl
    | kwFor =>
      refine plain_bind fun clauses rest₁ _ => ?_
      obtain ⟨init, cond, step⟩ := clauses
      exact plain_bind fun body rest₂ _ => rfl
    | _ => rfl

theorem plain_branch (ts : List Token) :
    plain (branch fin ts) = do
      let (cond, rest₁) ← plain (parenthesized fin ts)
      let (yes, rest₂) ← plain (block fin rest₁)
      match after? .kwElse rest₂ with
      | none => return (.branch cond yes [], rest₂)
      | some rest₃ =>
        match after? .kwIf rest₃ with
        | some rest₄ => do
          let (no, rest₅) ← plain (branch fin rest₄)
          return (.branch cond yes [no], rest₅)
        | none => do
          let (no, rest₅) ← plain (block fin rest₃)
          return (.branch cond yes no, rest₅) := by
  rw [branch]
  simp only [← take?_map]
  refine plain_bind fun cond rest₁ _ => ?_
  refine plain_bind fun yes rest₂ _ => ?_
  cases take? .kwElse rest₂ with
  | none => rfl
  | some rest₃ =>
    dsimp only [Option.map]
    cases take? .kwIf rest₃.1 with
    | some rest₄ => exact plain_bind fun no rest₅ _ => rfl
    | none => exact plain_bind fun no rest₅ _ => rfl

theorem plain_block (ts : List Token) :
    plain (block fin ts) = do
      let (_, rest₁) ← expected fin .lbrace ts
      let (ss, rest₂) ← plain (stmts fin rest₁)
      let (_, rest₃) ← expected fin .rbrace rest₂
      return (ss, rest₃) := by
  rw [block]
  simp only [← plain_expect]
  refine plain_bind fun _ rest₁ _ => ?_
  refine plain_bind fun ss rest₂ _ => ?_
  exact plain_bind fun _ rest₃ _ => rfl

theorem plain_stmts (ts : List Token) :
    plain (stmts fin ts) =
      match ts with
      | [] => .ok ([], [])
      | t :: rest =>
        if t.kind = .rbrace then .ok ([], t :: rest)
        else do
          let (s, rest₁) ← plain (stmt fin (t :: rest))
          let (ss, rest₂) ← plain (stmts fin rest₁)
          return (s :: ss, rest₂) := by
  rw [stmts.eq_def]
  cases ts with
  | nil => rfl
  | cons t rest =>
    dsimp only
    split
    · rfl
    · refine plain_bind fun s rest₁ _ => ?_
      exact plain_bind fun ss rest₂ _ => rfl

theorem program_eq (ts : List Token) :
    program fin ts =
      match ts with
      | [] => .ok []
      | t :: rest => do
        let (s, rest₁) ← plain (stmt fin (t :: rest))
        let ss ← program fin rest₁
        return s :: ss := by
  rw [program.eq_def]
  cases ts with
  | nil => rfl
  | cons t rest =>
    dsimp only
    cases stmt fin (t :: rest) <;> rfl

end TinyScript.Ast.Parser
