import TinyScript.Ast
import TinyScript.Library.Signature
import TinyScript.Token.Lexer
import TinyScript.Token.Value

/-! From tokens to programs. Reading is one pass without backtracking, and the
first token that does not fit is the error. Every reader returns the tokens it
leaves with the fact that it leaves fewer than it got, which is what the
recursion stands on. Tokens from the first end of input on are no part of a
program. -/

namespace TinyScript.Ast

open Text (Span Located)

/-- Why tokens are no program. -/
inductive ParseError.Cause where
  | unexpected (expected actual : Token.Kind)
  | expectedExpression (actual : Token.Kind)
  | expectedStatement (actual : Token.Kind)
  | expectedType (actual : Token.Kind)
  | unknownFunction (name : String)
  | bareIndexExpression
  | integerOutOfRange
  | invalidFloat
  /-- A token that was wrong by itself. -/
  | lexical (message : String)
  deriving DecidableEq, Repr

def ParseError.Cause.message : ParseError.Cause → String
  | unexpected expected actual => "expected " ++ expected.name ++ ", but got " ++ actual.name
  | expectedExpression actual => "expected expression, but got " ++ actual.name
  | expectedStatement actual => "expected statement, but got " ++ actual.name
  | expectedType actual => "expected type name, but got " ++ actual.name
  | unknownFunction name => "unknown function `" ++ name ++ "`"
  | bareIndexExpression => "bare index expression statements are not supported"
  | integerOutOfRange => "integer literal out of range"
  | invalidFloat => "invalid float literal"
  | lexical message => message

abbrev ParseError := Located ParseError.Cause

namespace Parser

/-- A part of `ts` that leaves out at least its first token. -/
abbrev Shorter (ts : List Token) := { rest : List Token // rest.length < ts.length }

/-- A part of `ts`, possibly all of it. -/
abbrev NoLonger (ts : List Token) := { rest : List Token // rest.length ≤ ts.length }

abbrev Result := Except ParseError

/-- An error at a token. A token that is wrong by itself says so instead. -/
def errorAt (t : Token) (cause : ParseError.Cause) : ParseError :=
  if t.kind = .invalid then ⟨.lexical t.text, t.span⟩ else ⟨cause, t.span⟩

/-- Whether the next token has a kind. -/
def at? (k : Token.Kind) : List Token → Bool
  | [] => false
  | t :: _ => t.kind = k

/-- The next token, which must have a kind. -/
def expect (fin : Token) (k : Token.Kind) : (ts : List Token) → Result (Token × Shorter ts)
  | [] => .error (errorAt fin (.unexpected k fin.kind))
  | t :: rest =>
    if t.kind = k then .ok (t, ⟨rest, Nat.lt_succ_self _⟩)
    else .error (errorAt t (.unexpected k t.kind))

/-- The tokens after the next one, if that has a kind. -/
def take? (k : Token.Kind) : (ts : List Token) → Option (Shorter ts)
  | [] => none
  | t :: rest => if t.kind = k then some ⟨rest, Nat.lt_succ_self _⟩ else none

def binaryOp? : Token.Kind → Option BinaryOp
  | .eqEq => some .eq | .notEq => some .ne
  | .less => some .lt | .lessEq => some .le | .greater => some .gt | .greaterEq => some .ge
  | .plus => some .add | .minus => some .sub
  | .star => some .mul | .slash => some .div | .percent => some .rem
  | _ => none

/-- The type name that an array literal's first element suggests. -/
def hintOf : List Expr → String
  | .str _ :: _ => "string"
  | .float _ :: _ => "f64"
  | .bool _ :: _ => "boolean"
  | _ => "i32"

/-- A name or a string in front of a field's colon. -/
def fieldKey (fin : Token) : (ts : List Token) → Result (String × Shorter ts)
  | [] => .error (errorAt fin (.unexpected .identifier fin.kind))
  | t :: rest =>
    if t.kind = .identifier ∨ t.kind = .stringLiteral then
      return (t.text, ⟨rest, Nat.lt_succ_self _⟩)
    else .error (errorAt t (.unexpected .identifier t.kind))

/-! ### Expressions

The readers of one expression call each other on the same tokens only downwards:
`list`, `expr`, `postfix`, `primary`. -/

mutual

/-- An expression whose operators bind at least as tightly as `level`. -/
def expr (fin : Token) (level : Nat) (ts : List Token) : Result (Expr × Shorter ts) := do
  let (lhs, ⟨rest, h⟩) ← postfixExpr fin ts
  let (e, ⟨rest', h'⟩) ← operators fin level lhs rest
  return (e, ⟨rest', by omega⟩)
termination_by 4 * ts.length + 2
decreasing_by all_goals omega

/-- Operators and right operands after `lhs`, grouped to the left. -/
def operators (fin : Token) (level : Nat) (lhs : Expr) (ts : List Token) :
    Result (Expr × NoLonger ts) :=
  match ts with
  | [] => return (lhs, ⟨[], Nat.le_refl _⟩)
  | t :: rest =>
    match binaryOp? t.kind with
    | none => return (lhs, ⟨t :: rest, Nat.le_refl _⟩)
    | some op =>
      if op.level < level then return (lhs, ⟨t :: rest, Nat.le_refl _⟩)
      else do
        let (rhs, ⟨rest₁, h₁⟩) ← expr fin (op.level + 1) rest
        let (e, ⟨rest₂, h₂⟩) ← operators fin level (.binary op lhs rhs) rest₁
        return (e, ⟨rest₂, by simp only [List.length_cons]; omega⟩)
termination_by 4 * ts.length
decreasing_by all_goals (simp only [List.length_cons] at *; omega)

/-- A primary and its suffixes. -/
def postfixExpr (fin : Token) (ts : List Token) : Result (Expr × Shorter ts) := do
  let (e, ⟨rest, h⟩) ← primary fin ts
  let (e', ⟨rest', h'⟩) ← suffixes fin e rest
  return (e', ⟨rest', by omega⟩)
termination_by 4 * ts.length + 1
decreasing_by all_goals omega

/-- Indices in brackets and names after dots. -/
def suffixes (fin : Token) (e : Expr) (ts : List Token) : Result (Expr × NoLonger ts) :=
  match take? .lbracket ts with
  | some ⟨rest, h⟩ => do
    let (i, ⟨rest₁, h₁⟩) ← expr fin 0 rest
    let (_, ⟨rest₂, h₂⟩) ← expect fin .rbracket rest₁
    let (e', ⟨rest₃, h₃⟩) ← suffixes fin (.index e i) rest₂
    return (e', ⟨rest₃, by omega⟩)
  | none =>
    match take? .dot ts with
    | some ⟨rest, h⟩ => do
      let (name, ⟨rest₁, h₁⟩) ← expect fin .identifier rest
      let (e', ⟨rest₂, h₂⟩) ← suffixes fin (.member e name.text) rest₁
      return (e', ⟨rest₂, by omega⟩)
    | none => return (e, ⟨ts, Nat.le_refl _⟩)
termination_by 4 * ts.length
decreasing_by all_goals omega

/-- A literal, a variable, a call or an expression in parentheses. -/
def primary (fin : Token) (ts : List Token) : Result (Expr × Shorter ts) :=
  match ts with
  | [] => .error (errorAt fin (.expectedExpression fin.kind))
  | t :: rest =>
    match t.kind with
    | .stringLiteral => return (.str t.text, ⟨rest, Nat.lt_succ_self _⟩)
    | .integerLiteral =>
      match Token.integerValue t.text with
      | .ok n => return (.int n, ⟨rest, Nat.lt_succ_self _⟩)
      | .error _ => .error ⟨.integerOutOfRange, t.span⟩
    | .floatLiteral =>
      match Token.floatValue t.text with
      | .ok d => return (.float d, ⟨rest, Nat.lt_succ_self _⟩)
      | .error _ => .error ⟨.invalidFloat, t.span⟩
    | .kwTrue => return (.bool true, ⟨rest, Nat.lt_succ_self _⟩)
    | .kwFalse => return (.bool false, ⟨rest, Nat.lt_succ_self _⟩)
    | .identifier =>
      match take? .lparen rest with
      | none => return (.var t.text, ⟨rest, Nat.lt_succ_self _⟩)
      | some ⟨args, h⟩ =>
        if Builtin.isKnown t.text then do
          let (es, ⟨rest₁, h₁⟩) ← list fin .rparen args
          let (_, ⟨rest₂, h₂⟩) ← expect fin .rparen rest₁
          return (.call t.text es, ⟨rest₂, by simp only [List.length_cons]; omega⟩)
        else .error ⟨.unknownFunction t.text, t.span⟩
    | .lparen => do
      let (e, ⟨rest₁, h₁⟩) ← expr fin 0 rest
      let (_, ⟨rest₂, h₂⟩) ← expect fin .rparen rest₁
      return (e, ⟨rest₂, by simp only [List.length_cons]; omega⟩)
    | .lbracket => do
      let (es, ⟨rest₁, h₁⟩) ← list fin .rbracket rest
      let (_, ⟨rest₂, h₂⟩) ← expect fin .rbracket rest₁
      return (.array (hintOf es) es, ⟨rest₂, by simp only [List.length_cons]; omega⟩)
    | .lbrace => do
      let (fs, ⟨rest₁, h₁⟩) ← fields fin rest
      let (_, ⟨rest₂, h₂⟩) ← expect fin .rbrace rest₁
      return (.object fs, ⟨rest₂, by simp only [List.length_cons]; omega⟩)
    | k => .error (errorAt t (.expectedExpression k))
termination_by 4 * ts.length
decreasing_by all_goals (simp only [List.length_cons] at *; omega)

/-- Expressions between commas, up to a closing token, which is left. A comma
may stand before it. -/
def list (fin : Token) (close : Token.Kind) (ts : List Token) :
    Result (List Expr × NoLonger ts) :=
  if at? close ts then return ([], ⟨ts, Nat.le_refl _⟩)
  else do
    let (e, ⟨rest, h⟩) ← expr fin 0 ts
    match take? .comma rest with
    | none => return ([e], ⟨rest, Nat.le_of_lt h⟩)
    | some ⟨rest₁, h₁⟩ => do
      let (es, ⟨rest₂, h₂⟩) ← list fin close rest₁
      return (e :: es, ⟨rest₂, by omega⟩)
termination_by 4 * ts.length + 3
decreasing_by all_goals omega

/-- Keys and values between commas, up to a closing brace, which is left. A
comma may stand before it. -/
def fields (fin : Token) (ts : List Token) : Result (List (String × Expr) × NoLonger ts) :=
  if at? .rbrace ts then return ([], ⟨ts, Nat.le_refl _⟩)
  else do
    let (key, ⟨rest, h⟩) ← fieldKey fin ts
    let (_, ⟨rest₁, h₁⟩) ← expect fin .colon rest
    let (e, ⟨rest₂, h₂⟩) ← expr fin 0 rest₁
    match take? .comma rest₂ with
    | none => return ([(key, e)], ⟨rest₂, by omega⟩)
    | some ⟨rest₃, h₃⟩ => do
      let (fs, ⟨rest₄, h₄⟩) ← fields fin rest₃
      return ((key, e) :: fs, ⟨rest₄, by omega⟩)
termination_by 4 * ts.length
decreasing_by all_goals omega

end

/-! ### Statements -/

/-- A type name as it is written, brackets included. -/
def typeName (fin : Token) : (ts : List Token) → Result (String × Shorter ts)
  | [] => .error (errorAt fin (.expectedType fin.kind))
  | t :: rest =>
    if t.kind.isTypeName ∨ t.kind = .identifier then
      match take? .lbracket rest with
      | none => return (t.text, ⟨rest, Nat.lt_succ_self _⟩)
      | some ⟨rest₁, h₁⟩ => do
        let (_, ⟨rest₂, h₂⟩) ← expect fin .rbracket rest₁
        return (t.text ++ "[]", ⟨rest₂, by simp only [List.length_cons]; omega⟩)
    else .error (errorAt t (.expectedType t.kind))

/-- An annotation, or none. -/
def declaredType (fin : Token) (ts : List Token) : Result (String × NoLonger ts) :=
  match take? .colon ts with
  | none => return (auto, ⟨ts, Nat.le_refl _⟩)
  | some ⟨rest, h⟩ => do
    let (type, ⟨rest₁, h₁⟩) ← typeName fin rest
    return (type, ⟨rest₁, by omega⟩)

/-- An initial value, or none. -/
def initialValue (fin : Token) (ts : List Token) : Result (Option Expr × NoLonger ts) :=
  match take? .assign ts with
  | none => return (none, ⟨ts, Nat.le_refl _⟩)
  | some ⟨rest, h⟩ => do
    let (e, ⟨rest₁, h₁⟩) ← expr fin 0 rest
    return (some e, ⟨rest₁, by omega⟩)

/-- A declaration after its keyword, without the semicolon. -/
def declaration (fin : Token) (ts : List Token) : Result (Stmt × Shorter ts) := do
  let (name, ⟨rest₁, h₁⟩) ← expect fin .identifier ts
  let (type, ⟨rest₂, h₂⟩) ← declaredType fin rest₁
  let (init, ⟨rest₃, h₃⟩) ← initialValue fin rest₂
  return (.declare name.text type init, ⟨rest₃, by omega⟩)

/-- Whether an equals sign follows the bracket that closes the first one open,
`depth` being open already. -/
def assignsElement : Nat → List Token → Bool
  | _, [] => false
  | depth, t :: rest =>
    if t.kind = .lbracket then assignsElement (depth + 1) rest
    else if t.kind = .rbracket then
      if depth ≤ 1 then at? .assign rest else assignsElement (depth - 1) rest
    else assignsElement depth rest

/-- A statement that starts with an identifier, without the semicolon: any
expression if the name is a known function's, else a change to a variable or to
an element of one. -/
def simple (fin : Token) (name : Token) (rest : List Token) :
    Result (Stmt × Shorter (name :: rest)) :=
  if Builtin.isKnown name.text then do
    let (e, rest₁) ← expr fin 0 (name :: rest)
    return (.expr e, rest₁)
  else
    match rest with
    | [] => .error (errorAt fin (.unexpected .assign fin.kind))
    | t :: rest₁ =>
      match t.kind with
      | .assign => do
        let (e, ⟨rest₂, h₂⟩) ← expr fin 0 rest₁
        return (.assign name.text e, ⟨rest₂, by simp only [List.length_cons]; omega⟩)
      | .plusPlus =>
        return (.assign name.text (.binary .add (.var name.text) (.int 1)),
          ⟨rest₁, by simp only [List.length_cons]; omega⟩)
      | .minusMinus =>
        return (.assign name.text (.binary .sub (.var name.text) (.int 1)),
          ⟨rest₁, by simp only [List.length_cons]; omega⟩)
      | .lbracket =>
        if assignsElement 0 (t :: rest₁) then do
          let (i, ⟨rest₂, h₂⟩) ← expr fin 0 rest₁
          let (_, ⟨rest₃, h₃⟩) ← expect fin .rbracket rest₂
          let (_, ⟨rest₄, h₄⟩) ← expect fin .assign rest₃
          let (e, ⟨rest₅, h₅⟩) ← expr fin 0 rest₄
          return (.setElement (.var name.text) i e,
            ⟨rest₅, by simp only [List.length_cons]; omega⟩)
        else .error ⟨.bareIndexExpression, t.span⟩
      | .lparen => .error ⟨.unknownFunction name.text, name.span⟩
      | k => .error (errorAt t (.unexpected .assign k))

/-- The first or last clause of a `for`. -/
def clause (fin : Token) : (ts : List Token) → Result (Stmt × Shorter ts)
  | [] => .error (errorAt fin (.expectedStatement fin.kind))
  | t :: rest =>
    match t.kind with
    | .kwLet | .kwConst | .kwVar => do
      let (s, ⟨rest₁, h₁⟩) ← declaration fin rest
      return (s, ⟨rest₁, by simp only [List.length_cons]; omega⟩)
    | .identifier => simple fin t rest
    | k => .error (errorAt t (.expectedStatement k))

/-- Something that is left out when a certain token comes next. -/
def optional {α : Type} (k : Token.Kind) (ts : List Token) (read : Result (α × Shorter ts)) :
    Result (Option α × NoLonger ts) :=
  if at? k ts then return (none, ⟨ts, Nat.le_refl _⟩)
  else do
    let (x, ⟨rest, h⟩) ← read
    return (some x, ⟨rest, Nat.le_of_lt h⟩)

/-- An expression in parentheses. -/
def parenthesized (fin : Token) (ts : List Token) : Result (Expr × Shorter ts) := do
  let (_, ⟨rest₁, h₁⟩) ← expect fin .lparen ts
  let (e, ⟨rest₂, h₂⟩) ← expr fin 0 rest₁
  let (_, ⟨rest₃, h₃⟩) ← expect fin .rparen rest₂
  return (e, ⟨rest₃, by omega⟩)

/-- The three clauses of a `for`, in their parentheses. -/
def forClauses (fin : Token) (ts : List Token) :
    Result ((Option Stmt × Option Expr × Option Stmt) × Shorter ts) := do
  let (_, ⟨rest₁, h₁⟩) ← expect fin .lparen ts
  let (init, ⟨rest₂, h₂⟩) ← optional .semicolon rest₁ (clause fin rest₁)
  let (_, ⟨rest₃, h₃⟩) ← expect fin .semicolon rest₂
  let (cond, ⟨rest₄, h₄⟩) ← optional .semicolon rest₃ (expr fin 0 rest₃)
  let (_, ⟨rest₅, h₅⟩) ← expect fin .semicolon rest₄
  let (step, ⟨rest₆, h₆⟩) ← optional .rparen rest₅ (clause fin rest₅)
  let (_, ⟨rest₇, h₇⟩) ← expect fin .rparen rest₆
  return ((init, cond, step), ⟨rest₇, by omega⟩)

mutual

def stmt (fin : Token) (ts : List Token) : Result (Stmt × Shorter ts) :=
  match ts with
  | [] => .error (errorAt fin (.expectedStatement fin.kind))
  | t :: rest =>
    match t.kind with
    | .kwLet | .kwConst | .kwVar => do
      let (s, ⟨rest₁, h₁⟩) ← declaration fin rest
      let (_, ⟨rest₂, h₂⟩) ← expect fin .semicolon rest₁
      return (s, ⟨rest₂, by simp only [List.length_cons]; omega⟩)
    | .kwIf => do
      let (s, ⟨rest₁, h₁⟩) ← branch fin rest
      return (s, ⟨rest₁, by simp only [List.length_cons]; omega⟩)
    | .kwWhile => do
      let (cond, ⟨rest₁, h₁⟩) ← parenthesized fin rest
      let (body, ⟨rest₂, h₂⟩) ← block fin rest₁
      return (.loopWhile cond body, ⟨rest₂, by simp only [List.length_cons]; omega⟩)
    | .kwDo => do
      let (body, ⟨rest₁, h₁⟩) ← block fin rest
      let (_, ⟨rest₂, h₂⟩) ← expect fin .kwWhile rest₁
      let (cond, ⟨rest₃, h₃⟩) ← parenthesized fin rest₂
      let (_, ⟨rest₄, h₄⟩) ← expect fin .semicolon rest₃
      return (.doWhile body cond, ⟨rest₄, by simp only [List.length_cons]; omega⟩)
    | .kwFor => do
      let ((init, cond, step), ⟨rest₁, h₁⟩) ← forClauses fin rest
      let (body, ⟨rest₂, h₂⟩) ← block fin rest₁
      return (.loopFor init cond step body, ⟨rest₂, by simp only [List.length_cons]; omega⟩)
    | .identifier => do
      let (s, ⟨rest₁, h₁⟩) ← simple fin t rest
      let (_, ⟨rest₂, h₂⟩) ← expect fin .semicolon rest₁
      return (s, ⟨rest₂, by simp only [List.length_cons] at h₁ ⊢; omega⟩)
    | k => .error (errorAt t (.expectedStatement k))
termination_by 2 * ts.length
decreasing_by all_goals (simp only [List.length_cons] at *; omega)

/-- An `if` after its keyword. An `else if` is a branch with one statement. -/
def branch (fin : Token) (ts : List Token) : Result (Stmt × Shorter ts) := do
  let (cond, ⟨rest₁, h₁⟩) ← parenthesized fin ts
  let (yes, ⟨rest₂, h₂⟩) ← block fin rest₁
  match take? .kwElse rest₂ with
  | none => return (.branch cond yes [], ⟨rest₂, by omega⟩)
  | some ⟨rest₃, h₃⟩ =>
    match take? .kwIf rest₃ with
    | some ⟨rest₄, h₄⟩ => do
      let (no, ⟨rest₅, h₅⟩) ← branch fin rest₄
      return (.branch cond yes [no], ⟨rest₅, by omega⟩)
    | none => do
      let (no, ⟨rest₅, h₅⟩) ← block fin rest₃
      return (.branch cond yes no, ⟨rest₅, by omega⟩)
termination_by 2 * ts.length
decreasing_by all_goals omega

/-- Statements in braces. -/
def block (fin : Token) (ts : List Token) : Result (List Stmt × Shorter ts) := do
  let (_, ⟨rest₁, h₁⟩) ← expect fin .lbrace ts
  let (ss, ⟨rest₂, h₂⟩) ← stmts fin rest₁
  let (_, ⟨rest₃, h₃⟩) ← expect fin .rbrace rest₂
  return (ss, ⟨rest₃, by omega⟩)
termination_by 2 * ts.length
decreasing_by all_goals omega

/-- Statements up to a closing brace or the end. -/
def stmts (fin : Token) (ts : List Token) : Result (List Stmt × NoLonger ts) :=
  match ts with
  | [] => return ([], ⟨[], Nat.le_refl _⟩)
  | t :: rest =>
    if t.kind = .rbrace then return ([], ⟨t :: rest, Nat.le_refl _⟩)
    else do
      let (s, ⟨rest₁, h₁⟩) ← stmt fin (t :: rest)
      let (ss, ⟨rest₂, h₂⟩) ← stmts fin rest₁
      return (s :: ss, ⟨rest₂, by omega⟩)
termination_by 2 * ts.length + 1
decreasing_by
  · exact Nat.lt_succ_self _
  · omega

end

/-- Statements up to the end. -/
def program (fin : Token) (ts : List Token) : Except ParseError Program :=
  match ts with
  | [] => return []
  | t :: rest => do
    let (s, ⟨rest₁, _⟩) ← stmt fin (t :: rest)
    let ss ← program fin rest₁
    return s :: ss
termination_by ts.length
decreasing_by assumption

/-! ### Whole inputs -/

/-- The end token after `ts`: the first end of input in `ts`, or one just after
the last token. -/
def endOf (ts : List Token) : Token :=
  let stop := match ts.getLast? with
    | some t => t.span.hi
    | none => 0
  (ts.find? (·.kind = .endOfInput)).getD ⟨.endOfInput, "", ⟨stop, stop⟩⟩

/-- The tokens before the first end of input. -/
def beforeEnd (ts : List Token) : List Token :=
  ts.takeWhile (·.kind ≠ .endOfInput)

end Parser

/-- The program that tokens spell. -/
def Program.ofTokens (ts : List Token) : Except ParseError Program :=
  Parser.program (Parser.endOf ts) (Parser.beforeEnd ts)

def Program.parse (source : String) : Except ParseError Program :=
  Program.ofTokens (Token.tokens source)

/-- The expression that tokens spell, with nothing after it. -/
def Expr.ofTokens (ts : List Token) : Except ParseError Expr := do
  let fin := Parser.endOf ts
  let (e, ⟨rest, _⟩) ← Parser.expr fin 0 (Parser.beforeEnd ts)
  match rest with
  | [] => return e
  | t :: _ => .error (Parser.errorAt t (.unexpected .endOfInput t.kind))

def Expr.parse (source : String) : Except ParseError Expr :=
  Expr.ofTokens (Token.tokens source)

end TinyScript.Ast
