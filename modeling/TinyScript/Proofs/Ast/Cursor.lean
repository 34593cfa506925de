import TinyScript.Proofs.Ast.Locality

/-! Reading with a cursor. All tokens are kept, ends of input among them, and what moves is a
number. After the last token it moves no further, so a step that reads a token need not be
progress, and nothing in these functions says that reading comes to an end. They are run with
fuel, one unit for a call inside another and for the next turn of a loop, and have no outcome
where that is not enough. What a walk comes to is compared with what a reader returns for the
tokens seen from the cursor. -/

namespace TinyScript.Ast.Cursor

open TinyScript.Ast.Parser (errorAt binaryOp? hintOf assignsElement beforeEnd plain expected keyed
  after? at?)

variable {α β : Type}

/-- Reading moves the cursor or fails, unless the fuel runs out. -/
abbrev Walk := StateT Nat (ExceptT ParseError Option)

/-! ### The walks -/

section

variable (ts : List Token)

/-- What stands after all tokens. -/
def eof : Token :=
  let stop := match ts.getLast? with
    | some t => t.span.hi
    | none => 0
  ⟨.endOfInput, "", ⟨stop, stop⟩⟩

def tokenAt (cursor : Nat) : Token := ts[cursor]?.getD (eof ts)

def peek : Walk Token := return tokenAt ts (← get)

/-- The next token. The cursor stays where there is none. -/
def advance : Walk Token := do
  let cursor ← get
  if cursor < ts.length then set (cursor + 1)
  return tokenAt ts cursor

def is (k : Token.Kind) : Walk Bool := return (← peek ts).kind = k

/-- Moves on if the next token has a kind. -/
def take (k : Token.Kind) : Walk Bool := do
  if ← is ts k then
    let _ ← advance ts
    return true
  else return false

def consume (k : Token.Kind) : Walk Token := do
  let t ← peek ts
  if t.kind = k then advance ts else throw (errorAt t (.unexpected k t.kind))

/-- The fuel has run out. -/
def spent : Walk α := fun _ => none

mutual

def expr (fuel level : Nat) : Walk Expr :=
  match fuel with
  | 0 => spent
  | n + 1 => do
    let lhs ← postfixExpr n
    operators n level lhs

def operators (fuel level : Nat) (lhs : Expr) : Walk Expr :=
  match fuel with
  | 0 => spent
  | n + 1 => do
    let t ← peek ts
    match binaryOp? t.kind with
    | none => return lhs
    | some op =>
      if op.level < level then return lhs
      else do
        let _ ← advance ts
        let rhs ← expr n (op.level + 1)
        operators n level (.binary op lhs rhs)

def postfixExpr (fuel : Nat) : Walk Expr :=
  match fuel with
  | 0 => spent
  | n + 1 => do
    let e ← primary n
    suffixes n e

def suffixes (fuel : Nat) (e : Expr) : Walk Expr :=
  match fuel with
  | 0 => spent
  | n + 1 => do
    if ← take ts .lbracket then
      let i ← expr n 0
      let _ ← consume ts .rbracket
      suffixes n (.index e i)
    else if ← take ts .dot then
      let name ← consume ts .identifier
      suffixes n (.member e name.text)
    else return e

def primary (fuel : Nat) : Walk Expr :=
  match fuel with
  | 0 => spent
  | n + 1 => do
    let t ← advance ts
    match t.kind with
    | .stringLiteral => return .str t.text
    | .integerLiteral =>
      match Token.integerValue t.text with
      | .ok v => return .int v
      | .error _ => throw ⟨.integerOutOfRange, t.span⟩
    | .floatLiteral =>
      match Token.floatValue t.text with
      | .ok d => return .float d
      | .error _ => throw ⟨.invalidFloat, t.span⟩
    | .kwTrue => return .bool true
    | .kwFalse => return .bool false
    | .identifier =>
      if ← take ts .lparen then
        if Builtin.isKnown t.text then
          let es ← list n .rparen
          let _ ← consume ts .rparen
          return .call t.text es
        else throw ⟨.unknownFunction t.text, t.span⟩
      else return .var t.text
    | .lparen =>
      let e ← expr n 0
      let _ ← consume ts .rparen
      return e
    | .lbracket =>
      let es ← list n .rbracket
      let _ ← consume ts .rbracket
      return .array (hintOf es) es
    | .lbrace =>
      let fs ← fields n
      let _ ← consume ts .rbrace
      return .object fs
    | k => throw (errorAt t (.expectedExpression k))

def list (fuel : Nat) (close : Token.Kind) : Walk (List Expr) :=
  match fuel with
  | 0 => spent
  | n + 1 => do
    if ← is ts close then return []
    else
      let e ← expr n 0
      if ← take ts .comma then
        let es ← list n close
        return e :: es
      else return [e]

def property (fuel : Nat) : Walk (String × Expr) :=
  match fuel with
  | 0 => spent
  | n + 1 => do
    let t ← peek ts
    if t.kind = .identifier ∨ t.kind = .stringLiteral then
      let key ← advance ts
      let _ ← consume ts .colon
      let e ← expr n 0
      return (key.text, e)
    else throw (errorAt t (.unexpected .identifier t.kind))

def fields (fuel : Nat) : Walk (List (String × Expr)) :=
  match fuel with
  | 0 => spent
  | n + 1 => do
    if ← is ts .rbrace then return []
    else
      let f ← property n
      if ← take ts .comma then
        let fs ← fields n
        return f :: fs
      else return [f]

end

def typeName : Walk String := do
  let t ← peek ts
  if t.kind.isTypeName ∨ t.kind = .identifier then
    let _ ← advance ts
    if ← take ts .lbracket then
      let _ ← consume ts .rbracket
      return t.text ++ "[]"
    else return t.text
  else throw (errorAt t (.expectedType t.kind))

def declaredType : Walk String := do
  if ← take ts .colon then typeName ts else return auto

def initialValue (fuel : Nat) : Walk (Option Expr) := do
  if ← take ts .assign then
    let e ← expr ts fuel 0
    return some e
  else return none

/-- A declaration after its keyword, without the semicolon. -/
def declaration (fuel : Nat) : Walk Stmt := do
  let name ← consume ts .identifier
  let type ← declaredType ts
  let init ← initialValue ts fuel
  return .declare name.text type init

/-- What follows a name that is no known function's. The search for the equals sign ends at the
end of input. -/
def change (fuel : Nat) (name : Token) : Walk Stmt := do
  let t ← peek ts
  match t.kind with
  | .assign =>
    let _ ← advance ts
    let e ← expr ts fuel 0
    return .assign name.text e
  | .plusPlus =>
    let _ ← advance ts
    return .assign name.text (.binary .add (.var name.text) (.int 1))
  | .minusMinus =>
    let _ ← advance ts
    return .assign name.text (.binary .sub (.var name.text) (.int 1))
  | .lbracket =>
    if assignsElement 0 (beforeEnd (ts.drop (← get))) then
      let _ ← advance ts
      let i ← expr ts fuel 0
      let _ ← consume ts .rbracket
      let _ ← consume ts .assign
      let e ← expr ts fuel 0
      return .setElement (.var name.text) i e
    else throw ⟨.bareIndexExpression, t.span⟩
  | .lparen => throw ⟨.unknownFunction name.text, name.span⟩
  | k => throw (errorAt t (.unexpected .assign k))

def simple (fuel : Nat) : Walk Stmt := do
  let name ← peek ts
  if Builtin.isKnown name.text then
    let e ← expr ts fuel 0
    return .expr e
  else
    let _ ← advance ts
    change ts fuel name

def clause (fuel : Nat) : Walk Stmt := do
  let t ← peek ts
  match t.kind with
  | .kwLet | .kwConst | .kwVar =>
    let _ ← advance ts
    declaration ts fuel
  | .identifier => simple ts fuel
  | k => throw (errorAt t (.expectedStatement k))

/-- Something that is left out when a certain token comes next. -/
def optional (k : Token.Kind) (walk : Walk α) : Walk (Option α) := do
  if ← is ts k then return none
  else
    let a ← walk
    return some a

def parenthesized (fuel : Nat) : Walk Expr := do
  let _ ← consume ts .lparen
  let e ← expr ts fuel 0
  let _ ← consume ts .rparen
  return e

def forClauses (fuel : Nat) : Walk (Option Stmt × Option Expr × Option Stmt) := do
  let _ ← consume ts .lparen
  let init ← optional ts .semicolon (clause ts fuel)
  let _ ← consume ts .semicolon
  let cond ← optional ts .semicolon (expr ts fuel 0)
  let _ ← consume ts .semicolon
  let step ← optional ts .rparen (clause ts fuel)
  let _ ← consume ts .rparen
  return (init, cond, step)

mutual

def stmt (fuel : Nat) : Walk Stmt :=
  match fuel with
  | 0 => spent
  | n + 1 => do
    let t ← peek ts
    match t.kind with
    | .kwLet | .kwConst | .kwVar =>
      let _ ← advance ts
      let s ← declaration ts n
      let _ ← consume ts .semicolon
      return s
    | .kwIf =>
      let _ ← advance ts
      branch n
    | .kwWhile =>
      let _ ← advance ts
      let cond ← parenthesized ts n
      let body ← block n
      return .loopWhile cond body
    | .kwDo =>
      let _ ← advance ts
      let body ← block n
      let _ ← consume ts .kwWhile
      let cond ← parenthesized ts n
      let _ ← consume ts .semicolon
      return .doWhile body cond
    | .kwFor =>
      let _ ← advance ts
      let (init, cond, step) ← forClauses ts n
      let body ← block n
      return .loopFor init cond step body
    | .identifier =>
      let s ← simple ts n
      let _ ← consume ts .semicolon
      return s
    | k => throw (errorAt t (.expectedStatement k))

/-- An `if` after its keyword. -/
def branch (fuel : Nat) : Walk Stmt :=
  match fuel with
  | 0 => spent
  | n + 1 => do
    let cond ← parenthesized ts n
    let yes ← block n
    if ← take ts .kwElse then
      if ← take ts .kwIf then
        let no ← branch n
        return .branch cond yes [no]
      else
        let no ← block n
        return .branch cond yes no
    else return .branch cond yes []

def block (fuel : Nat) : Walk (List Stmt) :=
  match fuel with
  | 0 => spent
  | n + 1 => do
    let _ ← consume ts .lbrace
    let ss ← stmts n
    let _ ← consume ts .rbrace
    return ss

/-- Statements up to a closing brace or the end of input. -/
def stmts (fuel : Nat) : Walk (List Stmt) :=
  match fuel with
  | 0 => spent
  | n + 1 => do
    let t ← peek ts
    if t.kind = .rbrace ∨ t.kind = .endOfInput then return []
    else
      let s ← stmt n
      let ss ← stmts n
      return s :: ss

end

def program (fuel : Nat) : Walk Program :=
  match fuel with
  | 0 => spent
  | n + 1 => do
    if ← is ts .endOfInput then return []
    else
      let s ← stmt ts n
      let ss ← program n
      return s :: ss

end

/-! ### Single tokens -/

variable {ts us us' : List Token} {stop c : Nat} {t : Token} {k : Token.Kind}

theorem tokenAt_of_lt (h : c < ts.length) : tokenAt ts c = ts[c] := by
  rw [tokenAt, List.getElem?_eq_getElem h, Option.getD_some]

theorem tokenAt_of_le (h : ts.length ≤ c) : tokenAt ts c = eof ts := by
  rw [tokenAt, List.getElem?_eq_none h, Option.getD_none]

theorem lt_length (h : (tokenAt ts c).kind ≠ .endOfInput) : c < ts.length := by
  refine Nat.lt_of_not_le fun hc => h ?_
  rw [tokenAt_of_le hc]
  rfl

/-- After a walk that does not fail another goes on from its cursor. -/
theorem bind_of_ok {w : Walk α} {f : α → Walk β} {a : α} {c' : Nat}
    (h : w c = some (.ok (a, c'))) : (w >>= f) c = f a c' := by
  change ExceptT.bind (w c) (fun x => f x.1 x.2) = _
  rw [h]
  rfl

theorem advance_eq (h : c < ts.length) :
    advance ts c = some (.ok (tokenAt ts c, c + 1)) := by
  change (ite (c < ts.length) _ _ : Walk Token) c = _
  rw [if_pos h]
  rfl

theorem advance_end (h : ts.length ≤ c) : advance ts c = some (.ok (tokenAt ts c, c)) := by
  change (ite (c < ts.length) _ _ : Walk Token) c = _
  rw [if_neg (Nat.not_lt.2 h)]
  rfl

theorem take_pos (h : (tokenAt ts c).kind = k) (hk : k ≠ .endOfInput) :
    take ts k c = some (.ok (true, c + 1)) := by
  have hlt : c < ts.length := lt_length (h ▸ hk)
  change (ite (decide ((tokenAt ts c).kind = k) = true) _ _ : Walk Bool) c = _
  rw [if_pos (decide_eq_true h)]
  exact bind_of_ok (advance_eq hlt)

theorem take_neg (h : (tokenAt ts c).kind ≠ k) : take ts k c = some (.ok (false, c)) := by
  change (ite (decide ((tokenAt ts c).kind = k) = true) _ _ : Walk Bool) c = _
  rw [if_neg (by simpa using h)]
  rfl

theorem consume_pos (h : (tokenAt ts c).kind = k) (hk : k ≠ .endOfInput) :
    consume ts k c = some (.ok (tokenAt ts c, c + 1)) := by
  change (ite ((tokenAt ts c).kind = k) _ _ : Walk Token) c = _
  rw [if_pos h, advance_eq (lt_length (h ▸ hk))]

theorem consume_neg (h : (tokenAt ts c).kind ≠ k) :
    consume ts k c =
      some (.error (errorAt (tokenAt ts c) (.unexpected k (tokenAt ts c).kind))) := by
  change (ite ((tokenAt ts c).kind = k) _ _ : Walk Token) c = _
  rw [if_neg h]
  rfl

/-! ### What is seen from a cursor -/

/-- At an end of input nothing is seen, and any other token is seen first. -/
theorem beforeEnd_drop (ts : List Token) (c : Nat) :
    beforeEnd (ts.drop c) = if (tokenAt ts c).kind = .endOfInput then []
      else tokenAt ts c :: beforeEnd (ts.drop (c + 1)) := by
  by_cases hc : c < ts.length
  · rw [tokenAt_of_lt hc, List.drop_eq_getElem_cons hc, beforeEnd, List.takeWhile_cons]
    simp [beforeEnd]
  · have hc' : ts.length ≤ c := Nat.le_of_not_lt hc
    rw [tokenAt_of_le hc', List.drop_eq_nil_of_le hc']
    rfl

/-- The tokens from a cursor to the first end of input, which is at `stop`. -/
structure Stands (ts : List Token) (stop cursor : Nat) (us : List Token) : Prop where
  seen : beforeEnd (ts.drop cursor) = us
  stops : cursor + us.length = stop

theorem stands (ts : List Token) (c : Nat) :
    Stands ts (c + (beforeEnd (ts.drop c)).length) c (beforeEnd (ts.drop c)) := ⟨rfl, rfl⟩

namespace Stands

theorem nil (h : Stands ts stop c []) :
    tokenAt ts c = tokenAt ts stop ∧ (tokenAt ts stop).kind = .endOfInput := by
  have hstop : c = stop := h.stops
  have hseen := h.seen
  rw [beforeEnd_drop] at hseen
  split at hseen
  · rename_i hkind
    exact hstop ▸ ⟨rfl, hkind⟩
  · cases hseen

theorem cons (h : Stands ts stop c (t :: us)) :
    tokenAt ts c = t ∧ t.kind ≠ .endOfInput ∧ Stands ts stop (c + 1) us := by
  have hseen := h.seen
  have hstops := h.stops
  rw [beforeEnd_drop] at hseen
  split at hseen
  · cases hseen
  · rename_i hkind
    cases hseen
    refine ⟨rfl, hkind, rfl, ?_⟩
    rw [← hstops, List.length_cons]
    omega

theorem ends (h : Stands ts stop c us) : (tokenAt ts stop).kind = .endOfInput := by
  induction us generalizing c with
  | nil => exact h.nil.2
  | cons t us ih => exact ih h.cons.2.2

theorem kind_eq_iff (h : Stands ts stop c us) (hk : k ≠ .endOfInput) :
    (tokenAt ts c).kind = k ↔ at? k us = true := by
  cases us with
  | nil => simp [h.nil, at?, hk.symm]
  | cons t us => simp [h.cons.1, at?]

end Stands

/-! ### Walks and readers -/

/-- What a walk comes to is what a reader returns, with the cursor before what is left. -/
inductive Agrees (ts : List Token) (stop : Nat) :
    Option (Except ParseError (α × Nat)) → Parser.Result (α × List Token) → Prop where
  | ok {a : α} {c : Nat} {us : List Token} (h : Stands ts stop c us) :
      Agrees ts stop (some (.ok (a, c))) (.ok (a, us))
  | error (e : ParseError) : Agrees ts stop (some (.error e)) (.error e)

namespace Agrees

variable {r r' : Parser.Result (α × List Token)}

theorem pure (a : α) (h : Stands ts stop c us) :
    Agrees ts stop ((Pure.pure a : Walk α) c) (.ok (a, us)) := .ok h

theorem bind {w : Walk α} {f : α → Walk β} {g : α × List Token → Parser.Result (β × List Token)}
    (h : Agrees ts stop (w c) r)
    (hf : ∀ a c' us, r = .ok (a, us) → Stands ts stop c' us → Agrees ts stop (f a c') (g (a, us))) :
    Agrees ts stop ((w >>= f) c) (r >>= g) := by
  show Agrees ts stop (ExceptT.bind (w c) fun x => f x.1 x.2) (r >>= g)
  generalize w c = o at h
  cases h with
  | ok h => exact hf _ _ _ rfl h
  | error e => exact .error e

theorem peek {f : Token → Walk α} (h : Agrees ts stop (f (tokenAt ts c) c) r) :
    Agrees ts stop ((Cursor.peek ts >>= f) c) r := h

theorem here {f : Nat → Walk α} (h : Agrees ts stop (f c c) r) :
    Agrees ts stop ((get >>= f) c) r := h

/-- Before a token that is seen the cursor moves on. -/
theorem advance {f : Token → Walk α} (hs : Stands ts stop c (t :: us))
    (h : Stands ts stop (c + 1) us → Agrees ts stop (f t (c + 1)) r) :
    Agrees ts stop ((Cursor.advance ts >>= f) c) r := by
  obtain ⟨htoken, hkind, hnext⟩ := hs.cons
  rw [bind_of_ok (advance_eq (lt_length (htoken ▸ hkind))), htoken]
  exact h hnext

/-- At an end of input the cursor moves on or stays, and what follows must not rest on that. -/
theorem advanceEnd {f : Token → Walk α} (hs : Stands ts stop c [])
    (h : ∀ c', Agrees ts stop (f (tokenAt ts stop) c') r) :
    Agrees ts stop ((Cursor.advance ts >>= f) c) r := by
  rw [← hs.nil.1] at h
  by_cases hc : c < ts.length
  · rw [bind_of_ok (advance_eq hc)]
    exact h (c + 1)
  · rw [bind_of_ok (advance_end (Nat.le_of_not_lt hc))]
    exact h c

/-- A choice by the next token, which is taken. -/
theorem taken {f g : Walk α} (hs : Stands ts stop c us) (hus : after? k us = some us')
    (hf : Stands ts stop (c + 1) us' → Agrees ts stop (f (c + 1)) r) :
    Agrees ts stop ((take ts k >>= fun b => if b = true then f else g) c) r := by
  obtain ⟨t, rfl, ht⟩ := Parser.after?_eq_some hus
  obtain ⟨htoken, hkind, hnext⟩ := hs.cons
  rw [bind_of_ok (take_pos (htoken ▸ ht) (ht ▸ hkind)), if_pos rfl]
  exact hf hnext

/-- The same choice where there is another token. -/
theorem passed {f g : Walk α} (hk : k ≠ .endOfInput) (hs : Stands ts stop c us)
    (hus : after? k us = none) (hg : Agrees ts stop (g c) r) :
    Agrees ts stop ((take ts k >>= fun b => if b = true then f else g) c) r := by
  have hother : (tokenAt ts c).kind ≠ k := by
    rw [Ne, hs.kind_eq_iff hk, ← Parser.after?_isSome, hus]
    exact Bool.false_ne_true
  rw [bind_of_ok (take_neg hother), if_neg Bool.false_ne_true]
  exact hg

theorem is {f : Bool → Walk α} (h : Agrees ts stop (f (decide ((tokenAt ts c).kind = k)) c) r) :
    Agrees ts stop ((Cursor.is ts k >>= f) c) r := h

theorem isAt {f g : Walk α} (hk : k ≠ .endOfInput) (hs : Stands ts stop c us)
    (hf : Agrees ts stop (f c) r) (hg : Agrees ts stop (g c) r') :
    Agrees ts stop ((Cursor.is ts k >>= fun b => if b = true then f else g) c)
      (if at? k us then r else r') := by
  refine .is ?_
  simp only [decide_eq_true_eq, hs.kind_eq_iff hk]
  split
  · exact hf
  · exact hg

/-- A last step that takes no token. -/
theorem map {w : Walk α} (h : Agrees ts stop (w c) r) (f : α → β) :
    Agrees ts stop ((w >>= fun a => Pure.pure (f a)) c)
      (do
        let (a, rest) ← r
        return (f a, rest)) := by
  refine h.bind fun a c' us' _ hs => ?_
  exact .pure (f a) hs

end Agrees

theorem consume_agrees (hk : k ≠ .endOfInput) (hs : Stands ts stop c us) :
    Agrees ts stop (consume ts k c) (expected (tokenAt ts stop) k us) := by
  cases us with
  | nil =>
    obtain ⟨htoken, hend⟩ := hs.nil
    rw [consume_neg (by rw [htoken, hend]; exact hk.symm), htoken]
    exact .error _
  | cons t us =>
    obtain ⟨htoken, -, hnext⟩ := hs.cons
    rw [expected]
    split
    · rename_i ht
      rw [consume_pos (htoken ▸ ht) hk, htoken]
      exact .ok hnext
    · rename_i ht
      rw [consume_neg (htoken ▸ ht), htoken]
      exact .error _

/-- Something and the token that closes it. -/
theorem Agrees.closed {r : Parser.Result (α × List Token)} {w : Walk α}
    (h : Agrees ts stop (w c) r) (hk : k ≠ .endOfInput) (f : α → β) :
    Agrees ts stop ((w >>= fun a => consume ts k >>= fun _ => Pure.pure (f a)) c)
      (do
        let (a, rest₁) ← r
        let (_, rest₂) ← expected (tokenAt ts stop) k rest₁
        return (f a, rest₂)) := by
  refine h.bind fun a c' us' _ hs => ?_
  exact (consume_agrees hk hs).map fun _ => f a

end TinyScript.Ast.Cursor
