import TinyScript.Ast.Parser

/-! The grammar. Which tokens spell which tree is said once, without readers: an
operator's place in the precedence is the phrase its operands have to be, so there is
one way to group a chain of operators. A statement that starts with the name of a known
function is any expression that starts like that, and the clauses of a `for` are
declarations or statements that start with a name. -/

namespace TinyScript.Ast

/-- The token of an operator. -/
def BinaryOp.sign : BinaryOp → Token.Kind
  | add => .plus | sub => .minus | mul => .star | div => .slash | rem => .percent
  | eq => .eqEq | ne => .notEq | lt => .less | le => .lessEq | gt => .greater | ge => .greaterEq

namespace Grammar

/-! ### Expressions -/

/-- What tokens may spell inside an expression. Operands of a comparison are sums,
those of a sum are products, and those of a product are primaries with suffixes. -/
inductive Phrase where
  | comparison (e : Expr)
  | additive (e : Expr)
  | multiplicative (e : Expr)
  | suffixed (e : Expr)
  | primary (e : Expr)
  /-- Between commas, one of which may stand at the end. -/
  | items (es : List Expr)
  | fields (fs : List (String × Expr))

/-- The type name that the first element of an array literal suggests. -/
def suggested : Option Expr → String
  | some (.str _) => "string"
  | some (.float _) => "f64"
  | some (.bool _) => "boolean"
  | _ => "i32"

/-- Tokens that spell a phrase. -/
inductive Derives : Phrase → List Token → Prop where
  | compare {op : BinaryOp} {t : Token} {a b : Expr} {ts us : List Token}
      (hop : op ∈ [.eq, .ne, .lt, .le, .gt, .ge]) (ha : Derives (.comparison a) ts)
      (ht : t.kind = op.sign) (hb : Derives (.additive b) us) :
      Derives (.comparison (.binary op a b)) (ts ++ t :: us)
  | ofAdditive {e : Expr} {ts : List Token} (h : Derives (.additive e) ts) :
      Derives (.comparison e) ts
  | add {op : BinaryOp} {t : Token} {a b : Expr} {ts us : List Token} (hop : op ∈ [.add, .sub])
      (ha : Derives (.additive a) ts) (ht : t.kind = op.sign)
      (hb : Derives (.multiplicative b) us) : Derives (.additive (.binary op a b)) (ts ++ t :: us)
  | ofMultiplicative {e : Expr} {ts : List Token} (h : Derives (.multiplicative e) ts) :
      Derives (.additive e) ts
  | multiply {op : BinaryOp} {t : Token} {a b : Expr} {ts us : List Token}
      (hop : op ∈ [.mul, .div, .rem]) (ha : Derives (.multiplicative a) ts)
      (ht : t.kind = op.sign) (hb : Derives (.suffixed b) us) :
      Derives (.multiplicative (.binary op a b)) (ts ++ t :: us)
  | ofSuffixed {e : Expr} {ts : List Token} (h : Derives (.suffixed e) ts) :
      Derives (.multiplicative e) ts
  | index {l r : Token} {a b : Expr} {ts us : List Token} (ha : Derives (.suffixed a) ts)
      (hl : l.kind = .lbracket) (hb : Derives (.comparison b) us) (hr : r.kind = .rbracket) :
      Derives (.suffixed (.index a b)) (ts ++ l :: (us ++ [r]))
  | member {l name : Token} {a : Expr} {ts : List Token} (ha : Derives (.suffixed a) ts)
      (hl : l.kind = .dot) (hname : name.kind = .identifier) :
      Derives (.suffixed (.member a name.text)) (ts ++ [l, name])
  | ofPrimary {e : Expr} {ts : List Token} (h : Derives (.primary e) ts) : Derives (.suffixed e) ts
  | str {t : Token} (ht : t.kind = .stringLiteral) : Derives (.primary (.str t.text)) [t]
  | int {t : Token} {n : Int} (ht : t.kind = .integerLiteral)
      (hn : Token.integerValue t.text = .ok n) : Derives (.primary (.int n)) [t]
  | float {t : Token} {d : Number.Double} (ht : t.kind = .floatLiteral)
      (hd : Token.floatValue t.text = .ok d) : Derives (.primary (.float d)) [t]
  | yes {t : Token} (ht : t.kind = .kwTrue) : Derives (.primary (.bool true)) [t]
  | no {t : Token} (ht : t.kind = .kwFalse) : Derives (.primary (.bool false)) [t]
  | var {t : Token} (ht : t.kind = .identifier) : Derives (.primary (.var t.text)) [t]
  | call {l r name : Token} {es : List Expr} {ts : List Token} (hname : name.kind = .identifier)
      (hknown : Builtin.isKnown name.text) (hl : l.kind = .lparen) (hes : Derives (.items es) ts)
      (hr : r.kind = .rparen) : Derives (.primary (.call name.text es)) (name :: l :: (ts ++ [r]))
  | group {l r : Token} {e : Expr} {ts : List Token} (hl : l.kind = .lparen)
      (he : Derives (.comparison e) ts) (hr : r.kind = .rparen) :
      Derives (.primary e) (l :: (ts ++ [r]))
  | array {l r : Token} {es : List Expr} {ts : List Token} (hl : l.kind = .lbracket)
      (hes : Derives (.items es) ts) (hr : r.kind = .rbracket) :
      Derives (.primary (.array (suggested es.head?) es)) (l :: (ts ++ [r]))
  | object {l r : Token} {fs : List (String × Expr)} {ts : List Token} (hl : l.kind = .lbrace)
      (hfs : Derives (.fields fs) ts) (hr : r.kind = .rbrace) :
      Derives (.primary (.object fs)) (l :: (ts ++ [r]))
  | noItems : Derives (.items []) []
  | lastItem {e : Expr} {ts : List Token} (he : Derives (.comparison e) ts) :
      Derives (.items [e]) ts
  | item {t : Token} {e : Expr} {es : List Expr} {ts us : List Token}
      (he : Derives (.comparison e) ts) (ht : t.kind = .comma) (hes : Derives (.items es) us) :
      Derives (.items (e :: es)) (ts ++ t :: us)
  | noFields : Derives (.fields []) []
  | lastField {k l : Token} {e : Expr} {ts : List Token}
      (hk : k.kind ∈ [.identifier, .stringLiteral]) (hl : l.kind = .colon)
      (he : Derives (.comparison e) ts) : Derives (.fields [(k.text, e)]) (k :: l :: ts)
  | field {t k l : Token} {e : Expr} {fs : List (String × Expr)} {ts us : List Token}
      (hk : k.kind ∈ [.identifier, .stringLiteral]) (hl : l.kind = .colon)
      (he : Derives (.comparison e) ts) (ht : t.kind = .comma) (hfs : Derives (.fields fs) us) :
      Derives (.fields ((k.text, e) :: fs)) (k :: l :: (ts ++ t :: us))

/-- Any expression. -/
abbrev Spells (e : Expr) (ts : List Token) : Prop := Derives (.comparison e) ts

/-! ### Simple statements -/

/-- Something or nothing. -/
inductive Perhaps {α : Type} (P : α → List Token → Prop) : Option α → List Token → Prop where
  | none : Perhaps P none []
  | some {ts : List Token} {a : α} (h : P a ts) : Perhaps P (some a) ts

/-- A built-in type or a name, perhaps with brackets, which the text keeps. -/
inductive TypeName : String → List Token → Prop where
  | scalar {t : Token}
      (ht : t.kind ∈ [.tyNumber, .tyString, .tyBoolean, .tyI32, .tyF64, .identifier]) :
      TypeName t.text [t]
  | array {t l r : Token}
      (ht : t.kind ∈ [.tyNumber, .tyString, .tyBoolean, .tyI32, .tyF64, .identifier])
      (hl : l.kind = .lbracket) (hr : r.kind = .rbracket) : TypeName (t.text ++ "[]") [t, l, r]

inductive Annotated : String → List Token → Prop where
  | none : Annotated auto []
  | some {t : Token} {ts : List Token} {type : String} (ht : t.kind = .colon)
      (htype : TypeName type ts) : Annotated type (t :: ts)

inductive Initial : Expr → List Token → Prop where
  | mk {t : Token} {e : Expr} {ts : List Token} (ht : t.kind = .assign) (he : Spells e ts) :
      Initial e (t :: ts)

inductive Declaration : Stmt → List Token → Prop where
  | mk {k name : Token} {ts us : List Token} {type : String} {init : Option Expr}
      (hk : k.kind ∈ [.kwLet, .kwConst, .kwVar]) (hname : name.kind = .identifier)
      (htype : Annotated type ts) (hinit : Perhaps Initial init us) :
      Declaration (.declare name.text type init) (k :: name :: (ts ++ us))

/-- Statements that start with a name, without their semicolon. -/
inductive Simple : Stmt → List Token → Prop where
  | known {name : Token} {e : Expr} {ts : List Token} (hname : name.kind = .identifier)
      (hknown : Builtin.isKnown name.text) (he : Spells e (name :: ts)) :
      Simple (.expr e) (name :: ts)
  | assign {t name : Token} {e : Expr} {ts : List Token} (hname : name.kind = .identifier)
      (hknown : ¬Builtin.isKnown name.text) (ht : t.kind = .assign) (he : Spells e ts) :
      Simple (.assign name.text e) (name :: t :: ts)
  | increment {t name : Token} (hname : name.kind = .identifier)
      (hknown : ¬Builtin.isKnown name.text) (ht : t.kind = .plusPlus) :
      Simple (.assign name.text (.binary .add (.var name.text) (.int 1))) [name, t]
  | decrement {t name : Token} (hname : name.kind = .identifier)
      (hknown : ¬Builtin.isKnown name.text) (ht : t.kind = .minusMinus) :
      Simple (.assign name.text (.binary .sub (.var name.text) (.int 1))) [name, t]
  | setElement {t l r name : Token} {e i : Expr} {ts us : List Token}
      (hname : name.kind = .identifier) (hknown : ¬Builtin.isKnown name.text)
      (hl : l.kind = .lbracket) (hi : Spells i ts) (hr : r.kind = .rbracket)
      (ht : t.kind = .assign) (he : Spells e us) :
      Simple (.setElement (.var name.text) i e) (name :: l :: (ts ++ r :: t :: us))

/-- The first or last clause of a `for`. -/
inductive Clause : Stmt → List Token → Prop where
  | declaration {s : Stmt} {ts : List Token} (h : Declaration s ts) : Clause s ts
  | simple {s : Stmt} {ts : List Token} (h : Simple s ts) : Clause s ts

inductive Parenthesized : Expr → List Token → Prop where
  | mk {l r : Token} {e : Expr} {ts : List Token} (hl : l.kind = .lparen) (he : Spells e ts)
      (hr : r.kind = .rparen) : Parenthesized e (l :: (ts ++ [r]))

inductive ForClauses : Option Stmt × Option Expr × Option Stmt → List Token → Prop where
  | mk {t l r : Token} {ts us : List Token} {init step : Option Stmt} {cond : Option Expr}
      {vs : List Token} {t' : Token} (hl : l.kind = .lparen) (hinit : Perhaps Clause init ts)
      (ht : t.kind = .semicolon) (hcond : Perhaps Spells cond us) (ht' : t'.kind = .semicolon)
      (hstep : Perhaps Clause step vs) (hr : r.kind = .rparen) :
      ForClauses (init, cond, step) (l :: (ts ++ t :: (us ++ t' :: (vs ++ [r]))))

/-! ### Statements -/

inductive Sentence where
  | statement (s : Stmt)
  /-- What follows an `if`. -/
  | branch (s : Stmt)
  | block (ss : List Stmt)
  | statements (ss : List Stmt)

/-- Tokens that make a sentence. -/
inductive Composes : Sentence → List Token → Prop where
  | declaration {t : Token} {s : Stmt} {ts : List Token} (h : Declaration s ts)
      (ht : t.kind = .semicolon) : Composes (.statement s) (ts ++ [t])
  | simple {t : Token} {s : Stmt} {ts : List Token} (h : Simple s ts) (ht : t.kind = .semicolon) :
      Composes (.statement s) (ts ++ [t])
  | branch {k : Token} {s : Stmt} {ts : List Token} (hk : k.kind = .kwIf)
      (h : Composes (.branch s) ts) : Composes (.statement s) (k :: ts)
  | loopWhile {k : Token} {cond : Expr} {body : List Stmt} {ts us : List Token}
      (hk : k.kind = .kwWhile) (hcond : Parenthesized cond ts) (hbody : Composes (.block body) us) :
      Composes (.statement (.loopWhile cond body)) (k :: (ts ++ us))
  | doWhile {t k l : Token} {cond : Expr} {body : List Stmt} {ts us : List Token}
      (hk : k.kind = .kwDo) (hbody : Composes (.block body) ts) (hl : l.kind = .kwWhile)
      (hcond : Parenthesized cond us) (ht : t.kind = .semicolon) :
      Composes (.statement (.doWhile body cond)) (k :: (ts ++ l :: (us ++ [t])))
  | loopFor {k : Token} {body : List Stmt} {ts us : List Token} {init step : Option Stmt}
      {cond : Option Expr} (hk : k.kind = .kwFor) (hclauses : ForClauses (init, cond, step) ts)
      (hbody : Composes (.block body) us) :
      Composes (.statement (.loopFor init cond step body)) (k :: (ts ++ us))
  | oneArm {cond : Expr} {yes : List Stmt} {ts us : List Token} (hcond : Parenthesized cond ts)
      (hyes : Composes (.block yes) us) : Composes (.branch (.branch cond yes [])) (ts ++ us)
  | elseIf {k l : Token} {cond : Expr} {s : Stmt} {yes : List Stmt} {ts us vs : List Token}
      (hcond : Parenthesized cond ts) (hyes : Composes (.block yes) us) (hk : k.kind = .kwElse)
      (hl : l.kind = .kwIf) (hno : Composes (.branch s) vs) :
      Composes (.branch (.branch cond yes [s])) (ts ++ (us ++ k :: l :: vs))
  | elseBlock {k : Token} {cond : Expr} {yes no : List Stmt} {ts us vs : List Token}
      (hcond : Parenthesized cond ts) (hyes : Composes (.block yes) us) (hk : k.kind = .kwElse)
      (hno : Composes (.block no) vs) :
      Composes (.branch (.branch cond yes no)) (ts ++ (us ++ k :: vs))
  | block {l r : Token} {ss : List Stmt} {ts : List Token} (hl : l.kind = .lbrace)
      (h : Composes (.statements ss) ts) (hr : r.kind = .rbrace) :
      Composes (.block ss) (l :: (ts ++ [r]))
  | nil : Composes (.statements []) []
  | cons {s : Stmt} {ss : List Stmt} {ts us : List Token} (hs : Composes (.statement s) ts)
      (hss : Composes (.statements ss) us) : Composes (.statements (s :: ss)) (ts ++ us)

/-! ### Precedence by number -/

/-- An expression whose operators bind at least as tightly as a level. -/
def Phrase.ranked : Nat → Expr → Phrase
  | 0, e | 1, e => .comparison e
  | 2, e => .additive e
  | 3, e => .multiplicative e
  | _ + 4, e => .suffixed e

theorem Derives.binary {op : BinaryOp} {a b : Expr} {t : Token} {ts us : List Token}
    (ha : Derives (.ranked op.level a) ts) (ht : t.kind = op.sign)
    (hb : Derives (.ranked (op.level + 1) b) us) :
    Derives (.ranked op.level (.binary op a b)) (ts ++ t :: us) := by
  cases op with
  | eq | ne | lt | le | gt | ge => exact .compare (by simp) ha ht hb
  | add | sub => exact .add (by simp) ha ht hb
  | mul | div | rem => exact .multiply (by simp) ha ht hb

theorem Derives.suffixed {e : Expr} {ts : List Token} (h : Derives (.suffixed e) ts) :
    (n : Nat) → Derives (.ranked n e) ts
  | 0 | 1 => .ofAdditive (.ofMultiplicative (.ofSuffixed h))
  | 2 => .ofMultiplicative (.ofSuffixed h)
  | 3 => .ofSuffixed h
  | _ + 4 => h

theorem Derives.loosen {n : Nat} {e : Expr} {ts : List Token}
    (h : Derives (.ranked (n + 1) e) ts) : Derives (.ranked n e) ts := by
  match n with
  | 0 => exact h
  | 1 => exact .ofAdditive h
  | 2 => exact .ofMultiplicative h
  | 3 => exact .ofSuffixed h
  | _ + 4 => exact h

theorem Derives.ranked_le {m n : Nat} {e : Expr} {ts : List Token} (h : Derives (.ranked m e) ts)
    (hle : n ≤ m) : Derives (.ranked n e) ts := by
  induction hle with
  | refl => exact h
  | step _ ih => exact ih h.loosen

theorem binaryOp?_eq_some {k : Token.Kind} {op : BinaryOp} :
    Parser.binaryOp? k = some op ↔ k = op.sign := by
  constructor
  · intro h
    unfold Parser.binaryOp? at h
    split at h <;> cases h <;> rfl
  · rintro rfl
    cases op <;> rfl

theorem hintOf_eq (es : List Expr) : Parser.hintOf es = suggested es.head? := by
  cases es with
  | nil => rfl
  | cons e es => cases e <;> rfl

end Grammar

end TinyScript.Ast
