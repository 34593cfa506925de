import TinyScript.Proofs.Ast.Grammar
import TinyScript.Proofs.Ast.Readers

/-! What the grammar spells is read. A reader that is given the tokens of a phrase and
more returns the phrase and leaves the rest, if the rest does not go on with it. Chains
of operators and suffixes are read while they are grouped to the left, so of their
phrases it is said that reading goes on with the operators or suffixes that follow. -/

namespace TinyScript.Ast.Parser

open Grammar

variable {α β : Type} {fin : Token} {ts us rest : List Token}

theorem expected_of_kind {k : Token.Kind} {t : Token} (h : t.kind = k) (rest : List Token) :
    expected fin k (t :: rest) = .ok (t, rest) := by
  rw [expected, if_pos h]

theorem after?_of_kind {k : Token.Kind} {t : Token} (h : t.kind = k) (rest : List Token) :
    after? k (t :: rest) = some rest := by
  rw [after?, if_pos h]

/-- A kind that does not come next. -/
def Lacks (k : Token.Kind) (ts : List Token) : Prop := ∀ t ∈ ts.head?, t.kind ≠ k

theorem after?_eq_none {k : Token.Kind} (h : Lacks k ts) : after? k ts = none := by
  cases ts with
  | nil => rfl
  | cons t ts => rw [after?, if_neg (h t rfl)]

theorem at?_of_kind {k : Token.Kind} {t : Token} (h : t.kind = k) (rest : List Token) :
    at? k (t :: rest) = true := decide_eq_true h

theorem at?_eq_false {k : Token.Kind} (h : Lacks k ts) : at? k ts = false := by
  cases ts with
  | nil => rfl
  | cons t ts => exact decide_eq_false (h t rfl)

/-- Tokens after an expression that do not go on with it, except for operators up to a
level. -/
structure Follows (level : Nat) (rest : List Token) : Prop where
  lparen : Lacks .lparen rest
  lbracket : Lacks .lbracket rest
  dot : Lacks .dot rest
  operators : ∀ t ∈ rest.head?, ∀ op, binaryOp? t.kind = some op → op.level ≤ level

theorem Follows.mono {m n : Nat} (h : Follows m rest) (hle : m ≤ n) : Follows n rest :=
  ⟨h.lparen, h.lbracket, h.dot, fun t ht op hop => Nat.le_trans (h.operators t ht op hop) hle⟩

theorem follows_nil (level : Nat) : Follows level [] := by
  constructor <;> simp [Lacks]

/-- What ends an expression. -/
def closers : List Token.Kind := [.rparen, .rbracket, .rbrace, .comma, .semicolon]

theorem follows_of_closer {t : Token} (h : t.kind ∈ closers) (rest : List Token) :
    Follows 0 (t :: rest) := by
  have lacks {k : Token.Kind} (hk : k ∉ closers) : Lacks k (t :: rest) := by
    rintro u ⟨⟩ rfl
    exact hk h
  refine ⟨lacks (by decide), lacks (by decide), lacks (by decide), ?_⟩
  rintro u ⟨⟩ op hop
  rw [binaryOp?_eq_some.1 hop] at h
  cases op <;> exact absurd h (by decide)

theorem follows_of_operator {t : Token} {op : BinaryOp} (h : t.kind = op.sign) (rest : List Token) :
    Follows op.level (t :: rest) := by
  have lacks {k : Token.Kind} (hk : binaryOp? k = none) : Lacks k (t :: rest) := by
    rintro u ⟨⟩ rfl
    rw [binaryOp?_eq_some.2 h] at hk
    cases hk
  refine ⟨lacks rfl, lacks rfl, lacks rfl, ?_⟩
  rintro u ⟨⟩ op' hop'
  rw [binaryOp?_eq_some.2 h] at hop'
  cases hop'
  exact Nat.le_refl _

/-! ### How expressions begin -/

/-- What an expression begins with. -/
def starters : List Token.Kind :=
  [.stringLiteral, .integerLiteral, .floatLiteral, .kwTrue, .kwFalse, .identifier, .lparen,
    .lbracket, .lbrace]

def Begins (kinds : List Token.Kind) (ts : List Token) : Prop :=
  ∃ t rest, ts = t :: rest ∧ t.kind ∈ kinds

theorem Begins.append {kinds : List Token.Kind} (h : Begins kinds ts) (us : List Token) :
    Begins kinds (ts ++ us) := by
  obtain ⟨t, rest, rfl, ht⟩ := h
  exact ⟨t, rest ++ us, rfl, ht⟩

theorem Begins.lacks {kinds : List Token.Kind} {k : Token.Kind} (h : Begins kinds ts)
    (hk : k ∉ kinds) : Lacks k ts := by
  obtain ⟨t, rest, rfl, ht⟩ := h
  rintro u ⟨⟩ rfl
  exact hk ht

/-- A phrase that is no list begins like an expression. -/
def Starts : Phrase → List Token → Prop
  | .items _, _ | .fields _, _ => True
  | .comparison _, ts | .additive _, ts | .multiplicative _, ts | .suffixed _, ts
  | .primary _, ts => Begins starters ts

theorem begins_of_kind {kinds : List Token.Kind} {k : Token.Kind} {t : Token} (h : t.kind = k)
    (hk : k ∈ kinds) (rest : List Token) : Begins kinds (t :: rest) :=
  ⟨t, rest, rfl, h ▸ hk⟩

theorem derives_starts {p : Phrase} (h : Derives p ts) : Starts p ts := by
  induction h with
  | compare _ _ _ _ ha _ | add _ _ _ _ ha _ | multiply _ _ _ _ ha _ => exact ha.append _
  | index _ _ _ _ ha _ => exact ha.append _
  | member _ _ _ ha => exact ha.append _
  | ofAdditive _ ih | ofMultiplicative _ ih | ofSuffixed _ ih | ofPrimary _ ih => exact ih
  | str ht | int ht _ | float ht _ | yes ht | no ht | var ht => exact begins_of_kind ht (by decide) _
  | call hname => exact begins_of_kind hname (by decide) _
  | group hl | array hl | object hl => exact begins_of_kind hl (by decide) _
  | noItems | lastItem | item | noFields | lastField | field => trivial

/-! ### Expressions -/

/-- Reading goes on with the operators that follow. -/
def Ranked (fin : Token) (n : Nat) (e : Expr) (ts : List Token) : Prop :=
  ∀ level rest, level ≤ n → Follows n rest →
    plain (expr fin level (ts ++ rest)) = plain (operators fin level e rest)

theorem Ranked.loosen {n : Nat} {e : Expr} (h : Ranked fin (n + 1) e ts) : Ranked fin n e ts := by
  intro level rest hlevel hrest
  exact h level rest (Nat.le_succ_of_le hlevel) (hrest.mono (Nat.le_succ n))

theorem operators_stop {level : Nat} {e : Expr}
    (h : ∀ t ∈ rest.head?, ∀ op, binaryOp? t.kind = some op → op.level < level) :
    plain (operators fin level e rest) = .ok (e, rest) := by
  rw [plain_operators]
  cases rest with
  | nil => rfl
  | cons t rest =>
    dsimp only
    cases hop : binaryOp? t.kind with
    | none => rfl
    | some op => exact if_pos (h t rfl op hop)

theorem Ranked.binary {n : Nat} {op : BinaryOp} {a b : Expr} {t : Token} (hop : op.level = n)
    (ha : Ranked fin n a ts) (ht : t.kind = op.sign) (hb : Ranked fin (n + 1) b us) :
    Ranked fin n (.binary op a b) (ts ++ t :: us) := by
  subst hop
  intro level rest hlevel hrest
  have hstop : plain (operators fin (op.level + 1) b rest) = .ok (b, rest) :=
    operators_stop fun u hu op' hop' => Nat.lt_succ_of_le (hrest.operators u hu op' hop')
  rw [List.append_assoc, List.cons_append,
    ha level _ hlevel (follows_of_operator ht _), plain_operators]
  dsimp only
  rw [binaryOp?_eq_some.2 ht]
  dsimp only
  rw [if_neg (by omega), hb _ rest (Nat.le_refl _) (hrest.mono (Nat.le_succ _)), hstop]
  rfl

/-- Reading goes on with the suffixes that follow. -/
def Suffixed (fin : Token) (e : Expr) (ts : List Token) : Prop :=
  ∀ rest, Lacks .lparen rest →
    plain (postfixExpr fin (ts ++ rest)) = plain (suffixes fin e rest)

theorem Suffixed.ranked {e : Expr} (h : Suffixed fin e ts) (n : Nat) : Ranked fin n e ts := by
  intro level rest _ hrest
  rw [plain_expr, h rest hrest.lparen, plain_suffixes, after?_eq_none hrest.lbracket,
    after?_eq_none hrest.dot]
  rfl

/-- An expression is read up to what ends it. -/
theorem Ranked.read {n : Nat} {e : Expr} (h : Ranked fin n e ts) (hrest : Follows 0 rest) :
    plain (expr fin 0 (ts ++ rest)) = .ok (e, rest) := by
  rw [h 0 rest (Nat.zero_le n) (hrest.mono (Nat.zero_le n))]
  refine operators_stop fun t ht op hop => ?_
  have hlevel := hrest.operators t ht op hop
  cases op <;> cases hlevel

/-- What readers do with the tokens of a phrase. -/
def Read (fin : Token) : Phrase → List Token → Prop
  | .comparison e, ts => Ranked fin 1 e ts
  | .additive e, ts => Ranked fin 2 e ts
  | .multiplicative e, ts => Ranked fin 3 e ts
  | .suffixed e, ts => Suffixed fin e ts
  | .primary e, ts =>
    ∀ rest, Lacks .lparen rest → plain (primary fin (ts ++ rest)) = .ok (e, rest)
  | .items es, ts => ∀ r rest, r.kind ∈ [.rparen, .rbracket] →
    plain (list fin r.kind (ts ++ r :: rest)) = .ok (es, r :: rest)
  | .fields fs, ts => ∀ r rest, r.kind = .rbrace →
    plain (fields fin (ts ++ r :: rest)) = .ok (fs, r :: rest)

/-- Something and the token that closes it. -/
theorem closed {x : Result (α × List Token)} {a : α} {f : α → β} {k : Token.Kind} {r : Token}
    (hx : x = .ok (a, r :: rest)) (hr : r.kind = k) :
    (do
      let (a, rest₁) ← x
      let (_, rest₂) ← expected fin k rest₁
      return (f a, rest₂)) = .ok (f a, rest) := by
  subst hx
  show (expected fin k (r :: rest) >>= _) = _
  rw [expected_of_kind hr]
  rfl

theorem index_read {a b : Expr} {l r : Token} (ha : Suffixed fin a ts) (hl : l.kind = .lbracket)
    (hb : Ranked fin 1 b us) (hr : r.kind = .rbracket) :
    Suffixed fin (.index a b) (ts ++ l :: (us ++ [r])) := by
  intro rest hrest
  have hlacks : Lacks .lparen (l :: (us ++ r :: rest)) := by
    rintro u ⟨⟩
    rw [hl]
    decide
  have hbracket := hb.read (follows_of_closer (t := r) (by simp [hr, closers]) rest)
  have hts : ts ++ l :: (us ++ [r]) ++ rest = ts ++ l :: (us ++ r :: rest) := by simp
  rw [hts, ha _ hlacks, plain_suffixes, after?_of_kind hl]
  dsimp only
  rw [hbracket]
  show (expected fin .rbracket (r :: rest) >>= _) = _
  rw [expected_of_kind hr]
  rfl

theorem member_read {a : Expr} {l name : Token} (ha : Suffixed fin a ts) (hl : l.kind = .dot)
    (hname : name.kind = .identifier) :
    Suffixed fin (.member a name.text) (ts ++ [l, name]) := by
  intro rest hrest
  have hlacks {k : Token.Kind} (hk : .dot ≠ k) : Lacks k (l :: name :: rest) := by
    rintro u ⟨⟩
    rwa [hl]
  have hts : ts ++ [l, name] ++ rest = ts ++ l :: name :: rest := by simp
  rw [hts, ha _ (hlacks (by decide)), plain_suffixes, after?_eq_none (hlacks (by decide)),
    after?_of_kind hl]
  dsimp only
  rw [expected_of_kind hname]
  rfl

theorem call_read {es : List Expr} {name l r : Token} (hname : name.kind = .identifier)
    (hknown : Builtin.isKnown name.text) (hl : l.kind = .lparen) (hes : Read fin (.items es) ts)
    (hr : r.kind = .rparen) :
    Read fin (.primary (.call name.text es)) (name :: l :: (ts ++ [r])) := by
  intro rest _
  have hts : name :: l :: (ts ++ [r]) ++ rest = name :: l :: (ts ++ r :: rest) := by simp
  have hlist := hes r rest (by simp [hr])
  rw [hr] at hlist
  rw [hts, plain_primary]
  dsimp only
  rw [hname]
  dsimp only
  rw [after?_of_kind hl]
  dsimp only
  rw [if_pos hknown]
  exact closed hlist hr

theorem group_read {e : Expr} {l r : Token} (hl : l.kind = .lparen) (he : Ranked fin 1 e ts)
    (hr : r.kind = .rparen) : Read fin (.primary e) (l :: (ts ++ [r])) := by
  intro rest _
  have hts : l :: (ts ++ [r]) ++ rest = l :: (ts ++ r :: rest) := by simp
  rw [hts, plain_primary]
  dsimp only
  rw [hl]
  dsimp only
  exact closed (f := id) (he.read (follows_of_closer (t := r) (by simp [hr, closers]) rest)) hr

theorem array_read {es : List Expr} {l r : Token} (hl : l.kind = .lbracket)
    (hes : Read fin (.items es) ts) (hr : r.kind = .rbracket) :
    Read fin (.primary (.array (suggested es.head?) es)) (l :: (ts ++ [r])) := by
  intro rest _
  have hts : l :: (ts ++ [r]) ++ rest = l :: (ts ++ r :: rest) := by simp
  have hlist := hes r rest (by simp [hr])
  rw [hr] at hlist
  rw [hts, plain_primary]
  dsimp only
  rw [hl]
  dsimp only
  rw [← hintOf_eq]
  exact closed (f := fun es => Expr.array (hintOf es) es) hlist hr

theorem object_read {fs : List (String × Expr)} {l r : Token} (hl : l.kind = .lbrace)
    (hfs : Read fin (.fields fs) ts) (hr : r.kind = .rbrace) :
    Read fin (.primary (.object fs)) (l :: (ts ++ [r])) := by
  intro rest _
  have hts : l :: (ts ++ [r]) ++ rest = l :: (ts ++ r :: rest) := by simp
  rw [hts, plain_primary]
  dsimp only
  rw [hl]
  dsimp only
  exact closed (hfs r rest hr) hr

theorem var_read {t : Token} (ht : t.kind = .identifier) :
    Read fin (.primary (.var t.text)) [t] := by
  intro rest hrest
  rw [List.singleton_append, plain_primary]
  dsimp only
  rw [ht]
  dsimp only
  rw [after?_eq_none hrest]

theorem int_read {t : Token} {n : Int} (ht : t.kind = .integerLiteral)
    (hn : Token.integerValue t.text = .ok n) : Read fin (.primary (.int n)) [t] := by
  intro rest _
  rw [List.singleton_append, plain_primary]
  dsimp only
  rw [ht]
  dsimp only
  rw [hn]

theorem float_read {t : Token} {d : Number.Double} (ht : t.kind = .floatLiteral)
    (hd : Token.floatValue t.text = .ok d) : Read fin (.primary (.float d)) [t] := by
  intro rest _
  rw [List.singleton_append, plain_primary]
  dsimp only
  rw [ht]
  dsimp only
  rw [hd]

theorem noItems_read : Read fin (.items []) [] := by
  intro r rest hr
  rw [List.nil_append, plain_list, if_pos (at?_of_kind rfl rest)]

theorem not_at_close {k : Token.Kind} {kinds : List Token.Kind} (h : Begins kinds ts)
    (hk : k ∉ kinds) (us : List Token) : ¬at? k (ts ++ us) = true := by
  rw [at?_eq_false ((h.append us).lacks hk)]
  exact Bool.false_ne_true

theorem lastItem_read {e : Expr} (hstarts : Begins starters ts) (he : Ranked fin 1 e ts) :
    Read fin (.items [e]) ts := by
  intro r rest hr
  have hclose : r.kind ∉ starters ∧ r.kind ∈ closers ∧ r.kind ≠ .comma := by
    revert hr
    cases r.kind <;> decide
  have hlacks : Lacks .comma (r :: rest) := by
    rintro u ⟨⟩
    exact hclose.2.2
  rw [plain_list, if_neg (not_at_close hstarts hclose.1 _),
    he.read (follows_of_closer hclose.2.1 rest)]
  dsimp only [bind, Except.bind]
  rw [after?_eq_none hlacks]
  rfl

theorem item_read {e : Expr} {es : List Expr} {t : Token} (hstarts : Begins starters ts)
    (he : Ranked fin 1 e ts) (ht : t.kind = .comma) (hes : Read fin (.items es) us) :
    Read fin (.items (e :: es)) (ts ++ t :: us) := by
  intro r rest hr
  have hclose : r.kind ∉ starters := by
    revert hr
    cases r.kind <;> decide
  have hts : ts ++ t :: us ++ r :: rest = ts ++ t :: (us ++ r :: rest) := by simp
  rw [hts, plain_list, if_neg (not_at_close hstarts hclose _),
    he.read (follows_of_closer (t := t) (by simp [ht, closers]) _)]
  dsimp only [bind, Except.bind]
  rw [after?_of_kind ht]
  show (plain (list fin r.kind (us ++ r :: rest)) >>= _) = _
  rw [hes r rest hr]
  rfl

theorem noFields_read : Read fin (.fields []) [] := by
  intro r rest hr
  rw [List.nil_append, plain_fields, if_pos (at?_of_kind hr rest)]

theorem keyed_of_kind {k : Token} (h : k.kind ∈ [.identifier, .stringLiteral])
    (rest : List Token) : keyed fin (k :: rest) = .ok (k.text, rest) := by
  rw [keyed, if_pos (by simpa using h)]

theorem not_at_rbrace {k : Token} (h : k.kind ∈ [.identifier, .stringLiteral])
    (rest : List Token) : ¬at? .rbrace (k :: rest) = true := by
  have hbegins : Begins [.identifier, .stringLiteral] [k] := ⟨k, [], rfl, h⟩
  exact not_at_close hbegins (by decide) rest

theorem lastField_read {e : Expr} {k l : Token} (hk : k.kind ∈ [.identifier, .stringLiteral])
    (hl : l.kind = .colon) (he : Ranked fin 1 e ts) :
    Read fin (.fields [(k.text, e)]) (k :: l :: ts) := by
  intro r rest hr
  have hlacks : Lacks .comma (r :: rest) := by
    rintro u ⟨⟩
    rw [hr]
    decide
  rw [List.cons_append, List.cons_append, plain_fields, if_neg (not_at_rbrace hk _),
    keyed_of_kind hk]
  show (expected fin .colon (l :: (ts ++ r :: rest)) >>= _) = _
  rw [expected_of_kind hl]
  show (plain (expr fin 0 (ts ++ r :: rest)) >>= _) = _
  rw [he.read (follows_of_closer (t := r) (by simp [hr, closers]) rest)]
  dsimp only [bind, Except.bind]
  rw [after?_eq_none hlacks]
  rfl

theorem field_read {e : Expr} {fs : List (String × Expr)} {t k l : Token}
    (hk : k.kind ∈ [.identifier, .stringLiteral]) (hl : l.kind = .colon) (he : Ranked fin 1 e ts)
    (ht : t.kind = .comma) (hfs : Read fin (.fields fs) us) :
    Read fin (.fields ((k.text, e) :: fs)) (k :: l :: (ts ++ t :: us)) := by
  intro r rest hr
  have hts : k :: l :: (ts ++ t :: us) ++ r :: rest = k :: l :: (ts ++ t :: (us ++ r :: rest)) := by
    simp
  rw [hts, plain_fields, if_neg (not_at_rbrace hk _), keyed_of_kind hk]
  show (expected fin .colon (l :: (ts ++ t :: (us ++ r :: rest))) >>= _) = _
  rw [expected_of_kind hl]
  show (plain (expr fin 0 (ts ++ t :: (us ++ r :: rest))) >>= _) = _
  rw [he.read (follows_of_closer (t := t) (by simp [ht, closers]) _)]
  dsimp only [bind, Except.bind]
  rw [after?_of_kind ht]
  show (plain (fields fin (us ++ r :: rest)) >>= _) = _
  rw [hfs r rest hr]
  rfl

theorem derives_read {p : Phrase} (h : Derives p ts) : Read fin p ts := by
  induction h with
  | compare hop _ ht _ ha hb =>
    refine Ranked.binary ?_ ha ht hb
    simp only [List.mem_cons, List.not_mem_nil, or_false] at hop
    rcases hop with rfl | rfl | rfl | rfl | rfl | rfl <;> rfl
  | ofAdditive _ ih => exact Ranked.loosen ih
  | add hop _ ht _ ha hb =>
    refine Ranked.binary ?_ ha ht hb
    simp only [List.mem_cons, List.not_mem_nil, or_false] at hop
    rcases hop with rfl | rfl <;> rfl
  | ofMultiplicative _ ih => exact Ranked.loosen ih
  | multiply hop _ ht _ ha hb =>
    refine Ranked.binary ?_ ha ht (Suffixed.ranked hb 4)
    simp only [List.mem_cons, List.not_mem_nil, or_false] at hop
    rcases hop with rfl | rfl | rfl <;> rfl
  | ofSuffixed _ ih => exact Suffixed.ranked ih 3
  | index _ hl _ hr ha hb => exact index_read ha hl hb hr
  | member _ hl hname ha => exact member_read ha hl hname
  | ofPrimary _ ih =>
    intro rest hrest
    rw [plain_postfixExpr, ih rest hrest]
    rfl
  | str ht | yes ht | no ht =>
    intro rest _
    rw [List.singleton_append, plain_primary]
    dsimp only
    rw [ht]
  | int ht hn => exact int_read ht hn
  | float ht hd => exact float_read ht hd
  | var ht => exact var_read ht
  | call hname hknown hl _ hr ih => exact call_read hname hknown hl ih hr
  | group hl _ hr ih => exact group_read hl ih hr
  | array hl _ hr ih => exact array_read hl ih hr
  | object hl _ hr ih => exact object_read hl ih hr
  | noItems => exact noItems_read
  | lastItem he ih => exact lastItem_read (derives_starts he) ih
  | item he ht _ ih ihs => exact item_read (derives_starts he) ih ht ihs
  | noFields => exact noFields_read
  | lastField hk hl _ ih => exact lastField_read hk hl ih
  | field hk hl _ ht _ ih ihs => exact field_read hk hl ih ht ihs

theorem spells_read {e : Expr} (h : Spells e ts) (hrest : Follows 0 rest) :
    plain (expr fin 0 (ts ++ rest)) = .ok (e, rest) :=
  Ranked.read (derives_read h) hrest

/-! ### Brackets -/

/-- Tokens whose brackets pair up, so that a search for the bracket that closes an
earlier one goes past them. -/
def Balanced (ts : List Token) : Prop :=
  ∀ depth rest, 0 < depth → assignsElement depth (ts ++ rest) = assignsElement depth rest

theorem Balanced.nil : Balanced [] := fun _ _ _ => rfl

theorem Balanced.append (h : Balanced ts) (h' : Balanced us) : Balanced (ts ++ us) := by
  intro depth rest hdepth
  rw [List.append_assoc, h depth _ hdepth, h' depth rest hdepth]

theorem Balanced.cons {t : Token} {k : Token.Kind} (ht : t.kind = k)
    (hk : k ≠ .lbracket ∧ k ≠ .rbracket) (h : Balanced ts) : Balanced (t :: ts) := by
  subst ht
  intro depth rest hdepth
  rw [List.cons_append, assignsElement, if_neg hk.1, if_neg hk.2]
  exact h depth rest hdepth

theorem Balanced.bracketed {l r : Token} (hl : l.kind = .lbracket) (h : Balanced ts)
    (hr : r.kind = .rbracket) : Balanced (l :: (ts ++ [r])) := by
  intro depth rest hdepth
  have hts : l :: (ts ++ [r]) ++ rest = l :: (ts ++ r :: rest) := by simp
  have hne : r.kind ≠ .lbracket := by simp [hr]
  rw [hts, assignsElement, if_pos hl, h _ _ (Nat.succ_pos depth), assignsElement, if_neg hne,
    if_pos hr, if_neg (by omega)]
  rfl

/-- Tokens that are no brackets, and brackets around such tokens. -/
inductive Nested : List Token → Prop where
  | nil : Nested []
  | append {ts us : List Token} (h : Nested ts) (h' : Nested us) : Nested (ts ++ us)
  | cons {t : Token} {k : Token.Kind} {ts : List Token} (ht : t.kind = k)
      (hk : k ≠ .lbracket ∧ k ≠ .rbracket) (h : Nested ts) : Nested (t :: ts)
  | bracketed {l r : Token} {ts : List Token} (hl : l.kind = .lbracket) (h : Nested ts)
      (hr : r.kind = .rbracket) : Nested (l :: (ts ++ [r]))

theorem Nested.balanced (h : Nested ts) : Balanced ts := by
  induction h with
  | nil => exact .nil
  | append _ _ ih ih' => exact ih.append ih'
  | cons ht hk _ ih => exact ih.cons ht hk
  | bracketed hl _ hr ih => exact .bracketed hl ih hr

theorem derives_nested {p : Phrase} (h : Derives p ts) : Nested ts := by
  induction h with
  | @compare op _ _ _ _ _ _ _ ht _ ha hb | @add op _ _ _ _ _ _ _ ht _ ha hb
  | @multiply op _ _ _ _ _ _ _ ht _ ha hb =>
    exact ha.append (.cons ht (by cases op <;> decide) hb)
  | ofAdditive _ ih | ofMultiplicative _ ih | ofSuffixed _ ih | ofPrimary _ ih | lastItem _ ih =>
    exact ih
  | index _ hl _ hr ha hb => exact ha.append (.bracketed hl hb hr)
  | member _ hl hname ha =>
    exact ha.append (.cons hl (by decide) (.cons hname (by decide) .nil))
  | str ht | int ht _ | float ht _ | yes ht | no ht | var ht => exact .cons ht (by decide) .nil
  | call hname _ hl _ hr ih =>
    exact .cons hname (by decide) (.cons hl (by decide) (ih.append (.cons hr (by decide) .nil)))
  | group hl _ hr ih | object hl _ hr ih =>
    exact .cons hl (by decide) (ih.append (.cons hr (by decide) .nil))
  | array hl _ hr ih => exact .bracketed hl ih hr
  | noItems | noFields => exact .nil
  | item _ ht _ ih ihs => exact ih.append (.cons ht (by decide) ihs)
  | lastField hk hl _ ih =>
    refine .cons rfl ?_ (.cons hl (by decide) ih)
    revert hk
    cases Token.kind _ <;> decide
  | field hk hl _ ht _ ih ihs =>
    refine .cons rfl ?_ (.cons hl (by decide) (ih.append (.cons ht (by decide) ihs)))
    revert hk
    cases Token.kind _ <;> decide

/-- The search looks at the token after the bracket that closes the first one. -/
theorem assignsElement_eq {l r : Token} (hl : l.kind = .lbracket) (h : Balanced ts)
    (hr : r.kind = .rbracket) (rest : List Token) :
    assignsElement 0 (l :: (ts ++ r :: rest)) = at? .assign rest := by
  have hne : r.kind ≠ .lbracket := by simp [hr]
  rw [assignsElement, if_pos hl, h _ _ (Nat.succ_pos 0), assignsElement, if_neg hne, if_pos hr,
    if_pos (Nat.le_refl _)]

theorem assignsElement_of_spells {i : Expr} {l r t : Token} (hl : l.kind = .lbracket)
    (hi : Spells i ts) (hr : r.kind = .rbracket) (ht : t.kind = .assign) (rest : List Token) :
    assignsElement 0 (l :: (ts ++ r :: t :: rest)) = true := by
  rw [assignsElement_eq hl (derives_nested hi).balanced hr, at?_of_kind ht]

end TinyScript.Ast.Parser
