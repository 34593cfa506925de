import TinyScript.Proofs.Ast.Completeness
import TinyScript.Proofs.Ast.Soundness

/-! Brackets in expressions. After a name that is no known function's, a bracket begins an
assignment to an element or it is an error, and which of them is decided before the index is
read: by a search among the brackets alone for the one that closes the first, and a look at the
token after it. The reader of expressions finds the same bracket, since what it takes is nested.
So the equals sign that the search saw is where the reader expects it. -/

namespace TinyScript.Ast.Parser

open Grammar

variable {ts us rest : List Token} {l r t fin : Token}

/-! ### Counting -/

def openings (ts : List Token) : Nat := ts.countP (·.kind = .lbracket)

def closings (ts : List Token) : Nat := ts.countP (·.kind = .rbracket)

theorem openings_append (ts us : List Token) : openings (ts ++ us) = openings ts + openings us :=
  List.countP_append

theorem closings_append (ts us : List Token) : closings (ts ++ us) = closings ts + closings us :=
  List.countP_append

theorem openings_cons (t : Token) (ts : List Token) :
    openings (t :: ts) = openings ts + if t.kind = .lbracket then 1 else 0 := by
  simp [openings, List.countP_cons]

theorem closings_cons (t : Token) (ts : List Token) :
    closings (t :: ts) = closings ts + if t.kind = .rbracket then 1 else 0 := by
  simp [closings, List.countP_cons]

/-- No beginning closes more brackets than it opens, and all brackets are closed in the end. -/
structure Paired (ts : List Token) : Prop where
  beginning (us : List Token) : us <+: ts → closings us ≤ openings us
  whole : closings ts = openings ts

theorem Nested.closings_eq (h : Nested ts) : closings ts = openings ts := by
  induction h with
  | nil => rfl
  | append _ _ ih ih' => rw [closings_append, openings_append, ih, ih']
  | cons ht hk _ ih => simp [closings_cons, openings_cons, ht, hk, ih]
  | bracketed hl _ hr ih =>
    rw [closings_cons, openings_cons, closings_append, openings_append, ih]
    simp [closings, openings, hl, hr]

theorem Nested.closings_take_le (h : Nested ts) (n : Nat) :
    closings (ts.take n) ≤ openings (ts.take n) := by
  induction h generalizing n with
  | nil => simp [closings]
  | append _ _ ih ih' =>
    rw [List.take_append, closings_append, openings_append]
    exact Nat.add_le_add (ih n) (ih' _)
  | cons ht hk _ ih =>
    cases n with
    | zero => exact Nat.le_refl 0
    | succ n => simpa [closings_cons, openings_cons, ht, hk] using ih n
  | @bracketed l r ts hl h hr ih =>
    cases n with
    | zero => exact Nat.le_refl 0
    | succ n =>
      -- The bracket that closes is made up for by the one that opens, wherever the cut is.
      have hlast : closings ([r].take (n - ts.length)) ≤ 1 :=
        Nat.le_trans List.countP_le_length (List.length_take_le' _ _)
      have hinner := ih n
      rw [List.take_succ_cons, List.take_append, closings_cons, openings_cons, closings_append,
        openings_append, if_pos hl, if_neg (by simp [hl])]
      omega

theorem Nested.paired (h : Nested ts) : Paired ts := by
  refine ⟨fun us hus => ?_, h.closings_eq⟩
  rw [List.prefix_iff_eq_take.1 hus]
  exact h.closings_take_le _

/-! ### The reader and the search -/

theorem expr_took_nested {level : Nat} {e : Expr} (h : plain (expr fin level ts) = .ok (e, rest)) :
    Took Nested ts rest := by
  obtain ⟨used, hts, hused⟩ := (expr_sound h).1
  exact ⟨used, hts, derives_nested hused⟩

/-- After an index and its bracket the search has seen the next token. -/
theorem assignsElement_of_index {i : Expr} (hl : l.kind = .lbracket)
    (hi : plain (expr fin 0 ts) = .ok (i, r :: rest)) (hr : r.kind = .rbracket) :
    assignsElement 0 (l :: ts) = at? .assign rest := by
  obtain ⟨used, rfl, hused⟩ := expr_took_nested hi
  exact assignsElement_eq hl hused.balanced hr rest

theorem at?_eq_true {k : Token.Kind} (h : at? k ts = true) :
    ∃ t rest, ts = t :: rest ∧ t.kind = k := by
  cases ts with
  | nil => cases h
  | cons t rest => exact ⟨t, rest, rfl, of_decide_eq_true h⟩

/-- Of an assignment to an element, the value is read after the index and the two tokens. -/
theorem simple_of_index {name : Token} {i : Expr} (hname : ¬Builtin.isKnown name.text)
    (hl : l.kind = .lbracket) (hi : plain (expr fin 0 ts) = .ok (i, r :: t :: rest))
    (hr : r.kind = .rbracket) (ht : t.kind = .assign) :
    plain (simple fin name (l :: ts)) = do
      let (e, rest') ← plain (expr fin 0 rest)
      return (.setElement (.var name.text) i e, rest') := by
  have hassigns := assignsElement_of_index hl hi hr
  rw [at?_of_kind ht] at hassigns
  rw [plain_simple, if_neg hname]
  dsimp only
  rw [hl]
  dsimp only
  rw [if_pos hassigns, hi]
  show (expected fin .rbracket (r :: t :: rest) >>= _) = _
  rw [expected_of_kind hr]
  show (expected fin .assign (t :: rest) >>= _) = _
  rw [expected_of_kind ht]
  rfl

/-- **The search and the reader find the same bracket**, at any place of any tokens. If the
search says that an element is assigned to, the equals sign is there once the index and its
bracket are read, and only the value is left to be read. If an index, its bracket and an equals
sign are there, the search says so. For what is read as an expression has its brackets paired. -/
theorem lookahead_agrees {cursor : Nat} (name : Token)
    (hcursor : beforeEnd (ts.drop cursor) = l :: rest) (hl : l.kind = .lbracket)
    (hname : ¬Builtin.isKnown name.text) (fin : Token) :
    (∀ i r after, plain (expr fin 0 rest) = .ok (i, r :: after) → r.kind = .rbracket →
      assignsElement 0 (beforeEnd (ts.drop cursor)) = true →
        ∃ t more, t.kind = .assign ∧ expected fin .assign after = .ok (t, more) ∧
          plain (simple fin name (beforeEnd (ts.drop cursor))) = do
            let (e, rest') ← plain (expr fin 0 more)
            return (.setElement (.var name.text) i e, rest')) ∧
    (∀ us us' i fin' r t more, plain (expr fin' 0 (us ++ us')) = .ok (i, us') →
      rest = us ++ r :: t :: more → r.kind = .rbracket → t.kind = .assign →
        assignsElement 0 (beforeEnd (ts.drop cursor)) = true) ∧
    (∀ level us e rest', plain (expr fin level us) = .ok (e, rest') →
      ∃ used, us = used ++ rest' ∧ Paired used) := by
  rw [hcursor]
  refine ⟨?_, ?_, ?_⟩
  · intro i r after hi hr hassigns
    rw [assignsElement_of_index hl hi hr] at hassigns
    obtain ⟨t, more, rfl, ht⟩ := at?_eq_true hassigns
    exact ⟨t, more, ht, expected_of_kind ht more, simple_of_index hname hl hi hr ht⟩
  · rintro us us' i fin' r t more hi rfl hr ht
    obtain ⟨used, hused, hnested⟩ := expr_took_nested hi
    obtain rfl := List.append_cancel_right hused
    rw [assignsElement_eq hl hnested.balanced hr, at?_of_kind ht]
  · intro level us e rest' he
    obtain ⟨used, hus, hnested⟩ := expr_took_nested he
    exact ⟨used, hus, hnested.paired⟩

/-- A variable's element as an index, which is read to its own bracket. -/
theorem element_read {a b : Token} (ha : a.kind = .identifier) (hl : l.kind = .lbracket)
    (hb : b.kind = .identifier) (hr : r.kind = .rbracket) (fin : Token) :
    plain (expr fin 0 ([a, l, b, r] ++ [])) = .ok (.index (.var a.text) (.var b.text), []) := by
  have hindex : Spells (.var b.text) [b] := Derives.suffixed (.ofPrimary (.var hb)) 1
  have helement : Spells (.index (.var a.text) (.var b.text)) ([a] ++ l :: ([b] ++ [r])) :=
    Derives.suffixed (.index (.ofPrimary (.var ha)) hl hindex hr) 1
  exact spells_read helement (follows_nil 0)

/-- The index in `xs[a[i]] = x;`. -/
def innerElement : List Token :=
  [⟨.identifier, "a", ⟨3, 4⟩⟩, ⟨.lbracket, "[", ⟨4, 5⟩⟩, ⟨.identifier, "i", ⟨5, 6⟩⟩,
    ⟨.rbracket, "]", ⟨6, 7⟩⟩]

/-- What follows the name there. -/
def outerElement : List Token :=
  ⟨.lbracket, "[", ⟨2, 3⟩⟩ :: (innerElement ++ ⟨.rbracket, "]", ⟨7, 8⟩⟩ ::
    ⟨.assign, "=", ⟨9, 10⟩⟩ :: [⟨.identifier, "x", ⟨11, 12⟩⟩, ⟨.semicolon, ";", ⟨12, 13⟩⟩])

theorem outerElement_assigned :
    beforeEnd ((Token.tokens "xs[a[i]] = x;").drop 1) = outerElement ∧ ¬Builtin.isKnown "xs" ∧
      assignsElement 0 (beforeEnd ((Token.tokens "xs[a[i]] = x;").drop 1)) = true := by
  have hcursor : beforeEnd ((Token.tokens "xs[a[i]] = x;").drop 1) = outerElement := by
    decide +kernel
  have hname : ¬Builtin.isKnown "xs" := by decide +kernel
  have hagrees := lookahead_agrees ⟨.identifier, "xs", ⟨0, 2⟩⟩ hcursor rfl hname
    ⟨.endOfInput, "", ⟨13, 13⟩⟩
  have hindex : plain (expr ⟨.endOfInput, "", ⟨7, 7⟩⟩ 0 (innerElement ++ [])) =
      .ok (.index (.var "a") (.var "i"), []) :=
    element_read rfl rfl rfl rfl _
  exact ⟨hcursor, hname, hagrees.2.1 _ _ _ _ _ _ _ hindex rfl rfl rfl⟩

end TinyScript.Ast.Parser
