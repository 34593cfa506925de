import TinyScript.Proofs.Ast.Completeness
import TinyScript.Proofs.Ast.Soundness

/-! How far the readers look. What a reader returns rests on the tokens it takes and the
one after them, and an error rests on the tokens up to the one it is about, so that no
other continuation of these would be read. Two errors look further: that a function is
unknown is seen from the parenthesis after its name, and that an element is not assigned
to from wherever its bracket is closed. Readers made of such readers one after the other,
or chosen by the next token, are of that sort again. -/

namespace TinyScript.Ast

/-- How many tokens after the one it is about an error rests on, if that is known. -/
def ParseError.Cause.reach : ParseError.Cause → Option Nat
  | .bareIndexExpression => none
  | .unknownFunction _ => some 1
  | _ => some 0

/-- An error about a literal is about one of its kind that has no value. Other errors
say nothing of values. -/
def ParseError.Cause.Misreads (t : Token) : ParseError.Cause → Prop
  | .integerOutOfRange => t.kind = .integerLiteral ∧ ∃ e, Token.integerValue t.text = .error e
  | .invalidFloat => t.kind = .floatLiteral ∧ ∃ e, Token.floatValue t.text = .error e
  | _ => True

namespace Parser

open Grammar

variable {α β : Type} {ts rest : List Token} {t fin : Token} {e : ParseError}

/-- What is read, from the end token and the tokens before it. -/
abbrev Reader (α : Type) := Token → List Token → Result (α × List Token)

/-- No token is wrong by itself. -/
def Clean (ts : List Token) : Prop := ∀ t ∈ ts, t.kind ≠ .invalid

/-- An error about a token. It is lexical if and only if the token is wrong by itself,
and then it says what the token says. -/
structure Blames (e : ParseError) (t : Token) : Prop where
  span : e.span = t.span
  lexical (message : String) : e.value = .lexical message ↔ t.kind = .invalid ∧ message = t.text
  literal : e.value.Misreads t

/-- Tokens on which a reader fails whatever comes after them. -/
def Doomed (read : Reader α) (ts : List Token) : Prop :=
  ∀ fin more, ∃ e, read fin (ts ++ more) = .error e

/-- Tokens are taken off the front, with only a look at the next one. -/
def Takes (read : Reader α) (a : α) (ts rest : List Token) : Prop :=
  ∃ used, ts = used ++ rest ∧ Clean used ∧
    ∀ fin rest', rest'.head? = rest.head? → read fin (used ++ rest') = .ok (a, rest')

/-- What an error is about: the end token, or one before which nothing is wrong. -/
inductive Faults (read : Reader α) (fin : Token) (ts : List Token) (e : ParseError) : Prop where
  | finish (clean : Clean ts) (blames : Blames e fin)
  | token (before after : List Token) (t : Token) (split : ts = before ++ t :: after)
      (clean : Clean before) (blames : Blames e t)
      (doomed : ∀ n, e.value.reach = some n → Doomed read (before ++ t :: after.take n))

/-- A reader that looks no further than it has to. -/
structure Local (read : Reader α) (ts : List Token) : Prop where
  takes {fin : Token} {a : α} {rest : List Token} :
    read fin ts = .ok (a, rest) → Takes read a ts rest
  faults {fin : Token} {e : ParseError} : read fin ts = .error e → Faults read fin ts e

theorem Clean.nil : Clean [] := List.forall_mem_nil _

theorem Clean.append {us : List Token} (h : Clean ts) (h' : Clean us) : Clean (ts ++ us) :=
  List.forall_mem_append.2 ⟨h, h'⟩

theorem Clean.cons (ht : t.kind ≠ .invalid) (h : Clean ts) : Clean (t :: ts) :=
  List.forall_mem_cons.2 ⟨ht, h⟩

theorem blames_mk (cause : ParseError.Cause) (ht : t.kind ≠ .invalid)
    (hcause : ∀ message, cause ≠ .lexical message)
    (hliteral : cause.Misreads t := by exact trivial) : Blames ⟨cause, t.span⟩ t := by
  refine ⟨rfl, fun message => ?_, hliteral⟩
  simp [ht, hcause]

theorem blames_errorAt (t : Token) (cause : ParseError.Cause)
    (hcause : ∀ message, cause ≠ .lexical message)
    (hliteral : cause.Misreads t := by exact trivial) : Blames (errorAt t cause) t := by
  unfold errorAt
  split
  · rename_i ht
    refine ⟨rfl, fun message => ?_, trivial⟩
    simp [ht, eq_comm]
  · rename_i ht
    exact blames_mk cause ht hcause hliteral

/-! ### Readers put together -/

theorem head?_append {us rest rest' : List Token} (h : rest'.head? = rest.head?) :
    (us ++ rest').head? = (us ++ rest).head? := by
  cases us with
  | nil => exact h
  | cons u us => rfl

theorem head?_upTo (before after more : List Token) (n : Nat) :
    (before ++ t :: after.take n ++ more).head? = (before ++ t :: after).head? := by
  cases before <;> rfl

theorem Local.pure (a : α) (ts : List Token) : Local (fun _ us => .ok (a, us)) ts := by
  refine ⟨?_, nofun⟩
  rintro _ _ _ ⟨⟩
  exact ⟨[], rfl, .nil, fun _ _ _ => rfl⟩

/-- One reader after another. -/
theorem Local.bind {read : Reader α} {g : Token → α × List Token → Result (β × List Token)}
    (h : Local read ts)
    (hg : ∀ {fin a rest}, read fin ts = .ok (a, rest) → Local (fun fin us => g fin (a, us)) rest) :
    Local (fun fin us => read fin us >>= g fin) ts := by
  constructor
  · intro fin b rest hok
    obtain ⟨⟨a, rest₁⟩, hread, hok₁⟩ := bind_eq_ok hok
    obtain ⟨used, rfl, hclean, htakes⟩ := h.takes hread
    obtain ⟨used', rfl, hclean', htakes'⟩ := (hg hread).takes hok₁
    refine ⟨used ++ used', by simp, hclean.append hclean', ?_⟩
    intro fin' rest' hhead
    dsimp only
    rw [List.append_assoc, htakes fin' _ (head?_append hhead)]
    exact htakes' fin' rest' hhead
  · intro fin e herror
    cases hread : read fin ts with
    | error e' =>
      rw [hread] at herror
      cases herror
      cases h.faults hread with
      | finish clean blames => exact .finish clean blames
      | token before after t split clean blames doomed =>
        refine .token before after t split clean blames fun n hn fin' more => ?_
        obtain ⟨e', he'⟩ := doomed n hn fin' more
        exact ⟨e', by rw [he']; rfl⟩
    | ok r =>
      obtain ⟨a, rest⟩ := r
      rw [hread] at herror
      obtain ⟨used, rfl, hclean, htakes⟩ := h.takes hread
      cases (hg hread).faults herror with
      | finish clean blames => exact .finish (hclean.append clean) blames
      | token before after t split clean blames doomed =>
        subst split
        refine .token (used ++ before) after t (List.append_assoc used before (t :: after)).symm
          (hclean.append clean) blames fun n hn fin' more => ?_
        obtain ⟨e', he'⟩ := doomed n hn fin' more
        refine ⟨e', ?_⟩
        rw [List.append_assoc used, List.append_assoc used,
          htakes fin' _ (head?_upTo before after more n)]
        exact he'

/-- Readers that agree on what starts with the same token. -/
theorem Local.congr {read g : Reader α}
    (h : ∀ fin us, us.head? = ts.head? → read fin us = g fin us) (hg : Local g ts) :
    Local read ts := by
  constructor
  · intro fin a rest hok
    rw [h fin ts rfl] at hok
    obtain ⟨used, rfl, hclean, htakes⟩ := hg.takes hok
    refine ⟨used, rfl, hclean, fun fin' rest' hhead => ?_⟩
    rw [h fin' _ (head?_append hhead)]
    exact htakes fin' rest' hhead
  · intro fin e herror
    rw [h fin ts rfl] at herror
    cases hg.faults herror with
    | finish clean blames => exact .finish clean blames
    | token before after t split clean blames doomed =>
      subst split
      refine .token before after t rfl clean blames fun n hn fin' more => ?_
      rw [h fin' _ (head?_upTo before after more n)]
      exact doomed n hn fin' more

/-- A token is taken, and another reader goes on after it. -/
theorem Local.cons {read g : Reader α}
    (h : ∀ fin us, us.head? = rest.head? → read fin (t :: us) = g fin us)
    (ht : t.kind ≠ .invalid) (hg : Local g rest) : Local read (t :: rest) := by
  constructor
  · intro fin a rest' hok
    rw [h fin rest rfl] at hok
    obtain ⟨used, rfl, hclean, htakes⟩ := hg.takes hok
    refine ⟨t :: used, rfl, hclean.cons ht, fun fin' rest'' hhead => ?_⟩
    rw [List.cons_append, h fin' _ (head?_append hhead)]
    exact htakes fin' rest'' hhead
  · intro fin e herror
    rw [h fin rest rfl] at herror
    cases hg.faults herror with
    | finish clean blames => exact .finish (clean.cons ht) blames
    | token before after u split clean blames doomed =>
      subst split
      refine .token (t :: before) after u rfl (clean.cons ht) blames fun n hn fin' more => ?_
      rw [List.cons_append, List.cons_append, h fin' _ (head?_upTo before after more n)]
      exact doomed n hn fin' more

/-- An error about the next token, whatever comes after it. -/
theorem Local.fail {read : Reader α} (h : ∀ fin us, read fin (t :: us) = .error e)
    (blames : Blames e t) : Local read (t :: rest) := by
  constructor
  · intro fin a rest' hok
    rw [h] at hok
    cases hok
  · intro fin e' herror
    rw [h] at herror
    cases herror
    exact .token [] _ t rfl .nil blames fun n _ fin' more => ⟨e, h fin' _⟩

/-- An error about a name, seen from the token after it. -/
theorem Local.unknown {read : Reader α} {l : Token} (name : String)
    (h : ∀ fin us, read fin (t :: l :: us) = .error ⟨.unknownFunction name, t.span⟩)
    (ht : t.kind ≠ .invalid) : Local read (t :: l :: rest) := by
  constructor
  · intro fin a rest' hok
    rw [h] at hok
    cases hok
  · intro fin e herror
    rw [h] at herror
    cases herror
    refine .token [] _ t rfl .nil (blames_mk _ ht (by simp)) fun n hn fin' more => ?_
    cases hn
    exact ⟨_, h fin' more⟩

/-- An error at the end. -/
theorem Local.ends {read : Reader α} {cause : Token → ParseError.Cause}
    (h : ∀ fin, read fin [] = .error (errorAt fin (cause fin)))
    (hcause : ∀ fin message, cause fin ≠ .lexical message)
    (hliteral : ∀ fin, (cause fin).Misreads fin := by exact fun _ => trivial) :
    Local read [] := by
  constructor
  · intro fin a rest' hok
    rw [h] at hok
    cases hok
  · intro fin e herror
    rw [h] at herror
    cases herror
    exact .finish .nil (blames_errorAt fin (cause fin) (hcause fin) (hliteral fin))

theorem head?_eq_cons {us : List Token} (h : us.head? = (t :: rest).head?) :
    ∃ us', us = t :: us' := by
  cases us with
  | nil => cases h
  | cons u us =>
    cases h
    exact ⟨us, rfl⟩

theorem head?_eq_nil {us : List Token} (h : us.head? = ([] : List Token).head?) : us = [] :=
  List.head?_eq_none_iff.1 h

/-- The choice between two readers by the next token, which the first one takes. -/
theorem Local.choose {k : Token.Kind} {read other : Reader α} (hk : k ≠ .invalid)
    (hread : ∀ us, us.length < ts.length → Local read us) (hother : Local other ts) :
    Local (fun fin us => match after? k us with
      | some rest => read fin rest
      | none => other fin us) ts := by
  cases ts with
  | nil =>
    refine .congr (fun fin us hhead => ?_) hother
    rw [head?_eq_nil hhead]
    rfl
  | cons u us =>
    by_cases hu : u.kind = k
    · refine .cons (fun fin us _ => ?_) (hu ▸ hk) (hread us (Nat.lt_succ_self _))
      rw [after?_of_kind hu]
    · refine .congr (fun fin us' hhead => ?_) hother
      obtain ⟨us', rfl⟩ := head?_eq_cons hhead
      rw [after?, if_neg hu]

/-- The same choice, the other way round. -/
theorem Local.unless {k : Token.Kind} {read other : Reader α} (hk : k ≠ .invalid)
    (hother : Local other ts) (hread : ∀ us, us.length < ts.length → Local read us) :
    Local (fun fin us => match after? k us with
      | none => other fin us
      | some rest => read fin rest) ts := by
  refine .congr (fun fin us _ => ?_) (.choose hk hread hother)
  cases after? k us <;> rfl

/-- The choice between two readers by the next token, which both find there. -/
theorem Local.ifAt {k : Token.Kind} {read other : Reader α} (hread : Local read ts)
    (hother : Local other ts) :
    Local (fun fin us => if at? k us then read fin us else other fin us) ts := by
  have hat (us : List Token) (hhead : us.head? = ts.head?) : at? k us = at? k ts := by
    cases ts with
    | nil => rw [head?_eq_nil hhead]
    | cons u us' =>
      obtain ⟨us, rfl⟩ := head?_eq_cons hhead
      rfl
  by_cases h : at? k ts = true
  · refine .congr (fun fin us hhead => ?_) hread
    rw [hat us hhead, if_pos h]
  · refine .congr (fun fin us hhead => ?_) hother
    rw [hat us hhead, if_neg h]

theorem expected_local {k : Token.Kind} (hk : k ≠ .invalid) (ts : List Token) :
    Local (fun fin us => expected fin k us) ts := by
  cases ts with
  | nil => exact .ends (fun _ => rfl) (by simp)
  | cons t ts =>
    by_cases ht : t.kind = k
    · exact .cons (fun fin us _ => expected_of_kind ht us) (ht ▸ hk) (.pure t ts)
    · refine .fail (fun fin us => ?_) (blames_errorAt t (.unexpected k t.kind) (by simp))
      rw [expected, if_neg ht]

theorem keyed_local (ts : List Token) : Local (fun fin us => keyed fin us) ts := by
  cases ts with
  | nil => exact .ends (fun _ => rfl) (by simp)
  | cons t ts =>
    by_cases ht : t.kind ∈ [.identifier, .stringLiteral]
    · refine .cons (fun fin us _ => keyed_of_kind ht us) ?_ (.pure t.text ts)
      rintro hinvalid
      rw [hinvalid] at ht
      exact absurd ht (by decide)
    · refine .fail (fun fin us => ?_)
        (blames_errorAt t (.unexpected .identifier t.kind) (by simp))
      rw [keyed, if_neg (by simpa using ht)]

theorem expected_lt {k : Token.Kind} (h : expected fin k ts = .ok (t, rest)) :
    rest.length < ts.length := by
  rw [← plain_expect] at h
  exact plain_eq_ok h

theorem after?_isSome (k : Token.Kind) (ts : List Token) : (after? k ts).isSome = at? k ts := by
  cases ts with
  | nil => rfl
  | cons t ts =>
    rw [after?, at?]
    split <;> simp [*]

theorem after?_lt {k : Token.Kind} (h : after? k ts = some rest) :
    rest.length < ts.length := by
  obtain ⟨t, rfl, -⟩ := after?_eq_some h
  exact Nat.lt_succ_self _

theorem keyed_lt {key : String} (h : keyed fin ts = .ok (key, rest)) :
    rest.length < ts.length := by
  rw [← plain_fieldKey] at h
  exact plain_eq_ok h

/-! ### Expressions -/

/-- Something and the token that closes it. -/
theorem Local.closed {read : Reader α} {f : α → β} {k : Token.Kind} (hk : k ≠ .invalid)
    (h : Local read ts) :
    Local (fun fin us => do
      let (a, rest₁) ← read fin us
      let (_, rest₂) ← expected fin k rest₁
      return (f a, rest₂)) ts := by
  refine h.bind fun _ => ?_
  refine (expected_local hk _).bind fun _ => ?_
  exact .pure _ _

theorem integer_local (ht : t.kind = .integerLiteral) (ts : List Token) :
    Local (fun fin us => plain (primary fin us)) (t :: ts) := by
  refine .congr (fun fin us _ => plain_primary fin us) ?_
  cases hn : Token.integerValue t.text with
  | ok n =>
    refine .cons (fun fin us _ => ?_) (by simp [ht]) (.pure (.int n) ts)
    dsimp only
    rw [ht]
    dsimp only
    rw [hn]
  | error err =>
    refine .fail (fun fin us => ?_) (blames_mk .integerOutOfRange (by simp [ht]) (by simp)
      ⟨ht, err, hn⟩)
    dsimp only
    rw [ht]
    dsimp only
    rw [hn]

theorem float_local (ht : t.kind = .floatLiteral) (ts : List Token) :
    Local (fun fin us => plain (primary fin us)) (t :: ts) := by
  refine .congr (fun fin us _ => plain_primary fin us) ?_
  cases hd : Token.floatValue t.text with
  | ok d =>
    refine .cons (fun fin us _ => ?_) (by simp [ht]) (.pure (.float d) ts)
    dsimp only
    rw [ht]
    dsimp only
    rw [hd]
  | error err =>
    refine .fail (fun fin us => ?_) (blames_mk .invalidFloat (by simp [ht]) (by simp)
      ⟨ht, err, hd⟩)
    dsimp only
    rw [ht]
    dsimp only
    rw [hd]

/-- A name that no parenthesis follows. -/
theorem variable_local (ht : t.kind = .identifier) (h : Lacks .lparen ts) :
    Local (fun fin us => plain (primary fin us)) (t :: ts) := by
  refine .congr (fun fin us _ => plain_primary fin us) ?_
  refine .cons (fun fin us hhead => ?_) (by simp [ht]) (.pure (.var t.text) ts)
  have hnone : after? .lparen us = none := after?_eq_none fun u hu => h u (hhead ▸ hu)
  dsimp only
  rw [ht]
  dsimp only
  rw [hnone]

/-- A name and the parenthesis after it. That no function has the name is seen there. -/
theorem call_local {l : Token} (ht : t.kind = .identifier) (hl : l.kind = .lparen)
    (hargs : Local (fun fin us => plain (list fin .rparen us)) ts) :
    Local (fun fin us => plain (primary fin us)) (t :: l :: ts) := by
  refine .congr (fun fin us _ => plain_primary fin us) ?_
  have hname : t.kind ≠ .invalid := by simp [ht]
  by_cases hknown : Builtin.isKnown t.text
  · refine .cons (fun fin us _ => (plain_primary fin (t :: us)).symm) hname ?_
    refine .cons (fun fin us _ => ?_) (by simp [hl])
      (.closed (f := .call t.text) (k := .rparen) (by decide) hargs)
    rw [plain_primary]
    dsimp only
    rw [ht]
    dsimp only
    rw [after?_of_kind hl]
    exact if_pos hknown
  · refine .unknown t.text (fun fin us => ?_) hname
    dsimp only
    rw [ht]
    dsimp only
    rw [after?_of_kind hl]
    exact if_neg hknown

mutual

theorem expr_local (level : Nat) (ts : List Token) :
    Local (fun fin us => plain (expr fin level us)) ts := by
  refine .congr (fun fin us _ => plain_expr fin level us) ?_
  refine (postfixExpr_local ts).bind fun {fin lhs rest} h => ?_
  have hlt := plain_eq_ok h
  exact operators_local level lhs rest
termination_by 4 * ts.length + 2
decreasing_by all_goals omega

theorem operators_local (level : Nat) (lhs : Expr) (ts : List Token) :
    Local (fun fin us => plain (operators fin level lhs us)) ts := by
  refine .congr (fun fin us _ => plain_operators fin level lhs us) ?_
  cases ts with
  | nil =>
    refine .congr (fun fin us hhead => ?_) (.pure lhs [])
    rw [head?_eq_nil hhead]
  | cons t ts =>
    cases hop : binaryOp? t.kind with
    | none =>
      refine .congr (fun fin us hhead => ?_) (.pure lhs (t :: ts))
      obtain ⟨us, rfl⟩ := head?_eq_cons hhead
      dsimp only
      rw [hop]
    | some op =>
      by_cases hlevel : op.level < level
      · refine .congr (fun fin us hhead => ?_) (.pure lhs (t :: ts))
        obtain ⟨us, rfl⟩ := head?_eq_cons hhead
        dsimp only
        rw [hop]
        exact if_pos hlevel
      · have ht : t.kind ≠ .invalid := by
          rintro hinvalid
          rw [hinvalid] at hop
          cases hop
        refine .cons (fun fin us _ => ?_) ht ((expr_local (op.level + 1) ts).bind
          (g := fun fin r => plain (operators fin level (.binary op lhs r.1) r.2))
          fun {fin rhs rest} h => ?_)
        · dsimp only
          rw [hop]
          exact if_neg hlevel
        · have hlt := plain_eq_ok h
          exact operators_local level (.binary op lhs rhs) rest
termination_by 4 * ts.length
decreasing_by all_goals (simp only [List.length_cons] at *; omega)

theorem postfixExpr_local (ts : List Token) :
    Local (fun fin us => plain (postfixExpr fin us)) ts := by
  refine .congr (fun fin us _ => plain_postfixExpr fin us) ?_
  refine (primary_local ts).bind fun {fin e rest} h => ?_
  have hlt := plain_eq_ok h
  exact suffixes_local e rest
termination_by 4 * ts.length + 1
decreasing_by all_goals omega

theorem suffixes_local (e : Expr) (ts : List Token) :
    Local (fun fin us => plain (suffixes fin e us)) ts := by
  refine .congr (fun fin us _ => plain_suffixes fin e us) ?_
  refine .choose (by decide) ?_ (.choose (by decide) ?_ (.pure e ts))
  · intro us hus
    refine (expr_local 0 us).bind fun {fin i rest} h => ?_
    have hlt := plain_eq_ok h
    refine (expected_local (by decide) rest).bind fun {fin r rest'} h' => ?_
    have hlt' := expected_lt h'
    exact suffixes_local (.index e i) rest'
  · intro us hus
    refine (expected_local (by decide) us).bind fun {fin name rest'} h' => ?_
    have hlt' := expected_lt h'
    exact suffixes_local (.member e name.text) rest'
termination_by 4 * ts.length
decreasing_by all_goals omega

theorem primary_local (ts : List Token) : Local (fun fin us => plain (primary fin us)) ts := by
  refine .congr (fun fin us _ => plain_primary fin us) ?_
  cases ts with
  | nil => exact .ends (fun _ => rfl) (by simp)
  | cons t ts =>
    cases ht : t.kind with
    | stringLiteral =>
      refine .cons (fun fin us _ => ?_) (by simp [ht]) (.pure (.str t.text) ts)
      dsimp only
      rw [ht]
    | kwTrue =>
      refine .cons (fun fin us _ => ?_) (by simp [ht]) (.pure (.bool true) ts)
      dsimp only
      rw [ht]
    | kwFalse =>
      refine .cons (fun fin us _ => ?_) (by simp [ht]) (.pure (.bool false) ts)
      dsimp only
      rw [ht]
    | integerLiteral =>
      exact .congr (fun fin us _ => (plain_primary fin us).symm) (integer_local ht ts)
    | floatLiteral =>
      exact .congr (fun fin us _ => (plain_primary fin us).symm) (float_local ht ts)
    | identifier =>
      refine .congr (fun fin us _ => (plain_primary fin us).symm) ?_
      cases ts with
      | nil => exact variable_local ht nofun
      | cons l ts =>
        by_cases hl : l.kind = .lparen
        · exact call_local ht hl (list_local .rparen ts)
        · exact variable_local ht fun u hu => by
            cases hu
            exact hl
    | lparen =>
      refine .cons (fun fin us _ => ?_) (by simp [ht])
        (.closed (f := id) (k := .rparen) (by decide) (expr_local 0 ts))
      dsimp only
      rw [ht]
      rfl
    | lbracket =>
      refine .cons (fun fin us _ => ?_) (by simp [ht])
        (.closed (f := fun es => .array (hintOf es) es) (k := .rbracket) (by decide)
          (list_local .rbracket ts))
      dsimp only
      rw [ht]
    | lbrace =>
      refine .cons (fun fin us _ => ?_) (by simp [ht])
        (.closed (f := .object) (k := .rbrace) (by decide) (fields_local ts))
      dsimp only
      rw [ht]
    | _ =>
      refine .fail (fun fin us => ?_) (blames_errorAt t (.expectedExpression t.kind) (by simp))
      dsimp only
      rw [ht]
termination_by 4 * ts.length
decreasing_by all_goals (simp only [List.length_cons] at *; omega)

theorem list_local (close : Token.Kind) (ts : List Token) :
    Local (fun fin us => plain (list fin close us)) ts := by
  refine .congr (fun fin us _ => plain_list fin close us) ?_
  refine .ifAt (.pure [] ts) ((expr_local 0 ts).bind fun {fin e rest} h => ?_)
  have hlt := plain_eq_ok h
  refine .unless (by decide) (.pure [e] rest) ?_
  intro us hus
  refine (list_local close us).bind fun _ => ?_
  exact .pure _ _
termination_by 4 * ts.length + 3
decreasing_by all_goals omega

theorem fields_local (ts : List Token) : Local (fun fin us => plain (fields fin us)) ts := by
  refine .congr (fun fin us _ => plain_fields fin us) ?_
  refine .ifAt (.pure [] ts) ((keyed_local ts).bind fun {fin key rest} h => ?_)
  have hlt := keyed_lt h
  refine (expected_local (by decide) rest).bind fun {fin r rest₁} h₁ => ?_
  have hlt₁ := expected_lt h₁
  refine (expr_local 0 rest₁).bind fun {fin e rest₂} h₂ => ?_
  have hlt₂ := plain_eq_ok h₂
  refine .unless (by decide) (.pure [(key, e)] rest₂) ?_
  intro us hus
  refine (fields_local us).bind fun _ => ?_
  exact .pure _ _
termination_by 4 * ts.length
decreasing_by all_goals omega

end

/-! ### Simple statements -/

theorem typeName_local (ts : List Token) : Local (fun fin us => plain (typeName fin us)) ts := by
  refine .congr (fun fin us _ => plain_typeName fin us) ?_
  cases ts with
  | nil => exact .ends (fun _ => rfl) (by simp)
  | cons t ts =>
    by_cases ht : t.kind.isTypeName ∨ t.kind = .identifier
    · have hclean : t.kind ≠ .invalid := by
        rintro hinvalid
        rw [hinvalid] at ht
        exact absurd ht (by decide)
      refine .cons (fun fin us _ => if_pos ht) hclean ?_
      refine .unless (by decide) (.pure t.text ts) fun us _ => ?_
      refine (expected_local (by decide) us).bind fun _ => ?_
      exact .pure _ _
    · exact .fail (fun fin us => if_neg ht)
        (blames_errorAt t (.expectedType t.kind) (by simp))

theorem declaredType_local (ts : List Token) :
    Local (fun fin us => plain (declaredType fin us)) ts := by
  refine .congr (fun fin us _ => plain_declaredType fin us) ?_
  exact .unless (by decide) (.pure auto ts) fun us _ => typeName_local us

theorem initialValue_local (ts : List Token) :
    Local (fun fin us => plain (initialValue fin us)) ts := by
  refine .congr (fun fin us _ => plain_initialValue fin us) ?_
  refine .unless (by decide) (.pure none ts) fun us _ => ?_
  refine (expr_local 0 us).bind fun _ => ?_
  exact .pure _ _

theorem declaration_local (ts : List Token) :
    Local (fun fin us => plain (declaration fin us)) ts := by
  refine .congr (fun fin us _ => plain_declaration fin us) ?_
  refine (expected_local (by decide) ts).bind fun _ => ?_
  refine (declaredType_local _).bind fun _ => ?_
  refine (initialValue_local _).bind fun _ => ?_
  exact .pure _ _

/-- A reader behind a look further ahead that sees whatever the reader reads. Where it
sees nothing the reader would fail as well, only with another error. -/
theorem Local.guard {read : Reader α} {p : List Token → Bool} (h : Local read (t :: rest))
    (hp : ∀ {fin us a rest}, read fin us = .ok (a, rest) → p us = true)
    (blames : Blames e t) (hreach : e.value.reach = none) :
    Local (fun fin us => if p us then read fin us else .error e) (t :: rest) := by
  constructor
  · intro fin a rest' hok
    split at hok
    · obtain ⟨used, hused, hclean, htakes⟩ := h.takes hok
      refine ⟨used, hused, hclean, fun fin' rest'' hhead => ?_⟩
      have hread := htakes fin' rest'' hhead
      dsimp only
      rw [if_pos (hp hread), hread]
    · cases hok
  · intro fin e' herror
    split at herror
    · cases h.faults herror with
      | finish clean blames => exact .finish clean blames
      | token before after t split clean blames doomed =>
        refine .token before after t split clean blames fun n hn fin' more => ?_
        split
        · exact doomed n hn fin' more
        · exact ⟨e, rfl⟩
    · cases herror
      refine .token [] _ t rfl .nil blames fun n hn => ?_
      rw [hreach] at hn
      cases hn

/-- An index in brackets and a new value for the element there. -/
def element (name : String) : Reader Stmt := fun fin ts => do
  let (_, rest₁) ← expected fin .lbracket ts
  let (i, rest₂) ← plain (expr fin 0 rest₁)
  let (_, rest₃) ← expected fin .rbracket rest₂
  let (_, rest₄) ← expected fin .assign rest₃
  let (e, rest₅) ← plain (expr fin 0 rest₄)
  return (.setElement (.var name) i e, rest₅)

theorem element_local (name : String) (ts : List Token) : Local (element name) ts := by
  refine (expected_local (by decide) ts).bind fun _ => ?_
  refine (expr_local 0 _).bind fun _ => ?_
  refine (expected_local (by decide) _).bind fun _ => ?_
  refine (expected_local (by decide) _).bind fun _ => ?_
  refine (expr_local 0 _).bind fun _ => ?_
  exact .pure _ _

theorem assignsElement_of_element {name : String} {s : Stmt}
    (h : element name fin ts = .ok (s, rest)) : assignsElement 0 ts = true := by
  obtain ⟨l, rest₁, rfl, hl, h₁⟩ := expected_bind_eq_ok h
  obtain ⟨⟨i, rest₂⟩, hi, h₂⟩ := bind_eq_ok h₁
  obtain ⟨r, rest₃, rfl, hr, h₃⟩ := expected_bind_eq_ok h₂
  obtain ⟨a, rest₄, rfl, ha, -⟩ := expected_bind_eq_ok h₃
  obtain ⟨used, rfl, hspells⟩ := spells_sound hi
  exact assignsElement_of_spells hl hspells hr ha rest₄

/-- A statement that starts with a name, from the name on. -/
def named : Reader Stmt
  | fin, [] => .error (errorAt fin (.expectedStatement fin.kind))
  | fin, t :: ts => plain (simple fin t ts)

theorem named_local (ht : t.kind = .identifier) (ts : List Token) : Local named (t :: ts) := by
  have hclean : t.kind ≠ .invalid := by simp [ht]
  by_cases hknown : Builtin.isKnown t.text
  · refine .congr (fun fin us hhead => ?_) ((expr_local 0 (t :: ts)).bind
      (g := fun fin (e, rest) => .ok (.expr e, rest)) fun _ => .pure _ _)
    obtain ⟨us, rfl⟩ := head?_eq_cons hhead
    rw [named, plain_simple, if_pos hknown]
    rfl
  · have hnamed (fin : Token) (us : List Token) :=
      (plain_simple fin t us).trans (if_neg hknown)
    cases ts with
    | nil =>
      refine .cons (g := fun fin _ => .error (errorAt fin (.unexpected .assign fin.kind)))
        (fun fin us hhead => ?_) hclean (.ends (fun _ => rfl) (by simp))
      rw [head?_eq_nil hhead, named, hnamed]
    | cons l ts =>
      have htail (fin : Token) (us : List Token) (hhead : us.head? = (l :: ts).head?) :
          named fin (t :: us) = plain (simple fin t us) := rfl
      cases hl : l.kind with
      | assign =>
        refine .cons htail hclean (.cons (fun fin us _ => ?_) (by simp [hl])
          ((expr_local 0 ts).bind (g := fun fin (e, rest) => .ok (.assign t.text e, rest))
            fun _ => .pure _ _))
        rw [hnamed]
        dsimp only
        rw [hl]
        rfl
      | plusPlus =>
        refine .cons htail hclean (.cons (fun fin us _ => ?_) (by simp [hl])
          (.pure (.assign t.text (.binary .add (.var t.text) (.int 1))) ts))
        rw [hnamed]
        dsimp only
        rw [hl]
      | minusMinus =>
        refine .cons htail hclean (.cons (fun fin us _ => ?_) (by simp [hl])
          (.pure (.assign t.text (.binary .sub (.var t.text) (.int 1))) ts))
        rw [hnamed]
        dsimp only
        rw [hl]
      | lbracket =>
        refine .cons (fun fin us hhead => ?_) hclean (.guard (p := assignsElement 0)
          (e := ⟨.bareIndexExpression, l.span⟩) (element_local t.text (l :: ts))
          assignsElement_of_element (blames_mk _ (by simp [hl]) (by simp)) rfl)
        obtain ⟨us, rfl⟩ := head?_eq_cons hhead
        rw [named, hnamed, element, expected_of_kind hl]
        dsimp only
        rw [hl]
        rfl
      | lparen =>
        refine .unknown t.text (fun fin us => ?_) hclean
        rw [named, hnamed]
        dsimp only
        rw [hl]
      | _ =>
        refine .cons htail hclean (.fail (fun fin us => ?_)
          (blames_errorAt l (.unexpected .assign l.kind) (by simp)))
        rw [hnamed]
        dsimp only
        rw [hl]

theorem clause_local (ts : List Token) : Local (fun fin us => plain (clause fin us)) ts := by
  refine .congr (fun fin us _ => plain_clause fin us) ?_
  cases ts with
  | nil => exact .ends (fun _ => rfl) (by simp)
  | cons t ts =>
    cases ht : t.kind with
    | kwLet | kwConst | kwVar =>
      refine .cons (fun fin us _ => ?_) (by simp [ht]) (declaration_local ts)
      dsimp only
      rw [ht]
    | identifier =>
      refine .congr (fun fin us hhead => ?_) (named_local ht ts)
      obtain ⟨us, rfl⟩ := head?_eq_cons hhead
      dsimp only
      rw [ht]
      rfl
    | _ =>
      refine .fail (fun fin us => ?_) (blames_errorAt t (.expectedStatement t.kind) (by simp))
      dsimp only
      rw [ht]

theorem optional_local {k : Token.Kind}
    {read : (fin : Token) → (us : List Token) → Result (α × Shorter us)}
    (h : Local (fun fin us => plain (read fin us)) ts) :
    Local (fun fin us => plain (optional k us (read fin us))) ts := by
  refine .congr (fun fin us _ => plain_optional k us (read fin us)) ?_
  refine .ifAt (.pure none ts) (h.bind fun _ => ?_)
  exact .pure _ _

theorem parenthesized_local (ts : List Token) :
    Local (fun fin us => plain (parenthesized fin us)) ts := by
  refine .congr (fun fin us _ => plain_parenthesized fin us) ?_
  refine (expected_local (by decide) ts).bind fun _ => ?_
  exact .closed (f := id) (k := .rparen) (by decide) (expr_local 0 _)

theorem forClauses_local (ts : List Token) :
    Local (fun fin us => plain (forClauses fin us)) ts := by
  refine .congr (fun fin us _ => plain_forClauses fin us) ?_
  refine (expected_local (by decide) ts).bind fun _ => ?_
  refine (optional_local (clause_local _)).bind fun _ => ?_
  refine (expected_local (by decide) _).bind fun _ => ?_
  refine (optional_local (expr_local 0 _)).bind fun _ => ?_
  refine (expected_local (by decide) _).bind fun _ => ?_
  refine (optional_local (clause_local _)).bind fun _ => ?_
  refine (expected_local (by decide) _).bind fun _ => ?_
  exact .pure _ _

/-! ### Statements -/

mutual

theorem stmt_local (ts : List Token) : Local (fun fin us => plain (stmt fin us)) ts := by
  refine .congr (fun fin us _ => plain_stmt fin us) ?_
  cases ts with
  | nil => exact .ends (fun _ => rfl) (by simp)
  | cons t ts =>
    cases ht : t.kind with
    | kwLet | kwConst | kwVar =>
      refine .cons (fun fin us _ => ?_) (by simp [ht])
        (.closed (f := id) (k := .semicolon) (by decide) (declaration_local ts))
      dsimp only
      rw [ht]
      rfl
    | kwIf =>
      refine .cons (fun fin us _ => ?_) (by simp [ht]) (branch_local ts)
      dsimp only
      rw [ht]
    | kwWhile =>
      refine .cons (fun fin us _ => ?_) (by simp [ht]) ((parenthesized_local ts).bind
        (g := fun fin (cond, rest₁) => do
          let (body, rest₂) ← plain (block fin rest₁)
          return (.loopWhile cond body, rest₂)) fun {fin cond rest} h => ?_)
      · dsimp only
        rw [ht]
      · have hlt := plain_eq_ok h
        refine (block_local rest).bind fun _ => ?_
        exact .pure _ _
    | kwDo =>
      refine .cons (fun fin us _ => ?_) (by simp [ht]) ((block_local ts).bind
        (g := fun fin (body, rest₁) => do
          let (_, rest₂) ← expected fin .kwWhile rest₁
          let (cond, rest₃) ← plain (parenthesized fin rest₂)
          let (_, rest₄) ← expected fin .semicolon rest₃
          return (.doWhile body cond, rest₄)) fun {fin body rest} _ => ?_)
      · dsimp only
        rw [ht]
      · refine (expected_local (by decide) _).bind fun _ => ?_
        exact .closed (f := Stmt.doWhile body) (k := .semicolon) (by decide) (parenthesized_local _)
    | kwFor =>
      refine .cons (fun fin us _ => ?_) (by simp [ht]) ((forClauses_local ts).bind
        (g := fun fin ((init, cond, step), rest₁) => do
          let (body, rest₂) ← plain (block fin rest₁)
          return (.loopFor init cond step body, rest₂)) fun {fin clauses rest} h => ?_)
      · dsimp only
        rw [ht]
      · have hlt := plain_eq_ok h
        refine (block_local rest).bind fun _ => ?_
        exact .pure _ _
    | identifier =>
      refine .congr (fun fin us hhead => ?_)
        (.closed (f := id) (k := .semicolon) (by decide) (named_local ht ts))
      obtain ⟨us, rfl⟩ := head?_eq_cons hhead
      dsimp only
      rw [ht]
      rfl
    | _ =>
      refine .fail (fun fin us => ?_) (blames_errorAt t (.expectedStatement t.kind) (by simp))
      dsimp only
      rw [ht]
termination_by 2 * ts.length
decreasing_by all_goals (simp only [List.length_cons] at *; omega)

theorem branch_local (ts : List Token) : Local (fun fin us => plain (branch fin us)) ts := by
  refine .congr (fun fin us _ => plain_branch fin us) ?_
  refine (parenthesized_local ts).bind fun {fin cond rest₁} h₁ => ?_
  have hlt₁ := plain_eq_ok h₁
  refine (block_local rest₁).bind fun {fin yes rest₂} h₂ => ?_
  have hlt₂ := plain_eq_ok h₂
  refine .unless (by decide) (.pure _ rest₂) fun us hus => ?_
  refine .choose (by decide) (fun vs hvs => ?_) ((block_local us).bind fun _ => .pure _ _)
  exact (branch_local vs).bind fun _ => .pure _ _
termination_by 2 * ts.length
decreasing_by all_goals omega

theorem block_local (ts : List Token) : Local (fun fin us => plain (block fin us)) ts := by
  refine .congr (fun fin us _ => plain_block fin us) ?_
  refine (expected_local (by decide) ts).bind fun {fin l rest} h => ?_
  have hlt := expected_lt h
  exact .closed (f := id) (k := .rbrace) (by decide) (stmts_local rest)
termination_by 2 * ts.length
decreasing_by all_goals omega

theorem stmts_local (ts : List Token) : Local (fun fin us => plain (stmts fin us)) ts := by
  refine .congr (fun fin us _ => plain_stmts fin us) ?_
  cases ts with
  | nil =>
    refine .congr (fun fin us hhead => ?_) (.pure [] [])
    rw [head?_eq_nil hhead]
  | cons t ts =>
    by_cases ht : t.kind = .rbrace
    · refine .congr (fun fin us hhead => ?_) (.pure [] (t :: ts))
      obtain ⟨us, rfl⟩ := head?_eq_cons hhead
      exact if_pos ht
    · refine .congr (fun fin us hhead => ?_) ((stmt_local (t :: ts)).bind
        (g := fun fin (s, rest₁) => do
          let (ss, rest₂) ← plain (stmts fin rest₁)
          return (s :: ss, rest₂)) fun {fin s rest} h => ?_)
      · obtain ⟨us, rfl⟩ := head?_eq_cons hhead
        exact if_neg ht
      · have hlt := plain_eq_ok h
        refine (stmts_local rest).bind fun _ => ?_
        exact .pure _ _
termination_by 2 * ts.length + 1
decreasing_by all_goals omega

end

/-- All statements, which leave nothing. -/
def whole : Reader Program := fun fin ts => do
  let ss ← program fin ts
  return (ss, [])

theorem whole_cons (fin t : Token) (us : List Token) :
    whole fin (t :: us) = do
      let (s, rest) ← plain (stmt fin (t :: us))
      let (ss, rest') ← whole fin rest
      return (s :: ss, rest') := by
  rw [whole, program_eq]
  dsimp only
  cases plain (stmt fin (t :: us)) with
  | error e => rfl
  | ok r =>
    simp only [whole, bind, Except.bind]
    cases program fin r.2 <;> rfl

theorem whole_local (ts : List Token) : Local whole ts := by
  cases ts with
  | nil =>
    refine .congr (fun fin us hhead => ?_) (.pure [] [])
    rw [head?_eq_nil hhead, whole, program_eq]
    rfl
  | cons t ts =>
    refine .congr (fun fin us hhead => ?_) ((stmt_local (t :: ts)).bind
      (g := fun fin (s, rest₁) => do
        let (ss, rest₂) ← whole fin rest₁
        return (s :: ss, rest₂)) fun {fin s rest} h => ?_)
    · obtain ⟨us, rfl⟩ := head?_eq_cons hhead
      exact whole_cons fin t us
    · have hlt := plain_eq_ok h
      refine (whole_local rest).bind fun _ => ?_
      exact .pure _ _
termination_by ts.length
decreasing_by exact hlt

end Parser

end TinyScript.Ast
