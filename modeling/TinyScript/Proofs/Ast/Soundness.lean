import TinyScript.Proofs.Ast.Grammar
import TinyScript.Proofs.Ast.Readers

/-! What the readers accept is the grammar's. Each reader takes tokens off the front
that spell what it returns. The readers recurse on what is left, and so do the proofs,
in the same order. The one that needs more is the reader of operators: what it has read
so far may stand to the left of the next operator, because that one binds no tighter
than the last. -/

namespace TinyScript.Ast.Parser

open Grammar

variable {α β : Type} {fin : Token} {ts rest : List Token}

theorem bind_eq_ok {x : Result α} {f : α → Result β} {b : β} (h : (x >>= f) = .ok b) :
    ∃ a, x = .ok a ∧ f a = .ok b := by
  cases x with
  | error e => cases h
  | ok a => exact ⟨a, rfl, h⟩

theorem expected_bind_eq_ok {k : Token.Kind} {f : Token × List Token → Result β} {b : β}
    (h : (expected fin k ts >>= f) = .ok b) :
    ∃ t rest, ts = t :: rest ∧ t.kind = k ∧ f (t, rest) = .ok b := by
  cases ts with
  | nil => cases h
  | cons u us =>
    rw [expected] at h
    split at h
    · rename_i hk
      exact ⟨u, us, rfl, hk, h⟩
    · cases h

theorem after?_eq_some {k : Token.Kind} (h : after? k ts = some rest) :
    ∃ t, ts = t :: rest ∧ t.kind = k := by
  cases ts with
  | nil => cases h
  | cons u us =>
    rw [after?] at h
    split at h
    · rename_i hk
      cases h
      exact ⟨u, rfl, hk⟩
    · cases h

theorem keyed_eq_ok {key : String} (h : keyed fin ts = .ok (key, rest)) :
    ∃ k, ts = k :: rest ∧ k.text = key ∧ k.kind ∈ [.identifier, .stringLiteral] := by
  cases ts with
  | nil => cases h
  | cons u us =>
    rw [keyed] at h
    split at h
    · rename_i hk
      cases h
      exact ⟨u, rfl, rfl, by simpa using hk⟩
    · cases h

/-- Tokens taken off the front, leaving the rest. -/
def Took (P : List Token → Prop) (ts rest : List Token) : Prop :=
  ∃ used, ts = used ++ rest ∧ P used

/-- No operator of a level comes next. -/
def Stops (level : Nat) (ts : List Token) : Prop :=
  ∀ t ∈ ts.head?, ∀ op, binaryOp? t.kind = some op → op.level < level

theorem Took.of_eq {P : List Token → Prop} {ts ts' rest : List Token} (h : Took P ts rest)
    (hts : ts = ts') : Took P ts' rest := hts ▸ h

/-! ### Expressions -/

mutual

theorem expr_sound {level : Nat} {ts rest : List Token} {e : Expr}
    (h : plain (expr fin level ts) = .ok (e, rest)) :
    Took (Derives (.ranked level e)) ts rest ∧ Stops level rest := by
  rw [plain_expr] at h
  obtain ⟨⟨lhs, rest₁⟩, hlhs, h₁⟩ := bind_eq_ok h
  have hlt := plain_eq_ok hlhs
  obtain ⟨used, rfl, hused⟩ := postfixExpr_sound hlhs
  have hstart : Stops (level + 5) rest₁ := by
    intro t _ op _
    cases op <;> simp only [BinaryOp.level] <;> omega
  exact operators_sound (hused.suffixed (level + 4)) (by omega) hstart h₁
termination_by 4 * ts.length + 2

/-- What has been read binds at least as tightly as `m`, and no operator that binds
tighter comes next. -/
theorem operators_sound {level m : Nat} {ts rest before : List Token} {lhs e : Expr}
    (hlhs : Derives (.ranked m lhs) before) (hm : level ≤ m) (hstops : Stops (m + 1) ts)
    (h : plain (operators fin level lhs ts) = .ok (e, rest)) :
    Took (Derives (.ranked level e)) (before ++ ts) rest ∧ Stops level rest := by
  rw [plain_operators] at h
  cases ts with
  | nil =>
    cases h
    exact ⟨⟨before, rfl, hlhs.ranked_le hm⟩, nofun⟩
  | cons t ts =>
    dsimp only at h
    cases hop : binaryOp? t.kind with
    | none =>
      rw [hop] at h
      cases h
      refine ⟨⟨before, rfl, hlhs.ranked_le hm⟩, ?_⟩
      rintro u ⟨⟩ op hop'
      rw [hop] at hop'
      cases hop'
    | some op =>
      rw [hop] at h
      dsimp only at h
      split at h
      · rename_i hlevel
        cases h
        refine ⟨⟨before, rfl, hlhs.ranked_le hm⟩, ?_⟩
        rintro u ⟨⟩ op' hop'
        rw [hop] at hop'
        cases hop'
        exact hlevel
      · rename_i hlevel
        obtain ⟨⟨rhs, rest₁⟩, hrhs, h₁⟩ := bind_eq_ok h
        have hlt := plain_eq_ok hrhs
        obtain ⟨⟨used, rfl, hused⟩, hstops₁⟩ := expr_sound hrhs
        have hle : op.level ≤ m := Nat.le_of_lt_succ (hstops t rfl op hop)
        have hbinary := Derives.binary (hlhs.ranked_le hle) (binaryOp?_eq_some.1 hop) hused
        obtain ⟨htook, hstops'⟩ := operators_sound hbinary (by omega) hstops₁ h₁
        exact ⟨htook.of_eq (by simp), hstops'⟩
termination_by 4 * ts.length

theorem postfixExpr_sound {ts rest : List Token} {e : Expr}
    (h : plain (postfixExpr fin ts) = .ok (e, rest)) : Took (Derives (.suffixed e)) ts rest := by
  rw [plain_postfixExpr] at h
  obtain ⟨⟨e₀, rest₁⟩, he₀, h₁⟩ := bind_eq_ok h
  have hlt := plain_eq_ok he₀
  obtain ⟨used, rfl, hused⟩ := primary_sound he₀
  exact suffixes_sound (.ofPrimary hused) h₁
termination_by 4 * ts.length + 1

theorem suffixes_sound {ts rest before : List Token} {e e' : Expr}
    (he : Derives (.suffixed e) before) (h : plain (suffixes fin e ts) = .ok (e', rest)) :
    Took (Derives (.suffixed e')) (before ++ ts) rest := by
  rw [plain_suffixes] at h
  split at h
  · rename_i rest₁ hafter
    obtain ⟨l, rfl, hl⟩ := after?_eq_some hafter
    obtain ⟨⟨i, rest₂⟩, hi, h₁⟩ := bind_eq_ok h
    have hlt := plain_eq_ok hi
    obtain ⟨⟨used, rfl, hused⟩, -⟩ := expr_sound hi
    obtain ⟨r, rest₃, rfl, hr, h₂⟩ := expected_bind_eq_ok h₁
    exact (suffixes_sound (.index he hl hused hr) h₂).of_eq (by simp)
  · split at h
    · rename_i rest₁ hafter
      obtain ⟨l, rfl, hl⟩ := after?_eq_some hafter
      obtain ⟨name, rest₂, rfl, hname, h₁⟩ := expected_bind_eq_ok h
      exact (suffixes_sound (.member he hl hname) h₁).of_eq (by simp)
    · cases h
      exact ⟨before, rfl, he⟩
termination_by 4 * ts.length

theorem primary_sound {ts rest : List Token} {e : Expr}
    (h : plain (primary fin ts) = .ok (e, rest)) : Took (Derives (.primary e)) ts rest := by
  rw [plain_primary] at h
  cases ts with
  | nil => cases h
  | cons t ts =>
    dsimp only at h
    split at h
    · rename_i ht
      cases h
      exact ⟨[t], rfl, .str ht⟩
    · rename_i ht
      split at h
      · rename_i hn
        cases h
        exact ⟨[t], rfl, .int ht hn⟩
      · cases h
    · rename_i ht
      split at h
      · rename_i hd
        cases h
        exact ⟨[t], rfl, .float ht hd⟩
      · cases h
    · rename_i ht
      cases h
      exact ⟨[t], rfl, .yes ht⟩
    · rename_i ht
      cases h
      exact ⟨[t], rfl, .no ht⟩
    · rename_i ht
      split at h
      · cases h
        exact ⟨[t], rfl, .var ht⟩
      · rename_i args hafter
        obtain ⟨l, rfl, hl⟩ := after?_eq_some hafter
        split at h
        · rename_i hknown
          obtain ⟨⟨es, rest₁⟩, hes, h₁⟩ := bind_eq_ok h
          obtain ⟨used, rfl, hused⟩ := list_sound hes
          obtain ⟨r, rest₂, rfl, hr, h₂⟩ := expected_bind_eq_ok h₁
          cases h₂
          exact ⟨t :: l :: (used ++ [r]), by simp, .call ht hknown hl hused hr⟩
        · cases h
    · rename_i ht
      obtain ⟨⟨e', rest₁⟩, he', h₁⟩ := bind_eq_ok h
      obtain ⟨⟨used, rfl, hused⟩, -⟩ := expr_sound he'
      obtain ⟨r, rest₂, rfl, hr, h₂⟩ := expected_bind_eq_ok h₁
      cases h₂
      exact ⟨t :: (used ++ [r]), by simp, .group ht hused hr⟩
    · rename_i ht
      obtain ⟨⟨es, rest₁⟩, hes, h₁⟩ := bind_eq_ok h
      obtain ⟨used, rfl, hused⟩ := list_sound hes
      obtain ⟨r, rest₂, rfl, hr, h₂⟩ := expected_bind_eq_ok h₁
      cases h₂
      rw [hintOf_eq]
      exact ⟨t :: (used ++ [r]), by simp, .array ht hused hr⟩
    · rename_i ht
      obtain ⟨⟨fs, rest₁⟩, hfs, h₁⟩ := bind_eq_ok h
      obtain ⟨used, rfl, hused⟩ := fields_sound hfs
      obtain ⟨r, rest₂, rfl, hr, h₂⟩ := expected_bind_eq_ok h₁
      cases h₂
      exact ⟨t :: (used ++ [r]), by simp, .object ht hused hr⟩
    · cases h
termination_by 4 * ts.length

theorem list_sound {close : Token.Kind} {ts rest : List Token} {es : List Expr}
    (h : plain (list fin close ts) = .ok (es, rest)) : Took (Derives (.items es)) ts rest := by
  rw [plain_list] at h
  split at h
  · cases h
    exact ⟨[], rfl, .noItems⟩
  · obtain ⟨⟨e, rest₁⟩, he, h₁⟩ := bind_eq_ok h
    have hlt := plain_eq_ok he
    obtain ⟨⟨used, rfl, hused⟩, -⟩ := expr_sound he
    dsimp only at h₁
    split at h₁
    · cases h₁
      exact ⟨used, rfl, .lastItem hused⟩
    · rename_i rest₂ hafter
      obtain ⟨t, rfl, ht⟩ := after?_eq_some hafter
      obtain ⟨⟨es', rest₃⟩, hes', h₂⟩ := bind_eq_ok h₁
      obtain ⟨used', rfl, hused'⟩ := list_sound hes'
      cases h₂
      exact ⟨used ++ t :: used', by simp, .item hused ht hused'⟩
termination_by 4 * ts.length + 3

theorem fields_sound {ts rest : List Token} {fs : List (String × Expr)}
    (h : plain (fields fin ts) = .ok (fs, rest)) : Took (Derives (.fields fs)) ts rest := by
  rw [plain_fields] at h
  split at h
  · cases h
    exact ⟨[], rfl, .noFields⟩
  · obtain ⟨⟨key, rest₀⟩, hkey, h₁⟩ := bind_eq_ok h
    obtain ⟨k, rfl, rfl, hk⟩ := keyed_eq_ok hkey
    obtain ⟨l, rest₁, rfl, hl, h₂⟩ := expected_bind_eq_ok h₁
    obtain ⟨⟨e, rest₂⟩, he, h₃⟩ := bind_eq_ok h₂
    have hlt := plain_eq_ok he
    obtain ⟨⟨used, rfl, hused⟩, -⟩ := expr_sound he
    dsimp only at h₃
    split at h₃
    · cases h₃
      exact ⟨k :: l :: used, rfl, .lastField hk hl hused⟩
    · rename_i rest₃ hafter
      obtain ⟨t, rfl, ht⟩ := after?_eq_some hafter
      obtain ⟨⟨fs', rest₄⟩, hfs', h₄⟩ := bind_eq_ok h₃
      obtain ⟨used', rfl, hused'⟩ := fields_sound hfs'
      cases h₄
      exact ⟨k :: l :: (used ++ t :: used'), by simp, .field hk hl hused ht hused'⟩
termination_by 4 * ts.length

end

theorem spells_sound {e : Expr} (h : plain (expr fin 0 ts) = .ok (e, rest)) :
    Took (Spells e) ts rest :=
  (expr_sound h).1

/-! ### Simple statements -/

theorem typeName_sound {type : String} (h : plain (typeName fin ts) = .ok (type, rest)) :
    Took (TypeName type) ts rest := by
  rw [plain_typeName] at h
  cases ts with
  | nil => cases h
  | cons t ts =>
    dsimp only at h
    split at h
    · rename_i hkind
      have ht : t.kind ∈ [.tyNumber, .tyString, .tyBoolean, .tyI32, .tyF64, .identifier] := by
        revert hkind
        cases t.kind <;> decide
      split at h
      · cases h
        exact ⟨[t], rfl, .scalar ht⟩
      · rename_i rest₁ hafter
        obtain ⟨l, rfl, hl⟩ := after?_eq_some hafter
        obtain ⟨r, rest₂, rfl, hr, h₁⟩ := expected_bind_eq_ok h
        cases h₁
        exact ⟨[t, l, r], rfl, .array ht hl hr⟩
    · cases h

theorem declaredType_sound {type : String} (h : plain (declaredType fin ts) = .ok (type, rest)) :
    Took (Annotated type) ts rest := by
  rw [plain_declaredType] at h
  split at h
  · cases h
    exact ⟨[], rfl, .none⟩
  · rename_i rest₁ hafter
    obtain ⟨t, rfl, ht⟩ := after?_eq_some hafter
    obtain ⟨used, rfl, hused⟩ := typeName_sound h
    exact ⟨t :: used, rfl, .some ht hused⟩

theorem initialValue_sound {init : Option Expr}
    (h : plain (initialValue fin ts) = .ok (init, rest)) :
    Took (Perhaps Initial init) ts rest := by
  rw [plain_initialValue] at h
  split at h
  · cases h
    exact ⟨[], rfl, .none⟩
  · rename_i rest₁ hafter
    obtain ⟨t, rfl, ht⟩ := after?_eq_some hafter
    obtain ⟨⟨e, rest₂⟩, he, h₁⟩ := bind_eq_ok h
    obtain ⟨used, rfl, hused⟩ := spells_sound he
    cases h₁
    exact ⟨t :: used, rfl, .some (.mk ht hused)⟩

theorem declaration_sound {k : Token} {s : Stmt} (hk : k.kind ∈ [.kwLet, .kwConst, .kwVar])
    (h : plain (declaration fin ts) = .ok (s, rest)) : Took (Declaration s) (k :: ts) rest := by
  rw [plain_declaration] at h
  obtain ⟨name, rest₁, rfl, hname, h₁⟩ := expected_bind_eq_ok h
  obtain ⟨⟨type, rest₂⟩, htype, h₂⟩ := bind_eq_ok h₁
  obtain ⟨used, rfl, hused⟩ := declaredType_sound htype
  obtain ⟨⟨init, rest₃⟩, hinit, h₃⟩ := bind_eq_ok h₂
  obtain ⟨used', rfl, hused'⟩ := initialValue_sound hinit
  cases h₃
  exact ⟨k :: name :: (used ++ used'), by simp, .mk hk hname hused hused'⟩

theorem simple_sound {name : Token} {s : Stmt} (hname : name.kind = .identifier)
    (h : plain (simple fin name ts) = .ok (s, rest)) : Took (Simple s) (name :: ts) rest := by
  rw [plain_simple] at h
  split at h
  · rename_i hknown
    obtain ⟨⟨e, rest₁⟩, he, h₁⟩ := bind_eq_ok h
    have hlt := plain_eq_ok he
    obtain ⟨used, hts, hused⟩ := spells_sound he
    cases h₁
    cases used with
    | nil =>
      rw [hts] at hlt
      exact absurd hlt (Nat.lt_irrefl _)
    | cons u used =>
      cases hts
      exact ⟨name :: used, rfl, .known hname hknown hused⟩
  · rename_i hknown
    cases ts with
    | nil => cases h
    | cons t ts =>
      dsimp only at h
      split at h
      · rename_i ht
        obtain ⟨⟨e, rest₁⟩, he, h₁⟩ := bind_eq_ok h
        obtain ⟨used, rfl, hused⟩ := spells_sound he
        cases h₁
        exact ⟨name :: t :: used, rfl, .assign hname hknown ht hused⟩
      · rename_i ht
        cases h
        exact ⟨[name, t], rfl, .increment hname hknown ht⟩
      · rename_i ht
        cases h
        exact ⟨[name, t], rfl, .decrement hname hknown ht⟩
      · rename_i ht
        split at h
        · obtain ⟨⟨i, rest₁⟩, hi, h₁⟩ := bind_eq_ok h
          obtain ⟨used, rfl, hused⟩ := spells_sound hi
          obtain ⟨r, rest₂, rfl, hr, h₂⟩ := expected_bind_eq_ok h₁
          obtain ⟨u, rest₃, rfl, hu, h₃⟩ := expected_bind_eq_ok h₂
          obtain ⟨⟨e, rest₄⟩, he, h₄⟩ := bind_eq_ok h₃
          obtain ⟨used', rfl, hused'⟩ := spells_sound he
          cases h₄
          exact ⟨name :: t :: (used ++ r :: u :: used'), by simp,
            .setElement hname hknown ht hused hr hu hused'⟩
        · cases h
      · cases h
      · cases h

theorem clause_sound {s : Stmt} (h : plain (clause fin ts) = .ok (s, rest)) :
    Took (Clause s) ts rest := by
  rw [plain_clause] at h
  cases ts with
  | nil => cases h
  | cons t ts =>
    have of_declaration (hk : t.kind ∈ [.kwLet, .kwConst, .kwVar])
        (h : plain (declaration fin ts) = .ok (s, rest)) : Took (Clause s) (t :: ts) rest := by
      obtain ⟨used, hts, hused⟩ := declaration_sound hk h
      exact ⟨used, hts, .declaration hused⟩
    dsimp only at h
    split at h
    · rename_i ht
      exact of_declaration (by simp [ht]) h
    · rename_i ht
      exact of_declaration (by simp [ht]) h
    · rename_i ht
      exact of_declaration (by simp [ht]) h
    · rename_i ht
      obtain ⟨used, hts, hused⟩ := simple_sound ht h
      exact ⟨used, hts, .simple hused⟩
    · cases h

theorem optional_sound {k : Token.Kind} {read : Result (α × Shorter ts)} {o : Option α}
    {R : α → List Token → Prop} (hread : ∀ a rest, plain read = .ok (a, rest) → Took (R a) ts rest)
    (h : plain (optional k ts read) = .ok (o, rest)) : Took (Perhaps R o) ts rest := by
  rw [plain_optional] at h
  split at h
  · cases h
    exact ⟨[], rfl, .none⟩
  · obtain ⟨⟨a, rest₁⟩, ha, h₁⟩ := bind_eq_ok h
    obtain ⟨used, hts, hused⟩ := hread a rest₁ ha
    cases h₁
    exact ⟨used, hts, .some hused⟩

theorem parenthesized_sound {e : Expr} (h : plain (parenthesized fin ts) = .ok (e, rest)) :
    Took (Parenthesized e) ts rest := by
  rw [plain_parenthesized] at h
  obtain ⟨l, rest₁, rfl, hl, h₁⟩ := expected_bind_eq_ok h
  obtain ⟨⟨e', rest₂⟩, he, h₂⟩ := bind_eq_ok h₁
  obtain ⟨used, rfl, hused⟩ := spells_sound he
  obtain ⟨r, rest₃, rfl, hr, h₃⟩ := expected_bind_eq_ok h₂
  cases h₃
  exact ⟨l :: (used ++ [r]), by simp, .mk hl hused hr⟩

theorem forClauses_sound {clauses : Option Stmt × Option Expr × Option Stmt}
    (h : plain (forClauses fin ts) = .ok (clauses, rest)) : Took (ForClauses clauses) ts rest := by
  rw [plain_forClauses] at h
  obtain ⟨l, rest₁, rfl, hl, h₁⟩ := expected_bind_eq_ok h
  obtain ⟨⟨init, rest₂⟩, hinit, h₂⟩ := bind_eq_ok h₁
  obtain ⟨used, rfl, hused⟩ := optional_sound (fun _ _ => clause_sound) hinit
  obtain ⟨t, rest₃, rfl, ht, h₃⟩ := expected_bind_eq_ok h₂
  obtain ⟨⟨cond, rest₄⟩, hcond, h₄⟩ := bind_eq_ok h₃
  obtain ⟨used', rfl, hused'⟩ := optional_sound (fun _ _ => spells_sound) hcond
  obtain ⟨t', rest₅, rfl, ht', h₅⟩ := expected_bind_eq_ok h₄
  obtain ⟨⟨step, rest₆⟩, hstep, h₆⟩ := bind_eq_ok h₅
  obtain ⟨used'', rfl, hused''⟩ := optional_sound (fun _ _ => clause_sound) hstep
  obtain ⟨r, rest₇, rfl, hr, h₇⟩ := expected_bind_eq_ok h₆
  cases h₇
  exact ⟨l :: (used ++ t :: (used' ++ t' :: (used'' ++ [r]))), by simp,
    .mk hl hused ht hused' ht' hused'' hr⟩

/-! ### Statements -/

mutual

theorem stmt_sound {ts rest : List Token} {s : Stmt} (h : plain (stmt fin ts) = .ok (s, rest)) :
    Took (Composes (.statement s)) ts rest := by
  rw [plain_stmt] at h
  cases ts with
  | nil => cases h
  | cons t ts =>
    have of_declaration (hk : t.kind ∈ [.kwLet, .kwConst, .kwVar])
        (h : (do
          let (s, rest₁) ← plain (declaration fin ts)
          let (_, rest₂) ← expected fin .semicolon rest₁
          return (s, rest₂)) = .ok (s, rest)) : Took (Composes (.statement s)) (t :: ts) rest := by
      obtain ⟨⟨s', rest₁⟩, hs, h₁⟩ := bind_eq_ok h
      obtain ⟨used, hts, hused⟩ := declaration_sound hk hs
      obtain ⟨u, rest₂, rfl, hu, h₂⟩ := expected_bind_eq_ok h₁
      cases h₂
      exact ⟨used ++ [u], by simpa using hts, .declaration hused hu⟩
    dsimp only at h
    split at h
    · rename_i ht
      exact of_declaration (by simp [ht]) h
    · rename_i ht
      exact of_declaration (by simp [ht]) h
    · rename_i ht
      exact of_declaration (by simp [ht]) h
    · rename_i ht
      obtain ⟨used, rfl, hused⟩ := branch_sound h
      exact ⟨t :: used, rfl, .branch ht hused⟩
    · rename_i ht
      obtain ⟨⟨cond, rest₁⟩, hcond, h₁⟩ := bind_eq_ok h
      have hlt := plain_eq_ok hcond
      obtain ⟨used, rfl, hused⟩ := parenthesized_sound hcond
      obtain ⟨⟨body, rest₂⟩, hbody, h₂⟩ := bind_eq_ok h₁
      obtain ⟨used', rfl, hused'⟩ := block_sound hbody
      cases h₂
      exact ⟨t :: (used ++ used'), by simp, .loopWhile ht hused hused'⟩
    · rename_i ht
      obtain ⟨⟨body, rest₁⟩, hbody, h₁⟩ := bind_eq_ok h
      obtain ⟨used, rfl, hused⟩ := block_sound hbody
      obtain ⟨l, rest₂, rfl, hl, h₂⟩ := expected_bind_eq_ok h₁
      obtain ⟨⟨cond, rest₃⟩, hcond, h₃⟩ := bind_eq_ok h₂
      obtain ⟨used', rfl, hused'⟩ := parenthesized_sound hcond
      obtain ⟨u, rest₄, rfl, hu, h₄⟩ := expected_bind_eq_ok h₃
      cases h₄
      exact ⟨t :: (used ++ l :: (used' ++ [u])), by simp, .doWhile ht hused hl hused' hu⟩
    · rename_i ht
      obtain ⟨⟨⟨init, cond, step⟩, rest₁⟩, hclauses, h₁⟩ := bind_eq_ok h
      have hlt := plain_eq_ok hclauses
      obtain ⟨used, rfl, hused⟩ := forClauses_sound hclauses
      obtain ⟨⟨body, rest₂⟩, hbody, h₂⟩ := bind_eq_ok h₁
      obtain ⟨used', rfl, hused'⟩ := block_sound hbody
      cases h₂
      exact ⟨t :: (used ++ used'), by simp, .loopFor ht hused hused'⟩
    · rename_i ht
      obtain ⟨⟨s', rest₁⟩, hs, h₁⟩ := bind_eq_ok h
      obtain ⟨used, hts, hused⟩ := simple_sound ht hs
      obtain ⟨u, rest₂, rfl, hu, h₂⟩ := expected_bind_eq_ok h₁
      cases h₂
      exact ⟨used ++ [u], by simpa using hts, .simple hused hu⟩
    · cases h
termination_by 2 * ts.length

theorem branch_sound {ts rest : List Token} {s : Stmt}
    (h : plain (branch fin ts) = .ok (s, rest)) : Took (Composes (.branch s)) ts rest := by
  rw [plain_branch] at h
  obtain ⟨⟨cond, rest₁⟩, hcond, h₁⟩ := bind_eq_ok h
  have hlt := plain_eq_ok hcond
  obtain ⟨used, rfl, hused⟩ := parenthesized_sound hcond
  obtain ⟨⟨yes, rest₂⟩, hyes, h₂⟩ := bind_eq_ok h₁
  have hlt' := plain_eq_ok hyes
  obtain ⟨used', rfl, hused'⟩ := block_sound hyes
  dsimp only at h₂
  split at h₂
  · cases h₂
    exact ⟨used ++ used', by simp, .oneArm hused hused'⟩
  · rename_i rest₃ hafter
    obtain ⟨k, rfl, hk⟩ := after?_eq_some hafter
    split at h₂
    · rename_i rest₄ hafter'
      obtain ⟨l, rfl, hl⟩ := after?_eq_some hafter'
      obtain ⟨⟨no, rest₅⟩, hno, h₃⟩ := bind_eq_ok h₂
      obtain ⟨used'', rfl, hused''⟩ := branch_sound hno
      cases h₃
      exact ⟨used ++ (used' ++ k :: l :: used''), by simp, .elseIf hused hused' hk hl hused''⟩
    · obtain ⟨⟨no, rest₅⟩, hno, h₃⟩ := bind_eq_ok h₂
      obtain ⟨used'', rfl, hused''⟩ := block_sound hno
      cases h₃
      exact ⟨used ++ (used' ++ k :: used''), by simp, .elseBlock hused hused' hk hused''⟩
termination_by 2 * ts.length

theorem block_sound {ts rest : List Token} {ss : List Stmt}
    (h : plain (block fin ts) = .ok (ss, rest)) : Took (Composes (.block ss)) ts rest := by
  rw [plain_block] at h
  obtain ⟨l, rest₁, rfl, hl, h₁⟩ := expected_bind_eq_ok h
  obtain ⟨⟨ss', rest₂⟩, hss, h₂⟩ := bind_eq_ok h₁
  obtain ⟨used, rfl, hused⟩ := stmts_sound hss
  obtain ⟨r, rest₃, rfl, hr, h₃⟩ := expected_bind_eq_ok h₂
  cases h₃
  exact ⟨l :: (used ++ [r]), by simp, .block hl hused hr⟩
termination_by 2 * ts.length

theorem stmts_sound {ts rest : List Token} {ss : List Stmt}
    (h : plain (stmts fin ts) = .ok (ss, rest)) : Took (Composes (.statements ss)) ts rest := by
  rw [plain_stmts] at h
  cases ts with
  | nil =>
    cases h
    exact ⟨[], rfl, .nil⟩
  | cons t ts =>
    dsimp only at h
    split at h
    · cases h
      exact ⟨[], rfl, .nil⟩
    · obtain ⟨⟨s, rest₁⟩, hs, h₁⟩ := bind_eq_ok h
      have hlt := plain_eq_ok hs
      obtain ⟨used, hts, hused⟩ := stmt_sound hs
      obtain ⟨⟨ss', rest₂⟩, hss, h₂⟩ := bind_eq_ok h₁
      obtain ⟨used', rfl, hused'⟩ := stmts_sound hss
      cases h₂
      exact ⟨used ++ used', by simpa using hts, .cons hused hused'⟩
termination_by 2 * ts.length + 1

end

/-- A program is statements up to the last token. -/
theorem program_sound {ts : List Token} {p : Program} (h : program fin ts = .ok p) :
    Composes (.statements p) ts := by
  rw [program_eq] at h
  cases ts with
  | nil =>
    cases h
    exact .nil
  | cons t ts =>
    obtain ⟨⟨s, rest⟩, hs, h₁⟩ := bind_eq_ok h
    have hlt := plain_eq_ok hs
    obtain ⟨used, hts, hused⟩ := stmt_sound hs
    obtain ⟨ss, hss, h₂⟩ := bind_eq_ok h₁
    cases h₂
    rw [hts]
    exact .cons hused (program_sound hss)
termination_by ts.length

end TinyScript.Ast.Parser
