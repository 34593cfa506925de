import TinyScript.Proofs.Ast.Completeness.Statements
import TinyScript.Proofs.Token.Numerals

/-! Programs written as source text. Terminals stand with blanks between them, and an
operand stands in parentheses only if its own operator binds less tightly than its place
asks for: a right operand has to bind more tightly than the operator in front of it, and
what carries a suffix may have no operator. Floats are written as a parameter says, since
a value has many lexemes. Every program that text can express is read back from what is
written for it; which programs these are is said without the reader. -/

namespace TinyScript.Ast

open Grammar Number
open Token (Terminal terminal)
open Token.Terminal (fixed legible_fixed)

/-! ### Expressible programs -/

/-- A word that is no keyword. -/
def IsName (x : String) : Prop := Token.isWord x.toList ∧ Token.wordKind x = .identifier

/-- A built-in type's name, or any other. -/
def IsElementType (x : String) : Prop :=
  Token.isWord x.toList ∧
    Token.wordKind x ∈ [.tyNumber, .tyString, .tyBoolean, .tyI32, .tyF64, .identifier]

instance (x : String) : Decidable (IsName x) := inferInstanceAs (Decidable (_ ∧ _))

instance (x : String) : Decidable (IsElementType x) := inferInstanceAs (Decidable (_ ∧ _))

/-- What a declaration may have for its type. -/
inductive IsDeclaredType : String → Prop where
  | auto : IsDeclaredType auto
  | scalar {x : String} (h : IsElementType x) : IsDeclaredType x
  | array {x : String} (h : IsElementType x) : IsDeclaredType (x ++ "[]")

/-- Expressions that text can express if floats are spelled by `spell`. -/
inductive Expr.Expressible (spell : Double → String) : Expr → Prop where
  | str (s : String) : Expressible spell (.str s)
  | int {n : Int} (hleast : 0 ≤ n) (hgreatest : n ≤ Radix.greatest) : Expressible spell (.int n)
  | float {d : Double} (hlexeme : Token.IsFloat (spell d).toList)
      (hvalue : Token.floatValue (spell d) = .ok d) : Expressible spell (.float d)
  | bool (b : Bool) : Expressible spell (.bool b)
  | var {x : String} (hx : IsName x) : Expressible spell (.var x)
  | binary {a b : Expr} (op : BinaryOp) (ha : Expressible spell a) (hb : Expressible spell b) :
      Expressible spell (.binary op a b)
  | array {es : List Expr} (hes : ∀ e ∈ es, Expressible spell e) :
      Expressible spell (.array (suggested es.head?) es)
  | index {a i : Expr} (ha : Expressible spell a) (hi : Expressible spell i) :
      Expressible spell (.index a i)
  | object {fs : List (String × Expr)} (hfs : ∀ f ∈ fs, Expressible spell f.2) :
      Expressible spell (.object fs)
  | member {a : Expr} {x : String} (ha : Expressible spell a) (hx : IsName x) :
      Expressible spell (.member a x)
  | call {f : String} {es : List Expr} (hf : Builtin.isKnown f)
      (hes : ∀ e ∈ es, Expressible spell e) : Expressible spell (.call f es)

/-! ### Written expressions -/

namespace Render

variable (spell : Double → String)

def name (x : String) : Terminal := ⟨.identifier, x⟩

def enclosed (l : Token.Kind) (ts : List Terminal) (r : Token.Kind) : List Terminal :=
  fixed l :: (ts ++ [fixed r])

mutual

/-- An expression where operators have to bind at least as tightly as a level. -/
def expr : Nat → Expr → List Terminal
  | _, .str s => [⟨.stringLiteral, s⟩]
  | _, .int n => [Token.integer n.toNat]
  | _, .float d => [⟨.floatLiteral, spell d⟩]
  | _, .bool b => [fixed (if b then .kwTrue else .kwFalse)]
  | _, .var x => [name x]
  | n, .binary op a b =>
    let ts := expr op.level a ++ fixed op.sign :: expr (op.level + 1) b
    if op.level < n then enclosed .lparen ts .rparen else ts
  | _, .array _ es => enclosed .lbracket (items es) .rbracket
  | _, .index a i => expr 4 a ++ enclosed .lbracket (expr 0 i) .rbracket
  | _, .object fs => enclosed .lbrace (fields fs) .rbrace
  | _, .member a x => expr 4 a ++ [fixed .dot, name x]
  | _, .call f es => name f :: enclosed .lparen (items es) .rparen

def items : List Expr → List Terminal
  | [] => []
  | e :: es => expr 0 e ++ if es.isEmpty then [] else fixed .comma :: items es

def fields : List (String × Expr) → List Terminal
  | [] => []
  | (k, e) :: fs =>
    ⟨.stringLiteral, k⟩ :: fixed .colon :: (expr 0 e ++
      if fs.isEmpty then [] else fixed .comma :: fields fs)

end

variable {spell}

/-! ### Legible expressions -/

theorem legible_name {x : String} (h : IsName x) : (name x).Legible := by
  have hword := Terminal.legible_word h.1
  rw [h.2] at hword
  exact hword

theorem legible_enclosed {l r : Token.Kind} {ts : List Terminal} (hl : l.spelling ≠ "")
    (hts : ∀ t ∈ ts, t.Legible) (hr : r.spelling ≠ "") : ∀ t ∈ enclosed l ts r, t.Legible := by
  simp only [enclosed, List.forall_mem_cons, List.forall_mem_append]
  exact ⟨legible_fixed hl, hts, legible_fixed hr, nofun⟩

theorem isName_of_isKnown {f : String} (h : Builtin.isKnown f) : IsName f := by
  rw [Builtin.isKnown, Builtin.ofName?] at h
  split at h
  case isTrue hprint =>
    rw [hprint]
    decide
  split at h
  case isTrue hprintln =>
    rw [hprintln]
    decide
  rw [Option.isSome_map, Library.Function.ofName?] at h
  obtain ⟨g, hg⟩ := Option.isSome_iff_exists.1 h
  have hname : g.name = f := by simpa using List.find?_some hg
  have hall : ∀ g ∈ Library.Function.all, IsName g.name := by decide +kernel
  exact hname ▸ hall g (List.mem_of_find?_eq_some hg)

theorem legible_items {es : List Expr}
    (hes : ∀ e ∈ es, ∀ n, ∀ t ∈ expr spell n e, t.Legible) :
    ∀ t ∈ items spell es, t.Legible := by
  induction es with
  | nil => nofun
  | cons e es ih =>
    rw [List.forall_mem_cons] at hes
    rw [items, List.forall_mem_append]
    refine ⟨hes.1 0, ?_⟩
    split
    · nofun
    · exact List.forall_mem_cons.2 ⟨legible_fixed (by decide), ih hes.2⟩

theorem legible_fields {fs : List (String × Expr)}
    (hfs : ∀ f ∈ fs, ∀ n, ∀ t ∈ expr spell n f.2, t.Legible) :
    ∀ t ∈ fields spell fs, t.Legible := by
  induction fs with
  | nil => nofun
  | cons f fs ih =>
    rw [List.forall_mem_cons] at hfs
    simp only [fields, List.forall_mem_cons, List.forall_mem_append]
    refine ⟨Terminal.legible_string f.1, legible_fixed (by decide), hfs.1 0, ?_⟩
    split
    · nofun
    · exact List.forall_mem_cons.2 ⟨legible_fixed (by decide), ih hfs.2⟩

theorem legible_expr {e : Expr} (h : e.Expressible spell) (n : Nat) :
    ∀ t ∈ expr spell n e, t.Legible := by
  induction h generalizing n with
  | str s => exact List.forall_mem_singleton.2 (Terminal.legible_string s)
  | int => exact List.forall_mem_singleton.2 (Token.legible_integer _)
  | @float d hlexeme =>
    have := Token.legible_float hlexeme
    rw [String.ofList_toList] at this
    exact List.forall_mem_singleton.2 this
  | bool b => exact List.forall_mem_singleton.2 (legible_fixed (by cases b <;> decide))
  | var hx => exact List.forall_mem_singleton.2 (legible_name hx)
  | @binary a b op _ _ iha ihb =>
    have hts : ∀ t ∈ expr spell op.level a ++ fixed op.sign :: expr spell (op.level + 1) b,
        t.Legible := by
      rw [List.forall_mem_append, List.forall_mem_cons]
      exact ⟨iha _, legible_fixed (by cases op <;> decide), ihb _⟩
    rw [expr]
    split
    · exact legible_enclosed (by decide) hts (by decide)
    · exact hts
  | array _ ih => exact legible_enclosed (by decide) (legible_items ih) (by decide)
  | index _ _ iha ihi =>
    exact List.forall_mem_append.2 ⟨iha 4, legible_enclosed (by decide) (ihi 0) (by decide)⟩
  | object _ ih => exact legible_enclosed (by decide) (legible_fields ih) (by decide)
  | member _ hx iha =>
    rw [expr, List.forall_mem_append, List.forall_mem_cons]
    exact ⟨iha 4, legible_fixed (by decide), List.forall_mem_singleton.2 (legible_name hx)⟩
  | call hf _ ih =>
    exact List.forall_mem_cons.2 ⟨legible_name (isName_of_isKnown hf),
      legible_enclosed (by decide) (legible_items ih) (by decide)⟩

/-! ### Derived expressions -/

/-! Tokens of written terminals are cut where these are. -/

theorem cut_fixed {k : Token.Kind} {us : List Terminal} {ts : List Token}
    (h : ts.map terminal = fixed k :: us) :
    ∃ t ts', ts = t :: ts' ∧ t.kind = k ∧ ts'.map terminal = us := by
  obtain ⟨t, ts', rfl, ht, hts'⟩ := List.map_eq_cons_iff.1 h
  exact ⟨t, ts', rfl, congrArg Terminal.kind ht, hts'⟩

theorem cut_name {x : String} {us : List Terminal} {ts : List Token}
    (h : ts.map terminal = name x :: us) :
    ∃ t ts', ts = t :: ts' ∧ t.kind = .identifier ∧ t.text = x ∧ ts'.map terminal = us := by
  obtain ⟨t, ts', rfl, ht, hts'⟩ := List.map_eq_cons_iff.1 h
  exact ⟨t, ts', rfl, congrArg Terminal.kind ht, congrArg Terminal.text ht, hts'⟩

theorem cut_last {k : Token.Kind} {ts : List Token} (h : ts.map terminal = [fixed k]) :
    ∃ t, ts = [t] ∧ t.kind = k := by
  obtain ⟨t, rfl, ht⟩ := List.map_eq_singleton_iff.1 h
  exact ⟨t, rfl, congrArg Terminal.kind ht⟩

theorem cut_enclosed {l r : Token.Kind} {us : List Terminal} {ts : List Token}
    (h : ts.map terminal = enclosed l us r) :
    ∃ t ts' t', ts = t :: (ts' ++ [t']) ∧ t.kind = l ∧ ts'.map terminal = us ∧ t'.kind = r := by
  obtain ⟨t, ts, rfl, ht, h₁⟩ := cut_fixed h
  obtain ⟨ts, ts', rfl, hts, h₂⟩ := List.map_eq_append_iff.1 h₁
  obtain ⟨t', rfl, ht'⟩ := cut_last h₂
  exact ⟨t, ts, t', rfl, ht, hts, ht'⟩

theorem derives_items {es : List Expr} (hes : ∀ e ∈ es, ∀ n ts, ts.map terminal = expr spell n e →
    Derives (.ranked n e) ts) {ts : List Token} (h : ts.map terminal = items spell es) :
    Derives (.items es) ts := by
  induction es generalizing ts with
  | nil =>
    rw [List.map_eq_nil_iff.1 h]
    exact .noItems
  | cons e es ih =>
    rw [List.forall_mem_cons] at hes
    obtain ⟨us, vs, rfl, hus, h⟩ := List.map_eq_append_iff.1 h
    have he : Spells e us := hes.1 0 us hus
    split at h
    case isTrue hlast =>
      rw [List.isEmpty_iff.1 hlast, List.map_eq_nil_iff.1 h, List.append_nil]
      exact .lastItem he
    case isFalse =>
      obtain ⟨t, vs, rfl, ht, h⟩ := cut_fixed h
      exact .item he ht (ih hes.2 h)

theorem derives_fields {fs : List (String × Expr)} (hfs : ∀ f ∈ fs, ∀ n ts,
    ts.map terminal = expr spell n f.2 → Derives (.ranked n f.2) ts) {ts : List Token}
    (h : ts.map terminal = fields spell fs) : Derives (.fields fs) ts := by
  induction fs generalizing ts with
  | nil =>
    rw [List.map_eq_nil_iff.1 h]
    exact .noFields
  | cons f fs ih =>
    rw [List.forall_mem_cons] at hfs
    obtain ⟨k, ts, rfl, hk, h⟩ := List.map_eq_cons_iff.1 h
    obtain ⟨l, ts, rfl, hl, h⟩ := cut_fixed h
    obtain ⟨us, vs, rfl, hus, h⟩ := List.map_eq_append_iff.1 h
    have he : Spells f.2 us := hfs.1 0 us hus
    have hkey : k.kind ∈ [.identifier, .stringLiteral] := by
      rw [show k.kind = .stringLiteral from congrArg Terminal.kind hk]
      decide
    have hf : f = (k.text, f.2) := by
      rw [show k.text = f.1 from congrArg Terminal.text hk]
    rw [hf]
    split at h
    case isTrue hlast =>
      rw [List.isEmpty_iff.1 hlast, List.map_eq_nil_iff.1 h, List.append_nil]
      exact .lastField hkey hl he
    case isFalse =>
      obtain ⟨t, vs, rfl, ht, h⟩ := cut_fixed h
      exact .field hkey hl he ht (ih hfs.2 h)

theorem derives_expr {e : Expr} (he : e.Expressible spell) (n : Nat) (ts : List Token)
    (h : ts.map terminal = expr spell n e) : Derives (.ranked n e) ts := by
  induction he generalizing n ts with
  | str s =>
    obtain ⟨t, rfl, ht⟩ := List.map_eq_singleton_iff.1 h
    obtain ⟨hkind, rfl⟩ := Terminal.mk.inj ht
    exact (Derives.str hkind).ofPrimary.suffixed n
  | @int k hleast hgreatest =>
    obtain ⟨t, rfl, ht⟩ := List.map_eq_singleton_iff.1 h
    have hk : (k.toNat : Int) = k := Int.toNat_of_nonneg hleast
    have hvalue : Token.integerValue t.text = .ok k := by
      rw [show t.text = (Token.integer k.toNat).text from congrArg Terminal.text ht,
        Token.integerValue_integer (Int.le_trans (Int.le_of_eq hk) hgreatest), hk]
    exact (Derives.int (congrArg Terminal.kind ht) hvalue).ofPrimary.suffixed n
  | float hlexeme hvalue =>
    obtain ⟨t, rfl, ht⟩ := List.map_eq_singleton_iff.1 h
    obtain ⟨hkind, htext⟩ := Terminal.mk.inj ht
    rw [← htext] at hvalue
    exact (Derives.float hkind hvalue).ofPrimary.suffixed n
  | bool b =>
    obtain ⟨t, rfl, ht⟩ := cut_last h
    cases b with
    | true => exact (Derives.yes ht).ofPrimary.suffixed n
    | false => exact (Derives.no ht).ofPrimary.suffixed n
  | var hx =>
    obtain ⟨t, rfl, ht⟩ := List.map_eq_singleton_iff.1 h
    obtain ⟨hkind, rfl⟩ := Terminal.mk.inj ht
    exact (Derives.var hkind).ofPrimary.suffixed n
  | @binary a b op _ _ iha ihb =>
    have hts : ∀ us, us.map terminal = expr spell op.level a ++
        fixed op.sign :: expr spell (op.level + 1) b →
        Derives (.ranked op.level (.binary op a b)) us := by
      intro us h
      obtain ⟨us, vs, rfl, hus, h⟩ := List.map_eq_append_iff.1 h
      obtain ⟨t, vs, rfl, ht, h⟩ := cut_fixed h
      exact .binary (iha _ us hus) ht (ihb _ vs h)
    rw [expr] at h
    split at h
    case isTrue =>
      obtain ⟨l, ts, r, rfl, hl, h, hr⟩ := cut_enclosed h
      exact (Derives.group hl ((hts ts h).ranked_le (Nat.zero_le _)) hr).ofPrimary.suffixed n
    case isFalse hle => exact (hts ts h).ranked_le (Nat.le_of_not_lt hle)
  | array _ ih =>
    obtain ⟨l, ts, r, rfl, hl, h, hr⟩ := cut_enclosed h
    exact (Derives.array hl (derives_items ih h) hr).ofPrimary.suffixed n
  | index _ _ iha ihi =>
    obtain ⟨ts, us, rfl, hts, h⟩ := List.map_eq_append_iff.1 h
    obtain ⟨l, us, r, rfl, hl, h, hr⟩ := cut_enclosed h
    exact (Derives.index (iha 4 ts hts) hl (ihi 0 us h) hr).suffixed n
  | object _ ih =>
    obtain ⟨l, ts, r, rfl, hl, h, hr⟩ := cut_enclosed h
    exact (Derives.object hl (derives_fields ih h) hr).ofPrimary.suffixed n
  | member _ hx iha =>
    obtain ⟨ts, us, rfl, hts, h⟩ := List.map_eq_append_iff.1 h
    obtain ⟨l, us, rfl, hl, hmember⟩ := cut_fixed h
    obtain ⟨t, us, rfl, ht, rfl, hnil⟩ := cut_name hmember
    rw [List.map_eq_nil_iff.1 hnil]
    exact (Derives.member (iha 4 ts hts) hl ht).suffixed n
  | call hf _ ih =>
    obtain ⟨t, ts, rfl, ht, rfl, h₁⟩ := cut_name h
    obtain ⟨l, ts, r, rfl, hl, hargs, hr⟩ := cut_enclosed h₁
    exact (Derives.call ht hf hl (derives_items ih hargs) hr).ofPrimary.suffixed n

end Render

end TinyScript.Ast
