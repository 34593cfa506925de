import TinyScript.Proofs.Core.Check.Program
import TinyScript.Proofs.Core.Judge.Mirrors
import TinyScript.Proofs.Lower.Emission
import TinyScript.Proofs.Meaning.Strings

/-! Checking keeps the texts of a program. What the lowering of a checked part asks of
texts is what the part asks of them as it was written. A format depends on the type of the
value it is for, which the judge and the checker agree on. -/

namespace TinyScript.Core.Check

open Ir (Event)
open Meaning
open Meaning.Source (Context Mention)

/-! ### Mentions in a log -/

/-- What an event asks of a text. -/
def mention? : Event → Option Mention
  | .intern (.text s) => some (.need s)
  | .use s => some (.use s)
  | _ => none

def mentioned (es : List Event) : List Mention := es.filterMap mention?

@[simp] theorem mentioned_append (es us : List Event) :
    mentioned (es ++ us) = mentioned es ++ mentioned us := List.filterMap_append

@[simp] theorem mentioned_declared (f : Ir.External) : mentioned (Event.declared f) = [] := rfl

@[simp] theorem mentioned_boundsCheck (checked : Bool) : mentioned (boundsCheck checked) = [] := by
  cases checked <;> rfl

@[simp] theorem mentioned_uses (es : List Expr) :
    mentioned (uses es) = (literals es).map .use := by
  rw [mentioned, uses, List.filterMap_map]
  exact congrFun List.filterMap_eq_map (literals es)

@[simp] theorem mentioned_formatted (format : String) (e : Expr) :
    mentioned (formatted format e) = .need format :: .use format :: (literals [e]).map .use := by
  rw [← mentioned_uses]
  rfl

/-- The needs of a log are the string constants it asks for. -/
theorem needed_mentioned (es : List Event) :
    (mentioned es).filterMap Mention.needed? =
      (es.filterMap Event.symbol?).filterMap Ir.Symbol.text? := by
  rw [mentioned, List.filterMap_filterMap, List.filterMap_filterMap]
  congr 1
  funext e
  match e with
  | .intern (.text s) | .intern (.function d) | .call f | .use s => rfl

theorem used_mentioned (es : List Event) :
    (mentioned es).filterMap Mention.used? = es.filterMap Event.used? := by
  rw [mentioned, List.filterMap_filterMap]
  congr 1
  funext e
  match e with
  | .intern (.text s) | .intern (.function d) | .call f | .use s => rfl

variable {checked : Bool} {sc sc' sc₁ sc₂ : Scope}

/-! ### Expressions -/

/-- A checked expression with the texts of the written one. -/
structure Spelled (checked : Bool) (e : Ast.Expr) (c : Expr) : Prop where
  literal : c.literal = Source.literal e
  mentions : mentioned (events checked c) = Source.mentions e

structure SpelledAll (checked : Bool) (es : List Ast.Expr) (cs : List Expr) : Prop where
  literals : (literals cs).map .use = Source.uses es
  mentions : mentioned (eventsIn checked cs) = Source.mentionsIn es

theorem SpelledAll.nil : SpelledAll checked [] [] := ⟨rfl, rfl⟩

theorem SpelledAll.cons {e : Ast.Expr} {es : List Ast.Expr} {c : Expr} {cs : List Expr}
    (h : Spelled checked e c) (hs : SpelledAll checked es cs) :
    SpelledAll checked (e :: es) (c :: cs) := by
  constructor
  · have htail := hs.literals
    simp only [Core.literals, Source.uses] at htail
    simp [Core.literals, Source.uses, h.literal, htail]
  · rw [eventsIn, mentioned_append, h.mentions, hs.mentions, Source.mentionsIn]

theorem Spelled.uses {e : Ast.Expr} {c : Expr} (h : Spelled checked e c) :
    (literals [c]).map .use = Source.uses [e] := (SpelledAll.nil.cons h).literals

/-- Every check of an expression that succeeds keeps its texts. -/
def Spells (checked : Bool) (e : Ast.Expr) : Prop :=
  ∀ {sc : Scope} {c : Expr} {sc' : Scope}, expr e sc = .ok (c, sc') → Spelled checked e c

/-- Only two texts have literals under an operator. -/
theorem binary_spelled {op : Ast.BinaryOp} {l r : Ast.Expr} {lhs rhs c : Expr}
    (hl : Spelled checked l lhs) (hr : Spelled checked r rhs)
    (h : binary op lhs rhs sc = .ok (c, sc')) : Spelled checked (.binary op l r) c := by
  have huses := (SpelledAll.cons hl (SpelledAll.nil.cons hr)).literals
  have plain {c : Expr} (hc : c.literal = []) (hevents : events checked c =
      events checked lhs ++ events checked rhs) (hlt : lhs.type ≠ .str) (hrt : rhs.type ≠ .str) :
      Spelled checked (.binary op l r) c := by
    refine ⟨hc, ?_⟩
    rw [Source.mentions, ← huses, hevents, mentioned_append, hl.mentions, hr.mentions]
    simp [literals, Expr.literal_eq_nil hlt, Expr.literal_eq_nil hrt]
  have compared (hlt : lhs.type ≠ .str) (hrt : rhs.type ≠ .str)
      (h : compared op lhs rhs sc = .ok (c, sc')) : Spelled checked (.binary op l r) c := by
    rw [Check.compared] at h
    cases ho : compareOp? op with
    | none =>
      rw [ho] at h
      exact absurd h throw_ne_ok
    | some o =>
      rw [ho] at h
      obtain ⟨rfl, -⟩ := pure_eq_ok.1 h
      exact plain rfl rfl hlt hrt
  have same (negated : Bool) : Spelled checked (.binary op l r) (.sameText negated lhs rhs) := by
    refine ⟨rfl, ?_⟩
    rw [Source.mentions, ← huses, events]
    simp [hl.mentions, hr.mentions]
  rcases binary_operands op lhs rhs with ⟨hlt, hrt⟩ | ⟨hlt, hrt⟩ | ⟨hlt, hrt⟩ | hthrow
  · simp only [binary, hlt, hrt] at h
    cases ho : arithOp? op with
    | none =>
      rw [ho] at h
      exact compared (by simp [hlt]) (by simp [hrt]) h
    | some o =>
      rw [ho] at h
      obtain ⟨rfl, -⟩ := pure_eq_ok.1 h
      exact plain rfl rfl (by simp [hlt]) (by simp [hrt])
  · simp only [binary, hlt, hrt] at h
    split at h
    · exact compared (by simp [hlt]) (by simp [hrt]) h
    · exact absurd h throw_ne_ok
  · simp only [binary, hlt, hrt] at h
    cases op with
    | eq =>
      obtain ⟨rfl, -⟩ := pure_eq_ok.1 h
      exact same false
    | ne =>
      obtain ⟨rfl, -⟩ := pure_eq_ok.1 h
      exact same true
    | _ => exact absurd h throw_ne_ok
  · rw [hthrow] at h
    exact absurd h throw_ne_ok

theorem elements_spelled {elem : Ty} {es : List Ast.Expr} {cs : List Expr}
    (ih : ∀ e ∈ es, Spells checked e) (h : elements elem es sc = .ok (cs, sc')) :
    SpelledAll checked es cs := by
  induction es generalizing sc cs with
  | nil =>
    obtain ⟨rfl, -⟩ := pure_eq_ok.1 h
    exact .nil
  | cons e es ihes =>
    obtain ⟨c, sc₁, hc, h⟩ := bind_eq_ok.1 h
    split at h
    · obtain ⟨cs', sc₂, hcs, h⟩ := bind_eq_ok.1 h
      obtain ⟨rfl, rfl⟩ := pure_eq_ok.1 h
      exact .cons (ih e List.mem_cons_self hc)
        (ihes (fun e he => ih e (List.mem_cons_of_mem _ he)) hcs)
    · exact absurd h throw_ne_ok

theorem arguments_spelled {name : String} {position : Nat} {es : List Ast.Expr}
    {params : List (Option Ty)} {cs : List Expr} (ih : ∀ e ∈ es, Spells checked e)
    (hlen : es.length = params.length)
    (h : arguments name position es params sc = .ok (cs, sc')) : SpelledAll checked es cs := by
  induction es generalizing sc cs position params with
  | nil =>
    obtain ⟨rfl, -⟩ := pure_eq_ok.1 h
    exact .nil
  | cons e es ihes =>
    cases params with
    | nil => cases hlen
    | cons param params =>
      obtain ⟨c, sc₁, hc, h⟩ := bind_eq_ok.1 h
      obtain ⟨_, sc₂, -, h⟩ := bind_eq_ok.1 h
      obtain ⟨cs', sc₃, hcs, h⟩ := bind_eq_ok.1 h
      obtain ⟨rfl, rfl⟩ := pure_eq_ok.1 h
      exact .cons (ih e List.mem_cons_self hc)
        (ihes (fun e he => ih e (List.mem_cons_of_mem _ he)) (Nat.succ.inj hlen) hcs)

/-- A call that was checked has a function, and as many arguments as that takes. -/
theorem call_parts {name : String} {es : List Ast.Expr} {call : Call}
    (h : Check.call name es sc = .ok (call, sc')) :
    ∃ f cs, Builtin.ofName? name = some f ∧ es.length = (parameters f).length ∧
      arguments name 1 es (parameters f) sc = .ok (cs, sc') ∧ Applied f cs call := by
  obtain ⟨f, sc₁, hf, h⟩ := bind_eq_ok.1 h
  obtain ⟨hname, hcount, rfl⟩ := callee_eq_ok hf
  obtain ⟨cs, sc₂, hcs, h⟩ := bind_eq_ok.1 h
  obtain ⟨happlied, rfl⟩ := applied_eq_ok h
  exact ⟨f, cs, hname, hcount, hcs, happlied⟩

theorem library_spelled {es : List Ast.Expr} {cs : List Expr} (f : Library.Function)
    (h : SpelledAll checked es cs) :
    mentioned (events checked (.call f cs)) = Source.mentionsIn es ++ Source.uses es := by
  rw [events, ← h.mentions, ← h.literals]
  simp

theorem expr_spelled (e : Ast.Expr) : Spells checked e := by
  induction e using Ast.Expr.induct with
  | str s | float d | bool b =>
    intro sc c sc' h
    obtain ⟨rfl, -⟩ := pure_eq_ok.1 h
    exact ⟨rfl, rfl⟩
  | int n =>
    intro sc c sc' h
    change (if _ then _ else _ : Checked Expr) sc = _ at h
    split at h
    · obtain ⟨rfl, -⟩ := pure_eq_ok.1 h
      exact ⟨rfl, rfl⟩
    · exact absurd h throw_ne_ok
  | var x =>
    intro sc c sc' h
    obtain ⟨v, sc₁, -, h⟩ := bind_eq_ok.1 h
    obtain ⟨_, sc₂, -, h⟩ := bind_eq_ok.1 h
    obtain ⟨rfl, -⟩ := pure_eq_ok.1 h
    exact ⟨rfl, rfl⟩
  | binary op l r ihl ihr =>
    intro sc c sc' h
    obtain ⟨lhs, sc₁, hl, h⟩ := bind_eq_ok.1 h
    obtain ⟨rhs, sc₂, hr, h⟩ := bind_eq_ok.1 h
    exact binary_spelled (ihl hl) (ihr hr) h
  | array hint es ih =>
    intro sc c sc' h
    rw [expr] at h
    cases helem : Ty.ofName? hint with
    | none =>
      rw [helem] at h
      exact absurd h throw_ne_ok
    | some elem =>
      rw [helem] at h
      obtain ⟨cs, sc₁, hcs, h⟩ := bind_eq_ok.1 h
      obtain ⟨_, sc₂, -, h⟩ := bind_eq_ok.1 h
      obtain ⟨k, sc₃, -, h⟩ := bind_eq_ok.1 h
      obtain ⟨_, sc₄, -, h⟩ := bind_eq_ok.1 h
      obtain ⟨rfl, -⟩ := pure_eq_ok.1 h
      have hcs := elements_spelled ih hcs
      refine ⟨rfl, ?_⟩
      rw [events, mentioned_append, mentioned_uses, hcs.mentions, hcs.literals, Source.mentions]
  | index a i iha ihi =>
    intro sc c sc' h
    obtain ⟨array, sc₁, ha, h⟩ := bind_eq_ok.1 h
    cases helem : array.type.element? with
    | none =>
      rw [helem] at h
      exact absurd h throw_ne_ok
    | some elem =>
      rw [helem] at h
      obtain ⟨index, sc₂, hi, h⟩ := bind_eq_ok.1 h
      split at h
      · obtain ⟨_, sc₃, -, h⟩ := bind_eq_ok.1 h
        obtain ⟨rfl, -⟩ := pure_eq_ok.1 h
        refine ⟨rfl, ?_⟩
        rw [events, Source.mentions, ← (iha ha).mentions, ← (ihi hi).mentions]
        simp
      · exact absurd h throw_ne_ok
  | object fields => exact fun h => absurd h throw_ne_ok
  | member base x ih =>
    intro sc c sc' h
    change (if _ then _ else _ : Checked Expr) sc = _ at h
    split at h
    · obtain ⟨array, sc₁, ha, h⟩ := bind_eq_ok.1 h
      split at h
      · obtain ⟨rfl, -⟩ := pure_eq_ok.1 h
        exact ⟨rfl, (ih ha).mentions⟩
      · exact absurd h throw_ne_ok
    · exact absurd h throw_ne_ok
  | call x args ih =>
    intro sc c sc' h
    obtain ⟨f, sc₁, hf, h⟩ := bind_eq_ok.1 h
    obtain ⟨cs, sc₂, hcs, h⟩ := bind_eq_ok.1 h
    obtain ⟨call, sc₃, hcall, h⟩ := bind_eq_ok.1 h
    -- The steps of the call, put together again for `call_parts`.
    have hchecked : Check.call x args sc = .ok (call, sc₃) :=
      bind_eq_ok.2 ⟨f, sc₁, hf, bind_eq_ok.2 ⟨cs, sc₂, hcs, hcall⟩⟩
    obtain ⟨f, cs, -, hcount, hargs, happlied⟩ := call_parts hchecked
    have hspelled := arguments_spelled ih hcount hargs
    cases happlied with
    | library f args =>
      by_cases hresult : f.signature.result = .void
      · simp only [Call.value?, hresult, if_true] at h
        exact absurd h throw_ne_ok
      · simp only [Call.value?, hresult, if_false] at h
        obtain ⟨rfl, -⟩ := pure_eq_ok.1 h
        exact ⟨rfl, library_spelled f hspelled⟩
    | printText newline type => exact absurd h throw_ne_ok
    | printInt newline type => exact absurd h throw_ne_ok

/-! ### Statements -/

/-- The judge sees in a scope the types that a context has, and all of them have values. -/
abbrev ScopeSolid (sc : Scope) : Prop := Judge.AllSolid sc.context.types

theorem ScopeSolid.past {next : Nat} (solid : ScopeSolid sc) (h : sc'.context = ⟨sc.vars, next⟩) :
    ScopeSolid sc' := by
  rw [ScopeSolid, h]
  exact solid

theorem judged_type {e : Ast.Expr} {c : Expr} (solid : ScopeSolid sc)
    (h : expr e sc = .ok (c, sc')) : Judge.expr sc.context.types e = .ok c.type := by
  have hmirrors := Judge.expr_mirrors e sc solid
  change Judge.Mirrors _ (expr e sc) (Judge.expr sc.context.types e) at hmirrors
  generalize Judge.expr sc.context.types e = verdict at hmirrors
  rw [h] at hmirrors
  cases hmirrors with
  | ok hc => rw [hc.1]

theorem stmt_solid {s : Ast.Stmt} {c : Stmt} (solid : ScopeSolid sc)
    (h : stmt s sc = .ok (c, sc')) : ScopeSolid sc' := by
  have hmirrors := Judge.stmt_mirrors s sc solid
  generalize Judge.stmt s (Judge.seen sc) = verdict at hmirrors
  rw [h] at hmirrors
  cases hmirrors with
  | ok hseen =>
    obtain ⟨rfl, solid'⟩ := hseen
    exact solid'

/-- Every check of a statement that succeeds keeps its texts. -/
def StmtSpells (checked : Bool) (s : Ast.Stmt) : Prop :=
  ∀ {sc : Scope} {c : Stmt} {sc' : Scope}, ScopeSolid sc → stmt s sc = .ok (c, sc') →
    mentioned (stmtEvents checked c) = Source.stmtMentions sc.context s

theorem stmts_spelled {ss : List Ast.Stmt} {cs : List Stmt} (ih : ∀ s ∈ ss, StmtSpells checked s)
    (solid : ScopeSolid sc) (h : stmts ss sc = .ok (cs, sc')) :
    mentioned (stmtsEvents checked cs) = Source.stmtsMentions sc.context ss ∧ ScopeSolid sc' := by
  induction ss generalizing sc cs with
  | nil =>
    obtain ⟨rfl, rfl⟩ := pure_eq_ok.1 h
    exact ⟨rfl, solid⟩
  | cons s ss ihss =>
    obtain ⟨c, sc₁, hc, h⟩ := bind_eq_ok.1 h
    obtain ⟨cs', sc₂, hcs, h⟩ := bind_eq_ok.1 h
    obtain ⟨rfl, rfl⟩ := pure_eq_ok.1 h
    have hcontext : sc₁.context = Source.after sc.context s :=
      (stmt_resolves (L := []) s hc).context
    obtain ⟨hmentions, solid'⟩ :=
      ihss (fun s hs => ih s (List.mem_cons_of_mem _ hs)) (stmt_solid solid hc) hcs
    refine ⟨?_, solid'⟩
    rw [stmtsEvents, mentioned_append, ih s List.mem_cons_self solid hc, hmentions, hcontext,
      Source.stmtsMentions]

theorem clause_spelled {s : Option Ast.Stmt} {c : Option Stmt}
    (ih : ∀ s' ∈ s, StmtSpells checked s') (solid : ScopeSolid sc)
    (h : clause s sc = .ok (c, sc')) :
    mentioned (clauseEvents checked c) = Source.clauseMentions sc.context s ∧ ScopeSolid sc' := by
  cases s with
  | none =>
    obtain ⟨rfl, rfl⟩ := pure_eq_ok.1 h
    exact ⟨rfl, solid⟩
  | some s =>
    obtain ⟨c, sc₁, hc, h⟩ := bind_eq_ok.1 h
    obtain ⟨rfl, rfl⟩ := pure_eq_ok.1 h
    exact ⟨ih s rfl solid hc, stmt_solid solid hc⟩

/-- A condition is no text, and what makes an integer one adds nothing. -/
theorem condition_spelled {e : Ast.Expr} {c : Expr} (h : condition e sc = .ok (c, sc')) :
    mentioned (events checked c) = Source.mentions e := by
  obtain ⟨cond, sc₁, hcond, h⟩ := bind_eq_ok.1 h
  have hspelled : Spelled checked e cond := expr_spelled e hcond
  cases htype : cond.type with
  | bool | i32 =>
    rw [htype] at h
    obtain ⟨rfl, -⟩ := pure_eq_ok.1 h
    exact hspelled.mentions
  | str | f64 | void | array elem =>
    rw [htype] at h
    exact absurd h throw_ne_ok

theorem guard_spelled {e : Option Ast.Expr} {c : Option Expr}
    (h : e.mapM condition sc = .ok (c, sc')) :
    mentioned ((c.map (events checked)).getD []) = (e.map Source.mentions).getD [] := by
  cases e with
  | none =>
    obtain ⟨rfl, -⟩ := pure_eq_ok.1 h
    rfl
  | some e =>
    obtain ⟨c, hc, rfl⟩ := mapM_some_eq_ok.1 h
    exact condition_spelled hc

theorem stored_spelled {name : String} {declared : Ty} {e : Ast.Expr} {value : Expr} {s : Stored}
    (he : Spelled checked e value) (h : stored name declared value sc = .ok (s, sc')) :
    mentioned (events checked s.value ++ uses [s.value]) = Source.stored e := by
  obtain ⟨rfl, -, -⟩ := stored_eq_ok h
  rw [mentioned_append, mentioned_uses, he.mentions, he.uses, Source.stored]

theorem declare_spelled (name type : String) (init : Option Ast.Expr) :
    StmtSpells checked (.declare name type init) := by
  intro sc c sc' _ h
  obtain ⟨t, sc₁, -, h⟩ := bind_eq_ok.1 h
  obtain ⟨value, sc₂, hvalue, h⟩ := bind_eq_ok.1 h
  obtain ⟨_, sc₃, -, h⟩ := bind_eq_ok.1 h
  obtain ⟨k, sc₄, -, h⟩ := bind_eq_ok.1 h
  obtain ⟨s, sc₅, hs, h⟩ := bind_eq_ok.1 h
  obtain ⟨_, sc₆, -, h⟩ := bind_eq_ok.1 h
  obtain ⟨rfl, -⟩ := pure_eq_ok.1 h
  cases init with
  | none =>
    obtain ⟨rfl, -⟩ := pure_eq_ok.1 hvalue
    obtain ⟨rfl, -⟩ := pure_eq_ok.1 hs
    rfl
  | some e =>
    obtain ⟨value, he, rfl⟩ := mapM_some_eq_ok.1 hvalue
    obtain ⟨s, hstored, rfl⟩ := mapM_some_eq_ok.1 hs
    exact stored_spelled (expr_spelled e he) hstored

theorem setElement_spelled (a i v : Ast.Expr) : StmtSpells checked (.setElement a i v) := by
  intro sc c sc' _ h
  obtain ⟨array, sc₁, ha, h⟩ := bind_eq_ok.1 h
  cases helem : array.type.element? with
  | none =>
    rw [helem] at h
    exact absurd h throw_ne_ok
  | some elem =>
    rw [helem] at h
    obtain ⟨index, sc₂, hi, h⟩ := bind_eq_ok.1 h
    split at h
    · obtain ⟨_, sc₃, -, h⟩ := bind_eq_ok.1 h
      obtain ⟨value, sc₄, hv, h⟩ := bind_eq_ok.1 h
      split at h
      · obtain ⟨rfl, -⟩ := pure_eq_ok.1 h
        have ha : Spelled checked a array := expr_spelled a ha
        have hi : Spelled checked i index := expr_spelled i hi
        have hv : Spelled checked v value := expr_spelled v hv
        rw [stmtEvents, Source.stmtMentions, Source.stored, ← ha.mentions, ← hi.mentions,
          ← hv.mentions, ← hv.uses]
        simp
      · exact absurd h throw_ne_ok
    · exact absurd h throw_ne_ok

/-- A print has one argument, and the judge finds the type by which its format goes. -/
theorem printed_argument {name : String} {es : List Ast.Expr} {c : Expr} (solid : ScopeSolid sc)
    (hcount : es.length = 1) (h : arguments name 1 es [none] sc = .ok ([c], sc')) :
    ∃ e, es = [e] ∧ Spelled checked e c ∧ Judge.expr sc.context.types e = .ok c.type := by
  obtain ⟨e, rfl⟩ := List.length_eq_one_iff.1 hcount
  obtain ⟨c', sc₁, hc, h⟩ := bind_eq_ok.1 h
  obtain ⟨_, sc₂, haccept, h⟩ := bind_eq_ok.1 h
  obtain ⟨-, rfl⟩ := accept_eq_ok haccept
  obtain ⟨heq, rfl⟩ := pure_eq_ok.1 h
  cases heq
  exact ⟨e, rfl, expr_spelled e hc, judged_type solid hc⟩

theorem callStmt_spelled (name : String) (es : List Ast.Expr) :
    StmtSpells checked (.expr (.call name es)) := by
  intro sc c sc' solid h
  obtain ⟨call, sc₁, hcall, h⟩ := bind_eq_ok.1 h
  obtain ⟨rfl, rfl⟩ := pure_eq_ok.1 h
  obtain ⟨f, cs, hname, hcount, hargs, happlied⟩ := call_parts hcall
  rw [Source.stmtMentions, Source.callMentions, hname]
  cases happlied with
  | library f cs =>
    exact library_spelled f (arguments_spelled (fun e _ => expr_spelled e) hcount hargs)
  | @printText newline c type =>
    obtain ⟨e, rfl, hspelled, hjudged⟩ := printed_argument solid hcount hargs
    rw [type] at hjudged
    rw [Call.toStmt, stmtEvents, mentioned_append, hspelled.mentions]
    cases newline <;>
      simp [Source.mentionsIn, Source.printed, hjudged, Source.formatted, hspelled.uses]
  | @printInt newline c type =>
    obtain ⟨e, rfl, hspelled, hjudged⟩ := printed_argument solid hcount hargs
    rw [type] at hjudged
    rw [Call.toStmt, stmtEvents, mentioned_append, hspelled.mentions]
    simp [Source.mentionsIn, Source.printed, hjudged, Source.formatted, hspelled.uses]

theorem exprStmt_spelled {e : Ast.Expr} (other : ∀ name es, e ≠ .call name es) :
    StmtSpells checked (.expr e) := by
  intro sc c sc' _ h
  have hstmt : stmt (.expr e) = do return .eval (← expr e) := by
    cases e with
    | call name es => exact absurd rfl (other name es)
    | _ => rfl
  have hsource : Source.stmtMentions sc.context (.expr e) = Source.mentions e := by
    cases e with
    | call name es => exact absurd rfl (other name es)
    | _ => rfl
  rw [hstmt] at h
  obtain ⟨c, sc₁, hc, h⟩ := bind_eq_ok.1 h
  obtain ⟨rfl, -⟩ := pure_eq_ok.1 h
  rw [hsource]
  exact (expr_spelled e hc).mentions

theorem stmt_spelled (s : Ast.Stmt) : StmtSpells checked s := by
  induction s using Ast.Stmt.induct with
  | declare name type init => exact declare_spelled name type init
  | assign name e =>
    intro sc c sc' _ h
    obtain ⟨v, sc₁, -, h⟩ := bind_eq_ok.1 h
    obtain ⟨value, sc₂, he, h⟩ := bind_eq_ok.1 h
    obtain ⟨s, sc₃, hs, h⟩ := bind_eq_ok.1 h
    obtain ⟨rfl, -⟩ := pure_eq_ok.1 h
    exact stored_spelled (expr_spelled e he) hs
  | setElement a i v => exact setElement_spelled a i v
  | expr e =>
    by_cases hcall : ∃ name es, e = .call name es
    · obtain ⟨name, es, rfl⟩ := hcall
      exact callStmt_spelled name es
    · exact exprStmt_spelled fun name es he => hcall ⟨name, es, he⟩
  | branch cond yes no ihyes ihno =>
    intro sc c sc' solid h
    obtain ⟨cond', sc₁, hcond, h⟩ := bind_eq_ok.1 h
    obtain ⟨yes', sc₂, hyes, h⟩ := bind_eq_ok.1 h
    obtain ⟨no', sc₃, hno, h⟩ := bind_eq_ok.1 h
    obtain ⟨rfl, -⟩ := pure_eq_ok.1 h
    obtain ⟨-, hcontext, -⟩ := condition_eq_ok (L := []) hcond
    have hcontext' := (stmts_resolve (L := []) (fun s _ => stmt_resolves s) hyes).context
    obtain ⟨hyes, solid₂⟩ := stmts_spelled ihyes (solid.past hcontext) hyes
    obtain ⟨hno, -⟩ := stmts_spelled ihno solid₂ hno
    rw [stmtEvents, mentioned_append, mentioned_append, condition_spelled hcond, hyes, hno,
      hcontext', hcontext, Source.stmtMentions]
  | loopWhile cond body ih =>
    intro sc c sc' solid h
    obtain ⟨cond', sc₁, hcond, h⟩ := bind_eq_ok.1 h
    obtain ⟨body', sc₂, hbody, h⟩ := bind_eq_ok.1 h
    obtain ⟨rfl, -⟩ := pure_eq_ok.1 h
    obtain ⟨-, hcontext, -⟩ := condition_eq_ok (L := []) hcond
    obtain ⟨hbody, -⟩ := stmts_spelled ih (solid.past hcontext) hbody
    rw [stmtEvents, mentioned_append, condition_spelled hcond, hbody, hcontext,
      Source.stmtMentions]
  | doWhile body cond ih =>
    intro sc c sc' solid h
    obtain ⟨body', sc₁, hbody, h⟩ := bind_eq_ok.1 h
    obtain ⟨cond', sc₂, hcond, h⟩ := bind_eq_ok.1 h
    obtain ⟨rfl, -⟩ := pure_eq_ok.1 h
    obtain ⟨hbody, -⟩ := stmts_spelled ih solid hbody
    rw [stmtEvents, mentioned_append, condition_spelled hcond, hbody, Source.stmtMentions]
  | loopFor init cond step body ihinit ihstep ihbody =>
    intro sc c sc' solid h
    obtain ⟨init', sc₁, hinit, h⟩ := bind_eq_ok.1 h
    obtain ⟨cond', sc₂, hcond, h⟩ := bind_eq_ok.1 h
    obtain ⟨body', sc₃, hbody, h⟩ := bind_eq_ok.1 h
    obtain ⟨step', sc₄, hstep, h⟩ := bind_eq_ok.1 h
    obtain ⟨rfl, -⟩ := pure_eq_ok.1 h
    have hcontext₁ := (clause_resolves (L := []) (fun s _ => stmt_resolves s) hinit).context
    obtain ⟨-, hcontext₂, hcontext₂', -⟩ := guard_eq_ok (L := []) hcond
    have hcontext₃ := (stmts_resolve (L := []) (fun s _ => stmt_resolves s) hbody).context
    obtain ⟨hinit, solid₁⟩ := clause_spelled ihinit solid hinit
    -- The step comes after the body, also for the names that it may use.
    obtain ⟨hbody, solid₃⟩ := stmts_spelled ihbody (solid₁.past hcontext₂') hbody
    obtain ⟨hstep, -⟩ := clause_spelled ihstep solid₃ hstep
    have hguard : mentioned ((cond'.map (events checked)).getD []) = _ := guard_spelled hcond
    rw [stmtEvents, Source.stmtMentions, ← hcontext₁, ← hcontext₂, ← hcontext₃, ← hinit, ← hbody,
      ← hstep, ← hguard]
    simp only [mentioned_append]

/-! ### Programs -/

/-- The log of an accepted program asks of texts what the program does. -/
theorem program_spelled {p : Ast.Program} {q : Program} {warnings : List Warning}
    (h : Program.check p = .ok (q, warnings)) :
    mentioned (stmtsEvents checked q) = Source.stmtsMentions .empty p := by
  obtain ⟨sc', hrun⟩ := check_run h
  have solid : ScopeSolid Scope.empty := nofun
  exact (stmts_spelled (fun s _ => stmt_spelled s) solid hrun).1

end TinyScript.Core.Check
