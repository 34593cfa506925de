import TinyScript.Core.Check
import TinyScript.Proofs.Induction
import TinyScript.Proofs.Meaning.Typing

/-! What checking settles. A program that is accepted is typed against the places
of its declarations and array literals, those are the places of the program as it
was written, and evaluating the checked program is evaluating the written one. The
scope of the checker and the context of the evaluation are the same point of the
text, so both are moved along together. -/

namespace TinyScript.Core.Check

open Meaning
open Meaning.Source (Context)

variable {α β : Type}

/-! ### Running a check -/

theorem bind_eq_ok {x : Checked α} {f : α → Checked β} {sc : Scope} {r : β × Scope} :
    (x >>= f) sc = .ok r ↔ ∃ a sc', x sc = .ok (a, sc') ∧ f a sc' = .ok r := by
  show (Except.bind (x sc) fun p => f p.1 p.2) = .ok r ↔ _
  cases x sc with
  | error e => simp [Except.bind]
  | ok p =>
    obtain ⟨a, sc'⟩ := p
    simp [Except.bind]

theorem pure_eq_ok {a b : α} {sc sc' : Scope} :
    (pure a : Checked α) sc = .ok (b, sc') ↔ a = b ∧ sc = sc' := by
  show Except.ok (a, sc) = .ok (b, sc') ↔ _
  simp

theorem throw_ne_ok {e : CheckError} {sc : Scope} {r : α × Scope} :
    ¬(throw e : Checked α) sc = .ok r := by
  intro h
  cases h

theorem freshSlot_eq_ok {sc sc' : Scope} {k : Nat} :
    freshSlot sc = .ok (k, sc') ↔ k = sc.slots ∧ sc' = { sc with slots := sc.slots + 1 } := by
  show Except.ok (sc.slots, ({ sc with slots := sc.slots + 1 } : Scope)) = .ok (k, sc') ↔ _
  simp only [Except.ok.injEq, Prod.mk.injEq]
  exact ⟨fun h => ⟨h.1.symm, h.2.symm⟩, fun h => ⟨h.1.symm, h.2.symm⟩⟩

theorem get_bind (f : Scope → Checked α) (sc : Scope) : (get >>= f) sc = f sc sc := rfl

theorem held_eq_ok {t : Ty} {sc sc' : Scope} {u : Unit} (h : held t sc = .ok (u, sc')) :
    sc = sc' := by
  unfold held at h
  split at h
  · exact (pure_eq_ok.1 h).2
  · exact absurd h throw_ne_ok

theorem lookup_eq_ok {name : String} {sc sc' : Scope} {v : Var} :
    lookup name sc = .ok (v, sc') ↔ sc.lookup? name = some v ∧ sc = sc' := by
  rw [lookup, get_bind]
  cases sc.lookup? name with
  | none => simp [throw_ne_ok]
  | some w => simp [pure_eq_ok]

theorem warn_eq_ok {w : Warning} {sc sc' : Scope} {u : Unit} :
    warn w sc = .ok (u, sc') ↔ sc' = { sc with warnings := sc.warnings ++ [w] } := by
  show Except.ok ((), ({ sc with warnings := sc.warnings ++ [w] } : Scope)) = .ok (u, sc') ↔ _
  simp only [Except.ok.injEq, Prod.mk.injEq, true_and]
  exact eq_comm

theorem mapM_some_eq_ok {f : α → Checked β} {a : α} {sc sc' : Scope} {r : Option β} :
    (some a).mapM f sc = .ok (r, sc') ↔ ∃ b, f a sc = .ok (b, sc') ∧ some b = r := by
  show (Except.bind (f a sc) fun p => .ok (some p.1, p.2)) = .ok (r, sc') ↔ _
  cases f a sc with
  | error e => simp [Except.bind]
  | ok p =>
    obtain ⟨b, sc₁⟩ := p
    simp only [Except.bind, Except.ok.injEq, Prod.mk.injEq]
    exact ⟨fun h => ⟨b, ⟨rfl, h.2⟩, h.1⟩, fun ⟨_, hb, hr⟩ => ⟨hb.1 ▸ hr, hb.2⟩⟩

/-! ### Places and scopes -/

/-- Places that stand in a list from a position on. -/
def Stand (L : List Place) (n : Nat) (P : List Place) : Prop :=
  ∀ i, i < P.length → L[n + i]? = P[i]?

theorem Stand.left {L P Q : List Place} {n : Nat} (h : Stand L n (P ++ Q)) : Stand L n P := by
  intro i hi
  rw [h i (by rw [List.length_append]; omega), List.getElem?_append_left hi]

theorem Stand.right {L P Q : List Place} {n : Nat} (h : Stand L n (P ++ Q)) :
    Stand L (n + P.length) Q := by
  intro i hi
  rw [Nat.add_assoc, h (P.length + i) (by rw [List.length_append]; omega),
    List.getElem?_append_right (by omega), Nat.add_sub_cancel_left]

theorem Stand.head {L : List Place} {n : Nat} {p : Place} (h : Stand L n [p]) :
    L[n]? = some p := h 0 (by simp)

theorem type_of_element? {t elem : Ty} (h : t.element? = some elem) : t = .array elem := by
  cases t <;> cases h
  rfl

/-- The point of the text that a scope stands for. -/
def Scope.context (sc : Scope) : Context := ⟨sc.vars, sc.slots⟩

/-- The variables of a scope own cells of their types. -/
def Scope.Fits (L : List Place) (sc : Scope) : Prop :=
  ∀ v ∈ sc.vars, L[v.slot]? = some (.cell v.type)

theorem Scope.Fits.lookup {L : List Place} {sc : Scope} (h : sc.Fits L) {name : String} {v : Var}
    (hv : sc.lookup? name = some v) : L[v.slot]? = some (.cell v.type) :=
  h v (List.mem_of_find?_eq_some hv)

theorem Scope.Fits.congr {L : List Place} {sc sc' : Scope} (h : sc.Fits L)
    (hvars : sc'.vars = sc.vars) : sc'.Fits L := by
  intro v hv
  rw [hvars] at hv
  exact h v hv

/-- A scope fits, and the places of the part that comes next stand where it says. -/
structure Ready (L : List Place) (sc : Scope) (P : List Place) : Prop where
  fits : sc.Fits L
  stand : Stand L sc.slots P

theorem Ready.left {L P Q : List Place} {sc : Scope} (h : Ready L sc (P ++ Q)) : Ready L sc P :=
  ⟨h.fits, h.stand.left⟩

/-- What comes after a part that declares nothing. -/
theorem Ready.right {L P Q : List Place} {sc sc' : Scope} (h : Ready L sc (P ++ Q))
    (hcontext : sc'.context = ⟨sc.vars, sc.slots + P.length⟩) : Ready L sc' Q := by
  obtain ⟨vars, slots, warnings⟩ := sc'
  cases hcontext
  exact ⟨h.fits, h.stand.right⟩

/-! ### Equal computations -/

section Agreement

variable {L : List Place} {st : Store}

theorem repeatWhile_agrees {turn turn' : Eval Bool}
    (h : ∀ st : Store, st.Typed L → turn st = turn' st)
    (hyields : ∀ st : Store, st.Typed L → Yields L st (turn' st) fun _ _ => True) (fuel : Nat)
    (typed : st.Typed L) :
    repeatWhile turn fuel st = repeatWhile turn' fuel st := by
  induction fuel generalizing st with
  | zero => rfl
  | succ fuel ih =>
    refine bind_agrees (h st typed) (hyields st typed) ?_
    intro st' again typed' _ _
    cases again with
    | false => rfl
    | true => exact ih typed'

theorem operate_arith {op : Ast.BinaryOp} {o : ArithOp} (h : arithOp? op = some o) {a b : Value}
    (ha : HasType L st .i32 a) (hb : HasType L st .i32 b) :
    Source.operate op a b = Resolved.arith o a b := by
  cases ha
  cases hb
  cases op <;> cases h <;> rfl

theorem operate_compare {op : Ast.BinaryOp} {o : CompareOp} (h : compareOp? op = some o) {t : Ty}
    (ht : Comparable t) {a b : Value} (ha : HasType L st t a) (hb : HasType L st t b) :
    Source.operate op a b = Resolved.compare o a b := by
  rcases ht with rfl | rfl
  · cases ha
    cases hb
    cases op <;> cases h <;> rfl
  · cases ha
    cases hb
    cases op <;> cases h <;> rfl

theorem operate_sameText (negated : Bool) {a b : Value} (ha : HasType L st .str a)
    (hb : HasType L st .str b) :
    Source.operate (if negated then .ne else .eq) a b =
      Resolved.sameText negated a b := by
  cases ha with
  | str a =>
    cases hb with
    | str b =>
      cases negated with
      | true => simp [Source.operate, Resolved.sameText]
      | false => simp [Source.operate, Resolved.sameText]

end Agreement

/-! ### Expressions -/

section Expressions

variable {L : List Place}

/-- What is known of a checked expression `c` for `e`, the scopes before and after
it. -/
structure Resolves (L : List Place) (sc : Scope) (e : Ast.Expr) (c : Expr) (sc' : Scope) : Prop where
  places : Resolved.places c = Source.places e
  context : sc'.context = sc.context.past e
  typed : Ready L sc (Source.places e) → Typed L c
  agrees : Ready L sc (Source.places e) → ∀ st : Store, st.Typed L →
    Source.expr sc.context e st = Resolved.expr c st

/-- The same for expressions one after the other. -/
structure ResolvesAll (L : List Place) (sc : Scope) (es : List Ast.Expr) (cs : List Expr)
    (sc' : Scope) : Prop where
  places : Resolved.placesIn cs = Source.placesIn es
  length : cs.length = es.length
  context : sc'.context = ⟨sc.vars, sc.slots + (Source.placesIn es).length⟩
  typed : Ready L sc (Source.placesIn es) → ∀ c ∈ cs, Typed L c
  agrees : Ready L sc (Source.placesIn es) → ∀ st : Store, st.Typed L →
    Source.exprs sc.context es st = Resolved.exprs cs st

variable {sc sc' sc₁ sc₂ : Scope}

theorem Resolves.ready {e : Ast.Expr} {c : Expr} {P : List Place} (h : Resolves L sc e c sc')
    (ready : Ready L sc (Source.places e ++ P)) : Ready L sc' P := ready.right h.context

theorem Resolves.yields {e : Ast.Expr} {c : Expr} (h : Resolves L sc e c sc')
    (ready : Ready L sc (Source.places e)) {st : Store} (typed : st.Typed L) :
    Yields L st (Resolved.expr c st) fun st' v => HasType L st' c.type v :=
  Resolved.expr_sound (h.typed ready) st typed

theorem ResolvesAll.yields {es : List Ast.Expr} {cs : List Expr} (h : ResolvesAll L sc es cs sc')
    (ready : Ready L sc (Source.placesIn es)) {st : Store} (typed : st.Typed L) :
    Yields L st (Resolved.exprs cs st) fun st' vs =>
      List.Forall₂ (HasType L st') (cs.map Expr.type) vs :=
  Resolved.exprs_yields typed fun c hc => Resolved.expr_sound (h.typed ready c hc)

theorem ResolvesAll.nil : ResolvesAll L sc [] [] sc :=
  ⟨rfl, rfl, rfl, fun _ _ h => (nomatch h), fun _ _ _ => rfl⟩

theorem ResolvesAll.cons {e : Ast.Expr} {es : List Ast.Expr} {c : Expr} {cs : List Expr}
    (h : Resolves L sc e c sc₁) (hs : ResolvesAll L sc₁ es cs sc₂) :
    ResolvesAll L sc (e :: es) (c :: cs) sc₂ := by
  have hvars : sc₁.vars = sc.vars := congrArg Context.vars h.context
  have hslots : sc₁.slots = sc.slots + (Source.places e).length := congrArg Context.next h.context
  refine ⟨?_, ?_, ?_, ?_, ?_⟩
  · rw [Resolved.placesIn, Source.placesIn, h.places, hs.places]
  · rw [List.length_cons, List.length_cons, hs.length]
  · rw [hs.context, hvars, hslots, Source.placesIn, List.length_append, Nat.add_assoc]
  · intro ready
    exact List.forall_mem_cons.2 ⟨h.typed ready.left, hs.typed (h.ready ready)⟩
  · intro ready st typed
    refine bind_agrees (h.agrees ready.left st typed) (h.yields ready.left typed) ?_
    intro st₁ v typed₁ _ _
    have hagree := hs.agrees (h.ready ready) st₁ typed₁
    rw [h.context] at hagree
    refine bind_agrees hagree (hs.yields (h.ready ready) typed₁) ?_
    intro _ _ _ _ _
    rfl

/-- Two operands and an operator. -/
theorem Resolves.binary {op : Ast.BinaryOp} {l r : Ast.Expr} {lhs rhs c : Expr}
    {f : Value → Value → Eval Value}
    (hl : Resolves L sc l lhs sc₁) (hr : Resolves L sc₁ r rhs sc₂)
    (places : Resolved.places c = Resolved.places lhs ++ Resolved.places rhs)
    (typed : Typed L lhs → Typed L rhs → Typed L c)
    (expr : Resolved.expr c = do let a ← Resolved.expr lhs; let b ← Resolved.expr rhs; f a b)
    (agrees : ∀ (st : Store) a b, HasType L st lhs.type a → HasType L st rhs.type b →
      Source.operate op a b = f a b) :
    Resolves L sc (.binary op l r) c sc₂ := by
  refine ⟨?_, ?_, ?_, ?_⟩
  · rw [places, Source.places, hl.places, hr.places]
  · rw [hr.context, hl.context]
    simp only [Context.past, Source.places, List.length_append, Nat.add_assoc]
  · intro ready
    exact typed (hl.typed ready.left) (hr.typed (hl.ready ready))
  · intro ready st htyped
    rw [expr]
    refine bind_agrees (hl.agrees ready.left st htyped) (hl.yields ready.left htyped) ?_
    intro st₁ a typed₁ _ ha
    have hagree := hr.agrees (hl.ready ready) st₁ typed₁
    rw [hl.context] at hagree
    refine bind_agrees hagree (hr.yields (hl.ready ready) typed₁) ?_
    intro st₂ b _ grows hb
    rw [agrees st₂ a b (ha.mono grows) hb]

theorem resolves_compared {op : Ast.BinaryOp} {l r : Ast.Expr} {lhs rhs c : Expr}
    (hl : Resolves L sc l lhs sc₁) (hr : Resolves L sc₁ r rhs sc₂) (ht : Comparable lhs.type)
    (same : rhs.type = lhs.type) (h : compared op lhs rhs sc₂ = .ok (c, sc')) :
    Resolves L sc (.binary op l r) c sc' := by
  rw [compared] at h
  cases ho : compareOp? op with
  | none =>
    rw [ho] at h
    exact absurd h throw_ne_ok
  | some o =>
    rw [ho] at h
    obtain ⟨rfl, rfl⟩ := pure_eq_ok.1 h
    refine hl.binary hr rfl (fun h₁ h₂ => .compare o h₁ h₂ ht same) rfl ?_
    intro st a b ha hb
    exact operate_compare ho ht ha (same ▸ hb)

/-- The types of operands that an operator may have. -/
theorem binary_operands (op : Ast.BinaryOp) (lhs rhs : Expr) :
    (lhs.type = .i32 ∧ rhs.type = .i32) ∨ (lhs.type = .bool ∧ rhs.type = .bool) ∨
      (lhs.type = .str ∧ rhs.type = .str) ∨
      binary op lhs rhs = throw (.invalidOperands op lhs.type rhs.type) := by
  unfold binary
  split
  · exact .inl ⟨‹_›, ‹_›⟩
  · exact .inr (.inl ⟨‹_›, ‹_›⟩)
  · exact .inr (.inr (.inl ⟨‹_›, ‹_›⟩))
  · exact .inr (.inr (.inr rfl))

theorem resolves_binary {op : Ast.BinaryOp} {l r : Ast.Expr} {lhs rhs c : Expr}
    (hl : Resolves L sc l lhs sc₁) (hr : Resolves L sc₁ r rhs sc₂)
    (h : binary op lhs rhs sc₂ = .ok (c, sc')) : Resolves L sc (.binary op l r) c sc' := by
  rcases binary_operands op lhs rhs with ⟨hlt, hrt⟩ | ⟨hlt, hrt⟩ | ⟨hlt, hrt⟩ | hthrow
  · simp only [binary, hlt, hrt] at h
    cases ho : arithOp? op with
    | none =>
      rw [ho] at h
      exact resolves_compared hl hr (.inl hlt) (hrt.trans hlt.symm) h
    | some o =>
      rw [ho] at h
      obtain ⟨rfl, rfl⟩ := pure_eq_ok.1 h
      refine hl.binary hr rfl (fun h₁ h₂ => .arith o h₁ h₂ hlt hrt) rfl ?_
      intro st a b ha hb
      exact operate_arith ho (hlt ▸ ha) (hrt ▸ hb)
  · simp only [binary, hlt, hrt] at h
    split at h
    · exact resolves_compared hl hr (.inr hlt) (hrt.trans hlt.symm) h
    · exact absurd h throw_ne_ok
  · have same (negated : Bool) :
        Resolves L sc (.binary (if negated then .ne else .eq) l r) (.sameText negated lhs rhs)
          sc₂ := by
      refine hl.binary hr rfl (fun h₁ h₂ => .sameText negated h₁ h₂ hlt hrt) rfl ?_
      intro st a b ha hb
      exact operate_sameText negated (hlt ▸ ha) (hrt ▸ hb)
    simp only [binary, hlt, hrt] at h
    cases op with
    | eq =>
      obtain ⟨rfl, rfl⟩ := pure_eq_ok.1 h
      exact same false
    | ne =>
      obtain ⟨rfl, rfl⟩ := pure_eq_ok.1 h
      exact same true
    | _ => exact absurd h throw_ne_ok
  · rw [hthrow] at h
    exact absurd h throw_ne_ok

/-- Every check of an expression that succeeds resolves it. -/
def Resolvable (L : List Place) (e : Ast.Expr) : Prop :=
  ∀ {sc : Scope} {c : Expr} {sc' : Scope}, expr e sc = .ok (c, sc') → Resolves L sc e c sc'

theorem elements_resolves {elem : Ty} {es : List Ast.Expr} {cs : List Expr}
    (ih : ∀ e ∈ es, Resolvable L e) (h : elements elem es sc = .ok (cs, sc')) :
    ResolvesAll L sc es cs sc' ∧ ∀ c ∈ cs, c.type = elem := by
  induction es generalizing sc cs with
  | nil =>
    obtain ⟨rfl, rfl⟩ := pure_eq_ok.1 h
    exact ⟨.nil, fun _ h => (nomatch h)⟩
  | cons e es ihes =>
    obtain ⟨c, sc₁, hc, h⟩ := bind_eq_ok.1 h
    by_cases htype : c.type = elem
    · rw [if_pos htype] at h
      obtain ⟨cs', sc₂, hcs, h⟩ := bind_eq_ok.1 h
      obtain ⟨rfl, rfl⟩ := pure_eq_ok.1 h
      obtain ⟨hall, htypes⟩ := ihes (fun e he => ih e (List.mem_cons_of_mem _ he)) hcs
      exact ⟨.cons (ih e List.mem_cons_self hc) hall, List.forall_mem_cons.2 ⟨htype, htypes⟩⟩
    · rw [if_neg htype] at h
      exact absurd h throw_ne_ok

/-- An argument has the type its parameter asks for, if any. -/
def Accepted (param : Option Ty) (c : Expr) : Prop := ∀ t, param = some t → c.type = t

theorem accept_eq_ok {name : String} {position : Nat} {param : Option Ty} {c : Expr} {u : Unit}
    (h : accept name position param c.type sc = .ok (u, sc')) : Accepted param c ∧ sc = sc' := by
  cases param with
  | none => exact ⟨fun _ h => (nomatch h), (pure_eq_ok.1 h).2⟩
  | some t =>
    change (if c.type = t then _ else _ : Checked Unit) sc = _ at h
    by_cases htype : c.type = t
    · rw [if_pos htype] at h
      refine ⟨?_, (pure_eq_ok.1 h).2⟩
      rintro _ ⟨⟩
      exact htype
    · rw [if_neg htype] at h
      exact absurd h throw_ne_ok

theorem arguments_resolves {name : String} {position : Nat} {es : List Ast.Expr}
    {params : List (Option Ty)} {cs : List Expr} (ih : ∀ e ∈ es, Resolvable L e)
    (hlen : es.length = params.length)
    (h : arguments name position es params sc = .ok (cs, sc')) :
    ResolvesAll L sc es cs sc' ∧ List.Forall₂ Accepted params cs := by
  induction es generalizing sc cs position params with
  | nil =>
    cases params with
    | nil =>
      obtain ⟨rfl, rfl⟩ := pure_eq_ok.1 h
      exact ⟨.nil, .nil⟩
    | cons _ _ => cases hlen
  | cons e es ihes =>
    cases params with
    | nil => cases hlen
    | cons param params =>
      obtain ⟨c, sc₁, hc, h⟩ := bind_eq_ok.1 h
      obtain ⟨_, sc₂, haccept, h⟩ := bind_eq_ok.1 h
      obtain ⟨haccepted, rfl⟩ := accept_eq_ok haccept
      obtain ⟨cs', sc₃, hcs, h⟩ := bind_eq_ok.1 h
      obtain ⟨rfl, rfl⟩ := pure_eq_ok.1 h
      obtain ⟨hall, htypes⟩ :=
        ihes (fun e he => ih e (List.mem_cons_of_mem _ he)) (Nat.succ.inj hlen) hcs
      exact ⟨.cons (ih e List.mem_cons_self hc) hall, .cons haccepted htypes⟩

theorem callee_eq_ok {name : String} {count : Nat} {f : Builtin}
    (h : callee name count sc = .ok (f, sc')) :
    Builtin.ofName? name = some f ∧ count = (parameters f).length ∧ sc = sc' := by
  unfold callee at h
  cases hname : Builtin.ofName? name with
  | none =>
    rw [hname] at h
    exact absurd h throw_ne_ok
  | some g =>
    rw [hname] at h
    by_cases hcount : count = (parameters g).length
    · simp only [hcount, if_true] at h
      obtain ⟨rfl, rfl⟩ := pure_eq_ok.1 h
      exact ⟨rfl, hcount, rfl⟩
    · simp only [hcount, if_false] at h
      exact absurd h throw_ne_ok

/-- The arguments of a library function have the types of its parameters. -/
theorem types_of_accepted {ts : List Ty} {cs : List Expr}
    (h : List.Forall₂ Accepted (ts.map some) cs) : cs.map Expr.type = ts := by
  induction ts generalizing cs with
  | nil =>
    cases h
    rfl
  | cons t ts ih =>
    cases h with
    | cons hc hcs => rw [List.map_cons, hc t rfl, ih hcs]

/-- What a checked call is. -/
inductive Applied : Builtin → List Expr → Call → Prop
  | library (f : Library.Function) (args : List Expr) :
      Applied (.library f) args (.library f args)
  | printText (newline : Bool) {e : Expr} (type : e.type = .str) :
      Applied (.print newline) [e] (.printText newline e)
  | printInt (newline : Bool) {e : Expr} (type : e.type = .i32) :
      Applied (.print newline) [e] (.printInt newline e)

theorem printed_eq_ok {newline : Bool} {e : Expr} {call : Call}
    (h : printed newline e sc = .ok (call, sc')) :
    Applied (.print newline) [e] call ∧ sc = sc' := by
  unfold printed at h
  cases htype : e.type with
  | str =>
    rw [htype] at h
    obtain ⟨rfl, rfl⟩ := pure_eq_ok.1 h
    exact ⟨.printText newline htype, rfl⟩
  | i32 =>
    rw [htype] at h
    obtain ⟨rfl, rfl⟩ := pure_eq_ok.1 h
    exact ⟨.printInt newline htype, rfl⟩
  | f64 | bool | void | array elem =>
    rw [htype] at h
    exact absurd h throw_ne_ok

theorem applied_eq_ok {f : Builtin} {args : List Expr} {call : Call}
    (h : applied f args sc = .ok (call, sc')) : Applied f args call ∧ sc = sc' := by
  unfold applied at h
  split at h
  · obtain ⟨rfl, rfl⟩ := pure_eq_ok.1 h
    exact ⟨.library _ _, rfl⟩
  · exact printed_eq_ok h
  · exact absurd h throw_ne_ok

/-- The parts of a call that was checked. -/
theorem call_eq_ok {name : String} {es : List Ast.Expr} {call : Call}
    (ih : ∀ e ∈ es, Resolvable L e) (h : Check.call name es sc = .ok (call, sc')) :
    ∃ f cs, Builtin.ofName? name = some f ∧ ResolvesAll L sc es cs sc' ∧
      List.Forall₂ Accepted (parameters f) cs ∧ Applied f cs call := by
  obtain ⟨f, sc₁, hf, h⟩ := bind_eq_ok.1 h
  obtain ⟨hname, hcount, rfl⟩ := callee_eq_ok hf
  obtain ⟨cs, sc₂, hcs, h⟩ := bind_eq_ok.1 h
  obtain ⟨hall, htypes⟩ := arguments_resolves ih hcount hcs
  obtain ⟨happlied, rfl⟩ := applied_eq_ok h
  exact ⟨f, cs, hname, hall, htypes, happlied⟩

/-- An array literal takes its slot after its elements took theirs. -/
theorem resolves_array {hint : String} {elem : Ty} {es : List Ast.Expr} {cs : List Expr}
    (helem : Ty.ofName? hint = some elem) (h : ResolvesAll L sc es cs sc₁)
    (htypes : ∀ c ∈ cs, c.type = elem) :
    Resolves L sc (.array hint es) (.array sc₁.slots elem cs)
      { sc₁ with slots := sc₁.slots + 1 } := by
  have hslots : sc₁.slots = sc.slots + (Source.placesIn es).length :=
    congrArg Context.next h.context
  have hvars : sc₁.vars = sc.vars := congrArg Context.vars h.context
  have hplace : Source.elementType hint = elem := by
    rw [Source.elementType, helem]
    rfl
  refine ⟨?_, ?_, ?_, ?_⟩
  · rw [Resolved.places, Source.places, h.places, hplace, h.length]
  · simp only [Scope.context, Context.past, Source.places, List.length_append, hslots, hvars,
      List.length_singleton, Nat.add_assoc]
  · intro ready
    refine .array (h.typed ready.left) htypes ?_
    have hstand := ready.stand.right.head
    rwa [hslots, h.length, ← hplace]
  · intro ready st typed
    refine bind_agrees (h.agrees ready.left st typed) (h.yields ready.left typed) ?_
    intro st' vs _ _ _
    rw [hslots]
    rfl

theorem resolves_element {a i : Ast.Expr} {array index : Expr} {elem : Ty}
    (ha : Resolves L sc a array sc₁) (hi : Resolves L sc₁ i index sc₂)
    (atype : array.type = .array elem) (itype : index.type = .i32) :
    Resolves L sc (.index a i) (.element elem array index) sc₂ := by
  refine ⟨?_, ?_, ?_, ?_⟩
  · rw [Resolved.places, Source.places, ha.places, hi.places]
  · rw [hi.context, ha.context]
    simp only [Context.past, Source.places, List.length_append, Nat.add_assoc]
  · intro ready
    exact .element (ha.typed ready.left) (hi.typed (ha.ready ready)) atype itype
  · intro ready st typed
    refine bind_agrees (ha.agrees ready.left st typed) (ha.yields ready.left typed) ?_
    intro st₁ v typed₁ _ _
    have hagree := hi.agrees (ha.ready ready) st₁ typed₁
    rw [ha.context] at hagree
    refine bind_agrees hagree (hi.yields (ha.ready ready) typed₁) ?_
    intro _ _ _ _ _
    rfl

theorem resolves_length {base : Ast.Expr} {name : String} {array : Expr} {elem : Ty}
    (h : Resolves L sc base array sc₁) (atype : array.type = .array elem) :
    Resolves L sc (.member base name) (.length array) sc₁ := by
  refine ⟨?_, ?_, ?_, ?_⟩
  · rw [Resolved.places, Source.places, h.places]
  · rw [h.context]
    rfl
  · exact fun ready => .length (h.typed ready) atype
  · intro ready st typed
    refine bind_agrees (h.agrees ready st typed) (h.yields ready typed) ?_
    intro _ _ _ _ _
    rfl

theorem resolves_call {name : String} {es : List Ast.Expr} {f : Library.Function} {cs : List Expr}
    (hname : Builtin.ofName? name = some (.library f)) (h : ResolvesAll L sc es cs sc₁)
    (htypes : cs.map Expr.type = f.signature.params) (hresult : f.signature.result ≠ .void) :
    Resolves L sc (.call name es) (.call f cs) sc₁ := by
  refine ⟨?_, ?_, ?_, ?_⟩
  · rw [Resolved.places, Source.places, h.places]
  · rw [h.context]
    rfl
  · exact fun ready => .call (h.typed ready) htypes hresult
  · intro ready st typed
    refine bind_agrees (h.agrees ready st typed) (h.yields ready typed) ?_
    intro st' vs _ _ _
    rw [hname]

/-- An expression without parts. -/
theorem resolves_leaf {e : Ast.Expr} {c : Expr} (hplaces : Resolved.places c = [])
    (hplaces' : Source.places e = []) (htyped : sc.Fits L → Typed L c)
    (hagrees : Source.expr sc.context e = Resolved.expr c) : Resolves L sc e c sc := by
  refine ⟨?_, ?_, ?_, ?_⟩
  · rw [hplaces, hplaces']
  · rw [Context.past, hplaces']
    rfl
  · exact fun ready => htyped ready.fits
  · intro _ st _
    rw [hagrees]

theorem expr_resolves (e : Ast.Expr) : Resolvable L e := by
  induction e using Ast.Expr.induct with
  | str s =>
    intro sc c sc' h
    obtain ⟨rfl, rfl⟩ := pure_eq_ok.1 h
    exact resolves_leaf rfl rfl (fun _ => .str s) rfl
  | int n =>
    intro sc c sc' h
    change (if _ then _ else _ : Checked Expr) sc = _ at h
    split at h
    · obtain ⟨rfl, rfl⟩ := pure_eq_ok.1 h
      exact resolves_leaf rfl rfl (fun _ => .int _) rfl
    · exact absurd h throw_ne_ok
  | float d =>
    intro sc c sc' h
    obtain ⟨rfl, rfl⟩ := pure_eq_ok.1 h
    exact resolves_leaf rfl rfl (fun _ => .float d) rfl
  | bool b =>
    intro sc c sc' h
    obtain ⟨rfl, rfl⟩ := pure_eq_ok.1 h
    exact resolves_leaf rfl rfl (fun _ => .bool b) rfl
  | var x =>
    intro sc c sc' h
    obtain ⟨v, sc₁, hv, h⟩ := bind_eq_ok.1 h
    obtain ⟨hfound, rfl⟩ := lookup_eq_ok.1 hv
    obtain ⟨_, sc₂, hheld, h⟩ := bind_eq_ok.1 h
    obtain rfl := held_eq_ok hheld
    obtain ⟨rfl, rfl⟩ := pure_eq_ok.1 h
    refine resolves_leaf rfl rfl (fun fits => .load (fits.lookup hfound)) ?_
    show (do let v ← orStuck (sc.lookup? x); readCell v.slot) = readCell v.slot
    rw [hfound]
    rfl
  | binary op l r ihl ihr =>
    intro sc c sc' h
    obtain ⟨lhs, sc₁, hl, h⟩ := bind_eq_ok.1 h
    obtain ⟨rhs, sc₂, hr, h⟩ := bind_eq_ok.1 h
    exact resolves_binary (ihl hl) (ihr hr) h
  | array hint es ih =>
    intro sc c sc' h
    rw [expr] at h
    cases helem : Ty.ofName? hint with
    | none =>
      rw [helem] at h
      exact absurd h throw_ne_ok
    | some elem =>
      rw [helem] at h
      obtain ⟨cs, sc₁, hcs, h⟩ := bind_eq_ok.1 h
      obtain ⟨_, sc₂, hheld, h⟩ := bind_eq_ok.1 h
      obtain rfl := held_eq_ok hheld
      obtain ⟨k, sc₃, hk, h⟩ := bind_eq_ok.1 h
      obtain ⟨rfl, rfl⟩ := freshSlot_eq_ok.1 hk
      obtain ⟨_, sc₄, hheld, h⟩ := bind_eq_ok.1 h
      obtain rfl := held_eq_ok hheld
      obtain ⟨rfl, rfl⟩ := pure_eq_ok.1 h
      obtain ⟨hall, htypes⟩ := elements_resolves ih hcs
      exact resolves_array helem hall htypes
  | index a i iha ihi =>
    intro sc c sc' h
    obtain ⟨array, sc₁, ha, h⟩ := bind_eq_ok.1 h
    cases helem : array.type.element? with
    | none =>
      rw [helem] at h
      exact absurd h throw_ne_ok
    | some elem =>
      rw [helem] at h
      obtain ⟨index, sc₂, hi, h⟩ := bind_eq_ok.1 h
      by_cases htype : index.type = .i32
      · rw [if_pos htype] at h
        obtain ⟨_, sc₃, hheld, h⟩ := bind_eq_ok.1 h
        obtain rfl := held_eq_ok hheld
        obtain ⟨rfl, rfl⟩ := pure_eq_ok.1 h
        exact resolves_element (iha ha) (ihi hi) (type_of_element? helem) htype
      · rw [if_neg htype] at h
        exact absurd h throw_ne_ok
  | object fields => exact fun h => absurd h throw_ne_ok
  | member base x ih =>
    intro sc c sc' h
    change (if _ then _ else _ : Checked Expr) sc = _ at h
    split at h
    · obtain ⟨array, sc₁, ha, h⟩ := bind_eq_ok.1 h
      by_cases htype : array.type.isArray = true
      · rw [if_pos htype] at h
        obtain ⟨rfl, rfl⟩ := pure_eq_ok.1 h
        obtain ⟨elem, helem⟩ := Option.isSome_iff_exists.1 htype
        exact resolves_length (ih ha) (type_of_element? helem)
      · rw [if_neg htype] at h
        exact absurd h throw_ne_ok
    · exact absurd h throw_ne_ok
  | call x args ih =>
    intro sc c sc' h
    -- the check of a call, and then that it has a value
    obtain ⟨f, sc₁, hf, h⟩ := bind_eq_ok.1 h
    obtain ⟨cs, sc₂, hcs, h⟩ := bind_eq_ok.1 h
    obtain ⟨call, sc₃, hcall, h⟩ := bind_eq_ok.1 h
    have hchecked : Check.call x args sc = .ok (call, sc₃) :=
      bind_eq_ok.2 ⟨f, sc₁, hf, bind_eq_ok.2 ⟨cs, sc₂, hcs, hcall⟩⟩
    obtain ⟨f, cs, hname, hall, htypes, happlied⟩ := call_eq_ok ih hchecked
    cases happlied with
    | library f args =>
      by_cases hresult : f.signature.result = .void
      · simp only [Call.value?, hresult, if_true] at h
        exact absurd h throw_ne_ok
      · simp only [Call.value?, hresult, if_false] at h
        obtain ⟨rfl, rfl⟩ := pure_eq_ok.1 h
        exact resolves_call hname hall (types_of_accepted htypes) hresult
    | printText newline type => exact absurd h throw_ne_ok
    | printInt newline type => exact absurd h throw_ne_ok

end Expressions

end TinyScript.Core.Check
