import TinyScript.Proofs.Core.Check

/-! Checked statements and programs: the same three facts as for expressions, that
places are kept, that the result is typed and that it means what was written. A
statement may declare a variable, so the scope after it fits as well. -/

namespace TinyScript.Core.Check

open Meaning
open Meaning.Source (Context)

variable {L : List Place} {sc sc' sc₁ sc₂ : Scope}

/-! ### Conditions -/

theorem condition_eq_ok {e : Ast.Expr} {c : Expr} (h : condition e sc = .ok (c, sc')) :
    Resolved.places c = Source.places e ∧ sc'.context = sc.context.past e ∧
      (Ready L sc (Source.places e) → Condition L c ∧ ∀ st : Store, st.Typed L →
        Source.condition sc.context e st = Resolved.condition c st) := by
  obtain ⟨cond, sc₁, hcond, h⟩ := bind_eq_ok.1 h
  have hres := @expr_resolves L e sc cond sc₁ hcond
  cases htype : cond.type with
  | bool =>
    rw [htype] at h
    obtain ⟨rfl, rfl⟩ := pure_eq_ok.1 h
    refine ⟨hres.places, hres.context, fun ready => ⟨⟨hres.typed ready, htype⟩, ?_⟩⟩
    intro st typed
    refine bind_agrees (hres.agrees ready st typed) (hres.yields ready typed) ?_
    intro _ _ _ _ _
    rfl
  | i32 =>
    rw [htype] at h
    obtain ⟨rfl, rfl⟩ := pure_eq_ok.1 h
    refine ⟨hres.places, hres.context, fun ready => ⟨⟨.nonzero (hres.typed ready) htype, rfl⟩, ?_⟩⟩
    intro st typed
    show _ = (Resolved.expr cond >>= Resolved.nonzero >>= truth : Eval Bool) st
    rw [bind_bind]
    refine bind_agrees (hres.agrees ready st typed) (hres.yields ready typed) ?_
    intro st' v _ _ hv
    rw [htype] at hv
    cases hv
    rfl
  | str | f64 | void | array elem =>
    rw [htype] at h
    exact absurd h throw_ne_ok

/-! ### Stores -/

theorem converted_self {st : Store} {t : Ty} {v : Value} (h : HasType L st t v) :
    Source.converted t v = v := by
  cases h <;> rfl

theorem convert_eq {st : Store} {c : Conversion} {source target : Ty} {v : Value}
    (hc : Conversion.between? source target = some c) (hv : HasType L st source v) :
    Resolved.convert c v = pure (Source.converted target v) := by
  cases hv with
  | str b => cases hc
  | array place filled => cases hc
  | int n | bool b | double d =>
    cases target <;> cases hc <;> rfl

/-- A value that may be stored, and the scope that was warned at most. -/
theorem stored_eq_ok {name : String} {declared : Ty} {value : Expr} {s : Stored}
    (h : stored name declared value sc = .ok (s, sc')) :
    s.value = value ∧ sc'.context = sc.context ∧
      match s.convert with
      | none => value.type = declared
      | some c => Conversion.between? value.type declared = some c := by
  unfold stored at h
  by_cases htype : value.type = declared
  · rw [if_pos htype] at h
    obtain ⟨rfl, rfl⟩ := pure_eq_ok.1 h
    exact ⟨rfl, rfl, htype⟩
  · rw [if_neg htype] at h
    obtain ⟨_, sc₁, hwarn, h⟩ := bind_eq_ok.1 h
    cases hc : Conversion.between? value.type declared with
    | none =>
      rw [hc] at h
      exact absurd h throw_ne_ok
    | some c =>
      rw [hc] at h
      obtain ⟨rfl, rfl⟩ := pure_eq_ok.1 h
      rw [warn_eq_ok.1 hwarn]
      exact ⟨rfl, rfl, rfl⟩

/-- Storing what was checked is storing what was written. -/
theorem store_agrees {e : Ast.Expr} {v : Var} {s : Stored} {sc₁ : Scope}
    (hres : Resolves L sc e s.value sc₁) (ready : Ready L sc (Source.places e))
    (hfits : match s.convert with
      | none => s.value.type = v.type
      | some c => Conversion.between? s.value.type v.type = some c)
    {st : Store} (typed : st.Typed L) :
    (do let value ← Source.expr sc.context e; Source.store v value : Eval Unit) st =
      Resolved.assign v s st := by
  unfold Resolved.assign Resolved.stored
  rw [bind_bind]
  refine bind_agrees (hres.agrees ready st typed) (hres.yields ready typed) ?_
  intro st' value _ _ hvalue
  cases hc : s.convert with
  | none =>
    rw [hc] at hfits
    rw [Source.store, converted_self (hfits ▸ hvalue)]
    rfl
  | some c =>
    rw [hc] at hfits
    show Source.store v value st' = (do
      let value ← Resolved.convert c value
      writeCell v.slot value : Eval Unit) st'
    rw [convert_eq hfits hvalue]
    rfl

/-! ### Declarations -/

theorem inferred_eq_ok {name : String} {init : Option Ast.Expr} {t : Ty}
    (h : inferred name init sc = .ok (t, sc')) :
    t = Source.declaredType Ast.auto init ∧ sc'.context = sc.context := by
  have hdefault : (do warn (.inferredDefault name); return .i32 : Checked Ty) sc = .ok (t, sc') →
      t = .i32 ∧ sc'.context = sc.context := by
    intro h
    obtain ⟨_, sc₁, hwarn, h⟩ := bind_eq_ok.1 h
    obtain ⟨rfl, rfl⟩ := pure_eq_ok.1 h
    rw [warn_eq_ok.1 hwarn]
    exact ⟨rfl, rfl⟩
  cases init with
  | none => exact hdefault h
  | some e =>
    cases e with
    | str _ | int _ | float _ | bool _ | array _ _ =>
      obtain ⟨rfl, rfl⟩ := pure_eq_ok.1 h
      exact ⟨rfl, rfl⟩
    | var _ | binary _ _ _ | index _ _ | object _ | member _ _ | call _ _ => exact hdefault h

theorem declaredType_eq_ok {name type : String} {init : Option Ast.Expr} {t : Ty}
    (h : declaredType name type init sc = .ok (t, sc')) :
    t = Source.declaredType type init ∧ sc'.context = sc.context := by
  unfold declaredType at h
  by_cases hauto : type = Ast.auto
  · rw [if_pos hauto] at h
    subst hauto
    exact inferred_eq_ok h
  · rw [if_neg hauto] at h
    cases htype : Ty.ofName? type with
    | none =>
      rw [htype] at h
      exact absurd h throw_ne_ok
    | some u =>
      rw [htype] at h
      obtain ⟨rfl, rfl⟩ := pure_eq_ok.1 h
      unfold Source.declaredType
      rw [if_neg hauto, htype]
      exact ⟨rfl, rfl⟩

/-! ### Statements -/

/-- What is known of a checked statement, the scopes before and after it. -/
structure StmtResolves (L : List Place) (sc : Scope) (s : Ast.Stmt) (c : Stmt) (sc' : Scope) :
    Prop where
  places : Resolved.stmtPlaces c = Source.stmtPlaces s
  context : sc'.context = Source.after sc.context s
  slots : sc'.slots = sc.slots + (Source.stmtPlaces s).length
  fits : Ready L sc (Source.stmtPlaces s) → sc'.Fits L
  typed : Ready L sc (Source.stmtPlaces s) → c.Typed L
  agrees : Ready L sc (Source.stmtPlaces s) → ∀ (fuel : Nat) (st : Store), st.Typed L →
    Source.stmt fuel sc.context s st = Resolved.stmt fuel c st

structure StmtsResolve (L : List Place) (sc : Scope) (ss : List Ast.Stmt) (cs : List Stmt)
    (sc' : Scope) : Prop where
  places : Resolved.stmtsPlaces cs = Source.stmtsPlaces ss
  context : sc'.context = Source.afterAll sc.context ss
  slots : sc'.slots = sc.slots + (Source.stmtsPlaces ss).length
  fits : Ready L sc (Source.stmtsPlaces ss) → sc'.Fits L
  typed : Ready L sc (Source.stmtsPlaces ss) → ∀ c ∈ cs, c.Typed L
  agrees : Ready L sc (Source.stmtsPlaces ss) → ∀ (fuel : Nat) (st : Store), st.Typed L →
    Source.stmts fuel sc.context ss st = Resolved.stmts fuel cs st

structure ClauseResolves (L : List Place) (sc : Scope) (s : Option Ast.Stmt) (c : Option Stmt)
    (sc' : Scope) : Prop where
  places : Resolved.clausePlaces c = Source.clausePlaces s
  context : sc'.context = Source.afterClause sc.context s
  slots : sc'.slots = sc.slots + (Source.clausePlaces s).length
  fits : Ready L sc (Source.clausePlaces s) → sc'.Fits L
  typed : Ready L sc (Source.clausePlaces s) → ∀ c' ∈ c, c'.Typed L
  agrees : Ready L sc (Source.clausePlaces s) → ∀ (fuel : Nat) (st : Store), st.Typed L →
    Source.clause fuel sc.context s st = Resolved.clause fuel c st

/-- What comes after a part of a program. -/
theorem Ready.next {P Q : List Place} (ready : Ready L sc (P ++ Q)) (fits : sc'.Fits L)
    (slots : sc'.slots = sc.slots + P.length) : Ready L sc' Q :=
  ⟨fits, slots ▸ ready.stand.right⟩

/-- Every check of a statement that succeeds resolves it. -/
def StmtResolvable (L : List Place) (s : Ast.Stmt) : Prop :=
  ∀ {sc : Scope} {c : Stmt} {sc' : Scope}, stmt s sc = .ok (c, sc') → StmtResolves L sc s c sc'

theorem stmts_resolve {ss : List Ast.Stmt} {cs : List Stmt} (ih : ∀ s ∈ ss, StmtResolvable L s)
    (h : stmts ss sc = .ok (cs, sc')) : StmtsResolve L sc ss cs sc' := by
  induction ss generalizing sc cs with
  | nil =>
    obtain ⟨rfl, rfl⟩ := pure_eq_ok.1 h
    exact ⟨rfl, rfl, rfl, fun ready => ready.fits, fun _ _ h => (nomatch h), fun _ _ _ _ => rfl⟩
  | cons s ss ihss =>
    obtain ⟨c, sc₁, hc, h⟩ := bind_eq_ok.1 h
    obtain ⟨cs', sc₂, hcs, h⟩ := bind_eq_ok.1 h
    obtain ⟨rfl, rfl⟩ := pure_eq_ok.1 h
    have hs := ih s List.mem_cons_self hc
    have hss := ihss (fun s hs => ih s (List.mem_cons_of_mem _ hs)) hcs
    have hnext : Ready L sc (Source.stmtsPlaces (s :: ss)) →
        Ready L sc₁ (Source.stmtsPlaces ss) := fun ready =>
      ready.next (hs.fits ready.left) hs.slots
    refine ⟨?_, ?_, ?_, ?_, ?_, ?_⟩
    · rw [Resolved.stmtsPlaces, Source.stmtsPlaces, hs.places, hss.places]
    · rw [hss.context, hs.context, Source.afterAll]
    · rw [hss.slots, hs.slots, Source.stmtsPlaces, List.length_append, Nat.add_assoc]
    · exact fun ready => hss.fits (hnext ready)
    · exact fun ready =>
        List.forall_mem_cons.2 ⟨hs.typed ready.left, hss.typed (hnext ready)⟩
    · intro ready fuel st typed
      refine bind_agrees (hs.agrees ready.left fuel st typed)
        (Resolved.stmt_keeps fuel (hs.typed ready.left) st typed) ?_
      intro st' _ typed' _ _
      rw [← hs.context]
      exact hss.agrees (hnext ready) fuel st' typed'

theorem clause_resolves {s : Option Ast.Stmt} {c : Option Stmt}
    (ih : ∀ s' ∈ s, StmtResolvable L s') (h : clause s sc = .ok (c, sc')) :
    ClauseResolves L sc s c sc' := by
  cases s with
  | none =>
    obtain ⟨rfl, rfl⟩ := pure_eq_ok.1 h
    exact ⟨rfl, rfl, rfl, fun ready => ready.fits, fun _ _ h => (nomatch h), fun _ _ _ _ => rfl⟩
  | some s =>
    obtain ⟨c, sc₁, hc, h⟩ := bind_eq_ok.1 h
    obtain ⟨rfl, rfl⟩ := pure_eq_ok.1 h
    have hs := ih s rfl hc
    refine ⟨hs.places, hs.context, hs.slots, hs.fits, ?_, hs.agrees⟩
    rintro ready _ ⟨⟩
    exact hs.typed ready

/-- A statement that only evaluates, and declares nothing. -/
theorem StmtResolves.plain {s : Ast.Stmt} {c : Stmt} {P : List Place}
    (hplaces : Source.stmtPlaces s = P) (hplaces' : Resolved.stmtPlaces c = P)
    (hafter : Source.after sc.context s = ⟨sc.vars, sc.slots + P.length⟩)
    (hcontext : sc'.context = ⟨sc.vars, sc.slots + P.length⟩)
    (h : Ready L sc P → c.Typed L ∧ ∀ (fuel : Nat) (st : Store), st.Typed L →
      Source.stmt fuel sc.context s st = Resolved.stmt fuel c st) :
    StmtResolves L sc s c sc' := by
  subst hplaces
  refine ⟨hplaces', hcontext.trans hafter.symm, congrArg Context.next hcontext, ?_, ?_, ?_⟩
  · intro ready
    exact ready.fits.congr (congrArg Context.vars hcontext)
  · exact fun ready => (h ready).1
  · exact fun ready => (h ready).2

/-- A declaration takes its slot after its initial value took its own. -/
theorem declare_resolves {name type : String} {init : Option Ast.Expr} {c : Stmt}
    (h : declare name type init sc = .ok (c, sc')) :
    StmtResolves L sc (.declare name type init) c sc' := by
  obtain ⟨t, sc₁, ht, h⟩ := bind_eq_ok.1 h
  obtain ⟨rfl, hcontext₁⟩ := declaredType_eq_ok ht
  obtain ⟨value, sc₂, hvalue, h⟩ := bind_eq_ok.1 h
  obtain ⟨_, sc', hheld, h⟩ := bind_eq_ok.1 h
  obtain rfl := held_eq_ok hheld
  obtain ⟨k, sc₃, hk, h⟩ := bind_eq_ok.1 h
  obtain ⟨rfl, rfl⟩ := freshSlot_eq_ok.1 hk
  obtain ⟨s, sc₄, hs, h⟩ := bind_eq_ok.1 h
  obtain ⟨_, sc₅, hmodify, h⟩ := bind_eq_ok.1 h
  obtain ⟨rfl, rfl⟩ := pure_eq_ok.1 h
  cases hmodify
  have hvars₁ : sc₁.vars = sc.vars := congrArg Context.vars hcontext₁
  have hslots₁ : sc₁.slots = sc.slots := congrArg Context.next hcontext₁
  cases init with
  | none =>
    obtain ⟨rfl, rfl⟩ := pure_eq_ok.1 hvalue
    obtain ⟨rfl, rfl⟩ := pure_eq_ok.1 hs
    have hplace : Ready L sc (Source.stmtPlaces (.declare name type none)) →
        L[sc₁.slots]? = some (.cell (Source.declaredType type none)) := by
      intro ready
      rw [hslots₁]
      exact ready.stand.head
    refine ⟨rfl, ?_, ?_, ?_, ?_, ?_⟩
    · show Context.mk (_ :: sc₁.vars) (sc₁.slots + 1) = _
      rw [hvars₁, hslots₁]
      rfl
    · show sc₁.slots + 1 = _
      rw [hslots₁]
      rfl
    · intro ready v hv
      rcases List.mem_cons.1 hv with rfl | hv
      · exact hplace ready
      · exact ready.fits.congr hvars₁ v hv
    · exact fun ready => .declare (hplace ready)
    · exact fun _ _ _ _ => rfl
  | some e =>
    obtain ⟨value, he, rfl⟩ := mapM_some_eq_ok.1 hvalue
    obtain ⟨s, hstored, rfl⟩ := mapM_some_eq_ok.1 hs
    have hres := @expr_resolves L e _ _ _ he
    obtain ⟨rfl, hcontext₄, hfits⟩ := stored_eq_ok hstored
    have hvars₂ : sc₂.vars = sc.vars := (congrArg Context.vars hres.context).trans hvars₁
    have hslots₂ : sc₂.slots = sc.slots + (Source.places e).length :=
      (congrArg Context.next hres.context).trans (by rw [← hslots₁]; rfl)
    have hvars₄ : sc₄.vars = sc.vars := (congrArg Context.vars hcontext₄).trans hvars₂
    have hslots₄ : sc₄.slots = sc.slots + (Source.places e).length + 1 :=
      (congrArg Context.next hcontext₄).trans (congrArg (· + 1) hslots₂)
    have hplace : Ready L sc (Source.stmtPlaces (.declare name type (some e))) →
        L[sc₂.slots]? = some (.cell (Source.declaredType type (some e))) := by
      intro ready
      rw [hslots₂]
      exact ready.stand.right.head
    have hready : Ready L sc (Source.stmtPlaces (.declare name type (some e))) →
        Ready L sc₁ (Source.places e) := fun ready =>
      ⟨ready.fits.congr hvars₁, hslots₁ ▸ ready.stand.left⟩
    refine ⟨?_, ?_, ?_, ?_, ?_, ?_⟩
    · show Resolved.places s.value ++ _ = Source.places e ++ _
      rw [hres.places]
    · show Context.mk (⟨sc₂.slots, _, _⟩ :: sc₄.vars) sc₄.slots = _
      rw [hvars₄, hslots₄, hslots₂]
      rfl
    · show sc₄.slots = _
      rw [hslots₄, Source.stmtPlaces, List.length_append]
      rfl
    · intro ready v hv
      rcases List.mem_cons.1 hv with rfl | hv
      · exact hplace ready
      · exact ready.fits.congr hvars₄ v hv
    · exact fun ready => .init ⟨hres.typed (hready ready), hfits, hplace ready⟩
    · intro ready fuel st typed
      have hagree := @store_agrees L sc₁ e
        ⟨sc₂.slots, name, Source.declaredType type (some e)⟩ s sc₂ hres (hready ready) hfits st typed
      rw [hcontext₁, hslots₂] at hagree
      rw [hslots₂]
      exact hagree

theorem assign_resolves {name : String} {e : Ast.Expr} {c : Stmt}
    (h : stmt (.assign name e) sc = .ok (c, sc')) : StmtResolves L sc (.assign name e) c sc' := by
  obtain ⟨v, sc₁, hv, h⟩ := bind_eq_ok.1 h
  obtain ⟨hfound, rfl⟩ := lookup_eq_ok.1 hv
  obtain ⟨value, sc₂, he, h⟩ := bind_eq_ok.1 h
  obtain ⟨s, sc₃, hs, h⟩ := bind_eq_ok.1 h
  obtain ⟨rfl, rfl⟩ := pure_eq_ok.1 h
  have hres := @expr_resolves L e _ _ _ he
  obtain ⟨rfl, hcontext₃, hfits⟩ := stored_eq_ok hs
  refine .plain rfl hres.places rfl (hcontext₃.trans hres.context) ?_
  intro ready
  refine ⟨.assign ⟨hres.typed ready, hfits, ready.fits.lookup hfound⟩, ?_⟩
  intro fuel st typed
  have hlookup : orStuck (sc.context.lookup? name) = pure v := congrArg orStuck hfound
  show (do
    let var ← orStuck (sc.context.lookup? name)
    let v ← Source.expr sc.context e
    Source.store var v : Eval Unit) st = Resolved.assign v s st
  rw [hlookup]
  exact store_agrees hres ready hfits typed

theorem setElement_resolves {a i v : Ast.Expr} {c : Stmt}
    (h : stmt (.setElement a i v) sc = .ok (c, sc')) :
    StmtResolves L sc (.setElement a i v) c sc' := by
  obtain ⟨array, sc₁, ha, h⟩ := bind_eq_ok.1 h
  cases helem : array.type.element? with
  | none =>
    rw [helem] at h
    exact absurd h throw_ne_ok
  | some elem =>
    rw [helem] at h
    obtain ⟨index, sc₂, hi, h⟩ := bind_eq_ok.1 h
    by_cases itype : index.type = .i32
    · rw [if_pos itype] at h
      obtain ⟨_, sc', hheld, h⟩ := bind_eq_ok.1 h
      obtain rfl := held_eq_ok hheld
      obtain ⟨value, sc₃, hv, h⟩ := bind_eq_ok.1 h
      by_cases vtype : value.type = elem
      · rw [if_pos vtype] at h
        obtain ⟨rfl, rfl⟩ := pure_eq_ok.1 h
        have hra := @expr_resolves L a _ _ _ ha
        have hri := @expr_resolves L i _ _ _ hi
        have hrv := @expr_resolves L v _ _ _ hv
        have hafter : Source.after sc.context (.setElement a i v) =
            ⟨sc.vars, sc.slots + (Source.stmtPlaces (.setElement a i v)).length⟩ := by
          simp only [Source.after, Context.past, Scope.context, Source.stmtPlaces,
            List.length_append, Nat.add_assoc]
        refine .plain rfl ?_ hafter ?_ ?_
        · rw [Resolved.stmtPlaces, Source.stmtPlaces, hra.places, hri.places, hrv.places]
        · rw [hrv.context, hri.context, hra.context, ← hafter, Source.after]
        · intro ready
          have ra : Ready L sc (Source.places a) := ready.left.left
          have ri : Ready L sc₁ (Source.places i) := hra.ready ready.left
          have rv : Ready L sc₂ (Source.places v) := by
            have rest : Ready L sc (Source.places a ++ (Source.places i ++ Source.places v)) := by
              rw [← List.append_assoc]
              exact ready
            exact hri.ready (hra.ready rest)
          refine ⟨.setElement (hra.typed ra) (hri.typed ri) (hrv.typed rv)
            (type_of_element? helem) itype vtype, ?_⟩
          intro fuel st typed
          refine bind_agrees (hra.agrees ra st typed) (hra.yields ra typed) ?_
          intro st₁ x typed₁ _ hx
          have hagree := hri.agrees ri st₁ typed₁
          rw [hra.context] at hagree
          refine bind_agrees hagree (hri.yields ri typed₁) ?_
          intro st₂ y typed₂ grows₂ hy
          rw [type_of_element? helem] at hx
          rw [itype] at hy
          refine bind_agrees rfl (locate_yields typed₂ (hx.mono grows₂) hy) ?_
          intro st₃ found typed₃ _ _
          have hagree := hrv.agrees rv st₃ typed₃
          rw [hri.context, hra.context] at hagree
          refine bind_agrees hagree (hrv.yields rv typed₃) ?_
          intro _ _ _ _ _
          rfl
      · rw [if_neg vtype] at h
        exact absurd h throw_ne_ok
    · rw [if_neg itype] at h
      exact absurd h throw_ne_ok

/-- Printing the one argument of a call. -/
theorem callStmt_print {name : String} {newline : Bool} {es : List Ast.Expr} {e : Expr}
    (hname : Builtin.ofName? name = some (.print newline)) {st : Store}
    (hagrees : Source.exprs sc.context es st = Resolved.exprs [e] st) :
    Source.callStmt sc.context name es st =
      (do let v ← Resolved.expr e; print newline v : Eval Unit) st := by
  have hone : Resolved.exprs [e] = (do let v ← Resolved.expr e; return [v]) := rfl
  unfold Source.callStmt
  rw [bind_apply, hagrees, hone, bind_apply, bind_apply]
  cases Resolved.expr e st with
  | gives v st' =>
    rw [hname]
    rfl
  | ends e st' => rfl
  | unfinished => rfl

/-- A call as a statement may be of any function, printing included. -/
theorem callStmt_resolves {name : String} {es : List Ast.Expr} {c : Stmt}
    (h : stmt (.expr (.call name es)) sc = .ok (c, sc')) :
    StmtResolves L sc (.expr (.call name es)) c sc' := by
  obtain ⟨call, sc₁, hcall, h⟩ := bind_eq_ok.1 h
  obtain ⟨rfl, rfl⟩ := pure_eq_ok.1 h
  obtain ⟨f, cs, hname, hall, htypes, happlied⟩ :=
    call_eq_ok (L := L) (fun e _ => expr_resolves e) hcall
  cases happlied with
  | library f cs =>
    refine .plain rfl ?_ rfl hall.context ?_
    · exact hall.places
    intro ready
    refine ⟨.call (hall.typed ready) (types_of_accepted htypes), ?_⟩
    intro fuel st typed
    refine bind_agrees (hall.agrees ready st typed) (hall.yields ready typed) ?_
    intro st' vs _ _ _
    rw [hname]
  | @printText newline e type =>
    refine .plain rfl ?_ rfl hall.context ?_
    · rw [Source.stmtPlaces, Source.places, ← hall.places]
      exact (List.append_nil _).symm
    intro ready
    refine ⟨.printText newline (hall.typed ready e List.mem_cons_self) type, ?_⟩
    intro fuel st typed
    exact callStmt_print hname (hall.agrees ready st typed)
  | @printInt newline e type =>
    refine .plain rfl ?_ rfl hall.context ?_
    · rw [Source.stmtPlaces, Source.places, ← hall.places]
      exact (List.append_nil _).symm
    intro ready
    refine ⟨.printInt newline (hall.typed ready e List.mem_cons_self) type, ?_⟩
    intro fuel st typed
    exact callStmt_print hname (hall.agrees ready st typed)

theorem exprStmt_resolves {e : Ast.Expr} (other : ∀ name es, e ≠ .call name es) {c : Stmt}
    (h : stmt (.expr e) sc = .ok (c, sc')) : StmtResolves L sc (.expr e) c sc' := by
  have hstmt : stmt (.expr e) = do return .eval (← expr e) := by
    cases e with
    | call name es => exact absurd rfl (other name es)
    | _ => rfl
  have hsource : ∀ fuel, Source.stmt fuel sc.context (.expr e) =
      (do let _ ← Source.expr sc.context e) := by
    intro fuel
    cases e with
    | call name es => exact absurd rfl (other name es)
    | _ => rfl
  rw [hstmt] at h
  obtain ⟨c, sc₁, hc, h⟩ := bind_eq_ok.1 h
  obtain ⟨rfl, rfl⟩ := pure_eq_ok.1 h
  have hres := @expr_resolves L e _ _ _ hc
  refine .plain rfl hres.places rfl hres.context ?_
  intro ready
  refine ⟨.eval (hres.typed ready), ?_⟩
  intro fuel st typed
  rw [hsource, Resolved.stmt_eval typed fuel (hres.typed ready)]
  refine bind_agrees (hres.agrees ready st typed) (hres.yields ready typed) ?_
  intro _ _ _ _ _
  rfl

theorem branch_resolves {cond : Ast.Expr} {yes no : List Ast.Stmt} {c : Stmt}
    (ihyes : ∀ s ∈ yes, StmtResolvable L s) (ihno : ∀ s ∈ no, StmtResolvable L s)
    (h : stmt (.branch cond yes no) sc = .ok (c, sc')) :
    StmtResolves L sc (.branch cond yes no) c sc' := by
  obtain ⟨cond', sc₁, hcond, h⟩ := bind_eq_ok.1 h
  obtain ⟨yes', sc₂, hyes, h⟩ := bind_eq_ok.1 h
  obtain ⟨no', sc₃, hno, h⟩ := bind_eq_ok.1 h
  obtain ⟨rfl, rfl⟩ := pure_eq_ok.1 h
  obtain ⟨hplaces, hcontext, hcond⟩ := condition_eq_ok (L := L) hcond
  have hyes := stmts_resolve ihyes hyes
  have hno := stmts_resolve ihno hno
  have hslots₁ : sc₁.slots = sc.slots + (Source.places cond).length :=
    congrArg Context.next hcontext
  have r₁ : Ready L sc (Source.stmtPlaces (.branch cond yes no)) →
      Ready L sc₁ (Source.stmtsPlaces yes) := fun ready => ready.left.right hcontext
  have r₂ : Ready L sc (Source.stmtPlaces (.branch cond yes no)) →
      Ready L sc₂ (Source.stmtsPlaces no) := by
    intro ready
    refine ready.next (hyes.fits (r₁ ready)) ?_
    rw [hyes.slots, hslots₁, List.length_append, Nat.add_assoc]
  refine ⟨?_, ?_, ?_, ?_, ?_, ?_⟩
  · rw [Resolved.stmtPlaces, Source.stmtPlaces, hplaces, hyes.places, hno.places]
  · rw [hno.context, hyes.context, hcontext, Source.after]
  · rw [hno.slots, hyes.slots, hslots₁, Source.stmtPlaces, List.length_append, List.length_append]
    omega
  · exact fun ready => hno.fits (r₂ ready)
  · exact fun ready =>
      .branch (hcond ready.left.left).1 (hyes.typed (r₁ ready)) (hno.typed (r₂ ready))
  · intro ready fuel st typed
    obtain ⟨hcondition, hagree⟩ := hcond ready.left.left
    refine bind_agrees (hagree st typed) (Resolved.condition_yields typed hcondition) ?_
    intro st' b typed' _ _
    cases b with
    | true =>
      show Source.stmts fuel (sc.context.past cond) yes st' = Resolved.stmts fuel yes' st'
      rw [← hcontext]
      exact hyes.agrees (r₁ ready) fuel st' typed'
    | false =>
      show Source.stmts fuel (Source.afterAll (sc.context.past cond) yes) no st' =
        Resolved.stmts fuel no' st'
      rw [← hcontext, ← hyes.context]
      exact hno.agrees (r₂ ready) fuel st' typed'

/-- Turns that ask first agree if their conditions and the rest of them do. -/
theorem turn_agrees {cond cond' rest rest' : Eval Bool} {st : Store}
    (hcond : cond st = cond' st) (hyields : Yields L st (cond' st) fun _ _ => True)
    (hrest : ∀ st : Store, st.Typed L → rest st = rest' st) :
    (do if ← cond then rest else return false : Eval Bool) st =
      (do if ← cond' then rest' else return false : Eval Bool) st := by
  refine bind_agrees hcond hyields ?_
  intro st' b typed' _ _
  cases b with
  | true => exact hrest st' typed'
  | false => rfl

theorem loopWhile_resolves {cond : Ast.Expr} {body : List Ast.Stmt} {c : Stmt}
    (ih : ∀ s ∈ body, StmtResolvable L s) (h : stmt (.loopWhile cond body) sc = .ok (c, sc')) :
    StmtResolves L sc (.loopWhile cond body) c sc' := by
  obtain ⟨cond', sc₁, hcond, h⟩ := bind_eq_ok.1 h
  obtain ⟨body', sc₂, hbody, h⟩ := bind_eq_ok.1 h
  obtain ⟨rfl, rfl⟩ := pure_eq_ok.1 h
  obtain ⟨hplaces, hcontext, hcond⟩ := condition_eq_ok (L := L) hcond
  have hbody := stmts_resolve ih hbody
  have hslots₁ : sc₁.slots = sc.slots + (Source.places cond).length :=
    congrArg Context.next hcontext
  have r₁ : Ready L sc (Source.stmtPlaces (.loopWhile cond body)) →
      Ready L sc₁ (Source.stmtsPlaces body) := fun ready => ready.right hcontext
  refine ⟨?_, ?_, ?_, ?_, ?_, ?_⟩
  · rw [Resolved.stmtPlaces, Source.stmtPlaces, hplaces, hbody.places]
  · rw [hbody.context, hcontext, Source.after]
  · rw [hbody.slots, hslots₁, Source.stmtPlaces, List.length_append, Nat.add_assoc]
  · exact fun ready => hbody.fits (r₁ ready)
  · exact fun ready => .loopWhile (hcond ready.left).1 (hbody.typed (r₁ ready))
  · intro ready fuel st typed
    obtain ⟨hcondition, hagree⟩ := hcond ready.left
    have hkeeps : ∀ s ∈ body', Resolved.Keeps L fuel s := fun s hs =>
      Resolved.stmt_keeps fuel (hbody.typed (r₁ ready) s hs)
    refine repeatWhile_agrees ?_ ?_ fuel typed
    · intro st typed
      refine turn_agrees (hagree st typed) (Resolved.condition_yields typed hcondition) ?_
      intro st typed
      rw [← hcontext]
      refine bind_agrees (hbody.agrees (r₁ ready) fuel st typed)
        (Resolved.stmts_yields typed hkeeps) ?_
      intro _ _ _ _ _
      rfl
    · intro st typed
      refine Resolved.turn_yields (Resolved.condition_yields typed hcondition) ?_
      intro st typed
      refine (Resolved.stmts_yields typed hkeeps).bind ?_
      intro st' _ typed' _ _
      exact .gives typed' trivial

theorem doWhile_resolves {body : List Ast.Stmt} {cond : Ast.Expr} {c : Stmt}
    (ih : ∀ s ∈ body, StmtResolvable L s) (h : stmt (.doWhile body cond) sc = .ok (c, sc')) :
    StmtResolves L sc (.doWhile body cond) c sc' := by
  obtain ⟨body', sc₁, hbody, h⟩ := bind_eq_ok.1 h
  obtain ⟨cond', sc₂, hcond, h⟩ := bind_eq_ok.1 h
  obtain ⟨rfl, rfl⟩ := pure_eq_ok.1 h
  obtain ⟨hplaces, hcontext, hcond⟩ := condition_eq_ok (L := L) hcond
  have hbody := stmts_resolve ih hbody
  have hslots₂ : sc₂.slots = sc₁.slots + (Source.places cond).length :=
    congrArg Context.next hcontext
  have r₁ : Ready L sc (Source.stmtPlaces (.doWhile body cond)) →
      Ready L sc₁ (Source.places cond) := fun ready =>
    ready.next (hbody.fits ready.left) hbody.slots
  refine ⟨?_, ?_, ?_, ?_, ?_, ?_⟩
  · rw [Resolved.stmtPlaces, Source.stmtPlaces, hplaces, hbody.places]
  · rw [hcontext, hbody.context, Source.after]
  · rw [hslots₂, hbody.slots, Source.stmtPlaces, List.length_append, Nat.add_assoc]
  · intro ready
    exact (hbody.fits ready.left).congr (congrArg Context.vars hcontext)
  · exact fun ready => .doWhile (hbody.typed ready.left) (hcond (r₁ ready)).1
  · intro ready fuel st typed
    obtain ⟨hcondition, hagree⟩ := hcond (r₁ ready)
    have hkeeps : ∀ s ∈ body', Resolved.Keeps L fuel s := fun s hs =>
      Resolved.stmt_keeps fuel (hbody.typed ready.left s hs)
    refine repeatWhile_agrees ?_ ?_ fuel typed
    · intro st typed
      refine bind_agrees (hbody.agrees ready.left fuel st typed)
        (Resolved.stmts_yields typed hkeeps) ?_
      intro st' _ typed' _ _
      rw [← hbody.context]
      exact hagree st' typed'
    · intro st typed
      refine (Resolved.stmts_yields typed hkeeps).bind ?_
      intro st' _ typed' _ _
      exact Resolved.condition_yields typed' hcondition

/-- A condition that may be left out. -/
theorem guard_eq_ok {e : Option Ast.Expr} {c : Option Expr}
    (h : e.mapM condition sc = .ok (c, sc')) :
    (c.map Resolved.places).getD [] = (e.map Source.places).getD [] ∧
      sc'.context = sc.context.pastOption e ∧
      sc'.context = ⟨sc.vars, sc.slots + ((e.map Source.places).getD []).length⟩ ∧
      (Ready L sc ((e.map Source.places).getD []) → (∀ c' ∈ c, Condition L c') ∧
        ∀ st : Store, st.Typed L → Source.guard sc.context e st = Resolved.guard c st) := by
  cases e with
  | none =>
    obtain ⟨rfl, rfl⟩ := pure_eq_ok.1 h
    exact ⟨rfl, rfl, rfl, fun _ => ⟨fun _ h => (nomatch h), fun _ _ => rfl⟩⟩
  | some e =>
    obtain ⟨c, hc, rfl⟩ := mapM_some_eq_ok.1 h
    obtain ⟨hplaces, hcontext, hcond⟩ := condition_eq_ok (L := L) hc
    refine ⟨hplaces, hcontext, hcontext, fun ready => ⟨?_, (hcond ready).2⟩⟩
    rintro _ ⟨⟩
    exact (hcond ready).1

theorem loopFor_resolves {init step : Option Ast.Stmt} {cond : Option Ast.Expr}
    {body : List Ast.Stmt} {c : Stmt} (ihinit : ∀ s ∈ init, StmtResolvable L s)
    (ihstep : ∀ s ∈ step, StmtResolvable L s) (ihbody : ∀ s ∈ body, StmtResolvable L s)
    (h : stmt (.loopFor init cond step body) sc = .ok (c, sc')) :
    StmtResolves L sc (.loopFor init cond step body) c sc' := by
  obtain ⟨init', sc₁, hinit, h⟩ := bind_eq_ok.1 h
  obtain ⟨cond', sc₂, hcond, h⟩ := bind_eq_ok.1 h
  obtain ⟨body', sc₃, hbody, h⟩ := bind_eq_ok.1 h
  obtain ⟨step', sc₄, hstep, h⟩ := bind_eq_ok.1 h
  obtain ⟨rfl, rfl⟩ := pure_eq_ok.1 h
  have hinit := clause_resolves ihinit hinit
  obtain ⟨hplaces, hcontext, hcontext', hcond⟩ := guard_eq_ok (L := L) hcond
  have hbody := stmts_resolve ihbody hbody
  have hstep := clause_resolves ihstep hstep
  have hslots₂ : sc₂.slots = sc₁.slots + ((cond.map Source.places).getD []).length :=
    congrArg Context.next hcontext'
  have r₁ : Ready L sc (Source.stmtPlaces (.loopFor init cond step body)) →
      Ready L sc₁ ((cond.map Source.places).getD []) := fun ready =>
    ready.left.left.next (hinit.fits ready.left.left.left) hinit.slots
  have r₂ : Ready L sc (Source.stmtPlaces (.loopFor init cond step body)) →
      Ready L sc₂ (Source.stmtsPlaces body) := by
    intro ready
    refine ready.left.next ((r₁ ready).fits.congr (congrArg Context.vars hcontext')) ?_
    rw [hslots₂, hinit.slots, List.length_append, Nat.add_assoc]
  have r₃ : Ready L sc (Source.stmtPlaces (.loopFor init cond step body)) →
      Ready L sc₃ (Source.clausePlaces step) := by
    intro ready
    refine ready.next (hbody.fits (r₂ ready)) ?_
    rw [hbody.slots, hslots₂, hinit.slots, List.length_append, List.length_append]
    omega
  refine ⟨?_, ?_, ?_, ?_, ?_, ?_⟩
  · rw [Resolved.stmtPlaces, Source.stmtPlaces, hinit.places, hplaces, hbody.places, hstep.places]
  · rw [hstep.context, hbody.context, hcontext, hinit.context, Source.after]
  · rw [hstep.slots, hbody.slots, hslots₂, hinit.slots, Source.stmtPlaces]
    simp only [List.length_append]
    omega
  · exact fun ready => hstep.fits (r₃ ready)
  · exact fun ready => .loopFor (hinit.typed ready.left.left.left) (hcond (r₁ ready)).1
      (hbody.typed (r₂ ready)) (hstep.typed (r₃ ready))
  · intro ready fuel st typed
    obtain ⟨hcondition, hagree⟩ := hcond (r₁ ready)
    have hkeeps : ∀ s ∈ body', Resolved.Keeps L fuel s := fun s hs =>
      Resolved.stmt_keeps fuel (hbody.typed (r₂ ready) s hs)
    have hkeeps' : ∀ s ∈ step', Resolved.Keeps L fuel s := fun s hs =>
      Resolved.stmt_keeps fuel (hstep.typed (r₃ ready) s hs)
    refine bind_agrees (hinit.agrees ready.left.left.left fuel st typed)
      (Resolved.clause_yields typed fun s hs =>
        Resolved.stmt_keeps fuel (hinit.typed ready.left.left.left s hs)) ?_
    intro st₁ _ typed₁ _ _
    rw [← hinit.context]
    refine repeatWhile_agrees ?_ ?_ fuel typed₁
    · intro st typed
      refine turn_agrees (hagree st typed) (Resolved.guard_yields typed hcondition) ?_
      intro st typed
      rw [← hcontext]
      refine bind_agrees (hbody.agrees (r₂ ready) fuel st typed)
        (Resolved.stmts_yields typed hkeeps) ?_
      intro st' _ typed' _ _
      rw [← hbody.context]
      refine bind_agrees (hstep.agrees (r₃ ready) fuel st' typed')
        (Resolved.clause_yields typed' hkeeps') ?_
      intro _ _ _ _ _
      rfl
    · intro st typed
      refine Resolved.turn_yields (Resolved.guard_yields typed hcondition) ?_
      intro st typed
      refine (Resolved.stmts_yields typed hkeeps).bind ?_
      intro st' _ typed' _ _
      refine (Resolved.clause_yields typed' hkeeps').bind ?_
      intro st'' _ typed'' _ _
      exact .gives typed'' trivial

theorem stmt_resolves (s : Ast.Stmt) : StmtResolvable L s := by
  induction s using Ast.Stmt.induct with
  | declare x t init => exact fun h => declare_resolves h
  | assign x e => exact fun h => assign_resolves h
  | setElement a i e => exact fun h => setElement_resolves h
  | expr e =>
    intro sc c sc' h
    by_cases hcall : ∃ name es, e = .call name es
    · obtain ⟨name, es, rfl⟩ := hcall
      exact callStmt_resolves h
    · exact exprStmt_resolves (fun name es he => hcall ⟨name, es, he⟩) h
  | branch cond yes no ihyes ihno => exact fun h => branch_resolves ihyes ihno h
  | loopWhile cond body ih => exact fun h => loopWhile_resolves ih h
  | doWhile body cond ih => exact fun h => doWhile_resolves ih h
  | loopFor init cond step body ihinit ihstep ihbody =>
    exact fun h => loopFor_resolves ihinit ihstep ihbody h

/-! ### Programs -/

/-- A check of a program that succeeds is one of its statements. -/
theorem check_run {p : Ast.Program} {q : Program} {warnings : List Warning}
    (h : Program.check p = .ok (q, warnings)) :
    ∃ sc', stmts p Scope.empty = .ok (q, sc') := by
  change Except.bind (stmts p Scope.empty) (fun r => .ok (r.1, r.2.warnings)) = _ at h
  cases hstmts : stmts p Scope.empty with
  | error e =>
    rw [hstmts] at h
    cases h
  | ok r =>
    rw [hstmts] at h
    cases h
    exact ⟨r.2, rfl⟩

/-- A program that is accepted keeps its places, is typed against them, and means
what was written. -/
theorem check_eq_ok {p : Ast.Program} {q : Program} {warnings : List Warning}
    (h : Program.check p = .ok (q, warnings)) :
    Resolved.stmtsPlaces q = Source.stmtsPlaces p ∧ Program.Typed q ∧
      ∀ (fuel : Nat) (w : Library.World),
        Source.stmts fuel .empty p (.initial w) = Resolved.stmts fuel q (.initial w) := by
  obtain ⟨sc', hrun⟩ := check_run h
  have hres := stmts_resolve (L := Source.stmtsPlaces p) (fun s _ => stmt_resolves s) hrun
  have ready : Ready (Source.stmtsPlaces p) Scope.empty (Source.stmtsPlaces p) := by
    refine ⟨fun _ h => (nomatch h), ?_⟩
    intro i _
    show (Source.stmtsPlaces p)[0 + i]? = _
    rw [Nat.zero_add]
  refine ⟨hres.places, ?_, ?_⟩
  · unfold Program.Typed
    rw [hres.places]
    exact hres.typed ready
  · intro fuel w
    exact hres.agrees ready fuel _ (Store.initial_typed w)

end TinyScript.Core.Check
