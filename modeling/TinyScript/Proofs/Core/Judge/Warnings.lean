import TinyScript.Proofs.Core.Judge.Mirrors

/-! Where warnings come from. Scope is flat and expressions raise no warnings, so the
declarations and assignments of a program, one after the other as if nothing stood
around them, give all there are. -/

namespace TinyScript.Core.Judge

open Ast (BinaryOp)

/-- A place where a value meets a declared type. -/
inductive Site where
  | declare (name type : String) (init : Option Ast.Expr)
  | assign (name : String) (value : Ast.Expr)

mutual

/-- The declarations and assignments of a statement in the order of the text, the last
clause of a loop after its body. -/
def sites : Ast.Stmt → List Site
  | .declare name type init => [.declare name type init]
  | .assign name value => [.assign name value]
  | .setElement _ _ _ | .expr _ => []
  | .branch _ yes no => allSites yes ++ allSites no
  | .loopWhile _ body | .doWhile body _ => allSites body
  | .loopFor init _ step body => clauseSites init ++ allSites body ++ clauseSites step

def clauseSites : Option Ast.Stmt → List Site
  | none => []
  | some s => sites s

def allSites : List Ast.Stmt → List Site
  | [] => []
  | s :: ss => sites s ++ allSites ss

end

/-- The type of an expression that is accepted. -/
def typeOf (types : Types) : Ast.Expr → Ty
  | .str _ => .str
  | .int _ => .i32
  | .float _ => .f64
  | .bool _ => .bool
  | .var name => (types name).getD .void
  | .binary op _ _ => if isComparison op then .bool else .i32
  | .array hint _ => .array ((Ty.ofName? hint).getD .void)
  | .index a _ => (typeOf types a).element?.getD .void
  | .object _ => .void
  | .member _ _ => .i32
  | .call name _ => ((Builtin.ofName? name).map result).getD .void

/-- The type of a declaration: as annotated, or as the initial value shows it. -/
def declaredType (type : String) (init : Option Ast.Expr) : Ty :=
  if type = Ast.auto then (shown init).getD .i32 else (Ty.ofName? type).getD .void

/-- A declared type that had to be guessed. -/
def guessed (name type : String) (init : Option Ast.Expr) : List Warning :=
  if type = Ast.auto ∧ shown init = none then [.inferredDefault name] else []

def mismatch (types : Types) (name : String) (declared : Ty) (value : Ast.Expr) : List Warning :=
  if typeOf types value = declared then [] else [.typeMismatch name declared (typeOf types value)]

/-- What is warned about at a site. -/
def Site.warnings (types : Types) : Site → List Warning
  | .declare name type init =>
    guessed name type init ++ init.elim [] (mismatch types name (declaredType type init))
  | .assign name value => mismatch types name ((types name).getD .void) value

def Site.after (types : Types) : Site → Types
  | .declare name type init => fun n => if n = name then some (declaredType type init) else types n
  | .assign _ _ => types

def Site.pass (s : State) (site : Site) : State :=
  ⟨site.after s.types, s.warnings ++ site.warnings s.types⟩

/-- A warning about two types is about types that are converted into each other. -/
def Sound : Warning → Prop
  | .inferredDefault _ => True
  | .typeMismatch _ declared actual =>
    declared ≠ actual ∧ isConvertible declared ∧ isConvertible actual

section Accepted

variable {types : Types} {t : Ty}

/-- An expression that is accepted has the type that its form gives it. -/
theorem expr_type {e : Ast.Expr} (h : expr types e = .ok t) : t = typeOf types e := by
  induction e using Ast.Expr.induct generalizing t with
  | str s | float d | bool b =>
    cases h
    rfl
  | int n =>
    rw [expr] at h
    split at h
    · cases h
      rfl
    · cases h
  | var name =>
    rw [typeOf, lookup_eq_ok h]
    rfl
  | binary op l r hl hr =>
    obtain ⟨lhs, _, h⟩ := bind_eq_ok h
    obtain ⟨rhs, _, h⟩ := bind_eq_ok h
    split at h
    · rename_i hop
      cases h
      exact operation_type hop
    · cases h
  | array hint es hes =>
    rw [expr] at h
    split at h
    · cases h
    · rename_i elem helem
      obtain ⟨_, _, h⟩ := bind_eq_ok h
      cases h
      rw [typeOf, helem]
      rfl
  | index a i ha hi =>
    obtain ⟨array, harray, h⟩ := bind_eq_ok h
    split at h
    · obtain ⟨index, _, h⟩ := bind_eq_ok h
      split at h
      · cases h
        rw [typeOf, ← ha harray]
        rfl
      · cases h
    · cases h
  | object fields => cases h
  | member base name hbase =>
    rw [expr] at h
    split at h
    · obtain ⟨array, _, h⟩ := bind_eq_ok h
      split at h
      · cases h
        rfl
      · cases h
    · cases h
  | call name args hargs =>
    obtain ⟨_, hcall, h⟩ := bind_eq_ok h
    split at h
    · cases h
    · cases h
      exact applied_eq_ok hcall

/-- From a state past some sites. -/
structure Passes (s : State) (ss : List Site) (s' : State) : Prop where
  state : s' = ss.foldl Site.pass s
  sound : (∀ w ∈ s.warnings, Sound w) → ∀ w ∈ s'.warnings, Sound w

theorem Passes.refl (s : State) : Passes s [] s := ⟨rfl, id⟩

theorem Passes.trans {s s₁ s₂ : State} {ss ss' : List Site} (h : Passes s ss s₁)
    (h' : Passes s₁ ss' s₂) : Passes s (ss ++ ss') s₂ := by
  refine ⟨?_, fun hsound => h'.sound (h.sound hsound)⟩
  rw [List.foldl_append, ← h.state]
  exact h'.state

theorem store_eq_ok {name : String} {declared : Ty} {value : Ast.Expr} {s s' : State}
    (h : store name declared (typeOf s.types value) s = .ok s') :
    s' = ⟨s.types, s.warnings ++ mismatch s.types name declared value⟩ ∧
      ((∀ w ∈ s.warnings, Sound w) → ∀ w ∈ s'.warnings, Sound w) := by
  unfold store at h
  split at h
  · rename_i htype
    cases h
    rw [mismatch, if_pos htype, List.append_nil]
    exact ⟨rfl, id⟩
  · rename_i htype
    split at h
    · rename_i hconvertible
      cases h
      rw [mismatch, if_neg htype]
      refine ⟨rfl, ?_⟩
      intro hsound w hw
      rcases List.mem_append.1 hw with hw | hw
      · exact hsound w hw
      · rw [List.mem_singleton.1 hw]
        exact ⟨Ne.symm htype, hconvertible⟩
    · cases h

theorem assign_passes {name : String} {value : Ast.Expr} {s s' : State}
    (h : stmt (.assign name value) s = .ok s') : Passes s [.assign name value] s' := by
  obtain ⟨declared, hdeclared, h⟩ := bind_eq_ok h
  obtain ⟨actual, hactual, h⟩ := bind_eq_ok h
  rw [expr_type hactual] at h
  obtain ⟨rfl, hsound⟩ := store_eq_ok h
  refine ⟨?_, hsound⟩
  show _ = Site.pass s (.assign name value)
  rw [Site.pass, Site.warnings, lookup_eq_ok hdeclared]
  rfl

theorem annotated_eq_ok {name type : String} {init : Option Ast.Expr} {s : State} {r : Ty × State}
    (h : annotated name type init s = .ok r) :
    r = (declaredType type init, ⟨s.types, s.warnings ++ guessed name type init⟩) := by
  unfold annotated at h
  unfold declaredType guessed
  split at h
  · rename_i hauto
    split at h
    · rename_i hshown
      cases h
      simp [hauto, hshown]
    · rename_i hshown
      cases h
      simp [hauto, hshown, State.warn]
  · rename_i hauto
    split at h
    · rename_i htype
      cases h
      simp [hauto, htype]
    · cases h

theorem guessed_sound {name type : String} {init : Option Ast.Expr} {w : Warning}
    (h : w ∈ guessed name type init) : Sound w := by
  unfold guessed at h
  split at h
  · rw [List.mem_singleton.1 h]
    trivial
  · cases h

theorem declare_passes {name type : String} {init : Option Ast.Expr} {s s' : State}
    (h : declare name type init s = .ok s') : Passes s [.declare name type init] s' := by
  obtain ⟨r, hr, h⟩ := bind_eq_ok h
  obtain rfl := annotated_eq_ok hr
  have hguessed (hsound : ∀ w ∈ s.warnings, Sound w) :
      ∀ w ∈ s.warnings ++ guessed name type init, Sound w := by
    intro w hw
    exact (List.mem_append.1 hw).elim (hsound w) guessed_sound
  cases init with
  | none =>
    cases h
    refine ⟨?_, hguessed⟩
    show _ = Site.pass s (.declare name type none)
    simp [Site.pass, Site.warnings, Site.after, State.declare]
  | some e =>
    obtain ⟨actual, hactual, h⟩ := bind_eq_ok h
    obtain ⟨s₁, hs₁, h⟩ := bind_eq_ok h
    cases h
    rw [expr_type hactual] at hs₁
    obtain ⟨rfl, hsound⟩ := store_eq_ok hs₁
    refine ⟨?_, fun h => hsound (hguessed h)⟩
    show _ = Site.pass s (.declare name type (some e))
    simp [Site.pass, Site.warnings, Site.after, State.declare]

theorem stmts_pass {ss : List Ast.Stmt}
    (h : ∀ st ∈ ss, ∀ s s', stmt st s = .ok s' → Passes s (sites st) s') {s s' : State}
    (hss : stmts ss s = .ok s') : Passes s (allSites ss) s' := by
  induction ss generalizing s with
  | nil =>
    cases hss
    exact .refl _
  | cons st ss ih =>
    obtain ⟨s₁, hst, hss⟩ := bind_eq_ok hss
    refine (h st List.mem_cons_self s s₁ hst).trans ?_
    exact ih (fun st hmem => h st (List.mem_cons_of_mem _ hmem)) hss

theorem clause_passes {c : Option Ast.Stmt}
    (h : ∀ st ∈ c, ∀ s s', stmt st s = .ok s' → Passes s (sites st) s') {s s' : State}
    (hc : clause c s = .ok s') : Passes s (clauseSites c) s' := by
  cases c with
  | none =>
    cases hc
    exact .refl s
  | some st => exact h st rfl s s' hc

theorem stmt_passes (st : Ast.Stmt) (s s' : State) (h : stmt st s = .ok s') :
    Passes s (sites st) s' := by
  induction st using Ast.Stmt.induct generalizing s s' with
  | declare name type init => exact declare_passes h
  | assign name value => exact assign_passes h
  | setElement a i v =>
    obtain ⟨elem, _, h⟩ := bind_eq_ok h
    obtain ⟨actual, _, h⟩ := bind_eq_ok h
    split at h
    · cases h
      exact .refl s
    · cases h
  | expr e =>
    cases e with
    | call name args =>
      obtain ⟨_, _, h⟩ := bind_eq_ok h
      cases h
      exact .refl s
    | _ =>
      obtain ⟨_, _, h⟩ := bind_eq_ok h
      cases h
      exact .refl s
  | branch cond yes no hyes hno =>
    obtain ⟨_, _, h⟩ := bind_eq_ok h
    obtain ⟨s₁, hs₁, h⟩ := bind_eq_ok h
    exact (stmts_pass hyes hs₁).trans (stmts_pass hno h)
  | loopWhile cond body hbody =>
    obtain ⟨_, _, h⟩ := bind_eq_ok h
    exact stmts_pass hbody h
  | doWhile body cond hbody =>
    obtain ⟨s₁, hs₁, h⟩ := bind_eq_ok h
    obtain ⟨_, _, h⟩ := bind_eq_ok h
    cases h
    exact stmts_pass hbody hs₁
  | loopFor init cond step body hinit hstep hbody =>
    obtain ⟨s₁, hs₁, h⟩ := bind_eq_ok h
    have hrest : ∃ s₂, stmts body s₁ = .ok s₂ ∧ clause step s₂ = .ok s' := by
      cases cond with
      | none => exact bind_eq_ok h
      | some cond =>
        obtain ⟨_, _, h⟩ := bind_eq_ok h
        exact bind_eq_ok h
    obtain ⟨s₂, hs₂, hs'⟩ := hrest
    exact ((clause_passes hinit hs₁).trans (stmts_pass hbody hs₂)).trans (clause_passes hstep hs')

end Accepted

theorem mem_of_isConvertible {t : Ty} (h : isConvertible t) : t ∈ [.i32, .f64, .bool] := by
  cases t <;> first | decide | cases h

/-- **The judge decides.** Whatever the options, generating a module of a program ends
with the judge's error or with its warnings. The warnings about an accepted program
are raised by its declarations and assignments in their order, and one about two types
is about two different ones of integers, floats and booleans. -/
theorem generate_warnings (p : Ast.Program) (options : Options) :
    (generate p options).map (·.warnings) = program p ∧
      ∀ warnings, program p = .ok warnings →
        warnings = ((allSites p).foldl Site.pass .empty).warnings ∧
          ∀ name declared actual, .typeMismatch name declared actual ∈ warnings →
            declared ≠ actual ∧ declared ∈ [.i32, .f64, .bool] ∧ actual ∈ [.i32, .f64, .bool] := by
  refine ⟨generate_judged p options, ?_⟩
  intro warnings h
  obtain ⟨s, hs, h⟩ := bind_eq_ok h
  cases h
  have hpasses := stmts_pass (fun st _ => stmt_passes st) hs
  refine ⟨by rw [hpasses.state], ?_⟩
  intro name declared actual hw
  obtain ⟨hne, hdeclared, hactual⟩ := hpasses.sound (fun _ h => (nomatch h)) _ hw
  exact ⟨hne, mem_of_isConvertible hdeclared, mem_of_isConvertible hactual⟩

/-- A name without a type, one that gets a value of another type, and an assignment
after that name has been declared again. -/
def relabel : Ast.Program :=
  [.declare "a" Ast.auto none, .declare "b" "f64" (some (.var "a")),
    .branch (.binary .lt (.var "a") (.int 1)) [.declare "a" "boolean" (some (.bool true))] [],
    .assign "a" (.var "b")]

theorem relabel_warnings : (generate relabel { boundsChecks := false }).map (·.warnings) =
      .ok [.inferredDefault "a", .typeMismatch "b" .f64 .i32, .typeMismatch "a" .bool .f64] ∧
    Ty.bool ≠ .f64 ∧ Ty.bool ∈ [Ty.i32, .f64, .bool] ∧ Ty.f64 ∈ [Ty.i32, .f64, .bool] := by
  obtain ⟨hgenerate, hwarnings⟩ := generate_warnings relabel { boundsChecks := false }
  have hprogram : program relabel = .ok
      [.inferredDefault "a", .typeMismatch "b" .f64 .i32, .typeMismatch "a" .bool .f64] := rfl
  refine ⟨hgenerate.trans hprogram, ?_⟩
  exact (hwarnings _ hprogram).2 "a" .bool .f64 (by simp)

end TinyScript.Core.Judge
