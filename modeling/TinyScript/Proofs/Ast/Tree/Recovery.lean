import TinyScript.Proofs.Ast.Tree
import TinyScript.Proofs.Number.Render
import TinyScript.Proofs.Text.Quoted
import TinyScript.Proofs.Token.Lexemes

/-! The tree of a program tells the program. Texts are quoted and numbers written apart,
and the first word of a line tells what it is, so two programs with the same tree are the
same but for doubles that are no number, which are written alike. What is not quoted, the
names, must not look like something else. -/

namespace TinyScript.Number

/-- One double for all that are no number. -/
def Double.oneNaN (d : Double) : Double := if d.isNaN then .nan false else d

theorem Double.oneNaN_injective {x y : Double} (h : x.render = y.render) :
    x.oneNaN = y.oneNaN := by
  obtain rfl | ⟨hx, hy⟩ := Double.render_injective h
  · rfl
  · rw [oneNaN, oneNaN, if_pos hx, if_pos hy]

end TinyScript.Number

namespace TinyScript.Ast

open Ast.Tree (Outline Head)

/-! ### Programs but for their doubles that are no number -/

mutual

def Expr.oneNaN : Expr → Expr
  | .str s => .str s
  | .int n => .int n
  | .float d => .float d.oneNaN
  | .bool b => .bool b
  | .var x => .var x
  | .binary op l r => .binary op l.oneNaN r.oneNaN
  | .array hint es => .array hint (Expr.oneNaNs es)
  | .index a i => .index a.oneNaN i.oneNaN
  | .object fs => .object (Expr.oneNaNFields fs)
  | .member base x => .member base.oneNaN x
  | .call x args => .call x (Expr.oneNaNs args)

def Expr.oneNaNs : List Expr → List Expr
  | [] => []
  | e :: es => e.oneNaN :: Expr.oneNaNs es

def Expr.oneNaNFields : List (String × Expr) → List (String × Expr)
  | [] => []
  | (key, e) :: fs => (key, e.oneNaN) :: Expr.oneNaNFields fs

end

mutual

def Stmt.oneNaN : Stmt → Stmt
  | .declare x type init => .declare x type (init.map Expr.oneNaN)
  | .assign x e => .assign x e.oneNaN
  | .setElement a i e => .setElement a.oneNaN i.oneNaN e.oneNaN
  | .expr e => .expr e.oneNaN
  | .branch cond yes no => .branch cond.oneNaN (Stmt.oneNaNs yes) (Stmt.oneNaNs no)
  | .loopWhile cond body => .loopWhile cond.oneNaN (Stmt.oneNaNs body)
  | .doWhile body cond => .doWhile (Stmt.oneNaNs body) cond.oneNaN
  | .loopFor init cond step body => .loopFor (Stmt.oneNaNClause init) (cond.map Expr.oneNaN)
      (Stmt.oneNaNClause step) (Stmt.oneNaNs body)

def Stmt.oneNaNClause : Option Stmt → Option Stmt
  | none => none
  | some s => some s.oneNaN

def Stmt.oneNaNs : List Stmt → List Stmt
  | [] => []
  | s :: ss => s.oneNaN :: Stmt.oneNaNs ss

end

/-! ### Names -/

/-- A word as the lexer takes it, a keyword or not. -/
def IsWord (x : String) : Prop := Token.isWord x.toList = true

/-- The name of a type: a word, and brackets after it for an array. -/
def IsTypeName (t : String) : Prop := ∃ x, IsWord x ∧ (t = x ∨ t = x ++ "[]")

/-- An expression whose names are words and whose keys are on one line. Its string
literals may be any. -/
inductive Expr.Named : Expr → Prop where
  | str (s : String) : Named (.str s)
  | int (n : Int) : Named (.int n)
  | float (d : Number.Double) : Named (.float d)
  | bool (b : Bool) : Named (.bool b)
  | var {x : String} (hx : IsWord x) : Named (.var x)
  | binary (op : BinaryOp) {l r : Expr} (hl : Named l) (hr : Named r) : Named (.binary op l r)
  | array {hint : String} {es : List Expr} (hhint : IsTypeName hint) (hes : ∀ e ∈ es, Named e) :
      Named (.array hint es)
  | index {a i : Expr} (ha : Named a) (hi : Named i) : Named (.index a i)
  | object {fs : List (String × Expr)} (hkeys : ∀ f ∈ fs, '\n' ∉ f.1.toList)
      (hfs : ∀ f ∈ fs, Named f.2) : Named (.object fs)
  | member {base : Expr} {x : String} (hbase : Named base) (hx : IsWord x) :
      Named (.member base x)
  | call {x : String} {args : List Expr} (hx : IsWord x) (hargs : ∀ e ∈ args, Named e) :
      Named (.call x args)

inductive Stmt.Named : Stmt → Prop where
  | declare {x type : String} {init : Option Expr} (hx : IsWord x) (htype : IsTypeName type)
      (hinit : ∀ e ∈ init, e.Named) : Named (.declare x type init)
  | assign {x : String} {e : Expr} (hx : IsWord x) (he : e.Named) : Named (.assign x e)
  | setElement {a i e : Expr} (ha : a.Named) (hi : i.Named) (he : e.Named) :
      Named (.setElement a i e)
  | expr {e : Expr} (he : e.Named) : Named (.expr e)
  | branch {cond : Expr} {yes no : List Stmt} (hcond : cond.Named) (hyes : ∀ s ∈ yes, Named s)
      (hno : ∀ s ∈ no, Named s) : Named (.branch cond yes no)
  | loopWhile {cond : Expr} {body : List Stmt} (hcond : cond.Named)
      (hbody : ∀ s ∈ body, Named s) : Named (.loopWhile cond body)
  | doWhile {body : List Stmt} {cond : Expr} (hbody : ∀ s ∈ body, Named s)
      (hcond : cond.Named) : Named (.doWhile body cond)
  | loopFor {init : Option Stmt} {cond : Option Expr} {step : Option Stmt} {body : List Stmt}
      (hinit : ∀ s ∈ init, Named s) (hcond : ∀ e ∈ cond, e.Named) (hstep : ∀ s ∈ step, Named s)
      (hbody : ∀ s ∈ body, Named s) : Named (.loopFor init cond step body)

/-! ### Lines of programs -/

theorem IsWord.class {x : String} (h : IsWord x) : ∀ c ∈ x.toList, Token.isWordChar c = true := by
  unfold IsWord at h
  cases hx : x.toList with
  | nil => nofun
  | cons c cs =>
    rw [hx, Token.isWord, Bool.and_eq_true, List.all_eq_true] at h
    refine List.forall_mem_cons.2 ⟨?_, h.2⟩
    have hstart := h.1
    simp only [Token.isWordStart, Bool.or_eq_true] at hstart
    simp only [Token.isWordChar, Bool.or_eq_true]
    exact hstart.imp_left .inl

theorem IsWord.not_mem {x : String} (h : IsWord x) {c : Char} (hc : Token.isWordChar c = false) :
    c ∉ x.toList := by
  intro hmem
  have hclass := h.class c hmem
  rw [hc] at hclass
  cases hclass

theorem IsTypeName.newline_not_mem {t : String} (h : IsTypeName t) : '\n' ∉ t.toList := by
  obtain ⟨x, hx, rfl | rfl⟩ := h
  · exact hx.not_mem (by decide)
  · rw [String.toList_append, List.mem_append, not_or]
    exact ⟨hx.not_mem (by decide), by decide⟩

theorem newline_not_mem_int (n : Int) : '\n' ∉ (toString n).toList := by
  have hdigits : ∀ m : Nat, '\n' ∉ Nat.toDigits 10 m := fun m hmem =>
    absurd (Number.isDigit_toDigits m _ hmem) (by decide)
  rw [Int.toString_eq_repr, Int.repr_eq_if]
  split <;> simp [hdigits]

theorem Expr.outlines_eq (es : List Expr) : Expr.outlines es = es.map Expr.outline := by
  induction es with
  | nil => rfl
  | cons e es ih => rw [Expr.outlines, ih, List.map_cons]

theorem Expr.fieldOutlines_eq (fs : List (String × Expr)) : Expr.fieldOutlines fs =
    fs.map fun f => .node ⟨.property, some f.1⟩ [f.2.outline] := by
  induction fs with
  | nil => rfl
  | cons f fs ih => rw [Expr.fieldOutlines, ih, List.map_cons]

theorem Stmt.outlines_eq (ss : List Stmt) : Stmt.outlines ss = ss.map Stmt.outline := by
  induction ss with
  | nil => rfl
  | cons s ss ih => rw [Stmt.outlines, ih, List.map_cons]

theorem clean_node {head : Head} {parts : List Outline} (h : ∀ t ∈ parts, t.Clean) :
    (Outline.node ⟨head, none⟩ parts).Clean :=
  .node nofun h

theorem clean_detail {head : Head} {detail : String} {parts : List Outline}
    (hdetail : '\n' ∉ detail.toList) (h : ∀ t ∈ parts, t.Clean) :
    (Outline.node ⟨head, some detail⟩ parts).Clean :=
  .node (by rintro _ ⟨⟩; exact hdetail) h

theorem Expr.Named.clean {e : Expr} (h : e.Named) : e.outline.Clean := by
  induction h with
  | str s => exact clean_detail (Text.Quoted.newline_not_mem_render s) nofun
  | int n => exact clean_detail (newline_not_mem_int n) nofun
  | float d => exact clean_detail d.newline_not_mem_render nofun
  | bool b => cases b <;> exact clean_detail (by decide) nofun
  | var hx => exact clean_detail (hx.not_mem (by decide)) nofun
  | binary op _ _ hl hr => exact clean_detail (by cases op <;> decide) (by simp [hl, hr])
  | array hhint _ ih =>
    refine clean_detail hhint.newline_not_mem ?_
    rw [Expr.outlines_eq]
    simpa using ih
  | index _ _ ha hi => exact clean_node (by simp [ha, hi])
  | object hkeys _ ih =>
    refine clean_node ?_
    rw [Expr.fieldOutlines_eq, List.forall_mem_map]
    exact fun f hf => clean_detail (hkeys f hf) (by simpa using ih f hf)
  | member _ hx ih => exact clean_detail (hx.not_mem (by decide)) (by simpa using ih)
  | call hx _ ih =>
    refine clean_detail (hx.not_mem (by decide)) ?_
    rw [Expr.outlines_eq]
    simpa using ih

theorem clean_part {head : Head} {ts : Option (List Outline)} (h : ∀ us ∈ ts, ∀ t ∈ us, t.Clean) :
    ∀ t ∈ Outline.part head ts, t.Clean := by
  cases ts with
  | none => nofun
  | some us =>
    rintro _ (_ | ⟨_, ⟨⟩⟩)
    exact clean_node (h us rfl)

theorem clean_stmts {ss : List Stmt} (h : ∀ s ∈ ss, s.outline.Clean) :
    ∀ t ∈ Stmt.outlines ss, t.Clean := by
  rw [Stmt.outlines_eq]
  simpa using h

theorem clean_clause {s : Option Stmt} (h : ∀ s' ∈ s, s'.outline.Clean) :
    ∀ us ∈ Stmt.clauseOutline s, ∀ t ∈ us, t.Clean := by
  cases s with
  | none => nofun
  | some s =>
    rintro _ ⟨⟩
    simpa using h s rfl

theorem Stmt.Named.clean {s : Stmt} (h : s.Named) : s.outline.Clean := by
  induction h with
  | @declare x type init hx htype hinit =>
    refine clean_detail ?_ ?_
    · have hname := hx.not_mem (c := '\n') (by decide)
      simp [hname, htype.newline_not_mem]
    · cases init with
      | none => nofun
      | some e => simpa using (hinit e rfl).clean
  | assign hx he => exact clean_detail (hx.not_mem (by decide)) (by simpa using he.clean)
  | setElement ha hi he => exact clean_node (by simp [ha.clean, hi.clean, he.clean])
  | expr he => exact clean_node (by simpa using he.clean)
  | @branch cond yes no hcond _ _ hyes hno =>
    refine clean_node (List.forall_mem_cons.2 ⟨clean_node (by simpa using hcond.clean),
      List.forall_mem_cons.2 ⟨clean_node (clean_stmts hyes), clean_part ?_⟩⟩)
    cases no with
    | nil => nofun
    | cons s ss =>
      rintro _ ⟨⟩
      exact clean_stmts hno
  | loopWhile hcond _ hbody =>
    exact clean_node (List.forall_mem_cons.2 ⟨clean_node (by simpa using hcond.clean),
      List.forall_mem_singleton.2 (clean_node (clean_stmts hbody))⟩)
  | doWhile _ hcond hbody =>
    exact clean_node (List.forall_mem_cons.2 ⟨clean_node (clean_stmts hbody),
      List.forall_mem_singleton.2 (clean_node (by simpa using hcond.clean))⟩)
  | @loopFor init cond step body _ hcond _ _ hinit hstep hbody =>
    have hcond' : ∀ us ∈ cond.map fun e => [e.outline], ∀ t ∈ us, t.Clean := by
      cases cond with
      | none => nofun
      | some e =>
        rintro _ ⟨⟩
        simpa using (hcond e rfl).clean
    refine clean_node ?_
    simp only [List.forall_mem_append, List.forall_mem_singleton]
    exact ⟨clean_part (clean_clause hinit), clean_part hcond', clean_part (clean_clause hstep),
      clean_node (clean_stmts hbody)⟩

/-! ### Outlines show programs -/

theorem repr_nat_injective {m n : Nat} (h : m.repr = n.repr) : m = n := by
  have hvalue := congrArg (fun s : String => Nat.ofDigitChars 10 s.toList 0) h
  simpa [Nat.toList_repr] using hvalue

theorem repr_int_injective {m n : Int} (h : m.repr = n.repr) : m = n := by
  -- No digit is a sign.
  have hsign (j k : Nat) : j.repr ≠ "-" ++ k.repr := by
    intro heq
    have hmem : '-' ∈ Nat.toDigits 10 j := by
      rw [← Nat.toList_repr, heq]
      simp
    exact absurd (Number.isDigit_toDigits j _ hmem) (by decide)
  rw [Int.repr_eq_if, Int.repr_eq_if] at h
  split at h <;> split at h
  · have := repr_nat_injective h
    omega
  · exact absurd h (hsign _ _)
  · exact absurd h.symm (hsign _ _)
  · have := repr_nat_injective (String.append_right_inj _ |>.1 h)
    omega

theorem op_injective {op op' : BinaryOp} (h : op.name = op'.name) : op = op' := by
  cases op <;> cases op' <;> first | rfl | exact absurd h (by decide)

mutual

theorem expr_injective (e e' : Expr) (h : e.outline = e'.outline) : e.oneNaN = e'.oneNaN := by
  match e with
  | .str s =>
    cases e' <;> simp [Expr.outline] at h
    rw [Text.Quoted.render_injective h]
  | .int n =>
    cases e' <;> simp only [Expr.outline, Outline.node.injEq, Tree.Label.mk.injEq, reduceCtorEq,
      false_and, true_and, and_true, Option.some.injEq] at h
    rw [repr_int_injective h]
  | .float d =>
    cases e' <;> simp [Expr.outline] at h
    rw [Expr.oneNaN, Expr.oneNaN, Number.Double.oneNaN_injective h]
  | .bool b =>
    cases e' <;> simp [Expr.outline] at h
    rename_i b'
    cases b <;> cases b' <;> first | rfl | exact absurd h (by decide)
  | .var x =>
    cases e' <;> simp [Expr.outline] at h
    rw [h]
  | .binary op l r =>
    cases e' <;> simp [Expr.outline] at h
    rw [Expr.oneNaN, Expr.oneNaN, op_injective h.1, expr_injective l _ h.2.1,
      expr_injective r _ h.2.2]
  | .array hint es =>
    cases e' <;> simp [Expr.outline] at h
    rw [Expr.oneNaN, Expr.oneNaN, h.1, exprs_injective es _ h.2]
  | .index a i =>
    cases e' <;> simp [Expr.outline] at h
    rw [Expr.oneNaN, Expr.oneNaN, expr_injective a _ h.1, expr_injective i _ h.2]
  | .object fs =>
    cases e' <;> simp [Expr.outline] at h
    rw [Expr.oneNaN, Expr.oneNaN, fields_injective fs _ h]
  | .member base x =>
    cases e' <;> simp [Expr.outline] at h
    rw [Expr.oneNaN, Expr.oneNaN, h.1, expr_injective base _ h.2]
  | .call x args =>
    cases e' <;> simp [Expr.outline] at h
    rw [Expr.oneNaN, Expr.oneNaN, h.1, exprs_injective args _ h.2]

theorem exprs_injective (es es' : List Expr) (h : Expr.outlines es = Expr.outlines es') :
    Expr.oneNaNs es = Expr.oneNaNs es' := by
  match es, es' with
  | [], [] => rfl
  | e :: es, e' :: es' =>
    obtain ⟨he, hes⟩ := List.cons.inj h
    rw [Expr.oneNaNs, Expr.oneNaNs, expr_injective e e' he, exprs_injective es es' hes]

theorem fields_injective (fs fs' : List (String × Expr))
    (h : Expr.fieldOutlines fs = Expr.fieldOutlines fs') :
    Expr.oneNaNFields fs = Expr.oneNaNFields fs' := by
  match fs, fs' with
  | [], [] => rfl
  | (key, e) :: fs, (key', e') :: fs' =>
    obtain ⟨hf, hfs⟩ := List.cons.inj h
    simp only [Outline.node.injEq, Tree.Label.mk.injEq, Option.some.injEq, true_and,
      List.cons.injEq, and_true] at hf
    rw [Expr.oneNaNFields, Expr.oneNaNFields, hf.1, expr_injective e e' hf.2,
      fields_injective fs fs' hfs]

end

/-- Name and type of a declaration: the name has no colon. -/
theorem declared_injective {x x' type type' : String} (hx : IsWord x) (hx' : IsWord x')
    (h : x ++ ": " ++ type = x' ++ ": " ++ type') : x = x' ∧ type = type' := by
  have hlist : x.toList ++ ':' :: ' ' :: type.toList = x'.toList ++ ':' :: ' ' :: type'.toList := by
    simpa using congrArg String.toList h
  obtain ⟨hname, hrest⟩ := (Text.Run.before (hx.not_mem (by decide)) _).unique
    (Text.Run.before (hx'.not_mem (by decide)) _) hlist
  simp only [List.cons.injEq, true_and] at hrest
  exact ⟨String.toList_inj.1 hname, String.toList_inj.1 hrest⟩

/-- No part with this first word. -/
def Tree.Outline.Lacks (head : Head) (ts : List Outline) : Prop :=
  ∀ label parts, .node label parts ∈ ts → label.head ≠ head

theorem lacks_part {head other : Head} (hother : other ≠ head) {ts : Option (List Outline)}
    {us : List Outline} (hus : Outline.Lacks head us) :
    Outline.Lacks head (Outline.part other ts ++ us) := by
  intro label parts hmem
  rcases List.mem_append.1 hmem with hmem | hmem
  · cases ts with
    | none => cases hmem
    | some ts =>
      cases List.mem_singleton.1 hmem
      exact hother
  · exact hus label parts hmem

/-- A part that is there or not shows itself where no part after it has its first word. -/
theorem part_injective {head : Head} {ts ts' : Option (List Outline)} {us us' : List Outline}
    (hus : Outline.Lacks head us) (hus' : Outline.Lacks head us')
    (h : Outline.part head ts ++ us = Outline.part head ts' ++ us') : ts = ts' ∧ us = us' := by
  cases ts with
  | none =>
    cases ts' with
    | none => exact ⟨rfl, h⟩
    | some ts' =>
      have hhere : us = .node ⟨head, none⟩ ts' :: us' := h
      exact absurd rfl (hus ⟨head, none⟩ ts' (by rw [hhere]; exact List.mem_cons_self))
  | some ts =>
    cases ts' with
    | none =>
      have hthere : .node ⟨head, none⟩ ts :: us = us' := h
      exact absurd rfl (hus' ⟨head, none⟩ ts (by rw [← hthere]; exact List.mem_cons_self))
    | some ts' => simpa [Outline.part] using h

/-- The parts of a loop with clauses, of which only the last is always there. -/
theorem loopFor_injective {init init' cond cond' step step' : Option (List Outline)}
    {body body' : List Outline}
    (h : Outline.part .init init ++ (Outline.part .cond cond ++ (Outline.part .step step ++
        [.node ⟨.body, none⟩ body])) =
      Outline.part .init init' ++ (Outline.part .cond cond' ++ (Outline.part .step step' ++
        [.node ⟨.body, none⟩ body']))) :
    init = init' ∧ cond = cond' ∧ step = step' ∧ body = body' := by
  have hbody : ∀ {head : Head} {parts : List Outline}, Head.body ≠ head →
      Outline.Lacks head [.node ⟨.body, none⟩ parts] := by
    rintro head parts hne label parts' (_ | ⟨_, ⟨⟩⟩)
    exact hne
  obtain ⟨hinit, h⟩ := part_injective
    (lacks_part (by decide) (lacks_part (by decide) (hbody (by decide))))
    (lacks_part (by decide) (lacks_part (by decide) (hbody (by decide)))) h
  obtain ⟨hcond, h⟩ := part_injective (lacks_part (by decide) (hbody (by decide)))
    (lacks_part (by decide) (hbody (by decide))) h
  obtain ⟨hstep, h⟩ := part_injective (hbody (by decide)) (hbody (by decide)) h
  simp only [List.cons.injEq, Outline.node.injEq, true_and, and_true] at h
  exact ⟨hinit, hcond, hstep, h⟩

theorem optional_injective {e e' : Option Expr}
    (h : (e.map fun e => [e.outline]) = e'.map fun e => [e.outline]) :
    e.map Expr.oneNaN = e'.map Expr.oneNaN := by
  cases e <;> cases e' <;> simp at h
  · rfl
  · rw [Option.map_some, Option.map_some, expr_injective _ _ h]

theorem otherwise_injective {no no' : List Stmt}
    (h : Outline.part .no (if no.isEmpty then none else some (Stmt.outlines no)) =
      Outline.part .no (if no'.isEmpty then none else some (Stmt.outlines no'))) :
    Stmt.outlines no = Stmt.outlines no' := by
  cases no <;> cases no' <;> simp [Outline.part] at h
  · rfl
  · exact h

mutual

theorem stmt_injective (s s' : Stmt) (hs : s.Named) (hs' : s'.Named)
    (h : s.outline = s'.outline) : s.oneNaN = s'.oneNaN := by
  match s with
  | .declare x type init =>
    cases s' <;> simp [Stmt.outline] at h
    rename_i x' type' init'
    cases hs with | declare hx _ _ =>
    cases hs' with | declare hx' _ _ =>
    obtain ⟨rfl, rfl⟩ := declared_injective hx hx' h.1
    cases init <;> cases init' <;> simp at h
    · rfl
    · rw [Stmt.oneNaN, Stmt.oneNaN, Option.map_some, Option.map_some, expr_injective _ _ h]
  | .assign x e =>
    cases s' <;> simp [Stmt.outline] at h
    rw [Stmt.oneNaN, Stmt.oneNaN, h.1, expr_injective e _ h.2]
  | .setElement a i e =>
    cases s' <;> simp [Stmt.outline] at h
    rw [Stmt.oneNaN, Stmt.oneNaN, expr_injective a _ h.1, expr_injective i _ h.2.1,
      expr_injective e _ h.2.2]
  | .expr e =>
    cases s' <;> simp [Stmt.outline] at h
    rw [Stmt.oneNaN, Stmt.oneNaN, expr_injective e _ h]
  | .branch cond yes no =>
    cases s' <;> simp [Stmt.outline] at h
    rename_i cond' yes' no'
    cases hs with | branch _ hyes hno =>
    cases hs' with | branch _ hyes' hno' =>
    obtain ⟨hcond, hthen, helse⟩ := h
    rw [Stmt.oneNaN, Stmt.oneNaN, expr_injective cond _ hcond,
      stmts_injective yes _ hyes hyes' hthen,
      stmts_injective no _ hno hno' (otherwise_injective (by simpa using helse))]
  | .loopWhile cond body =>
    cases s' <;> simp [Stmt.outline] at h
    cases hs with | loopWhile _ hbody =>
    cases hs' with | loopWhile _ hbody' =>
    rw [Stmt.oneNaN, Stmt.oneNaN, expr_injective cond _ h.1,
      stmts_injective body _ hbody hbody' h.2]
  | .doWhile body cond =>
    cases s' <;> simp [Stmt.outline] at h
    cases hs with | doWhile hbody _ =>
    cases hs' with | doWhile hbody' _ =>
    rw [Stmt.oneNaN, Stmt.oneNaN, stmts_injective body _ hbody hbody' h.1,
      expr_injective cond _ h.2]
  | .loopFor init cond step body =>
    cases s' <;> simp [Stmt.outline] at h
    rename_i init' cond' step' body'
    cases hs with | loopFor hinit _ hstep hbody =>
    cases hs' with | loopFor hinit' _ hstep' hbody' =>
    obtain ⟨hi, hc, hs, hb⟩ := loopFor_injective h
    rw [Stmt.oneNaN, Stmt.oneNaN, clause_injective init _ hinit hinit' hi, optional_injective hc,
      clause_injective step _ hstep hstep' hs, stmts_injective body _ hbody hbody' hb]

theorem clause_injective (s s' : Option Stmt) (hs : ∀ t ∈ s, t.Named) (hs' : ∀ t ∈ s', t.Named)
    (h : Stmt.clauseOutline s = Stmt.clauseOutline s') :
    Stmt.oneNaNClause s = Stmt.oneNaNClause s' := by
  match s, s' with
  | none, none => rfl
  | some s, some s' =>
    simp only [Stmt.clauseOutline, Option.some.injEq, List.cons.injEq, and_true] at h
    rw [Stmt.oneNaNClause, Stmt.oneNaNClause, stmt_injective s s' (hs s rfl) (hs' s' rfl) h]

theorem stmts_injective (ss ss' : List Stmt) (hss : ∀ s ∈ ss, s.Named) (hss' : ∀ s ∈ ss', s.Named)
    (h : Stmt.outlines ss = Stmt.outlines ss') : Stmt.oneNaNs ss = Stmt.oneNaNs ss' := by
  match ss, ss' with
  | [], [] => rfl
  | s :: ss, s' :: ss' =>
    obtain ⟨hs, hss⟩ := List.forall_mem_cons.1 hss
    obtain ⟨hs', hss'⟩ := List.forall_mem_cons.1 hss'
    obtain ⟨hone, hmore⟩ := List.cons.inj h
    rw [Stmt.oneNaNs, Stmt.oneNaNs, stmt_injective s s' hs hs' hone,
      stmts_injective ss ss' hss hss' hmore]

end

/-- A program with every double that is no number exchanged for one. -/
def Program.oneNaN (p : Program) : Program := Stmt.oneNaNs p

/-- **The tree of a program tells it.** Two programs of words, with keys on one line, that
have the same tree are the same but for doubles that are no number. -/
theorem tree_injective {p q : Program} (hp : ∀ s ∈ p, s.Named) (hq : ∀ s ∈ q, s.Named)
    (h : Program.tree p = Program.tree q) : Program.oneNaN p = Program.oneNaN q := by
  have hfits : ∀ {p : Program}, (∀ s ∈ p, s.Named) →
      ∀ l ∈ Outline.forest 0 (Stmt.outlines p), Tree.Fits l.text := by
    intro p hp l hl
    obtain ⟨t, ht, hl⟩ := Outline.mem_forest.1 hl
    exact (clean_stmts (fun s hs => (hp s hs).clean) t ht).fits hl
  rw [Program.tree_eq, Program.tree_eq] at h
  have hlines := Tree.render_injective (hfits hp) (hfits hq) h
  have hforest := @Outline.forest_injective 0 (Stmt.outlines p) (Stmt.outlines q) [] [] nofun nofun
    (by rw [hlines])
  exact stmts_injective p q hp hq hforest.1

/-- A program with a double in it, a text on two lines and a key of two words. -/
def annotated (d : Number.Double) : Program :=
  [.declare "x" "number[]" (some (.array "number" [.float d, .int (-1)])),
    .branch (.index (.var "x") (.int 0))
      [.expr (.call "println" [.str "a\n\"b\""]), .assign "y" (.object [("k 1", .bool true)])] []]

theorem annotated_named (d : Number.Double) : ∀ s ∈ annotated d, s.Named := by
  have hword : ∀ {x : String}, Token.isWord x.toList = true → IsWord x := id
  have hx : IsWord "x" := hword (by decide)
  have hnumber : IsWord "number" := hword (by decide)
  have harray : Expr.Named (.array "number" [.float d, .int (-1)]) :=
    .array ⟨_, hnumber, .inl rfl⟩ (by simp [Expr.Named.float, Expr.Named.int])
  have hcall : Expr.Named (.call "println" [.str "a\n\"b\""]) :=
    .call (hword (by decide)) (by simp [Expr.Named.str])
  have hobject : Expr.Named (.object [("k 1", .bool true)]) :=
    .object (by decide) (by simp [Expr.Named.bool])
  refine List.forall_mem_cons.2 ⟨.declare hx ⟨_, hnumber, .inr rfl⟩ ?_,
    List.forall_mem_singleton.2 (.branch (.index (.var hx) (.int 0)) ?_ nofun)⟩
  · rintro _ ⟨⟩
    exact harray
  · exact List.forall_mem_cons.2 ⟨.expr hcall,
      List.forall_mem_singleton.2 (.assign (hword (by decide)) hobject)⟩

/-- Two doubles that are no number are all the difference between two programs. -/
theorem nans_alike : Program.tree (annotated (.nan true)) = Program.tree (annotated (.nan false)) ∧
    Program.oneNaN (annotated (.nan true)) = Program.oneNaN (annotated (.nan false)) := by
  have htree : Program.tree (annotated (.nan true)) = Program.tree (annotated (.nan false)) := by
    decide +kernel
  exact ⟨htree, tree_injective (annotated_named _) (annotated_named _) htree⟩

end TinyScript.Ast
