import TinyScript.Proofs.Lower.Expressions

/-! Lowered statements. Statements without blocks of their own write, print and
call as their evaluation does. A loop comes back to its head with results that were
there before it unchanged, and every turn takes at least one step; so a loop that
the evaluation cuts off after some turns makes at least that many steps. -/

namespace TinyScript.Core.Lower

open Ir (Module Operand Op Instr Block Terminator Builder)
open Ir.Builder
open Machine (State Safe Temporary Allowed Steps step perform operand?)
open Meaning

variable {S : Setting} {p : Point}

/-- A statement leaves nothing behind but its effects. -/
abbrev Runs (S : Setting) (p : Point) {α : Type} (x : Build α) (y : Eval Unit) : Prop :=
  Matches S p x y fun _ _ _ => True

/-! ### Stores -/

theorem convert_matches (here : Here S p) {c : Conversion} {source target : Ty} {o : Operand}
    {v : Meaning.Value} (hc : Conversion.between? source target = some c)
    (hv : HasType S.places p.store source v) (ho : Denotes S p o v) :
    Matches S p (convert o c) (Resolved.convert c v) fun o v p' => Denotes S p' o v := by
  have hzero := carries_zero S p
  cases hv with
  | str b => cases hc
  | array place filled => cases hc
  | int n =>
    cases target <;> cases hc
    · exact .emit_last here rfl (Machine.perform_cast ho.value rfl) trivial trivial
    · exact .emit_last here rfl (Machine.perform_icmp ho.value hzero.value (icmp_nonzero n))
        trivial trivial
  | double d =>
    cases target <;> cases hc
    · exact .emit_last here rfl (Machine.perform_cast ho.value rfl) trivial trivial
    · refine .emit_last here rfl ?_ trivial trivial
      rw [Machine.perform_fcmpOne ho.value rfl, orderedAndDiffer_zero]
      rfl
  | bool b =>
    cases target <;> cases hc
    · refine .emit_last here rfl (Machine.perform_cast ho.value ?_) trivial trivial
      show some (Machine.Value.int _) = some (Machine.Value.int _)
      rw [ofInt_unsigned]
    · exact .emit_last here rfl (Machine.perform_cast ho.value rfl) trivial trivial

/-- What becomes of a value on its way into a variable. -/
def converted (c : Option Conversion) (v : Meaning.Value) : Eval Meaning.Value :=
  match c with
  | none => return v
  | some c => Resolved.convert c v

theorem assign_eq (v : Var) (s : Stored) :
    Resolved.assign v s = Resolved.expr s.value >>= fun value =>
      converted s.convert value >>= writeCell v.slot := by
  unfold Resolved.assign Resolved.stored
  rw [bind_bind]
  rfl

theorem store_matches (here : Here S p) (typed : p.store.Typed S.places) {v : Var} {s : Stored}
    (hs : s.Typed S.places v) {o : Operand} {value : Meaning.Value}
    (hvalue : HasType S.places p.store s.value.type value) (ho : Denotes S p o value) :
    Runs S p (store v s.convert o) (converted s.convert value >>= writeCell v.slot) := by
  have fits := hs.fits
  unfold store
  cases hc : s.convert with
  | none =>
    rw [hc] at fits
    exact writeCell_matches here typed hs.place (fits ▸ hvalue) ho
  | some c =>
    rw [hc] at fits
    refine (convert_matches here fits hvalue ho).bind
      (Resolved.convert_yields typed fits hvalue) ?_
    intro o' v' p' here' typed' _ hv' ho'
    exact writeCell_matches here' typed' hs.place hv' ho'

theorem assign_matches (here : Here S p) (typed : p.store.Typed S.places) {v : Var} {s : Stored}
    (hs : s.Typed S.places v) :
    Runs S p (expr S.checked s.value >>= fun value => store v s.convert value)
      (Resolved.assign v s) := by
  rw [assign_eq]
  refine (expr_matches hs.value p here typed).bind (Resolved.expr_sound hs.value _ typed) ?_
  intro o value p' here' typed' _ hvalue ho
  exact store_matches here' typed' hs hvalue ho

/-- A slot that is added runs nothing. -/
theorem Matches.addSlot {γ δ : Type} {hint : String} {type : Ir.Ty} {x : Build γ} {y : Eval δ}
    {R : γ → δ → Point → Prop} (here : Here S p)
    (hx : ∀ b, Here S ⟨b, p.store, p.state⟩ → Later p ⟨b, p.store, p.state⟩ →
      Matches S ⟨b, p.store, p.state⟩ x y R) :
    Matches S p (Ir.Builder.addSlot hint type >>= fun _ => x) y R := by
  refine .silent (run_addSlot _ _ _) (by simp) ?_
  exact hx _ ⟨here.layout, here.place, here.agrees⟩

theorem declare_matches (here : Here S p) (typed : p.store.Typed S.places) {v : Var} {s : Stored}
    (hs : s.Typed S.places v) :
    Runs S p (declareVar S.checked v (some s)) (Resolved.assign v s) := by
  rw [assign_eq]
  refine (expr_matches hs.value p here typed).bind (Resolved.expr_sound hs.value _ typed) ?_
  intro o value p' here' typed' _ hvalue ho
  refine .addSlot here' ?_
  intro b here'' later
  exact store_matches here'' typed' hs hvalue (ho.later later)

theorem setElement_matches (here : Here S p) (typed : p.store.Typed S.places) {elem : Ty}
    {a i e : Expr} (ha : Core.Typed S.places a) (hi : Core.Typed S.places i)
    (he : Core.Typed S.places e) (atype : a.type = .array elem) (itype : i.type = .i32)
    (etype : e.type = elem) :
    Runs S p (stmt S.checked (.setElement elem a i e)) (Resolved.stmt S.fuel (.setElement elem a i e))
    := by
  unfold stmt Resolved.stmt
  refine (expr_matches ha p here typed).bind (Resolved.expr_sound ha _ typed) ?_
  intro o array p₁ here₁ typed₁ _ harray ho
  refine (expr_matches hi p₁ here₁ typed₁).bind (Resolved.expr_sound hi _ typed₁) ?_
  intro o' index p₂ here₂ typed₂ later₂ hindex ho'
  rw [atype] at harray
  rw [itype] at hindex
  have harray₂ := harray.mono later₂.grows
  refine (elementAddress_matches here₂ typed₂ harray₂ hindex (ho.later later₂) ho').bind
    (locate_yields typed₂ harray₂ hindex) ?_
  intro address found p₃ here₃ typed₃ _ hfound haddress
  refine (expr_matches he p₃ here₃ typed₃).bind (Resolved.expr_sound he _ typed₃) ?_
  intro o'' value p₄ here₄ typed₄ later₄ hvalue ho''
  exact writeElement_matches here₄ typed₄ (hfound.mono later₄.grows) (etype ▸ hvalue) ho''
    (haddress.later later₄)

/-! ### Calls and printing -/

theorem Matches.congr {α β : Type} {x : Build α} {y y' : Eval β} {Q : α → β → Point → Prop}
    (h : Matches S p x y' Q) (heq : y p.store = y' p.store) : Matches S p x y Q := by
  intro stage
  rw [heq]
  exact h stage

/-- A call whose result, if there is one, is not used. -/
theorem callStmt_matches (here : Here S p) (typed : p.store.Typed S.places)
    {f : Library.Function} {es : List Expr} (hes : ∀ e ∈ es, Core.Typed S.places e)
    (types : es.map Expr.type = f.signature.params) :
    Runs S p (stmt S.checked (.eval (.call f es))) (Resolved.stmt S.fuel (.eval (.call f es))) := by
  have hsound := fun e he => Resolved.expr_sound (hes e he)
  unfold stmt Resolved.stmt expr
  rw [bind_assoc]
  refine (arguments_match here typed hsound fun e he => expr_matches (hes e he)).bind
    (Resolved.exprs_yields typed hsound) ?_
  intro os vs p' here' typed' _ hvs hos
  rw [types] at hvs
  refine (call_matches here' typed' hos hvs).seq ?_
  intro o r p'' _ here'' _ _
  exact .pure here'' trivial

theorem eval_matches (here : Here S p) (typed : p.store.Typed S.places) {e : Expr}
    (he : Core.Typed S.places e) :
    Runs S p (stmt S.checked (.eval e)) (Resolved.stmt S.fuel (.eval e)) := by
  refine .congr ?_ (Resolved.stmt_eval typed S.fuel he)
  unfold stmt
  refine (expr_matches he p here typed).seq ?_
  intro o v p' _ here' _ _
  exact .pure here' trivial

/-- An instruction that prints. -/
theorem print_next (here : Here S p) {hint : String} {f : Ir.External} {args : List Operand}
    {bytes : Text.Bytes} {n : Int32} (hf : f = .puts ∨ f = .printf)
    (hperform : perform S.code p.state (.call f args) = .ok (.print bytes, some (.int n))) :
    Runs S p (emit hint .i32 (.call f args) >>= fun _ => pure ()) (put bytes) := by
  intro stage
  have hagrees : ∀ rest, Agrees S.code S.places { p.store with output := p.store.output ++ bytes }
      (Machine.record ({ p.state with body := rest }.apply (.print bytes))
        (some p.builder.hints.length) (some (.int n))) := by
    intro rest
    have agrees := here.agrees
    have hprinted : Agrees S.code S.places { p.store with output := p.store.output ++ bytes }
        ({ p.state with body := rest }.apply (.print bytes)) := by
      refine ⟨agrees.cell, agrees.room, agrees.cells, agrees.storages,
        agrees.sound.congr rfl rfl, agrees.results, ?_, agrees.seen.calls, agrees.seen.world⟩
      show (p.state.output ++ bytes).toList = p.store.output ++ bytes
      rw [← agrees.seen.output]
      simp
    exact hprinted.record (v := .int n) trivial _
  have hallowed : Allowed S.code S.places p.state (.call f args) := by
    rcases hf with rfl | rfl <;> trivial
  obtain ⟨s', rest, hcode, _, hstep, here', later⟩ := instr_next here
    (i := ⟨some p.builder.hints.length, .call f args⟩) stage rfl rfl
    ((emit_grows hint .i32 (.call f args)).hints p.builder)
    (fun k hk => by cases hk; exact Nat.le_refl _) hperform hagrees (.refl p.store)
  exact ⟨1, s', .one (here.safe hcode hstep hallowed) hstep, here', later, trivial⟩

theorem printf_matches (here : Here S p) {format : String} {o : Operand} {w : Machine.Value}
    {bytes : Text.Bytes} (ho : Carries S p o w)
    (hformat : Machine.format? (Text.Bytes.cut (Text.Utf8.encode format.toList)) [w] = some bytes) :
    Runs S p (printf format o) (put bytes) := by
  refine .declare here ?_
  intro b₁ here₁ later₁
  have htext := text_matches here₁ format
  have hput : Runs S ⟨b₁, p.store, p.state⟩ (do
      let format ← Ir.Builder.text format
      let _ ← emit "printf" .i32 (.call .printf [format, o]))
      (pure (Meaning.text format) >>= fun _ => put bytes) := by
    refine htext.seq ?_
    intro o' v p' hgives here' later' ho'
    rw [pure_apply] at hgives
    obtain ⟨rfl, _⟩ := Result.gives.inj hgives
    refine print_next (n := Int32.ofNat bytes.length) here' (.inr rfl) ?_
    have hargs := mapM_carries (.cons ho' (.cons ((ho.later later₁).later later') .nil))
    rw [Machine.perform_call hargs (show Ir.External.printf ≠ .boundsFail by decide)]
    show Machine.orStuck (((Machine.format? _ [w]).map _)) = _
    rw [hformat]
    rfl
  exact hput

theorem printText_matches (here : Here S p) (newline : Bool) {o : Operand} {b : Text.Bytes}
    (ho : Carries S p o (.str b)) :
    Runs S p (printText newline o) (Meaning.print newline (.str b)) := by
  cases newline with
  | true =>
    refine .declare here ?_
    intro b₁ here₁ later₁
    refine print_next (n := 0) here₁ (.inl rfl) ?_
    have hargs := mapM_carries (.cons (ho.later later₁) .nil)
    rw [Machine.perform_call hargs (show Ir.External.puts ≠ .boundsFail by decide)]
    rfl
  | false =>
    show Runs S p (printf "%s" o) (put (b ++ []))
    rw [List.append_nil]
    exact printf_matches here ho (format_text b)

theorem printInt_matches (here : Here S p) (newline : Bool) {o : Operand} {n : Int32}
    (ho : Carries S p o (.int n)) :
    Runs S p (printf (if newline then "%d\n" else "%d") o) (Meaning.print newline (.int n)) :=
  printf_matches here ho (format_int newline n)

end TinyScript.Core.Lower
