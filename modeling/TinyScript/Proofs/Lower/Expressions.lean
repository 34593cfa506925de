import TinyScript.Proofs.Lower.Calls
import TinyScript.Proofs.Lower.Literals

/-! Lowered expressions. The run of an expression follows its evaluation and leaves
the value in an operand. Reading a variable that was never written and filling a
literal that is too long are stuck in both; a division fails in both; an index out
of range ends both. -/

namespace TinyScript.Core.Lower

open Ir (Module Operand Op Instr Block Terminator Builder)
open Ir.Builder
open Machine (State Safe Temporary Allowed Steps step perform operand?)
open Meaning

variable {S : Setting} {p : Point}

/-! ### Constants, variables and operators -/

theorem text_matches (here : Here S p) (s : String) :
    Matches S p (Ir.Builder.text s) (pure (Meaning.text s)) fun o v p' => Denotes S p' o v := by
  intro stage
  obtain ⟨k, rest, hrun, hk⟩ := run_text s p.builder
  rw [hrun] at stage ⊢
  refine ⟨0, p.state, .refl _, ⟨here.layout, here.place, here.agrees⟩,
    ⟨Nat.le_refl _, fun _ _ => rfl, .refl _⟩, carries_constant ?_ ?_⟩
  · have hsymbol := stage.symbol hk
    simp only [operand?, hsymbol]
    rfl
  · intro id t h
    cases h

theorem load_matches (here : Here S p) (typed : p.store.Typed S.places) {v : Var}
    (place : S.places[v.slot]? = some (.cell v.type)) {hint : String} :
    Matches S p
      (emit hint (.ofSource v.type) (.load (.ofSource v.type) (.slot v.slot (.ofSource v.type))))
      (readCell v.slot) fun o v p' => Denotes S p' o v := by
  have hoperand : operand? S.code p.state (.slot v.slot (.ofSource v.type)) =
      some (.address ⟨v.slot, 0⟩) := rfl
  have hallowed : Allowed S.code S.places p.state
      (.load (.ofSource v.type) (.slot v.slot (.ofSource v.type))) :=
    ⟨⟨v.slot, 0⟩, hoperand, .inl ⟨v.type, place, rfl, rfl⟩⟩
  have hread := here.agrees.cells place
  cases hcell : p.store.cells v.slot with
  | none =>
    rw [hcell] at hread
    refine .fails here id rfl rfl ?_ (Machine.perform_load_unwritten hoperand hread)
      (fun _ _ h => (nomatch h)) hallowed ?_
    · show Meaning.orStuck (p.store.cells v.slot) p.store = _
      rw [hcell]
      rfl
    · intro rest s' hcode
      exact .unwritten ⟨_, v.type, v.slot, rest, hcode, place, hread⟩ s'
  | some w =>
    rw [hcell] at hread
    have hw := here.agrees.whole typed (typed.cells place hcell)
    refine .emit_last here ?_ (Machine.perform_load hoperand hread) hallowed hw.temporary
    show Meaning.orStuck (p.store.cells v.slot) p.store = _
    rw [hcell]
    rfl

theorem arith_matches (here : Here S p) (op : ArithOp) {o o' : Operand} {a b : Int32}
    (ha : Carries S p o (.int a)) (hb : Carries S p o' (.int b)) {hint : String} :
    Matches S p (emit hint .i32 (.arith (arithOp op).1 o o'))
      (Resolved.arith op (.int a) (.int b)) fun o v p' => Denotes S p' o v := by
  have hperform := @Machine.perform_arith _ _ _ _ (arithOp op).1 _ _ ha.value hb.value
  have heval := arith_eq op a b p.store
  cases hr : Machine.arith (arithOp op).1 a b with
  | ok c =>
    rw [hr] at hperform heval
    exact .emit_last here heval hperform trivial trivial
  | error e =>
    rw [hr] at hperform heval
    obtain rfl := arith_error hr
    refine .fails here id rfl rfl heval hperform (fun _ _ h => (nomatch h)) trivial ?_
    exact fun _ s' _ => .fault s'

/-- A comparison is never the one that checks an index. -/
theorem compareOp_allowed (op : CompareOp) (s : State) (o o' : Operand) :
    Allowed S.code S.places s (.icmp (compareOp op) o o') := by
  cases op <;> trivial

theorem compare_matches (here : Here S p) (op : CompareOp) {t : Ty} {o o' : Operand}
    {a b : Meaning.Value} (ht : Comparable t) (ha : HasType S.places p.store t a)
    (hb : HasType S.places p.store t b) (hoa : Denotes S p o a) (hob : Denotes S p o' b) :
    Matches S p (compare (compareOp op) o o') (Resolved.compare op a b)
      fun o v p' => Denotes S p' o v := by
  rcases ht with rfl | rfl
  · cases ha
    cases hb
    exact .emit_last here rfl (Machine.perform_icmp hoa.value hob.value (icmp_int op _ _))
      (compareOp_allowed op _ _ _) trivial
  · cases ha
    cases hb
    exact .emit_last here rfl (Machine.perform_icmp hoa.value hob.value (icmp_bool op _ _))
      (compareOp_allowed op _ _ _) trivial

theorem carries_zero (S : Setting) (p : Point) : Carries S p zero (.int 0) :=
  carries_constant rfl fun _ _ h => (nomatch h)

theorem sameText_matches (here : Here S p) (negated : Bool) {o o' : Operand} {a b : Text.Bytes}
    (ha : Carries S p o (.str a)) (hb : Carries S p o' (.str b)) :
    Matches S p (do
        Ir.Builder.declare .strcmp
        let order ← emit "strcmp" .i32 (.call .strcmp [o, o'])
        compare (if negated then .ne else .eq) order zero)
      (Resolved.sameText negated (.str a) (.str b)) fun o v p' => Denotes S p' o v := by
  refine .declare here ?_
  intro b₁ here₁ later₁
  have hargs := mapM_carries (.cons (ha.later later₁) (.cons (hb.later later₁) .nil))
  have hcall := Machine.perform_call hargs (show Ir.External.strcmp ≠ .boundsFail by decide)
  refine .emit here₁ hcall trivial trivial ?_
  intro order b₂ s₂ here₂ later₂ horder _
  refine .emit_last here₂ rfl
    (Machine.perform_icmp horder.value (carries_zero S _).value (icmp_sameText negated a b)) ?_
    trivial
  cases negated <;> trivial

theorem nonzero_matches (here : Here S p) {o : Operand} {n : Int32}
    (h : Carries S p o (.int n)) {hint : String} :
    Matches S p (emit hint .i1 (.icmp .ne o zero)) (Resolved.nonzero (.int n))
      fun o v p' => Denotes S p' o v :=
  .emit_last here rfl (Machine.perform_icmp h.value (carries_zero S p).value (icmp_nonzero n))
    trivial trivial

/-! ### Calls -/

/-- What a call gives back is never an array. -/
theorem given_temporary {L : List Place} {mem : Machine.Memory} {r : Library.Value}
    {v : Meaning.Value} (h : given? r = some v) : Temporary L mem (encode L v) := by
  cases r with
  | i32 n => cases h; trivial
  | f64 d => cases h; trivial
  | str b =>
    cases b with
    | none => cases h
    | some b => cases h; trivial
  | void => cases h
  | array xs => cases h

section Calls

variable {f : Library.Function} {os : List Operand} {vs : List Meaning.Value}

/-- The instruction that calls a function, whether its result is used or not. -/
theorem call_next {id : Option Nat} {b' : Builder} (here : Here S p)
    (typed : p.store.Typed S.places) (stage : Stage S.code b')
    (hblock : b'.block = p.builder.block)
    (hbody : b'.body = ⟨id, .call (.library f) os⟩ :: p.builder.body)
    (hhints : p.builder.hints.length ≤ b'.hints.length)
    (hid : ∀ k, id = some k → k = p.builder.hints.length ∧ k < b'.hints.length)
    (hos : List.Forall₂ (Carries S p) os (vs.flatMap (spread S.places)))
    (hvs : List.Forall₂ (HasType S.places p.store) f.signature.params vs) :
    ∃ r st' s', Meaning.call f vs p.store = .gives r st' ∧
      Steps S.code (Safe S.code S.places) 1 p.state s' ∧ Here S ⟨b', st', s'⟩ ∧
      Later p ⟨b', st', s'⟩ ∧
      ∀ k v t, id = some k → r = some v → Denotes S ⟨b', st', s'⟩ (.result k t) v := by
  obtain ⟨args, hargs, hmatch⟩ := passed_matches typed f.params_passable hvs
  obtain ⟨out, hout, hfits⟩ := f.call?_fits p.store.world hmatch
  have heval : Meaning.call f vs p.store =
      .gives (given? out.result) (p.store.called f vs args out) := by
    unfold Meaning.call
    rw [hargs]
    simp only [hout]
  have hmapM := mapM_carries hos
  have hcall := callLibrary_eq here.agrees typed hvs hargs hout
  have hperform := Machine.perform_call hmapM
    (show Ir.External.library f ≠ .boundsFail from fun h => (nomatch h))
  have hvalue : Machine.call? p.state (.library f) (vs.flatMap (spread S.places)) = _ := hcall
  rw [hvalue] at hperform
  have hagrees : ∀ rest, Agrees S.code S.places (p.store.called f vs args out)
      (Machine.record ({ p.state with body := rest }.apply
        (.call ⟨f.name, args, out.result, out.array⟩ ((place? vs).map fun k => ⟨k, 0⟩) out.world)) id
        ((given? out.result).map (encode S.places))) := by
    intro rest
    have hstate : Agrees S.code S.places p.store { p.state with body := rest } :=
      here.agrees.congr rfl rfl rfl rfl rfl
    have hcalled := hstate.called typed hvs hargs hfits
    cases id with
    | none => cases hr : given? out.result <;> exact hcalled
    | some k =>
      cases hr : given? out.result with
      | none => exact hcalled
      | some v => exact hcalled.record (given_temporary hr) k
  have hgrows := (called_typed typed hvs hargs hfits).2
  have hallowed : Allowed S.code S.places p.state (.call (.library f) os) := by
    refine ⟨_, hmapM, passed_spread here.agrees typed f.params_passable hvs, ?_⟩
    intro call a w r ys hcalled hys
    exact call_array_fits here.agrees typed hvs hargs hout hfits hcalled hys
  obtain ⟨s', rest, hcode, hs', hstep, here', later⟩ := instr_next here stage hblock hbody hhints
    (fun k hk => Nat.le_of_eq (hid k hk).1.symm) hperform hagrees hgrows
  refine ⟨_, _, s', heval, .one (here.safe hcode hstep hallowed) hstep, here', later, ?_⟩
  rintro k v t rfl hr
  obtain ⟨hk, hlt⟩ := hid k rfl
  rw [hs', hr]
  refine carries_result hlt ?_
  have := stage.hints_le
  rw [(apply_kept _ _).2.2]
  show k < p.state.results.size
  rw [here.agrees.results]
  omega

theorem call_matches (here : Here S p) (typed : p.store.Typed S.places)
    (hos : List.Forall₂ (Carries S p) os (vs.flatMap (spread S.places)))
    (hvs : List.Forall₂ (HasType S.places p.store) f.signature.params vs) :
    Matches S p (call f os) (Meaning.call f vs)
      fun o r p' => ∀ v, f.signature.result ≠ .void → r = some v → Denotes S p' o v := by
  refine .declare here ?_
  intro b₁ here₁ later₁
  have hos₁ := hos.imp fun _ _ h => h.later later₁
  by_cases hvoid : f.signature.result = .void
  · rw [if_pos hvoid]
    intro stage
    obtain ⟨r, st', s', heval, hsteps, here', later, _⟩ := call_next here₁ typed stage rfl rfl
      (Nat.le_refl _) (fun k hk => (nomatch hk)) hos₁ hvs
    rw [heval]
    exact ⟨1, s', hsteps, here', later, fun v h => absurd hvoid h⟩
  · rw [if_neg hvoid]
    intro stage
    obtain ⟨r, st', s', heval, hsteps, here', later, hresult⟩ := call_next here₁ typed stage rfl rfl
      ((emit_grows _ _ _).hints b₁) (fun k hk => by cases hk; exact ⟨rfl, by simp [run_emit]⟩)
      hos₁ hvs
    rw [heval]
    exact ⟨1, s', hsteps, here', later, fun v _ hr => hresult _ v _ rfl hr⟩

end Calls

/-! ### Expressions -/

/-- An argument is taken apart before it is passed. -/
theorem Matches.pass {γ δ : Type} {f : List Operand → Build γ} {y : Eval δ}
    {R : γ → δ → Point → Prop} [∀ os, Building (f os)] (here : Here S p) {t : Ty} {o : Operand} {v : Meaning.Value}
    (hv : HasType S.places p.store t v) (ho : Denotes S p o v)
    (hf : ∀ os b s, Here S ⟨b, p.store, s⟩ → Later p ⟨b, p.store, s⟩ →
      List.Forall₂ (Carries S ⟨b, p.store, s⟩) os (spread S.places v) →
      Matches S ⟨b, p.store, s⟩ (f os) y R) :
    Matches S p (Lower.pass t o >>= f) y R := by
  have single (hspread : spread S.places v = [encode S.places v]) : Matches S p (f [o]) y R := by
    refine hf [o] p.builder p.state here (.refl p) ?_
    rw [hspread]
    exact .cons ho .nil
  cases hv with
  | int n => exact single rfl
  | bool b => exact single rfl
  | double d => exact single rfl
  | str b => exact single rfl
  | @array k n elem place filled =>
    show Matches S p (Ir.Builder.emit _ _ _ >>= fun data =>
      Ir.Builder.emit _ _ _ >>= fun len => f [data, len]) y R
    refine .emit here (extract_data o ho) trivial trivial ?_
    intro data b₁ s₁ here₁ later₁ hdata _
    refine .emit here₁ (Machine.perform_extract (ho.later later₁).value rfl) trivial trivial ?_
    intro len b₂ s₂ here₂ later₂ hlen _
    refine hf [data, len] b₂ s₂ here₂ (later₁.trans later₂) ?_
    exact .cons (hdata.later later₂) (.cons hlen .nil)

/-- The run of an expression follows its evaluation. -/
def ExprMatches (S : Setting) (e : Expr) : Prop :=
  ∀ p : Point, Here S p → p.store.Typed S.places →
    Matches S p (expr S.checked e) (Resolved.expr e) fun o v p' => Denotes S p' o v

theorem exprs_match (here : Here S p) (typed : p.store.Typed S.places) {es : List Expr}
    (hsound : ∀ e ∈ es, Resolved.Sound S.places e) (hes : ∀ e ∈ es, ExprMatches S e) :
    Matches S p (exprs S.checked es) (Resolved.exprs es)
      fun os vs p' => List.Forall₂ (Denotes S p') os vs := by
  induction es generalizing p with
  | nil => exact .pure here .nil
  | cons e es ih =>
    have hrest := fun e he => hsound e (List.mem_cons_of_mem _ he)
    refine (hes e List.mem_cons_self p here typed).bind (hsound e List.mem_cons_self _ typed) ?_
    intro o v p₁ here₁ typed₁ later₁ _ ho
    refine (ih here₁ typed₁ hrest fun e he => hes e (List.mem_cons_of_mem _ he)).bind
      (Resolved.exprs_yields typed₁ hrest) ?_
    intro os vs p₂ here₂ typed₂ later₂ _ hos
    exact .pure here₂ (.cons (ho.later later₂) hos)

theorem arguments_match (here : Here S p) (typed : p.store.Typed S.places) {es : List Expr}
    (hsound : ∀ e ∈ es, Resolved.Sound S.places e) (hes : ∀ e ∈ es, ExprMatches S e) :
    Matches S p (arguments S.checked es) (Resolved.exprs es)
      fun os vs p' => List.Forall₂ (Carries S p') os (vs.flatMap (spread S.places)) := by
  induction es generalizing p with
  | nil => exact .pure here .nil
  | cons e es ih =>
    have hrest := fun e he => hsound e (List.mem_cons_of_mem _ he)
    refine (hes e List.mem_cons_self p here typed).bind (hsound e List.mem_cons_self _ typed) ?_
    intro o v p₁ here₁ typed₁ later₁ hv ho
    refine .pass here₁ hv ho ?_
    intro passed b s here₂ later₂ hpassed
    refine (ih here₂ typed₁ hrest fun e he => hes e (List.mem_cons_of_mem _ he)).bind
      (Resolved.exprs_yields typed₁ hrest) ?_
    intro os vs p₃ here₃ typed₃ later₃ _ hos
    refine .pure here₃ ?_
    rw [List.flatMap_cons]
    exact List.rel_append (hpassed.imp fun _ _ h => h.later later₃) hos

/-- Two operands and what is done with their values. -/
theorem binary_matches (here : Here S p) (typed : p.store.Typed S.places) {l r : Expr}
    {f : Operand → Operand → Build Operand} {g : Meaning.Value → Meaning.Value → Eval Meaning.Value}
    [∀ a b, Building (f a b)] (hl : Core.Typed S.places l) (hr : Core.Typed S.places r)
    (ihl : ExprMatches S l) (ihr : ExprMatches S r)
    (hf : ∀ p' o o' a b, Here S p' → p'.store.Typed S.places →
      HasType S.places p'.store l.type a → HasType S.places p'.store r.type b →
      Denotes S p' o a → Denotes S p' o' b →
      Matches S p' (f o o') (g a b) fun o v p' => Denotes S p' o v) :
    Matches S p (do let a ← expr S.checked l; let b ← expr S.checked r; f a b)
      (do let a ← Resolved.expr l; let b ← Resolved.expr r; g a b)
      fun o v p' => Denotes S p' o v := by
  refine (ihl p here typed).bind (Resolved.expr_sound hl _ typed) ?_
  intro o a p₁ here₁ typed₁ later₁ ha ho
  refine (ihr p₁ here₁ typed₁).bind (Resolved.expr_sound hr _ typed₁) ?_
  intro o' b p₂ here₂ typed₂ later₂ hb ho'
  exact hf p₂ o o' a b here₂ typed₂ (ha.mono later₂.grows) hb (ho.later later₂) ho'

theorem expr_matches {e : Expr} (he : Core.Typed S.places e) : ExprMatches S e := by
  induction he with
  | str s => exact fun p here _ => text_matches here s
  | int n => exact fun p here _ => .pure here (carries_constant rfl fun _ _ h => (nomatch h))
  | float d => exact fun p here _ => .pure here (carries_constant rfl fun _ _ h => (nomatch h))
  | bool b => exact fun p here _ => .pure here (carries_constant rfl fun _ _ h => (nomatch h))
  | load place => exact fun p here typed => load_matches here typed place
  | arith op hl hr ltype rtype ihl ihr =>
    intro p here typed
    refine binary_matches here typed hl hr ihl ihr ?_
    intro p o o' a b here _ ha hb ho ho'
    rw [ltype] at ha
    rw [rtype] at hb
    cases ha
    cases hb
    exact arith_matches here op ho ho'
  | compare op hl hr ltype same ihl ihr =>
    intro p here typed
    refine binary_matches here typed hl hr ihl ihr ?_
    intro p o o' a b here _ ha hb ho ho'
    exact compare_matches here op ltype ha (same ▸ hb) ho ho'
  | sameText negated hl hr ltype rtype ihl ihr =>
    intro p here typed
    refine binary_matches here typed hl hr ihl ihr ?_
    intro p o o' a b here _ ha hb ho ho'
    rw [ltype] at ha
    rw [rtype] at hb
    cases ha
    cases hb
    exact sameText_matches here negated ho ho'
  | nonzero he type ih =>
    intro p here typed
    refine (ih p here typed).bind (Resolved.expr_sound he _ typed) ?_
    intro o v p' here' _ _ hv ho
    rw [type] at hv
    cases hv
    exact nonzero_matches here' ho
  | @array slot elem es hes types place ihes =>
    intro p here typed
    have hsound := fun e he => Resolved.expr_sound (hes e he)
    refine (exprs_match here typed hsound ihes).bind (Resolved.exprs_yields typed hsound) ?_
    intro os vs p' here' typed' _ hvs hos
    obtain ⟨hlen, htypes⟩ := Resolved.types_of_elements types hvs
    exact slice_matches here' typed' (hlen ▸ place) hos htypes
  | element ha hi atype itype iha ihi =>
    intro p here typed
    refine binary_matches here typed ha hi iha ihi ?_
    intro p o o' a b here typed ha hb ho ho'
    rw [atype] at ha
    rw [itype] at hb
    refine (elementAddress_matches here typed ha hb ho ho').bind (locate_yields typed ha hb) ?_
    intro address found p' here' typed' _ hfound haddress
    exact readElement_matches here' typed' hfound haddress
  | length ha atype ih =>
    intro p here typed
    refine (ih p here typed).bind (Resolved.expr_sound ha _ typed) ?_
    intro o v p' here' typed' _ hv ho
    exact length_matches here' typed' (atype ▸ hv) ho
  | @call f es hes types result ihes =>
    intro p here typed
    have hsound := fun e he => Resolved.expr_sound (hes e he)
    refine (arguments_match here typed hsound ihes).bind (Resolved.exprs_yields typed hsound) ?_
    intro os vs p' here' typed' _ hvs hos
    rw [types] at hvs
    refine (call_matches here' typed' hos hvs).after ?_
    intro o r p'' hgives ho
    have hgiven := (typed_of_gives (call_yields typed' hvs) hgives).2
    cases r with
    | none => exact absurd hgiven result
    | some v => exact ⟨v, rfl, ho v result rfl⟩

end TinyScript.Core.Lower
