import TinyScript.Proofs.Ir.Valid
import TinyScript.Proofs.Lower.Growth
import TinyScript.Proofs.Meaning.Places

/-! Lowering typed programs makes well-formed modules. Operands of expressions stay
ready while the rest of a statement is lowered, across the blocks that checks of
indices end and open; blocks of statements ask for nothing. Which types the operands
have is known from the checked program. -/

namespace TinyScript.Core.Lower

open Ir (Module Operand Op Terminator Builder)
open Ir.Builder
open Meaning

variable {α β : Type} {m : Module} {L : List Place} {checked : Bool} {q q' : Spot}

/-! ### Lowering from a spot -/

/-- An operand that may be used at a spot, and its type. -/
structure Serves (m : Module) (q : Spot) (t : Ir.Ty) (o : Operand) : Prop where
  usable : Usable m q.ready o
  type : o.type = t

theorem Serves.single {t : Ir.Ty} {o : Operand} (h : Serves m q t o) :
    ∀ o' ∈ [o], Usable m q.ready o' := by
  intro o' ho'
  rw [List.mem_singleton.1 ho']
  exact h.usable

theorem Serves.pair {t t' : Ir.Ty} {o o' : Operand} (h : Serves m q t o) (h' : Serves m q t' o') :
    ∀ o'' ∈ [o, o'], Usable m q.ready o'' := by
  intro o'' ho''
  rcases List.mem_pair.1 ho'' with rfl | rfl
  · exact h.usable
  · exact h'.usable

/-- What was ready stays ready. -/
structure Onward (q q' : Spot) : Prop extends q.Since q' where
  pending : q'.pending = q.pending
  ready : ∀ id t, q.ready id t → q'.ready id t

theorem Onward.refl (q : Spot) : Onward q q := ⟨.refl q, rfl, fun _ _ h => h⟩

theorem Onward.trans {q₁ q₂ q₃ : Spot} (h : Onward q₁ q₂) (h' : Onward q₂ q₃) : Onward q₁ q₃ :=
  ⟨h.toSince.trans h'.toSince, h'.pending.trans h.pending, fun id t hid =>
    h'.ready id t (h.ready id t hid)⟩

theorem Serves.onward {t : Ir.Ty} {o : Operand} (h : Serves m q t o) (onward : Onward q q') :
    Serves m q' t o := ⟨h.usable.mono onward.ready, h.type⟩

/-- A part of a statement is lowered within the chain of blocks it began in. -/
def Lowers (m : Module) (q : Spot) (x : Build α) (Q : α → Spot → Prop) : Prop :=
  Stage m (x.run q.builder).2 → q.Valid m →
    ∃ q' : Spot, q'.builder = (x.run q.builder).2 ∧ q'.Valid m ∧ Onward q q' ∧
      Q (x.run q.builder).1 q'

theorem Lowers.bind {x : Build α} {f : α → Build β} {Q : α → Spot → Prop} {R : β → Spot → Prop}
    [hbuild : ∀ a, Building (f a)] (hx : Lowers m q x Q)
    (hf : ∀ a q', Onward q q' → Q a q' → Lowers m q' (f a) R) : Lowers m q (x >>= f) R := by
  intro stage valid
  obtain ⟨q', hb, valid', onward, hq⟩ := hx ((hbuild _).stage stage) valid
  rw [run_bind, ← hb] at stage ⊢
  obtain ⟨q'', hb', valid'', onward', hr⟩ := hf _ q' onward hq stage valid'
  exact ⟨q'', hb', valid'', onward.trans onward', hr⟩

theorem Lowers.pure {a : α} {Q : α → Spot → Prop} (h : Q a q) : Lowers m q (pure a) Q :=
  fun _ valid => ⟨q, rfl, valid, .refl q, h⟩

theorem Lowers.imp {x : Build α} {Q R : α → Spot → Prop} (h : Lowers m q x Q)
    (himp : ∀ a q', Onward q q' → Q a q' → R a q') : Lowers m q x R := by
  intro stage valid
  obtain ⟨q', hb, valid', onward, hq⟩ := h stage valid
  exact ⟨q', hb, valid', onward, himp _ q' onward hq⟩

/-- Names, slots and symbols change nothing about blocks. -/
theorem Lowers.silent {x : Build α} {Q : α → Spot → Prop}
    (hblock : (x.run q.builder).2.block = q.builder.block)
    (hbody : (x.run q.builder).2.body = q.builder.body)
    (hfinished : (x.run q.builder).2.finished = q.builder.finished)
    (hhints : q.builder.hints.length ≤ (x.run q.builder).2.hints.length)
    (hq : Stage m (x.run q.builder).2 →
      ∀ q' : Spot, q'.builder = (x.run q.builder).2 → Q (x.run q.builder).1 q') :
    Lowers m q x Q := by
  intro stage valid
  refine ⟨{ q with builder := (x.run q.builder).2 }, rfl,
    valid.grow hblock hbody hfinished hhints, ⟨⟨hhints, fun _ _ => rfl, ?_⟩, rfl, ?_⟩,
    hq stage _ rfl⟩
  · simp only [Spot.ids, hblock, hfinished]
    exact fun k hk => hk
  · simp only [Spot.ready, hblock, hbody]
    exact fun id t hid => hid

theorem Lowers.addSlot (hint : String) (type : Ir.Ty) :
    Lowers m q (Ir.Builder.addSlot hint type) fun _ _ => True :=
  .silent rfl rfl rfl ((addSlot_grows hint type).hints _) fun _ _ _ => trivial

theorem Lowers.declare (f : Ir.External) :
    Lowers m q (Ir.Builder.declare f) fun _ _ =>
      .function f.declaration ∈ m.symbols := by
  obtain ⟨rest, hrun, hmem⟩ := run_declare f q.builder
  refine .silent (by rw [hrun]) (by rw [hrun]) (by rw [hrun]) ((declare_grows f).hints _) ?_
  intro stage _ _
  rw [hrun] at stage
  exact stage.symbols.subset hmem

theorem Lowers.text (s : String) :
    Lowers m q (Ir.Builder.text s) fun o q' => Serves m q' (.ptr .i8) o := by
  obtain ⟨k, rest, hrun, hk⟩ := run_text s q.builder
  refine .silent (by rw [hrun]) (by rw [hrun]) (by rw [hrun]) ((text_grows s).hints _) ?_
  intro stage q' _
  rw [hrun] at stage ⊢
  exact ⟨⟨s, stage.symbol hk⟩, rfl⟩

theorem Lowers.emit {hint : String} {type : Ir.Ty} {op : Op} (hop : op.Typed m)
    (hoperands : ∀ o ∈ op.operands, Usable m q.ready o) (htype : op.result = type)
    (hvoid : type ≠ .void) :
    Lowers m q (Ir.Builder.emit hint type op) fun o q' => Serves m q' type o := by
  intro _ valid
  have hhints := (emit_grows hint type op).hints q.builder
  let q' : Spot := { q with builder := ((Ir.Builder.emit hint type op).run q.builder).2 }
  have hready : ∀ id t, q.ready id t → q'.ready id t := by
    intro id t hid
    exact hid.imp_right fun hgiven => hgiven.mono fun i hi => List.mem_cons_of_mem _ hi
  refine ⟨q', rfl, ?_, ⟨⟨hhints, fun _ _ => rfl, fun _ h => h⟩, rfl, hready⟩, ?_, rfl⟩
  · refine valid.push (i := ⟨some q.builder.hints.length, op⟩) rfl rfl rfl hhints ?_ ⟨hop, ?_⟩
      hoperands
    · intro k hk
      cases hk
      exact ⟨Nat.le_refl _, by simp [run_emit]⟩
    · rw [htype]
      exact ⟨fun h => (nomatch h), fun h => absurd h hvoid⟩
  · exact .inr ⟨op, List.mem_cons_self, htype⟩

theorem Lowers.emitVoid {op : Op} (hop : op.Typed m)
    (hoperands : ∀ o ∈ op.operands, Usable m q.ready o) (htype : op.result = .void) :
    Lowers m q (Ir.Builder.emitVoid op) fun _ _ => True := by
  intro _ valid
  let q' : Spot := { q with builder := ((Ir.Builder.emitVoid op).run q.builder).2 }
  have hready : ∀ id t, q.ready id t → q'.ready id t := by
    intro id t hid
    exact hid.imp_right fun hgiven => hgiven.mono fun i hi => List.mem_cons_of_mem _ hi
  refine ⟨q', rfl, ?_, ⟨⟨Nat.le_refl _, fun _ _ => rfl, fun _ h => h⟩, rfl, hready⟩, trivial⟩
  refine valid.push (i := ⟨none, op⟩) rfl rfl rfl (Nat.le_refl _) (fun k hk => (nomatch hk))
    ⟨hop, ?_⟩ hoperands
  exact ⟨fun _ => htype, fun _ => rfl⟩

/-! ### Elements and literals -/

/-- A branch to two new blocks, both promised what is ready before it. The second one is
opened next. -/
def fork (q : Spot) (cond : Operand) (hint hint' : String) : Spot :=
  let q' := q.create q.ready hint
  (q'.create q.ready hint').endBlock
    (.branch cond q.builder.hints.length q'.builder.hints.length)
    q'.builder.hints.length (q.builder.hints.length :: q.pending)

/-- What is known after a branch to two new blocks. -/
structure Forked (m : Module) (q q' : Spot) : Prop where
  valid : q'.Valid m
  since : q.Since q'
  below : q.builder.hints.length < q'.builder.hints.length
  promise : q'.promise q.builder.hints.length = q.ready
  ready : ∀ id t, q.ready id t → q'.ready id t

theorem fork_forked {cond : Operand} (valid : q.Valid m) (hcond : Serves m q .i1 cond)
    (hint hint' : String) : Forked m q (fork q cond hint hint') := by
  let first := q.builder.hints.length
  let q₁ := q.create q.ready hint
  let second := q₁.builder.hints.length
  let q₂ := q₁.create q.ready hint'
  have hlt : first < second := by
    show first < q₁.builder.hints.length
    rw [q.create_length]
    exact Nat.lt_succ_self _
  have hpos : 0 < first := valid.below 0 valid.entry.1
  have valid₁ : q₁.Valid m := valid.create (fun id t h => valid.given_of_ready h) _
  have valid₂ : q₂.Valid m := valid₁.create (fun id t h => valid.given_of_ready h) _
  have hfirst : q₂.promise first = q.ready := by
    rw [q₁.create_promise q.ready _ hlt]
    exact q.create_new _ _
  have hsecond : q₂.promise second = q.ready := q₁.create_new _ _
  have hready : q₂.ready = q.ready := by
    rw [valid₁.create_ready, valid.create_ready]
  have hmem : ∀ k ∈ [second, first], k ∈ q₂.ids := by
    intro k hk
    refine List.mem_cons_of_mem _ (List.mem_append_right _ ?_)
    exact List.mem_append_left q.pending hk
  refine ⟨valid₂.endBlock rfl hcond.type ?_ ?_ ?_ rfl,
    ((q.since_create _ _).trans (q₁.since_create _ _)).trans (q₂.since_endBlock _ rfl),
    valid₂.below first (hmem first (by simp)), hfirst, ?_⟩
  · rw [hready]
    exact hcond.single
  · intro t ht
    rcases List.mem_pair.1 ht with rfl | rfl
    · exact ⟨hmem first (by simp), Nat.ne_of_gt hpos⟩
    · exact ⟨hmem second (by simp), Nat.ne_of_gt (Nat.lt_trans hpos hlt)⟩
  · intro t ht id type hid
    rw [hready]
    rcases List.mem_pair.1 ht with rfl | rfl
    · rwa [hfirst] at hid
    · rwa [hsecond] at hid
  · intro id t hid
    refine .inl ?_
    show q₂.promise second id t
    rw [hsecond]
    exact hid

/-- Where an index is checked, both ways on know what was known before. -/
theorem checkBounds_lowers {elem : Ir.Ty} {slice index : Operand}
    (hslice : Serves m q (.slice elem) slice) (hindex : Serves m q .i32 index) :
    Lowers m q (checkBounds slice index) fun _ _ => True := by
  have hlength : (Op.extract slice .length).Typed m := by
    show slice.type.element?.isSome
    rw [hslice.type]
    rfl
  unfold checkBounds
  refine .bind (.emit hlength hslice.single rfl (by simp)) ?_
  intro len q₁ onward₁ hlen
  have hindex₁ := hindex.onward onward₁
  have hcompare : (Op.icmp .ult index len).Typed m := by
    refine ⟨?_, .inl hindex₁.type⟩
    rw [hindex₁.type, hlen.type]
  refine .bind (.emit hcompare (hindex₁.pair hlen) rfl (by simp)) ?_
  intro within q₂ onward₂ hwithin stage valid
  have hindex₂ := hindex₁.onward onward₂
  have hlen₂ := hlen.onward onward₂
  let ok := q₂.builder.hints.length
  let q₅ := fork q₂ within "bounds.ok" "bounds.fail"
  have forked : Forked m q₂ q₅ := fork_forked valid hwithin _ _
  let report : Build Unit := do
    Ir.Builder.declare .boundsFail
    Ir.Builder.emitVoid (.call .boundsFail [index, len])
  have hreport : Lowers m q₅ report fun _ _ => True := by
    refine .bind (.declare .boundsFail) ?_
    intro _ q' onward hdeclared
    have hmono := fun id t hid => onward.ready id t (forked.ready id t hid)
    refine .emitVoid ⟨hdeclared, ?_⟩ (fun o ho => ((hindex₂.pair hlen₂) o ho).mono hmono) rfl
    show [index.type, len.type] = _
    rw [hindex₂.type, hlen₂.type]
    rfl
  have stage₆ : Stage m (report.run q₅.builder).2 := (endBlock_grows .unreachable ok).stage stage
  obtain ⟨q₆, hb₆, valid₆, onward₆, _⟩ := hreport stage₆ forked.valid
  have hpending₆ : q₆.pending = ok :: q₂.pending := onward₆.pending
  have hok₆ : q₆.promise ok = q₂.ready := (onward₆.promise ok forked.below).trans forked.promise
  refine ⟨q₆.endBlock .unreachable ok q₂.pending, ?_, ?_, ⟨?_, rfl, ?_⟩, trivial⟩
  · show ((endBlock .unreachable ok).run q₆.builder).2 = _
    rw [hb₆]
    rfl
  · exact valid₆.endBlock hpending₆ trivial (fun o ho => (nomatch ho)) (fun t ht => (nomatch ht))
      (fun t ht => (nomatch ht)) rfl
  · exact (forked.since.trans onward₆.toSince).trans (q₆.since_endBlock _ hpending₆)
  · intro id t hid
    refine .inl ?_
    show q₆.promise ok id t
    rw [hok₆]
    exact hid

theorem elementAddress_lowers {elem : Ir.Ty} {slice index : Operand}
    (hslice : Serves m q (.slice elem) slice) (hindex : Serves m q .i32 index) :
    Lowers m q (elementAddress checked elem slice index) fun o q' => Serves m q' (.ptr elem) o := by
  have tail : ∀ q' : Spot, Onward q q' → Lowers m q' (do
      let data ← emit "arr.ptr" (.ptr elem) (.extract slice .data)
      emit "elem.ptr" (.ptr elem) (.elementAddress elem data index))
      fun o q'' => Serves m q'' (.ptr elem) o := by
    intro q₁ onward₁
    have hslice₁ := hslice.onward onward₁
    have hresult : (Op.extract slice .data).result = .ptr elem := by
      show (slice.type.element?.map Ir.Ty.ptr).getD .void = _
      rw [hslice.type]
      rfl
    have htyped : (Op.extract slice .data).Typed m := by
      show slice.type.element?.isSome
      rw [hslice.type]
      rfl
    refine .bind (.emit htyped hslice₁.single hresult (by simp)) ?_
    intro data q₂ onward₂ hdata
    have hindex₂ := (hindex.onward onward₁).onward onward₂
    exact .emit ⟨hdata.type, hindex₂.type⟩ (hdata.pair hindex₂) rfl (by simp)
  cases checked with
  | true =>
    refine .bind (checkBounds_lowers hslice hindex) ?_
    exact fun _ q' onward _ => tail q' onward
  | false => exact tail q (.refl q)

/-- A constant may be used anywhere. -/
theorem serves_int (m : Module) (q : Spot) (n : Int32) : Serves m q .i32 (.int n) := ⟨trivial, rfl⟩

theorem fill_lowers {elem : Ir.Ty} {data : Operand} {k : Nat} {vs : List Operand}
    (hdata : Serves m q (.ptr elem) data) (hvs : ∀ v ∈ vs, Serves m q elem v) :
    Lowers m q (fill elem data k vs) fun _ _ => True := by
  induction vs generalizing q k with
  | nil => exact .pure trivial
  | cons v vs ih =>
    refine .bind (.emit ⟨hdata.type, rfl⟩ (hdata.pair (serves_int m q _)) rfl (by simp)) ?_
    intro address q₁ onward₁ haddress
    have hv := (hvs v List.mem_cons_self).onward onward₁
    refine .bind (.emitVoid ?_ (hv.pair haddress) rfl) ?_
    · show address.type = .ptr v.type
      rw [haddress.type, hv.type]
    · intro _ q₂ onward₂ _
      have onward := onward₁.trans onward₂
      exact ih (hdata.onward onward) fun w hw => (hvs w (List.mem_cons_of_mem _ hw)).onward onward

/-- A slot that stands for a place. -/
theorem serves_slot (hslots : m.main.slots.map Ir.Slot.type = slotTypes L) {k : Nat} {place : Place}
    (h : L[k]? = some place) (q : Spot) :
    Serves m q (.ptr place.type) (.slot k place.type) := by
  refine ⟨?_, rfl⟩
  have hslot : (m.main.slots.map Ir.Slot.type)[k]? = some place.type := by
    rw [hslots, List.getElem?_map, h]
    rfl
  rw [List.getElem?_map, Option.map_eq_some_iff] at hslot
  exact hslot

theorem slice_lowers (hslots : m.main.slots.map Ir.Slot.type = slotTypes L) {slot : Nat} {elem : Ty}
    {values : List Operand} (place : L[slot]? = some (.storage elem values.length))
    (hvalues : ∀ v ∈ values, Serves m q (.ofSource elem) v) :
    Lowers m q (slice slot (.ofSource elem) values)
      fun o q' => Serves m q' (.slice (.ofSource elem)) o := by
  unfold slice
  refine .bind (.addSlot _ _) ?_
  intro _ q₁ onward₁ _
  have hslot := serves_slot (m := m) hslots place q₁
  refine .bind (.emit hslot.type hslot.single rfl (by simp)) ?_
  intro data q₂ onward₂ hdata
  refine .bind (fill_lowers hdata fun v hv => ((hvalues v hv).onward onward₁).onward onward₂) ?_
  intro _ q₃ onward₃ _
  have hundef : Serves m q₃ (.slice (.ofSource elem)) (.undef (.slice (.ofSource elem))) :=
    ⟨⟨_, rfl⟩, rfl⟩
  have hdata₃ := hdata.onward onward₃
  refine .bind (.emit ⟨_, rfl, hdata₃.type⟩ (hundef.pair hdata₃) rfl (by simp)) ?_
  intro half q₄ onward₄ hhalf
  exact .emit ⟨_, hhalf.type, rfl⟩ (hhalf.pair (serves_int m q₄ _)) hhalf.type (by simp)

/-! ### Calls -/

theorem ofSource_ne_void {t : Ty} (h : t ≠ .void) : Ir.Ty.ofSource t ≠ .void := by
  cases t with
  | void => exact absurd rfl h
  | _ => exact fun h => (nomatch h)

/-- Operands of these types, in this order. -/
def ServeAll (m : Module) (q : Spot) (ts : List Ir.Ty) (os : List Operand) : Prop :=
  List.Forall₂ (Serves m q) ts os

theorem ServeAll.onward {ts : List Ir.Ty} {os : List Operand} (h : ServeAll m q ts os)
    (onward : Onward q q') : ServeAll m q' ts os := List.Forall₂.imp (fun _ _ h => h.onward onward) h

theorem ServeAll.types {ts : List Ir.Ty} {os : List Operand} (h : ServeAll m q ts os) :
    os.map Operand.type = ts := by
  induction h with
  | nil => rfl
  | cons ho _ ih => rw [List.map_cons, ho.type, ih]

theorem ServeAll.usable {ts : List Ir.Ty} {os : List Operand} (h : ServeAll m q ts os) :
    ∀ o ∈ os, Usable m q.ready o := by
  induction h with
  | nil => exact fun o ho => (nomatch ho)
  | cons ho _ ih => exact List.forall_mem_cons.2 ⟨ho.usable, ih⟩

theorem pass_lowers {t : Ty} {o : Operand} (ht : Library.Passable t)
    (ho : Serves m q (.ofSource t) o) :
    Lowers m q (pass t o) fun os q' => ServeAll m q' (Ir.Ty.passed t) os := by
  rcases ht with rfl | rfl | rfl | rfl
  case inr.inr.inr =>
    have hdata : (Op.extract o .data).result = .ptr (.ofSource .i32) := by
      show (o.type.element?.map Ir.Ty.ptr).getD .void = _
      rw [ho.type]
      rfl
    have htyped : ∀ field, (Op.extract o field).Typed m := by
      intro field
      show o.type.element?.isSome
      rw [ho.type]
      rfl
    refine .bind (.emit (htyped _) ho.single hdata (by simp)) ?_
    intro data q₁ onward₁ hdata
    refine .bind (.emit (htyped _) (ho.onward onward₁).single rfl (by simp)) ?_
    intro len q₂ onward₂ hlen
    exact .pure (.cons (hdata.onward onward₂) (.cons hlen .nil))
  all_goals exact .pure (.cons ho .nil)

theorem call_lowers {f : Library.Function} {args : List Operand}
    (hargs : ServeAll m q (f.signature.params.flatMap Ir.Ty.passed) args) :
    Lowers m q (call f args) fun o q' =>
      f.signature.result ≠ .void → Serves m q' (.ofSource f.signature.result) o := by
  unfold call
  refine .bind (.declare _) ?_
  intro _ q₁ onward₁ hdeclared
  have hargs₁ := hargs.onward onward₁
  have htyped : (Op.call (.library f) args).Typed m := ⟨hdeclared, hargs₁.types⟩
  by_cases hvoid : f.signature.result = .void
  · rw [if_pos hvoid]
    have hresult : (Op.call (.library f) args).result = .void := by
      show Ir.Ty.ofSource f.signature.result = _
      rw [hvoid]
      rfl
    refine .bind (.emitVoid htyped hargs₁.usable hresult) ?_
    exact fun _ q₂ _ _ => .pure fun h => absurd hvoid h
  · rw [if_neg hvoid]
    refine (Lowers.emit htyped hargs₁.usable rfl (ofSource_ne_void hvoid)).imp ?_
    exact fun o q₂ _ ho _ => ho

/-! ### Expressions -/

theorem call_type (f : Library.Function) (args : List Operand) (a : Ir.Assembler) :
    ((call f args : Ir.Assemble Operand).run a).1.type = .ofSource f.signature.result := by
  unfold call
  by_cases hvoid : f.signature.result = .void
  · rw [if_pos hvoid, hvoid]
    rfl
  · rw [if_neg hvoid]
    rfl

/-- The operand of an expression has what holds values of its type, whatever the
expression. -/
theorem expr_type (e : Expr) (a : Ir.Assembler) :
    ((expr checked e : Ir.Assemble Operand).run a).1.type = .ofSource e.type := by
  cases e with
  | call f es => exact call_type f _ _
  | _ => rfl

/-- An expression gives an operand that is ready. -/
def ExprLowers (m : Module) (checked : Bool) (e : Expr) : Prop :=
  ∀ q : Spot, Lowers m q (expr checked e) fun o q' => Serves m q' (.ofSource e.type) o

theorem exprs_lower {es : List Expr} (h : ∀ e ∈ es, ExprLowers m checked e) (q : Spot) :
    Lowers m q (exprs checked es)
      fun os q' => ServeAll m q' (es.map fun e => .ofSource e.type) os := by
  induction es generalizing q with
  | nil => exact .pure .nil
  | cons e es ih =>
    refine .bind (h e List.mem_cons_self q) ?_
    intro o q₁ _ ho
    refine .bind (ih (fun e he => h e (List.mem_cons_of_mem _ he)) q₁) ?_
    intro os q₂ onward₂ hos
    exact .pure (.cons (ho.onward onward₂) hos)

theorem arguments_lower {es : List Expr} (h : ∀ e ∈ es, ExprLowers m checked e)
    (hpass : ∀ e ∈ es, Library.Passable e.type) (q : Spot) :
    Lowers m q (arguments checked es)
      fun os q' => ServeAll m q' ((es.map Expr.type).flatMap Ir.Ty.passed) os := by
  induction es generalizing q with
  | nil => exact .pure .nil
  | cons e es ih =>
    refine .bind (h e List.mem_cons_self q) ?_
    intro o q₁ _ ho
    refine .bind (pass_lowers (hpass e List.mem_cons_self) ho) ?_
    intro passed q₂ _ hpassed
    refine .bind (ih (fun e he => h e (List.mem_cons_of_mem _ he))
      (fun e he => hpass e (List.mem_cons_of_mem _ he)) q₂) ?_
    intro os q₃ onward₃ hos
    exact .pure (List.rel_append (hpassed.onward onward₃) hos)

theorem binary_lowers {l r : Expr} {t : Ir.Ty} {f : Operand → Operand → Build Operand}
    [∀ a b, Building (f a b)] (hl : ExprLowers m checked l) (hr : ExprLowers m checked r)
    (hf : ∀ q a b, Serves m q (.ofSource l.type) a → Serves m q (.ofSource r.type) b →
      Lowers m q (f a b) fun o q' => Serves m q' t o) (q : Spot) :
    Lowers m q (do let a ← expr checked l; let b ← expr checked r; f a b)
      fun o q' => Serves m q' t o := by
  refine .bind (hl q) ?_
  intro a q₁ _ ha
  refine .bind (hr q₁) ?_
  intro b q₂ onward₂ hb
  exact hf q₂ a b (ha.onward onward₂) hb

theorem compare_lowers {t : Ty} {cond : Ir.IntCond} {a b : Operand} (ht : Comparable t)
    (ha : Serves m q (.ofSource t) a) (hb : Serves m q (.ofSource t) b) :
    Lowers m q (compare cond a b) fun o q' => Serves m q' .i1 o := by
  refine .emit ⟨ha.type.trans hb.type.symm, ?_⟩ (ha.pair hb) rfl (by simp)
  rcases ht with rfl | rfl
  · exact .inl ha.type
  · exact .inr ha.type

theorem passable_of_types {f : Library.Function} {es : List Expr}
    (types : es.map Expr.type = f.signature.params) : ∀ e ∈ es, Library.Passable e.type :=
  fun e he => f.params_passable e.type (types ▸ List.mem_map_of_mem he)

/-- A call, whether it gives something or not. -/
theorem callExpr_lowers {f : Library.Function} {es : List Expr}
    (hes : ∀ e ∈ es, ExprLowers m checked e) (types : es.map Expr.type = f.signature.params)
    (q : Spot) :
    Lowers m q (expr checked (.call f es)) fun o q' =>
      f.signature.result ≠ .void → Serves m q' (.ofSource f.signature.result) o := by
  unfold expr
  refine .bind (arguments_lower hes (passable_of_types types) q) ?_
  intro args q₁ _ hargs
  rw [types] at hargs
  exact call_lowers hargs

theorem expr_lowers (hslots : m.main.slots.map Ir.Slot.type = slotTypes L) (hsolid : Solid L)
    {e : Expr} (he : Core.Typed L e) : ExprLowers m checked e := by
  induction he with
  | str s => exact fun q => .text s
  | int n => exact fun q => .pure ⟨trivial, rfl⟩
  | float d => exact fun q => .pure ⟨trivial, rfl⟩
  | bool b => exact fun q => .pure ⟨trivial, rfl⟩
  | @load v place =>
    intro q
    have hslot := serves_slot (m := m) hslots place q
    exact .emit hslot.type hslot.single rfl (ofSource_ne_void (hsolid.get place).ne_void)
  | @arith op l r _ _ ltype rtype hl hr =>
    refine binary_lowers hl hr ?_
    intro q a b ha hb
    rw [ltype] at ha
    rw [rtype] at hb
    exact .emit ⟨ha.type, hb.type⟩ (ha.pair hb) ha.type (by simp)
  | compare op _ _ ltype same hl hr =>
    refine binary_lowers hl hr ?_
    intro q a b ha hb
    exact compare_lowers ltype ha (same ▸ hb)
  | sameText negated _ _ ltype rtype hl hr =>
    refine binary_lowers hl hr ?_
    intro q a b ha hb
    rw [ltype] at ha
    rw [rtype] at hb
    refine .bind (.declare _) ?_
    intro _ q₁ onward₁ hdeclared
    have hpair := (ha.onward onward₁).pair (hb.onward onward₁)
    have htakes : Ir.External.strcmp.type.Takes [a.type, b.type] := by
      rw [ha.type, hb.type]
      rfl
    refine .bind (.emit ⟨hdeclared, htakes⟩ hpair rfl (by simp)) ?_
    intro order q₂ _ horder
    exact compare_lowers (.inl rfl) horder (serves_int m q₂ 0)
  | nonzero _ type he =>
    intro q
    refine .bind (he q) ?_
    intro o q₁ _ ho
    rw [type] at ho
    exact .emit ⟨ho.type, .inl ho.type⟩ (ho.pair (serves_int m q₁ 0)) rfl (by simp)
  | @array slot elem es _ types place hes =>
    intro q
    refine .bind (exprs_lower hes q) ?_
    intro os q₁ _ hos
    have hlength : os.length = es.length := by
      rw [← hos.length_eq, List.length_map]
    refine slice_lowers hslots (hlength ▸ place) ?_
    intro v hv
    obtain ⟨k, hk, rfl⟩ := List.getElem_of_mem hv
    have hget := (List.forall₂_iff_get.1 hos).2 k (hos.length_eq ▸ hk) hk
    have htype := types _ (List.getElem_mem (hlength ▸ hk : k < es.length))
    simpa [htype] using hget
  | @element elem a i array _ atype itype ha hi =>
    have helem : elem.Solid := by
      have harray := hsolid.type array
      rwa [atype] at harray
    refine binary_lowers ha hi ?_
    intro q a i ha hi
    rw [atype] at ha
    rw [itype] at hi
    refine .bind (elementAddress_lowers ha hi) ?_
    intro address q₁ _ haddress
    exact .emit haddress.type haddress.single rfl (ofSource_ne_void helem.ne_void)
  | length _ atype ha =>
    intro q
    refine .bind (ha q) ?_
    intro o q₁ _ ho
    rw [atype] at ho
    refine .emit ?_ ho.single rfl (by simp)
    show o.type.element?.isSome
    rw [ho.type]
    rfl
  | call _ types result hes =>
    intro q
    refine (callExpr_lowers hes types q).imp ?_
    exact fun o q' _ ho => ho result

end TinyScript.Core.Lower
