import TinyScript.Proofs.Ir.Builder

/-! A builder on the way to a module. A builder is a stage of a module if what it
holds is a beginning of what the module holds: its finished blocks are blocks of
the module, its open block is the beginning of one, and its symbols, slots and
hints come first. Building only adds, so a stage after some building was a stage
before it; the slots that were added are known by their types. -/

namespace TinyScript.Ir.Builder

variable {α β : Type} {m : Module} {b b' : Builder}

structure Stage (m : Module) (b : Builder) : Prop where
  current : ∃ block ∈ m.main.blocks, block.id = b.block ∧ b.body.reverse <+: block.body
  finished : ∀ block ∈ b.finished, block ∈ m.main.blocks
  symbols : b.symbols <+: m.symbols
  slots : b.slots <+: m.main.slots
  hints : b.hints <+: m.main.hints

theorem Stage.hints_le (h : Stage m b) : b.hints.length ≤ m.main.hints.length := h.hints.length_le

theorem Stage.symbol (h : Stage m b) {k : Nat} {s : Symbol} (hs : b.symbols[k]? = some s) :
    m.symbols[k]? = some s := by
  obtain ⟨rest, hrest⟩ := h.symbols
  obtain ⟨hk, _⟩ := List.getElem?_eq_some_iff.1 hs
  rw [← hrest, List.getElem?_append_left hk, hs]

/-! ### Running the parts of a building -/

theorem run_bind (x : Build α) (f : α → Build β) (b : Builder) :
    (x >>= f).run b = (f (x.run b).1).run (x.run b).2 := rfl

theorem run_pure (a : α) (b : Builder) : (pure a : Build α).run b = (a, b) := rfl

theorem run_create (hint : String) (b : Builder) :
    (create hint).run b = (b.hints.length, { b with hints := b.hints ++ [cutHint hint] }) := rfl

theorem run_emit (hint : String) (type : Ty) (op : Op) (b : Builder) :
    (emit hint type op).run b = (.result b.hints.length type,
      { b with
        hints := b.hints ++ [cutHint hint]
        body := ⟨some b.hints.length, op⟩ :: b.body }) := rfl

theorem run_emitVoid (op : Op) (b : Builder) :
    (emitVoid op).run b = ((), { b with body := ⟨none, op⟩ :: b.body }) := rfl

theorem run_endBlock (t : Terminator) (next : Nat) (b : Builder) :
    (endBlock t next).run b = ((),
      { b with
        finished := ⟨b.block, b.body.reverse, t⟩ :: b.finished
        block := next
        body := [] }) := rfl

theorem run_addSlot (hint : String) (type : Ty) (b : Builder) :
    (addSlot hint type).run b = ((),
      { b with
        hints := b.hints ++ [cutHint hint]
        slots := b.slots ++ [⟨b.hints.length, type⟩] }) := rfl

theorem run_modifyGet (f : Builder → α × Builder) (b : Builder) :
    (modifyGet f : Build α).run b = f b := rfl

theorem run_intern_known {s : Symbol} {k : Nat} (h : b.symbols.idxOf? s = some k) :
    (intern s).run b = (k, b) := by
  rw [intern, run_modifyGet, h]

theorem run_intern_new {s : Symbol} (h : b.symbols.idxOf? s = none) :
    (intern s).run b = (b.symbols.length, { b with symbols := b.symbols ++ [s] }) := by
  rw [intern, run_modifyGet, h]

/-- A symbol stands where it is said to, and everything else stays. -/
theorem run_intern (s : Symbol) (b : Builder) :
    ∃ k rest, (intern s).run b = (k, { b with symbols := b.symbols ++ rest }) ∧
      (b.symbols ++ rest)[k]? = some s := by
  cases h : b.symbols.idxOf? s with
  | none => exact ⟨b.symbols.length, [s], run_intern_new h, by simp⟩
  | some k =>
    refine ⟨k, [], ?_, ?_⟩
    · rw [run_intern_known h, List.append_nil]
    · obtain ⟨hk, heq, _⟩ := List.findIdx?_eq_some_iff_getElem.1 h
      rw [List.append_nil, List.getElem?_eq_getElem hk]
      exact congrArg some (beq_iff_eq.1 heq)

theorem run_text (s : String) (b : Builder) :
    ∃ k rest, (text s).run b = (.text k, { b with symbols := b.symbols ++ rest }) ∧
      (b.symbols ++ rest)[k]? = some (.text s) := by
  obtain ⟨k, rest, hrun, hk⟩ := run_intern (.text s) b
  exact ⟨k, rest, by rw [text_eq, run_bind, hrun, run_pure], hk⟩

theorem run_declare (f : External) (b : Builder) :
    ∃ rest, (declare f).run b = ((), { b with symbols := b.symbols ++ rest }) ∧
      Symbol.function f.declaration ∈ b.symbols ++ rest := by
  obtain ⟨k, rest, hrun, hk⟩ := run_intern (.function f.declaration) b
  exact ⟨rest, by rw [declare_eq, run_bind, hrun, run_pure], List.mem_of_getElem? hk⟩

/-! ### Growing -/

/-- A building adds slots of these types, and else only adds. -/
structure Grows (types : List Ty) (x : Build α) : Prop where
  stage : ∀ {m : Module} {b : Builder}, Stage m (x.run b).2 → Stage m b
  hints : ∀ b : Builder, b.hints.length ≤ (x.run b).2.hints.length
  slots : ∀ b : Builder, (x.run b).2.slots.map Slot.type = b.slots.map Slot.type ++ types

theorem Grows.pure (a : α) : Grows [] (pure a : Build α) :=
  ⟨id, fun _ => Nat.le_refl _, fun _ => (List.append_nil _).symm⟩

/-- What comes second may depend on what the first part gives. -/
theorem Grows.bind {x : Build α} {f : α → Build β} {ts us : List Ty} (hx : Grows ts x)
    (hf : ∀ b : Builder, Grows us (f (x.run b).1)) : Grows (ts ++ us) (x >>= f) := by
  refine ⟨?_, ?_, ?_⟩
  · intro m b h
    exact hx.stage ((hf b).stage h)
  · intro b
    exact Nat.le_trans (hx.hints b) ((hf b).hints _)
  · intro b
    rw [run_bind, (hf b).slots, hx.slots, List.append_assoc]

theorem Grows.congr {x : Build α} {ts us : List Ty} (h : Grows ts x) (heq : ts = us) :
    Grows us x := heq ▸ h

/-- Parts that add no slots, one after the other. -/
theorem Grows.seq {x : Build α} {f : α → Build β} {ts : List Ty} (hx : Grows [] x)
    (hf : ∀ a, Grows ts (f a)) : Grows ts (x >>= f) :=
  hx.bind fun _ => hf _

theorem create_grows (hint : String) : Grows [] (create hint) := by
  refine ⟨?_, ?_, ?_⟩
  · intro m b h
    rw [run_create] at h
    exact ⟨h.current, h.finished, h.symbols, h.slots, (List.prefix_append _ _).trans h.hints⟩
  · intro b
    rw [run_create, List.length_append]
    exact Nat.le_add_right _ _
  · intro b
    rw [run_create, List.append_nil]

theorem push_prefix {i : Instr} {is : List Instr} {body : List Instr}
    (h : (i :: is).reverse <+: body) : is.reverse <+: body := by
  rw [List.reverse_cons] at h
  exact (List.prefix_append _ _).trans h

theorem emit_grows (hint : String) (type : Ty) (op : Op) : Grows [] (emit hint type op) := by
  refine ⟨?_, ?_, ?_⟩
  · intro m b h
    rw [run_emit] at h
    obtain ⟨block, hmem, hid, hbody⟩ := h.current
    exact ⟨⟨block, hmem, hid, push_prefix hbody⟩, h.finished, h.symbols, h.slots,
      (List.prefix_append _ _).trans h.hints⟩
  · intro b
    rw [run_emit, List.length_append]
    exact Nat.le_add_right _ _
  · intro b
    rw [run_emit, List.append_nil]

theorem emitVoid_grows (op : Op) : Grows [] (emitVoid op) := by
  refine ⟨?_, ?_, ?_⟩
  · intro m b h
    rw [run_emitVoid] at h
    obtain ⟨block, hmem, hid, hbody⟩ := h.current
    exact ⟨⟨block, hmem, hid, push_prefix hbody⟩, h.finished, h.symbols, h.slots, h.hints⟩
  · intro b
    exact Nat.le_refl _
  · intro b
    rw [run_emitVoid, List.append_nil]

theorem endBlock_grows (t : Terminator) (next : Nat) : Grows [] (endBlock t next) := by
  refine ⟨?_, ?_, ?_⟩
  · intro m b h
    rw [run_endBlock] at h
    refine ⟨⟨_, h.finished _ List.mem_cons_self, rfl, List.prefix_refl _⟩, ?_, h.symbols, h.slots,
      h.hints⟩
    exact fun block hmem => h.finished block (List.mem_cons_of_mem _ hmem)
  · intro b
    exact Nat.le_refl _
  · intro b
    rw [run_endBlock, List.append_nil]

theorem addSlot_grows (hint : String) (type : Ty) : Grows [type] (addSlot hint type) := by
  refine ⟨?_, ?_, ?_⟩
  · intro m b h
    rw [run_addSlot] at h
    exact ⟨h.current, h.finished, h.symbols, (List.prefix_append _ _).trans h.slots,
      (List.prefix_append _ _).trans h.hints⟩
  · intro b
    rw [run_addSlot, List.length_append]
    exact Nat.le_add_right _ _
  · intro b
    rw [run_addSlot, List.map_append]
    rfl

theorem symbols_grow {x : Build α} (h : ∀ b : Builder, ∃ a rest,
    x.run b = (a, { b with symbols := b.symbols ++ rest })) : Grows [] x := by
  refine ⟨?_, ?_, ?_⟩
  · intro m b hstage
    obtain ⟨a, rest, hrun⟩ := h b
    rw [hrun] at hstage
    exact ⟨hstage.current, hstage.finished, (List.prefix_append _ _).trans hstage.symbols,
      hstage.slots, hstage.hints⟩
  · intro b
    obtain ⟨a, rest, hrun⟩ := h b
    exact Nat.le_of_eq (by rw [hrun])
  · intro b
    obtain ⟨a, rest, hrun⟩ := h b
    rw [hrun, List.append_nil]

theorem text_grows (s : String) : Grows [] (text s) :=
  symbols_grow fun b => by
    obtain ⟨k, rest, hrun, _⟩ := run_text s b
    exact ⟨_, rest, hrun⟩

theorem declare_grows (f : External) : Grows [] (declare f) :=
  symbols_grow fun b => by
    obtain ⟨rest, hrun, _⟩ := run_declare f b
    exact ⟨_, rest, hrun⟩

/-! ### Buildings put together

Whether some building only adds is found from its parts. -/

class Building (x : Build α) : Prop where
  stage : ∀ {m : Module} {b : Builder}, Stage m (x.run b).2 → Stage m b
  hints : ∀ b : Builder, b.hints.length ≤ (x.run b).2.hints.length

theorem Grows.building {x : Build α} {ts : List Ty} (h : Grows ts x) : Building x :=
  ⟨h.stage, h.hints⟩

instance (a : α) : Building (pure a : Build α) := (Grows.pure a).building

instance {x : Build α} {f : α → Build β} [hx : Building x] [hf : ∀ a, Building (f a)] :
    Building (x >>= f) :=
  ⟨fun h => hx.stage ((hf _).stage h), fun b => Nat.le_trans (hx.hints b) ((hf _).hints _)⟩

instance {c : Prop} [Decidable c] {x y : Build α} [hx : Building x] [hy : Building y] :
    Building (if c then x else y) := by
  split
  · exact hx
  · exact hy

instance (hint : String) : Building (create hint) := (create_grows hint).building

instance (hint : String) (type : Ty) (op : Op) : Building (emit hint type op) :=
  (emit_grows hint type op).building

instance (op : Op) : Building (emitVoid op) := (emitVoid_grows op).building

instance (t : Terminator) (next : Nat) : Building (endBlock t next) :=
  (endBlock_grows t next).building

instance (hint : String) (type : Ty) : Building (addSlot hint type) :=
  (addSlot_grows hint type).building

instance (s : String) : Building (text s) := (text_grows s).building

instance (f : External) : Building (declare f) := (declare_grows f).building

end TinyScript.Ir.Builder
