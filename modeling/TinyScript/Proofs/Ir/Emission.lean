import TinyScript.Proofs.Ir.Stage
import TinyScript.Proofs.Ir.WellFormed

/-! What building leaves in a module. A building asks for symbols, calls functions and
uses string constants as operands, and the log of these events says what becomes of the
module: its symbols are those that were asked for, each where it was first asked for, and
its calls and string operands, block after block in the order in which the blocks were
ended, are those of the log. An operand is known by the text that the finished module has
under its index, so nothing has to be said about the modules in between. -/

namespace TinyScript.Ir

/-! ### Calls and string operands -/

/-- The function an operation calls. -/
def Op.callee? : Op → Option External
  | .call f _ => some f
  | _ => none

/-- The index of the string constant that an operand is. -/
def Operand.text? : Operand → Option Nat
  | .text k => some k
  | _ => none

/-- The functions a block calls, in its order. -/
def Block.callees (b : Block) : List External := b.body.filterMap (·.op.callee?)

/-- The indices of the string constants among the operands of a block, in its order. -/
def Block.texts (b : Block) : List Nat :=
  (b.body.flatMap (·.op.operands) ++ b.terminator.operands).filterMap Operand.text?

/-- The string constant under an index. -/
def Module.text? (m : Module) (k : Nat) : Option String := m.symbols[k]? >>= Symbol.text?

/-- The string constants among some operands have these texts. -/
def Spells (m : Module) (os : List Operand) (ts : List String) : Prop :=
  (os.filterMap Operand.text?).map m.text? = ts.map some

variable {m : Module}

theorem Spells.append {os us : List Operand} {ts vs : List String} (h : Spells m os ts)
    (h' : Spells m us vs) : Spells m (os ++ us) (ts ++ vs) := by
  rw [Spells, List.filterMap_append, List.map_append, h, h', List.map_append]

/-! ### Pools -/

section Pools

variable {α β : Type} [DecidableEq α] [DecidableEq β]

/-- Adds what is new. -/
def pooled (known : List α) (a : α) : List α := if a ∈ known then known else known ++ [a]

theorem foldl_pooled (as known : List α) :
    as.foldl pooled known = List.eraseDupsBy.loop (· == ·) as known.reverse := by
  induction as generalizing known with
  | nil => simp [List.eraseDupsBy.loop]
  | cons a as ih =>
    rw [List.foldl_cons, ih, List.eraseDupsBy.loop, pooled]
    by_cases h : a ∈ known
    · have hknown : (known.reverse.any fun b => a == b) = true := by
        simpa using h
      rw [if_pos h, hknown]
    · have hnew : (known.reverse.any fun b => a == b) = false := by
        simpa using fun b hb (heq : a = b) => h (heq ▸ hb)
      rw [if_neg h, hnew, List.reverse_append]
      rfl

/-- Adding one after the other what is new leaves out what was there before. -/
theorem foldl_pooled_nil (as : List α) : as.foldl pooled [] = as.eraseDups :=
  foldl_pooled as []

theorem filterMap_pooled {f : α → Option β}
    (hf : ∀ {a a' c}, f a = some c → f a' = some c → a = a') (known : List α) (a : α) :
    (pooled known a).filterMap f = (f a).toList.foldl pooled (known.filterMap f) := by
  have hmem {c : β} (hc : f a = some c) : c ∈ known.filterMap f ↔ a ∈ known := by
    rw [List.mem_filterMap]
    constructor
    · rintro ⟨a', hmem, ha'⟩
      exact hf hc ha' ▸ hmem
    · exact fun h => ⟨a, h, hc⟩
  unfold pooled
  cases hc : f a with
  | none => split <;> simp [hc]
  | some c =>
    simp only [Option.toList_some, List.foldl_cons, List.foldl_nil, hmem hc]
    split <;> simp [hc]

/-- Those of one sort are pooled among themselves. -/
theorem filterMap_foldl_pooled {f : α → Option β}
    (hf : ∀ {a a' c}, f a = some c → f a' = some c → a = a') (as known : List α) :
    (as.foldl pooled known).filterMap f = (as.filterMap f).foldl pooled (known.filterMap f) := by
  induction as generalizing known with
  | nil => rfl
  | cons a as ih =>
    rw [List.foldl_cons, ih, filterMap_pooled hf]
    cases hc : f a <;> simp [hc]

theorem filterMap_eraseDups {f : α → Option β}
    (hf : ∀ {a a' c}, f a = some c → f a' = some c → a = a') (as : List α) :
    as.eraseDups.filterMap f = (as.filterMap f).eraseDups := by
  rw [← foldl_pooled_nil, filterMap_foldl_pooled hf, List.filterMap_nil, foldl_pooled_nil]

theorem map_eraseDups {f : α → β} (hf : Function.Injective f) (as : List α) :
    as.eraseDups.map f = (as.map f).eraseDups := by
  have hsome : ∀ {a a' c}, (some ∘ f) a = some c → (some ∘ f) a' = some c → a = a' :=
    fun h h' => hf (Option.some.inj (h.trans h'.symm))
  have hpooled := filterMap_eraseDups hsome as
  rwa [List.filterMap_eq_map] at hpooled

theorem nodup_pooled {known : List α} (h : known.Nodup) (a : α) : (pooled known a).Nodup := by
  unfold pooled
  split
  · exact h
  · rename_i hnew
    refine List.nodup_append.2 ⟨h, List.pairwise_singleton _ a, ?_⟩
    rintro b hb _ ha rfl
    exact hnew (List.mem_singleton.1 ha ▸ hb)

theorem nodup_eraseDups (as : List α) : as.eraseDups.Nodup := by
  have h (known : List α) (hknown : known.Nodup) : (as.foldl pooled known).Nodup := by
    induction as generalizing known with
    | nil => exact hknown
    | cons a as ih => exact ih _ (nodup_pooled hknown a)
  rw [← foldl_pooled_nil]
  exact h [] List.nodup_nil

end Pools

theorem Symbol.text?_injective {s s' : Symbol} {t : String} (h : s.text? = some t)
    (h' : s'.text? = some t) : s = s' := by
  cases s <;> cases h
  cases s' <;> cases h'
  rfl

theorem Symbol.declaration?_injective {s s' : Symbol} {d : Declaration}
    (h : s.declaration? = some d) (h' : s'.declaration? = some d) : s = s' := by
  cases s <;> cases h
  cases s' <;> cases h'
  rfl

/-! ### Events -/

/-- Something that building does to a module. -/
inductive Event where
  /-- A symbol is asked for, and added if it is new. -/
  | intern (symbol : Symbol)
  | call (function : External)
  /-- A string constant is an operand. -/
  | use (text : String)
  deriving DecidableEq, Repr

namespace Event

def symbol? : Event → Option Symbol
  | intern s => some s
  | _ => none

def callee? : Event → Option External
  | call f => some f
  | _ => none

def used? : Event → Option String
  | use s => some s
  | _ => none

def declared? (e : Event) : Option Declaration := e.symbol? >>= Symbol.declaration?

/-- The function is called right after it is asked for. -/
def declared (f : External) : List Event := [.intern (.function f.declaration), .call f]

/-- What is asked for is called, once each time and in this order. -/
def Balanced (es : List Event) : Prop :=
  es.filterMap declared? = (es.filterMap callee?).map External.declaration

theorem Balanced.append {es us : List Event} (h : Balanced es) (h' : Balanced us) :
    Balanced (es ++ us) := by
  rw [Balanced, List.filterMap_append, List.filterMap_append, List.map_append, h, h']

theorem balanced_declared (f : External) : Balanced (declared f) := rfl

theorem balanced_uses (ts : List String) : Balanced (ts.map .use) := by
  have hdeclared : (ts.map Event.use).filterMap declared? = [] :=
    List.filterMap_eq_nil_iff.2 (List.forall_mem_map.2 fun _ _ => rfl)
  have hcallee : (ts.map Event.use).filterMap callee? = [] :=
    List.filterMap_eq_nil_iff.2 (List.forall_mem_map.2 fun _ _ => rfl)
  rw [Balanced, hdeclared, hcallee, List.map_nil]

end Event

/-- The events of an operation whose operands have these texts. -/
def Op.events (op : Op) (ts : List String) : List Event :=
  op.callee?.toList.map .call ++ ts.map .use

theorem Op.events_symbols (op : Op) (ts : List String) :
    (op.events ts).filterMap Event.symbol? = [] := by
  cases h : op.callee? <;> simp [Op.events, h, Event.symbol?]

theorem Op.events_callees (op : Op) (ts : List String) :
    (op.events ts).filterMap Event.callee? = op.callee?.toList := by
  cases h : op.callee? <;> simp [Op.events, h, Event.callee?]

theorem Op.events_used (op : Op) (ts : List String) :
    (op.events ts).filterMap Event.used? = ts := by
  have hts : (ts.map Event.use).filterMap Event.used? = ts := by
    rw [List.filterMap_map]
    exact List.filterMap_some
  rw [Op.events]
  cases op.callee? <;> exact hts

namespace Builder

variable {α β : Type} {b b' b'' : Builder} {es us : List Event}

/-- The functions called so far. -/
def callees (b : Builder) : List External := (b.written .unreachable).flatMap Block.callees

/-- The string operands so far. -/
def texts (b : Builder) : List Nat := (b.written .unreachable).flatMap Block.texts

theorem callees_eq (b : Builder) : b.callees =
    b.finished.reverse.flatMap Block.callees ++ b.body.reverse.filterMap (·.op.callee?) := by
  simp [callees, written, Block.callees]

theorem texts_eq (b : Builder) : b.texts = b.finished.reverse.flatMap Block.texts ++
    (b.body.reverse.flatMap (·.op.operands)).filterMap Operand.text? := by
  simp [texts, written, Block.texts, Terminator.operands]

theorem written_callees (b : Builder) (terminator : Terminator) :
    (b.written terminator).flatMap Block.callees = b.callees := by
  rw [callees_eq]
  simp [written, Block.callees]

theorem written_texts (b : Builder) {terminator : Terminator}
    (h : terminator.operands.filterMap Operand.text? = []) :
    (b.written terminator).flatMap Block.texts = b.texts := by
  rw [texts_eq]
  simp [written, Block.texts, h]

/-- What some building did to a builder on the way to `m`, by the log of it. -/
structure Emitted (m : Module) (b b' : Builder) (es : List Event) : Prop where
  symbols : b'.symbols = (es.filterMap Event.symbol?).foldl pooled b.symbols
  callees : b'.callees = b.callees ++ es.filterMap Event.callee?
  texts : b'.texts.map m.text? = b.texts.map m.text? ++ (es.filterMap Event.used?).map some

theorem Emitted.refl (b : Builder) : Emitted m b b [] :=
  ⟨rfl, (List.append_nil _).symm, (List.append_nil _).symm⟩

theorem Emitted.trans (h : Emitted m b b' es) (h' : Emitted m b' b'' us) :
    Emitted m b b'' (es ++ us) := by
  refine ⟨?_, ?_, ?_⟩
  · rw [h'.symbols, h.symbols, List.filterMap_append, List.foldl_append]
  · rw [h'.callees, h.callees, List.filterMap_append, List.append_assoc]
  · rw [h'.texts, h.texts, List.filterMap_append, List.map_append, List.append_assoc]

/-- A new instruction at the end of the open block. -/
theorem Emitted.push {i : Instr} {hints : List String} {ts : List String}
    (h : Spells m i.op.operands ts) :
    Emitted m b { b with hints, body := i :: b.body } (i.op.events ts) := by
  refine ⟨?_, ?_, ?_⟩
  · rw [Op.events_symbols]
    rfl
  · rw [Op.events_callees, callees_eq, callees_eq]
    cases hcall : i.op.callee? <;> simp [hcall]
  · rw [Op.events_used, texts_eq, texts_eq, ← h]
    simp

/-- A building with this log, and something about what it gives. The module is the one
that all building leads to. -/
def Emits (m : Module) (es : List Event) (Q : α → Prop) (x : Build α) : Prop :=
  ∀ b : Builder, Stage m (x.run b).2 → Emitted m b (x.run b).2 es ∧ Q (x.run b).1

section Emits

variable {Q : α → Prop} {R : β → Prop}

theorem Emits.pure {a : α} (h : Q a) : Emits m [] Q (pure a : Build α) :=
  fun b _ => ⟨.refl b, h⟩

theorem Emits.bind {x : Build α} {f : α → Build β} [hf : ∀ a, Building (f a)]
    (hx : Emits m es Q x) (hrest : ∀ a, Q a → Emits m us R (f a)) :
    Emits m (es ++ us) R (x >>= f) := by
  intro b stage
  rw [run_bind] at stage ⊢
  obtain ⟨hemitted, ha⟩ := hx b ((hf _).stage stage)
  obtain ⟨hemitted', hb⟩ := hrest _ ha _ stage
  exact ⟨hemitted.trans hemitted', hb⟩

/-- A first part that leaves nothing to be logged. -/
theorem Emits.seq {x : Build α} {f : α → Build β} [∀ a, Building (f a)]
    (hx : Emits m [] Q x) (hrest : ∀ a, Q a → Emits m us R (f a)) : Emits m us R (x >>= f) :=
  hx.bind hrest

theorem Emits.congr {x : Build α} (h : Emits m es Q x) (heq : es = us) : Emits m us Q x :=
  heq ▸ h

end Emits

/-- Nothing to be said of a result. -/
abbrev Any (_ : α) : Prop := True

/-- An operand that is no string constant. -/
abbrev Silent (m : Module) (o : Operand) : Prop := Spells m [o] []

theorem silent_of_text? {o : Operand} (h : o.text? = none) : Silent m o := by
  simp [Spells, h]

theorem create_emits (hint : String) : Emits m [] Any (create hint) :=
  fun _ _ => ⟨⟨rfl, (List.append_nil _).symm, (List.append_nil _).symm⟩, trivial⟩

theorem emit_emits {hint : String} {type : Ty} {op : Op} {ts : List String}
    (h : Spells m op.operands ts) : Emits m (op.events ts) (Silent m) (emit hint type op) :=
  fun b _ => ⟨.push (i := ⟨some b.hints.length, op⟩) h, rfl⟩

theorem emitVoid_emits {op : Op} {ts : List String} (h : Spells m op.operands ts) :
    Emits m (op.events ts) Any (emitVoid op) :=
  fun _ _ => ⟨.push (i := ⟨none, op⟩) h, trivial⟩

/-- An operation that calls nothing and has no string constant among its operands. -/
theorem emit_silent {hint : String} {type : Ty} {op : Op} (h : Spells m op.operands [])
    (hcall : op.callee? = none) : Emits m [] (Silent m) (emit hint type op) :=
  (emit_emits h).congr (by rw [Op.events, hcall]; rfl)

theorem emit_call {hint : String} {type : Ty} {f : External} {args : List Operand}
    {ts : List String} (h : Spells m args ts) :
    Emits m (.call f :: ts.map .use) (Silent m) (emit hint type (.call f args)) := by
  have hoperands : Spells m (Op.call f args).operands ts := h
  exact emit_emits hoperands

theorem emitVoid_call {f : External} {args : List Operand} {ts : List String}
    (h : Spells m args ts) :
    Emits m (.call f :: ts.map .use) Any (emitVoid (.call f args)) := by
  have hoperands : Spells m (Op.call f args).operands ts := h
  exact emitVoid_emits hoperands

/-- What is stored is used, if it is a string constant. -/
theorem emitVoid_store {v address : Operand} {ts : List String} (h : Spells m [v] ts)
    (haddress : Silent m address) : Emits m (ts.map .use) Any (emitVoid (.store v address)) := by
  have hoperands : Spells m (Op.store v address).operands (ts ++ []) := h.append haddress
  exact (emitVoid_emits hoperands).congr (by rw [List.append_nil]; rfl)

theorem endBlock_emits {t : Terminator} (next : Nat) (h : Spells m t.operands []) :
    Emits m [] Any (endBlock t next) := by
  intro b _
  have hnone : t.operands.filterMap Operand.text? = [] := by simpa [Spells] using h
  refine ⟨⟨rfl, ?_, ?_⟩, trivial⟩
  · rw [run_endBlock, callees_eq, callees_eq]
    simp [Block.callees]
  · rw [run_endBlock, texts_eq, texts_eq]
    simp [Block.texts, hnone]

theorem jump_emits (target next : Nat) : Emits m [] Any (endBlock (.jump target) next) :=
  endBlock_emits next rfl

theorem addSlot_emits (hint : String) (type : Ty) : Emits m [] Any (addSlot hint type) :=
  fun _ _ => ⟨⟨rfl, (List.append_nil _).symm, (List.append_nil _).symm⟩, trivial⟩

theorem run_intern_pooled (s : Symbol) (b : Builder) :
    ((intern s).run b).2 = { b with symbols := pooled b.symbols s } := by
  unfold pooled
  cases h : b.symbols.idxOf? s with
  | none =>
    rw [run_intern_new h, if_neg (List.idxOf?_eq_none_iff.1 h)]
  | some k =>
    rw [run_intern_known h, if_pos]
    obtain ⟨hk, heq, _⟩ := List.findIdx?_eq_some_iff_getElem.1 h
    exact beq_iff_eq.1 heq ▸ List.getElem_mem hk

theorem intern_emits (s : Symbol) :
    Emits m [.intern s] (fun k => m.symbols[k]? = some s) (intern s) := by
  intro b stage
  refine ⟨?_, ?_⟩
  · rw [run_intern_pooled]
    exact ⟨rfl, (List.append_nil _).symm, (List.append_nil _).symm⟩
  -- Symbols are only added at the end, so the index means the same in the finished module.
  · obtain ⟨k, rest, hrun, hk⟩ := run_intern s b
    rw [hrun] at stage ⊢
    exact stage.symbol hk

theorem text_emits (s : String) :
    Emits m [.intern (.text s)] (fun o => Spells m [o] [s]) (text s) := by
  refine ((intern_emits (.text s)).bind fun k hk => ?_).congr (List.append_nil _)
  refine .pure ?_
  simp [Spells, Operand.text?, Module.text?, hk, Symbol.text?]

theorem declare_emits (f : External) :
    Emits m [.intern (.function f.declaration)] Any (declare f) :=
  ((intern_emits (.function f.declaration)).bind fun _ _ => .pure trivial).congr
    (List.append_nil _)

end Builder

end TinyScript.Ir
