import Mathlib.Data.List.Nodup
import TinyScript.Proofs.Lower.Growth
import TinyScript.Proofs.Machine.Perform
import TinyScript.Proofs.Machine.Safety
import TinyScript.Proofs.Meaning.Typing

/-! A run of a module beside an evaluation. A point is a builder, a store and a
state that belong together: the state stands where the builder left off, and its
memory holds what the store holds. Lowering `x` matches a computation `y` at a
point if, once the module is complete, the run from that point does what `y` does
and comes to the point after `x`; every state it passes is safe. Results numbered
before the point are kept, so operands once computed stay good. Where indices are
not checked, nothing is claimed after one that is out of range. -/

namespace TinyScript.Core.Lower

open Ir (Module Operand Op Instr Block Terminator Builder)
open Ir.Builder
open Machine (State Step Ending Safe Sound Temporary Allowed Steps step perform operand?)
open Meaning (Place Store Eval Result HasType Yields bind_apply pure_apply)

variable {α β γ δ : Type}

/-! ### Values -/

/-- How many elements the storage at a place has. -/
def size (L : List Place) (k : Nat) : Nat :=
  match L[k]? with
  | some (.storage _ n) => n
  | _ => 0

theorem size_eq {L : List Place} {k n : Nat} {elem : Ty} (h : L[k]? = some (.storage elem n)) :
    size L k = n := by
  rw [size, h]

/-- A value as the machine has it: an array is the start of its storage and its
length. -/
def encode (L : List Place) : Meaning.Value → Machine.Value
  | .int n => .int n
  | .bool b => .bool b
  | .double d => .double d
  | .str b => .str b
  | .array k => .slice (some ⟨k, 0⟩) (some (Int32.ofNat (size L k)))

/-! ### Stores and states -/

/-- What can be seen of a run is what can be seen of an evaluation. -/
structure Seen (st : Store) (s : State) : Prop where
  output : s.output.toList = st.output
  calls : s.calls.toList = st.calls
  world : s.world = st.world

structure Agrees (m : Module) (L : List Place) (st : Store) (s : State) : Prop where
  cell : ∀ {k : Nat} {t : Ty}, L[k]? = some (.cell t) → s.memory.contains ⟨k, 0⟩ = true
  room : ∀ {k n : Nat} {elem : Ty}, L[k]? = some (.storage elem n) → ∀ i : Nat, i < n →
    s.memory.contains ⟨k, i⟩ = true
  cells : ∀ {k : Nat} {t : Ty}, L[k]? = some (.cell t) →
    s.memory.read? ⟨k, 0⟩ = (st.cells k).map (encode L)
  storages : ∀ {k : Nat} {es : List Meaning.Value}, st.storages k = some es →
    ∀ i : Nat, i < es.length → s.memory.read? ⟨k, i⟩ = (es[i]?).map (encode L)
  sound : Sound L s
  results : s.results.size = m.main.hints.length
  seen : Seen st s

/-- A typed value is whole in a memory that agrees with the store. -/
theorem Agrees.whole {m : Module} {L : List Place} {st : Store} {s : State}
    (agrees : Agrees m L st s) (typed : st.Typed L) {t : Ty} {v : Meaning.Value}
    (h : HasType L st t v) : Machine.Whole L s.memory t (encode L v) := by
  cases h with
  | int n => exact .int n
  | bool b => exact .bool b
  | double d => exact .double d
  | str b => exact .str b
  | @array k n elem place filled =>
    obtain ⟨k', es, hk, hes, helems⟩ := (HasType.array place filled).elements typed
    cases hk
    rw [encode, size_eq helems.place]
    refine .array helems.place ?_
    intro i hi
    rw [agrees.storages hes i hi, List.getElem?_eq_getElem hi]
    rfl

theorem Agrees.congr {m : Module} {L : List Place} {st : Store} {s s' : State}
    (h : Agrees m L st s) (hmemory : s'.memory = s.memory) (hresults : s'.results = s.results)
    (houtput : s'.output = s.output) (hcalls : s'.calls = s.calls) (hworld : s'.world = s.world) :
    Agrees m L st s' := by
  refine ⟨?_, ?_, ?_, ?_, h.sound.congr hmemory hresults, hresults ▸ h.results, ?_⟩
  · exact hmemory ▸ h.cell
  · exact hmemory ▸ h.room
  · exact hmemory ▸ h.cells
  · exact hmemory ▸ h.storages
  · exact ⟨houtput ▸ h.seen.output, hcalls ▸ h.seen.calls, hworld ▸ h.seen.world⟩

/-- A result changes nothing that a store knows of. -/
theorem Agrees.record {m : Module} {L : List Place} {st : Store} {s : State}
    (h : Agrees m L st s) {v : Machine.Value} (hv : Temporary L s.memory v) (id : Nat) :
    Agrees m L st (Machine.record s (some id) (some v)) := by
  refine ⟨h.cell, h.room, h.cells, h.storages, h.sound.record hv _, ?_,
    ⟨h.seen.output, h.seen.calls, h.seen.world⟩⟩
  show (s.results.setIfInBounds id (some v)).size = _
  rw [Array.size_setIfInBounds, h.results]

/-! ### Where a state stands -/

/-- The blocks of a module are told apart by their numbers, and its results by
theirs. -/
structure Layout (m : Module) : Prop where
  ids : (m.main.blocks.map Block.id).Nodup
  defs : ∀ {id : Nat} {op op' : Op}, Machine.Defines m id op → Machine.Defines m id op' → op = op'

theorem Layout.unique {m : Module} (h : Layout m) {x y : Block} (hx : x ∈ m.main.blocks)
    (hy : y ∈ m.main.blocks) (hid : x.id = y.id) : x = y :=
  List.inj_on_of_nodup_map h.ids hx hy hid

theorem Layout.block? {m : Module} (h : Layout m) {x : Block} (hx : x ∈ m.main.blocks) :
    m.main.block? x.id = some x := Ir.Function.block?_of_mem h.ids hx

/-- A state stands in the open block of a builder, after the instructions that are
there already. -/
def At (m : Module) (b : Builder) (s : State) : Prop :=
  ∃ block ∈ m.main.blocks, block.id = b.block ∧ block.body = b.body.reverse ++ s.body ∧
    block.terminator = s.terminator

/-- What was added to the open block is what the state runs next. -/
theorem At.instr {m : Module} {b b' : Builder} {s : State} {i : Instr} (layout : Layout m)
    (h : At m b s) (stage : Stage m b') (hblock : b'.block = b.block)
    (hbody : b'.body = i :: b.body) :
    ∃ rest, s.body = i :: rest ∧
      ∀ s' : State, s'.body = rest → s'.terminator = s.terminator → At m b' s' := by
  obtain ⟨block, hmem, hid, hcode, hterm⟩ := h
  obtain ⟨block', hmem', hid', rest, hrest⟩ := stage.current
  have hsame : block' = block := layout.unique hmem' hmem (by rw [hid', hblock, hid])
  subst hsame
  rw [hbody, List.reverse_cons, List.append_assoc, hcode] at hrest
  have hcons : s.body = i :: rest := (List.append_cancel_left hrest).symm
  refine ⟨rest, hcons, ?_⟩
  intro s' hs' hterm'
  refine ⟨block', hmem, hid', ?_, hterm.trans hterm'.symm⟩
  rw [hcode, hbody, List.reverse_cons, List.append_assoc, hcons, hs']
  rfl

/-- At the end of its block a state comes to the terminator. -/
theorem At.ended {m : Module} {b : Builder} {s : State} {t : Terminator} {next : Nat}
    (layout : Layout m) (h : At m b s) (stage : Stage m ((endBlock t next).run b).2) :
    s.body = [] ∧ s.terminator = t := by
  obtain ⟨block, hmem, hid, hcode, hterm⟩ := h
  have hdone := stage.finished _ List.mem_cons_self
  have hsame := layout.unique hmem hdone hid
  rw [hsame] at hcode hterm
  have hnil : b.body.reverse ++ [] = b.body.reverse ++ s.body := by rw [List.append_nil]; exact hcode
  exact ⟨(List.append_cancel_left hnil).symm, hterm.symm⟩

/-- Entering a block leads to its beginning and changes nothing else. -/
theorem enter_at {m : Module} {b : Builder} (layout : Layout m) (stage : Stage m b)
    (hbody : b.body = []) (s : State) :
    ∃ body terminator, Machine.enter m s b.block = .next { s with body, terminator } ∧
      At m b { s with body, terminator } := by
  obtain ⟨block, hmem, hid, _⟩ := stage.current
  refine ⟨block.body, block.terminator, ?_, block, hmem, hid, ?_, rfl⟩
  · unfold Machine.enter
    rw [← hid, layout.block? hmem]
  · rw [hbody]
    rfl

/-! ### Points -/

/-- A module, the places of its slots, whether it checks indices, and how many turns
loops are allowed. -/
structure Setting where
  code : Module
  places : List Place
  checked : Bool
  fuel : Nat

structure Point where
  builder : Builder
  store : Store
  state : State

variable {S : Setting} {p p' p'' : Point}

structure Here (S : Setting) (p : Point) : Prop where
  layout : Layout S.code
  place : At S.code p.builder p.state
  agrees : Agrees S.code S.places p.store p.state

/-- One point comes after another. -/
structure Later (p p' : Point) : Prop where
  hints : p.builder.hints.length ≤ p'.builder.hints.length
  kept : ∀ id, id < p.builder.hints.length → p'.state.results[id]? = p.state.results[id]?
  grows : p.store.Grows p'.store

theorem Later.refl (p : Point) : Later p p := ⟨Nat.le_refl _, fun _ _ => rfl, .refl _⟩

theorem Later.trans (h : Later p p') (h' : Later p' p'') : Later p p'' := by
  refine ⟨Nat.le_trans h.hints h'.hints, ?_, h.grows.trans h'.grows⟩
  intro id hid
  rw [h'.kept id (Nat.lt_of_lt_of_le hid h.hints), h.kept id hid]

/-- An operand whose value at a point is known, and stays the same. -/
structure Carries (S : Setting) (p : Point) (o : Operand) (v : Machine.Value) : Prop where
  value : operand? S.code p.state o = some v
  below : ∀ id t, o = .result id t → id < p.builder.hints.length

theorem Carries.later {o : Operand} {v : Machine.Value} (h : Carries S p o v)
    (later : Later p p') : Carries S p' o v := by
  refine ⟨?_, fun id t ho => Nat.lt_of_lt_of_le (h.below id t ho) later.hints⟩
  cases o with
  | result id t =>
    have hvalue := h.value
    rw [operand?] at hvalue ⊢
    rw [later.kept id (h.below id t rfl), hvalue]
  | slot k t => exact h.value
  | text k => exact h.value
  | int n => exact h.value
  | bool b => exact h.value
  | double d => exact h.value
  | undef t => cases t <;> exact h.value

/-- An operand that stands for a value of the evaluation. -/
abbrev Denotes (S : Setting) (p : Point) (o : Operand) (v : Meaning.Value) : Prop :=
  Carries S p o (encode S.places v)

theorem carries_constant {o : Operand} {v : Machine.Value}
    (value : operand? S.code p.state o = some v) (other : ∀ id t, o ≠ .result id t) :
    Carries S p o v :=
  ⟨value, fun id t ho => absurd ho (other id t)⟩

/-- Operands with known values, as arguments of a call. -/
theorem mapM_carries {os : List Operand} {vs : List Machine.Value}
    (h : List.Forall₂ (Carries S p) os vs) : os.mapM (operand? S.code p.state) = some vs := by
  induction h with
  | nil => rfl
  | cons hv _ ih => rw [List.mapM_cons, hv.value, ih]; rfl

/-! ### Following an evaluation -/

/-- An index out of range need not be noticed where indices are not checked. -/
def Excused (checked : Bool) (e : Ending) : Prop := checked = false ∧ ∃ i n, e = .outOfBounds i n

/-- The run from a state does what a result says. -/
def Follows (S : Setting) (s : State) (r : Result β) (Q : β → Store → State → Prop) : Prop :=
  match r with
  | .gives v st => ∃ n s', Steps S.code (Safe S.code S.places) n s s' ∧ Q v st s'
  | .ends e st => Excused S.checked e ∨
      ∃ n s₁ s', Steps S.code (Safe S.code S.places) n s s₁ ∧ Safe S.code S.places s₁ ∧
        step S.code s₁ = .halt e s' ∧ Seen st s'
  | .unfinished => ∃ n s', S.fuel ≤ n ∧ Steps S.code (Safe S.code S.places) n s s'

theorem Follows.steps {s s' : State} {r : Result β} {Q : β → Store → State → Prop} {n : Nat}
    (steps : Steps S.code (Safe S.code S.places) n s s') (h : Follows S s' r Q) :
    Follows S s r Q := by
  cases r with
  | gives v st =>
    obtain ⟨k, s'', hsteps, hq⟩ := h
    exact ⟨n + k, s'', steps.trans hsteps, hq⟩
  | ends e st =>
    rcases h with h | ⟨k, s₁, s'', hsteps, hsafe, hstep, hseen⟩
    · exact .inl h
    · exact .inr ⟨n + k, s₁, s'', steps.trans hsteps, hsafe, hstep, hseen⟩
  | unfinished =>
    obtain ⟨k, s'', hfuel, hsteps⟩ := h
    exact ⟨n + k, s'', Nat.le_trans hfuel (Nat.le_add_left _ _), steps.trans hsteps⟩

theorem Follows.imp {s : State} {r : Result β} {Q R : β → Store → State → Prop}
    (h : Follows S s r Q) (himp : ∀ v st s', r = .gives v st → Q v st s' → R v st s') :
    Follows S s r R := by
  cases r with
  | gives v st =>
    obtain ⟨n, s', hsteps, hq⟩ := h
    exact ⟨n, s', hsteps, himp v st s' rfl hq⟩
  | ends e st => exact h
  | unfinished => exact h

theorem Follows.bind {x : Eval β} {f : β → Eval δ} {st : Store} {s : State}
    {Q : β → Store → State → Prop} {R : δ → Store → State → Prop} (hx : Follows S s (x st) Q)
    (hf : ∀ v st' s', x st = .gives v st' → Q v st' s' → Follows S s' (f v st') R) :
    Follows S s ((x >>= f) st) R := by
  rw [bind_apply]
  cases hr : x st with
  | gives v st' =>
    rw [hr] at hx
    obtain ⟨n, s', hsteps, hq⟩ := hx
    exact (hf v st' s' hr hq).steps hsteps
  | ends e st' =>
    rw [hr] at hx
    exact hx
  | unfinished =>
    rw [hr] at hx
    exact hx

/-- What a typed computation gives is typed. -/
theorem typed_of_gives {L : List Place} {x : Eval β} {st st' : Store} {v : β}
    {T : Store → β → Prop} (h : Yields L st (x st) T) (hgives : x st = .gives v st') :
    st'.Typed L ∧ T st' v := by
  unfold Yields at h
  rw [hgives] at h
  exact ⟨h.1, h.2.2⟩

/-! ### Matching -/

/-- The run of what is lowered by `x` follows the computation `y` and comes to the
point after it. -/
def Matches (S : Setting) (p : Point) (x : Build α) (y : Eval β) (Q : α → β → Point → Prop) :
    Prop :=
  Stage S.code (x.run p.builder).2 → Follows S p.state (y p.store) fun v st s =>
    Here S ⟨(x.run p.builder).2, st, s⟩ ∧ Later p ⟨(x.run p.builder).2, st, s⟩ ∧
      Q (x.run p.builder).1 v ⟨(x.run p.builder).2, st, s⟩

/-- One part after the other. -/
theorem Matches.seq {x : Build α} {y : Eval β} {f : α → Build γ} {g : β → Eval δ}
    {Q : α → β → Point → Prop} {R : γ → δ → Point → Prop} [hbuild : ∀ a, Building (f a)]
    (hx : Matches S p x y Q)
    (hf : ∀ a v p', y p.store = .gives v p'.store → Here S p' → Later p p' → Q a v p' →
      Matches S p' (f a) (g v) R) :
    Matches S p (x >>= f) (y >>= g) R := by
  intro stage
  refine (hx ((hbuild _).stage stage)).bind ?_
  rintro v st s hgives ⟨here, later, hq⟩
  refine (hf _ v _ hgives here later hq stage).imp ?_
  rintro w st' s' _ ⟨here', later', hr⟩
  exact ⟨here', later.trans later', hr⟩

/-- One part after the other, with what typing tells of the first. -/
theorem Matches.bind {x : Build α} {y : Eval β} {f : α → Build γ} {g : β → Eval δ}
    {Q : α → β → Point → Prop} {T : Store → β → Prop} {R : γ → δ → Point → Prop}
    [hbuild : ∀ a, Building (f a)] (hx : Matches S p x y Q)
    (hy : Yields S.places p.store (y p.store) T)
    (hf : ∀ a v p', Here S p' → p'.store.Typed S.places → Later p p' → T p'.store v → Q a v p' →
      Matches S p' (f a) (g v) R) :
    Matches S p (x >>= f) (y >>= g) R := by
  refine hx.seq ?_
  intro a v p' hgives here later hq
  obtain ⟨typed, ht⟩ := typed_of_gives hy hgives
  exact hf a v p' here typed later ht hq

/-- A computation that goes on without anything to run. -/
theorem Matches.after {x : Build α} {y : Eval β} {g : β → Eval δ} {Q : α → β → Point → Prop}
    {R : α → δ → Point → Prop} (hx : Matches S p x y Q)
    (hg : ∀ a v p', y p.store = .gives v p'.store → Q a v p' →
      ∃ w, g v p'.store = .gives w p'.store ∧ R a w p') :
    Matches S p x (y >>= g) R := by
  intro stage
  refine (hx stage).bind ?_
  rintro v st s hgives ⟨here, later, hq⟩
  obtain ⟨w, hw, hr⟩ := hg _ v _ hgives hq
  rw [hw]
  exact ⟨0, s, .refl _, here, later, hr⟩

/-- Nothing to run for a value that is there. -/
theorem Matches.pure {a : α} {v : β} {Q : α → β → Point → Prop} (here : Here S p) (h : Q a v p) :
    Matches S p (pure a) (pure v) Q :=
  fun _ => ⟨0, p.state, .refl _, here, .refl p, h⟩

/-- A building that runs no instruction. -/
theorem Matches.silent {x : Build α} {f : α → Build γ} {y : Eval δ} {R : γ → δ → Point → Prop}
    {a : α} {b : Builder} (hrun : x.run p.builder = (a, b))
    (hhints : p.builder.hints.length ≤ b.hints.length)
    (hf : Later p ⟨b, p.store, p.state⟩ → Matches S ⟨b, p.store, p.state⟩ (f a) y R) :
    Matches S p (x >>= f) y R := by
  intro stage
  rw [run_bind, hrun] at stage
  have later : Later p ⟨b, p.store, p.state⟩ := ⟨hhints, fun _ _ => rfl, .refl _⟩
  have hfollows := hf later stage
  rw [run_bind, hrun]
  refine hfollows.imp ?_
  rintro w st s _ ⟨here', later', hr⟩
  exact ⟨here', later.trans later', hr⟩

/-- Declaring a function runs nothing. -/
theorem Matches.declare {f : Ir.External} {x : Build γ} {y : Eval δ} {R : γ → δ → Point → Prop}
    (here : Here S p)
    (hx : ∀ b, Here S ⟨b, p.store, p.state⟩ → Later p ⟨b, p.store, p.state⟩ →
      Matches S ⟨b, p.store, p.state⟩ x y R) :
    Matches S p (Ir.Builder.declare f >>= fun _ => x) y R := by
  obtain ⟨rest, hrun, _⟩ := run_declare f p.builder
  refine .silent hrun (Nat.le_refl _) ?_
  exact hx _ ⟨here.layout, here.place, here.agrees⟩

/-! ### Instructions -/

/-- Effects leave the code and the results alone. -/
theorem apply_kept (s : State) (effect : Machine.Effect) :
    (s.apply effect).body = s.body ∧ (s.apply effect).terminator = s.terminator ∧
      (s.apply effect).results = s.results := by
  cases effect with
  | none => exact ⟨rfl, rfl, rfl⟩
  | write a v => exact ⟨rfl, rfl, rfl⟩
  | print bytes => exact ⟨rfl, rfl, rfl⟩
  | call c place w => cases place <;> cases harr : c.array <;> simp [State.apply, harr]

theorem record_body (s : State) (id : Option Nat) (v : Option Machine.Value) :
    (Machine.record s id v).body = s.body := by
  cases id <;> cases v <;> rfl

theorem record_terminator (s : State) (id : Option Nat) (v : Option Machine.Value) :
    (Machine.record s id v).terminator = s.terminator := by
  cases id <;> cases v <;> rfl

theorem record_kept (s : State) {id : Option Nat} {v : Option Machine.Value} {n j : Nat}
    (hid : ∀ k, id = some k → n ≤ k) (hj : j < n) :
    (Machine.record s id v).results[j]? = s.results[j]? := by
  cases id with
  | none => cases v <;> rfl
  | some k =>
    cases v with
    | none => rfl
    | some v =>
      have hne : k ≠ j := by
        have := hid k rfl
        omega
      show (s.results.setIfInBounds k (some v))[j]? = _
      rw [Array.getElem?_setIfInBounds_ne hne]

/-- One instruction that was added to the open block. -/
theorem instr_next {i : Instr} {b' : Builder} {effect : Machine.Effect}
    {v : Option Machine.Value} {st' : Store} (here : Here S p) (stage : Stage S.code b')
    (hblock : b'.block = p.builder.block) (hbody : b'.body = i :: p.builder.body)
    (hhints : p.builder.hints.length ≤ b'.hints.length)
    (hid : ∀ k, i.id = some k → p.builder.hints.length ≤ k)
    (hperform : perform S.code p.state i.op = .ok (effect, v))
    (hagrees : ∀ rest, Agrees S.code S.places st'
      (Machine.record ({ p.state with body := rest }.apply effect) i.id v))
    (hgrows : p.store.Grows st') :
    ∃ s' rest, p.state.body = i :: rest ∧
      s' = Machine.record ({ p.state with body := rest }.apply effect) i.id v ∧
      step S.code p.state = .next s' ∧ Here S ⟨b', st', s'⟩ ∧ Later p ⟨b', st', s'⟩ := by
  obtain ⟨rest, hcode, hat⟩ := here.place.instr here.layout stage hblock hbody
  have hstep : step S.code p.state =
      .next (Machine.record ({ p.state with body := rest }.apply effect) i.id v) :=
    Machine.step_performs hcode hperform
  obtain ⟨hbody', hterminator, hresults⟩ := apply_kept { p.state with body := rest } effect
  refine ⟨_, rest, hcode, rfl, hstep, ⟨here.layout, ?_, hagrees rest⟩, hhints, ?_, hgrows⟩
  · refine hat _ ?_ ?_
    · rw [record_body, hbody']
    · rw [record_terminator, hterminator]
  · intro j hj
    show (Machine.record _ i.id v).results[j]? = _
    rw [record_kept _ hid hj, hresults]

/-- A state that takes an allowed step is safe. -/
theorem Here.safe {i : Instr} {rest : List Instr} {s' : State} (here : Here S p)
    (hcode : p.state.body = i :: rest) (hstep : step S.code p.state = .next s')
    (hallowed : Allowed S.code S.places p.state i.op) : Safe S.code S.places p.state := by
  refine here.agrees.sound.safe hstep ?_
  intro j rest' hj
  rw [hcode] at hj
  cases hj
  exact hallowed

/-- An instruction that ends the run. -/
theorem instr_halts {i : Instr} {b' : Builder} {e : Ending} (here : Here S p)
    (stage : Stage S.code b') (hblock : b'.block = p.builder.block)
    (hbody : b'.body = i :: p.builder.body)
    (hperform : perform S.code p.state i.op = .error e) :
    (∃ rest, p.state.body = i :: rest) ∧ step S.code p.state = Machine.halt p.state e := by
  obtain ⟨rest, hcode, _⟩ := here.place.instr here.layout stage hblock hbody
  exact ⟨⟨rest, hcode⟩, Machine.step_fails hcode hperform⟩

/-- An instruction that ends the run as the evaluation does. -/
theorem Matches.fails {x : Build α} {y : Eval β} {Q : α → β → Point → Prop} {i : Instr}
    {b' : Builder} {e : Ending} (here : Here S p)
    (hstage : Stage S.code (x.run p.builder).2 → Stage S.code b')
    (hblock : b'.block = p.builder.block) (hbody : b'.body = i :: p.builder.body)
    (hy : y p.store = .ends e p.store) (hperform : perform S.code p.state i.op = .error e)
    (hother : ∀ j n, e ≠ .outOfBounds j n) (hallowed : Allowed S.code S.places p.state i.op)
    (hpermitted : ∀ rest s', p.state.body = i :: rest →
      Machine.Permitted S.places p.state e s') : Matches S p x y Q := by
  intro stage
  obtain ⟨⟨rest, hcode⟩, hstep⟩ := instr_halts here (hstage stage) hblock hbody hperform
  have hhalt : Machine.halt p.state e = .halt e p.state := by
    cases e with
    | outOfBounds j n => exact absurd rfl (hother j n)
    | _ => rfl
  rw [hhalt] at hstep
  have hsafe : Safe S.code S.places p.state := by
    refine ⟨here.agrees.sound, ?_, ?_⟩
    · intro j rest' hj
      rw [hcode] at hj
      cases hj
      exact hallowed
    · intro e' s' hhalts
      rw [hstep] at hhalts
      cases hhalts
      exact hpermitted rest _ hcode
  rw [hy]
  exact .inr ⟨0, p.state, p.state, .refl _, hsafe, hstep, here.agrees.seen⟩

/-- The result of an instruction that was just run. -/
theorem carries_result {b' : Builder} {st' : Store} {s₁ : State} {w : Machine.Value} {t : Ir.Ty}
    {id : Nat} (hhints : id < b'.hints.length) (hsize : id < s₁.results.size) :
    Carries S ⟨b', st', Machine.record s₁ (some id) (some w)⟩ (.result id t) w := by
  refine ⟨?_, ?_⟩
  · show ((s₁.results.setIfInBounds id (some w))[id]?).join = some w
    rw [Array.getElem?_setIfInBounds_self_of_lt hsize]
    rfl
  · intro j u h
    cases h
    exact hhints

section Emit

variable {hint : String} {type : Ir.Ty} {op : Op} {w : Machine.Value}

/-- An instruction that only computes a value. -/
theorem emit_next (here : Here S p) (stage : Stage S.code ((emit hint type op).run p.builder).2)
    (hperform : perform S.code p.state op = .ok (Machine.gives w))
    (htemporary : Temporary S.places p.state.memory w) :
    ∃ s', step S.code p.state = .next s' ∧
      (Allowed S.code S.places p.state op → Safe S.code S.places p.state) ∧
      Here S ⟨((emit hint type op).run p.builder).2, p.store, s'⟩ ∧
      Later p ⟨((emit hint type op).run p.builder).2, p.store, s'⟩ ∧
      Carries S ⟨((emit hint type op).run p.builder).2, p.store, s'⟩
        ((emit hint type op).run p.builder).1 w ∧ s'.memory = p.state.memory := by
  have hlength : ((emit hint type op).run p.builder).2.hints.length =
      p.builder.hints.length + 1 := by
    rw [run_emit, List.length_append]
    rfl
  have hagrees : ∀ rest, Agrees S.code S.places p.store { p.state with body := rest } :=
    fun rest => here.agrees.congr rfl rfl rfl rfl rfl
  obtain ⟨s', rest, hcode, hs', hstep, here', later⟩ := instr_next here stage rfl rfl (by omega)
    (i := ⟨some p.builder.hints.length, op⟩) (fun k hk => by cases hk; exact Nat.le_refl _)
    hperform (fun rest => (hagrees rest).record htemporary _) (.refl p.store)
  refine ⟨s', hstep, here.safe hcode hstep, here', later, ?_, ?_⟩
  · subst hs'
    refine carries_result (by omega) ?_
    have := stage.hints_le
    show p.builder.hints.length < p.state.results.size
    rw [here.agrees.results]
    omega
  · subst hs'
    rfl

theorem Matches.emit {f : Operand → Build γ} {y : Eval δ} {R : γ → δ → Point → Prop}
    [hbuild : ∀ a, Building (f a)] (here : Here S p)
    (hperform : perform S.code p.state op = .ok (Machine.gives w))
    (hallowed : Allowed S.code S.places p.state op)
    (htemporary : Temporary S.places p.state.memory w)
    (hf : ∀ o b s, Here S ⟨b, p.store, s⟩ → Later p ⟨b, p.store, s⟩ →
      Carries S ⟨b, p.store, s⟩ o w → s.memory = p.state.memory →
      Matches S ⟨b, p.store, s⟩ (f o) y R) :
    Matches S p (Ir.Builder.emit hint type op >>= f) y R := by
  intro stage
  obtain ⟨s', hstep, hsafe, here', later, hcarries, hmem⟩ :=
    emit_next here ((hbuild _).stage stage) hperform htemporary
  refine Follows.steps (.one (hsafe hallowed) hstep) ?_
  refine (hf _ _ _ here' later hcarries hmem stage).imp ?_
  rintro v st s _ ⟨here'', later', hr⟩
  exact ⟨here'', later.trans later', hr⟩

/-- An instruction after which nothing is left to run. -/
theorem Matches.emit_gives {y : Eval β} {v : β} {Q : Operand → β → Point → Prop} (here : Here S p)
    (hy : y p.store = .gives v p.store)
    (hperform : perform S.code p.state op = .ok (Machine.gives w))
    (hallowed : Allowed S.code S.places p.state op)
    (htemporary : Temporary S.places p.state.memory w)
    (hq : ∀ o p', Carries S p' o w → p'.state.memory = p.state.memory → Q o v p') :
    Matches S p (Ir.Builder.emit hint type op) y Q := by
  intro stage
  obtain ⟨s', hstep, hsafe, here', later, hcarries, hmem⟩ :=
    emit_next here stage hperform htemporary
  rw [hy]
  exact ⟨1, s', .one (hsafe hallowed) hstep, here', later, hq _ _ hcarries hmem⟩

/-- An instruction that computes what the evaluation gives. -/
theorem Matches.emit_last {y : Eval Meaning.Value} {v : Meaning.Value} (here : Here S p)
    (hy : y p.store = .gives v p.store)
    (hperform : perform S.code p.state op = .ok (Machine.gives (encode S.places v)))
    (hallowed : Allowed S.code S.places p.state op)
    (htemporary : Temporary S.places p.state.memory (encode S.places v)) :
    Matches S p (Ir.Builder.emit hint type op) y fun o v p' => Denotes S p' o v :=
  .emit_gives here hy hperform hallowed htemporary fun _ _ h _ => h

end Emit

/-! ### Ends of blocks -/

/-- The next step leads to the beginning of a block, be it one that was begun
before, and keeps what was known at a point. -/
def Arrives (S : Setting) (p : Point) (b : Builder) (st : Store) (s : State) : Prop :=
  ∃ s', Steps S.code (Safe S.code S.places) 1 s s' ∧ Here S ⟨b, st, s'⟩ ∧ Later p ⟨b, st, s'⟩

/-- A state at the end of its block whose terminator enters another. -/
theorem arrives_of_enter {b : Builder} (here : Here S p') (later : Later p p')
    (hend : p'.state.body = []) (stage : Stage S.code b) (hbody : b.body = [])
    (hhints : p.builder.hints.length ≤ b.hints.length)
    (hstep : step S.code p'.state = Machine.enter S.code p'.state b.block) :
    Arrives S p b p'.store p'.state := by
  obtain ⟨body, terminator, henter, hat⟩ := enter_at here.layout stage hbody p'.state
  rw [henter] at hstep
  have hsafe : Safe S.code S.places p'.state := by
    refine here.agrees.sound.safe hstep ?_
    intro i rest h
    rw [hend] at h
    cases h
  exact ⟨_, .one hsafe hstep, ⟨here.layout, hat, here.agrees.congr rfl rfl rfl rfl rfl⟩, hhints,
    later.kept, later.grows⟩

theorem arrives_jump {b : Builder} {target next : Nat} (here : Here S p') (later : Later p p')
    (ended : Stage S.code ((endBlock (.jump target) next).run p'.builder).2)
    (stage : Stage S.code b) (hblock : b.block = target) (hbody : b.body = [])
    (hhints : p.builder.hints.length ≤ b.hints.length) : Arrives S p b p'.store p'.state := by
  obtain ⟨hend, hterm⟩ := here.place.ended here.layout ended
  refine arrives_of_enter here later hend stage hbody hhints ?_
  rw [hblock]
  exact Machine.step_jumps hend hterm

theorem arrives_branch {b : Builder} {c : Operand} {value : Bool} {yes no next : Nat}
    (here : Here S p') (later : Later p p')
    (ended : Stage S.code ((endBlock (.branch c yes no) next).run p'.builder).2)
    (hc : Carries S p' c (.bool value)) (stage : Stage S.code b)
    (hblock : b.block = if value then yes else no) (hbody : b.body = [])
    (hhints : p.builder.hints.length ≤ b.hints.length) : Arrives S p b p'.store p'.state := by
  obtain ⟨hend, hterm⟩ := here.place.ended here.layout ended
  refine arrives_of_enter here later hend stage hbody hhints ?_
  rw [hblock]
  exact Machine.step_branches hend hterm hc.value

/-- The step that is left to take. -/
theorem Follows.arrive {s : State} {r : Result β} {b : Builder}
    (h : Follows S s r fun _ st s => Arrives S p b st s) :
    Follows S s r fun _ st s => Here S ⟨b, st, s⟩ ∧ Later p ⟨b, st, s⟩ := by
  cases r with
  | gives v st =>
    obtain ⟨n, s', hsteps, s'', hstep, here, later⟩ := h
    exact ⟨n + 1, s'', hsteps.trans hstep, here, later⟩
  | ends e st => exact h
  | unfinished => exact h

end TinyScript.Core.Lower
