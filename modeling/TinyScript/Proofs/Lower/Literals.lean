import TinyScript.Proofs.Lower.Elements

/-! Array literals. A literal writes its elements one after the other into its
storage, which may hold what the literal gave the last time; meanwhile the storage
is left out of the store, and no array that is in it is used. Only a literal writes
cells that were not written before, and it does so by addresses computed from its
slot. With more elements than integers can count, the last of them has no
address. -/

namespace TinyScript.Core.Lower

open Ir (Module Operand Op Instr Block Terminator Builder)
open Ir.Builder
open Machine (State Safe Temporary Allowed Steps step perform operand? Defines Through)
open Meaning

variable {S : Setting} {p : Point}

/-- An instruction of the open block defines its result. -/
theorem defines_of_mem {m : Module} {b : Builder} (stage : Stage m b) {id : Nat} {op : Op}
    (h : (⟨some id, op⟩ : Instr) ∈ b.body) : Defines m id op := by
  obtain ⟨block, hmem, _, hprefix⟩ := stage.current
  exact ⟨block, hmem, hprefix.subset (List.mem_reverse.2 h)⟩

/-- An address computed from a slot is not one computed from an array. -/
theorem not_through {m : Module} (layout : Layout m) {id base length : Nat} {t t' : Ir.Ty}
    {elem elem' : Ir.Ty} {index source : Operand}
    (hid : Defines m id (.elementAddress elem (.result base t') index))
    (hbase : Defines m base (.firstAddress length elem' source)) : ¬Through m (.result id t) := by
  rintro ⟨id', u, elem'', base', u', index', slice, haddress, hid', hbase'⟩
  cases haddress
  have hsame := layout.defs hid hid'
  cases hsame
  have hclash := layout.defs hbase hbase'
  cases hclash

/-! ### Filling -/

/-- The first elements of a storage are these. -/
def Filled (S : Setting) (p : Point) (slot : Nat) (es : List Meaning.Value) : Prop :=
  ∀ i : Nat, i < es.length →
    p.state.memory.read? ⟨slot, i⟩ = (es[i]?).map (encode S.places)

/-- How far a literal with this many elements comes. -/
def counted (n : Nat) : Eval Unit := if maxLength < n then stuck else pure ()

section Filling

variable {slot base size length : Nat} {elem : Ty} {elem' : Ir.Ty} {source : Operand}

theorem filled_concat {s : State} {es : List Meaning.Value} {v : Meaning.Value}
    (hes : Filled S p slot es) (hcontains : p.state.memory.contains ⟨slot, es.length⟩ = true)
    (hmemory : s.memory = p.state.memory.write ⟨slot, es.length⟩ (encode S.places v)) {b : Builder} :
    Filled S ⟨b, p.store, s⟩ slot (es ++ [v]) := by
  intro i hi
  show s.memory.read? ⟨slot, i⟩ = _
  rw [hmemory]
  rw [List.length_append, List.length_singleton] at hi
  by_cases hlast : i = es.length
  · subst hlast
    rw [Machine.Memory.read?_write_self hcontains, List.getElem?_concat_length]
    rfl
  · have hlt : i < es.length := by omega
    have hne : (⟨slot, i⟩ : Machine.Address) ≠ ⟨slot, es.length⟩ := by
      intro h
      have hoffset : (i : Int) = es.length := congrArg (·.offset) h
      omega
    rw [Machine.Memory.read?_write_of_ne hne, List.getElem?_append_left hlt]
    exact hes i hlt

/-- A write into a storage that the store leaves out. -/
theorem agrees_forgotten {m : Module} {L : List Place} {st : Store} {s : State}
    (agrees : Agrees m L st s) {offset : Int} {w : Machine.Value}
    (place : L[slot]? = some (.storage elem size)) (forgotten : st.storages slot = none)
    (hw : Machine.Whole L s.memory elem w) :
    Agrees m L st { s with memory := s.memory.write ⟨slot, offset⟩ w } := by
  refine agrees.written (.inr ⟨elem, size, place, hw⟩) ?_ ?_ agrees.seen
  · intro k t hk
    have hne : (⟨k, 0⟩ : Machine.Address) ≠ ⟨slot, offset⟩ := by
      intro h
      have hks : k = slot := congrArg (·.slot) h
      rw [hks, place] at hk
      cases hk
    rw [Machine.Memory.read?_write_of_ne hne]
    exact agrees.cells hk
  · intro k es hes i hi
    have hne : (⟨k, i⟩ : Machine.Address) ≠ ⟨slot, offset⟩ := by
      intro h
      have hks : k = slot := congrArg (·.slot) h
      rw [hks, forgotten] at hes
      cases hes
    rw [Machine.Memory.read?_write_of_ne hne]
    exact agrees.storages hes i hi

/-- An element of a literal may be written at its place, and anywhere if the literal
has more elements than can be counted. -/
theorem element_allowed {o address : Operand} {offset : Int} {w : Machine.Value}
    (place : S.places[slot]? = some (.storage elem size)) (ho : Carries S p o w)
    (haddress : Carries S p address (.address ⟨slot, offset⟩)) (hthrough : ¬Through S.code address)
    (hw : Machine.Whole S.places p.state.memory elem w)
    (inside : size ≤ maxLength → 0 ≤ offset ∧ offset < size) :
    Allowed S.code S.places p.state (.store o address) := by
  refine ⟨_, _, haddress.value, ho.value, .inr ⟨elem, size, place, hw⟩, ?_⟩
  intro elem' n hn hle
  rw [place] at hn
  cases hn
  exact ⟨(inside hle).1, (inside hle).2, fun h => absurd h hthrough⟩

/-- The element after the last that can be counted has no address, and the run is stuck
where it would be written. -/
theorem store_tooLong {o address : Operand} {offset : Int} {w : Machine.Value} (here : Here S p)
    (stage : Stage S.code ((emitVoid (.store o address)).run p.builder).2)
    (place : S.places[slot]? = some (.storage elem size)) (long : maxLength < size)
    (ho : Carries S p o w) (haddress : Carries S p address (.address ⟨slot, offset⟩))
    (hthrough : ¬Through S.code address) (hw : Machine.Whole S.places p.state.memory elem w)
    (outside : offset < 0) :
    Safe S.code S.places p.state ∧ step S.code p.state = .halt .stuck p.state := by
  have hcontains : p.state.memory.contains ⟨slot, offset⟩ = false := by
    rw [Bool.eq_false_iff]
    intro h
    obtain ⟨_, _, hle, _⟩ := Machine.Memory.contains_iff.1 h
    exact absurd hle (Int.not_le.2 outside)
  obtain ⟨⟨rest, hcode⟩, hstep⟩ := instr_halts here stage rfl rfl
    (Machine.perform_store_outside ho.value haddress.value hcontains)
  refine ⟨⟨here.agrees.sound, ?_, ?_⟩, hstep⟩
  · intro i rest' hi
    rw [hcode] at hi
    cases hi
    exact element_allowed place ho haddress hthrough hw fun hle => absurd long (Nat.not_lt.2 hle)
  · intro e s' hhalt
    rw [hstep] at hhalt
    cases hhalt
    exact .tooLong place long p.state

theorem fill_matches {os : List Operand} {vs done : List Meaning.Value} (here : Here S p)
    (place : S.places[slot]? = some (.storage elem size))
    (forgotten : p.store.storages slot = none) (hsize : done.length + vs.length ≤ size)
    (hdone : done.length ≤ maxLength) (filled : Filled S p slot done)
    (hbase : Defines S.code base (.firstAddress length elem' source))
    (hdata : Carries S p (.result base (.ptr (.ofSource elem))) (.address ⟨slot, 0⟩))
    (hos : List.Forall₂ (Denotes S p) os vs)
    (hvs : ∀ v ∈ vs, Machine.Whole S.places p.state.memory elem (encode S.places v)) :
    Matches S p (fill (.ofSource elem) (.result base (.ptr (.ofSource elem))) done.length os)
      (counted (done.length + vs.length)) fun _ _ p' => Filled S p' slot (done ++ vs) := by
  induction os generalizing p done vs with
  | nil =>
    cases hos
    rw [List.length_nil, Nat.add_zero, List.append_nil, counted, if_neg (Nat.not_lt.2 hdone)]
    exact .pure here filled
  | cons o os ih =>
    cases hos with
    | @cons _ v _ vs ho hos =>
    intro stage
    let op : Op := .elementAddress (.ofSource elem) (.result base (.ptr (.ofSource elem)))
      (.int (Int32.ofNat done.length))
    let b₁ := ((emit "arr.elem" (.ptr (.ofSource elem)) op).run p.builder).2
    let address : Operand := .result p.builder.hints.length (.ptr (.ofSource elem))
    let b₂ := ((emitVoid (.store o address)).run b₁).2
    have stage₂ : Stage S.code b₂ := (fill_grows _ _ _ os).stage stage
    have stage₁ : Stage S.code b₁ := (emitVoid_grows _).stage stage₂
    have hperform : perform S.code p.state op =
        .ok (Machine.gives (.address ⟨slot, 0 + (Int32.ofNat done.length).toInt⟩)) :=
      Machine.perform_elementAddress hdata.value rfl
    obtain ⟨s₁, hstep₁, hsafe, here₁, later₁, haddress, hmem₁⟩ :=
      emit_next here stage₁ hperform trivial
    have hsteps₁ := Steps.one (hsafe trivial) hstep₁
    have hthrough : ¬Through S.code address :=
      not_through here.layout (defines_of_mem stage₁ List.mem_cons_self) hbase
    have hwhole := hvs v List.mem_cons_self
    rw [← hmem₁] at hwhole
    rw [List.length_cons] at hsize ⊢
    rcases Nat.lt_or_eq_of_le hdone with hlt | heq
    · -- there is a cell for this element, and the rest follows
      rw [toInt_ofNat hlt, Int.zero_add] at haddress
      have hcontains : s₁.memory.contains ⟨slot, done.length⟩ = true :=
        here₁.agrees.room place done.length (by omega)
      have hallowed : Allowed S.code S.places s₁ (.store o address) :=
        element_allowed place (ho.later later₁) haddress hthrough hwhole fun _ => by omega
      obtain ⟨s₂, hsteps₂, here₂, later₂, hmem₂⟩ := store_next here₁ stage₂ (ho.later later₁)
        haddress hcontains hallowed (agrees_forgotten here₁.agrees place forgotten hwhole) (.refl _)
      have hlater := later₁.trans later₂
      have filled₁ : Filled S ⟨b₁, p.store, s₁⟩ slot done := by
        intro i hi
        show s₁.memory.read? _ = _
        rw [hmem₁]
        exact filled i hi
      have hcovers : p.state.memory.Covers s₂.memory := by
        rw [hmem₂, ← hmem₁]
        exact s₁.memory.covers_write _ _
      have filled₂ : Filled S ⟨b₂, p.store, s₂⟩ slot (done ++ [v]) :=
        filled_concat filled₁ hcontains hmem₂
      have hrest := ih here₂ forgotten (by rw [List.length_append, List.length_singleton]; omega)
        (by rw [List.length_append, List.length_singleton]; omega) filled₂ (hdata.later hlater)
        (hos.imp fun _ _ h => h.later hlater)
        (fun w hw => (hvs w (List.mem_cons_of_mem _ hw)).mono hcovers)
      rw [List.length_append, List.length_singleton, Nat.add_assoc, Nat.add_comm 1,
        List.append_assoc, List.singleton_append] at hrest
      refine ((hrest stage).steps hsteps₂).steps hsteps₁ |>.imp ?_
      rintro _ st s _ ⟨here', later', hfilled⟩
      exact ⟨here', hlater.trans later', hfilled⟩
    · -- the element after the last that can be counted
      have houtside : 0 + (Int32.ofNat done.length).toInt < 0 := by
        rw [heq, Int.zero_add]
        exact toInt_ofNat_maxLength
      obtain ⟨hsafe₁, hstep⟩ := store_tooLong here₁ stage₂ place (by omega) (ho.later later₁)
        haddress hthrough hwhole houtside
      rw [counted, if_pos (by omega)]
      exact .inr ⟨1, s₁, s₁, hsteps₁, hsafe₁, hstep, here₁.agrees.seen⟩

end Filling

/-! ### Literals -/

/-- A store without one storage. -/
def forget (st : Store) (slot : Nat) : Store :=
  { st with storages := fun k => if k = slot then none else st.storages k }

theorem here_forget (here : Here S p) (slot : Nat) :
    Here S ⟨p.builder, forget p.store slot, p.state⟩ := by
  refine ⟨here.layout, here.place, here.agrees.cell, here.agrees.room, here.agrees.cells, ?_,
    here.agrees.sound, here.agrees.results, here.agrees.seen.output, here.agrees.seen.calls,
    here.agrees.seen.world⟩
  intro k es hes
  change (if k = slot then none else p.store.storages k) = some es at hes
  by_cases hk : k = slot
  · rw [if_pos hk] at hes
    cases hes
  · rw [if_neg hk] at hes
    exact here.agrees.storages hes

/-- A storage that was filled is put back into the store. -/
theorem here_assign {b : Builder} {st : Store} {s : State} {slot : Nat} {vs : List Meaning.Value}
    (here : Here S ⟨b, forget st slot, s⟩) (filled : Filled S ⟨b, forget st slot, s⟩ slot vs) :
    Here S ⟨b, { st with storages := Meaning.assign st.storages slot vs }, s⟩ := by
  refine ⟨here.layout, here.place, here.agrees.cell, here.agrees.room, here.agrees.cells, ?_,
    here.agrees.sound, here.agrees.results, here.agrees.seen.output, here.agrees.seen.calls,
    here.agrees.seen.world⟩
  intro k es hes
  change (if k = slot then some vs else st.storages k) = some es at hes
  by_cases hk : k = slot
  · rw [if_pos hk] at hes
    cases hes
    rw [hk]
    exact filled
  · rw [if_neg hk] at hes
    refine here.agrees.storages ?_
    show (if k = slot then none else st.storages k) = some es
    rw [if_neg hk, hes]

section Literals

variable {slot : Nat} {elem : Ty} {os : List Operand} {vs : List Meaning.Value}

theorem slice_builds (here : Here S p)
    (place : S.places[slot]? = some (.storage elem vs.length))
    (forgotten : p.store.storages slot = none) (hos : List.Forall₂ (Denotes S p) os vs)
    (hvs : ∀ v ∈ vs, Machine.Whole S.places p.state.memory elem (encode S.places v)) :
    Matches S p (slice slot (.ofSource elem) os) (counted vs.length >>= fun _ => pure ())
      fun o _ p' => Carries S p' o (.slice (some ⟨slot, 0⟩) (some (Int32.ofNat vs.length))) ∧
        Filled S p' slot vs := by
  have hlength : os.length = vs.length := hos.length_eq
  unfold slice
  refine .silent (run_addSlot _ _ _) (by simp) ?_
  intro later₀ stage
  -- the address of the storage, which the elements are written by
  let b₁ := ((addSlot "arr" (.array os.length (.ofSource elem))).run p.builder).2
  let op : Op := .firstAddress os.length (.ofSource elem)
    (.slot slot (.array os.length (.ofSource elem)))
  let b₂ := ((emit "arr.data" (.ptr (.ofSource elem)) op).run b₁).2
  let data : Operand := .result b₁.hints.length (.ptr (.ofSource elem))
  let rest : Build Operand := do
    fill (.ofSource elem) data 0 os
    let half ← emit "arr.slice" (.slice (.ofSource elem))
      (.insert (.undef (.slice (.ofSource elem))) data .data)
    emit "arr.slice" (.slice (.ofSource elem))
      (.insert half (.int (Int32.ofNat os.length)) .length)
  have stage₂ : Stage S.code b₂ := Building.stage (x := rest) stage
  have here₁ : Here S ⟨b₁, p.store, p.state⟩ := ⟨here.layout, here.place, here.agrees⟩
  have hperform : perform S.code p.state op = .ok (Machine.gives (.address ⟨slot, 0⟩)) :=
    Machine.perform_firstAddress rfl
  obtain ⟨s₂, hstep₂, hsafe, here₂, later₂, hdata, hmem₂⟩ :=
    emit_next here₁ stage₂ hperform trivial
  have hlater := later₀.trans later₂
  have hbase : Defines S.code b₁.hints.length op := defines_of_mem stage₂ List.mem_cons_self
  have empty : Filled S ⟨b₂, p.store, s₂⟩ slot [] := fun i hi => absurd hi (Nat.not_lt_zero i)
  have hfill := fill_matches here₂ place forgotten (by simp) (Nat.zero_le _) empty hbase hdata
    (hos.imp fun _ _ h => h.later hlater) (fun v hv => by rw [hmem₂]; exact hvs v hv)
  rw [List.length_nil, Nat.zero_add, List.nil_append] at hfill
  have hrest : Matches S ⟨b₂, p.store, s₂⟩ rest (counted vs.length >>= fun _ => pure ())
      fun o _ p' => Carries S p' o (.slice (some ⟨slot, 0⟩) (some (Int32.ofNat vs.length))) ∧
        Filled S p' slot vs := by
    refine hfill.seq ?_
    intro _ _ p₃ _ here₃ later₃ filled
    have hhalf : Temporary S.places p₃.state.memory (.slice (some ⟨slot, 0⟩) none) :=
      .inr ⟨slot, elem, vs.length, place, rfl, rfl⟩
    refine .emit here₃ (Machine.perform_insert rfl (hdata.later later₃).value rfl) trivial hhalf ?_
    intro half b₄ s₄ here₄ later₄ hcarries hmem₄
    have hwhole : Machine.Whole S.places s₄.memory (.array elem)
        (.slice (some ⟨slot, 0⟩) (some (Int32.ofNat os.length))) := by
      rw [hlength, hmem₄]
      refine .array place ?_
      intro i hi
      rw [filled i hi, List.getElem?_eq_getElem hi]
      rfl
    refine .emit_gives here₄ rfl (Machine.perform_insert hcarries.value rfl rfl) trivial
      hwhole.temporary ?_
    intro o p' ho hmem
    refine ⟨hlength ▸ ho, ?_⟩
    intro i hi
    rw [hmem, hmem₄]
    exact filled i hi
  refine (hrest stage).steps (.one (hsafe trivial) hstep₂) |>.imp ?_
  rintro _ st s _ ⟨here', later', hq⟩
  exact ⟨here', later₂.trans later', hq⟩

/-- A literal gives its own storage, filled anew. -/
theorem slice_matches (here : Here S p) (typed : p.store.Typed S.places)
    (place : S.places[slot]? = some (.storage elem vs.length))
    (hos : List.Forall₂ (Denotes S p) os vs) (hvs : ∀ v ∈ vs, HasType S.places p.store elem v) :
    Matches S p (slice slot (.ofSource elem) os) (Meaning.fill slot vs)
      fun o v p' => Denotes S p' o v := by
  intro stage
  let p₀ : Point := ⟨p.builder, forget p.store slot, p.state⟩
  have hbuilds := slice_builds (p := p₀) (here_forget here slot) place (if_pos rfl)
    (hos.imp fun _ _ h => ⟨h.value, h.below⟩)
    (fun v hv => here.agrees.whole typed (hvs v hv)) stage
  unfold counted at hbuilds
  unfold Meaning.fill
  by_cases hlong : maxLength < vs.length
  · rw [if_pos hlong] at hbuilds ⊢
    rcases hbuilds with h | ⟨n, s₁, s', hsteps, hsafe, hstep, hseen⟩
    · exact .inl h
    · exact .inr ⟨n, s₁, s', hsteps, hsafe, hstep, hseen.output, hseen.calls, hseen.world⟩
  · rw [if_neg hlong] at hbuilds ⊢
    obtain ⟨n, s, hsteps, here', later, ho, filled⟩ := hbuilds
    refine ⟨n, s, hsteps, here_assign here' filled, ?_, ?_⟩
    · exact ⟨later.hints, later.kept, grows_assign p.store slot vs⟩
    · refine ⟨?_, ho.below⟩
      rw [encode, size_eq place]
      exact ho.value

end Literals

end TinyScript.Core.Lower
