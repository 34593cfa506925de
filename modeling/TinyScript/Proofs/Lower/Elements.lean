import TinyScript.Proofs.Lower.Operations
import TinyScript.Proofs.Lower.Simulation
import TinyScript.Proofs.Machine.Perform

/-! Elements of arrays. An array is the start of a storage and its length for as
long as it is around, so the address of an element is in the storage exactly if the
check of its index was passed; reading, writing and checking do in memory what they
do in the store. -/

namespace TinyScript.Core.Lower

open Ir (Module Operand Op Instr Block Terminator Builder)
open Ir.Builder
open Machine (State Safe Temporary Allowed Steps step perform operand?)
open Meaning

variable {S : Setting} {p : Point}

/-! ### Arrays -/

/-- What an array is for the machine. -/
theorem encode_array {st : Store} {k : Nat} {elem : Ty} {es : List Meaning.Value}
    (elements : Elements S.places st k elem es) :
    encode S.places (.array k) = .slice (some ⟨k, 0⟩) (some (count es)) := by
  rw [encode, size_eq elements.place, count]

theorem contents_eq {st : Store} {k : Nat} {es : List Meaning.Value}
    (hes : st.storages k = some es) : contents (.array k) st = .gives (k, es) st := by
  show Meaning.orStuck ((st.storages k).map fun es => (k, es)) st = _
  rw [hes]
  rfl

theorem length_matches (here : Here S p) (typed : p.store.Typed S.places) {elem : Ty}
    {o : Operand} {a : Meaning.Value} (ha : HasType S.places p.store (.array elem) a)
    (ho : Denotes S p o a) {hint : String} :
    Matches S p (emit hint .i32 (.extract o .length)) (Meaning.length a)
      fun o v p' => Denotes S p' o v := by
  obtain ⟨k, es, rfl, hes, elements⟩ := ha.elements typed
  have hvalue := ho.value
  rw [encode_array elements] at hvalue
  have hextract : Machine.extract? .length (.slice (some ⟨k, 0⟩) (some (count es))) =
      some (encode S.places (.int (count es))) := rfl
  have heval : Meaning.length (.array k) p.store = .gives (.int (count es)) p.store := by
    rw [Meaning.length, bind_apply, contents_eq hes]
    rfl
  exact .emit_last here heval (Machine.perform_extract hvalue hextract) trivial trivial

/-- An element that is there is read. -/
theorem readElement_matches (here : Here S p) (typed : p.store.Typed S.places) {elem : Ty}
    {o : Operand} {k i : Nat} (hwithin : Within S.places elem p.store (k, i))
    (ho : Carries S p o (.address ⟨k, i⟩)) {hint : String} :
    Matches S p (emit hint (.ofSource elem) (.load (.ofSource elem) o)) (readElement k i)
      fun o v p' => Denotes S p' o v := by
  obtain ⟨es, hes, elements, hi⟩ := hwithin.elements typed
  have hread := here.agrees.storages hes i hi
  rw [List.getElem?_eq_getElem hi] at hread
  have hwhole := here.agrees.whole typed (elements.types _ (List.getElem_mem hi))
  refine .emit_last (v := es[i]) here ?_ (Machine.perform_load ho.value hread) ?_
    hwhole.temporary
  · show Meaning.orStuck (p.store.storages k >>= (·[i]?)) p.store = _
    rw [hes]
    show Meaning.orStuck (es[i]?) p.store = _
    rw [List.getElem?_eq_getElem hi]
    rfl
  · refine ⟨⟨k, i⟩, ho.value, .inr ⟨elem, es.length, _, elements.place, rfl, ?_, ?_, hread, hwhole⟩⟩
    · show (0 : Int) ≤ i
      omega
    · show (i : Int) < es.length
      omega

/-! ### Addresses of elements -/

theorem locate_eq {st : Store} {k : Nat} {es : List Meaning.Value} (hes : st.storages k = some es)
    (i : Int32) :
    locate (.array k) (.int i) st =
      if 0 ≤ i.toInt ∧ i.toInt < es.length then .gives (k, i.toInt.toNat) st
      else .ends (.outOfBounds i (count es))
        { st with calls := st.calls ++ [Machine.boundsCall i (count es)] } := by
  rw [locate, bind_apply, contents_eq hes]
  by_cases h : 0 ≤ i.toInt ∧ i.toInt < es.length
  · rw [if_pos h]
    show (if 0 ≤ i.toInt ∧ i.toInt < es.length then _ else _ : Eval (Nat × Nat)) st = _
    rw [if_pos h]
    rfl
  · rw [if_neg h]
    show (if 0 ≤ i.toInt ∧ i.toInt < es.length then _ else _ : Eval (Nat × Nat)) st = _
    rw [if_neg h]
    rfl

section Address

variable {o o' len : Operand} {k size : Nat} {n i : Int32} {elem : Ir.Ty} {t : Ty}

theorem extract_data (o : Operand) (ho : Carries S p o (.slice (some ⟨k, 0⟩) (some n))) :
    perform S.code p.state (.extract o .data) = .ok (Machine.gives (.address ⟨k, 0⟩)) :=
  Machine.perform_extract ho.value rfl

/-- What is lowered for the address of an element, once its index was checked. -/
def address (elem : Ir.Ty) (slice index : Operand) : Build Operand := do
  let data ← emit "arr.ptr" (.ptr elem) (.extract slice .data)
  emit "elem.ptr" (.ptr elem) (.elementAddress elem data index)

instance (elem : Ir.Ty) (slice index : Operand) : Building (address elem slice index) := by
  unfold address
  infer_instance

/-- The address of an element that is in range. -/
theorem address_matches (here : Here S p) (ho : Carries S p o (.slice (some ⟨k, 0⟩) (some n)))
    (hi : Carries S p o' (.int i)) (hnonneg : 0 ≤ i.toInt) {y : Eval (Nat × Nat)}
    (hy : y p.store = .gives (k, i.toInt.toNat) p.store) :
    Matches S p (address elem o o') y
      fun o found p' => Carries S p' o (.address ⟨found.1, found.2⟩) := by
  refine .emit here (extract_data o ho) trivial trivial ?_
  intro data b s here' later hdata _
  refine .emit_gives here' hy (Machine.perform_elementAddress hdata.value (hi.later later).value)
    trivial trivial ?_
  intro address p' haddress _
  have hoffset : (0 : Int) + i.toInt = (i.toInt.toNat : Nat) := by omega
  rwa [hoffset] at haddress

/-- What checking an index is lowered to, after the length is known. -/
def afterLength (elem : Ir.Ty) (slice index len : Operand) : Build Operand := do
  let within ← emit "in.bounds" .i1 (.icmp .ult index len)
  let ok ← create "bounds.ok"
  let fail ← create "bounds.fail"
  endBlock (.branch within ok fail) fail
  Ir.Builder.declare .boundsFail
  emitVoid (.call .boundsFail [index, len])
  endBlock .unreachable ok
  address elem slice index

instance (elem : Ir.Ty) (slice index len : Operand) :
    Building (afterLength elem slice index len) := by
  unfold afterLength
  infer_instance

theorem elementAddress_checked (elem : Ir.Ty) (slice index : Operand) :
    elementAddress true elem slice index =
      emit "arr.len" .i32 (.extract slice .length) >>= afterLength elem slice index := rfl

/-- The run ends in the block that a failed check leads to. -/
theorem boundsFail_halts {b' : Builder} (here : Here S p) (stage : Stage S.code b')
    (hblock : b'.block = p.builder.block)
    (hbody : b'.body = ⟨none, .call .boundsFail [o', len]⟩ :: p.builder.body)
    (hi : Carries S p o' (.int i)) (hlen : Carries S p len (.int (Int32.ofNat size)))
    (place : S.places[k]? = some (.storage t size)) (hout : ¬(0 ≤ i.toInt ∧ i.toInt < size)) :
    step S.code p.state = .halt (.outOfBounds i (Int32.ofNat size))
        { p.state with calls := p.state.calls.push (Machine.boundsCall i (Int32.ofNat size)) } ∧
      Safe S.code S.places p.state := by
  obtain ⟨⟨rest, hcode⟩, hstep⟩ := instr_halts here stage hblock hbody
    (Machine.perform_boundsFail hi.value hlen.value)
  refine ⟨hstep, here.agrees.sound, ?_, ?_⟩
  · intro j rest' hj
    rw [hcode] at hj
    cases hj
    exact ⟨i, k, t, size, place, mapM_carries (.cons hi (.cons hlen .nil)), hout⟩
  · intro e s' hhalts
    rw [hstep] at hhalts
    cases hhalts
    exact .outOfBounds place i hout

/-- One unsigned comparison says whether an index is in range, negative ones included. -/
theorem icmp?_ult (hsize : size ≤ maxLength) :
    Machine.icmp? .ult (.int i) (.int (Int32.ofNat size)) =
      some (decide (0 ≤ i.toInt ∧ i.toInt < size)) := by
  show some (decide (i.toUInt32 < (Int32.ofNat size).toUInt32)) = _
  rw [decide_eq_decide.2 (toUInt32_lt_iff hsize)]

/-- The comparison with the length leads on within three steps, and out of the
program exactly if the index is out of range. -/
theorem afterLength_matches (here : Here S p)
    (ho : Carries S p o (.slice (some ⟨k, 0⟩) (some n))) (hi : Carries S p o' (.int i))
    (hlen : Carries S p len (.int (Int32.ofNat size)))
    (place : S.places[k]? = some (.storage t size)) (hsize : size ≤ maxLength)
    {y : Eval (Nat × Nat)}
    (hy : y p.store = if 0 ≤ i.toInt ∧ i.toInt < size then .gives (k, i.toInt.toNat) p.store
      else .ends (.outOfBounds i (Int32.ofNat size))
        { p.store with calls := p.store.calls ++ [Machine.boundsCall i (Int32.ofNat size)] }) :
    Matches S p (afterLength elem o o' len) y
      fun o found p' => Carries S p' o (.address ⟨found.1, found.2⟩) := by
  intro stage
  -- the builders between the parts of the check
  let b₁ := ((emit "in.bounds" .i1 (.icmp .ult o' len)).run p.builder).2
  let within : Operand := .result p.builder.hints.length .i1
  let ok := b₁.hints.length
  let b₂ := ((create "bounds.ok").run b₁).2
  let fail := b₂.hints.length
  let b₃ := ((create "bounds.fail").run b₂).2
  let b₄ := ((endBlock (.branch within ok fail) fail).run b₃).2
  let b₅ := ((Ir.Builder.declare .boundsFail).run b₄).2
  let b₆ := ((emitVoid (.call .boundsFail [o', len])).run b₅).2
  let b₇ := ((endBlock .unreachable ok).run b₆).2
  have hrest : (afterLength elem o o' len).run p.builder = (address elem o o').run b₇ := rfl
  rw [hrest] at stage ⊢
  have stage₇ : Stage S.code b₇ := Building.stage (x := address elem o o') stage
  have stage₆ : Stage S.code b₆ := Building.stage (x := endBlock .unreachable ok) stage₇
  have stage₅ : Stage S.code b₅ := (emitVoid_grows _).stage stage₆
  have stage₄ : Stage S.code b₄ := (declare_grows _).stage stage₅
  have stage₁ : Stage S.code b₁ :=
    (create_grows _).stage ((create_grows _).stage ((endBlock_grows _ _).stage stage₄))
  obtain ⟨s₁, hstep₁, hsafe, here₁, later₁, hwithin, _⟩ :=
    emit_next here stage₁ (Machine.perform_icmp hi.value hlen.value (icmp?_ult hsize)) trivial
  let p₃ : Point := ⟨b₃, p.store, s₁⟩
  have here₃ : Here S p₃ := ⟨here₁.layout, here₁.place, here₁.agrees⟩
  have later₃ : Later ⟨b₁, p.store, s₁⟩ p₃ :=
    ⟨Nat.le_trans ((create_grows _).hints b₁) ((create_grows _).hints b₂), fun _ _ => rfl, .refl _⟩
  have hbranch := hwithin.later later₃
  have hlater := later₁.trans later₃
  have hhints : b₃.hints.length ≤ b₇.hints.length := (declare_grows .boundsFail).hints b₄
  rw [hy]
  by_cases hin : 0 ≤ i.toInt ∧ i.toInt < size
  · rw [if_pos hin]
    rw [decide_eq_true hin] at hbranch
    obtain ⟨s₂, hsteps₂, here₂, hlater₂⟩ :=
      arrives_branch (b := b₇) here₃ hlater stage₄ hbranch stage₇ rfl rfl
        (Nat.le_trans hlater.hints hhints)
    have stage₈ : Stage S.code ((emit "arr.ptr" (.ptr elem) (.extract o .data)).run b₇).2 :=
      (emit_grows "elem.ptr" (.ptr elem)
        (.elementAddress elem (.result b₇.hints.length (.ptr elem)) o')).stage stage
    obtain ⟨s₃, hstep₃, _⟩ := emit_next here₂ stage₈ (extract_data o (ho.later hlater₂)) trivial
    have hsafe₁ := hsafe ⟨i, k, t, size, hi.value, hlen.value, place, by
      have hrun : Machine.run S.code 3 p.state = none := by
        rw [Machine.run, hstep₁]
        show Machine.run S.code (1 + 1) s₁ = none
        rw [hsteps₂.run_add, Machine.run, hstep₃]
        rfl
      rw [hrun]
      refine ⟨?_, fun h => absurd hin h⟩
      rintro ⟨_, h⟩
      cases h⟩
    have htail : Matches S _ (address elem o o') (fun st => .gives (k, i.toInt.toNat) st) _ :=
      address_matches here₂ (ho.later hlater₂) (hi.later hlater₂) hin.1 rfl
    refine ((htail stage).steps hsteps₂).steps (.one hsafe₁ hstep₁) |>.imp ?_
    rintro found st s _ ⟨here', later', hfound⟩
    exact ⟨here', hlater₂.trans later', hfound⟩
  · rw [if_neg hin]
    rw [decide_eq_false hin] at hbranch
    obtain ⟨s₂, hsteps₂, here₂, hlater₂⟩ :=
      arrives_branch (b := b₄) here₃ hlater stage₄ hbranch stage₄ rfl rfl hlater.hints
    obtain ⟨rest, hdeclare, _⟩ := run_declare .boundsFail b₄
    have h₅ : b₅ = { b₄ with symbols := b₄.symbols ++ rest } := congrArg Prod.snd hdeclare
    obtain ⟨hhalt, hsafe₂⟩ := boundsFail_halts here₂ stage₆
      (show b₅.block = _ by rw [h₅]) (show _ :: b₅.body = _ by rw [h₅]) (hi.later hlater₂)
      (hlen.later hlater₂) place hin
    have hsafe₁ := hsafe ⟨i, k, t, size, hi.value, hlen.value, place, by
      refine ⟨fun _ => hin, fun _ => ?_⟩
      rw [Machine.run, hstep₁]
      refine ⟨_, hsteps₂.run_halt hhalt⟩⟩
    refine .inr ⟨_, s₂, _, (Steps.one hsafe₁ hstep₁).trans hsteps₂, hsafe₂, hhalt, ?_⟩
    have hseen := here₂.agrees.seen
    refine ⟨hseen.output, ?_, hseen.world⟩
    show (s₂.calls.push _).toList = p.store.calls ++ _
    rw [Array.toList_push, hseen.calls]

theorem elementAddress_matches (here : Here S p) (typed : p.store.Typed S.places) {elem : Ty}
    {a idx : Meaning.Value} (ha : HasType S.places p.store (.array elem) a)
    (hidx : HasType S.places p.store .i32 idx) (ho : Denotes S p o a) (ho' : Denotes S p o' idx) :
    Matches S p (elementAddress S.checked (.ofSource elem) o o') (locate a idx)
      fun o found p' => Carries S p' o (.address ⟨found.1, found.2⟩) := by
  obtain ⟨k, es, rfl, hes, elements⟩ := ha.elements typed
  cases hidx with
  | int i =>
    have hlocate := locate_eq hes i
    have hslice : Carries S p o (.slice (some ⟨k, 0⟩) (some (count es))) := encode_array elements ▸ ho
    cases hchecked : S.checked with
    | true =>
      rw [elementAddress_checked]
      refine .emit here (Machine.perform_extract hslice.value rfl) trivial trivial ?_
      intro len b s here' later hlen _
      exact afterLength_matches here' (hslice.later later) (ho'.later later) hlen elements.place
        elements.bound hlocate
    | false =>
      by_cases hin : 0 ≤ i.toInt ∧ i.toInt < es.length
      · rw [if_pos hin] at hlocate
        exact address_matches here hslice ho' hin.1 hlocate
      · rw [if_neg hin] at hlocate
        intro _
        rw [hlocate]
        exact .inl ⟨hchecked, _, _, rfl⟩

end Address

/-! ### Writing -/

section Writing

variable {o o' : Operand} {a : Machine.Address} {w : Machine.Value} {st' : Store}

/-- What has to be known of a store for it to agree with a memory after a write. -/
theorem Agrees.written {m : Module} {L : List Place} {st : Store} {s : State}
    (agrees : Agrees m L st s) (accepts : s.memory.Accepts L a w)
    (hcells : ∀ {k : Nat} {t : Ty}, L[k]? = some (.cell t) →
      (s.memory.write a w).read? ⟨k, 0⟩ = (st'.cells k).map (encode L))
    (hstorages : ∀ {k : Nat} {es : List Meaning.Value}, st'.storages k = some es →
      ∀ i : Nat, i < es.length → (s.memory.write a w).read? ⟨k, i⟩ = (es[i]?).map (encode L))
    (hseen : Seen st' s) : Agrees m L st' { s with memory := s.memory.write a w } := by
  refine ⟨?_, ?_, hcells, hstorages, ?_, agrees.results, ⟨hseen.output, hseen.calls, hseen.world⟩⟩
  · intro k t hk
    rw [Machine.Memory.contains_write]
    exact agrees.cell hk
  · intro k n elem hk i hi
    rw [Machine.Memory.contains_write]
    exact agrees.room hk i hi
  · exact agrees.sound.withMemory (agrees.sound.memory.write accepts) (s.memory.covers_write a w)

/-- An instruction that writes a cell. -/
theorem store_next (here : Here S p) (stage : Stage S.code ((emitVoid (.store o o')).run p.builder).2)
    (ho : Carries S p o w) (ho' : Carries S p o' (.address a))
    (hcontains : p.state.memory.contains a = true)
    (hallowed : Allowed S.code S.places p.state (.store o o'))
    (hagrees : Agrees S.code S.places st'
      { p.state with memory := p.state.memory.write a w })
    (hgrows : p.store.Grows st') :
    ∃ s', Steps S.code (Safe S.code S.places) 1 p.state s' ∧
      Here S ⟨((emitVoid (.store o o')).run p.builder).2, st', s'⟩ ∧
      Later p ⟨((emitVoid (.store o o')).run p.builder).2, st', s'⟩ ∧
      s'.memory = p.state.memory.write a w := by
  obtain ⟨s', rest, hcode, rfl, hstep, here', later⟩ := instr_next here stage rfl rfl
    (Nat.le_refl _) (i := ⟨none, .store o o'⟩) (fun _ h => (nomatch h))
    (Machine.perform_store ho.value ho'.value hcontains)
    (fun rest => hagrees.congr rfl rfl rfl rfl rfl) hgrows
  exact ⟨_, .one (here.safe hcode hstep hallowed) hstep, here', later, rfl⟩

theorem writeCell_matches (here : Here S p) (typed : p.store.Typed S.places) {v : Var}
    {value : Meaning.Value} (place : S.places[v.slot]? = some (.cell v.type))
    (hvalue : HasType S.places p.store v.type value) (ho : Denotes S p o value) :
    Matches S p (emitVoid (.store o (.slot v.slot (.ofSource v.type)))) (writeCell v.slot value)
      fun _ _ _ => True := by
  intro stage
  have haddress : Carries S p (.slot v.slot (.ofSource v.type)) (.address ⟨v.slot, 0⟩) :=
    carries_constant rfl fun _ _ h => (nomatch h)
  have haccepts : p.state.memory.Accepts S.places ⟨v.slot, 0⟩ (encode S.places value) :=
    .inl ⟨v.type, place, rfl, here.agrees.whole typed hvalue⟩
  have hallowed : Allowed S.code S.places p.state
      (.store o (.slot v.slot (.ofSource v.type))) := by
    refine ⟨_, _, haddress.value, ho.value, haccepts, ?_⟩
    intro elem n hplace
    rw [place] at hplace
    cases hplace
  have hagrees : Agrees S.code S.places
      { p.store with cells := Meaning.assign p.store.cells v.slot value }
      { p.state with memory := p.state.memory.write ⟨v.slot, 0⟩ (encode S.places value) } := by
    refine here.agrees.written haccepts ?_ ?_ ⟨here.agrees.seen.output, here.agrees.seen.calls,
      here.agrees.seen.world⟩
    · intro k t hk
      show _ = (Meaning.assign p.store.cells v.slot value k).map _
      unfold Meaning.assign
      by_cases hkv : k = v.slot
      · subst hkv
        rw [if_pos rfl, Machine.Memory.read?_write_self (here.agrees.cell place)]
        rfl
      · have hne : (⟨k, 0⟩ : Machine.Address) ≠ ⟨v.slot, 0⟩ := fun h => hkv (congrArg (·.slot) h)
        rw [if_neg hkv, Machine.Memory.read?_write_of_ne hne]
        exact here.agrees.cells hk
    · intro k es hes i hi
      obtain ⟨elem, elements⟩ := typed.storages hes
      have hne : (⟨k, i⟩ : Machine.Address) ≠ ⟨v.slot, 0⟩ := by
        intro h
        have hk : k = v.slot := congrArg (·.slot) h
        have hplace := elements.place
        rw [hk, place] at hplace
        cases hplace
      rw [Machine.Memory.read?_write_of_ne hne]
      exact here.agrees.storages hes i hi
  obtain ⟨s', hsteps, here', later, _⟩ := store_next here stage ho haddress
    (here.agrees.cell place) hallowed hagrees (.refl p.store)
  exact ⟨1, s', hsteps, here', later, trivial⟩

theorem writeElement_matches (here : Here S p) (typed : p.store.Typed S.places) {elem : Ty}
    {k i : Nat} {value : Meaning.Value} (hwithin : Within S.places elem p.store (k, i))
    (hvalue : HasType S.places p.store elem value) (ho : Denotes S p o value)
    (ho' : Carries S p o' (.address ⟨k, i⟩)) :
    Matches S p (emitVoid (.store o o')) (writeElement k i value) fun _ _ _ => True := by
  intro stage
  obtain ⟨es, hes, elements, hi⟩ := hwithin.elements typed
  have hcontains := here.agrees.room elements.place i hi
  have haccepts : p.state.memory.Accepts S.places ⟨k, i⟩ (encode S.places value) :=
    .inr ⟨elem, es.length, elements.place, here.agrees.whole typed hvalue⟩
  have hallowed : Allowed S.code S.places p.state (.store o o') := by
    refine ⟨_, _, ho'.value, ho.value, haccepts, ?_⟩
    intro elem' n hplace _
    rw [elements.place] at hplace
    cases hplace
    refine ⟨?_, ?_, fun _ => ?_⟩
    · show (0 : Int) ≤ i
      omega
    · show (i : Int) < es.length
      omega
    · rw [here.agrees.storages hes i hi, List.getElem?_eq_getElem hi]
      rfl
  have hagrees : Agrees S.code S.places
      { p.store with storages := Meaning.assign p.store.storages k (es.set i value) }
      { p.state with memory := p.state.memory.write ⟨k, i⟩ (encode S.places value) } := by
    refine here.agrees.written haccepts ?_ ?_ ⟨here.agrees.seen.output, here.agrees.seen.calls,
      here.agrees.seen.world⟩
    · intro j t hj
      have hne : (⟨j, 0⟩ : Machine.Address) ≠ ⟨k, i⟩ := by
        intro h
        have hjk : j = k := congrArg (·.slot) h
        rw [hjk, elements.place] at hj
        cases hj
      rw [Machine.Memory.read?_write_of_ne hne]
      exact here.agrees.cells hj
    · intro j fs hfs i' hi'
      change Meaning.assign p.store.storages k _ j = some fs at hfs
      unfold Meaning.assign at hfs
      by_cases hjk : j = k
      · subst hjk
        rw [if_pos rfl] at hfs
        cases hfs
        rw [List.length_set] at hi'
        by_cases hii : i' = i
        · subst hii
          rw [Machine.Memory.read?_write_self hcontains, List.getElem?_set_self hi]
          rfl
        · have hne : (⟨j, i'⟩ : Machine.Address) ≠ ⟨j, i⟩ := by
            intro h
            have hoffset : (i' : Int) = i := congrArg (·.offset) h
            omega
          rw [Machine.Memory.read?_write_of_ne hne, List.getElem?_set_ne (Ne.symm hii)]
          exact here.agrees.storages hes i' hi'
      · have hne : (⟨j, i'⟩ : Machine.Address) ≠ ⟨k, i⟩ := fun h => hjk (congrArg (·.slot) h)
        rw [if_neg hjk] at hfs
        rw [Machine.Memory.read?_write_of_ne hne]
        exact here.agrees.storages hfs i' hi'
  obtain ⟨s', hsteps, here', later, _⟩ := store_next here stage ho ho' hcontains hallowed hagrees
    (grows_assign p.store k _)
  have heval : writeElement k i value p.store = .gives ()
      { p.store with storages := Meaning.assign p.store.storages k (es.set i value) } := by
    unfold writeElement
    rw [hes]
  rw [heval]
  exact ⟨1, s', hsteps, here', later, trivial⟩

end Writing

end TinyScript.Core.Lower
