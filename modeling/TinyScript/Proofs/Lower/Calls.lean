import TinyScript.Proofs.Lower.Operations
import TinyScript.Proofs.Lower.Simulation

/-! Calls of library functions. The machine passes an array as an address and a
length, and the library sees the integers that stand there; the evaluation passes
the elements of a storage. Both make the same call, and afterwards the memory again
holds what the store holds. -/

namespace TinyScript.Core.Lower

open Ir (Module)
open Machine (State)
open Meaning

variable {m : Module} {L : List Place} {st : Store} {s : State}

/-- What a value is passed as: an array as two values. -/
def spread (L : List Place) : Meaning.Value → List Machine.Value
  | .array k => [.address ⟨k, 0⟩, .int (Int32.ofNat (size L k))]
  | v => [encode L v]

/-! ### Arguments -/

/-- As an integer, a length is right or too small. -/
theorem count_le {es : List Meaning.Value} (h : es.length ≤ maxLength) :
    (count es).toInt.toNat ≤ es.length := by
  rcases Nat.lt_or_eq_of_le h with hlt | heq
  · rw [count, toInt_ofNat hlt]
    exact Nat.le_refl _
  · rw [count, heq]
    have := toInt_ofNat_maxLength
    omega

/-- Elements in memory are read as they are passed. -/
theorem readInts_eq (agrees : Agrees m L st s) {k : Nat} {es : List Meaning.Value}
    (hes : st.storages k = some es) (elements : Elements L st k .i32 es) {xs : List Int32}
    (hxs : es = xs.map .int) :
    s.memory.readInts? ⟨k, 0⟩ (Int32.ofNat (size L k)).toInt.toNat =
      some (xs.take (count es).toInt.toNat) := by
  have hcount : (Int32.ofNat (size L k)) = count es := by rw [size_eq elements.place, count]
  have hle : (count es).toInt.toNat ≤ xs.length := by
    have := count_le elements.bound
    rwa [hxs, List.length_map, ← hxs] at this
  have hlength : (xs.take (count es).toInt.toNat).length = (count es).toInt.toNat := by
    rw [List.length_take, Nat.min_eq_left hle]
  rw [hcount]
  have hread : s.memory.readInts? ⟨k, 0⟩ (xs.take (count es).toInt.toNat).length =
      some (xs.take (count es).toInt.toNat) := by
    apply Machine.Memory.readInts?_eq_some
    intro i hi
    rw [hlength] at hi
    have hi' : i < es.length := by
      rw [hxs, List.length_map]
      omega
    rw [Int.zero_add, agrees.storages hes i hi', List.getElem?_take_of_lt hi, hxs,
      List.getElem?_map, Option.map_map]
    rfl
  rwa [hlength] at hread

theorem arguments_eq (agrees : Agrees m L st s) (typed : st.Typed L) {ts : List Ty}
    {vs : List Meaning.Value} {args : List Library.Value} (hts : ∀ t ∈ ts, Library.Passable t)
    (hvs : List.Forall₂ (HasType L st) ts vs) (hargs : vs.mapM (passed? st) = some args) :
    Machine.arguments? s.memory ts (vs.flatMap (spread L)) =
      some (args, (place? vs).map fun k => ⟨k, 0⟩) := by
  induction hvs generalizing args with
  | nil =>
    cases hargs
    rfl
  | @cons t v ts vs hv hvs ih =>
    simp only [List.mapM_cons, Option.bind_eq_bind, Option.bind_eq_some_iff] at hargs
    obtain ⟨a, ha, as, has, h⟩ := hargs
    cases h
    have hrest := ih (fun t ht => hts t (List.mem_cons_of_mem _ ht)) has
    rw [List.flatMap_cons]
    cases hv with
    | int n =>
      cases ha
      simp [spread, encode, Machine.arguments?, hrest, place?]
    | double d =>
      cases ha
      simp [spread, encode, Machine.arguments?, hrest, place?]
    | str b =>
      cases ha
      simp [spread, encode, Machine.arguments?, hrest, place?]
    | bool b => cases ha
    | @array k n elem place filled =>
      obtain ⟨k', es, hk, hes, h⟩ := (HasType.array place filled).elements typed
      cases hk
      have helem : elem = .i32 := by
        rcases hts (.array elem) List.mem_cons_self with h | h | h | h <;> cases h
        rfl
      subst helem
      obtain ⟨xs, hxs, hpassed⟩ := passed?_array hes h.types
      rw [hpassed] at ha
      cases ha
      simp only [spread, List.cons_append, List.nil_append, Machine.arguments?]
      rw [readInts_eq agrees hes h hxs, hrest]
      rfl

/-- Arrays are passed whole. -/
theorem passed_spread (agrees : Agrees m L st s) (typed : st.Typed L) {ts : List Ty}
    {vs : List Meaning.Value} (hts : ∀ t ∈ ts, Library.Passable t)
    (hvs : List.Forall₂ (HasType L st) ts vs) :
    Machine.Passed L s.memory ts (vs.flatMap (spread L)) := by
  induction hvs with
  | nil => trivial
  | @cons t v ts vs hv hvs ih =>
    have hrest := ih fun t ht => hts t (List.mem_cons_of_mem _ ht)
    rw [List.flatMap_cons]
    cases hv with
    | int n => exact hrest
    | double d => exact hrest
    | str b => exact hrest
    | bool b => rcases hts .bool List.mem_cons_self with h | h | h | h <;> cases h
    | @array k n elem place filled =>
      obtain ⟨k', es, hk, hes, h⟩ := (HasType.array place filled).elements typed
      cases hk
      have helem : elem = .i32 := by
        rcases hts (.array elem) List.mem_cons_self with h | h | h | h <;> cases h
        rfl
      subst helem
      refine ⟨⟨k, es.length, rfl, h.place, by rw [size_eq h.place], ?_⟩, hrest⟩
      intro i hi
      obtain ⟨xs, rfl⟩ := ints_of_types h.types
      rw [List.length_map] at hi
      refine ⟨xs[i], ?_⟩
      rw [agrees.storages hes i (by rwa [List.length_map]), List.getElem?_map,
        List.getElem?_eq_getElem hi]
      rfl

/-! ### Results -/

theorem ofLibrary_eq (r : Library.Value) :
    Machine.ofLibrary? r = (given? r).map (encode L) := by
  cases r with
  | str b => cases b <;> rfl
  | _ => rfl

theorem callLibrary_eq (agrees : Agrees m L st s) (typed : st.Typed L) {f : Library.Function}
    {vs : List Meaning.Value} {args : List Library.Value} {out : Library.Outcome}
    (hvs : List.Forall₂ (HasType L st) f.signature.params vs)
    (hargs : vs.mapM (passed? st) = some args) (hout : f.call? st.world args = some out) :
    Machine.callLibrary? s f (vs.flatMap (spread L)) =
      some (.call ⟨f.name, args, out.result, out.array⟩ ((place? vs).map fun k => ⟨k, 0⟩) out.world,
        (given? out.result).map (encode L)) := by
  unfold Machine.callLibrary?
  rw [arguments_eq agrees typed f.params_passable hvs hargs, agrees.seen.world]
  simp [hout, ofLibrary_eq (L := L)]

/-- The store and the memory after a call with an array. -/
theorem Agrees.overwrite (agrees : Agrees m L st s) {k : Nat} {es : List Meaning.Value}
    (hes : st.storages k = some es) (elements : Elements L st k .i32 es) {ys : List Int32}
    (hlen : ys.length ≤ es.length) :
    Agrees m L (st.overwrite k ys) { s with memory := s.memory.writeInts ⟨k, 0⟩ ys } := by
  have hover : st.overwrite k ys =
      { st with storages := Meaning.assign st.storages k (ys.map .int ++ es.drop ys.length) } := by
    unfold Store.overwrite
    rw [hes]
  have hsound : (s.memory.writeInts ⟨k, 0⟩ ys).Sound L :=
    agrees.sound.memory.writeInts elements.place ys
  rw [hover]
  refine ⟨?_, ?_, ?_, ?_, ?_, agrees.results,
    ⟨agrees.seen.output, agrees.seen.calls, agrees.seen.world⟩⟩
  · intro j t hj
    rw [Machine.Memory.contains_writeInts]
    exact agrees.cell hj
  · intro j n elem hj i hi
    rw [Machine.Memory.contains_writeInts]
    exact agrees.room hj i hi
  · intro j t hj
    have hne : j ≠ k := by
      rintro rfl
      rw [elements.place] at hj
      cases hj
    rw [Machine.Memory.read?_writeInts_of_outside (.inl hne)]
    exact agrees.cells hj
  · intro j fs hfs i hi
    change Meaning.assign st.storages k _ j = some fs at hfs
    unfold Meaning.assign at hfs
    by_cases hjk : j = k
    · subst hjk
      rw [if_pos rfl] at hfs
      cases hfs
      rcases Nat.lt_or_ge i ys.length with hlt | hge
      · have hcells : ∀ i' < ys.length, s.memory.contains ⟨j, 0 + i'⟩ = true := by
          intro i' hi'
          rw [Int.zero_add]
          exact agrees.room elements.place i' (by omega)
        have hread := Machine.Memory.read?_writeInts_inside hcells hlt
        rw [Int.zero_add] at hread
        rw [hread, List.getElem?_append_left (by rwa [List.length_map]), List.getElem?_map,
          Option.map_map]
        rfl
      · have hafter : (0 : Int) + ys.length ≤ i := by omega
        rw [Machine.Memory.read?_writeInts_of_outside (.inr (.inr hafter)),
          List.getElem?_append_right (by rwa [List.length_map]), List.length_map,
          List.getElem?_drop, Nat.add_sub_cancel' hge]
        refine agrees.storages hes i ?_
        rw [List.length_append, List.length_map, List.length_drop] at hi
        omega
    · rw [if_neg hjk] at hfs
      rw [Machine.Memory.read?_writeInts_of_outside (.inl hjk)]
      exact agrees.storages hfs i hi
  · exact agrees.sound.withMemory hsound (s.memory.covers_writeInts _ _)

/-- A call that took place leaves the memory and the store in agreement. -/
theorem Agrees.called (agrees : Agrees m L st s) (typed : st.Typed L) {f : Library.Function}
    {vs : List Meaning.Value} {args : List Library.Value} {out : Library.Outcome} {t : Ty}
    (hvs : List.Forall₂ (HasType L st) f.signature.params vs)
    (hargs : vs.mapM (passed? st) = some args) (hout : out.Fits args t) :
    Agrees m L (st.called f vs args out)
      (s.apply (.call ⟨f.name, args, out.result, out.array⟩
        ((place? vs).map fun k => ⟨k, 0⟩) out.world)) := by
  have plain : Agrees m L
      { st with
        calls := st.calls ++ [⟨f.name, args, out.result, out.array⟩]
        world := out.world }
      { s with
        calls := s.calls.push ⟨f.name, args, out.result, out.array⟩
        world := out.world } := by
    refine ⟨agrees.cell, agrees.room, agrees.cells, agrees.storages,
      agrees.sound.congr rfl rfl, agrees.results, agrees.seen.output, ?_, rfl⟩
    show (s.calls.push _).toList = _
    rw [Array.toList_push, agrees.seen.calls]
  unfold Store.called
  cases harr : out.array with
  | none =>
    rw [harr] at plain
    cases hplace : place? vs with
    | none => simpa [State.apply] using plain
    | some k => simpa [State.apply] using plain
  | some ys =>
    rw [harr] at plain
    obtain ⟨k, es, vs', rfl, hes, elements, hle⟩ := array_given typed hvs hargs hout harr
    have elements' : Elements L { st with
        calls := st.calls ++ [⟨f.name, args, out.result, some ys⟩]
        world := out.world } k .i32 es := by
      refine elements.mono ?_
      exact fun _ h => h
    simpa [State.apply, place?] using plain.overwrite hes elements' hle

/-- The array given back to a call fits into the storage it came from. -/
theorem call_array_fits (agrees : Agrees m L st s) (typed : st.Typed L) {f : Library.Function}
    {vs : List Meaning.Value} {args : List Library.Value} {out : Library.Outcome} {t : Ty}
    (hvs : List.Forall₂ (HasType L st) f.signature.params vs)
    (hargs : vs.mapM (passed? st) = some args) (hout : f.call? st.world args = some out)
    (hfits : out.Fits args t) {call : Machine.Call} {a : Machine.Address} {w : Library.World}
    {r : Option Machine.Value} {ys : List Int32}
    (hcall : Machine.callLibrary? s f (vs.flatMap (spread L)) = some (.call call (some a) w, r))
    (hys : call.array = some ys) :
    ∃ n, L[a.slot]? = some (.storage .i32 n) ∧ a.offset = 0 ∧ ys.length ≤ n := by
  rw [callLibrary_eq agrees typed hvs hargs hout] at hcall
  simp only [Option.some.injEq, Prod.mk.injEq, Machine.Effect.call.injEq] at hcall
  obtain ⟨⟨rfl, hplace, _⟩, _⟩ := hcall
  obtain ⟨k, es, vs', rfl, hes, elements, hle⟩ := array_given typed hvs hargs hfits hys
  cases hplace
  exact ⟨es.length, elements.place, rfl, hle⟩

end TinyScript.Core.Lower
