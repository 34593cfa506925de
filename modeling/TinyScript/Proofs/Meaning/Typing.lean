import TinyScript.Proofs.Core.Typing
import TinyScript.Proofs.Library.Typing

/-! Evaluation keeps stores typed. A store is typed against the places of a
program: a cell holds a value of the type of its declaration, a storage as many
elements as its literal has, each of the element type. A reference to an array is
a value only once the storage behind it was filled, and storages are never emptied
or made longer or shorter, so what has a type keeps it for the rest of the run.
What follows says nothing about computations that end the run or are cut off. -/

namespace TinyScript.Meaning

open TinyScript.Core (ArithOp CompareOp Comparable Conversion Stored Var)

variable {α β : Type} {L : List Place}

/-! ### Values and stores -/

inductive HasType (L : List Place) (st : Store) : Ty → Value → Prop
  | int (n : Int32) : HasType L st .i32 (.int n)
  | bool (b : Bool) : HasType L st .bool (.bool b)
  | double (d : Number.Double) : HasType L st .f64 (.double d)
  | str (b : Text.Bytes) : HasType L st .str (.str b)
  | array {k n : Nat} {elem : Ty} (place : L[k]? = some (.storage elem n))
      (filled : (st.storages k).isSome) : HasType L st (.array elem) (.array k)

/-- Every storage filled in one store is filled in the other. -/
def Store.Grows (st st' : Store) : Prop := ∀ k, (st.storages k).isSome → (st'.storages k).isSome

theorem Store.Grows.refl (st : Store) : st.Grows st := fun _ h => h

theorem Store.Grows.trans {st₁ st₂ st₃ : Store} (h : st₁.Grows st₂) (h' : st₂.Grows st₃) :
    st₁.Grows st₃ := fun k hk => h' k (h k hk)

theorem HasType.mono {st st' : Store} (grows : st.Grows st') {t : Ty} {v : Value}
    (h : HasType L st t v) : HasType L st' t v := by
  cases h with
  | int n => exact .int n
  | bool b => exact .bool b
  | double d => exact .double d
  | str b => exact .str b
  | array place filled => exact .array place (grows _ filled)

/-- What a storage of a typed store holds. -/
structure Elements (L : List Place) (st : Store) (k : Nat) (elem : Ty) (es : List Value) :
    Prop where
  place : L[k]? = some (.storage elem es.length)
  bound : es.length ≤ maxLength
  types : ∀ v ∈ es, HasType L st elem v

structure Store.Typed (L : List Place) (st : Store) : Prop where
  cells : ∀ {k : Nat} {t : Ty} {v : Value}, L[k]? = some (.cell t) → st.cells k = some v →
    HasType L st t v
  storages : ∀ {k : Nat} {es : List Value}, st.storages k = some es → ∃ elem, Elements L st k elem es

theorem Store.initial_typed (w : Library.World) : (Store.initial w).Typed L :=
  ⟨fun _ h => (nomatch h), fun h => (nomatch h)⟩

theorem Elements.mono {st st' : Store} (grows : st.Grows st') {k : Nat} {elem : Ty}
    {es : List Value} (h : Elements L st k elem es) : Elements L st' k elem es :=
  ⟨h.place, h.bound, fun v hv => (h.types v hv).mono grows⟩

/-- The elements behind a reference. -/
theorem HasType.elements {st : Store} (typed : st.Typed L) {elem : Ty} {v : Value}
    (h : HasType L st (.array elem) v) :
    ∃ k es, v = .array k ∧ st.storages k = some es ∧ Elements L st k elem es := by
  cases h with
  | @array k n _ place filled =>
    obtain ⟨es, hes⟩ := Option.isSome_iff_exists.1 filled
    obtain ⟨elem', h⟩ := typed.storages hes
    have same := place.symm.trans h.place
    cases same
    exact ⟨k, es, rfl, hes, h⟩

/-- Integers are the values of their type. -/
theorem ints_of_types {st : Store} {es : List Value} (h : ∀ v ∈ es, HasType L st .i32 v) :
    ∃ xs : List Int32, es = xs.map .int := by
  induction es with
  | nil => exact ⟨[], rfl⟩
  | cons v es ih =>
    obtain ⟨xs, rfl⟩ := ih fun v hv => h v (List.mem_cons_of_mem _ hv)
    have hv := h v List.mem_cons_self
    cases hv with
    | int n => exact ⟨n :: xs, rfl⟩

/-! ### Computations -/

/-- If a computation gives a value, that and the store after it are as asked. -/
def Result.Ensures (r : Result α) (Q : α → Store → Prop) : Prop :=
  match r with
  | .gives a st => Q a st
  | _ => True

/-- From a typed store a computation leads to a typed store that has grown, and to
a value as asked. -/
def Yields (L : List Place) (st : Store) (r : Result α) (Q : Store → α → Prop) : Prop :=
  r.Ensures fun a st' => st'.Typed L ∧ st.Grows st' ∧ Q st' a

section Yields

variable {st : Store} {Q R : Store → α → Prop}

theorem Yields.gives {a : α} (typed : st.Typed L) (h : Q st a) :
    Yields L st ((pure a : Eval α) st) Q := ⟨typed, .refl st, h⟩

theorem Yields.stuck : Yields L st ((stuck : Eval α) st) Q := trivial

theorem Yields.bind {x : Eval α} {f : α → Eval β} {S : Store → β → Prop}
    (hx : Yields L st (x st) Q)
    (hf : ∀ st' a, st'.Typed L → st.Grows st' → Q st' a → Yields L st' (f a st') S) :
    Yields L st ((x >>= f) st) S := by
  rw [bind_apply]
  unfold Yields at hx
  cases hr : x st with
  | gives a st' =>
    rw [hr] at hx
    obtain ⟨typed, grows, hq⟩ := hx
    have hy := hf st' a typed grows hq
    show Yields L st (f a st') S
    unfold Yields at hy ⊢
    cases hs : f a st' with
    | gives b st'' =>
      rw [hs] at hy
      exact ⟨hy.1, grows.trans hy.2.1, hy.2.2⟩
    | ends e st'' => trivial
    | unfinished => trivial
  | ends e st' => trivial
  | unfinished => trivial

/-- Computations that agree may be followed by computations that agree on what the
first can give. -/
theorem bind_agrees {x y : Eval α} {f g : α → Eval β}
    (hxy : x st = y st) (hy : Yields L st (y st) Q)
    (hfg : ∀ st' a, st'.Typed L → st.Grows st' → Q st' a → f a st' = g a st') :
    (x >>= f) st = (y >>= g) st := by
  rw [bind_apply, bind_apply, hxy]
  cases hr : y st with
  | gives a st' =>
    rw [hr] at hy
    exact hfg st' a hy.1 hy.2.1 hy.2.2
  | ends e st' => rfl
  | unfinished => rfl

theorem Yields.orStuck {o : Option α} (typed : st.Typed L) (h : ∀ a, o = some a → Q st a) :
    Yields L st (Meaning.orStuck o st) Q := by
  cases o with
  | none => exact .stuck
  | some a => exact .gives typed (h a rfl)

/-- Turns that keep the store typed may be repeated. -/
theorem Yields.repeatWhile {turn : Eval Bool}
    (h : ∀ st : Store, st.Typed L → Yields L st (turn st) fun _ _ => True) (fuel : Nat)
    (typed : st.Typed L) : Yields L st (Meaning.repeatWhile turn fuel st) fun _ _ => True := by
  induction fuel generalizing st with
  | zero => trivial
  | succ fuel ih =>
    refine (h st typed).bind ?_
    intro st' again typed' _ _
    cases again with
    | false => exact .gives typed' trivial
    | true => exact ih typed'

end Yields

/-! ### Cells and storages -/

section Places

variable {st : Store}

theorem readCell_yields (typed : st.Typed L) {k : Nat} {t : Ty} (place : L[k]? = some (.cell t)) :
    Yields L st (readCell k st) fun st' v => HasType L st' t v :=
  .orStuck typed fun _ h => typed.cells place h

theorem writeCell_yields (typed : st.Typed L) {k : Nat} {t : Ty} {v : Value}
    (place : L[k]? = some (.cell t)) (hv : HasType L st t v) :
    Yields L st (writeCell k v st) fun _ _ => True := by
  have grows : st.Grows { st with cells := assign st.cells k v } := .refl st
  refine ⟨⟨?_, ?_⟩, grows, trivial⟩
  · intro j u w hj hw
    change assign st.cells k v j = some w at hw
    unfold assign at hw
    by_cases h : j = k
    · subst h
      rw [if_pos rfl] at hw
      rw [place] at hj
      cases hw
      cases hj
      exact hv.mono grows
    · rw [if_neg h] at hw
      exact (typed.cells hj hw).mono grows
  · intro j es hes
    obtain ⟨elem, h⟩ := typed.storages hes
    exact ⟨elem, h.mono grows⟩

/-- A storage that is filled or written to grows the store. -/
theorem grows_assign (st : Store) (k : Nat) (es : List Value) :
    st.Grows { st with storages := assign st.storages k es } := by
  intro j hj
  show (assign st.storages k es j).isSome
  unfold assign
  by_cases h : j = k
  · rw [if_pos h]
    rfl
  · rw [if_neg h]
    exact hj

theorem typed_assign (typed : st.Typed L) {k : Nat} {elem : Ty} {es : List Value}
    (h : Elements L st k elem es) :
    ({ st with storages := assign st.storages k es } : Store).Typed L := by
  have grows := grows_assign st k es
  refine ⟨fun hj hv => (typed.cells hj hv).mono grows, ?_⟩
  intro j fs hfs
  change assign st.storages k es j = some fs at hfs
  unfold assign at hfs
  by_cases hj : j = k
  · subst hj
    rw [if_pos rfl] at hfs
    cases hfs
    exact ⟨elem, h.mono grows⟩
  · rw [if_neg hj] at hfs
    obtain ⟨elem', h'⟩ := typed.storages hfs
    exact ⟨elem', h'.mono grows⟩

theorem fill_yields (typed : st.Typed L) {k : Nat} {elem : Ty} {es : List Value}
    (place : L[k]? = some (.storage elem es.length)) (types : ∀ v ∈ es, HasType L st elem v) :
    Yields L st (fill k es st) fun st' v => HasType L st' (.array elem) v := by
  unfold fill
  by_cases long : maxLength < es.length
  · rw [if_pos long]
    exact .stuck
  · rw [if_neg long]
    refine ⟨typed_assign typed ⟨place, Nat.le_of_not_lt long, types⟩, grows_assign st k es, ?_⟩
    exact .array place (by simp [assign])

/-- A storage and its elements. -/
def Holds (L : List Place) (elem : Ty) (st : Store) (found : Nat × List Value) : Prop :=
  st.storages found.1 = some found.2 ∧ Elements L st found.1 elem found.2

theorem contents_yields (typed : st.Typed L) {elem : Ty} {v : Value}
    (hv : HasType L st (.array elem) v) : Yields L st (contents v st) (Holds L elem) := by
  obtain ⟨k, es, rfl, hes, h⟩ := hv.elements typed
  refine .orStuck typed ?_
  intro found hfound
  rw [hes] at hfound
  cases hfound
  exact ⟨hes, h⟩

theorem length_yields (typed : st.Typed L) {elem : Ty} {v : Value}
    (hv : HasType L st (.array elem) v) :
    Yields L st (length v st) fun st' v => HasType L st' .i32 v :=
  (contents_yields typed hv).bind fun _ _ typed _ _ => .gives typed (.int _)

/-- The position of an element of a storage. -/
def Within (L : List Place) (elem : Ty) (st : Store) (found : Nat × Nat) : Prop :=
  ∃ n, L[found.1]? = some (.storage elem n) ∧ found.2 < n ∧ (st.storages found.1).isSome

theorem Within.mono {st' : Store} (grows : st.Grows st') {elem : Ty} {found : Nat × Nat}
    (h : Within L elem st found) : Within L elem st' found := by
  obtain ⟨n, place, hlt, filled⟩ := h
  exact ⟨n, place, hlt, grows _ filled⟩

theorem locate_yields (typed : st.Typed L) {elem : Ty} {a i : Value}
    (ha : HasType L st (.array elem) a) (hi : HasType L st .i32 i) :
    Yields L st (locate a i st) (Within L elem) := by
  cases hi with
  | int i =>
    refine (contents_yields typed ha).bind ?_
    intro st' found typed' grows hfound
    obtain ⟨k, es⟩ := found
    obtain ⟨hes, h⟩ := hfound
    by_cases hin : 0 ≤ i.toInt ∧ i.toInt < es.length
    · simp only [hin, and_self, if_true]
      refine .gives typed' ⟨es.length, h.place, ?_, ?_⟩
      · show i.toInt.toNat < es.length
        omega
      · show (st'.storages k).isSome
        rw [show st'.storages k = some es from hes]
        rfl
    · simp only [hin, if_false]
      trivial

theorem Within.elements (typed : st.Typed L) {elem : Ty} {k i : Nat}
    (h : Within L elem st (k, i)) :
    ∃ es, st.storages k = some es ∧ Elements L st k elem es ∧ i < es.length := by
  obtain ⟨n, place, hlt, filled⟩ := h
  obtain ⟨es, hes⟩ := Option.isSome_iff_exists.1 filled
  obtain ⟨elem', h⟩ := typed.storages hes
  have same := place.symm.trans h.place
  cases same
  exact ⟨es, hes, h, hlt⟩

theorem readElement_yields (typed : st.Typed L) {elem : Ty} {k i : Nat}
    (h : Within L elem st (k, i)) :
    Yields L st (readElement k i st) fun st' v => HasType L st' elem v := by
  obtain ⟨es, hes, h, _⟩ := h.elements typed
  refine .orStuck typed ?_
  intro v hv
  rw [hes] at hv
  exact h.types v (List.mem_of_getElem? hv)

theorem writeElement_yields (typed : st.Typed L) {elem : Ty} {k i : Nat} {v : Value}
    (h : Within L elem st (k, i)) (hv : HasType L st elem v) :
    Yields L st (writeElement k i v st) fun _ _ => True := by
  obtain ⟨es, hes, h, _⟩ := h.elements typed
  unfold writeElement
  rw [hes]
  have hset : Elements L st k elem (es.set i v) := by
    refine ⟨by rw [List.length_set]; exact h.place, by rw [List.length_set]; exact h.bound, ?_⟩
    intro w hw
    rcases List.mem_or_eq_of_mem_set hw with hw | rfl
    · exact h.types w hw
    · exact hv
  exact ⟨typed_assign typed hset, grows_assign st k _, trivial⟩

end Places

/-! ### Library calls -/

section Calls

variable {st : Store}

/-- What stands for an array in a call is as long as the array, or the array is too
long to be counted and nothing is passed. -/
theorem passed?_array {k : Nat} {es : List Value} (hes : st.storages k = some es)
    (types : ∀ v ∈ es, HasType L st .i32 v) :
    ∃ xs : List Int32, es = xs.map .int ∧
      passed? st (.array k) = some (.array (xs.take (count es).toInt.toNat)) := by
  obtain ⟨xs, rfl⟩ := ints_of_types types
  refine ⟨xs, rfl, ?_⟩
  have hints : ∀ ys : List Int32, (ys.map Value.int).mapM int? = some ys := by
    intro ys
    induction ys with
    | nil => rfl
    | cons y ys ih => simp [int?, ih]
  simp [passed?, hes, ← List.map_take, hints]

theorem passed?_hasType (typed : st.Typed L) {t : Ty} {v : Value} (ht : Library.Passable t)
    (hv : HasType L st t v) : ∃ a, passed? st v = some a ∧ a.HasType t := by
  cases hv with
  | int n => exact ⟨_, rfl, .i32 n⟩
  | double d => exact ⟨_, rfl, .f64 d⟩
  | str b => exact ⟨_, rfl, .str b⟩
  | bool b => rcases ht with h | h | h | h <;> cases h
  | @array k n elem place filled =>
    rcases ht with h | h | h | h <;> cases h
    obtain ⟨k', es, hk, hes, h⟩ := (HasType.array place filled).elements typed
    cases hk
    obtain ⟨xs, _, hxs⟩ := passed?_array hes h.types
    exact ⟨_, hxs, .array _⟩

/-- Typed values can be passed, and are passed as their parameters ask. -/
theorem passed_matches (typed : st.Typed L) {ts : List Ty} {vs : List Value}
    (hts : ∀ t ∈ ts, Library.Passable t) (hvs : List.Forall₂ (HasType L st) ts vs) :
    ∃ args, vs.mapM (passed? st) = some args ∧ Library.Matches ts args := by
  induction hvs with
  | nil => exact ⟨[], rfl, .nil⟩
  | @cons t v ts vs hv hvs ih =>
    obtain ⟨args, hargs, hmatch⟩ := ih fun t ht => hts t (List.mem_cons_of_mem _ ht)
    obtain ⟨a, ha, hat⟩ := passed?_hasType typed (hts t List.mem_cons_self) hv
    exact ⟨a :: args, by simp [ha, hargs], .cons hat hmatch⟩

/-- What a call gives back: nothing, or a value of the function's result type. -/
def Given (L : List Place) (t : Ty) (st : Store) : Option Value → Prop
  | none => t = .void
  | some v => t ≠ .void ∧ HasType L st t v

theorem given?_given {t : Ty} {v : Library.Value} (ht : ∀ elem, t ≠ .array elem)
    (hv : v.HasType t) : Given L t st (given? v) := by
  cases hv with
  | void => rfl
  | i32 n => exact ⟨by simp, .int n⟩
  | f64 d => exact ⟨by simp, .double d⟩
  | str b => exact ⟨by simp, .str b⟩
  | array xs => exact absurd rfl (ht _)

/-- An array that was passed first is the one that a call may change. -/
theorem place?_of_head {vs : List Value} {args : List Library.Value} {xs : List Int32}
    (hargs : vs.mapM (passed? st) = some args) (hhead : args.head? = some (.array xs)) :
    ∃ k vs', vs = .array k :: vs' ∧ passed? st (.array k) = some (.array xs) := by
  cases vs with
  | nil =>
    cases hargs
    cases hhead
  | cons v vs =>
    simp only [List.mapM_cons, Option.bind_eq_bind, Option.bind_eq_some_iff] at hargs
    obtain ⟨a, ha, as, _, h⟩ := hargs
    cases h
    cases hhead
    cases v with
    | array k => exact ⟨k, vs, rfl, ha⟩
    | int n => cases ha
    | bool b => cases ha
    | double d => cases ha
    | str b => cases ha

/-- Integers in the place of as many elements, or fewer, keep a storage typed. -/
theorem Elements.overwrite {k : Nat} {es : List Value} (h : Elements L st k .i32 es)
    {ys : List Int32} (hlen : ys.length ≤ es.length) :
    Elements L st k .i32 (ys.map .int ++ es.drop ys.length) := by
  have hlen' : (ys.map Value.int ++ es.drop ys.length).length = es.length := by
    rw [List.length_append, List.length_map, List.length_drop]
    omega
  refine ⟨hlen' ▸ h.place, hlen' ▸ h.bound, ?_⟩
  intro v hv
  rcases List.mem_append.1 hv with hv | hv
  · obtain ⟨y, _, rfl⟩ := List.mem_map.1 hv
    exact .int y
  · exact h.types v (List.mem_of_mem_drop hv)

/-- A store whose storages and cells are those of a typed one is typed. -/
theorem Store.Typed.congr (typed : st.Typed L) (st' : Store) (hc : st'.cells = st.cells)
    (hs : st'.storages = st.storages) : st'.Typed L ∧ st.Grows st' := by
  have grows : st.Grows st' := by
    intro k hk
    rw [hs]
    exact hk
  refine ⟨⟨?_, ?_⟩, grows⟩
  · intro k t v hk hv
    rw [hc] at hv
    exact (typed.cells hk hv).mono grows
  · intro k es hes
    rw [hs] at hes
    obtain ⟨elem, h⟩ := typed.storages hes
    exact ⟨elem, h.mono grows⟩

/-- An array that a call gives back belongs to the array that was passed first, and
is no longer than that. -/
theorem array_given (typed : st.Typed L) {f : Library.Function} {vs : List Value}
    {args : List Library.Value} {t : Ty} {out : Library.Outcome} {ys : List Int32}
    (hvs : List.Forall₂ (HasType L st) f.signature.params vs)
    (hargs : vs.mapM (passed? st) = some args) (hout : out.Fits args t)
    (hys : out.array = some ys) :
    ∃ k es vs', vs = .array k :: vs' ∧ st.storages k = some es ∧ Elements L st k .i32 es ∧
      ys.length ≤ es.length := by
  obtain ⟨xs, hhead, hlen⟩ := hout.array ys hys
  obtain ⟨k, vs', rfl, hpassed⟩ := place?_of_head hargs hhead
  obtain ⟨t, ts, hv, _, hparams⟩ := List.forall₂_cons_right_iff.1 hvs
  cases hv with
  | @array _ n elem place filled =>
    obtain ⟨k', es, hk, hes, h⟩ := (HasType.array place filled).elements typed
    cases hk
    have passable := f.params_passable (.array elem) (by rw [hparams]; exact List.mem_cons_self)
    have helem : elem = .i32 := by
      rcases passable with h | h | h | h <;> cases h
      rfl
    subst helem
    obtain ⟨zs, rfl, hzs⟩ := passed?_array hes h.types
    rw [hzs] at hpassed
    cases hpassed
    refine ⟨k, _, vs', rfl, hes, h, ?_⟩
    rw [hlen, List.length_map, List.length_take]
    omega

theorem called_typed (typed : st.Typed L) {f : Library.Function} {vs : List Value}
    {args : List Library.Value} {t : Ty} {out : Library.Outcome}
    (hvs : List.Forall₂ (HasType L st) f.signature.params vs)
    (hargs : vs.mapM (passed? st) = some args) (hout : out.Fits args t) :
    (st.called f vs args out).Typed L ∧ st.Grows (st.called f vs args out) := by
  have plain := typed.congr { st with
    calls := st.calls ++ [⟨f.name, args, out.result, out.array⟩]
    world := out.world } rfl rfl
  unfold Store.called
  cases harr : out.array with
  | none =>
    rw [harr] at plain
    cases hplace : place? vs <;> exact plain
  | some ys =>
    rw [harr] at plain
    obtain ⟨k, es, vs', rfl, hes, elements, hle⟩ := array_given typed hvs hargs hout harr
    have elements' := (elements.mono plain.2).overwrite hle
    simp only [place?, Store.overwrite, hes]
    exact ⟨typed_assign plain.1 elements', plain.2.trans (grows_assign _ k _)⟩

theorem call_yields (typed : st.Typed L) {f : Library.Function} {vs : List Value}
    (hvs : List.Forall₂ (HasType L st) f.signature.params vs) :
    Yields L st (call f vs st) (Given L f.signature.result) := by
  obtain ⟨args, hargs, hmatch⟩ := passed_matches typed f.params_passable hvs
  obtain ⟨out, hout, hfits⟩ := f.call?_fits st.world hmatch
  unfold call
  rw [hargs]
  simp only [hout]
  obtain ⟨htyped, hgrows⟩ := called_typed typed hvs hargs hfits
  exact ⟨htyped, hgrows, given?_given f.result_not_array hfits.result⟩

end Calls

/-! ### Programs -/

namespace Resolved

variable {st : Store}

theorem arith_yields (typed : st.Typed L) (op : ArithOp) {a b : Value}
    (ha : HasType L st .i32 a) (hb : HasType L st .i32 b) :
    Yields L st (arith op a b st) fun st' v => HasType L st' .i32 v := by
  cases ha with
  | int a =>
    cases hb with
    | int b =>
      have hdiv : ∀ c, Yields L st (divided a b c st) fun st' v => HasType L st' .i32 v := by
        intro c
        unfold divided
        split
        · trivial
        · exact .gives typed (.int c)
      cases op with
      | add | sub | mul => exact .gives typed (.int _)
      | div | rem => exact hdiv _

theorem compare_yields (typed : st.Typed L) (op : CompareOp) {t : Ty} {a b : Value}
    (ht : Comparable t) (ha : HasType L st t a) (hb : HasType L st t b) :
    Yields L st (compare op a b st) fun st' v => HasType L st' .bool v := by
  rcases ht with rfl | rfl
  · cases ha
    cases hb
    exact .gives typed (.bool _)
  · cases ha
    cases hb
    exact .gives typed (.bool _)

theorem sameText_yields (typed : st.Typed L) (negated : Bool) {a b : Value}
    (ha : HasType L st .str a) (hb : HasType L st .str b) :
    Yields L st (sameText negated a b st) fun st' v => HasType L st' .bool v := by
  cases ha
  cases hb
  exact .gives typed (.bool _)

theorem nonzero_yields (typed : st.Typed L) {v : Value} (hv : HasType L st .i32 v) :
    Yields L st (nonzero v st) fun st' v => HasType L st' .bool v := by
  cases hv
  exact .gives typed (.bool _)

/-- An expression gives a value of its type. -/
def Sound (L : List Place) (e : Core.Expr) : Prop :=
  ∀ st : Store, st.Typed L → Yields L st (expr e st) fun st' v => HasType L st' e.type v

theorem exprs_yields (typed : st.Typed L) {es : List Core.Expr} (h : ∀ e ∈ es, Sound L e) :
    Yields L st (exprs es st) fun st' vs =>
      List.Forall₂ (HasType L st') (es.map Core.Expr.type) vs := by
  induction es generalizing st with
  | nil => exact .gives typed .nil
  | cons e es ih =>
    refine (h e List.mem_cons_self st typed).bind ?_
    intro st₁ v typed₁ _ hv
    refine (ih typed₁ fun e he => h e (List.mem_cons_of_mem _ he)).bind ?_
    intro st₂ vs typed₂ grows hvs
    exact .gives typed₂ (.cons (hv.mono grows) hvs)

theorem binary_yields {l r : Core.Expr} {t : Ty} {f : Value → Value → Eval Value}
    (hl : Sound L l) (hr : Sound L r) (typed : st.Typed L)
    (hf : ∀ st a b, st.Typed L → HasType L st l.type a → HasType L st r.type b →
      Yields L st (f a b st) fun st' v => HasType L st' t v) :
    Yields L st ((do let a ← expr l; let b ← expr r; f a b : Eval Value) st)
      fun st' v => HasType L st' t v := by
  refine (hl st typed).bind ?_
  intro st₁ a typed₁ _ ha
  refine (hr st₁ typed₁).bind ?_
  intro st₂ b typed₂ grows hb
  exact hf st₂ a b typed₂ (ha.mono grows) hb

/-- The values of expressions of one type. -/
theorem types_of_elements {elem : Ty} {es : List Core.Expr} {vs : List Value}
    (types : ∀ e ∈ es, e.type = elem)
    (hvs : List.Forall₂ (HasType L st) (es.map Core.Expr.type) vs) :
    vs.length = es.length ∧ ∀ v ∈ vs, HasType L st elem v := by
  have hlen : vs.length = es.length := by
    rw [← hvs.length_eq, List.length_map]
  refine ⟨hlen, ?_⟩
  intro v hv
  obtain ⟨k, hk, rfl⟩ := List.getElem_of_mem hv
  have hget := List.forall₂_iff_get.1 hvs |>.2 k (hvs.length_eq ▸ hk) hk
  have htype := types _ (List.getElem_mem (hlen ▸ hk : k < es.length))
  simpa [htype] using hget

theorem expr_sound {e : Core.Expr} (he : Core.Typed L e) : Sound L e := by
  induction he with
  | str s => exact fun st typed => .gives typed (.str _)
  | int n => exact fun st typed => .gives typed (.int n)
  | float d => exact fun st typed => .gives typed (.double d)
  | bool b => exact fun st typed => .gives typed (.bool b)
  | load place => exact fun st typed => readCell_yields typed place
  | arith op _ _ ltype rtype hl hr =>
    intro st typed
    refine binary_yields hl hr typed ?_
    intro st a b typed ha hb
    exact arith_yields typed op (ltype ▸ ha) (rtype ▸ hb)
  | compare op _ _ ltype same hl hr =>
    intro st typed
    refine binary_yields hl hr typed ?_
    intro st a b typed ha hb
    exact compare_yields typed op ltype ha (same ▸ hb)
  | sameText negated _ _ ltype rtype hl hr =>
    intro st typed
    refine binary_yields hl hr typed ?_
    intro st a b typed ha hb
    exact sameText_yields typed negated (ltype ▸ ha) (rtype ▸ hb)
  | nonzero _ type he =>
    intro st typed
    refine (he st typed).bind ?_
    intro st v typed _ hv
    exact nonzero_yields typed (type ▸ hv)
  | @array slot elem es _ types place hes =>
    intro st typed
    refine (exprs_yields typed hes).bind ?_
    intro st vs typed _ hvs
    obtain ⟨hlen, htypes⟩ := types_of_elements types hvs
    exact fill_yields typed (hlen ▸ place) htypes
  | element _ _ atype itype ha hi =>
    intro st typed
    refine (ha st typed).bind ?_
    intro st₁ a typed₁ _ ha
    refine (hi st₁ typed₁).bind ?_
    intro st₂ i typed₂ grows hi
    refine (locate_yields typed₂ (atype ▸ ha.mono grows) (itype ▸ hi)).bind ?_
    intro st₃ found typed₃ _ hfound
    exact readElement_yields typed₃ hfound
  | length _ atype ha =>
    intro st typed
    refine (ha st typed).bind ?_
    intro st a typed _ ha
    exact length_yields typed (atype ▸ ha)
  | call _ types result hes =>
    intro st typed
    refine (exprs_yields typed hes).bind ?_
    intro st₁ vs typed₁ _ hvs
    refine (call_yields typed₁ (types ▸ hvs)).bind ?_
    intro st₂ given typed₂ _ hgiven
    refine .orStuck typed₂ ?_
    rintro v rfl
    exact hgiven.2

/-- As a statement an expression is evaluated for its effects, a call like any
other. -/
theorem stmt_eval (typed : st.Typed L) (fuel : Nat) {e : Core.Expr} (he : Core.Typed L e) :
    stmt fuel (.eval e) st = (do let _ ← expr e : Eval Unit) st := by
  cases he with
  | @call f es args types result =>
    show _ = ((exprs es >>= fun vs => call f vs >>= orStuck) >>= fun _ => pure () : Eval Unit) st
    rw [bind_bind]
    refine bind_agrees rfl (exprs_yields typed fun e he => expr_sound (args e he)) ?_
    intro st₁ vs typed₁ _ hvs
    rw [bind_bind]
    refine bind_agrees rfl (call_yields typed₁ (types ▸ hvs)) ?_
    intro st₂ given _ _ hgiven
    cases given with
    | none => exact absurd hgiven result
    | some v => rfl
  | _ => rfl

theorem convert_yields (typed : st.Typed L) {c : Conversion} {source target : Ty} {v : Value}
    (hc : Conversion.between? source target = some c) (hv : HasType L st source v) :
    Yields L st (convert c v st) fun st' v => HasType L st' target v := by
  cases hv with
  | str b => cases hc
  | array place filled => cases hc
  | int n | bool b | double d =>
    cases target <;> cases hc
    all_goals exact .gives typed (by constructor)

theorem stored_yields (typed : st.Typed L) {v : Var} {s : Stored} (hs : s.Typed L v) :
    Yields L st (stored s st) fun st' value => HasType L st' v.type value := by
  refine (expr_sound hs.value st typed).bind ?_
  intro st' value typed' _ hvalue
  have fits := hs.fits
  cases hc : s.convert with
  | none =>
    rw [hc] at fits
    exact .gives typed' (fits ▸ hvalue)
  | some c =>
    rw [hc] at fits
    exact convert_yields typed' fits hvalue

theorem assign_yields (typed : st.Typed L) {v : Var} {s : Stored} (hs : s.Typed L v) :
    Yields L st (Resolved.assign v s st) fun _ _ => True := by
  refine (stored_yields typed hs).bind ?_
  intro st' value typed' _ hvalue
  exact writeCell_yields typed' hs.place hvalue

theorem truth_yields (typed : st.Typed L) {v : Value} (hv : HasType L st .bool v) :
    Yields L st (truth v st) fun _ _ => True := by
  cases hv
  exact .gives typed trivial

theorem condition_yields (typed : st.Typed L) {e : Core.Expr} (he : Core.Condition L e) :
    Yields L st (condition e st) fun _ _ => True := by
  refine (expr_sound he.value st typed).bind ?_
  intro st' v typed' _ hv
  exact truth_yields typed' (he.type ▸ hv)

theorem guard_yields (typed : st.Typed L) {cond : Option Core.Expr}
    (h : ∀ e ∈ cond, Core.Condition L e) : Yields L st (guard cond st) fun _ _ => True := by
  cases cond with
  | none => exact .gives typed trivial
  | some e => exact condition_yields typed (h e rfl)

/-- A statement keeps the store typed. -/
def Keeps (L : List Place) (fuel : Nat) (s : Core.Stmt) : Prop :=
  ∀ st : Store, st.Typed L → Yields L st (stmt fuel s st) fun _ _ => True

theorem stmts_yields {fuel : Nat} (typed : st.Typed L) {ss : List Core.Stmt}
    (h : ∀ s ∈ ss, Keeps L fuel s) : Yields L st (stmts fuel ss st) fun _ _ => True := by
  induction ss generalizing st with
  | nil => exact .gives typed trivial
  | cons s ss ih =>
    refine (h s List.mem_cons_self st typed).bind ?_
    intro st' _ typed' _ _
    exact ih typed' fun s hs => h s (List.mem_cons_of_mem _ hs)

theorem clause_yields {fuel : Nat} (typed : st.Typed L) {s : Option Core.Stmt}
    (h : ∀ s' ∈ s, Keeps L fuel s') : Yields L st (clause fuel s st) fun _ _ => True := by
  cases s with
  | none => exact .gives typed trivial
  | some s => exact h s rfl st typed

theorem print_yields (typed : st.Typed L) (newline : Bool) {v : Value} :
    Yields L st (print newline v st) fun _ _ => True := by
  have hput : ∀ bytes, Yields L st (put bytes st) fun _ _ => True := by
    intro bytes
    obtain ⟨typed', grows⟩ := typed.congr { st with output := st.output ++ bytes } rfl rfl
    exact ⟨typed', grows, trivial⟩
  cases v with
  | str b => exact hput _
  | int n => exact hput _
  | bool b => trivial
  | double d => trivial
  | array k => trivial

/-- A turn of a loop that asks first. -/
theorem turn_yields {cond rest : Eval Bool} (hcond : Yields L st (cond st) fun _ _ => True)
    (hrest : ∀ st : Store, st.Typed L → Yields L st (rest st) fun _ _ => True) :
    Yields L st ((do if ← cond then rest else return false : Eval Bool) st) fun _ _ => True := by
  refine hcond.bind ?_
  intro st' b typed' _ _
  cases b with
  | false => exact .gives typed' trivial
  | true => exact hrest st' typed'

/-- What a turn does before the next. -/
theorem body_yields {fuel : Nat} {body : List Core.Stmt} (hbody : ∀ s ∈ body, Keeps L fuel s)
    (typed : st.Typed L) :
    Yields L st ((do stmts fuel body; return true : Eval Bool) st) fun _ _ => True := by
  refine (stmts_yields typed hbody).bind ?_
  intro st' _ typed' _ _
  exact .gives typed' trivial

theorem bodyThenStep_yields {fuel : Nat} {body : List Core.Stmt} {step : Option Core.Stmt}
    (hbody : ∀ s ∈ body, Keeps L fuel s) (hstep : ∀ s ∈ step, Keeps L fuel s)
    (typed : st.Typed L) :
    Yields L st ((do stmts fuel body; clause fuel step; return true : Eval Bool) st)
      fun _ _ => True := by
  refine (stmts_yields typed hbody).bind ?_
  intro st₁ _ typed₁ _ _
  refine (clause_yields typed₁ hstep).bind ?_
  intro st₂ _ typed₂ _ _
  exact .gives typed₂ trivial

/-- A turn of a loop that asks afterwards. -/
theorem askedAfter_yields {fuel : Nat} {body : List Core.Stmt} {cond : Core.Expr}
    (hbody : ∀ s ∈ body, Keeps L fuel s) (hcond : Core.Condition L cond) (typed : st.Typed L) :
    Yields L st ((do stmts fuel body; condition cond : Eval Bool) st) fun _ _ => True := by
  refine (stmts_yields typed hbody).bind ?_
  intro st' _ typed' _ _
  exact condition_yields typed' hcond

theorem stmt_keeps (fuel : Nat) {s : Core.Stmt} (hs : s.Typed L) : Keeps L fuel s := by
  induction hs with
  | declare place => exact fun st typed => .gives typed trivial
  | init hs => exact fun st typed => assign_yields typed hs
  | assign hs => exact fun st typed => assign_yields typed hs
  | setElement array index value atype itype etype =>
    intro st typed
    refine (expr_sound array st typed).bind ?_
    intro st₁ a typed₁ _ ha
    refine (expr_sound index st₁ typed₁).bind ?_
    intro st₂ i typed₂ grows₂ hi
    refine (locate_yields typed₂ (atype ▸ ha.mono grows₂) (itype ▸ hi)).bind ?_
    intro st₃ found typed₃ _ hfound
    refine (expr_sound value st₃ typed₃).bind ?_
    intro st₄ v typed₄ grows₄ hv
    exact writeElement_yields typed₄ (hfound.mono grows₄) (etype ▸ hv)
  | call args types =>
    intro st typed
    refine (exprs_yields typed fun e he => expr_sound (args e he)).bind ?_
    intro st₁ vs typed₁ _ hvs
    refine (call_yields typed₁ (types ▸ hvs)).bind ?_
    intro st₂ _ typed₂ _ _
    exact .gives typed₂ trivial
  | eval value =>
    intro st typed
    rw [stmt_eval typed fuel value]
    refine (expr_sound value st typed).bind ?_
    intro st' v typed' _ _
    exact .gives typed' trivial
  | printText newline value _ =>
    intro st typed
    refine (expr_sound value st typed).bind ?_
    intro st' v typed' _ _
    exact print_yields typed' newline
  | printInt newline value _ =>
    intro st typed
    refine (expr_sound value st typed).bind ?_
    intro st' v typed' _ _
    exact print_yields typed' newline
  | branch condition _ _ hyes hno =>
    intro st typed
    refine (condition_yields typed condition).bind ?_
    intro st' b typed' _ _
    cases b with
    | true => exact stmts_yields typed' hyes
    | false => exact stmts_yields typed' hno
  | loopWhile condition _ hbody =>
    intro st typed
    refine .repeatWhile ?_ fuel typed
    intro st typed
    exact turn_yields (condition_yields typed condition) fun st typed => body_yields hbody typed
  | doWhile _ condition hbody =>
    intro st typed
    exact .repeatWhile (fun st typed => askedAfter_yields hbody condition typed) fuel typed
  | loopFor _ condition _ _ hinit hbody hstep =>
    intro st typed
    refine (clause_yields typed hinit).bind ?_
    intro st' _ typed' _ _
    refine .repeatWhile ?_ fuel typed'
    intro st typed
    exact turn_yields (guard_yields typed condition) fun st typed =>
      bodyThenStep_yields hbody hstep typed

end Resolved

end TinyScript.Meaning
