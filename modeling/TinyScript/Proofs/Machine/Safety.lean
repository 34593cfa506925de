import TinyScript.Proofs.Machine.Memory
import TinyScript.Proofs.Machine.Steps
import TinyScript.Proofs.Meaning.Source

/-! What it means for a state of a run to be safe. Slots are known by the places
they stand for: a cell of a declared type, or a storage of an array literal. A
state is sound if every array it holds is the whole of one storage, with every
cell of that storage written; a temporary may also be an array that is only half
put together. A state is safe if it is sound, if the step it is about to take
stays within the storages, and if it can end only in the ways a program may. -/

namespace TinyScript.Machine

open Ir
open Meaning (Place maxLength)

variable {m : Module} {L : List Place}

/-! ### Values -/

/-- A value of a type of the program. -/
inductive Whole (L : List Place) (mem : Memory) : TinyScript.Ty → Value → Prop
  | int (n : Int32) : Whole L mem .i32 (.int n)
  | bool (b : Bool) : Whole L mem .bool (.bool b)
  | double (d : Number.Double) : Whole L mem .f64 (.double d)
  | str (b : Text.Bytes) : Whole L mem .str (.str b)
  | array {k n : Nat} {elem : TinyScript.Ty} (place : L[k]? = some (.storage elem n))
      (written : ∀ i : Nat, i < n → (mem.read? ⟨k, i⟩).isSome) :
      Whole L mem (.array elem) (.slice (some ⟨k, 0⟩) (some (Int32.ofNat n)))

/-- Cells that were written in one memory were written in the other. -/
def Memory.Covers (mem mem' : Memory) : Prop := ∀ a, (mem.read? a).isSome → (mem'.read? a).isSome

theorem Memory.covers_write (mem : Memory) (a : Address) (v : Value) :
    mem.Covers (mem.write a v) := fun _ h => isSome_read?_write h

theorem Memory.covers_writeInts (mem : Memory) (a : Address) (xs : List Int32) :
    mem.Covers (mem.writeInts a xs) := fun _ h => isSome_read?_writeInts h

theorem Whole.mono {mem mem' : Memory} (covers : mem.Covers mem') {t : TinyScript.Ty} {v : Value}
    (h : Whole L mem t v) : Whole L mem' t v := by
  cases h with
  | int n => exact .int n
  | bool b => exact .bool b
  | double d => exact .double d
  | str b => exact .str b
  | array place written => exact .array place fun i hi => covers _ (written i hi)

/-- What an instruction may give: an array is whole, or has no length yet. -/
def Temporary (L : List Place) (mem : Memory) : Value → Prop
  | .slice data length => (∃ elem, Whole L mem (.array elem) (.slice data length)) ∨
      ∃ k elem n, L[k]? = some (.storage elem n) ∧ data = some ⟨k, 0⟩ ∧ length = none
  | _ => True

theorem Whole.temporary {mem : Memory} {t : TinyScript.Ty} {v : Value} (h : Whole L mem t v) :
    Temporary L mem v := by
  cases h with
  | int n => trivial
  | bool b => trivial
  | double d => trivial
  | str b => trivial
  | array place written => exact .inl ⟨_, .array place written⟩

theorem Temporary.mono {mem mem' : Memory} (covers : mem.Covers mem') {v : Value}
    (h : Temporary L mem v) : Temporary L mem' v := by
  cases v with
  | slice data length =>
    rcases h with ⟨elem, h⟩ | h
    · exact .inl ⟨elem, h.mono covers⟩
    · exact .inr h
  | int n => trivial
  | bool b => trivial
  | double d => trivial
  | str b => trivial
  | address a => trivial

/-! ### Sound states -/

/-- What a place may hold. -/
def Memory.Accepts (L : List Place) (mem : Memory) (a : Address) (v : Value) : Prop :=
  (∃ t, L[a.slot]? = some (.cell t) ∧ a.offset = 0 ∧ Whole L mem t v) ∨
    ∃ elem n, L[a.slot]? = some (.storage elem n) ∧ Whole L mem elem v

structure Memory.Sound (L : List Place) (mem : Memory) : Prop where
  cells : ∀ {k : Nat} {t : TinyScript.Ty} {v : Value}, L[k]? = some (.cell t) →
    mem.read? ⟨k, 0⟩ = some v → Whole L mem t v
  storages : ∀ {a : Address} {elem : TinyScript.Ty} {n : Nat} {v : Value},
    L[a.slot]? = some (.storage elem n) → mem.read? a = some v → Whole L mem elem v

theorem Memory.Sound.write {mem : Memory} (sound : mem.Sound L) {a : Address} {v : Value}
    (h : mem.Accepts L a v) : (mem.write a v).Sound L := by
  have covers := mem.covers_write a v
  have here : ∀ {w}, (mem.write a v).read? a = some w → w = v := by
    intro w hw
    have hcell := contains_of_read? hw
    rw [contains_write] at hcell
    rw [read?_write_self hcell] at hw
    exact (Option.some.inj hw).symm
  refine ⟨?_, ?_⟩
  · intro k t w hk hw
    by_cases hka : (⟨k, 0⟩ : Address) = a
    · subst hka
      rw [here hw]
      rcases h with ⟨t', ht', _, hv⟩ | ⟨elem, n, hn, _⟩
      · rw [hk] at ht'
        cases ht'
        exact hv.mono covers
      · rw [hk] at hn
        cases hn
    · rw [read?_write_of_ne hka] at hw
      exact (sound.cells hk hw).mono covers
  · intro b elem n w hb hw
    by_cases hba : b = a
    · subst hba
      rw [here hw]
      rcases h with ⟨t', ht', _, _⟩ | ⟨elem', n', hn, hv⟩
      · rw [hb] at ht'
        cases ht'
      · rw [hb] at hn
        cases hn
        exact hv.mono covers
    · rw [read?_write_of_ne hba] at hw
      exact (sound.storages hb hw).mono covers

theorem Memory.Sound.writeInts {mem : Memory} (sound : mem.Sound L) {a : Address} {n : Nat}
    (h : L[a.slot]? = some (.storage .i32 n)) (xs : List Int32) :
    (mem.writeInts a xs).Sound L := by
  induction xs generalizing mem a with
  | nil => exact sound
  | cons x xs ih => exact ih (sound.write (.inr ⟨.i32, n, h, .int x⟩)) h

structure Sound (L : List Place) (s : State) : Prop where
  memory : s.memory.Sound L
  results : ∀ {id : Nat} {v : Value}, s.results[id]? = some (some v) → Temporary L s.memory v

theorem Sound.congr {s s' : State} (h : Sound L s) (hmemory : s'.memory = s.memory)
    (hresults : s'.results = s.results) : Sound L s' := by
  refine ⟨hmemory ▸ h.memory, ?_⟩
  intro id v hv
  rw [hresults] at hv
  rw [hmemory]
  exact h.results hv

theorem Sound.withMemory {s : State} (h : Sound L s) {mem : Memory} (hmem : mem.Sound L)
    (covers : s.memory.Covers mem) : Sound L { s with memory := mem } :=
  ⟨hmem, fun hv => (h.results hv).mono covers⟩

theorem Sound.record {s : State} (h : Sound L s) {v : Value} (hv : Temporary L s.memory v)
    (id : Option Nat) : Sound L (record s id (some v)) := by
  cases id with
  | none => exact h
  | some id =>
    refine ⟨h.memory, ?_⟩
    intro j w hw
    change (s.results.setIfInBounds id (some v))[j]? = some (some w) at hw
    rw [Array.getElem?_setIfInBounds] at hw
    by_cases hj : id = j
    · rw [if_pos hj] at hw
      split at hw
      · cases hw
        exact hv
      · cases hw
    · rw [if_neg hj] at hw
      exact h.results hw

/-! ### Safe states -/

/-- An instruction of the module with a result. -/
def Defines (m : Module) (id : Nat) (op : Op) : Prop :=
  ∃ block ∈ m.main.blocks, (⟨some id, op⟩ : Instr) ∈ block.body

/-- An address computed from the data of an array, and not from a slot. -/
def Through (m : Module) (address : Operand) : Prop :=
  ∃ id t elem base t' index slice, address = .result id t ∧
    Defines m id (.elementAddress elem (.result base t') index) ∧
    Defines m base (.extract slice .data)

/-- What is passed to the library. The address and the length of an array are those
of a storage, all of whose cells hold integers. -/
def Passed (L : List Place) (mem : Memory) : List TinyScript.Ty → List Value → Prop
  | [], [] => True
  | .array .i32 :: params, .address a :: .int n :: vs =>
    (∃ k size, a = ⟨k, 0⟩ ∧ L[k]? = some (.storage .i32 size) ∧ n = Int32.ofNat size ∧
      ∀ i : Nat, i < size → ∃ x, mem.read? ⟨k, i⟩ = some (.int x)) ∧ Passed L mem params vs
  | .i32 :: params, .int _ :: vs => Passed L mem params vs
  | .f64 :: params, .double _ :: vs => Passed L mem params vs
  | .str :: params, .str _ :: vs => Passed L mem params vs
  | _, _ => False

/-- What an operation may do. Loads and stores of elements stay within a storage and
find it written, except that a literal writes its own elements for the first time;
an index is compared with the length of a storage, and the run ends because of it
exactly if it is out of range; the library gets whole arrays, and gives back as many
elements as fit. -/
def Allowed (m : Module) (L : List Place) (s : State) : Op → Prop
  | .load type p => ∃ a, operand? m s p = some (.address a) ∧
      ((∃ t, L[a.slot]? = some (.cell t) ∧ a.offset = 0 ∧ type = .ofSource t) ∨
        ∃ elem n v, L[a.slot]? = some (.storage elem n) ∧ type = .ofSource elem ∧
          0 ≤ a.offset ∧ a.offset < n ∧ s.memory.read? a = some v ∧ Whole L s.memory elem v)
  | .store v p => ∃ a w, operand? m s p = some (.address a) ∧ operand? m s v = some w ∧
      s.memory.Accepts L a w ∧
      ∀ elem n, L[a.slot]? = some (.storage elem n) → n ≤ maxLength →
        0 ≤ a.offset ∧ a.offset < n ∧ (Through m p → (s.memory.read? a).isSome)
  | .icmp .ult a b => ∃ (i : Int32) (k : Nat) (elem : TinyScript.Ty) (n : Nat),
      operand? m s a = some (.int i) ∧ operand? m s b = some (.int (Int32.ofNat n)) ∧
      L[k]? = some (.storage elem n) ∧
      ((∃ s', run m 3 s = some (.outOfBounds i (Int32.ofNat n), s')) ↔
        ¬(0 ≤ i.toInt ∧ i.toInt < n))
  | .call .boundsFail args => ∃ (i : Int32) (k : Nat) (elem : TinyScript.Ty) (n : Nat),
      L[k]? = some (.storage elem n) ∧
      args.mapM (operand? m s) = some [.int i, .int (Int32.ofNat n)] ∧
      ¬(0 ≤ i.toInt ∧ i.toInt < n)
  | .call (.library f) args => ∃ vs, args.mapM (operand? m s) = some vs ∧
      Passed L s.memory f.signature.params vs ∧
      ∀ call a w r ys, callLibrary? s f vs = some (.call call (some a) w, r) →
        call.array = some ys →
        ∃ n, L[a.slot]? = some (.storage .i32 n) ∧ a.offset = 0 ∧ ys.length ≤ n
  | _ => True

/-- A state about to read a variable that was never written. -/
def ReadsUnwritten (L : List Place) (s : State) : Prop :=
  ∃ id t k rest, s.body = ⟨id, .load (.ofSource t) (.slot k (.ofSource t))⟩ :: rest ∧
    L[k]? = some (.cell t) ∧ s.memory.read? ⟨k, 0⟩ = none

/-- How a run may end. -/
inductive Permitted (L : List Place) (s : State) : Ending → State → Prop
  | returned (s' : State) : Permitted L s (.returned 0) s'
  | fault (s' : State) : Permitted L s .fault s'
  /-- An index that is not one of a storage. -/
  | outOfBounds {k n : Nat} {elem : TinyScript.Ty} (place : L[k]? = some (.storage elem n))
      (i : Int32) (outside : ¬(0 ≤ i.toInt ∧ i.toInt < n)) :
      Permitted L s (.outOfBounds i (Int32.ofNat n))
        { s with calls := s.calls.push (boundsCall i (Int32.ofNat n)) }
  | unwritten (h : ReadsUnwritten L s) (s' : State) : Permitted L s .stuck s'
  /-- An array literal with more elements than an index can tell apart. -/
  | tooLong {k n : Nat} {elem : TinyScript.Ty} (place : L[k]? = some (.storage elem n))
      (long : maxLength < n) (s' : State) : Permitted L s .stuck s'

structure Safe (m : Module) (L : List Place) (s : State) : Prop where
  sound : Sound L s
  allowed : ∀ i rest, s.body = i :: rest → Allowed m L s i.op
  ends : ∀ e s', step m s = .halt e s' → Permitted L s e s'

/-- A state that goes on is safe if it is sound and its operation allowed. -/
theorem Sound.safe {s s' : State} (h : Sound L s) (next : step m s = .next s')
    (allowed : ∀ i rest, s.body = i :: rest → Allowed m L s i.op) : Safe m L s := by
  refine ⟨h, allowed, ?_⟩
  intro e s'' hhalt
  rw [next] at hhalt
  cases hhalt

end TinyScript.Machine
