import TinyScript.Ir.Assembler

/-! A module under construction, as it is easier to argue about. The slots are kept beside
the blocks, and a block is put aside when it is ended, so whatever building does, it adds
at one end of a list. Whoever builds a module this way builds what an assembler builds. -/

namespace TinyScript.Ir

structure Builder where
  hints : List String
  slots : List Slot
  symbols : List Symbol
  /-- The finished blocks, the latest first. -/
  finished : List Block
  /-- The open block. -/
  block : Nat
  /-- Its instructions, the latest first. -/
  body : List Instr
  deriving DecidableEq, Repr

namespace Builder

/-- A module with nothing in it but its open entry block, which has number
zero. -/
def start : Builder := ⟨["entry"], [], [], [], 0, []⟩

abbrev Build := StateM Builder

/-- A symbol's index, after adding it if it is new. -/
def intern (s : Symbol) : Build Nat :=
  modifyGet fun b =>
    match b.symbols.idxOf? s with
    | some k => (k, b)
    | none => (b.symbols.length, { b with symbols := b.symbols ++ [s] })

@[default_instance]
instance : MonadAssemble Build where
  create hint :=
    modifyGet fun b => (b.hints.length, { b with hints := b.hints ++ [cutHint hint] })
  emit hint type op :=
    modifyGet fun b => (.result b.hints.length type,
      { b with
        hints := b.hints ++ [cutHint hint]
        body := ⟨some b.hints.length, op⟩ :: b.body })
  emitVoid op := modify fun b => { b with body := ⟨none, op⟩ :: b.body }
  endBlock terminator next := modify fun b =>
    { b with
      finished := ⟨b.block, b.body.reverse, terminator⟩ :: b.finished
      block := next
      body := [] }
  addSlot hint type := modify fun b =>
    { b with
      hints := b.hints ++ [cutHint hint]
      slots := b.slots ++ [⟨b.hints.length, type⟩] }
  text value := do return .text (← intern (.text value))
  declare f := do let _ ← intern (.function f.declaration)

export MonadAssemble (create emit emitVoid endBlock addSlot text declare)

theorem text_eq (value : String) :
    (text value : Build Operand) = intern (.text value) >>= fun k => pure (.text k) := rfl

theorem declare_eq (f : External) :
    (declare f : Build Unit) = intern (.function f.declaration) >>= fun _ => pure () := rfl

/-- The blocks in the order of their creation, the open one ended. -/
def blocks (b : Builder) (terminator : Terminator) : List Block :=
  (⟨b.block, b.body.reverse, terminator⟩ :: b.finished).mergeSort fun x y => x.id ≤ y.id

theorem blocks_perm (b : Builder) (t : Terminator) :
    (b.blocks t).Perm (⟨b.block, b.body.reverse, t⟩ :: b.finished) := List.mergeSort_perm _ _

theorem blocks_ordered (b : Builder) (t : Terminator) :
    (b.blocks t).Pairwise fun x y => x.id ≤ y.id := by
  refine (List.pairwise_mergeSort ?_ ?_ _).imp fun hle => of_decide_eq_true hle
  · intro x y z hxy hyz
    rw [decide_eq_true_iff] at hxy hyz ⊢
    exact Nat.le_trans hxy hyz
  · intro x y
    rw [Bool.or_eq_true, decide_eq_true_iff, decide_eq_true_iff]
    exact Nat.le_total _ _

/-- The blocks in the order in which they were ended, the open one last. -/
def written (b : Builder) (terminator : Terminator) : List Block :=
  b.finished.reverse ++ [⟨b.block, b.body.reverse, terminator⟩]

theorem written_perm (b : Builder) (terminator : Terminator) :
    (b.written terminator).Perm (b.blocks terminator) := by
  have hreverse := List.reverse_perm (⟨b.block, b.body.reverse, terminator⟩ :: b.finished)
  rw [List.reverse_cons] at hreverse
  exact hreverse.trans (b.blocks_perm terminator).symm

end Builder

end TinyScript.Ir
