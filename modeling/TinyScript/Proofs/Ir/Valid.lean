import Mathlib.Data.List.Induction
import Mathlib.Data.List.Nodup
import Mathlib.Tactic.Tauto
import TinyScript.Proofs.Ir.Stage
import TinyScript.Proofs.Ir.WellFormed

/-! Builders on the way to well-formed modules. Every block that is created comes
with a promise: which results may be used in it from its beginning. A branch keeps
the promise of its targets if what they promise was promised to, or computed in, the
block it ends. Promises are made once, so whoever created a block and promised
nothing may branch to it from anywhere. In the finished module a promise that every
branch keeps is one that every walk keeps, and that is dominance. -/

namespace TinyScript.Ir.Builder

open List (Perm)

/-! ### Known results -/

/-- Results that may be used, with their types. -/
abbrev Known := Nat → Ty → Prop

/-- The results of instructions. -/
def given (is : List Instr) : Known := fun id t =>
  ∃ op, (⟨some id, op⟩ : Instr) ∈ is ∧ op.result = t

def also (K K' : Known) : Known := fun id t => K id t ∨ K' id t

theorem given.mono {is js : List Instr} (h : ∀ i ∈ is, i ∈ js) {id : Nat} {t : Ty}
    (hgiven : given is id t) : given js id t := by
  obtain ⟨op, hmem, hop⟩ := hgiven
  exact ⟨op, h _ hmem, hop⟩

/-- What an operand stands for is there, results being known. -/
def Usable (m : Module) (K : Known) : Operand → Prop
  | .result id t => K id t
  | .slot k t => ∃ s, m.main.slots[k]? = some s ∧ s.type = t
  | .text k => ∃ s, m.symbols[k]? = some (.text s)
  | .undef t => ∃ elem, t = .slice elem
  | .int _ | .bool _ | .double _ => True

theorem Usable.mono {m : Module} {K K' : Known} (h : ∀ id t, K id t → K' id t) {o : Operand}
    (ho : Usable m K o) : Usable m K' o := by
  cases o with
  | result id t => exact h id t ho
  | _ => exact ho

/-- Instructions, the latest first, that use what is known or came before. -/
def Fits (m : Module) (K : Known) : List Instr → Prop
  | [] => True
  | i :: is => Fits m K is ∧ i.Typed m ∧ ∀ o ∈ i.op.operands, Usable m (also K (given is)) o

theorem Fits.congr {m : Module} {K K' : Known} (h : K = K') {is : List Instr}
    (hfits : Fits m K is) : Fits m K' is := h ▸ hfits

/-! ### Spots -/

/-- A builder with the promises made so far, and the blocks that were created and
not opened yet. -/
structure Spot where
  promise : Nat → Known
  pending : List Nat
  builder : Builder

namespace Spot

variable {m : Module} {q : Spot}

/-- What may be used at the end of the open block. -/
def ready (q : Spot) : Known := also (q.promise q.builder.block) (given q.builder.body)

/-- The blocks there are, finished or not. -/
def ids (q : Spot) : List Nat := q.builder.block :: (q.builder.finished.map Block.id ++ q.pending)

def instrs (q : Spot) : List Instr := q.builder.body ++ q.builder.finished.flatMap Block.body

end Spot

/-- A finished block is in order. -/
structure Closed (m : Module) (promise : Nat → Known) (ids : List Nat) (f : Block) : Prop where
  body : Fits m (promise f.id) f.body.reverse
  terminator : f.terminator.Typed
  operands : ∀ o ∈ f.terminator.operands, Usable m (also (promise f.id) (given f.body)) o
  targets : ∀ t ∈ f.terminator.targets, t ∈ ids ∧ t ≠ 0 ∧
    ∀ id type, promise t id type → also (promise f.id) (given f.body) id type

structure Spot.Valid (m : Module) (q : Spot) : Prop where
  ids : q.ids.Nodup
  below : ∀ k ∈ q.ids, k < q.builder.hints.length
  entry : 0 ∈ q.ids ∧ 0 ∉ q.pending
  first : ∀ id t, ¬q.promise 0 id t
  results : (q.instrs.filterMap Instr.id).Nodup
  resultsBelow : ∀ id ∈ q.instrs.filterMap Instr.id, id < q.builder.hints.length
  promised : ∀ k id t, q.promise k id t → given q.instrs id t
  fits : Fits m (q.promise q.builder.block) q.builder.body
  closed : ∀ f ∈ q.builder.finished, Closed m q.promise q.ids f
  noReturn : ∀ f ∈ q.builder.finished, f.terminator.returned? = none

/-- What is ready was computed somewhere. -/
theorem Spot.Valid.given_of_ready {m : Module} {q : Spot} (h : q.Valid m) {id : Nat} {t : Ty}
    (hready : q.ready id t) : given q.instrs id t := by
  rcases hready with hpromise | hgiven
  · exact h.promised _ id t hpromise
  · exact hgiven.mono fun i hi => List.mem_append_left _ hi

/-! ### What building does -/

section Steps

variable {m : Module} {q : Spot}

/-- Only names, slots or symbols were added. -/
theorem Spot.Valid.grow (h : q.Valid m) {b : Builder} (hblock : b.block = q.builder.block)
    (hbody : b.body = q.builder.body) (hfinished : b.finished = q.builder.finished)
    (hhints : q.builder.hints.length ≤ b.hints.length) :
    Spot.Valid m { q with builder := b } := by
  have hids : Spot.ids { q with builder := b } = q.ids := by
    simp only [Spot.ids, hblock, hfinished]
  have hinstrs : Spot.instrs { q with builder := b } = q.instrs := by
    simp only [Spot.instrs, hbody, hfinished]
  refine ⟨?_, ?_, ?_, h.first, ?_, ?_, ?_, ?_, ?_, ?_⟩
  · rw [hids]
    exact h.ids
  · intro k hk
    rw [hids] at hk
    exact Nat.lt_of_lt_of_le (h.below k hk) hhints
  · rw [hids]
    exact h.entry
  · rw [hinstrs]
    exact h.results
  · intro id hid
    rw [hinstrs] at hid
    exact Nat.lt_of_lt_of_le (h.resultsBelow id hid) hhints
  · rw [hinstrs]
    exact h.promised
  · show Fits m (q.promise b.block) b.body
    rw [hblock, hbody]
    exact h.fits
  · intro f hf
    rw [hids]
    exact h.closed f (hfinished ▸ hf)
  · intro f hf
    exact h.noReturn f (hfinished ▸ hf)

/-- An instruction at the end of the open block. -/
theorem Spot.Valid.push (h : q.Valid m) {b : Builder} {i : Instr}
    (hblock : b.block = q.builder.block) (hbody : b.body = i :: q.builder.body)
    (hfinished : b.finished = q.builder.finished)
    (hhints : q.builder.hints.length ≤ b.hints.length)
    (hid : ∀ k, i.id = some k → q.builder.hints.length ≤ k ∧ k < b.hints.length)
    (htyped : i.Typed m) (hoperands : ∀ o ∈ i.op.operands, Usable m q.ready o) :
    Spot.Valid m { q with builder := b } := by
  have hids : Spot.ids { q with builder := b } = q.ids := by
    simp only [Spot.ids, hblock, hfinished]
  have hinstrs : Spot.instrs { q with builder := b } = i :: q.instrs := by
    simp only [Spot.instrs, hbody, hfinished, List.cons_append]
  refine ⟨?_, ?_, ?_, h.first, ?_, ?_, ?_, ?_, ?_, ?_⟩
  · rw [hids]
    exact h.ids
  · intro k hk
    rw [hids] at hk
    exact Nat.lt_of_lt_of_le (h.below k hk) hhints
  · rw [hids]
    exact h.entry
  · rw [hinstrs, List.filterMap_cons]
    cases hi : i.id with
    | none => exact h.results
    | some k =>
      refine List.nodup_cons.2 ⟨?_, h.results⟩
      intro hmem
      have hlt := h.resultsBelow k hmem
      have hge := (hid k hi).1
      omega
  · intro id hmem
    rw [hinstrs, List.mem_filterMap] at hmem
    obtain ⟨j, hj, hjid⟩ := hmem
    rcases List.mem_cons.1 hj with rfl | hj
    · exact (hid id hjid).2
    · exact Nat.lt_of_lt_of_le (h.resultsBelow id (List.mem_filterMap.2 ⟨j, hj, hjid⟩)) hhints
  · intro k id t hpromise
    rw [hinstrs]
    exact (h.promised k id t hpromise).mono fun j hj => List.mem_cons_of_mem _ hj
  · show Fits m (q.promise b.block) b.body
    rw [hblock, hbody]
    exact ⟨h.fits, htyped, hoperands⟩
  · intro f hf
    rw [hids]
    exact h.closed f (hfinished ▸ hf)
  · intro f hf
    exact h.noReturn f (hfinished ▸ hf)

/-- The order of what is pending does not matter. -/
theorem Spot.Valid.perm (h : q.Valid m) {pending : List Nat} (hperm : q.pending.Perm pending) :
    Spot.Valid m { q with pending } := by
  have hids : q.ids.Perm (Spot.ids { q with pending }) := (hperm.append_left _).cons _
  refine ⟨hids.nodup_iff.1 h.ids, ?_, ?_, h.first, h.results, h.resultsBelow, h.promised, h.fits, ?_,
    h.noReturn⟩
  · exact fun k hk => h.below k (hids.mem_iff.2 hk)
  · exact ⟨hids.mem_iff.1 h.entry.1, fun hmem => h.entry.2 (hperm.mem_iff.2 hmem)⟩
  · intro f hf
    have hclosed := h.closed f hf
    refine ⟨hclosed.body, hclosed.terminator, hclosed.operands, ?_⟩
    intro t ht
    obtain ⟨hmem, hne, hkeeps⟩ := hclosed.targets t ht
    exact ⟨hids.mem_iff.1 hmem, hne, hkeeps⟩

/-- A new block is created with a promise. -/
def Spot.create (q : Spot) (promise : Known) (hint : String) : Spot :=
  ⟨fun k => if k = q.builder.hints.length then promise else q.promise k,
    q.builder.hints.length :: q.pending, ((Builder.create hint).run q.builder).2⟩

theorem Spot.create_promise (q : Spot) (promise : Known) (hint : String) {k : Nat}
    (hk : k < q.builder.hints.length) : (q.create promise hint).promise k = q.promise k :=
  if_neg (Nat.ne_of_lt hk)

theorem Spot.create_new (q : Spot) (promise : Known) (hint : String) :
    (q.create promise hint).promise q.builder.hints.length = promise := if_pos rfl

theorem Spot.create_length (q : Spot) (promise : Known) (hint : String) :
    (q.create promise hint).builder.hints.length = q.builder.hints.length + 1 :=
  List.length_append

theorem Spot.Valid.create (h : q.Valid m) {promise : Known}
    (hpromise : ∀ id t, promise id t → given q.instrs id t) (hint : String) :
    (q.create promise hint).Valid m := by
  have hids : (q.builder.hints.length :: q.ids).Perm (q.create promise hint).ids := by
    refine (List.Perm.swap _ _ _).trans (.cons _ ?_)
    exact List.perm_middle.symm
  have hold : ∀ k ∈ q.ids, (q.create promise hint).promise k = q.promise k :=
    fun k hk => q.create_promise promise hint (h.below k hk)
  have hlength := q.create_length promise hint
  have hpos : 0 < q.builder.hints.length := h.below 0 h.entry.1
  have hopen : q.builder.block ∈ q.ids := List.mem_cons_self
  refine ⟨?_, ?_, ⟨?_, ?_⟩, ?_, h.results, ?_, ?_, ?_, ?_, h.noReturn⟩
  · refine hids.nodup_iff.1 (List.nodup_cons.2 ⟨?_, h.ids⟩)
    intro hmem
    exact Nat.lt_irrefl _ (h.below _ hmem)
  · intro k hk
    rw [hlength]
    rcases List.mem_cons.1 (hids.mem_iff.2 hk) with rfl | hk
    · exact Nat.lt_succ_self _
    · exact Nat.lt_succ_of_lt (h.below k hk)
  · exact hids.mem_iff.1 (List.mem_cons_of_mem _ h.entry.1)
  · intro hmem
    rcases List.mem_cons.1 hmem with hzero | hmem
    · omega
    · exact h.entry.2 hmem
  · intro id t
    rw [q.create_promise promise hint hpos]
    exact h.first id t
  · intro id hid
    rw [hlength]
    exact Nat.lt_succ_of_lt (h.resultsBelow id hid)
  · intro k id t hk
    change (if k = q.builder.hints.length then promise else q.promise k) id t at hk
    by_cases hnew : k = q.builder.hints.length
    · rw [if_pos hnew] at hk
      exact hpromise id t hk
    · rw [if_neg hnew] at hk
      exact h.promised k id t hk
  · exact h.fits.congr (hold _ hopen).symm
  · intro f hf
    have hclosed := h.closed f hf
    have hmem : f.id ∈ q.ids :=
      List.mem_cons_of_mem _ (List.mem_append_left _ (List.mem_map_of_mem hf))
    refine ⟨?_, hclosed.terminator, ?_, ?_⟩
    · exact hclosed.body.congr (hold _ hmem).symm
    · rw [hold _ hmem]
      exact hclosed.operands
    · intro t ht
      obtain ⟨htmem, hne, hkeeps⟩ := hclosed.targets t ht
      refine ⟨hids.mem_iff.1 (List.mem_cons_of_mem _ htmem), hne, ?_⟩
      rw [hold _ htmem, hold _ hmem]
      exact hkeeps

theorem Spot.Valid.create_ready (h : q.Valid m) (promise : Known) (hint : String) :
    (q.create promise hint).ready = q.ready := by
  have hblock := q.create_promise promise hint (h.below _ List.mem_cons_self)
  show also ((q.create promise hint).promise q.builder.block) (given q.builder.body) = _
  rw [hblock]
  rfl

/-- The open block is ended, and the next pending one opened. -/
def Spot.endBlock (q : Spot) (terminator : Terminator) (next : Nat) (pending : List Nat) : Spot :=
  ⟨q.promise, pending, ((Builder.endBlock terminator next).run q.builder).2⟩

theorem Spot.Valid.endBlock (h : q.Valid m) {terminator : Terminator} {next : Nat}
    {pending : List Nat} (hpending : q.pending = next :: pending) (htyped : terminator.Typed)
    (hoperands : ∀ o ∈ terminator.operands, Usable m q.ready o)
    (htargets : ∀ t ∈ terminator.targets, t ∈ q.ids ∧ t ≠ 0)
    (hkeeps : ∀ t ∈ terminator.targets, ∀ id type, q.promise t id type → q.ready id type)
    (hreturn : terminator.returned? = none) : (q.endBlock terminator next pending).Valid m := by
  have hids : q.ids.Perm (q.endBlock terminator next pending).ids := by
    show (q.builder.block :: (q.builder.finished.map Block.id ++ q.pending)).Perm
      (next :: (q.builder.block :: q.builder.finished.map Block.id ++ pending))
    rw [hpending]
    exact (List.perm_middle.cons _).trans (.swap _ _ _)
  have hinstrs : q.instrs.Perm (q.endBlock terminator next pending).instrs := by
    show (q.builder.body ++ q.builder.finished.flatMap Block.body).Perm
      ([] ++ (q.builder.body.reverse ++ q.builder.finished.flatMap Block.body))
    exact (List.reverse_perm _).symm.append_right _
  have hgiven : ∀ id t, given q.builder.body id t → given q.builder.body.reverse id t :=
    fun id t hid => hid.mono fun i hi => List.mem_reverse.2 hi
  have hready : ∀ id t, q.ready id t →
      also (q.promise q.builder.block) (given q.builder.body.reverse) id t :=
    fun id t hid => hid.imp_right (hgiven id t)
  refine ⟨hids.nodup_iff.1 h.ids, fun k hk => h.below k (hids.mem_iff.2 hk), ⟨?_, ?_⟩, h.first,
    (hinstrs.filterMap _).nodup_iff.1 h.results, ?_, ?_, trivial, ?_, ?_⟩
  · exact hids.mem_iff.1 h.entry.1
  · intro hmem
    exact h.entry.2 (hpending ▸ List.mem_cons_of_mem _ hmem)
  · exact fun id hid => h.resultsBelow id ((hinstrs.filterMap _).mem_iff.2 hid)
  · exact fun k id t hk => (h.promised k id t hk).mono fun i hi => hinstrs.mem_iff.1 hi
  · intro f hf
    rcases List.mem_cons.1 hf with rfl | hf
    · refine ⟨?_, htyped, fun o ho => (hoperands o ho).mono hready, ?_⟩
      · show Fits m _ q.builder.body.reverse.reverse
        rw [List.reverse_reverse]
        exact h.fits
      · intro t ht
        obtain ⟨hmem, hne⟩ := htargets t ht
        exact ⟨hids.mem_iff.1 hmem, hne, fun id type hid => hready id type (hkeeps t ht id type hid)⟩
    · have hclosed := h.closed f hf
      refine ⟨hclosed.body, hclosed.terminator, hclosed.operands, ?_⟩
      intro t ht
      obtain ⟨hmem, hne, hk⟩ := hclosed.targets t ht
      exact ⟨hids.mem_iff.1 hmem, hne, hk⟩
  · intro f hf
    rcases List.mem_cons.1 hf with rfl | hf
    · exact hreturn
    · exact h.noReturn f hf

/-! ### Going on -/

/-- Blocks stay, and promises are kept. -/
structure Spot.Since (q q' : Spot) : Prop where
  hints : q.builder.hints.length ≤ q'.builder.hints.length
  promise : ∀ k, k < q.builder.hints.length → q'.promise k = q.promise k
  ids : ∀ k ∈ q.ids, k ∈ q'.ids

theorem Spot.Since.refl (q : Spot) : q.Since q := ⟨Nat.le_refl _, fun _ _ => rfl, fun _ h => h⟩

theorem Spot.Since.trans {q₁ q₂ q₃ : Spot} (h : q₁.Since q₂) (h' : q₂.Since q₃) :
    q₁.Since q₃ := by
  refine ⟨Nat.le_trans h.hints h'.hints, ?_, fun k hk => h'.ids k (h.ids k hk)⟩
  intro k hk
  rw [h'.promise k (Nat.lt_of_lt_of_le hk h.hints), h.promise k hk]

theorem Spot.since_create (q : Spot) (promise : Known) (hint : String) :
    q.Since (q.create promise hint) := by
  refine ⟨(create_grows hint).hints _, fun k hk => q.create_promise promise hint hk, ?_⟩
  intro k hk
  rcases List.mem_cons.1 hk with rfl | hk
  · exact List.mem_cons_self
  · refine List.mem_cons_of_mem _ ?_
    rcases List.mem_append.1 hk with hk | hk
    · exact List.mem_append_left _ hk
    · exact List.mem_append_right _ (List.mem_cons_of_mem _ hk)

theorem Spot.since_endBlock (q : Spot) (terminator : Terminator) {next : Nat} {pending : List Nat}
    (hpending : q.pending = next :: pending) : q.Since (q.endBlock terminator next pending) := by
  refine ⟨Nat.le_refl _, fun _ _ => rfl, ?_⟩
  intro k hk
  show k ∈ next :: (q.builder.block :: q.builder.finished.map Block.id ++ pending)
  rw [Spot.ids, hpending] at hk
  simp only [List.mem_cons, List.mem_append] at hk ⊢
  tauto

theorem Spot.since_perm (q : Spot) {pending : List Nat} (hperm : q.pending.Perm pending) :
    q.Since { q with pending } := by
  refine ⟨Nat.le_refl _, fun _ _ => rfl, ?_⟩
  intro k hk
  exact ((hperm.append_left _).cons _).mem_iff.1 hk

/-- A block that asks for nothing, so any other may lead to it. -/
structure Spot.Offers (q : Spot) (k : Nat) : Prop where
  mem : k ∈ q.ids
  ne : k ≠ 0
  free : ∀ id t, ¬q.promise k id t

theorem Spot.Offers.since {q q' : Spot} {k : Nat} (h : q.Offers k) (valid : q.Valid m)
    (since : q.Since q') : q'.Offers k := by
  refine ⟨since.ids k h.mem, h.ne, ?_⟩
  rw [since.promise k (valid.below k h.mem)]
  exact h.free

/-- A new block of which nothing is promised. -/
def Spot.free (q : Spot) (hint : String) : Spot := q.create (fun _ _ => False) hint

theorem Spot.Valid.free (h : q.Valid m) (hint : String) : (q.free hint).Valid m :=
  h.create (fun _ _ hfalse => hfalse.elim) hint

theorem Spot.Valid.offers_free (h : q.Valid m) (hint : String) :
    (q.free hint).Offers q.builder.hints.length := by
  have hpos : 0 < q.builder.hints.length := h.below 0 h.entry.1
  refine ⟨?_, by omega, ?_⟩
  · exact List.mem_cons_of_mem _ (List.mem_append_right _ List.mem_cons_self)
  · intro id t
    rw [Spot.free, q.create_new]
    exact not_false

theorem Spot.Valid.jump (h : q.Valid m) {target next : Nat} {pending : List Nat}
    (hpending : q.pending = next :: pending) (offers : q.Offers target) :
    (q.endBlock (.jump target) next pending).Valid m := by
  refine h.endBlock hpending trivial (fun o ho => (nomatch ho)) ?_ ?_ rfl
  · intro t ht
    rw [List.mem_singleton.1 ht]
    exact ⟨offers.mem, offers.ne⟩
  · intro t ht id type hid
    rw [List.mem_singleton.1 ht] at hid
    exact absurd hid (offers.free id type)

theorem Spot.Valid.branch (h : q.Valid m) {c : Operand} {yes no next : Nat} {pending : List Nat}
    (hpending : q.pending = next :: pending) (hc : Usable m q.ready c) (htype : c.type = .i1)
    (hyes : q.Offers yes) (hno : q.Offers no) :
    (q.endBlock (.branch c yes no) next pending).Valid m := by
  refine h.endBlock hpending htype ?_ ?_ ?_ rfl
  · intro o ho
    rw [List.mem_singleton.1 ho]
    exact hc
  · intro t ht
    rcases List.mem_pair.1 ht with rfl | rfl
    · exact ⟨hyes.mem, hyes.ne⟩
    · exact ⟨hno.mem, hno.ne⟩
  · intro t ht id type hid
    rcases List.mem_pair.1 ht with rfl | rfl
    · exact absurd hid (hyes.free id type)
    · exact absurd hid (hno.free id type)

end Steps

/-! ### Finished modules -/

/-- What is used in a body is known or came before in it. -/
theorem usable_of_fits {m : Module} {K : Known} {body : List Instr} (h : Fits m K body.reverse)
    {i : Nat} {instr : Instr} (hi : body[i]? = some instr) :
    instr.Typed m ∧ ∀ o ∈ instr.op.operands, Usable m (also K (given (body.take i))) o := by
  induction body using List.reverseRecOn with
  | nil => cases hi
  | append_singleton body last ih =>
    rw [List.reverse_append] at h
    obtain ⟨hrest, htyped, hlast⟩ := h
    rcases Nat.lt_trichotomy i body.length with hlt | rfl | hgt
    · rw [List.getElem?_append_left hlt] at hi
      rw [List.take_append_of_le_length (Nat.le_of_lt hlt)]
      exact ih hrest hi
    · rw [List.getElem?_concat_length] at hi
      cases hi
      refine ⟨htyped, fun o ho => (hlast o ho).mono ?_⟩
      intro id t hid
      rw [List.take_left]
      exact hid.imp_right fun hgiven => hgiven.mono fun j hj => List.mem_reverse.1 hj
    · have hlength : (body ++ [last]).length ≤ i := by
        rw [List.length_append]
        exact hgt
      rw [List.getElem?_eq_none hlength] at hi
      cases hi

section Finished

variable {m : Module} {promise : Nat → Known} {ids : List Nat}

theorem mem_of_walk {passed : List Block} {b : Block} (h : Walk m passed b) :
    b ∈ m.main.blocks ∧ ∀ d ∈ passed, d ∈ m.main.blocks := by
  induction h with
  | entry hentry => exact ⟨List.mem_of_head? hentry, fun d hd => (nomatch hd)⟩
  | step _ _ hblock ih =>
    refine ⟨hblock, ?_⟩
    intro d hd
    rcases List.mem_append.1 hd with hd | hd
    · exact ih.2 d hd
    · rw [List.mem_singleton.1 hd]
      exact ih.1

/-- A promise that every branch keeps is kept on every walk. -/
theorem walk_keeps (hfirst : ∀ e, m.main.blocks.head? = some e → ∀ id t, ¬promise e.id id t)
    (hclosed : ∀ f ∈ m.main.blocks, Closed m promise ids f) {passed : List Block} {b : Block}
    (h : Walk m passed b) {id : Nat} {t : Ty} (hpromise : promise b.id id t) :
    ∃ d ∈ passed, given d.body id t := by
  induction h with
  | entry hentry => exact absurd hpromise (hfirst _ hentry id t)
  | @step passed b b' before edge _ ih =>
    obtain ⟨_, _, hkeeps⟩ := (hclosed b (mem_of_walk before).1).targets _ edge
    rcases hkeeps id t hpromise with hbefore | hhere
    · obtain ⟨d, hd, hgiven⟩ := ih hbefore
      exact ⟨d, List.mem_append_left _ hd, hgiven⟩
    · exact ⟨b, List.mem_append_right _ List.mem_cons_self, hhere⟩

theorem op_unique {is : List Instr} (h : (is.filterMap Instr.id).Nodup) {id : Nat} {op op' : Op}
    (hop : (⟨some id, op⟩ : Instr) ∈ is) (hop' : (⟨some id, op'⟩ : Instr) ∈ is) : op = op' := by
  induction is with
  | nil => cases hop
  | cons i is ih =>
    have hmem : ∀ {op : Op}, (⟨some id, op⟩ : Instr) ∈ is → id ∈ is.filterMap Instr.id :=
      fun hop => List.mem_filterMap.2 ⟨_, hop, rfl⟩
    rw [List.filterMap_cons] at h
    rcases List.mem_cons.1 hop with hhere | hlater
    · subst hhere
      rcases List.mem_cons.1 hop' with hhere' | hlater'
      · cases hhere'
        rfl
      · exact absurd (hmem hlater') (List.nodup_cons.1 h).1
    · rcases List.mem_cons.1 hop' with hhere' | hlater'
      · subst hhere'
        exact absurd (hmem hlater) (List.nodup_cons.1 h).1
      · cases hi : i.id with
        | none =>
          rw [hi] at h
          exact ih h hlater hlater'
        | some k =>
          rw [hi] at h
          exact ih (List.nodup_cons.1 h).2 hlater hlater'

/-- A result comes from one instruction of one block. -/
theorem unique_of_nodup {blocks : List Block} (h : (blocks.flatMap Block.results).Nodup)
    {d d' : Block} (hd : d ∈ blocks) (hd' : d' ∈ blocks) {id : Nat} {op op' : Op}
    (hop : (⟨some id, op⟩ : Instr) ∈ d.body) (hop' : (⟨some id, op'⟩ : Instr) ∈ d'.body) :
    d = d' ∧ op = op' := by
  have hmem : ∀ {d : Block} {op : Op}, (⟨some id, op⟩ : Instr) ∈ d.body → id ∈ d.results :=
    fun hop => List.mem_filterMap.2 ⟨_, hop, rfl⟩
  have hsame : d = d' := by
    induction blocks with
    | nil => cases hd
    | cons c blocks ih =>
      rw [List.flatMap_cons, List.nodup_append'] at h
      have hapart : ∀ {d : Block}, id ∈ d.results → d ∈ blocks → id ∉ c.results :=
        fun hid hd hc => h.2.2 hc (List.mem_flatMap.2 ⟨_, hd, hid⟩)
      rcases List.mem_cons.1 hd with hfirst | hrest
      · rcases List.mem_cons.1 hd' with hfirst' | hrest'
        · rw [hfirst, hfirst']
        · exact absurd (hfirst ▸ hmem hop) (hapart (hmem hop') hrest')
      · rcases List.mem_cons.1 hd' with hfirst' | hrest'
        · exact absurd (hfirst' ▸ hmem hop') (hapart (hmem hop) hrest)
        · exact ih h.2.1 hrest hrest'
  subst hsame
  exact ⟨rfl, op_unique ((List.nodup_flatMap.1 h).1 d hd) hop hop'⟩

/-- An operand that is usable after some instructions of a block is valid there. -/
theorem valid_of_usable (hfirst : ∀ e, m.main.blocks.head? = some e → ∀ id t, ¬promise e.id id t)
    (hclosed : ∀ f ∈ m.main.blocks, Closed m promise ids f)
    (hresults : (m.main.blocks.flatMap Block.results).Nodup)
    (hpromised : ∀ k id t, promise k id t → ∃ d ∈ m.main.blocks, given d.body id t)
    {b : Block} (hb : b ∈ m.main.blocks) {i : Nat} {o : Operand}
    (ho : Usable m (also (promise b.id) (given (b.body.take i))) o) : o.Valid m b i := by
  cases o with
  | result id t =>
    rcases ho with hpromise | ⟨op, hmem, hop⟩
    · obtain ⟨d, hd, op, hmem, hop⟩ := hpromised _ id t hpromise
      obtain ⟨j, hj⟩ := List.mem_iff_getElem?.1 hmem
      refine ⟨d, hd, j, op, hj, hop, .inr ?_⟩
      intro passed hwalk
      obtain ⟨d', hd', op', hmem', _⟩ := walk_keeps hfirst hclosed hwalk hpromise
      rw [(unique_of_nodup hresults hd ((mem_of_walk hwalk).2 d' hd') hmem hmem').1]
      exact hd'
    · obtain ⟨j, hj⟩ := List.mem_iff_getElem?.1 hmem
      have hlt : j < i := by
        obtain ⟨hlength, _⟩ := List.getElem?_eq_some_iff.1 hj
        rw [List.length_take] at hlength
        omega
      rw [List.getElem?_take_of_lt hlt] at hj
      exact ⟨b, hb, j, op, hj, hop, .inl ⟨rfl, hlt⟩⟩
  | _ => exact ho

/-- The block with the least number comes first. -/
theorem head_blocks {b : Builder} {t : Terminator} {e : Block}
    (h : (b.blocks t).head? = some e) : ∀ f ∈ b.blocks t, e.id ≤ f.id := by
  have hsorted := b.blocks_ordered t
  intro f hf
  cases hlist : b.blocks t with
  | nil =>
    rw [hlist] at h
    cases h
  | cons x rest =>
    rw [hlist] at h hf hsorted
    cases h
    rcases List.mem_cons.1 hf with rfl | hf
    · exact Nat.le_refl _
    · exact (List.pairwise_cons.1 hsorted).1 f hf

/-- The open block, ended as the last one of a program is. -/
def Spot.last (q : Spot) : Block := ⟨q.builder.block, q.builder.body.reverse, .ret (.int 0)⟩

theorem Spot.Valid.last_closed {q : Spot} (h : q.Valid m) : Closed m q.promise q.ids q.last := by
  refine ⟨?_, rfl, ?_, fun t ht => (nomatch ht)⟩
  · show Fits m _ q.builder.body.reverse.reverse
    rw [List.reverse_reverse]
    exact h.fits
  · intro o ho
    rw [List.mem_singleton.1 ho]
    trivial

section Blocks

variable {q : Spot} (hperm : m.main.blocks.Perm (q.last :: q.builder.finished))

include hperm

theorem Spot.blocks_given {id : Nat} {t : Ty} (h : given q.instrs id t) :
    ∃ d ∈ m.main.blocks, given d.body id t := by
  obtain ⟨op, hmem, hop⟩ := h
  rcases List.mem_append.1 hmem with hmem | hmem
  · exact ⟨q.last, hperm.mem_iff.2 List.mem_cons_self, op, List.mem_reverse.2 hmem, hop⟩
  · obtain ⟨d, hd, hmem⟩ := List.mem_flatMap.1 hmem
    exact ⟨d, hperm.mem_iff.2 (List.mem_cons_of_mem _ hd), op, hmem, hop⟩

theorem Spot.Valid.blocks_results (h : q.Valid m) :
    (m.main.blocks.flatMap Block.results).Nodup := by
  refine ((hperm.flatMap_right Block.results).nodup_iff).2 ?_
  refine (List.Perm.nodup_iff ?_).1 h.results
  rw [Spot.instrs, List.filterMap_append, List.filterMap_flatMap, List.flatMap_cons]
  exact ((List.reverse_perm _).symm.filterMap _).append_right _

theorem Spot.Valid.blocks_closed (h : q.Valid m) :
    ∀ f ∈ m.main.blocks, Closed m q.promise q.ids f := by
  intro f hf
  rcases List.mem_cons.1 (hperm.mem_iff.1 hf) with rfl | hf
  · exact h.last_closed
  · exact h.closed f hf

/-- The numbers of blocks that were created, with none of them pending, are those of the
blocks there are. -/
theorem Spot.blocks_ids (hpending : q.pending = []) : (m.main.blocks.map Block.id).Perm q.ids := by
  rw [Spot.ids, hpending, List.append_nil]
  exact hperm.map Block.id

theorem Spot.blocks_of_id (hpending : q.pending = []) {k : Nat} (hk : k ∈ q.ids) :
    ∃ d ∈ m.main.blocks, d.id = k :=
  List.mem_map.1 ((Spot.blocks_ids hperm hpending).mem_iff.2 hk)

end Blocks

/-- A builder with nothing pending makes a well-formed module. -/
theorem Spot.Valid.wellFormed {q : Spot} (h : q.Valid m) (hpending : q.pending = [])
    (hblocks : m.main.blocks = q.builder.blocks (.ret (.int 0))) (hended : m.main.Ended)
    (hhoisted : m.main.Hoists m.main.slots) : m.WellFormed := by
  have hperm : m.main.blocks.Perm (q.last :: q.builder.finished) := by
    rw [hblocks]
    exact q.builder.blocks_perm _
  have hresults := h.blocks_results hperm
  have hclosed := h.blocks_closed hperm
  obtain ⟨z, hz, hzero⟩ := Spot.blocks_of_id hperm hpending h.entry.1
  have hhead : ∀ e, m.main.blocks.head? = some e → e.id = 0 := by
    intro e he
    rw [hblocks] at he hz
    have hle := head_blocks he z hz
    omega
  have hfirst : ∀ e, m.main.blocks.head? = some e → ∀ id t, ¬q.promise e.id id t := by
    intro e he
    rw [hhead e he]
    exact h.first
  refine ⟨hended, hhoisted, ?_, hresults, ?_, ?_, ?_, ?_,
    fun b hb => (hclosed b hb).terminator, ?_⟩
  · exact (Spot.blocks_ids hperm hpending).nodup_iff.2 h.ids
  · cases hlist : m.main.blocks with
    | nil =>
      rw [hlist] at hz
      cases hz
    | cons e rest =>
      refine ⟨e, rest, rfl, ?_⟩
      intro b hb hmem
      rw [← hlist] at hb
      have hid := hhead e (by rw [hlist]; rfl)
      exact ((hclosed b hb).targets _ hmem).2.1 hid
  · intro b hb t ht
    exact Spot.blocks_of_id hperm hpending ((hclosed b hb).targets t ht).1
  · have hnone : q.builder.finished.filterMap (·.terminator.returned?) = [] :=
      List.filterMap_eq_nil_iff.2 h.noReturn
    have hreturns := hperm.filterMap fun b => b.terminator.returned?
    rw [List.filterMap_cons, hnone] at hreturns
    exact List.perm_singleton.1 hreturns
  · intro b hb i hi
    obtain ⟨j, hj⟩ := List.mem_iff_getElem?.1 hi
    exact (usable_of_fits (hclosed b hb).body hj).1
  · intro b hb i o huse
    refine valid_of_usable hfirst hclosed hresults
      (fun k id t hk => Spot.blocks_given hperm (h.promised k id t hk)) hb ?_
    rcases huse with ⟨instr, hi, ho⟩ | ⟨rfl, ho⟩
    · exact (usable_of_fits (hclosed b hb).body hi).2 o ho
    · rw [List.take_length]
      exact (hclosed b hb).operands o ho

end Finished

end TinyScript.Ir.Builder
