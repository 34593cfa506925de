import TinyScript.Proofs.Ir.Functions
import TinyScript.Proofs.Ir.Stage
import TinyScript.Proofs.Ir.WellFormed

/-! Assembling is building. An assembler agrees with a builder if its sections are, in
some order, the open block, the finished ones and those that are created and not yet
opened, with the builder's slots at the head of the entry. Every step of an assembler
keeps the agreement with the step of a builder of the same name: a slot is put after
the last one, wherever the entry stands then. Blocks that wait to be opened are carried
along, so that ending a block can only open one of them. -/

namespace TinyScript.Ir

variable {α β : Type}

/-! ### Sections of blocks -/

/-- The lines of a block without its slots. -/
def Block.lines (b : Block) : List Line := b.body.map .instr ++ [.terminator b.terminator]

/-- A block without its slots. -/
def Block.section (b : Block) : Section := ⟨b.id, b.lines⟩

/-- The entry has the slots before its own lines. -/
def Section.setUp (slots : List Slot) (s : Section) : Section :=
  if s.label = 0 then { s with lines := slots.map .alloca ++ s.lines } else s

variable {slots : List Slot}

@[simp] theorem Section.setUp_label (s : Section) : (s.setUp slots).label = s.label := by
  unfold setUp
  split <;> rfl

theorem Section.setUp_lines (s : Section) :
    (s.setUp slots).lines = (if s.label = 0 then slots.map .alloca else []) ++ s.lines := by
  unfold setUp
  split <;> rfl

/-- A line at the end of a section. -/
def Section.snoc (s : Section) (line : Line) : Section := { s with lines := s.lines ++ [line] }

theorem Section.setUp_snoc (s : Section) (line : Line) :
    (s.snoc line).setUp slots = (s.setUp slots).snoc line := by
  unfold setUp snoc
  split
  · rw [List.append_assoc]
  · rfl

/-- A section of instructions has no terminator, whatever slots are put into it. -/
theorem Section.setUp_open (k : Nat) (body : List Instr) :
    ∀ line ∈ ((Section.mk k (body.map .instr)).setUp slots).lines, line.terminator? = none := by
  rw [setUp_lines]
  refine List.forall_mem_append.2 ⟨?_, List.forall_mem_map.2 fun _ _ => rfl⟩
  split
  · exact List.forall_mem_map.2 fun _ _ => rfl
  · exact fun _ h => (nomatch h)

/-- Its instructions are found again among its lines. -/
theorem Section.setUp_instrs (k : Nat) (body : List Instr) :
    ((Section.mk k (body.map .instr)).setUp slots).lines.filterMap Line.instr? = body := by
  have hslots : (if k = 0 then slots.map Line.alloca else []).filterMap Line.instr? = [] := by
    refine List.filterMap_eq_nil_iff.2 ?_
    split
    · exact List.forall_mem_map.2 fun _ _ => rfl
    · exact fun _ h => (nomatch h)
  rw [setUp_lines, List.filterMap_append, hslots, List.nil_append, List.filterMap_map]
  exact List.filterMap_some

/-- A line at the end of the section with a label. -/
def Section.snocAt (label : Nat) (line : Line) (s : Section) : Section :=
  if s.label = label then s.snoc line else s

@[simp] theorem Section.snocAt_label (k : Nat) (line : Line) (s : Section) :
    (s.snocAt k line).label = s.label := by
  unfold snocAt
  split <;> rfl

theorem Section.setUp_snocAt (k : Nat) (line : Line) (s : Section) :
    (s.snocAt k line).setUp slots = (s.setUp slots).snocAt k line := by
  rw [snocAt, snocAt, setUp_label, apply_ite (setUp slots), setUp_snoc]

theorem Section.map_setUp_label (ss : List Section) :
    (ss.map (setUp slots)).map label = ss.map label := by
  rw [List.map_map]
  exact List.map_congr_left fun s _ => setUp_label s

theorem Section.map_setUp_snocAt (k : Nat) (line : Line) (ss : List Section) :
    (ss.map (setUp slots)).map (snocAt k line) = (ss.map (snocAt k line)).map (setUp slots) := by
  rw [List.map_map, List.map_map]
  exact List.map_congr_left fun s _ => (setUp_snocAt k line s).symm

/-- Sections with other labels stay as they are. -/
theorem Section.map_snocAt {k : Nat} {line : Line} {ss : List Section}
    (h : k ∉ ss.map Section.label) : ss.map (snocAt k line) = ss := by
  refine (List.map_congr_left fun s hs => ?_).trans (List.map_id ss)
  exact if_neg fun heq => h (List.mem_map.2 ⟨s, hs, heq⟩)

/-! ### Putting a slot behind the others -/

namespace Assembler

/-- The next slot is put where the slots end. -/
theorem nextPosition_slots (h : (slots.map Slot.id).Nodup) (lines : List Line) :
    nextPosition (slots.map .alloca ++ lines) (slots.getLast?.map Slot.id) = slots.length := by
  rcases List.eq_nil_or_concat slots with rfl | ⟨init, last, rfl⟩
  · rfl
  rw [List.concat_eq_append] at h ⊢
  rw [List.map_append, List.nodup_append] at h
  have hinit : (init.map Line.alloca).findIdx (fun line => line.slot?.any (·.id = last.id)) =
      (init.map Line.alloca).length := by
    refine List.findIdx_eq_length.2 fun line hline => ?_
    obtain ⟨slot, hslot, rfl⟩ := List.mem_map.1 hline
    exact decide_eq_false (h.2.2 _ (List.mem_map_of_mem hslot) _ (List.mem_singleton_self _))
  have hlast : (Line.alloca last).slot?.any (·.id = last.id) = true := decide_eq_true rfl
  rw [List.getLast?_append_of_ne_nil _ (List.cons_ne_nil _ _), List.map_append, List.append_assoc]
  simp only [List.getLast?_singleton, Option.map_some, nextPosition]
  rw [List.findIdx_append, if_neg (Nat.not_lt.2 (Nat.le_of_eq hinit.symm)), List.map_singleton,
    List.singleton_append, List.findIdx_cons, hlast]
  simp

theorem insertBefore_append (line : Line) (lines rest : List Line) :
    insertBefore line lines.length (lines ++ rest) = lines ++ line :: rest := by
  unfold insertBefore
  cases rest with
  | nil => simp
  | cons next rest =>
    rw [if_pos (by simp)]
    induction lines with
    | nil => rfl
    | cons l lines ih => simp [ih]

end Assembler

/-- The slots of the entry, with one more behind them. -/
theorem Section.setUp_concat (h : (slots.map Slot.id).Nodup) (slot : Slot) {s : Section}
    (hs : s.label = 0) :
    Assembler.addSlot (slots.getLast?.map Slot.id) slot (s.setUp slots) =
      s.setUp (slots ++ [slot]) := by
  unfold setUp Assembler.addSlot
  have hlength : slots.length = (slots.map Line.alloca).length := (List.length_map _).symm
  rw [if_pos hs, if_pos hs, Assembler.nextPosition_slots h, hlength,
    Assembler.insertBefore_append, List.map_append, List.append_assoc]
  rfl

namespace Builder

/-- The sections beside the open one, without slots. Pending blocks are those that are
created and not opened. -/
def others (b : Builder) (pending : List Nat) : List Section :=
  b.finished.map Block.section ++ pending.map fun k => ⟨k, []⟩

/-- The sections of a module under construction, without slots. -/
def code (b : Builder) (pending : List Nat) : List Section :=
  ⟨b.block, b.body.reverse.map .instr⟩ :: b.others pending

theorem others_perm (b : Builder) (Q R : List Nat) (k : Nat) :
    (b.others (Q ++ k :: R)).Perm (⟨k, []⟩ :: b.others (Q ++ R)) := by
  unfold others
  rw [List.map_append, List.map_cons, List.map_append, ← List.append_assoc, ← List.append_assoc]
  exact List.perm_middle

/-- A module with the blocks of a builder, the open one ended. -/
def finish (b : Builder) (name : String) : Module where
  name
  symbols := b.symbols
  main := {
    name := Assembler.start.main.name
    type := Assembler.start.main.type
    hints := b.hints
    sections := (b.blocks (.ret (.int 0))).map fun x => x.section.setUp b.slots }

end Builder

/-! ### Agreement -/

/-- The labels of the sections, in their order. -/
def Assembler.labels (a : Assembler) : List Nat := a.sections.map Section.label

/-- An assembler holds what a builder holds, and the pending blocks. -/
structure Assembles (pending : List Nat) (a : Assembler) (b : Builder) : Prop where
  main : a.main = Assembler.start.main
  hints : a.hints = b.hints
  symbols : a.symbols = b.symbols
  /-- Whatever is declared is a function that lowering knows. -/
  declared : ∀ d, .function d ∈ b.symbols → ∃ f : External, d = f.declaration
  current : a.current = b.block
  lastSlot : a.lastSlot = b.slots.getLast?.map Slot.id
  distinct : (b.slots.map Slot.id).Nodup
  known : ∀ s ∈ b.slots, s.id < b.hints.length
  sections : a.sections.Perm ((b.code pending).map (Section.setUp b.slots))
  ordered : a.labels.Pairwise (· < ·)
  entry : a.labels.head? = some 0
  below : ∀ k ∈ a.labels, k < b.hints.length

/-- What is done to an assembler is what is done to a builder: from agreement with some
pending blocks they give the same and agree again. What is pending then may depend on
what they give. -/
def Matched (before : List Nat) (x : Assemble α) (y : Builder.Build α) (after : α → List Nat) :
    Prop :=
  ∀ a b, Assembles before a b →
    (x.run a).1 = (y.run b).1 ∧ Assembles (after (y.run b).1) (x.run a).2 (y.run b).2

theorem Matched.pure (v : α) (P : List Nat) : Matched P (pure v) (pure v) fun _ => P :=
  fun _ _ h => ⟨rfl, h⟩

theorem Matched.bind {P : List Nat} {Q : α → List Nat} {R : β → List Nat} {x : Assemble α}
    {y : Builder.Build α} {f : α → Assemble β} {g : α → Builder.Build β} (hx : Matched P x y Q)
    (hf : ∀ v, Matched (Q v) (f v) (g v) R) : Matched P (x >>= f) (y >>= g) R := by
  intro a b h
  obtain ⟨heq, h'⟩ := hx a b h
  have hrun : (x >>= f).run a = (f (y.run b).1).run (x.run a).2 := by
    rw [← heq]
    rfl
  rw [hrun]
  exact hf _ _ _ h'

/-! ### Code -/

namespace Assembles

variable {P : List Nat} {a : Assembler} {b : Builder}

theorem labels (h : Assembles P a b) : a.labels.Perm ((b.code P).map Section.label) := by
  have hmap := h.sections.map Section.label
  rwa [Section.map_setUp_label] at hmap

theorem nodup_labels (h : Assembles P a b) : a.labels.Nodup := h.ordered.imp Nat.ne_of_lt

/-- The first section is the entry, and no other is. -/
theorem labels_split (h : Assembles P a b) : ∃ rest, a.labels = 0 :: rest ∧ 0 ∉ rest := by
  obtain ⟨rest, hlabels⟩ := List.head?_eq_some_iff.1 h.entry
  exact ⟨rest, hlabels, (List.nodup_cons.1 (hlabels ▸ h.nodup_labels)).1⟩

/-- No other section has the label of the open one. -/
theorem block_notMem (h : Assembles P a b) : b.block ∉ (b.others P).map Section.label :=
  (List.nodup_cons.1 (h.labels.nodup h.nodup_labels)).1

/-- A line goes to the end of the open section. -/
theorem push_sections (h : Assembles P a b) (line : Line) :
    (a.push line).sections.Perm
      ((⟨b.block, b.body.reverse.map .instr ++ [line]⟩ :: b.others P).map
        (Section.setUp b.slots)) := by
  have hmap := h.sections.map (Section.snocAt a.current line)
  rw [h.current, Section.map_setUp_snocAt, Builder.code, List.map_cons,
    Section.map_snocAt h.block_notMem, Section.snocAt, if_pos rfl] at hmap
  have hpush : (a.push line).sections = a.sections.map (Section.snocAt b.block line) := by
    rw [← h.current]
    rfl
  rw [hpush]
  exact hmap

theorem push_labels (a : Assembler) (line : Line) : (a.push line).labels = a.labels := by
  have hpush : (a.push line).labels =
      (a.sections.map (Section.snocAt a.current line)).map Section.label := rfl
  rw [hpush, List.map_map]
  exact List.map_congr_left fun s _ => Section.snocAt_label _ _ s

/-- Taking a number changes nothing else. -/
theorem number (h : Assembles P a b) (hint : String) :
    Assembles P (a.number hint) { b with hints := b.hints ++ [cutHint hint] } := by
  have hle : b.hints.length ≤ (b.hints ++ [cutHint hint]).length := by simp
  refine { h with hints := ?_, known := ?_, below := ?_ }
  · exact congrArg (· ++ [cutHint hint]) h.hints
  · exact fun s hs => Nat.lt_of_lt_of_le (h.known s hs) hle
  · exact fun k hk => Nat.lt_of_lt_of_le (h.below k hk) hle

theorem instr (h : Assembles P a b) (i : Instr) :
    Assembles P (a.push (.instr i)) { b with body := i :: b.body } := by
  refine { h with sections := ?_, ordered := ?_, entry := ?_, below := ?_ }
  · have hpush := h.push_sections (.instr i)
    rwa [← List.map_singleton, ← List.map_append, ← List.reverse_cons] at hpush
  all_goals rw [push_labels]
  · exact h.ordered
  · exact h.entry
  · exact h.below

/-- A new section waits to be opened. -/
theorem create (h : Assembles P a b) (hint : String) :
    Assembles (b.hints.length :: P) (a.create hint)
      { b with hints := b.hints ++ [cutHint hint] } := by
  have hn := h.number hint
  have hlabels : (a.create hint).labels = a.labels ++ [b.hints.length] := by
    rw [← h.hints]
    exact List.map_append
  have hpos : b.hints.length ≠ 0 :=
    Nat.ne_of_gt (h.below 0 (List.mem_of_head? h.entry))
  refine { hn with sections := ?_, ordered := ?_, entry := ?_, below := ?_ }
  · have hsections : (a.create hint).sections = a.sections ++ [⟨b.hints.length, []⟩] := by
      rw [← h.hints]
      rfl
    have hfresh : (Section.mk b.hints.length []).setUp b.slots = ⟨b.hints.length, []⟩ := if_neg hpos
    rw [hsections, ← hfresh]
    refine (List.perm_append_singleton _ _).trans ((h.sections.cons _).trans ?_)
    exact ((List.Perm.swap _ _ _).trans
      ((b.others_perm [] P b.hints.length).symm.cons _)).map (Section.setUp b.slots)
  · rw [hlabels, List.pairwise_append]
    refine ⟨h.ordered, List.pairwise_singleton _ _, ?_⟩
    intro k hk n hn
    rw [List.mem_singleton.1 hn]
    exact h.below k hk
  · rw [hlabels, List.head?_append, h.entry]
    rfl
  · rw [hlabels]
    intro k hk
    rcases List.mem_append.1 hk with hk | hk
    · exact hn.below k hk
    · rw [List.mem_singleton.1 hk, List.length_append]
      exact Nat.lt_succ_self _

/-- The open section has no terminator. -/
theorem not_ended (h : Assembles P a b) : a.ended = false := by
  unfold Assembler.ended
  rw [Option.any_eq_false]
  intro s hs
  have hmem := h.sections.mem_iff.1 (List.mem_of_find?_eq_some hs)
  obtain ⟨c, hc, rfl⟩ := List.mem_map.1 hmem
  have hlabel : c.label = b.block := by
    have hfound := List.find?_some hs
    rw [Section.setUp_label] at hfound
    exact (of_decide_eq_true hfound).trans h.current
  rcases List.mem_cons.1 hc with rfl | hc
  · cases hlast : List.getLast? _ with
    | none => simp
    | some line => simp [Section.setUp_open _ _ line (List.mem_of_getLast? hlast)]
  · exact absurd (List.mem_map.2 ⟨c, hc, hlabel⟩) h.block_notMem

/-- Ending the open block opens one that waits. -/
theorem endBlock {Q R : List Nat} {next : Nat} (h : Assembles (Q ++ next :: R) a b)
    (t : Terminator) :
    Assembles (Q ++ R) { a.terminate t with current := next }
      { b with
        finished := ⟨b.block, b.body.reverse, t⟩ :: b.finished
        block := next
        body := [] } := by
  have hpush : a.terminate t = a.push (.terminator t) := by
    cases t with
    | jump target => simp only [Assembler.terminate, h.not_ended, Bool.false_eq_true, if_false]
    | branch _ _ _ | ret _ | unreachable => rfl
  have hlabels : ∀ c, Assembler.labels { a.push (.terminator t) with current := c } = a.labels :=
    fun _ => push_labels a _
  rw [hpush]
  refine { h with
    current := rfl
    sections := ?_
    ordered := (hlabels next).symm ▸ h.ordered
    entry := (hlabels next).symm ▸ h.entry
    below := (hlabels next).symm ▸ h.below }
  refine (h.push_sections (.terminator t)).trans (List.Perm.map _ ?_)
  exact ((b.others_perm Q R next).cons _).trans (List.Perm.swap _ _ _)

/-! ### Slots -/

/-- To change the first section is to change the entry. -/
theorem modifyHead_sections (h : Assembles P a b) (f : Section → Section) :
    a.sections.modifyHead f = a.sections.map fun s => if s.label = 0 then f s else s := by
  obtain ⟨labels, hlabels, hnot⟩ := h.labels_split
  obtain ⟨s, rest, hsections, hlabel, rfl⟩ := List.map_eq_cons_iff.1 hlabels
  rw [hsections, List.modifyHead_cons, List.map_cons, if_pos hlabel]
  refine congrArg (f s :: ·) ((List.map_congr_left fun t ht => ?_).trans (List.map_id rest)).symm
  exact if_neg fun hzero => hnot (List.mem_map.2 ⟨t, ht, hzero⟩)

/-- A slot goes behind those that are set up, whatever follows them. -/
theorem setUp (h : Assembles P a b) (hint : String) (type : Ty) :
    Assembles P (a.setUp hint type)
      { b with
        hints := b.hints ++ [cutHint hint]
        slots := b.slots ++ [⟨b.hints.length, type⟩] } := by
  have hn := h.number hint
  have hsections : (a.setUp hint type).sections = a.sections.map fun s =>
      if s.label = 0 then
        Assembler.addSlot (b.slots.getLast?.map Slot.id) ⟨b.hints.length, type⟩ s
      else s := by
    rw [← h.hints, ← h.lastSlot, ← h.modifyHead_sections]
    rfl
  have hlabels : (a.setUp hint type).labels = a.labels := by
    rw [Assembler.labels, hsections, List.map_map]
    refine List.map_congr_left fun s _ => ?_
    exact (apply_ite Section.label _ _ _).trans (ite_self _)
  refine { hn with
    lastSlot := ?_
    distinct := ?_
    known := ?_
    sections := ?_
    ordered := hlabels ▸ hn.ordered
    entry := hlabels ▸ hn.entry
    below := hlabels ▸ hn.below }
  · rw [List.getLast?_concat, ← h.hints]
    rfl
  · rw [List.map_append, List.nodup_append]
    refine ⟨h.distinct, List.nodup_singleton _, ?_⟩
    intro k hk n hn
    obtain ⟨slot, hslot, rfl⟩ := List.mem_map.1 hk
    rw [List.mem_singleton.1 hn]
    exact Nat.ne_of_lt (h.known slot hslot)
  · intro slot hslot
    rcases List.mem_append.1 hslot with hslot | hslot
    · exact hn.known slot hslot
    · rw [List.mem_singleton.1 hslot, List.length_append]
      exact Nat.lt_succ_self _
  · rw [hsections]
    refine (h.sections.map _).trans (List.Perm.of_eq ?_)
    rw [List.map_map]
    refine List.map_congr_left fun s _ => ?_
    by_cases hs : s.label = 0
    · exact (if_pos ((Section.setUp_label s).trans hs)).trans
        (Section.setUp_concat h.distinct _ hs)
    · refine (if_neg fun hzero => hs ((Section.setUp_label s).symm.trans hzero)).trans ?_
      exact (if_neg hs).trans (if_neg hs).symm

/-! ### Symbols -/

theorem text (h : Assembles P a b) (value : String) :
    (a.text value).1 = ((Builder.intern (.text value)).run b).1 ∧
      Assembles P (a.text value).2 ((Builder.intern (.text value)).run b).2 := by
  unfold Assembler.text
  rw [h.symbols]
  cases hfound : b.symbols.idxOf? (.text value) with
  | some k =>
    rw [Builder.run_intern_known hfound]
    exact ⟨rfl, h⟩
  | none =>
    rw [Builder.run_intern_new hfound]
    refine ⟨rfl, { h with symbols := rfl, declared := ?_ }⟩
    intro d hd
    rcases List.mem_append.1 hd with hd | hd
    · exact h.declared d hd
    · cases List.mem_singleton.1 hd

/-- A function has been declared if there is one of its name. -/
theorem any_functions (h : Assembles P a b) (f : External) :
    (a.functions.any fun d => d.name = f.name) = true ↔
      Symbol.function f.declaration ∈ b.symbols := by
  have hmain : a.main.name ≠ f.name := h.main ▸ f.name_ne_main.symm
  rw [Assembler.functions, List.any_cons, decide_eq_false hmain, Bool.false_or, h.symbols,
    List.any_eq_true]
  constructor
  · rintro ⟨d, hd, hname⟩
    obtain ⟨s, hs, hsd⟩ := List.mem_filterMap.1 hd
    cases s with
    | text _ => cases hsd
    | function d' =>
      cases hsd
      obtain ⟨g, rfl⟩ := h.declared d hs
      rwa [← External.name_injective (of_decide_eq_true hname)]
  · intro hmem
    exact ⟨f.declaration, List.mem_filterMap.2 ⟨_, hmem, rfl⟩, decide_eq_true rfl⟩

theorem declare (h : Assembles P a b) (f : External) :
    Assembles P (a.declare f) ((Builder.intern (.function f.declaration)).run b).2 := by
  unfold Assembler.declare
  cases hfound : b.symbols.idxOf? (.function f.declaration) with
  | some k =>
    have hmem : Symbol.function f.declaration ∈ b.symbols := by
      obtain ⟨hk, heq, -⟩ := List.findIdx?_eq_some_iff_getElem.1 hfound
      exact beq_iff_eq.1 heq ▸ List.getElem_mem hk
    rw [Builder.run_intern_known hfound, if_pos ((h.any_functions f).2 hmem)]
    exact h
  | none =>
    have hnew := List.idxOf?_eq_none_iff.1 hfound
    rw [Builder.run_intern_new hfound, if_neg fun hany => hnew ((h.any_functions f).1 hany)]
    refine { h with
      symbols := congrArg (· ++ [.function f.declaration]) h.symbols
      declared := ?_ }
    intro d hd
    rcases List.mem_append.1 hd with hd | hd
    · exact h.declared d hd
    · cases List.mem_singleton.1 hd
      exact ⟨f, rfl⟩

end Assembles

/-! ### Matched steps -/

section Matched

open MonadAssemble

variable (P Q R : List Nat)

theorem create_matched (hint : String) :
    Matched P (create hint) (create hint) fun k => k :: P := by
  intro a b h
  refine ⟨congrArg List.length h.hints, ?_⟩
  exact h.create hint

theorem emit_matched (hint : String) (type : Ty) (op : Op) :
    Matched P (emit hint type op) (emit hint type op) fun _ => P := by
  intro a b h
  have hrun : (emit hint type op : Assemble Operand).run a = (.result b.hints.length type,
      (a.number hint).push (.instr ⟨some b.hints.length, op⟩)) := by
    rw [← h.hints]
    rfl
  rw [hrun]
  exact ⟨rfl, (h.number hint).instr ⟨some b.hints.length, op⟩⟩

theorem emitVoid_matched (op : Op) : Matched P (emitVoid op) (emitVoid op) fun _ => P :=
  fun _ _ h => ⟨rfl, h.instr ⟨none, op⟩⟩

theorem endBlock_matched (t : Terminator) (next : Nat) :
    Matched (Q ++ next :: R) (endBlock t next) (endBlock t next) fun _ => Q ++ R :=
  fun _ _ h => ⟨rfl, h.endBlock t⟩

theorem addSlot_matched (hint : String) (type : Ty) :
    Matched P (addSlot hint type) (addSlot hint type) fun _ => P :=
  fun _ _ h => ⟨rfl, h.setUp hint type⟩

theorem text_matched (value : String) : Matched P (text value) (text value) fun _ => P := by
  intro a b h
  obtain ⟨heq, h'⟩ := h.text value
  exact ⟨congrArg Operand.text heq, h'⟩

theorem declare_matched (f : External) : Matched P (declare f) (declare f) fun _ => P :=
  fun _ _ h => ⟨rfl, h.declare f⟩

end Matched

/-! ### Finished modules -/

theorem start_assembles : Assembles [] .start Builder.start where
  main := rfl
  hints := rfl
  symbols := rfl
  declared := fun _ h => (nomatch h)
  current := rfl
  lastSlot := rfl
  distinct := List.nodup_nil
  known := fun _ h => (nomatch h)
  sections := .refl _
  ordered := List.pairwise_singleton _ 0
  entry := rfl
  below := List.forall_mem_singleton.2 Nat.one_pos

/-- There is only one order of sections with distinct labels by which the labels rise. -/
theorem sections_unique {ss ts : List Section} (h : ss.Perm ts)
    (hnodup : (ss.map Section.label).Nodup) (hs : (ss.map Section.label).Pairwise (· ≤ ·))
    (ht : (ts.map Section.label).Pairwise (· ≤ ·)) : ss = ts := by
  refine List.Perm.eq_of_pairwise ?_ (List.pairwise_map.1 hs) (List.pairwise_map.1 ht) h
  intro s t hmem hmem' hle hle'
  exact List.inj_on_of_nodup_map hnodup hmem (h.mem_iff.2 hmem') (Nat.le_antisymm hle hle')

section Finish

variable {a : Assembler} {b : Builder}

/-- With nothing pending, the sections are the blocks in the order of their creation. -/
theorem Assembles.finished_sections (h : Assembles [] a b) (t : Terminator) :
    (a.push (.terminator t)).sections =
      (b.blocks t).map fun x => x.section.setUp b.slots := by
  have hperm : (a.push (.terminator t)).sections.Perm
      ((b.blocks t).map fun x => x.section.setUp b.slots) := by
    have hpush := h.push_sections (.terminator t)
    have hothers : b.others [] = b.finished.map Block.section := List.append_nil _
    have hblocks := ((b.blocks_perm t).map Block.section).map (Section.setUp b.slots)
    rw [List.map_map] at hblocks
    rw [hothers] at hpush
    exact hpush.trans hblocks.symm
  have hlabels : (a.push (.terminator t)).sections.map Section.label = a.labels :=
    Assembles.push_labels a _
  refine sections_unique hperm ?_ ?_ ?_
  · exact hlabels ▸ h.nodup_labels
  · exact hlabels ▸ h.ordered.imp Nat.le_of_lt
  · refine List.pairwise_map.2 (List.pairwise_map.2 ((b.blocks_ordered t).imp fun hle => ?_))
    rw [Section.setUp_label, Section.setUp_label]
    exact hle

/-- What an assembler finishes is what a builder finishes. -/
theorem Assembles.finish (h : Assembles [] a b) (name : String) :
    a.finish name = b.finish name := by
  unfold Assembler.finish Builder.finish
  rw [h.not_ended, ← h.finished_sections, ← h.main, ← h.hints, ← h.symbols]
  rfl

/-- The first block is the entry, and no other is. -/
theorem Assembles.blocks_split (h : Assembles [] a b) (t : Terminator) :
    ∃ entry rest, b.blocks t = entry :: rest ∧ entry.id = 0 ∧ ∀ x ∈ rest, x.id ≠ 0 := by
  have hlabels : (b.blocks t).map Block.id = a.labels := by
    rw [← Assembles.push_labels a (.terminator t), Assembler.labels, h.finished_sections,
      List.map_map]
    exact List.map_congr_left fun x _ => (Section.setUp_label x.section).symm
  obtain ⟨labels, heq, hnot⟩ := h.labels_split
  obtain ⟨entry, rest, hblocks, hentry, rfl⟩ := List.map_eq_cons_iff.1 (hlabels.trans heq)
  exact ⟨entry, rest, hblocks, hentry, fun x hx hzero => hnot (List.mem_map.2 ⟨x, hx, hzero⟩)⟩

end Finish

/-! ### Finished modules as they are run -/

theorem Block.lines_slot? (b : Block) : ∀ line ∈ b.lines, line.slot? = none := by
  refine List.forall_mem_append.2 ⟨List.forall_mem_map.2 fun _ _ => rfl, ?_⟩
  exact List.forall_mem_singleton.2 rfl

/-- The terminator of a block is the last line of its section, and the only one. -/
theorem Block.setUp_ended (slots : List Slot) (b : Block) : ∃ before : List Line,
    (b.section.setUp slots).lines = before ++ [.terminator b.terminator] ∧
      (∀ line ∈ before, line.terminator? = none) ∧ before.filterMap Line.instr? = b.body := by
  have hsection : b.section = (Section.mk b.id (b.body.map .instr)).snoc (.terminator b.terminator) :=
    rfl
  rw [hsection, Section.setUp_snoc]
  exact ⟨_, rfl, Section.setUp_open b.id b.body, Section.setUp_instrs b.id b.body⟩

/-- What is run of a section is the block that it was made of. -/
theorem Block.setUp_block? (b : Block) : (b.section.setUp slots).block? = some b := by
  obtain ⟨before, hlines, hbefore, hinstrs⟩ := b.setUp_ended slots
  have hterminator : (b.section.setUp slots).lines.findSome? Line.terminator? =
      some b.terminator := by
    rw [hlines, List.findSome?_append, List.findSome?_eq_none_iff.2 hbefore]
    rfl
  have hbody : (b.section.setUp slots).body = b.body := by
    rw [Section.body, hlines, List.takeWhile_append_of_pos fun line hline => by
      rw [hbefore line hline]
      rfl]
    rw [← hinstrs]
    exact congrArg _ (List.append_nil before)
  rw [Section.block?, hterminator, hbody, Section.setUp_label]
  rfl

theorem Builder.finish_blocks (b : Builder) (name : String) :
    (b.finish name).main.blocks = b.blocks (.ret (.int 0)) := by
  show ((b.blocks _).map _).filterMap Section.block? = _
  rw [List.filterMap_map]
  exact (List.filterMap_congr fun x _ => x.setUp_block?).trans List.filterMap_some

theorem Builder.finish_ended (b : Builder) (name : String) : (b.finish name).main.Ended := by
  refine List.forall_mem_map.2 fun x _ => ?_
  obtain ⟨before, hlines, hbefore, -⟩ := x.setUp_ended b.slots
  exact ⟨before, _, hlines, hbefore⟩

/-- A function that hoists slots has these and no others. -/
theorem Function.Hoists.slots_eq {f : Function} (h : f.Hoists slots) : f.slots = slots := by
  obtain ⟨entry, rest, code, hsections, hentry, hcode, hrest⟩ := h
  have hnone : rest.flatMap Section.slots = [] :=
    List.flatMap_eq_nil_iff.2 fun s hs => List.filterMap_eq_nil_iff.2 (hrest s hs)
  rw [Function.slots, hsections, List.flatMap_cons, hnone, List.append_nil, Section.slots, hentry,
    List.filterMap_append, List.filterMap_eq_nil_iff.2 hcode, List.append_nil, List.filterMap_map]
  exact List.filterMap_some

/-- All slots of a builder are set up at the beginning of the entry. -/
theorem Assembles.finish_hoists {a : Assembler} {b : Builder} (h : Assembles [] a b)
    (name : String) : (b.finish name).main.Hoists b.slots := by
  obtain ⟨entry, rest, hblocks, hentry, hrest⟩ := h.blocks_split (.ret (.int 0))
  refine ⟨entry.section.setUp b.slots, rest.map fun x => x.section.setUp b.slots, entry.lines,
    ?_, ?_, entry.lines_slot?, ?_⟩
  · show (b.blocks _).map _ = _
    rw [hblocks, List.map_cons]
  · rw [Section.setUp_lines, if_pos (show entry.section.label = 0 from hentry)]
    rfl
  · refine List.forall_mem_map.2 fun x hx => ?_
    rw [Section.setUp_lines, if_neg (show x.section.label ≠ 0 from hrest x hx)]
    exact x.lines_slot?

end TinyScript.Ir
