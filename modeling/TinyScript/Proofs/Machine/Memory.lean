import TinyScript.Machine

/-! Reading and writing cells. A memory is seen through two questions, whether
there is a cell at an address and what was last written to it; how slots are kept
as arrays does not matter beyond this module. Writing never adds or removes a
cell. -/

namespace TinyScript.Machine.Memory

variable {m : Memory} {a b : Address} {v : Value}

theorem contains_iff : m.contains a = true ↔
    ∃ block, m[a.slot]? = some block ∧ 0 ≤ a.offset ∧ a.offset < block.size := by
  unfold contains
  cases h : m[a.slot]? with
  | none => simp
  | some block => simp

theorem contains_of_read? (h : m.read? a = some v) : m.contains a = true := by
  unfold read? at h
  by_cases hneg : a.offset < 0
  · rw [if_pos hneg] at h
    cases h
  · rw [if_neg hneg] at h
    cases hblock : m[a.slot]? with
    | none =>
      rw [hblock] at h
      cases h
    | some block =>
      rw [hblock] at h
      have hlt : a.offset.toNat < block.size := by
        rcases Nat.lt_or_ge a.offset.toNat block.size with hlt | hge
        · exact hlt
        · simp [Array.getElem?_eq_none hge] at h
      refine contains_iff.2 ⟨block, hblock, ?_, ?_⟩ <;> omega

/-! ### One cell -/

theorem contains_write (m : Memory) (a b : Address) (v : Value) :
    (m.write a v).contains b = m.contains b := by
  unfold write
  by_cases hneg : a.offset < 0
  · rw [if_pos hneg]
  · rw [if_neg hneg]
    unfold contains
    rw [Array.getElem?_modify]
    by_cases hslot : a.slot = b.slot
    · rw [if_pos hslot]
      cases m[b.slot]? with
      | none => rfl
      | some block => simp
    · rw [if_neg hslot]

theorem read?_write_self (h : m.contains a = true) : (m.write a v).read? a = some v := by
  obtain ⟨block, hblock, hle, hlt⟩ := contains_iff.1 h
  have hneg : ¬a.offset < 0 := by omega
  unfold read? write
  rw [if_neg hneg, if_neg hneg, Array.getElem?_modify, if_pos rfl, hblock]
  have : a.offset.toNat < block.size := by omega
  simp [this]

theorem read?_write_of_ne (h : b ≠ a) : (m.write a v).read? b = m.read? b := by
  unfold read? write
  by_cases hneg : a.offset < 0
  · rw [if_pos hneg]
  · rw [if_neg hneg]
    by_cases hneg' : b.offset < 0
    · rw [if_pos hneg', if_pos hneg']
    · rw [if_neg hneg', if_neg hneg', Array.getElem?_modify]
      by_cases hslot : a.slot = b.slot
      · rw [if_pos hslot]
        have hoffset : a.offset.toNat ≠ b.offset.toNat := by
          intro heq
          have : a.offset = b.offset := by omega
          exact h (by cases a; cases b; simp_all)
        cases m[b.slot]? with
        | none => rfl
        | some block => simp [Array.getElem?_setIfInBounds_ne hoffset]
      · rw [if_neg hslot]

theorem isSome_read?_write (h : (m.read? b).isSome) : ((m.write a v).read? b).isSome := by
  by_cases hab : b = a
  · subst hab
    obtain ⟨w, hw⟩ := Option.isSome_iff_exists.1 h
    rw [read?_write_self (contains_of_read? hw)]
    rfl
  · rwa [read?_write_of_ne hab]

/-! ### Runs of integers -/

theorem contains_writeInts (m : Memory) (a b : Address) (xs : List Int32) :
    (m.writeInts a xs).contains b = m.contains b := by
  induction xs generalizing m a with
  | nil => rfl
  | cons x xs ih => rw [writeInts, ih, contains_write]

/-- Cells before and after the run, and in other slots, stay as they were. -/
theorem read?_writeInts_of_outside {xs : List Int32}
    (h : b.slot ≠ a.slot ∨ b.offset < a.offset ∨ a.offset + xs.length ≤ b.offset) :
    (m.writeInts a xs).read? b = m.read? b := by
  induction xs generalizing m a with
  | nil => rfl
  | cons x xs ih =>
    rw [List.length_cons] at h
    rw [writeInts, ih, read?_write_of_ne]
    · rintro rfl
      simp at h
      omega
    · rcases h with h | h | h
      · exact .inl h
      · refine .inr (.inl ?_)
        show b.offset < a.offset + 1
        omega
      · refine .inr (.inr ?_)
        show a.offset + 1 + xs.length ≤ b.offset
        omega

theorem read?_writeInts_inside {k : Nat} {o : Int} {xs : List Int32} {i : Nat}
    (hcells : ∀ j < xs.length, m.contains ⟨k, o + j⟩ = true) (hi : i < xs.length) :
    (m.writeInts ⟨k, o⟩ xs).read? ⟨k, o + i⟩ = (xs[i]?).map .int := by
  induction xs generalizing m o i with
  | nil => cases hi
  | cons x xs ih =>
    rw [List.length_cons] at hcells hi
    cases i with
    | zero =>
      have hcell := hcells 0 (by omega)
      simp only [Int.natCast_zero, Int.add_zero] at hcell ⊢
      have hafter : o < o + 1 := by omega
      rw [writeInts, read?_writeInts_of_outside (.inr (.inl hafter)), read?_write_self hcell]
      rfl
    | succ i =>
      have hcells' : ∀ j < xs.length, (m.write ⟨k, o⟩ (.int x)).contains ⟨k, o + 1 + j⟩ = true := by
        intro j hj
        have hcell := hcells (j + 1) (by omega)
        rw [contains_write]
        rwa [show o + 1 + (j : Int) = o + ((j + 1 : Nat) : Int) by omega]
      rw [show o + ((i + 1 : Nat) : Int) = o + 1 + (i : Int) by omega, writeInts,
        ih hcells' (by omega), List.getElem?_cons_succ]

theorem isSome_read?_writeInts {xs : List Int32} (h : (m.read? b).isSome) :
    ((m.writeInts a xs).read? b).isSome := by
  induction xs generalizing m a with
  | nil => exact h
  | cons x xs ih => exact ih (isSome_read?_write h)

/-- Integers one after the other are read as a list. -/
theorem readInts?_eq_some {k : Nat} {o : Int} {xs : List Int32}
    (h : ∀ i < xs.length, m.read? ⟨k, o + i⟩ = (xs[i]?).map .int) :
    m.readInts? ⟨k, o⟩ xs.length = some xs := by
  induction xs generalizing o with
  | nil => rfl
  | cons x xs ih =>
    have hfirst : m.read? ⟨k, o⟩ = some (.int x) := by simpa using h 0 (by simp)
    have hrest : m.readInts? ⟨k, o + 1⟩ xs.length = some xs := by
      apply ih
      intro i hi
      have := h (i + 1) (by simpa using hi)
      rwa [show o + ((i + 1 : Nat) : Int) = o + 1 + (i : Int) by omega,
        List.getElem?_cons_succ] at this
    simp [readInts?, hfirst, hrest]

/-! ### The memory of a function -/

theorem contains_ofSlots {slots : List Ir.Slot} {k : Nat} {s : Ir.Slot} (h : slots[k]? = some s)
    {i : Nat} (hi : i < cells s.type) : (ofSlots slots).contains ⟨k, i⟩ = true := by
  refine contains_iff.2 ⟨Array.replicate (cells s.type) none, ?_, ?_, ?_⟩
  · simp [ofSlots, h]
  · show (0 : Int) ≤ i
    omega
  · show (i : Int) < (Array.replicate (cells s.type) (none : Option Value)).size
    simpa using hi

theorem read?_ofSlots (slots : List Ir.Slot) (a : Address) : (ofSlots slots).read? a = none := by
  unfold read? ofSlots
  split
  · rfl
  · simp only [List.getElem?_toArray, List.getElem?_map]
    cases slots[a.slot]? with
    | none => rfl
    | some s =>
      simp only [Option.map_some, Option.bind_some]
      rcases Nat.lt_or_ge a.offset.toNat (cells s.type) with hlt | hge
      · simp [hlt]
      · simp [hge]

end TinyScript.Machine.Memory
