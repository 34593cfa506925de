import TinyScript.Proofs.Compile

/-! Slots are hoisted. However deep a declaration or an array literal stands in its program,
its slot is set up before the first instruction of the module, once for the whole run. -/

namespace TinyScript

open TinyScript.Core (Options)
open Meaning

variable {p : Ast.Program} {options : Options} {c : Compiled}

/-- **Slots are hoisted, one per declaration and literal.** The module of an accepted program
sets up a slot for every declaration and for every array literal, in the order in which they
are complete, and does so at the start of its entry and nowhere else. -/
theorem generate_hoists (h : generate p options = .ok c) :
    ∃ slots, c.code.main.Hoists slots ∧
      slots.map Ir.Slot.type = (Source.stmtsPlaces p).map Place.type := by
  obtain ⟨q, hcode, -, hplaces, -⟩ := generate_eq_ok h
  rw [hcode, ← hplaces]
  refine ⟨_, Core.Lower.lower_hoists q options, ?_⟩
  rw [← Core.Lower.lower_slots_eq, Core.Lower.lower_slots]

/-- Declarations and literals in a loop, in a branch and in each other. -/
def nested : Ast.Program :=
  [.declare "x" "f64" none,
    .branch (.bool true)
      [.loopWhile (.index (.array "boolean" [.bool false]) (.int 0))
        [.declare "rows" "auto" (some (.array "i32[]" [.array "i32" [.int 1, .int 2]]))]]
      [.expr (.call "println" [.member (.array "string" []) "length"])],
    .declare "s" "auto" (some (.str "end"))]

theorem nested_hoisted :
    ∃ c slots, generate nested {} = .ok c ∧ c.code.main.Hoists slots ∧
      slots.map Ir.Slot.type = [.double, .array 1 .i1, .array 2 .i32, .array 1 (.slice .i32),
        .slice (.slice .i32), .array 0 (.ptr .i8), .ptr .i8] := by
  obtain ⟨c, h⟩ : ∃ c, generate nested {} = .ok c := ⟨_, rfl⟩
  obtain ⟨slots, hhoists, htypes⟩ := generate_hoists h
  exact ⟨c, slots, h, hhoists, htypes⟩

end TinyScript
