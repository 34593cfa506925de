import TinyScript.Proofs.Compile
import TinyScript.Proofs.Ir.Linking
import TinyScript.Proofs.Lower.Emission

/-! Accepted programs link. Lowering asks for a function right before it calls it, so the
module of an accepted program declares what its blocks call and nothing else, and calls
and declarations agree on the types. What is declared is there when the module is run. -/

namespace TinyScript

open TinyScript.Core (Options)
open Meaning

variable {p : Ast.Program} {options : Options} {c : Compiled}

/-- **Accepted programs link.** Their modules have one function with a body, and of the
others each is declared once, called, known, and at hand with the type it is called with.
No run fails before its first step. -/
theorem generate_links (h : generate p options = .ok c) :
    c.code.Linked ∧ ∀ (w : Library.World) (fuel : Nat), ∃ r, c.code.execute w fuel = .ok r := by
  obtain ⟨q, hcode, htyped, hplaces, _⟩ := generate_eq_ok h
  have hsolid : Solid (Resolved.stmtsPlaces q) := by
    rw [hplaces]
    exact Source.program_solid p
  have hformed := Core.Lower.lower_wellFormed htyped hsolid options
  obtain ⟨hname, htype⟩ := Core.Lower.lower_main q options
  refine ⟨?_, fun w fuel => ⟨_, execute_eq (generate_link h) w fuel⟩⟩
  rw [hcode]
  exact hformed.linked hname htype (Core.Lower.written_perm_lower q options)
    (Core.Lower.lower_declarations htyped options)

/-- A failed check is called for before the printing that the element was meant for. -/
theorem countdown_links :
    ∃ c, generate countdown {} = .ok c ∧ c.code.Linked ∧
      c.code.functions = [⟨"main", 8⟩, ⟨"__cype_bounds_fail", 0⟩, ⟨"printf", 0⟩] ∧
      Ir.link c.code.functions = .ok [("__cype_bounds_fail", .boundsFail)] ∧
      ∃ r, c.code.execute .initial 9 = .ok r := by
  obtain ⟨c, h⟩ := countdown_accepted {}
  obtain ⟨hlinked, hruns⟩ := generate_links h
  have hfunctions : (generate countdown {}).map (fun c => c.code.functions) =
      .ok [⟨"main", 8⟩, ⟨"__cype_bounds_fail", 0⟩, ⟨"printf", 0⟩] := by decide +kernel
  rw [h] at hfunctions
  have heq : c.code.functions = _ := Except.ok.inj hfunctions
  refine ⟨c, h, hlinked, heq, ?_, hruns .initial 9⟩
  rw [heq]
  decide +kernel

end TinyScript
