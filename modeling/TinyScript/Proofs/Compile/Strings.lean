import TinyScript.Proofs.Compile.Errors
import TinyScript.Proofs.Core.Check.Strings
import TinyScript.Proofs.Ir.Globals

/-! Strings are pooled. The module of an accepted program has one constant for every text
that the program needs as it is written, in the order of the first need, and where a text is
an operand stands the constant of it. -/

namespace TinyScript

open TinyScript.Core (Options)
open Meaning

variable {p : Ast.Program} {options : Options} {c : Compiled}

/-- **String literals are pooled without confusion.** The string constants of a module are the
texts that its program needs, literals and formats, each once and in the order of the first
need; and with the blocks in the order in which lowering ends them, the string operands are
the constants of the texts that the program uses, one for one. -/
theorem generate_pools (h : generate p options = .ok c) :
    ∃ q, Core.Program.check p = .ok (q, c.warnings) ∧
      c.code.Pools (Core.Lower.endOrder q options) (Source.needed p) (Source.used p) := by
  obtain ⟨q, hcheck, hcode⟩ := generate_eq_check h
  obtain ⟨hplaces, htyped, -⟩ := Core.Check.check_eq_ok hcheck
  have hsolid : Solid (Resolved.stmtsPlaces q) := hplaces ▸ Source.program_solid p
  obtain ⟨hsymbols, -, htexts⟩ := Core.Lower.lower_emits htyped options
  have hmentions : Core.Check.mentioned (Core.stmtsEvents options.boundsChecks q) =
      Source.stmtsMentions .empty p := Core.Check.program_spelled hcheck
  have hneeded : (q.lower options).symbols.filterMap Ir.Symbol.text? = Source.needed p := by
    rw [hsymbols, Ir.filterMap_eraseDups fun ht ht' => Ir.Symbol.text?_injective ht ht',
      ← Core.Check.needed_mentioned, hmentions]
    rfl
  rw [← Core.Check.used_mentioned, hmentions] at htexts
  have hnodup : (q.lower options).symbols.Nodup := by
    rw [hsymbols]
    exact Ir.nodup_eraseDups _
  have hnamed : (q.lower options).Named :=
    ⟨(Core.Lower.lower_main q options).1, fun _ hd => Core.Lower.lower_declared hd,
      hnodup.filterMap fun _ _ _ hd hd' => Ir.Symbol.declaration?_injective hd hd'⟩
  refine ⟨q, hcheck, ?_⟩
  rw [hcode, ← hneeded]
  exact Ir.Module.pools hnamed hnodup (Core.Lower.lower_wellFormed htyped hsolid options).ids
    (Core.Lower.written_perm_lower q options) htexts

/-- Two texts that are stored alike, and one that is a format as well, in two branches. -/
def quotations : Ast.Program :=
  [.declare "s" "auto" (some (.str "a\x00b")),
    .branch (.bool true)
      [.expr (.call "println" [.str "a"]), .expr (.call "print" [.str "%d"])]
      [.expr (.call "print" [.int 1])]]

theorem quotations_pooled :
    ∃ c q, generate quotations {} = .ok c ∧ Core.Program.check quotations = .ok (q, c.warnings) ∧
      c.code.Pools (Core.Lower.endOrder q {}) ["a\x00b", "a", "%d", "%s"]
        ["a\x00b", "a", "%s", "%d", "%d"] ∧
      c.code.globals = [⟨".str", [97, 0]⟩, ⟨".str.1", [97, 0]⟩, ⟨".str.2", [37, 100, 0]⟩,
        ⟨".str.3", [37, 115, 0]⟩] := by
  obtain ⟨c, h⟩ : ∃ c, generate quotations {} = .ok c := ⟨_, rfl⟩
  have hneeded : Source.needed quotations = ["a\x00b", "a", "%d", "%s"] := by decide +kernel
  have hused : Source.used quotations = ["a\x00b", "a", "%s", "%d", "%d"] := by decide +kernel
  obtain ⟨q, hcheck, hpools⟩ := generate_pools h
  rw [hneeded, hused] at hpools
  refine ⟨c, q, h, hcheck, hpools, hpools.globals.trans ?_⟩
  decide +kernel

end TinyScript
