import TinyScript.Proofs.Compile
import TinyScript.Proofs.Lower.Unchecked

/-! Programs without bounds checks. Whether indices are checked has no part in what is
accepted and what is warned about. Where the checks of a run all pass, the run without
them is led by the same evaluation, so it comes to the same end; and nothing of a check
is left in the module. -/

namespace TinyScript

open TinyScript.Core (Options)
open Machine (start)
open Meaning

/-- The ending of a run that came to an index out of range. -/
def Machine.Ending.IsOutOfBounds (e : Ending) : Prop := ∃ i n, e = .outOfBounds i n

section Accepted

variable {p : Ast.Program}

theorem generate_error (options : Options) {e : Core.CheckError}
    (h : Core.Program.check p = .error e) : generate p options = .error e := by
  unfold generate
  rw [h]
  rfl

theorem generate_ok (options : Options) {q : Core.Program} {warnings : List Core.Warning}
    (h : Core.Program.check p = .ok (q, warnings)) :
    generate p options = .ok ⟨q.lower options, warnings⟩ := by
  unfold generate
  rw [h]
  rfl

variable {options : Options} {c : Compiled} {w : Library.World}

/-- Checked or not, a run ends as an evaluation that came to no index out of range. -/
theorem execute_of_inside (h : generate p options = .ok c) {fuel : Nat} {r : Report}
    (heval : evaluate p w fuel = some r) (hinside : ¬r.ending.IsOutOfBounds) :
    ∃ fuel', c.code.execute w fuel' = .ok (some r) := by
  have hfollows := compiled_follows h w fuel
  rw [heval] at hfollows
  rcases hfollows with ⟨_, houtside⟩ | hends
  · exact absurd houtside hinside
  · exact hends.execute (generate_link h)

/-- Checked or not, a run goes on for as long as the evaluation does. -/
theorem execute_of_unfinished (h : generate p options = .ok c)
    (hnever : ∀ fuel, evaluate p w fuel = none) (fuel : Nat) :
    c.code.execute w fuel = .ok none := by
  have hfollows := compiled_follows h w fuel
  rw [hnever] at hfollows
  obtain ⟨n, s, hn, steps⟩ := hfollows
  exact (execute_eq_none (generate_link h)).2 (steps.run_eq_none hn)

end Accepted

section Both

variable {p : Ast.Program} {options options' : Options} {checked unchecked : Compiled}
variable {w : Library.World}

/-- If the run with checks leaves at no index, the evaluation has its reports, and the
run without checks has them too. -/
theorem unchecked_execute (h : generate p options = .ok checked)
    (hchecked : options.boundsChecks = true) (h' : generate p options' = .ok unchecked)
    (hinside : ∀ fuel r, checked.code.execute w fuel = .ok (some r) → ¬r.ending.IsOutOfBounds)
    (r : Report) :
    (∃ fuel, checked.code.execute w fuel = .ok (some r)) ↔
      ∃ fuel, unchecked.code.execute w fuel = .ok (some r) := by
  constructor
  · rintro ⟨fuel, hr⟩
    exact execute_of_inside h' (evaluate_of_execute h hchecked hr) (hinside fuel r hr)
  · rintro ⟨fuel, hr⟩
    by_cases hnever : ∀ fuel, evaluate p w fuel = none
    · rw [execute_of_unfinished h' hnever] at hr
      cases hr
    · simp only [not_forall, ← ne_eq, Option.ne_none_iff_exists'] at hnever
      obtain ⟨fuel₁, r₁, heval⟩ := hnever
      obtain ⟨fuel₂, hr₂⟩ := execute_of_evaluate h hchecked heval
      obtain ⟨fuel₃, hr₃⟩ := execute_of_inside h' heval (hinside fuel₂ r₁ hr₂)
      rw [execute_unique hr hr₃]
      exact ⟨fuel₂, hr₂⟩

/-- A run that has no report goes on forever. -/
theorem execute_forever {m : Ir.Module} {mapping : List (String × Ir.Routine)}
    (hlink : Ir.link m.functions = .ok mapping) :
    (∀ fuel, m.execute w fuel = .ok none) ↔ ¬∃ r fuel, m.execute w fuel = .ok (some r) := by
  constructor
  · rintro hnever ⟨r, fuel, hr⟩
    rw [hnever] at hr
    cases hr
  · intro hnone fuel
    rw [execute_eq_none hlink]
    cases hrun : Machine.run m fuel (start m w) with
    | none => rfl
    | some t =>
      have hr := execute_eq hlink w fuel
      rw [hrun] at hr
      exact absurd ⟨_, fuel, hr⟩ hnone

/-- Without bounds checks the same programs are accepted, with the same errors and the
same warnings; a run whose checks would all pass has the same report, or goes on forever
as well; and the module neither declares nor calls what a failed check needs, nor has
a block that is called like one of a check. -/
theorem generate_unchecked (p : Ast.Program) (options : Options) :
    (∃ e, generate p { options with boundsChecks := true } = .error e ∧
      generate p { options with boundsChecks := false } = .error e) ∨
    ∃ checked unchecked : Compiled,
      generate p { options with boundsChecks := true } = .ok checked ∧
      generate p { options with boundsChecks := false } = .ok unchecked ∧
      checked.warnings = unchecked.warnings ∧
      (∀ w : Library.World,
        (∀ fuel r, checked.code.execute w fuel = .ok (some r) → ¬r.ending.IsOutOfBounds) →
        (∀ r, (∃ fuel, checked.code.execute w fuel = .ok (some r)) ↔
          ∃ fuel, unchecked.code.execute w fuel = .ok (some r)) ∧
        ((∀ fuel, checked.code.execute w fuel = .ok none) ↔
          ∀ fuel, unchecked.code.execute w fuel = .ok none)) ∧
      (∀ d ∈ unchecked.code.declarations, d.name ≠ Ir.External.boundsFail.name) ∧
      ∀ block ∈ unchecked.code.main.blocks,
        (∀ i ∈ block.body, ∀ args, i.op ≠ .call .boundsFail args) ∧
        ¬"bounds".toList <+: (unchecked.code.label block).toList := by
  cases hcheck : Core.Program.check p with
  | error e => exact .inl ⟨e, generate_error _ hcheck, generate_error _ hcheck⟩
  | ok r =>
    obtain ⟨q, warnings⟩ := r
    have h := generate_ok { options with boundsChecks := true } hcheck
    have h' := generate_ok { options with boundsChecks := false } hcheck
    obtain ⟨hdeclared, hblocks⟩ :=
      Core.Lower.lower_unchecked q { options with boundsChecks := false } rfl
    refine .inr ⟨_, _, h, h', rfl, ?_, hdeclared, ?_⟩
    · intro w hinside
      have hsame := unchecked_execute h rfl h' hinside
      refine ⟨hsame, ?_⟩
      rw [execute_forever (generate_link h), execute_forever (generate_link h')]
      exact not_congr (exists_congr hsame)
    · intro block hmem
      obtain ⟨hplain, hlabel⟩ := hblocks block hmem
      refine ⟨?_, hlabel⟩
      rintro i hi args hop
      have hcall := hplain i hi
      rw [hop] at hcall
      exact hcall

end Both

end TinyScript
