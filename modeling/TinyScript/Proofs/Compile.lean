import Mathlib.Algebra.Group.Nat.Defs
import TinyScript.Compile
import TinyScript.Proofs.Core.Check.Program
import TinyScript.Proofs.Core.Flat
import TinyScript.Proofs.Lower.Program

/-! Accepted programs. The module of a program that is accepted is well formed; with
bounds checks it does, step after step, what the evaluation of the program as it is
written does, and every state its run comes to is safe. -/

namespace TinyScript

open TinyScript.Core (Options)
open Machine (Reached Safe Steps Whole run start step)
open Meaning

/-! ### What is accepted -/

section Accepted

variable {p : Ast.Program} {options : Options} {c : Compiled}

theorem generate_eq_check (h : generate p options = .ok c) :
    ∃ q, Core.Program.check p = .ok (q, c.warnings) ∧ c.code = q.lower options := by
  unfold generate at h
  cases hcheck : Core.Program.check p with
  | error e =>
    rw [hcheck] at h
    cases h
  | ok r =>
    rw [hcheck] at h
    cases h
    exact ⟨r.1, rfl, rfl⟩

/-- A program that is accepted was resolved into a typed one with the same places and
the same meaning, and its module is what that was lowered to. -/
theorem generate_eq_ok (h : generate p options = .ok c) :
    ∃ q : Core.Program, c.code = q.lower options ∧ q.Typed ∧
      Resolved.stmtsPlaces q = Source.stmtsPlaces p ∧
      ∀ (w : Library.World) (fuel : Nat),
        evaluate p w fuel = (Resolved.stmts fuel q (.initial w)).report? := by
  obtain ⟨q, hcheck, hcode⟩ := generate_eq_check h
  obtain ⟨hplaces, htyped, hsame⟩ := Core.Check.check_eq_ok hcheck
  refine ⟨q, hcode, htyped, hplaces, fun w fuel => ?_⟩
  rw [evaluate, hsame]

/-- Counts down through an array and past its beginning. -/
def countdown : Ast.Program :=
  [.declare "a" "auto" (some (.array "i32" [.int 2, .int 0])),
    .declare "i" "auto" (some (.int 1)),
    .doWhile
      [.assign "i" (.binary .sub (.var "i") (.int 1)),
        .expr (.call "println" [.index (.var "a") (.var "i")])]
      (.index (.var "a") (.var "i"))]

theorem countdown_accepted (options : Options) : ∃ c, generate countdown options = .ok c :=
  ⟨_, rfl⟩

theorem countdown_report :
    ∃ r, evaluate countdown .initial 2 = some r ∧ r.ending = .outOfBounds (-1) 2 ∧
      r.output = [50, 10] := ⟨_, rfl, rfl, rfl⟩

/-- The module of an accepted program can be linked. -/
theorem generate_link (h : generate p options = .ok c) :
    Ir.link c.code.functions = .ok (c.code.functions.filterMap Ir.Linkable.mapped?) := by
  obtain ⟨q, hcode, _⟩ := generate_eq_ok h
  rw [hcode]
  exact Core.Lower.lower_link q options

/-- **The module of an accepted program is well formed.** It was lowered from values that
are typed all through, and each of them is lowered to an operand of what holds values of
its type, whatever was lowered before it. -/
theorem generate_wellFormed (h : generate p options = .ok c) :
    c.code.WellFormed ∧ ∃ q : Core.Program, Core.Program.check p = .ok (q, c.warnings) ∧
      c.code = q.lower options ∧ ∀ e, q.Holds e →
        Core.Typed (Source.stmtsPlaces p) e ∧ ∀ a : Ir.Assembler,
          ((Core.Lower.expr options.boundsChecks e : Ir.Assemble Ir.Operand).run a).1.type =
            .ofSource e.type := by
  obtain ⟨q, hcheck, hcode⟩ := generate_eq_check h
  obtain ⟨hplaces, htyped, -⟩ := Core.Check.check_eq_ok hcheck
  have hsolid : Solid (Resolved.stmtsPlaces q) := by
    rw [hplaces]
    exact Source.program_solid p
  refine ⟨?_, q, hcheck, hcode, fun e he => ⟨?_, fun a => Core.Lower.expr_type e a⟩⟩
  · rw [hcode]
    exact Core.Lower.lower_wellFormed htyped hsolid options
  · rw [← hplaces]
    exact htyped.value he

theorem countdown_wellFormed :
    ∃ c, generate countdown { boundsChecks := false } = .ok c ∧ c.code.WellFormed := by
  obtain ⟨c, h⟩ := countdown_accepted { boundsChecks := false }
  exact ⟨c, h, (generate_wellFormed h).1⟩

/-- The run of an accepted program ends as the evaluation of its text does, or goes on
for at least as many steps as loops were allowed turns. Without checks nothing is said
of an evaluation that ends at an index out of range. -/
theorem compiled_follows (h : generate p options = .ok c) (w : Library.World) (fuel : Nat) :
    match evaluate p w fuel with
    | some r => Core.Lower.Excused options.boundsChecks r.ending ∨
        Core.Lower.Ends c.code (Source.stmtsPlaces p) (start c.code w) r
    | none => ∃ n s, fuel ≤ n ∧
        Steps c.code (Safe c.code (Source.stmtsPlaces p)) n (start c.code w) s := by
  obtain ⟨q, hcode, htyped, hplaces, hsame⟩ := generate_eq_ok h
  have hsolid : Solid (Resolved.stmtsPlaces q) := by
    rw [hplaces]
    exact Source.program_solid p
  rw [hsame, hcode, ← hplaces]
  exact Core.Lower.lowered_run htyped hsolid options w fuel

theorem compiled_run (h : generate p options = .ok c) (hchecked : options.boundsChecks = true)
    (w : Library.World) (fuel : Nat) :
    match evaluate p w fuel with
    | some r => Core.Lower.Ends c.code (Source.stmtsPlaces p) (start c.code w) r
    | none => ∃ n s, fuel ≤ n ∧
        Steps c.code (Safe c.code (Source.stmtsPlaces p)) n (start c.code w) s := by
  have hfollows := compiled_follows h w fuel
  cases heval : evaluate p w fuel with
  | none =>
    rw [heval] at hfollows
    exact hfollows
  | some r =>
    rw [heval] at hfollows
    rcases hfollows with ⟨hunchecked, _⟩ | hends
    · rw [hchecked] at hunchecked
      cases hunchecked
    · exact hends

end Accepted

/-! ### Reports of runs -/

section Reports

variable {m : Ir.Module} {mapping : List (String × Ir.Routine)} {w : Library.World} {fuel : Nat}
variable {r : Report}

/-- What a run of a linked module shows. -/
theorem execute_eq (hlink : Ir.link m.functions = .ok mapping) (w : Library.World) (fuel : Nat) :
    m.execute w fuel = .ok ((run m fuel (start m w)).map fun (ending, s) =>
      ⟨ending, s.output.toList, s.calls.toList, s.world⟩) := by
  unfold Ir.Module.execute
  rw [hlink]
  rfl

theorem execute_eq_none (hlink : Ir.link m.functions = .ok mapping) :
    m.execute w fuel = .ok none ↔ run m fuel (start m w) = none := by
  rw [execute_eq hlink]
  cases run m fuel (start m w) with
  | none => exact ⟨fun _ => rfl, fun _ => rfl⟩
  | some r => exact ⟨fun h => (nomatch h), fun h => (nomatch h)⟩

/-- Only linked modules are run. -/
theorem link_of_execute {report : Option Report} (h : m.execute w fuel = .ok report) :
    ∃ mapping, Ir.link m.functions = .ok mapping := by
  unfold Ir.Module.execute at h
  cases hlink : Ir.link m.functions with
  | ok mapping => exact ⟨mapping, rfl⟩
  | error e =>
    rw [hlink] at h
    cases h

theorem execute_mono (h : m.execute w fuel = .ok (some r)) (k : Nat) :
    m.execute w (fuel + k) = .ok (some r) := by
  obtain ⟨mapping, hlink⟩ := link_of_execute h
  rw [execute_eq hlink] at h ⊢
  cases hrun : run m fuel (start m w) with
  | none =>
    rw [hrun] at h
    cases h
  | some t =>
    rw [hrun] at h
    rw [Machine.run_mono hrun]
    exact h

/-- A run that has ended has one report. -/
theorem execute_unique {fuel' : Nat} {r' : Report} (h : m.execute w fuel = .ok (some r))
    (h' : m.execute w fuel' = .ok (some r')) : r = r' := by
  have hboth := execute_mono h' fuel
  rw [Nat.add_comm, execute_mono h fuel'] at hboth
  cases hboth
  rfl

theorem Core.Lower.Ends.execute {L : List Place} (hlink : Ir.link m.functions = .ok mapping)
    (h : Core.Lower.Ends m L (start m w) r) : ∃ fuel, m.execute w fuel = .ok (some r) := by
  obtain ⟨n, s₁, s', steps, _, hstep, houtput, hcalls, hworld⟩ := h
  refine ⟨n + 1, ?_⟩
  rw [execute_eq hlink, steps.run_halt hstep]
  show Except.ok (some (Report.mk r.ending s'.output.toList s'.calls.toList s'.world)) = _
  rw [houtput, hcalls, hworld]

end Reports

/-! ### Meaning -/

section Meaning

variable {p : Ast.Program} {options : Options} {c : Compiled}

/-- A report of a run is one of the evaluation: with more turns than the run took
steps the evaluation is not cut off, and then both have the same report. -/
theorem evaluate_of_execute (h : generate p options = .ok c)
    (hchecked : options.boundsChecks = true) {w : Library.World} {fuel : Nat} {r : Report}
    (hr : c.code.execute w fuel = .ok (some r)) : evaluate p w fuel = some r := by
  have hrun := compiled_run h hchecked w fuel
  cases heval : evaluate p w fuel with
  | none =>
    rw [heval] at hrun
    obtain ⟨n, s, hn, steps⟩ := hrun
    rw [(execute_eq_none (generate_link h)).2 (steps.run_eq_none hn)] at hr
    cases hr
  | some r' =>
    rw [heval] at hrun
    obtain ⟨fuel', hr'⟩ := hrun.execute (generate_link h)
    rw [execute_unique hr hr']

theorem execute_of_evaluate (h : generate p options = .ok c)
    (hchecked : options.boundsChecks = true) {w : Library.World} {fuel : Nat} {r : Report}
    (hr : evaluate p w fuel = some r) : ∃ fuel', c.code.execute w fuel' = .ok (some r) := by
  have hrun := compiled_run h hchecked w fuel
  rw [hr] at hrun
  exact hrun.execute (generate_link h)

/-- The module of an accepted program reports what the evaluation of the program
reports, and neither ends unless the other does. -/
theorem generate_preserves_meaning (h : generate p options = .ok c)
    (hchecked : options.boundsChecks = true) (w : Library.World) :
    (∀ r, (∃ fuel, c.code.execute w fuel = .ok (some r)) ↔ ∃ fuel, evaluate p w fuel = some r) ∧
      ((∀ fuel, c.code.execute w fuel = .ok none) ↔ ∀ fuel, evaluate p w fuel = none) := by
  refine ⟨?_, ?_, ?_⟩
  · intro r
    exact ⟨fun ⟨fuel, hr⟩ => ⟨fuel, evaluate_of_execute h hchecked hr⟩,
      fun ⟨fuel, hr⟩ => execute_of_evaluate h hchecked hr⟩
  · intro hnever fuel
    cases heval : evaluate p w fuel with
    | none => rfl
    | some r =>
      obtain ⟨fuel', hr⟩ := execute_of_evaluate h hchecked heval
      rw [hnever] at hr
      cases hr
  · intro hnever fuel
    cases hrun : run c.code fuel (start c.code w) with
    | none => exact (execute_eq_none (generate_link h)).2 hrun
    | some t =>
      have hr := execute_eq (generate_link h) w fuel
      rw [hrun] at hr
      have heval := evaluate_of_execute h hchecked hr
      rw [hnever] at heval
      cases heval

theorem countdown_preserves_meaning :
    ∃ c r, generate countdown {} = .ok c ∧ r.ending = .outOfBounds (-1) 2 ∧
      r.output = [50, 10] ∧ ∃ fuel, c.code.execute .initial fuel = .ok (some r) := by
  obtain ⟨c, h⟩ := countdown_accepted {}
  obtain ⟨r, hr, hending, houtput⟩ := countdown_report
  exact ⟨c, r, h, hending, houtput,
    ((generate_preserves_meaning h rfl .initial).1 r).2 ⟨2, hr⟩⟩

end Meaning

/-! ### Safety -/

section Safety

variable {p : Ast.Program} {options : Options} {c : Compiled}

/-- Every state the run comes to is safe: with more turns than steps were taken, the
evaluation accounts for the state. -/
theorem reached_safe (h : generate p options = .ok c) (hchecked : options.boundsChecks = true)
    {w : Library.World} {n : Nat} {s : Machine.State}
    (hreach : Reached c.code (start c.code w) n s) : Safe c.code (Source.stmtsPlaces p) s := by
  have hrun := compiled_run h hchecked w (n + 1)
  cases heval : evaluate p w (n + 1) with
  | none =>
    rw [heval] at hrun
    obtain ⟨k, s', hk, steps⟩ := hrun
    exact steps.visited hreach hk
  | some r =>
    rw [heval] at hrun
    obtain ⟨k, s₁, s', steps, safe, hstep, _⟩ := hrun
    rcases Nat.lt_or_eq_of_le (steps.reached_le hstep hreach) with hlt | rfl
    · exact steps.visited hreach hlt
    · rw [steps.reached_eq hreach]
      exact safe

/-- With bounds checks, and array literals whose elements can be counted, every state
the run comes to is safe; an array is the start of the storage of a literal with exactly
the number of its elements; and the run ends only by returning zero, by a fault, or by
an index that was out of range, unless it is about to read a variable that was never
written. -/
theorem generate_runs_safely (h : generate p options = .ok c)
    (hchecked : options.boundsChecks = true)
    (hsize : ∀ elem size, Place.storage elem size ∈ Source.stmtsPlaces p → size < 2 ^ 31)
    {w : Library.World} {n : Nat} {s : Machine.State}
    (hreach : Reached c.code (start c.code w) n s) :
    Safe c.code (Source.stmtsPlaces p) s ∧
      (∀ elem v, Whole (Source.stmtsPlaces p) s.memory (.array elem) v →
        ∃ (k size : Nat) (len : Int32), (Source.stmtsPlaces p)[k]? = some (.storage elem size) ∧
          v = .slice (some ⟨k, 0⟩) (some len) ∧ len.toInt = size) ∧
      ∀ e s', step c.code s = .halt e s' →
        e = .returned 0 ∨ e = .fault ∨
        (∃ i len, e = .outOfBounds i len ∧ s'.calls = s.calls.push (Machine.boundsCall i len) ∧
          (i.toInt < 0 ∨ len.toInt ≤ i.toInt) ∧
          ∃ (elem : Ty) (size : Nat), Place.storage elem size ∈ Source.stmtsPlaces p ∧
            len.toInt = size) ∨
        (e = .stuck ∧ Machine.ReadsUnwritten (Source.stmtsPlaces p) s) := by
  have counted : ∀ {k size : Nat} {elem : Ty},
      (Source.stmtsPlaces p)[k]? = some (.storage elem size) →
      (Int32.ofNat size).toInt = size := fun place =>
    Int32.toInt_ofNat_of_lt (hsize _ _ (List.mem_of_getElem? place))
  have safe := reached_safe h hchecked hreach
  refine ⟨safe, ?_, ?_⟩
  · intro elem v hv
    cases hv with
    | array place _ => exact ⟨_, _, _, place, rfl, counted place⟩
  · intro e s' hhalt
    cases safe.ends e s' hhalt with
    | returned => exact .inl rfl
    | fault => exact .inr (.inl rfl)
    | outOfBounds place i houtside =>
      have hlen := counted place
      refine .inr (.inr (.inl ⟨i, _, rfl, rfl, ?_, _, _, List.mem_of_getElem? place, hlen⟩))
      omega
    | unwritten hreads => exact .inr (.inr (.inr ⟨rfl, hreads⟩))
    | tooLong place hlong =>
      have hlt := hsize _ _ (List.mem_of_getElem? place)
      unfold maxLength at hlong
      omega

/-- The last state before an index was out of range is safe as well. -/
theorem countdown_runs_safely :
    ∃ c n s, generate countdown {} = .ok c ∧ Reached c.code (start c.code .initial) n s ∧
      (∃ s', step c.code s = .halt (.outOfBounds (-1) 2) s') ∧
      Safe c.code (Source.stmtsPlaces countdown) s := by
  obtain ⟨c, h⟩ := countdown_accepted {}
  obtain ⟨r, hr, hending, _⟩ := countdown_report
  have hrun := compiled_run h rfl .initial 2
  rw [hr] at hrun
  obtain ⟨n, s, s', steps, _, hstep, _⟩ := hrun
  rw [hending] at hstep
  have hsize : ∀ elem size, Place.storage elem size ∈ Source.stmtsPlaces countdown →
      size < 2 ^ 31 := by
    intro elem size hmem
    change _ ∈ [Place.storage .i32 2, .cell (.array .i32), .cell .i32] at hmem
    simp only [List.mem_cons, Place.storage.injEq, reduceCtorEq, List.not_mem_nil, or_false] at hmem
    omega
  exact ⟨c, n, s, h, steps.reached, ⟨s', hstep⟩,
    (generate_runs_safely h rfl hsize steps.reached).1⟩

end Safety

end TinyScript
