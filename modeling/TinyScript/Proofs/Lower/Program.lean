import TinyScript.Proofs.Lower.Control
import TinyScript.Proofs.Lower.Valid.Program

/-! Lowered programs. The module of a typed program starts with nothing written, in
the block the builder started with, and after its last statement it returns zero; so
its run does what the evaluation of the program does. -/

namespace TinyScript.Core.Lower

open Ir (Module Builder)
open Ir.Builder
open Machine (State Safe Steps step)
open Meaning

/-! ### The beginning -/

/-- Well-formed modules are laid out well. -/
theorem layout_of_wellFormed {m : Module} (h : m.WellFormed) : Layout m := by
  refine ⟨h.ids, ?_⟩
  rintro id op op' ⟨d, hd, hop⟩ ⟨d', hd', hop'⟩
  exact (unique_of_nodup h.results hd hd' hop hop').2

section Start

variable {p : Program} {options : Options} {w : Library.World}

/-- A run starts where the builder did. -/
theorem start_at : At (p.lower options) start (Machine.start (p.lower options) w) := by
  have stage : Stage (p.lower options) start := (program_grows p).stage (final_stage p options)
  obtain ⟨block, hmem, hid, _⟩ := stage.current
  cases hhead : (p.lower options).main.blocks.head? with
  | none =>
    rw [List.head?_eq_none_iff.1 hhead] at hmem
    cases hmem
  | some e =>
    have hzero : e.id = 0 := by
      rw [lower_blocks] at hhead hmem
      have hle : e.id ≤ block.id := head_blocks hhead block hmem
      change block.id = 0 at hid
      omega
    refine ⟨e, List.mem_of_head? hhead, hzero, ?_, ?_⟩
    · show e.body = ([] : List Ir.Instr).reverse ++ (((p.lower options).main.blocks.head?).map _).getD []
      rw [hhead]
      rfl
    · show e.terminator = (((p.lower options).main.blocks.head?).map _).getD .unreachable
      rw [hhead]
      rfl

theorem start_slot (options : Options) {k : Nat} {place : Place}
    (h : (Resolved.stmtsPlaces p)[k]? = some place) :
    ∃ s, (p.lower options).main.slots[k]? = some s ∧ s.type = place.type := by
  have hslot : ((p.lower options).main.slots.map Ir.Slot.type)[k]? = some place.type := by
    rw [lower_slots, List.getElem?_map, h]
    rfl
  rw [List.getElem?_map, Option.map_eq_some_iff] at hslot
  exact hslot

theorem start_agrees :
    Agrees (p.lower options) (Resolved.stmtsPlaces p) (.initial w)
      (Machine.start (p.lower options) w) where
  cell := by
    intro k t hk
    obtain ⟨s, hs, htype⟩ := start_slot options hk
    have hcells : 0 < Machine.Memory.cells s.type := by
      rw [htype]
      cases t <;> exact Nat.zero_lt_one
    exact Machine.Memory.contains_ofSlots hs hcells
  room := by
    intro k n elem hk i hi
    obtain ⟨s, hs, htype⟩ := start_slot options hk
    refine Machine.Memory.contains_ofSlots hs ?_
    rw [htype]
    exact hi
  cells := fun _ => Machine.Memory.read?_ofSlots _ _
  storages := fun h => (nomatch h)
  sound := by
    refine ⟨⟨?_, ?_⟩, ?_⟩
    · intro k t v _ hread
      change (Machine.Memory.ofSlots _).read? _ = _ at hread
      rw [Machine.Memory.read?_ofSlots] at hread
      cases hread
    · intro a elem n v _ hread
      change (Machine.Memory.ofSlots _).read? _ = _ at hread
      rw [Machine.Memory.read?_ofSlots] at hread
      cases hread
    · intro id v hv
      change (Array.replicate _ none)[id]? = _ at hv
      rw [Array.getElem?_replicate] at hv
      split at hv <;> cases hv
  results := Array.size_replicate
  seen := ⟨rfl, rfl, rfl⟩

end Start

/-! ### The whole run -/

/-- What a run does that follows an evaluation to its end. -/
def Ends (m : Module) (L : List Place) (s : State) (r : Report) : Prop :=
  ∃ n s₁ s', Steps m (Safe m L) n s s₁ ∧ Safe m L s₁ ∧ step m s₁ = .halt r.ending s' ∧
    s'.output.toList = r.output ∧ s'.calls.toList = r.calls ∧ s'.world = r.world

theorem ends_of_seen {m : Module} {L : List Place} {n : Nat} {s s₁ s' : State} {e : Machine.Ending}
    {st : Store} (steps : Steps m (Safe m L) n s s₁) (safe : Safe m L s₁)
    (hstep : step m s₁ = .halt e s') (seen : Seen st s') :
    Ends m L s ⟨e, st.output, st.calls, st.world⟩ :=
  ⟨n, s₁, s', steps, safe, hstep, seen.output, seen.calls, seen.world⟩

/-- After the last statement a run returns zero. -/
theorem returns_of_final {p : Program} {options : Options} {L : List Place} {st : Store}
    {s : State} (layout : Layout (p.lower options)) (hat : At (p.lower options) (final p options) s)
    (agrees : Agrees (p.lower options) L st s) :
    step (p.lower options) s = .halt (.returned 0) s ∧ Safe (p.lower options) L s := by
  obtain ⟨block, hmem, hid, hbody, hterm⟩ := hat
  have hlast : (⟨(final p options).block, (final p options).body.reverse, .ret (.int 0)⟩ : Ir.Block) ∈
      (p.lower options).main.blocks := mem_lower_blocks.2 (.inl rfl)
  have hsame := layout.unique hmem hlast hid
  rw [hsame] at hbody hterm
  have hend : s.body = [] := by
    have hnil : (final p options).body.reverse ++ [] = (final p options).body.reverse ++ s.body := by
      rw [List.append_nil]
      exact hbody
    exact (List.append_cancel_left hnil).symm
  have hstep : step (p.lower options) s = .halt (.returned 0) s :=
    Machine.step_returns hend hterm.symm
  refine ⟨hstep, agrees.sound, ?_, ?_⟩
  · intro i rest hi
    rw [hend] at hi
    cases hi
  · intro e s' hhalt
    rw [hstep] at hhalt
    cases hhalt
    exact .returned s

/-- The run of a module ends as the evaluation does, or goes on for at least as many
steps as loops were allowed turns. Without checks nothing is said of an evaluation that
ends at an index out of range. -/
theorem lowered_run {p : Program} (typed : p.Typed) (solid : Solid (Resolved.stmtsPlaces p))
    (options : Options) (w : Library.World) (fuel : Nat) :
    match (Resolved.stmts fuel p (.initial w)).report? with
    | some r => Excused options.boundsChecks r.ending ∨ Ends (p.lower options)
        (Resolved.stmtsPlaces p) (Machine.start (p.lower options) w) r
    | none => ∃ n s', fuel ≤ n ∧ Steps (p.lower options)
        (Safe (p.lower options) (Resolved.stmtsPlaces p)) n (Machine.start (p.lower options) w) s' := by
  let S : Setting := ⟨p.lower options, Resolved.stmtsPlaces p, options.boundsChecks, fuel⟩
  have layout := layout_of_wellFormed (lower_wellFormed typed solid options)
  have here : Here S ⟨start, .initial w, Machine.start (p.lower options) w⟩ :=
    ⟨layout, start_at, start_agrees⟩
  have hfollows := stmts_match here (Store.initial_typed w)
    (fun s hs => Resolved.stmt_keeps fuel (typed s hs)) (fun s hs => stmt_matches (typed s hs))
    (final_stage p options)
  change Follows S (Machine.start (p.lower options) w) (Resolved.stmts fuel p (.initial w)) _
    at hfollows
  cases hr : Resolved.stmts fuel p (.initial w) with
  | gives u st =>
    rw [hr] at hfollows
    obtain ⟨n, s, hsteps, here', _, _⟩ := hfollows
    obtain ⟨hstep, hsafe⟩ := returns_of_final layout here'.place here'.agrees
    exact .inr (ends_of_seen hsteps hsafe hstep here'.agrees.seen)
  | ends e st =>
    rw [hr] at hfollows
    rcases hfollows with hexcused | ⟨n, s₁, s', hsteps, hsafe, hstep, hseen⟩
    · exact .inl hexcused
    · exact .inr (ends_of_seen hsteps hsafe hstep hseen)
  | unfinished =>
    rw [hr] at hfollows
    exact hfollows

end TinyScript.Core.Lower
