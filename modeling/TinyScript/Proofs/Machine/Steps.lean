import TinyScript.Execution

/-! Runs as chains of steps. `Steps m P n s s'` says that `n` steps lead from `s`
to `s'` and that every state a step is taken from has the property `P`; the last
state is not asked. Runs are deterministic, so what is known of one chain is known
of every run that is at least as long. -/

namespace TinyScript.Machine

open Ir

inductive Steps (m : Module) (P : State → Prop) : Nat → State → State → Prop
  | refl (s : State) : Steps m P 0 s s
  | head {n : Nat} {s s₁ s' : State} (here : P s) (next : step m s = .next s₁)
      (rest : Steps m P n s₁ s') : Steps m P (n + 1) s s'

variable {m : Module} {P : State → Prop} {s s₁ s₂ s' : State} {n k : Nat}

theorem Steps.one (here : P s) (next : step m s = .next s') : Steps m P 1 s s' :=
  .head here next (.refl s')

theorem Steps.trans (h : Steps m P n s s₁) (h' : Steps m P k s₁ s₂) : Steps m P (n + k) s s₂ := by
  induction h with
  | refl s =>
    rw [Nat.zero_add]
    exact h'
  | head here next _ ih =>
    rw [Nat.succ_add]
    exact .head here next (ih h')

/-- A chain is the beginning of the run from its first state. -/
theorem Steps.run_add (h : Steps m P n s s') (k : Nat) : run m (n + k) s = run m k s' := by
  induction h with
  | refl s => rw [Nat.zero_add]
  | head _ next _ ih =>
    rw [Nat.succ_add, run, next]
    exact ih

/-- A run that goes on for a while has not ended before. -/
theorem Steps.run_eq_none (h : Steps m P n s s') (hk : k ≤ n) : run m k s = none := by
  cases hr : run m k s with
  | none => rfl
  | some r =>
    have hmore : run m (k + (n - k)) s = some r := run_mono hr
    rw [Nat.add_sub_cancel' hk] at hmore
    have hstop : run m (n + 0) s = none := by rw [h.run_add]; rfl
    rw [Nat.add_zero] at hstop
    rw [hstop] at hmore
    cases hmore

/-- A run ends where a chain comes to a step that halts. -/
theorem Steps.run_halt (h : Steps m P n s s₁) {e : Ending} (hstep : step m s₁ = .halt e s') :
    run m (n + 1) s = some (e, s') := by
  rw [h.run_add, run, hstep]

/-! ### Reached states -/

/-- The state after `n` steps, if the run has not ended by then. -/
inductive Reached (m : Module) (s : State) : Nat → State → Prop
  | start : Reached m s 0 s
  | next {n : Nat} {s₁ s₂ : State} (before : Reached m s n s₁) (next : step m s₁ = .next s₂) :
      Reached m s (n + 1) s₂

theorem Reached.cons {s₁ : State} (next : step m s = .next s₁) (h : Reached m s₁ n s') :
    Reached m s (n + 1) s' := by
  induction h with
  | start => exact .next .start next
  | next _ hstep ih => exact .next ih hstep

theorem Steps.reached (h : Steps m P n s s') : Reached m s n s' := by
  induction h with
  | refl s => exact .start
  | head _ next _ ih => exact .cons next ih

theorem Reached.uncons (h : Reached m s (n + 1) s') :
    ∃ s₁, step m s = .next s₁ ∧ Reached m s₁ n s' := by
  induction n generalizing s' with
  | zero =>
    cases h with
    | next before next =>
      cases before
      exact ⟨s', next, .start⟩
  | succ n ih =>
    cases h with
    | next before next =>
      obtain ⟨s₁, hstep, hrest⟩ := ih before
      exact ⟨s₁, hstep, .next hrest next⟩

/-- States on a chain have its property. -/
theorem Steps.visited (h : Steps m P n s s') (hreach : Reached m s k s₁) (hk : k < n) : P s₁ := by
  induction h generalizing k with
  | refl s => cases hk
  | head here next _ ih =>
    cases k with
    | zero =>
      cases hreach
      exact here
    | succ k =>
      obtain ⟨s₂, hstep, hrest⟩ := hreach.uncons
      rw [next] at hstep
      cases hstep
      exact ih hrest (Nat.lt_of_succ_lt_succ hk)

/-- The end of a chain is the only state reached in as many steps. -/
theorem Steps.reached_eq (h : Steps m P n s s') (hreach : Reached m s n s₁) : s₁ = s' := by
  induction h with
  | refl s =>
    cases hreach
    rfl
  | head _ next _ ih =>
    obtain ⟨s₂, hstep, hrest⟩ := hreach.uncons
    rw [next] at hstep
    cases hstep
    exact ih hrest

/-- No state is reached past a step that halts. -/
theorem Steps.reached_le (h : Steps m P n s s') {e : Ending} {s₂ : State}
    (hstep : step m s' = .halt e s₂) (hreach : Reached m s k s₁) : k ≤ n := by
  induction h generalizing k with
  | refl s =>
    cases k with
    | zero => exact Nat.le_refl 0
    | succ k =>
      obtain ⟨s₃, hnext, _⟩ := hreach.uncons
      rw [hstep] at hnext
      cases hnext
  | head _ next _ ih =>
    cases k with
    | zero => exact Nat.zero_le _
    | succ k =>
      obtain ⟨s₃, hnext, hrest⟩ := hreach.uncons
      rw [next] at hnext
      cases hnext
      exact Nat.succ_le_succ (ih hstep hrest)

end TinyScript.Machine
