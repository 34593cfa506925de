import TinyScript.Proofs.Lower.Statements

/-! Lowered control flow. A loop comes back to its head with the results from before
it unchanged, whatever its turns computed; and every turn begins with a step, so a
loop that the evaluation cuts off after some turns makes at least as many steps. A
loop with its condition in front and one with a clause between its turns are the
same loop; one with its condition behind differs in where its blocks come from. -/

namespace TinyScript.Core.Lower

open Ir (Module Operand Op Instr Block Terminator Builder)
open Ir.Builder
open Machine (State Safe Steps step)
open Meaning

variable {S : Setting} {p p' : Point}

/-- The run of a statement follows its evaluation. -/
def StmtMatches (S : Setting) (s : Stmt) : Prop :=
  ∀ p : Point, Here S p → p.store.Typed S.places →
    Runs S p (stmt S.checked s) (Resolved.stmt S.fuel s)

theorem stmts_match (here : Here S p) (typed : p.store.Typed S.places) {ss : List Stmt}
    (hkeeps : ∀ s ∈ ss, Resolved.Keeps S.places S.fuel s) (hss : ∀ s ∈ ss, StmtMatches S s) :
    Runs S p (stmts S.checked ss) (Resolved.stmts S.fuel ss) := by
  induction ss generalizing p with
  | nil => exact .pure here trivial
  | cons s ss ih =>
    refine (hss s List.mem_cons_self p here typed).bind (hkeeps s List.mem_cons_self _ typed) ?_
    intro _ _ p' here' typed' _ _ _
    exact ih here' typed' (fun s hs => hkeeps s (List.mem_cons_of_mem _ hs))
      fun s hs => hss s (List.mem_cons_of_mem _ hs)

theorem clause_matches (here : Here S p) (typed : p.store.Typed S.places) {s : Option Stmt}
    (hs : ∀ s' ∈ s, StmtMatches S s') :
    Runs S p (clause S.checked s) (Resolved.clause S.fuel s) := by
  cases s with
  | none => exact .pure here trivial
  | some s => exact hs s rfl p here typed

theorem condition_matches (here : Here S p) (typed : p.store.Typed S.places) {cond : Expr}
    (hcond : Condition S.places cond) :
    Matches S p (expr S.checked cond) (Resolved.condition cond)
      fun o b p' => Carries S p' o (.bool b) := by
  refine (expr_matches hcond.value p here typed).after ?_
  intro o v p' hgives ho
  have hv := (typed_of_gives (Resolved.expr_sound hcond.value _ typed) hgives).2
  rw [hcond.type] at hv
  cases hv with
  | bool b => exact ⟨b, rfl, ho⟩

/-! ### Branches -/

section Jumps

variable {b b' : Builder} {target next : Nat}

/-- What is lowered before a jump leads to where the jump goes. -/
theorem Matches.jumps {α : Type} {x : Build α} {y : Eval Unit} (hx : Runs S p' x y)
    (later : Later p p') (ended : Stage S.code ((x >>= fun _ => endBlock (.jump target) next).run
      p'.builder).2) (stage : Stage S.code b) (hblock : b.block = target) (hbody : b.body = [])
    (hhints : p.builder.hints.length ≤ b.hints.length) :
    Follows S p'.state (y p'.store) fun _ st s => Arrives S p b st s := by
  refine (hx ((endBlock_grows _ _).stage ended)).imp ?_
  rintro _ st s _ ⟨here, later', _⟩
  exact arrives_jump here (later.trans later') ended stage hblock hbody hhints

end Jumps

/-- Statements that may be run from anywhere. -/
def Runnable (S : Setting) (ss : List Stmt) : Prop :=
  ∀ p : Point, Here S p → p.store.Typed S.places →
    Runs S p (stmts S.checked ss) (Resolved.stmts S.fuel ss)

theorem oneArm_matches (here : Here S p) (typed : p.store.Typed S.places) {c : Operand}
    {value : Bool} (hc : Carries S p c (.bool value)) {yes : List Stmt} (hyes : Runnable S yes) :
    Runs S p (oneArm S.checked c yes) (if value then Resolved.stmts S.fuel yes else pure ()) := by
  intro stage
  let thenBlock := p.builder.hints.length
  let b₁ := ((create "then").run p.builder).2
  let merge := b₁.hints.length
  let b₂ := ((create "merge").run b₁).2
  let b₃ := ((endBlock (.branch c thenBlock merge) thenBlock).run b₂).2
  let b₄ := ((stmts S.checked yes).run b₃).2
  let b₅ := ((endBlock (.jump merge) merge).run b₄).2
  have stage₅ : Stage S.code b₅ := stage
  have stage₄ : Stage S.code b₄ := (endBlock_grows _ _).stage stage₅
  have stage₃ : Stage S.code b₃ := Building.stage (x := stmts S.checked yes) stage₄
  have here₂ : Here S ⟨b₂, p.store, p.state⟩ := ⟨here.layout, here.place, here.agrees⟩
  have hhints₂ : p.builder.hints.length ≤ b₂.hints.length :=
    Nat.le_trans ((create_grows _).hints _) ((create_grows _).hints b₁)
  have later₂ : Later p ⟨b₂, p.store, p.state⟩ := ⟨hhints₂, fun _ _ => rfl, .refl _⟩
  have hhints₅ : p.builder.hints.length ≤ b₅.hints.length :=
    Nat.le_trans hhints₂ (Building.hints (x := stmts S.checked yes) b₃)
  have hc₂ := hc.later later₂
  cases value with
  | true =>
    obtain ⟨s₃, hsteps₃, here₃, later₃⟩ :=
      arrives_branch (b := b₃) here₂ later₂ stage₃ hc₂ stage₃ rfl rfl hhints₂
    have hjumps := (hyes ⟨b₃, p.store, s₃⟩ here₃ typed).jumps later₃ stage₅ stage₅ rfl rfl hhints₅
    refine (hjumps.arrive.steps hsteps₃).imp ?_
    rintro _ st s _ ⟨here', later'⟩
    exact ⟨here', later', trivial⟩
  | false =>
    obtain ⟨s₅, hsteps₅, here₅, later₅⟩ :=
      arrives_branch (b := b₅) here₂ later₂ stage₃ hc₂ stage₅ rfl rfl hhints₅
    exact ⟨1, s₅, hsteps₅, here₅, later₅, trivial⟩

theorem twoArms_match (here : Here S p) (typed : p.store.Typed S.places) {c : Operand}
    {value : Bool} (hc : Carries S p c (.bool value)) {yes no : List Stmt}
    (hyes : Runnable S yes) (hno : Runnable S no) :
    Runs S p (twoArms S.checked c yes no)
      (if value then Resolved.stmts S.fuel yes else Resolved.stmts S.fuel no) := by
  intro stage
  let thenBlock := p.builder.hints.length
  let b₁ := ((create "then").run p.builder).2
  let elseBlock := b₁.hints.length
  let b₂ := ((create "else").run b₁).2
  let merge := b₂.hints.length
  let b₃ := ((create "merge").run b₂).2
  let b₄ := ((endBlock (.branch c thenBlock elseBlock) thenBlock).run b₃).2
  let b₅ := ((stmts S.checked yes).run b₄).2
  let b₆ := ((endBlock (.jump merge) elseBlock).run b₅).2
  let b₇ := ((stmts S.checked no).run b₆).2
  let b₈ := ((endBlock (.jump merge) merge).run b₇).2
  have stage₈ : Stage S.code b₈ := stage
  have stage₇ : Stage S.code b₇ := (endBlock_grows _ _).stage stage₈
  have stage₆ : Stage S.code b₆ := Building.stage (x := stmts S.checked no) stage₇
  have stage₅ : Stage S.code b₅ := (endBlock_grows _ _).stage stage₆
  have stage₄ : Stage S.code b₄ := Building.stage (x := stmts S.checked yes) stage₅
  have here₃ : Here S ⟨b₃, p.store, p.state⟩ := ⟨here.layout, here.place, here.agrees⟩
  have hhints₃ : p.builder.hints.length ≤ b₃.hints.length :=
    Nat.le_trans ((create_grows _).hints _)
      (Nat.le_trans ((create_grows _).hints b₁) ((create_grows _).hints b₂))
  have later₃ : Later p ⟨b₃, p.store, p.state⟩ := ⟨hhints₃, fun _ _ => rfl, .refl _⟩
  have hhints₆ : p.builder.hints.length ≤ b₆.hints.length :=
    Nat.le_trans hhints₃ (Building.hints (x := stmts S.checked yes) b₄)
  have hhints₈ : p.builder.hints.length ≤ b₈.hints.length :=
    Nat.le_trans hhints₆ (Building.hints (x := stmts S.checked no) b₆)
  have hc₃ := hc.later later₃
  cases value with
  | true =>
    obtain ⟨s₄, hsteps₄, here₄, later₄⟩ :=
      arrives_branch (b := b₄) here₃ later₃ stage₄ hc₃ stage₄ rfl rfl hhints₃
    have hjumps := (hyes ⟨b₄, p.store, s₄⟩ here₄ typed).jumps later₄ stage₆ stage₈ rfl rfl hhints₈
    refine (hjumps.arrive.steps hsteps₄).imp ?_
    rintro _ st s _ ⟨here', later'⟩
    exact ⟨here', later', trivial⟩
  | false =>
    obtain ⟨s₆, hsteps₆, here₆, later₆⟩ :=
      arrives_branch (b := b₆) here₃ later₃ stage₄ hc₃ stage₆ rfl rfl hhints₆
    have hjumps := (hno ⟨b₆, p.store, s₆⟩ here₆ typed).jumps later₆ stage₈ stage₈ rfl rfl hhints₈
    refine (hjumps.arrive.steps hsteps₆).imp ?_
    rintro _ st s _ ⟨here', later'⟩
    exact ⟨here', later', trivial⟩

theorem branch_matches (here : Here S p) (typed : p.store.Typed S.places) {cond : Expr}
    (hcond : Condition S.places cond) {yes no : List Stmt} (hyes : Runnable S yes)
    (hno : Runnable S no) :
    Runs S p (stmt S.checked (.branch cond yes no)) (Resolved.stmt S.fuel (.branch cond yes no)) := by
  have hcondition := condition_matches here typed hcond
  have hyields := Resolved.condition_yields typed hcond
  unfold stmt Resolved.stmt
  cases no with
  | nil =>
    refine hcondition.bind hyields ?_
    intro c value p' here' typed' _ _ hc
    exact oneArm_matches here' typed' hc hyes
  | cons s no =>
    refine hcondition.bind hyields ?_
    intro c value p' here' typed' _ _ hc
    exact twoArms_match here' typed' hc hyes hno

/-! ### Loops -/

section Loops

variable {head exit : Builder} {turn : Eval Bool}

/-- What a turn leads to: the head again, or the exit. -/
def Turned (S : Setting) (p : Point) (head exit : Builder) (again : Bool) (st : Store) (s : State) :
    Prop :=
  if again then Arrives S p head st s else Here S ⟨exit, st, s⟩ ∧ Later p ⟨exit, st, s⟩

/-- A turn from the head of a loop. -/
def Turns (S : Setting) (p : Point) (head exit : Builder) (turn : Eval Bool) : Prop :=
  ∀ (st : Store) (s : State), st.Typed S.places → Here S ⟨head, st, s⟩ → Later p ⟨head, st, s⟩ →
    Follows S s (turn st) (Turned S p head exit)

/-- Every turn begins with a step, so the turns that are left and the steps that were
made are together enough. -/
theorem repeatWhile_follows
    (hyields : ∀ st : Store, st.Typed S.places → Yields S.places st (turn st) fun _ _ => True)
    (hturn : Turns S p head exit turn) {left made : Nat} {st : Store} {s₀ s : State}
    (typed : st.Typed S.places) (steps : Steps S.code (Safe S.code S.places) made s₀ s)
    (enough : S.fuel ≤ made + left) (arrives : Arrives S p head st s) :
    Follows S s₀ (repeatWhile turn left st)
      fun _ st s => Here S ⟨exit, st, s⟩ ∧ Later p ⟨exit, st, s⟩ := by
  induction left generalizing made st s with
  | zero => exact ⟨made, s, enough, steps⟩
  | succ left ih =>
    obtain ⟨s₁, hstep, here₁, later₁⟩ := arrives
    have hfollows := hturn st s₁ typed here₁ later₁
    have hsteps := steps.trans hstep
    rw [repeatWhile, bind_apply]
    cases hr : turn st with
    | gives again st' =>
      have htyped := (typed_of_gives (hyields st typed) hr).1
      rw [hr] at hfollows
      obtain ⟨n, s', hturned, hq⟩ := hfollows
      cases again with
      | true => exact ih htyped (hsteps.trans hturned) (by omega) hq
      | false => exact ⟨_, s', hsteps.trans hturned, hq⟩
    | ends e st' =>
      rw [hr] at hfollows
      exact hfollows.steps hsteps
    | unfinished =>
      rw [hr] at hfollows
      exact hfollows.steps hsteps

theorem loop_follows
    (hyields : ∀ st : Store, st.Typed S.places → Yields S.places st (turn st) fun _ _ => True)
    (hturn : Turns S p head exit turn) {st : Store} {s : State} (typed : st.Typed S.places)
    (arrives : Arrives S p head st s) :
    Follows S s (repeatWhile turn S.fuel st)
      fun _ st s => Here S ⟨exit, st, s⟩ ∧ Later p ⟨exit, st, s⟩ :=
  repeatWhile_follows hyields hturn typed (.refl s) (by omega) arrives

/-- A condition in front of a turn leads to the turn or to the exit. -/
theorem guard_follows {cond : Option Expr} {bodyBlock : Nat} (here : Here S p')
    (typed : p'.store.Typed S.places) (later : Later p p')
    (hcond : ∀ e ∈ cond, Condition S.places e)
    (stage : Stage S.code ((guard S.checked cond bodyBlock exit.block).run p'.builder).2)
    (stageExit : Stage S.code exit) (hbody : exit.body = [])
    (hhints : p.builder.hints.length ≤ exit.hints.length) :
    Follows S p'.state (Resolved.guard cond p'.store) fun again st s =>
      Arrives S p (if again then
        ((guard S.checked cond bodyBlock exit.block).run p'.builder).2 else exit) st s := by
  cases cond with
  | none =>
    exact ⟨0, p'.state, .refl _, arrives_jump here later stage stage rfl rfl later.hints⟩
  | some cond =>
    have hcondition := condition_matches here typed (hcond cond rfl)
    refine (hcondition ((endBlock_grows _ _).stage stage)).imp ?_
    rintro value st s _ ⟨here', later', hc⟩
    cases value with
    | true =>
      exact arrives_branch here' (later.trans later') stage hc stage rfl rfl
        (later.trans later').hints
    | false => exact arrives_branch here' (later.trans later') stage hc stageExit rfl hbody hhints

/-- A loop that asks before each turn. -/
theorem guarded_turns {cond : Option Expr} {bodyBlock : Nat} {rest : Eval Bool}
    (hcond : ∀ e ∈ cond, Condition S.places e)
    (stage : Stage S.code ((guard S.checked cond bodyBlock exit.block).run head).2)
    (stageExit : Stage S.code exit) (hbody : exit.body = [])
    (hhints : p.builder.hints.length ≤ exit.hints.length)
    (hrest : ∀ (st : Store) (s : State), st.Typed S.places →
      Here S ⟨((guard S.checked cond bodyBlock exit.block).run head).2, st, s⟩ →
      Later p ⟨((guard S.checked cond bodyBlock exit.block).run head).2, st, s⟩ →
      Follows S s (rest st) (Turned S p head exit)) :
    Turns S p head exit (do if ← Resolved.guard cond then rest else return false) := by
  intro st s typed here later
  refine (guard_follows here typed later hcond stage stageExit hbody hhints).bind ?_
  intro again st' s' hgives harrives
  have typed' := (typed_of_gives (Resolved.guard_yields typed hcond) hgives).1
  obtain ⟨s'', hstep, here', later'⟩ := harrives
  cases again with
  | true => exact (hrest st' s'' typed' here' later').steps hstep
  | false => exact ⟨1, s'', hstep, here', later'⟩

theorem loopWhile_matches (here : Here S p) (typed : p.store.Typed S.places) {cond : Expr}
    (hcond : Condition S.places cond) {body : List Stmt}
    (hkeeps : ∀ s ∈ body, Resolved.Keeps S.places S.fuel s) (hbody : Runnable S body) :
    Runs S p (stmt S.checked (.loopWhile cond body))
      (Resolved.stmt S.fuel (.loopWhile cond body)) := by
  intro stage
  unfold stmt at stage ⊢
  let condBlock := p.builder.hints.length
  let b₁ := ((create "while.cond").run p.builder).2
  let bodyBlock := b₁.hints.length
  let b₂ := ((create "while.body").run b₁).2
  let exitBlock := b₂.hints.length
  let b₃ := ((create "while.exit").run b₂).2
  let head := ((endBlock (.jump condBlock) condBlock).run b₃).2
  let b₅ := ((guard S.checked (some cond) bodyBlock exitBlock).run head).2
  let b₆ := ((stmts S.checked body).run b₅).2
  let exit := ((endBlock (.jump condBlock) exitBlock).run b₆).2
  have stageExit : Stage S.code exit := stage
  have stage₆ : Stage S.code b₆ := (endBlock_grows _ _).stage stageExit
  have stage₅ : Stage S.code b₅ := Building.stage (x := stmts S.checked body) stage₆
  have stageHead : Stage S.code head := (guard_grows _ _ _).stage stage₅
  have here₃ : Here S ⟨b₃, p.store, p.state⟩ := ⟨here.layout, here.place, here.agrees⟩
  have hhints₃ : p.builder.hints.length ≤ b₃.hints.length :=
    Nat.le_trans ((create_grows _).hints _)
      (Nat.le_trans ((create_grows _).hints b₁) ((create_grows _).hints b₂))
  have hhints : p.builder.hints.length ≤ exit.hints.length :=
    Nat.le_trans hhints₃ (Nat.le_trans ((guard_grows _ _ _).hints head)
      (Building.hints (x := stmts S.checked body) b₅))
  have later₃ : Later p ⟨b₃, p.store, p.state⟩ := ⟨hhints₃, fun _ _ => rfl, .refl _⟩
  have harrives := arrives_jump (b := head) here₃ later₃ stageHead stageHead rfl rfl hhints₃
  have hcond' : ∀ e ∈ some cond, Condition S.places e := by
    rintro e ⟨⟩
    exact hcond
  have hturns : Turns S p head exit (do
      if ← Resolved.guard (some cond) then do
        Resolved.stmts S.fuel body
        return true
      else return false) := by
    refine guarded_turns hcond' stage₅ stageExit rfl hhints ?_
    intro st s typed' here' later'
    have hjumps := (hbody _ here' typed').jumps later' stageExit stageHead rfl rfl hhints₃
    refine hjumps.bind ?_
    intro _ st' s' _ harrives'
    exact ⟨0, s', .refl _, harrives'⟩
  have hyields : ∀ st : Store, st.Typed S.places → Yields S.places st
      ((do
        if ← Resolved.guard (some cond) then do
          Resolved.stmts S.fuel body
          return true
        else return false : Eval Bool) st) fun _ _ => True := fun st typed' =>
    Resolved.turn_yields (Resolved.condition_yields typed' hcond) fun st typed' =>
      Resolved.body_yields hkeeps typed'
  refine (loop_follows hyields hturns typed harrives).imp ?_
  rintro _ st s _ ⟨here', later'⟩
  exact ⟨here', later', trivial⟩

theorem doWhile_matches (here : Here S p) (typed : p.store.Typed S.places) {cond : Expr}
    (hcond : Condition S.places cond) {body : List Stmt}
    (hkeeps : ∀ s ∈ body, Resolved.Keeps S.places S.fuel s) (hbody : Runnable S body) :
    Runs S p (stmt S.checked (.doWhile body cond)) (Resolved.stmt S.fuel (.doWhile body cond)) := by
  intro stage
  unfold stmt at stage ⊢
  let bodyBlock := p.builder.hints.length
  let b₁ := ((create "do.body").run p.builder).2
  let condBlock := b₁.hints.length
  let b₂ := ((create "do.cond").run b₁).2
  let exitBlock := b₂.hints.length
  let b₃ := ((create "do.exit").run b₂).2
  let head := ((endBlock (.jump bodyBlock) bodyBlock).run b₃).2
  let b₅ := ((stmts S.checked body).run head).2
  let b₆ := ((endBlock (.jump condBlock) condBlock).run b₅).2
  let b₇ := ((expr S.checked cond).run b₆).2
  let exit := ((endBlock (.branch ((expr S.checked cond).run b₆).1 bodyBlock exitBlock)
    exitBlock).run b₇).2
  have stageExit : Stage S.code exit := stage
  have stage₇ : Stage S.code b₇ := (endBlock_grows _ _).stage stageExit
  have stage₆ : Stage S.code b₆ := Building.stage (x := expr S.checked cond) stage₇
  have stage₅ : Stage S.code b₅ := (endBlock_grows _ _).stage stage₆
  have stageHead : Stage S.code head := Building.stage (x := stmts S.checked body) stage₅
  have here₃ : Here S ⟨b₃, p.store, p.state⟩ := ⟨here.layout, here.place, here.agrees⟩
  have hhints₃ : p.builder.hints.length ≤ b₃.hints.length :=
    Nat.le_trans ((create_grows _).hints _)
      (Nat.le_trans ((create_grows _).hints b₁) ((create_grows _).hints b₂))
  have hhints₆ : p.builder.hints.length ≤ b₆.hints.length :=
    Nat.le_trans hhints₃ (Building.hints (x := stmts S.checked body) head)
  have hhints : p.builder.hints.length ≤ exit.hints.length :=
    Nat.le_trans hhints₆ (Building.hints (x := expr S.checked cond) b₆)
  have later₃ : Later p ⟨b₃, p.store, p.state⟩ := ⟨hhints₃, fun _ _ => rfl, .refl _⟩
  have harrives := arrives_jump (b := head) here₃ later₃ stageHead stageHead rfl rfl hhints₃
  have hturns : Turns S p head exit (do
      Resolved.stmts S.fuel body
      Resolved.condition cond) := by
    intro st s typed' here' later'
    have hjumps := (hbody _ here' typed').jumps later' stage₆ stage₆ rfl rfl hhints₆
    refine hjumps.bind ?_
    intro _ st₆ s₆ hgives harrives₆
    have typed₆ := (typed_of_gives (Resolved.stmts_yields typed' hkeeps) hgives).1
    obtain ⟨s₆', hstep₆, here₆, later₆⟩ := harrives₆
    refine Follows.steps hstep₆ ?_
    have hcondition := condition_matches here₆ typed₆ hcond stage₇
    -- the branch back is the step the next turn begins with, the one out is part of this turn
    cases hr : Resolved.condition cond st₆ with
    | gives again st₇ =>
      rw [hr] at hcondition
      obtain ⟨n, s₇, hsteps₇, here₇, later₇, hc⟩ := hcondition
      have hlater := later₆.trans later₇
      cases again with
      | true =>
        refine ⟨n, s₇, hsteps₇, ?_⟩
        exact arrives_branch (b := head) here₇ hlater stageExit hc stageHead rfl rfl hhints₃
      | false =>
        obtain ⟨s₈, hstep₈, here₈, later₈⟩ :=
          arrives_branch (b := exit) here₇ hlater stageExit hc stageExit rfl rfl hhints
        exact ⟨n + 1, s₈, hsteps₇.trans hstep₈, here₈, later₈⟩
    | ends e st₇ =>
      rw [hr] at hcondition
      exact hcondition
    | unfinished =>
      rw [hr] at hcondition
      exact hcondition
  have hyields : ∀ st : Store, st.Typed S.places → Yields S.places st
      ((do Resolved.stmts S.fuel body; Resolved.condition cond : Eval Bool) st) fun _ _ => True :=
    fun st typed' => Resolved.askedAfter_yields hkeeps hcond typed'
  refine (loop_follows hyields hturns typed harrives).imp ?_
  rintro _ st s _ ⟨here', later'⟩
  exact ⟨here', later', trivial⟩

theorem repeated_matches (here : Here S p) (typed : p.store.Typed S.places) {cond : Option Expr}
    (hcond : ∀ e ∈ cond, Condition S.places e) {step : Option Stmt} {body : List Stmt}
    (hkeepsBody : ∀ s ∈ body, Resolved.Keeps S.places S.fuel s)
    (hkeepsStep : ∀ s ∈ step, Resolved.Keeps S.places S.fuel s) (hbody : Runnable S body)
    (hstep : ∀ s ∈ step, StmtMatches S s) :
    Runs S p (repeated S.checked cond step body)
      (repeatWhile (do
        if ← Resolved.guard cond then do
          Resolved.stmts S.fuel body
          Resolved.clause S.fuel step
          return true
        else return false) S.fuel) := by
  intro stage
  let condBlock := p.builder.hints.length
  let b₁ := ((create "for.cond").run p.builder).2
  let bodyBlock := b₁.hints.length
  let b₂ := ((create "for.body").run b₁).2
  let stepBlock := b₂.hints.length
  let b₃ := ((create "for.step").run b₂).2
  let exitBlock := b₃.hints.length
  let b₄ := ((create "for.exit").run b₃).2
  let head := ((endBlock (.jump condBlock) condBlock).run b₄).2
  let b₆ := ((guard S.checked cond bodyBlock exitBlock).run head).2
  let b₇ := ((stmts S.checked body).run b₆).2
  let b₈ := ((endBlock (.jump stepBlock) stepBlock).run b₇).2
  let b₉ := ((clause S.checked step).run b₈).2
  let exit := ((endBlock (.jump condBlock) exitBlock).run b₉).2
  have stageExit : Stage S.code exit := stage
  have stage₉ : Stage S.code b₉ := (endBlock_grows _ _).stage stageExit
  have stage₈ : Stage S.code b₈ := Building.stage (x := clause S.checked step) stage₉
  have stage₇ : Stage S.code b₇ := (endBlock_grows _ _).stage stage₈
  have stage₆ : Stage S.code b₆ := Building.stage (x := stmts S.checked body) stage₇
  have stageHead : Stage S.code head := (guard_grows _ _ _).stage stage₆
  have here₄ : Here S ⟨b₄, p.store, p.state⟩ := ⟨here.layout, here.place, here.agrees⟩
  have hhints₄ : p.builder.hints.length ≤ b₄.hints.length :=
    Nat.le_trans (Nat.le_trans ((create_grows _).hints _) ((create_grows _).hints b₁))
      (Nat.le_trans ((create_grows _).hints b₂) ((create_grows _).hints b₃))
  have hhints₈ : p.builder.hints.length ≤ b₈.hints.length :=
    Nat.le_trans hhints₄ (Nat.le_trans ((guard_grows _ _ _).hints head)
      (Building.hints (x := stmts S.checked body) b₆))
  have hhints : p.builder.hints.length ≤ exit.hints.length :=
    Nat.le_trans hhints₈ (Building.hints (x := clause S.checked step) b₈)
  have later₄ : Later p ⟨b₄, p.store, p.state⟩ := ⟨hhints₄, fun _ _ => rfl, .refl _⟩
  have harrives := arrives_jump (b := head) here₄ later₄ stageHead stageHead rfl rfl hhints₄
  have hturns : Turns S p head exit (do
      if ← Resolved.guard cond then do
        Resolved.stmts S.fuel body
        Resolved.clause S.fuel step
        return true
      else return false) := by
    refine guarded_turns hcond stage₆ stageExit rfl hhints ?_
    intro st s typed' here' later'
    have hjumps := (hbody _ here' typed').jumps later' stage₈ stage₈ rfl rfl hhints₈
    refine hjumps.bind ?_
    intro _ st₈ s₈ hgives harrives₈
    have typed₈ := (typed_of_gives (Resolved.stmts_yields typed' hkeepsBody) hgives).1
    obtain ⟨s₈', hstep₈, here₈, later₈⟩ := harrives₈
    refine Follows.steps hstep₈ ?_
    have hback := (clause_matches here₈ typed₈ hstep).jumps later₈ stageExit stageHead rfl rfl
      hhints₄
    refine hback.bind ?_
    intro _ st' s' _ harrives'
    exact ⟨0, s', .refl _, harrives'⟩
  have hyields : ∀ st : Store, st.Typed S.places → Yields S.places st
      ((do
        if ← Resolved.guard cond then do
          Resolved.stmts S.fuel body
          Resolved.clause S.fuel step
          return true
        else return false : Eval Bool) st) fun _ _ => True := fun st typed' =>
    Resolved.turn_yields (Resolved.guard_yields typed' hcond) fun st typed' =>
      Resolved.bodyThenStep_yields hkeepsBody hkeepsStep typed'
  refine (loop_follows hyields hturns typed harrives).imp ?_
  rintro _ st s _ ⟨here', later'⟩
  exact ⟨here', later', trivial⟩

end Loops

/-! ### Statements -/

theorem stmt_matches {s : Stmt} (hs : s.Typed S.places) : StmtMatches S s := by
  induction hs with
  | declare place =>
    intro p here typed stage
    refine ⟨0, p.state, .refl _, ⟨here.layout, here.place, here.agrees⟩, ⟨?_, fun _ _ => rfl, .refl _⟩,
      trivial⟩
    exact (addSlot_grows _ _).hints p.builder
  | init hs => exact fun p here typed => declare_matches here typed hs
  | assign hs => exact fun p here typed => assign_matches here typed hs
  | setElement array index value atype itype etype =>
    exact fun p here typed => setElement_matches here typed array index value atype itype etype
  | call args types => exact fun p here typed => callStmt_matches here typed args types
  | eval value => exact fun p here typed => eval_matches here typed value
  | printText newline value type =>
    intro p here typed
    refine (expr_matches value p here typed).bind (Resolved.expr_sound value _ typed) ?_
    intro o v p' here' _ _ hv ho
    rw [type] at hv
    cases hv
    exact printText_matches here' newline ho
  | printInt newline value type =>
    intro p here typed
    refine (expr_matches value p here typed).bind (Resolved.expr_sound value _ typed) ?_
    intro o v p' here' _ _ hv ho
    rw [type] at hv
    cases hv
    exact printInt_matches here' newline ho
  | branch condition first second ihyes ihno =>
    have hyes : Runnable S _ := fun p here typed => stmts_match here typed
      (fun s hs => Resolved.stmt_keeps S.fuel (first s hs)) ihyes
    have hno : Runnable S _ := fun p here typed => stmts_match here typed
      (fun s hs => Resolved.stmt_keeps S.fuel (second s hs)) ihno
    exact fun p here typed => branch_matches here typed condition hyes hno
  | loopWhile condition turn ih =>
    have hkeeps := fun s hs => Resolved.stmt_keeps S.fuel (turn s hs)
    exact fun p here typed => loopWhile_matches here typed condition hkeeps
      fun p here typed => stmts_match here typed hkeeps ih
  | doWhile turn condition ih =>
    have hkeeps := fun s hs => Resolved.stmt_keeps S.fuel (turn s hs)
    exact fun p here typed => doWhile_matches here typed condition hkeeps
      fun p here typed => stmts_match here typed hkeeps ih
  | @loopFor init step cond body first condition turn last ihfirst ihturn ihlast =>
    intro p here typed
    show Runs S p (clause S.checked init >>= fun _ => repeated S.checked cond step body) _
    have hkeeps := fun s hs => Resolved.stmt_keeps S.fuel (turn s hs)
    refine (clause_matches here typed ihfirst).bind
      (Resolved.clause_yields typed fun s hs => Resolved.stmt_keeps S.fuel (first s hs)) ?_
    intro _ _ p' here' typed' _ _ _
    exact repeated_matches here' typed' condition hkeeps
      (fun s hs => Resolved.stmt_keeps S.fuel (last s hs))
      (fun p here typed => stmts_match here typed hkeeps ihturn) ihlast

end TinyScript.Core.Lower
