import TinyScript.Proofs.Lower.Valid

/-! Statements and programs. The blocks a statement creates are opened one after the
other until none is left over; what other blocks lead to is free of promises, and
stays so. -/

namespace TinyScript.Core.Lower

open Ir (Module Operand Op Terminator Builder)
open Ir.Builder
open Meaning

variable {α : Type} {m : Module} {L : List Place} {checked : Bool} {q : Spot}

/-- What is built is valid, and leaves no block behind. -/
def Builds (m : Module) (q : Spot) (x : Build α) : Prop :=
  Stage m (x.run q.builder).2 → q.Valid m →
    ∃ q' : Spot, q'.builder = (x.run q.builder).2 ∧ q'.Valid m ∧ q.Since q' ∧
      q'.pending = q.pending

theorem Lowers.builds {x : Build α} (h : Lowers m q x fun _ _ => True) : Builds m q x := by
  intro stage valid
  obtain ⟨q', hb, valid', onward, _⟩ := h stage valid
  exact ⟨q', hb, valid', onward.toSince, onward.pending⟩

/-! ### Statements without blocks -/

theorem convert_lowers {c : Conversion} {source target : Ty} {o : Operand}
    (hc : Conversion.between? source target = some c) (ho : Serves m q (.ofSource source) o) :
    Lowers m q (convert o c) fun o q' => Serves m q' (.ofSource target) o := by
  have hint := serves_int m q 0
  have hdouble : Serves m q .double (.double .zero) := ⟨trivial, rfl⟩
  have cast : ∀ (kind : Ir.Cast) (t : Ir.Ty), (o.type, t) = kind.types → t ≠ .void →
      Lowers m q (emit "conv" t (.cast kind o t)) fun o q' => Serves m q' t o :=
    fun kind t htypes hvoid => .emit htypes ho.single rfl hvoid
  have htype := ho.type
  cases source <;> cases target <;> cases hc
  · exact cast .sitofp .double (by rw [htype]; rfl) (by simp)
  · exact .emit ⟨htype, .inl htype⟩ (ho.pair hint) rfl (by simp)
  · exact cast .fptosi .i32 (by rw [htype]; rfl) (by simp)
  · exact .emit ⟨htype, rfl⟩ (ho.pair hdouble) rfl (by simp)
  · exact cast .zext .i32 (by rw [htype]; rfl) (by simp)
  · exact cast .uitofp .double (by rw [htype]; rfl) (by simp)

theorem store_lowers (hslots : m.main.slots.map Ir.Slot.type = slotTypes L) {v : Var} {s : Stored}
    (hs : s.Typed L v) {o : Operand} (ho : Serves m q (.ofSource s.value.type) o) :
    Lowers m q (store v s.convert o) fun _ _ => True := by
  have last : ∀ (q : Spot) (o : Operand), Serves m q (.ofSource v.type) o →
      Lowers m q (emitVoid (.store o (.slot v.slot (.ofSource v.type)))) fun _ _ => True := by
    intro q o ho
    have hslot := serves_slot (m := m) hslots hs.place q
    refine .emitVoid ?_ (ho.pair hslot) rfl
    show Ir.Ty.ptr (.ofSource v.type) = .ptr o.type
    rw [ho.type]
  have fits := hs.fits
  unfold store
  cases hc : s.convert with
  | none =>
    rw [hc] at fits
    exact last q o (fits ▸ ho)
  | some c =>
    rw [hc] at fits
    refine .bind (convert_lowers fits ho) ?_
    exact fun o' q' _ ho' => last q' o' ho'

theorem printf_lowers {format : String} {t : Ir.Ty} {o : Operand} (ho : Serves m q t o) :
    Lowers m q (printf format o) fun _ _ => True := by
  refine .bind (.declare _) ?_
  intro _ q₁ onward₁ hdeclared
  refine .bind (.text format) ?_
  intro f q₂ onward₂ hf
  have ho₂ := (ho.onward onward₁).onward onward₂
  have htakes : Ir.External.printf.type.Takes [f.type, o.type] := by
    rw [hf.type]
    exact ⟨[o.type], rfl⟩
  refine .bind (.emit ⟨hdeclared, htakes⟩ (hf.pair ho₂) rfl (by simp)) ?_
  exact fun _ _ _ _ => .pure trivial

theorem printText_lowers (newline : Bool) {o : Operand} (ho : Serves m q (.ptr .i8) o) :
    Lowers m q (printText newline o) fun _ _ => True := by
  cases newline with
  | false => exact printf_lowers ho
  | true =>
    refine .bind (.declare _) ?_
    intro _ q₁ onward₁ hdeclared
    have htakes : Ir.External.puts.type.Takes [o.type] := by
      rw [ho.type]
      rfl
    refine .bind (.emit ⟨hdeclared, htakes⟩ (ho.onward onward₁).single rfl (by simp)) ?_
    exact fun _ _ _ _ => .pure trivial

/-! ### Blocks -/

/-- A statement is built from anywhere. -/
def StmtBuilds (m : Module) (checked : Bool) (s : Stmt) : Prop :=
  ∀ q : Spot, Builds m q (stmt checked s)

theorem Builds.seq {β : Type} {x : Build α} {f : α → Build β} [hbuild : ∀ a, Building (f a)]
    (hx : Builds m q x) (hf : ∀ a q', Builds m q' (f a)) : Builds m q (x >>= f) := by
  intro stage valid
  obtain ⟨q', hb, valid', since, hpending⟩ := hx ((hbuild _).stage stage) valid
  rw [run_bind, ← hb] at stage ⊢
  obtain ⟨q'', hb', valid'', since', hpending'⟩ := hf _ q' stage valid'
  exact ⟨q'', hb', valid'', since.trans since', hpending'.trans hpending⟩

theorem Builds.pure (a : α) : Builds m q (pure a) :=
  fun _ valid => ⟨q, rfl, valid, .refl q, rfl⟩

theorem stmts_build {ss : List Stmt} (h : ∀ s ∈ ss, StmtBuilds m checked s) (q : Spot) :
    Builds m q (stmts checked ss) := by
  induction ss generalizing q with
  | nil => exact .pure ()
  | cons s ss ih =>
    refine (h s List.mem_cons_self q).seq ?_
    exact fun _ q' => ih (fun s hs => h s (List.mem_cons_of_mem _ hs)) q'

theorem clause_builds {s : Option Stmt} (h : ∀ s' ∈ s, StmtBuilds m checked s') (q : Spot) :
    Builds m q (clause checked s) := by
  cases s with
  | none => exact .pure ()
  | some s => exact h s rfl q

/-- A condition that is lowered before a branch to free blocks. -/
theorem condition_branches {cond : Expr} {yes no next : Nat} {pending : List Nat}
    (hcond : ExprLowers m checked cond) (htype : cond.type = .bool) (valid : q.Valid m)
    (hpending : q.pending = next :: pending) (hyes : q.Offers yes) (hno : q.Offers no)
    (stage : Stage m ((do
      let c ← expr checked cond
      endBlock (.branch c yes no) next).run q.builder).2) :
    ∃ q' : Spot, q'.builder = ((do
        let c ← expr checked cond
        endBlock (.branch c yes no) next).run q.builder).2 ∧
      q'.Valid m ∧ q.Since q' ∧ q'.pending = pending := by
  obtain ⟨q₁, hb₁, valid₁, onward₁, hc⟩ := hcond q ((endBlock_grows _ _).stage stage) valid
  have hpending₁ : q₁.pending = next :: pending := onward₁.pending.trans hpending
  rw [htype] at hc
  have since := onward₁.toSince
  refine ⟨q₁.endBlock (.branch ((expr checked cond).run q.builder).1 yes no) next pending, ?_, ?_,
    since.trans (q₁.since_endBlock _ hpending₁), rfl⟩
  · show ((endBlock _ next).run q₁.builder).2 = _
    rw [hb₁]
    rfl
  · exact valid₁.branch hpending₁ hc.usable hc.type (hyes.since valid since) (hno.since valid since)

/-- What is built before a jump to a free block. -/
theorem Builds.jumps {x : Build α} {target next : Nat} {pending : List Nat} (hx : Builds m q x)
    (valid : q.Valid m) (hpending : q.pending = next :: pending) (offers : q.Offers target)
    (stage : Stage m ((x >>= fun _ => endBlock (.jump target) next).run q.builder).2) :
    ∃ q' : Spot, q'.builder = ((x >>= fun _ => endBlock (.jump target) next).run q.builder).2 ∧
      q'.Valid m ∧ q.Since q' ∧ q'.pending = pending := by
  obtain ⟨q₁, hb₁, valid₁, since₁, hsame⟩ := hx ((endBlock_grows _ _).stage stage) valid
  have hpending₁ : q₁.pending = next :: pending := hsame.trans hpending
  refine ⟨q₁.endBlock (.jump target) next pending, ?_,
    valid₁.jump hpending₁ (offers.since valid since₁), since₁.trans (q₁.since_endBlock _ hpending₁),
    rfl⟩
  show ((endBlock _ next).run q₁.builder).2 = _
  rw [hb₁]
  rfl

/-- Three free blocks, to be opened in the order they were created in. -/
def freeThree (q : Spot) (h₁ h₂ h₃ : String) : Spot :=
  { ((q.free h₁).free h₂).free h₃ with
    pending := q.builder.hints.length :: (q.free h₁).builder.hints.length ::
      ((q.free h₁).free h₂).builder.hints.length :: q.pending }

theorem freeThree_valid (valid : q.Valid m) (h₁ h₂ h₃ : String) :
    (freeThree q h₁ h₂ h₃).Valid m ∧ q.Since (freeThree q h₁ h₂ h₃) ∧
      (freeThree q h₁ h₂ h₃).Offers q.builder.hints.length ∧
      (freeThree q h₁ h₂ h₃).Offers (q.free h₁).builder.hints.length ∧
      (freeThree q h₁ h₂ h₃).Offers ((q.free h₁).free h₂).builder.hints.length := by
  let q₁ := q.free h₁
  let q₂ := q₁.free h₂
  let q₃ := q₂.free h₃
  have valid₁ : q₁.Valid m := valid.free _
  have valid₂ : q₂.Valid m := valid₁.free _
  have valid₃ : q₃.Valid m := valid₂.free _
  have hperm : q₃.pending.Perm (freeThree q h₁ h₂ h₃).pending :=
    (List.reverse_perm [q.builder.hints.length, q₁.builder.hints.length,
      q₂.builder.hints.length]).append_right q.pending
  have since₃ : q₃.Since (freeThree q h₁ h₂ h₃) := q₃.since_perm hperm
  have since₂ : q₂.Since (freeThree q h₁ h₂ h₃) := (q₂.since_create _ _).trans since₃
  have since₁ : q₁.Since (freeThree q h₁ h₂ h₃) := (q₁.since_create _ _).trans since₂
  exact ⟨valid₃.perm hperm, (q.since_create _ _).trans since₁,
    (valid.offers_free _).since valid₁ since₁, (valid₁.offers_free _).since valid₂ since₂,
    (valid₂.offers_free _).since valid₃ since₃⟩

theorem loopWhile_builds {cond : Expr} {body : List Stmt} (hcond : ExprLowers m checked cond)
    (htype : cond.type = .bool) (hbody : ∀ s ∈ body, StmtBuilds m checked s) :
    StmtBuilds m checked (.loopWhile cond body) := by
  intro q stage valid
  unfold stmt at stage ⊢
  let condBlock := q.builder.hints.length
  let bodyBlock := (q.free "while.cond").builder.hints.length
  let exit := ((q.free "while.cond").free "while.body").builder.hints.length
  let q₃ := freeThree q "while.cond" "while.body" "while.exit"
  obtain ⟨valid₃, since₃, hcond₃, hbody₃, hexit₃⟩ :=
    freeThree_valid valid "while.cond" "while.body" "while.exit"
  let q₄ := q₃.endBlock (.jump condBlock) condBlock (bodyBlock :: exit :: q.pending)
  have valid₄ : q₄.Valid m := valid₃.jump rfl hcond₃
  have since₄ : q₃.Since q₄ := q₃.since_endBlock _ rfl
  have hcond₄ := hcond₃.since valid₃ since₄
  have hguard : Stage m ((do
      let c ← expr checked cond
      endBlock (.branch c bodyBlock exit) bodyBlock).run q₄.builder).2 :=
    Building.stage (x := do stmts checked body; endBlock (.jump condBlock) exit) stage
  obtain ⟨q₅, hb₅, valid₅, since₅, hpending₅⟩ := condition_branches hcond htype valid₄ rfl
    (hbody₃.since valid₃ since₄) (hexit₃.since valid₃ since₄) hguard
  obtain ⟨q₆, hb₆, valid₆, since₆, hpending₆⟩ := (stmts_build hbody q₅).jumps valid₅ hpending₅
    (hcond₄.since valid₄ since₅) (by rw [hb₅]; exact stage)
  refine ⟨q₆, ?_, valid₆, ?_, hpending₆⟩
  · rw [hb₆, hb₅]
    rfl
  · exact since₃.trans (since₄.trans (since₅.trans since₆))

theorem doWhile_builds {cond : Expr} {body : List Stmt} (hcond : ExprLowers m checked cond)
    (htype : cond.type = .bool) (hbody : ∀ s ∈ body, StmtBuilds m checked s) :
    StmtBuilds m checked (.doWhile body cond) := by
  intro q stage valid
  unfold stmt at stage ⊢
  let bodyBlock := q.builder.hints.length
  let condBlock := (q.free "do.body").builder.hints.length
  let exit := ((q.free "do.body").free "do.cond").builder.hints.length
  let q₃ := freeThree q "do.body" "do.cond" "do.exit"
  obtain ⟨valid₃, since₃, hbody₃, hcond₃, hexit₃⟩ :=
    freeThree_valid valid "do.body" "do.cond" "do.exit"
  let q₄ := q₃.endBlock (.jump bodyBlock) bodyBlock (condBlock :: exit :: q.pending)
  have valid₄ : q₄.Valid m := valid₃.jump rfl hbody₃
  have since₄ : q₃.Since q₄ := q₃.since_endBlock _ rfl
  have hturn : Stage m ((do
      stmts checked body
      endBlock (.jump condBlock) condBlock).run q₄.builder).2 :=
    Building.stage (x := do
      let c ← expr checked cond
      endBlock (.branch c bodyBlock exit) exit) stage
  obtain ⟨q₅, hb₅, valid₅, since₅, hpending₅⟩ := (stmts_build hbody q₄).jumps valid₄ rfl
    (hcond₃.since valid₃ since₄) hturn
  have since₃₅ := since₄.trans since₅
  obtain ⟨q₆, hb₆, valid₆, since₆, hpending₆⟩ := condition_branches hcond htype valid₅ hpending₅
    (hbody₃.since valid₃ since₃₅) (hexit₃.since valid₃ since₃₅) (by rw [hb₅]; exact stage)
  refine ⟨q₆, ?_, valid₆, ?_, hpending₆⟩
  · rw [hb₆, hb₅]
    rfl
  · exact since₃.trans (since₃₅.trans since₆)

theorem guard_builds {cond : Option Expr} {bodyBlock exit : Nat} {pending : List Nat}
    (hcond : ∀ e ∈ cond, ExprLowers m checked e ∧ e.type = .bool) (valid : q.Valid m)
    (hpending : q.pending = bodyBlock :: pending) (hbody : q.Offers bodyBlock)
    (hexit : q.Offers exit) (stage : Stage m ((guard checked cond bodyBlock exit).run q.builder).2) :
    ∃ q' : Spot, q'.builder = ((guard checked cond bodyBlock exit).run q.builder).2 ∧
      q'.Valid m ∧ q.Since q' ∧ q'.pending = pending := by
  cases cond with
  | none =>
    exact ⟨q.endBlock (.jump bodyBlock) bodyBlock pending, rfl, valid.jump hpending hbody,
      q.since_endBlock _ hpending, rfl⟩
  | some cond =>
    obtain ⟨hlowers, htype⟩ := hcond cond rfl
    exact condition_branches hlowers htype valid hpending hbody hexit stage

theorem loopFor_builds {init step : Option Stmt} {cond : Option Expr} {body : List Stmt}
    (hinit : ∀ s ∈ init, StmtBuilds m checked s)
    (hcond : ∀ e ∈ cond, ExprLowers m checked e ∧ e.type = .bool)
    (hbody : ∀ s ∈ body, StmtBuilds m checked s) (hstep : ∀ s ∈ step, StmtBuilds m checked s) :
    StmtBuilds m checked (.loopFor init cond step body) := by
  intro q
  show Builds m q (clause checked init >>= fun _ => repeated checked cond step body)
  refine (clause_builds hinit q).seq ?_
  intro _ q stage valid
  let condBlock := q.builder.hints.length
  let bodyBlock := (q.free "for.cond").builder.hints.length
  let stepBlock := ((q.free "for.cond").free "for.body").builder.hints.length
  let q₃ := freeThree q "for.cond" "for.body" "for.step"
  obtain ⟨valid₃, since₃, hcond₃, hbody₃, hstep₃⟩ :=
    freeThree_valid valid "for.cond" "for.body" "for.step"
  let exit := q₃.builder.hints.length
  let q₄ := q₃.free "for.exit"
  have valid₄ : q₄.Valid m := valid₃.free _
  have since₄ : q₃.Since q₄ := q₃.since_create _ _
  -- the exit was created last and is opened last
  have hperm : q₄.pending.Perm (condBlock :: bodyBlock :: stepBlock :: exit :: q.pending) := by
    show (exit :: ([condBlock, bodyBlock, stepBlock] ++ q.pending)).Perm
      ([condBlock, bodyBlock, stepBlock] ++ exit :: q.pending)
    exact List.perm_middle.symm
  let q₅ : Spot := { q₄ with pending := condBlock :: bodyBlock :: stepBlock :: exit :: q.pending }
  have valid₅ : q₅.Valid m := valid₄.perm hperm
  have since₅ : q₄.Since q₅ := q₄.since_perm hperm
  have since₃₅ := since₄.trans since₅
  have hexit₅ : q₅.Offers exit := (valid₃.offers_free _).since valid₄ since₅
  have hcond₅ := hcond₃.since valid₃ since₃₅
  let q₆ := q₅.endBlock (.jump condBlock) condBlock (bodyBlock :: stepBlock :: exit :: q.pending)
  have valid₆ : q₆.Valid m := valid₅.jump rfl hcond₅
  have since₆ : q₅.Since q₆ := q₅.since_endBlock _ rfl
  have since₃₆ := since₃₅.trans since₆
  let last : Build Unit := do
    clause checked step
    endBlock (.jump condBlock) exit
  let turn : Build Unit := do
    stmts checked body
    endBlock (.jump stepBlock) stepBlock
  have hguard : Stage m ((guard checked cond bodyBlock exit).run q₆.builder).2 :=
    Building.stage (x := turn >>= fun _ => last) stage
  obtain ⟨q₇, hb₇, valid₇, since₇, hpending₇⟩ := guard_builds hcond valid₆ rfl
    (hbody₃.since valid₃ since₃₆) (hexit₅.since valid₅ since₆) hguard
  have since₃₇ := since₃₆.trans since₇
  have hturn : Stage m (turn.run q₇.builder).2 := by
    rw [hb₇]
    exact Building.stage (x := last) stage
  obtain ⟨q₈, hb₈, valid₈, since₈, hpending₈⟩ := (stmts_build hbody q₇).jumps valid₇ hpending₇
    (hstep₃.since valid₃ since₃₇) hturn
  have since₃₈ := since₃₇.trans since₈
  obtain ⟨q₉, hb₉, valid₉, since₉, hpending₉⟩ := (clause_builds hstep q₈).jumps valid₈ hpending₈
    (hcond₃.since valid₃ since₃₈) (by rw [hb₈, hb₇]; exact stage)
  refine ⟨q₉, ?_, valid₉, ?_, hpending₉⟩
  · rw [hb₉, hb₈, hb₇]
    rfl
  · exact since₃.trans (since₃₈.trans since₉)

theorem oneArm_builds {c : Operand} (hc : Serves m q .i1 c) {yes : List Stmt}
    (hyes : ∀ s ∈ yes, StmtBuilds m checked s) : Builds m q (oneArm checked c yes) := by
  intro stage valid
  let thenBlock := q.builder.hints.length
  let q₁ := q.free "then"
  let merge := q₁.builder.hints.length
  let q₂ := q₁.free "merge"
  have valid₁ : q₁.Valid m := valid.free _
  have valid₂ : q₂.Valid m := valid₁.free _
  have hperm : q₂.pending.Perm (thenBlock :: merge :: q.pending) := .swap _ _ _
  let q₃ : Spot := { q₂ with pending := thenBlock :: merge :: q.pending }
  have valid₃ : q₃.Valid m := valid₂.perm hperm
  have since₃ : q₂.Since q₃ := q₂.since_perm hperm
  have since₁₃ : q₁.Since q₃ := (q₁.since_create _ _).trans since₃
  have hready : q₃.ready = q.ready := (valid₁.create_ready _ _).trans (valid.create_ready _ _)
  have hthen : q₃.Offers thenBlock := (valid.offers_free _).since valid₁ since₁₃
  have hmerge : q₃.Offers merge := (valid₁.offers_free _).since valid₂ since₃
  let q₄ := q₃.endBlock (.branch c thenBlock merge) thenBlock (merge :: q.pending)
  have valid₄ : q₄.Valid m := valid₃.branch rfl (hready ▸ hc.usable) hc.type hthen hmerge
  have since₄ : q₃.Since q₄ := q₃.since_endBlock _ rfl
  obtain ⟨q₅, hb₅, valid₅, since₅, hpending₅⟩ := (stmts_build hyes q₄).jumps valid₄ rfl
    (hmerge.since valid₃ since₄) stage
  exact ⟨q₅, hb₅, valid₅, (q.since_create _ _).trans (since₁₃.trans (since₄.trans since₅)),
    hpending₅⟩

theorem twoArms_build {c : Operand} (hc : Serves m q .i1 c) {yes no : List Stmt}
    (hyes : ∀ s ∈ yes, StmtBuilds m checked s) (hno : ∀ s ∈ no, StmtBuilds m checked s) :
    Builds m q (twoArms checked c yes no) := by
  intro stage valid
  let thenBlock := q.builder.hints.length
  let elseBlock := (q.free "then").builder.hints.length
  let merge := ((q.free "then").free "else").builder.hints.length
  let q₃ := freeThree q "then" "else" "merge"
  obtain ⟨valid₃, since₃, hthen, helse, hmerge⟩ := freeThree_valid valid "then" "else" "merge"
  have hready : q₃.ready = q.ready := (((valid.free _).free _).create_ready _ _).trans
    (((valid.free _).create_ready _ _).trans (valid.create_ready _ _))
  let q₄ := q₃.endBlock (.branch c thenBlock elseBlock) thenBlock (elseBlock :: merge :: q.pending)
  have valid₄ : q₄.Valid m := valid₃.branch rfl (hready ▸ hc.usable) hc.type hthen helse
  have since₄ : q₃.Since q₄ := q₃.since_endBlock _ rfl
  have hfirst : Stage m ((do
      stmts checked yes
      endBlock (.jump merge) elseBlock).run q₄.builder).2 :=
    Building.stage (x := do stmts checked no; endBlock (.jump merge) merge) stage
  obtain ⟨q₅, hb₅, valid₅, since₅, hpending₅⟩ := (stmts_build hyes q₄).jumps valid₄ rfl
    (hmerge.since valid₃ since₄) hfirst
  obtain ⟨q₆, hb₆, valid₆, since₆, hpending₆⟩ := (stmts_build hno q₅).jumps valid₅ hpending₅
    (hmerge.since valid₃ (since₄.trans since₅)) (by rw [hb₅]; exact stage)
  refine ⟨q₆, ?_, valid₆, since₃.trans (since₄.trans (since₅.trans since₆)), hpending₆⟩
  rw [hb₆, hb₅]
  rfl

theorem branch_builds {cond : Expr} {yes no : List Stmt} (hcond : ExprLowers m checked cond)
    (htype : cond.type = .bool) (hyes : ∀ s ∈ yes, StmtBuilds m checked s)
    (hno : ∀ s ∈ no, StmtBuilds m checked s) : StmtBuilds m checked (.branch cond yes no) := by
  have arms : ∀ {x : Operand → Build Unit} [∀ c, Building (x c)],
      (∀ q' c, Serves m q' .i1 c → Builds m q' (x c)) → ∀ q, Builds m q (expr checked cond >>= x) := by
    intro x hbuild hx q stage valid
    obtain ⟨q₁, hb₁, valid₁, onward₁, hc⟩ := hcond q ((hbuild _).stage stage) valid
    rw [run_bind, ← hb₁] at stage ⊢
    rw [htype] at hc
    obtain ⟨q₂, hb₂, valid₂, since₂, hpending₂⟩ := hx q₁ _ hc stage valid₁
    exact ⟨q₂, hb₂, valid₂, onward₁.toSince.trans since₂, hpending₂.trans onward₁.pending⟩
  cases no with
  | nil => exact arms (x := fun c => oneArm checked c yes) fun q' c hc => oneArm_builds hc hyes
  | cons s no =>
    exact arms (x := fun c => twoArms checked c yes (s :: no)) fun q' c hc =>
      twoArms_build hc hyes hno

/-! ### Statements and programs -/

theorem stmt_builds (hslots : m.main.slots.map Ir.Slot.type = slotTypes L) (hsolid : Solid L)
    {s : Stmt} (hs : s.Typed L) : StmtBuilds m checked s := by
  have lower : ∀ {e : Expr}, Core.Typed L e → ExprLowers m checked e :=
    fun he => expr_lowers hslots hsolid he
  induction hs with
  | declare place => exact fun q => (Lowers.addSlot _ _).builds
  | init hs =>
    intro q
    refine Lowers.builds (.bind (lower hs.value q) ?_)
    intro o q₁ _ ho
    refine .bind (.addSlot _ _) ?_
    exact fun _ q₂ onward₂ _ => store_lowers hslots hs (ho.onward onward₂)
  | assign hs =>
    intro q
    refine Lowers.builds (.bind (lower hs.value q) ?_)
    exact fun o q₁ _ ho => store_lowers hslots hs ho
  | @setElement elem a i e array index value atype itype etype =>
    intro q
    refine Lowers.builds (.bind (lower array q) ?_)
    intro o q₁ _ ho
    refine .bind (lower index q₁) ?_
    intro o' q₂ onward₂ ho'
    rw [atype] at ho
    rw [itype] at ho'
    refine .bind (elementAddress_lowers (ho.onward onward₂) ho') ?_
    intro address q₃ _ haddress
    refine .bind (lower value q₃) ?_
    intro o'' q₄ onward₄ ho''
    have haddress₄ := haddress.onward onward₄
    refine .emitVoid ?_ (ho''.pair haddress₄) rfl
    show address.type = .ptr o''.type
    rw [haddress.type, ho''.type, etype]
  | call args types =>
    intro q
    refine Lowers.builds (.bind (callExpr_lowers (fun e he => lower (args e he)) types q) ?_)
    exact fun _ _ _ _ => .pure trivial
  | eval value =>
    intro q
    refine Lowers.builds (.bind (lower value q) ?_)
    exact fun _ _ _ _ => .pure trivial
  | printText newline value type =>
    intro q
    refine Lowers.builds (.bind (lower value q) ?_)
    intro o q₁ _ ho
    rw [type] at ho
    exact printText_lowers newline ho
  | printInt newline value type =>
    intro q
    refine Lowers.builds (.bind (lower value q) ?_)
    exact fun o q₁ _ ho => printf_lowers ho
  | branch condition _ _ hyes hno =>
    exact branch_builds (lower condition.value) condition.type hyes hno
  | loopWhile condition _ hbody =>
    exact loopWhile_builds (lower condition.value) condition.type hbody
  | doWhile _ condition hbody =>
    exact doWhile_builds (lower condition.value) condition.type hbody
  | loopFor _ condition _ _ hinit hbody hstep =>
    exact loopFor_builds hinit
      (fun e he => ⟨lower (condition e he).value, (condition e he).type⟩) hbody hstep

/-- Before anything is built, there is the open entry. -/
theorem start_valid (m : Module) : Spot.Valid m ⟨fun _ _ _ => False, [], start⟩ where
  ids := List.nodup_singleton 0
  below := by
    intro k hk
    rw [List.mem_singleton.1 hk]
    exact Nat.zero_lt_one
  entry := ⟨List.mem_cons_self, fun h => (nomatch h)⟩
  first := fun _ _ h => h
  results := List.nodup_nil
  resultsBelow := fun _ h => (nomatch h)
  promised := fun _ _ _ h => h.elim
  fits := trivial
  closed := fun _ h => (nomatch h)
  noReturn := fun _ h => (nomatch h)

theorem lower_wellFormed {p : Program} (typed : p.Typed) (solid : Solid (Resolved.stmtsPlaces p))
    (options : Options) : (p.lower options).WellFormed := by
  have hbuild : ∀ s ∈ p, StmtBuilds (p.lower options) options.boundsChecks s :=
    fun s hs => stmt_builds (lower_slots p options) solid (typed s hs)
  obtain ⟨q, hb, valid, _, hpending⟩ := stmts_build hbuild ⟨fun _ _ _ => False, [], start⟩
    (final_stage p options) (start_valid _)
  refine valid.wellFormed hpending ?_ (lower_ended p options) ?_
  · rw [hb]
    exact lower_blocks p options
  · rw [lower_slots_eq]
    exact lower_hoists p options

end TinyScript.Core.Lower
