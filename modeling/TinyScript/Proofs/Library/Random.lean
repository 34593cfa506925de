import Mathlib.Algebra.Group.Nat.Even
import Mathlib.Data.Nat.ModEq
import Mathlib.Data.Nat.Prime.Basic
import TinyScript.Execution
import TinyScript.Proofs.Ir.Functions
import TinyScript.Proofs.Library.Arithmetic

/-! Random numbers over runs of any length. Each shift mixes a word with an image of itself
that keeps sums without carry and has no fixed point but zero, so two words never become the
same, and none becomes zero but zero. The library moves the state by such a step, or sets it
to an odd word, or leaves it alone: it is never zero. A number between two bounds is computed
without leaving a word of 64 bits, although the span of all 32-bit integers has 33. -/

namespace TinyScript.Library

namespace Random

/-! ### The step between states -/

/-- A word mixed with an image of itself shows what it was, where images respect mixing and
only zero is its own image. -/
theorem mixed_injective {g : UInt64 → UInt64} (hmix : ∀ x y, g (x ^^^ y) = g x ^^^ g y)
    (hfixed : ∀ x, g x = x → x = 0) : Function.Injective fun x => x ^^^ g x := by
  intro x y h
  have hzero : (x ^^^ g x) ^^^ (y ^^^ g y) = 0 := UInt64.xor_eq_zero_iff.2 h
  have hswap : (x ^^^ g x) ^^^ (y ^^^ g y) = (x ^^^ y) ^^^ (g x ^^^ g y) := by
    ac_rfl
  rw [hswap, UInt64.xor_eq_zero_iff, ← hmix] at hzero
  exact UInt64.xor_eq_zero_iff.1 (hfixed _ hzero.symm)

theorem eq_zero_of_shiftRight {x k : UInt64} (hk : k.toNat % 64 ≠ 0) (h : x >>> k = x) :
    x = 0 := by
  have hdiv := congrArg UInt64.toNat h
  rw [UInt64.toNat_shiftRight, Nat.shiftRight_eq_div_pow] at hdiv
  have hless : x.toNat ≠ 0 → x.toNat / 2 ^ (k.toNat % 64) < x.toNat := fun hne =>
    Nat.div_lt_self (Nat.pos_of_ne_zero hne) (Nat.one_lt_two_pow hk)
  exact UInt64.toNat_inj.1 (show x.toNat = 0 by omega)

/-- A word that is shifted to itself is a multiple of all powers of two, since its product by
an odd number is. -/
theorem eq_zero_of_shiftLeft {x k : UInt64} (hk : k.toNat % 64 ≠ 0) (h : x <<< k = x) :
    x = 0 := by
  have hmul := congrArg UInt64.toNat h
  rw [UInt64.toNat_shiftLeft, Nat.shiftLeft_eq] at hmul
  generalize k.toNat % 64 = j at hk hmul
  have hmod : x.toNat * 1 ≡ x.toNat * 2 ^ j [MOD 2 ^ 64] := by
    rw [Nat.ModEq, hmul, Nat.mul_one, Nat.mod_eq_of_lt x.toNat_lt]
  have hdvd : 2 ^ 64 ∣ x.toNat * (2 ^ j - 1) := by
    rw [Nat.mul_sub]
    exact (Nat.modEq_iff_dvd' (Nat.mul_le_mul_left _ Nat.one_le_two_pow)).1 hmod
  have hodd : Odd (2 ^ j - 1) :=
    Nat.Even.sub_odd Nat.one_le_two_pow (Nat.even_pow.2 ⟨even_two, hk⟩) odd_one
  have hcoprime : Nat.Coprime (2 ^ 64) (2 ^ j - 1) :=
    Nat.Coprime.pow_left 64 (Nat.coprime_two_left.2 hodd)
  have hzero := Nat.eq_zero_of_dvd_of_lt (hcoprime.dvd_of_dvd_mul_right hdvd) x.toNat_lt
  exact UInt64.toNat_inj.1 hzero

theorem shiftRight12_injective : Function.Injective shiftRight12 :=
  mixed_injective (fun _ _ => UInt64.shiftRight_xor) fun _ => eq_zero_of_shiftRight (by decide)

theorem shiftLeft25_injective : Function.Injective shiftLeft25 :=
  mixed_injective (fun _ _ => UInt64.shiftLeft_xor) fun _ => eq_zero_of_shiftLeft (by decide)

theorem shiftRight27_injective : Function.Injective shiftRight27 :=
  mixed_injective (fun _ _ => UInt64.shiftRight_xor) fun _ => eq_zero_of_shiftRight (by decide)

theorem advance_injective : Function.Injective advance :=
  shiftRight27_injective.comp (shiftLeft25_injective.comp shiftRight12_injective)

theorem advance_eq_zero_iff (x : UInt64) : advance x = 0 ↔ x = 0 :=
  advance_injective.eq_iff' rfl

theorem seed_ne_zero (n : Int32) : seed n ≠ 0 := by
  intro h
  exact absurd (UInt64.or_eq_zero_iff.1 h).2 (by decide)

/-! ### A number between bounds -/

/-- An integer in a word with bounds, if it is between them. -/
def word? (lo hi n : Int) : Option Int :=
  if lo ≤ n ∧ n ≤ hi then some n else none

/-- The number between two bounds, given up where a step leaves its word: the span is a
signed word of 64 bits and then an unsigned one, not zero; the remainder by it and the sum are
signed; and the number is a word of 32 bits. -/
def between? (state : UInt64) (a b : Int32) : Option Int := do
  let lo := min a.toInt b.toInt
  let hi := max a.toInt b.toInt
  let width ← word? Int64.minValue.toInt Int64.maxValue.toInt (hi - lo)
  let count ← word? Int64.minValue.toInt Int64.maxValue.toInt (width + 1)
  let span ← word? 1 (UInt64.size - 1) count
  let offset ← word? Int64.minValue.toInt Int64.maxValue.toInt ((output state).toNat % span)
  let value ← word? Int64.minValue.toInt Int64.maxValue.toInt (lo + offset)
  word? Int32.minValue.toInt Int32.maxValue.toInt value

theorem word?_eq {lo hi n : Int} (hlo : lo ≤ n) (hhi : n ≤ hi) : word? lo hi n = some n :=
  if_pos ⟨hlo, hhi⟩

theorem word?_bind {lo hi n : Int} (hlo : lo ≤ n) (hhi : n ≤ hi) (f : Int → Option Int) :
    (word? lo hi n).bind f = f n := by
  rw [word?_eq hlo hhi, Option.bind_some]

section Between

variable (state : UInt64) (a b : Int32)

theorem between_comm : between state a b = between state b a := by
  simp only [between, Int.min_comm, Int.max_comm]

/-- A remainder by the span takes the lower bound to the upper at most. -/
theorem le_add_emod {lo hi n : Int} (h : lo ≤ hi) :
    0 ≤ n % (hi - lo + 1) ∧ lo + n % (hi - lo + 1) ≤ hi := by
  have hpos : 0 < hi - lo + 1 := by omega
  have hnonneg := Int.emod_nonneg n (Int.ne_of_gt hpos)
  have hless := Int.emod_lt_of_pos n hpos
  omega

theorem min_max_bounds : -2147483648 ≤ min a.toInt b.toInt ∧
    min a.toInt b.toInt ≤ max a.toInt b.toInt ∧ max a.toInt b.toInt ≤ 2147483647 := by
  have ha := toInt_bounds a
  have hb := toInt_bounds b
  omega

theorem toInt_between : (between state a b).toInt = min a.toInt b.toInt +
    (output state).toNat % (max a.toInt b.toInt - min a.toInt b.toInt + 1) := by
  obtain ⟨hlo, hle, hhi⟩ := min_max_bounds a b
  have hoffset := le_add_emod (n := (output state).toNat) hle
  have hspan : ((max a.toInt b.toInt - min a.toInt b.toInt + 1).toNat : Int) =
      max a.toInt b.toInt - min a.toInt b.toInt + 1 := Int.toNat_of_nonneg (by omega)
  rw [between, Int.natCast_emod, hspan]
  exact Int32.toInt_ofInt_of_le (by omega) (by omega)

theorem between_mem : min a.toInt b.toInt ≤ (between state a b).toInt ∧
    (between state a b).toInt ≤ max a.toInt b.toInt := by
  have hoffset := le_add_emod (n := (output state).toNat) (min_max_bounds a b).2.1
  rw [toInt_between]
  omega

/-- No step leaves its word. -/
theorem between?_eq : between? state a b = some (between state a b).toInt := by
  obtain ⟨hlo, hle, hhi⟩ := min_max_bounds a b
  have hoffset := le_add_emod (n := (output state).toNat) hle
  have hleast : Int64.minValue.toInt = -9223372036854775808 := rfl
  have hgreatest : Int64.maxValue.toInt = 9223372036854775807 := rfl
  have hwidth : (UInt64.size : Int) - 1 = 18446744073709551615 := rfl
  have hleast' : Int32.minValue.toInt = -2147483648 := rfl
  have hgreatest' : Int32.maxValue.toInt = 2147483647 := rfl
  rw [toInt_between]
  simp only [between?, Option.bind_eq_bind]
  rw [word?_bind (by omega) (by omega), word?_bind (by omega) (by omega),
    word?_bind (by omega) (by omega), word?_bind (by omega) (by omega),
    word?_bind (by omega) (by omega), word?_eq (by omega) (by omega)]

end Between

end Random

/-! ### Calls -/

/-- What a call does to the state, whichever the function. -/
inductive Moves (state : UInt64) : UInt64 → Prop where
  | keeps : Moves state state
  | advances : Moves state (Random.advance state)
  | seeds (n : Int32) : Moves state (Random.seed n)

theorem Moves.ne_zero {state state' : UInt64} (h : Moves state state') (hne : state ≠ 0) :
    state' ≠ 0 := by
  cases h with
  | keeps => exact hne
  | advances => exact fun hzero => hne ((Random.advance_eq_zero_iff state).1 hzero)
  | seeds n => exact Random.seed_ne_zero n

theorem Function.call?_moves {f : Function} {w : World} {args : List Value} {out : Outcome}
    (h : f.call? w args = some out) : Moves w.random out.world.random := by
  cases f
  case randomInt =>
    simp only [call?, drawInt, plain] at h
    split at h <;> cases h
    exact .advances
  case randomDouble =>
    simp only [call?, drawDouble, plain] at h
    split at h <;> cases h
    exact .advances
  case randomSeed =>
    simp only [call?, reseed, plain] at h
    split at h <;> cases h
    exact .seeds _
  case fileRead | fileWrite =>
    simp only [call?, readContents, writeContents, plain] at h
    repeat' split at h
    all_goals cases h
    all_goals exact .keeps
  all_goals
    simp only [call?, onReal, onReals, absReal, onInt, onInts, onText, onTexts, onArray,
      changingArray, changingArrayBy, substring, countEqual, distance, lookUp, sleep, plain] at h
    split at h <;> cases h
    exact .keeps

/-! ### Calls in a row -/

/-- A call by name from a module that can be run. -/
def Function.request (f : Function) (args : List Value) : Request := ⟨f.name, args, true⟩

/-- The world that calls in a row leave behind. -/
def worldAfter (w : World) : List Request → World
  | [] => w
  | r :: rs =>
    match r.perform w with
    | .ok (_, w) => worldAfter w rs
    | .error _ => worldAfter w rs

theorem Function.perform_request {f : Function} {w : World} {args : List Value} {out : Outcome}
    (h : f.call? w args = some out) : (f.request args).perform w =
      .ok (some ⟨f.name, args, out.result, out.array⟩, out.world) := by
  obtain ⟨g, hg, -, hsame⟩ := Ir.address?_library f
  have hlink : Ir.link (f.request args).functions = .ok [(f.name, .library g)] := by
    refine Ir.link_eq_ok.2 ⟨List.forall_mem_cons.2 ⟨?_, ?_⟩, ⟨⟨"main", 1⟩, ?_, rfl, Nat.one_pos⟩, ?_⟩
    · exact fun h => nomatch hg.symm.trans h.2.1
    · exact List.forall_mem_singleton.2 fun h => nomatch h.1
    · exact List.mem_cons_of_mem _ List.mem_cons_self
    · show _ = List.filterMap _ ([⟨f.name, 0⟩, ⟨"main", 1⟩] : List Ir.Linkable)
      simp [Ir.Linkable.mapped?, hg]
  have hlookup : [(f.name, Ir.Routine.library g)].lookup f.name = some (.library g) := by simp
  have hname : (f.request args).name = f.name := rfl
  simp only [Request.perform, hlink, bind, Except.bind, hname, hlookup]
  rw [hsame w, show (f.request args).args = args from rfl, h]
  rfl

theorem Request.perform_moves {r : Request} {w w' : World} {call : Option Machine.Call}
    (h : r.perform w = .ok (call, w')) : Moves w.random w'.random := by
  unfold Request.perform at h
  cases hlink : Ir.link r.functions with
  | error e =>
    rw [hlink] at h
    cases h
  | ok fs =>
    rw [hlink] at h
    simp only [bind, Except.bind] at h
    split at h
    · split at h
      case h_1 hcall =>
        cases h
        exact Function.call?_moves hcall
      case h_2 =>
        cases h
        exact .keeps
    · cases h
      exact .keeps

theorem performAll_append (w : World) (rs rs' : List Request) :
    performAll w (rs ++ rs') = performAll w rs ++ performAll (worldAfter w rs) rs' := by
  induction rs generalizing w with
  | nil => rfl
  | cons r rs ih =>
    rw [List.cons_append]
    cases h : r.perform w with
    | ok answer => simp only [performAll, worldAfter, h, ih, List.cons_append]
    | error e => simp only [performAll, worldAfter, h, ih, List.cons_append]

theorem worldAfter_append (w : World) (rs rs' : List Request) :
    worldAfter w (rs ++ rs') = worldAfter (worldAfter w rs) rs' := by
  induction rs generalizing w with
  | nil => rfl
  | cons r rs ih =>
    rw [List.cons_append]
    cases h : r.perform w with
    | ok answer => simp only [worldAfter, h, ih]
    | error e => simp only [worldAfter, h, ih]

theorem worldAfter_random_ne_zero {w : World} (h : w.random ≠ 0) (rs : List Request) :
    (worldAfter w rs).random ≠ 0 := by
  induction rs generalizing w with
  | nil => exact h
  | cons r rs ih =>
    unfold worldAfter
    split
    case h_1 hperform => exact ih ((Request.perform_moves hperform).ne_zero h)
    case h_2 => exact ih h

/-- The request for a number between two bounds after some requests: it is answered by a
number between them, found without overflow, and takes the state one step on. -/
structure Draws (w : World) (rs : List Request) (a b v : Int32) : Prop where
  answered : performAll w (rs ++ [Function.randomInt.request [.i32 a, .i32 b]]) =
    performAll w rs ++ [.ok (some ⟨"random_int", [.i32 a, .i32 b], .i32 v, none⟩)]
  next : (worldAfter w (rs ++ [Function.randomInt.request [.i32 a, .i32 b]])).random =
    Random.advance (worldAfter w rs).random
  computed : Random.between? (Random.advance (worldAfter w rs).random) a b = some v.toInt
  lower : min a.toInt b.toInt ≤ v.toInt
  upper : v.toInt ≤ max a.toInt b.toInt

theorem draws (w : World) (rs : List Request) (a b : Int32) :
    Draws w rs a b (Random.between (Random.advance (worldAfter w rs).random) a b) := by
  have hcall : (Function.randomInt.request [.i32 a, .i32 b]).perform (worldAfter w rs) = _ :=
    Function.perform_request (f := .randomInt) rfl
  have hmem := Random.between_mem (Random.advance (worldAfter w rs).random) a b
  refine ⟨?_, ?_, Random.between?_eq .., hmem.1, hmem.2⟩
  · simp only [performAll_append, performAll, hcall]
    rfl
  · simp only [worldAfter_append, worldAfter, hcall]

/-- **Random numbers stay in range and never run dry.** The step between states tells any two
apart and takes only zero to zero. After any calls from the beginning the state is not zero,
and wherever a number between two bounds is asked for, it is between them and the same in
whichever order the bounds are given. -/
theorem random_stays_in_range :
    Function.Injective Random.advance ∧ (∀ x, Random.advance x = 0 ↔ x = 0) ∧
      (∀ rs : List Request, (worldAfter .initial rs).random ≠ 0) ∧
      ∀ (w : World) (rs : List Request) (a b : Int32),
        ∃ v, Draws w rs a b v ∧ Draws w rs b a v := by
  refine ⟨Random.advance_injective, Random.advance_eq_zero_iff,
    worldAfter_random_ne_zero (by decide), fun w rs a b => ⟨_, draws w rs a b, ?_⟩⟩
  rw [Random.between_comm]
  exact draws w rs b a

end TinyScript.Library
