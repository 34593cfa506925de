import TinyScript.Core.Lower
import TinyScript.Proofs.Machine.Memory
import TinyScript.Proofs.Meaning.Resolved

/-! Operations of the machine beside those of the evaluation: arithmetic,
comparisons, conversions, the check of an index and what is printed. Nothing here
speaks of programs or of states. -/

namespace TinyScript.Core.Lower

open Meaning (Eval Result Resolved.arith Resolved.holds signed unsigned)

/-! ### Arithmetic and comparisons -/

theorem arith_eq (op : ArithOp) (a b : Int32) (st : Meaning.Store) :
    Resolved.arith op (.int a) (.int b) st =
      match Machine.arith (arithOp op).1 a b with
      | .ok c => .gives (.int c) st
      | .error e => .ends e st := by
  cases op with
  | add => rfl
  | sub => rfl
  | mul => rfl
  | div =>
    show Meaning.divided a b (a / b) st = _
    unfold Meaning.divided Machine.arith
    by_cases h : b = 0 ∨ a = Int32.minValue ∧ b = -1
    · simp only [arithOp, if_pos h]
      rfl
    · simp only [arithOp, if_neg h]
      rfl
  | rem =>
    show Meaning.divided a b (a % b) st = _
    unfold Meaning.divided Machine.arith
    by_cases h : b = 0 ∨ a = Int32.minValue ∧ b = -1
    · simp only [arithOp, if_pos h]
      rfl
    · simp only [arithOp, if_neg h]
      rfl

/-- The only thing that goes wrong in arithmetic is a division. -/
theorem arith_error {op : Ir.ArithOp} {a b : Int32} {e : Machine.Ending}
    (h : Machine.arith op a b = .error e) : e = .fault := by
  unfold Machine.arith at h
  cases op with
  | add => cases h
  | sub => cases h
  | mul => cases h
  | sdiv =>
    dsimp only at h
    split at h <;> cases h
    rfl
  | srem =>
    dsimp only at h
    split at h <;> cases h
    rfl

theorem icmp_int (op : CompareOp) (a b : Int32) :
    Machine.icmp? (compareOp op) (.int a) (.int b) = some (Resolved.holds a.toInt b.toInt op) := by
  cases op <;> rfl

theorem icmp_bool (op : CompareOp) (a b : Bool) :
    Machine.icmp? (compareOp op) (.bool a) (.bool b) =
      some (Resolved.holds (signed a) (signed b) op) := by
  cases op <;> rfl

theorem icmp_nonzero (n : Int32) : Machine.icmp? .ne (.int n) (.int 0) = some (n != 0) := by
  show some (decide (n.toInt ≠ (0 : Int32).toInt)) = _
  rw [Option.some_inj, Bool.eq_iff_iff, decide_eq_true_iff, bne_iff_ne, ne_eq, Int32.toInt_inj]

theorem icmp_zero (n : Int32) : Machine.icmp? .eq (.int n) (.int 0) = some (n == 0) := by
  show some (decide (n.toInt = (0 : Int32).toInt)) = _
  rw [Option.some_inj, Bool.eq_iff_iff, decide_eq_true_iff, beq_iff_eq, Int32.toInt_inj]

/-! ### Texts -/

theorem compareText_eq_zero {a b : Text.Bytes} : Machine.compareText a b = 0 ↔ a = b := by
  induction a generalizing b with
  | nil =>
    cases b with
    | nil => exact ⟨fun _ => rfl, fun _ => rfl⟩
    | cons y b => exact ⟨fun h => absurd h (show (-1 : Int32) ≠ 0 by decide), fun h => (nomatch h)⟩
  | cons x a ih =>
    cases b with
    | nil => exact ⟨fun h => absurd h (show (1 : Int32) ≠ 0 by decide), fun h => (nomatch h)⟩
    | cons y b =>
      rw [Machine.compareText]
      by_cases hlt : x < y
      · rw [if_pos hlt]
        refine ⟨fun h => absurd h (by decide), ?_⟩
        intro h
        cases h
        exact absurd hlt (UInt8.lt_irrefl x)
      · rw [if_neg hlt]
        by_cases hgt : y < x
        · rw [if_pos hgt]
          refine ⟨fun h => absurd h (by decide), ?_⟩
          intro h
          cases h
          exact absurd hgt (UInt8.lt_irrefl x)
        · rw [if_neg hgt, ih]
          have hxy : x = y := UInt8.le_antisymm (UInt8.not_lt.1 hgt) (UInt8.not_lt.1 hlt)
          subst hxy
          exact ⟨fun h => by rw [h], fun h => (List.cons.inj h).2⟩

/-- Texts are compared by way of their order. -/
theorem icmp_sameText (negated : Bool) (a b : Text.Bytes) :
    Machine.icmp? (if negated then .ne else .eq) (.int (Machine.compareText a b)) (.int 0) =
      some (decide (a = b) ^^ negated) := by
  cases negated with
  | true =>
    rw [if_pos rfl, icmp_nonzero, Option.some_inj, Bool.eq_iff_iff, bne_iff_ne, ne_eq,
      compareText_eq_zero]
    simp
  | false =>
    rw [if_neg Bool.false_ne_true, icmp_zero, Option.some_inj, Bool.eq_iff_iff, beq_iff_eq,
      compareText_eq_zero]
    simp

/-! ### Conversions -/

theorem orderedAndDiffer_zero (d : Number.Double) :
    Machine.orderedAndDiffer d .zero = d.isNonzero := by
  unfold Machine.orderedAndDiffer Number.Double.isNonzero
  have hzero : (Number.Double.zero).magnitude = 0 := by decide
  have hnan : (Number.Double.zero).isNaN = false := by decide
  rw [hzero, hnan]
  by_cases hmag : d.magnitude = 0
  · simp [hmag]
  · have hne : d ≠ .zero := by
      rintro rfl
      exact hmag hzero
    rw [bne_iff_ne.2 hne, bne_iff_ne.2 hmag]
    simp

theorem ofInt_unsigned (b : Bool) : Int32.ofInt (unsigned b) = if b then 1 else 0 := by
  cases b <;> rfl

/-! ### Indices -/

/-- One unsigned comparison tells whether an index is in range, below zero
included. -/
theorem toUInt32_lt_iff {i : Int32} {n : Nat} (hn : n ≤ Meaning.maxLength) :
    i.toUInt32 < (Int32.ofNat n).toUInt32 ↔ 0 ≤ i.toInt ∧ i.toInt < n := by
  have hlen : (Int32.ofNat n).toUInt32.toNat = n := by
    have : n % 4294967296 = n := Nat.mod_eq_of_lt (by unfold Meaning.maxLength at hn; omega)
    simpa using this
  have hint : i.toInt = i.toBitVec.toInt := rfl
  have hnat : i.toUInt32.toNat = i.toBitVec.toNat := rfl
  rw [UInt32.lt_iff_toNat_lt, hlen, hnat, hint, BitVec.toInt_eq_toNat_cond]
  have hlt := i.toBitVec.isLt
  unfold Meaning.maxLength at hn
  split <;> omega

/-- The positions of a literal's elements are told apart by integers. -/
theorem toInt_ofNat {k : Nat} (hk : k < Meaning.maxLength) : (Int32.ofNat k).toInt = k := by
  unfold Meaning.maxLength at hk
  exact Int32.toInt_ofNat_of_lt (by omega)

/-- The first position too many wraps around to one below zero. -/
theorem toInt_ofNat_maxLength : (Int32.ofNat Meaning.maxLength).toInt < 0 := by
  decide

/-! ### Printing -/

theorem format_text (b : Text.Bytes) :
    Machine.format? (Text.Bytes.cut (Text.Utf8.encode "%s".toList)) [.str b] = some b := by
  have hformat : Text.Bytes.cut (Text.Utf8.encode "%s".toList) = [37, 115] := by decide
  rw [hformat]
  simp [Machine.format?]

theorem format_int (newline : Bool) (n : Int32) :
    Machine.format? (Text.Bytes.cut (Text.Utf8.encode
      (if newline then "%d\n" else "%d").toList)) [.int n] =
      some (Meaning.digits n ++ if newline then [10] else []) := by
  cases newline with
  | true =>
    have hformat : Text.Bytes.cut (Text.Utf8.encode "%d\n".toList) = [37, 100, 10] := by decide
    rw [if_pos rfl, hformat]
    rfl
  | false =>
    have hformat : Text.Bytes.cut (Text.Utf8.encode "%d".toList) = [37, 100] := by decide
    rw [if_neg Bool.false_ne_true, hformat]
    rfl

end TinyScript.Core.Lower
