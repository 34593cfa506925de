import TinyScript.Proofs.Number.Shortest
import TinyScript.Proofs.Text.Run

/-! Doubles as they are written. The digits and the point tell the value, the value tells
the double, and an infinity or what is no number has letters in it. -/

namespace TinyScript.Number

/-! ### Digits -/

/-- Characters of a number that is written: digits and a point. -/
def isNumeral (c : Char) : Bool := c.isDigit || c = '.'

theorem isDigit_toDigits (n : Nat) : ∀ c ∈ Nat.toDigits 10 n, c.isDigit = true :=
  fun _ hc => Nat.isDigit_of_mem_toDigits (by decide) (by decide) hc

namespace Decimal

theorem positional_whole {d : Decimal} (h : 0 ≤ d.exponent) :
    d.positional = Nat.toDigits 10 d.digits ++ List.replicate d.exponent.toNat '0' :=
  if_pos h

/-- Digits around a point, as many after it as there are places. -/
theorem positional_fraction {d : Decimal} (h : d.exponent < 0) :
    ∃ whole fraction, d.positional = whole ++ '.' :: fraction ∧
      (∀ c ∈ whole, c.isDigit = true) ∧ (∀ c ∈ fraction, c.isDigit = true) ∧ whole ≠ [] ∧
      fraction.length = (-d.exponent).toNat ∧
      Nat.ofDigitChars 10 (whole ++ fraction) 0 = d.digits := by
  let ds := List.replicate ((-d.exponent).toNat + 1 - (Nat.toDigits 10 d.digits).length) '0' ++
    Nat.toDigits 10 d.digits
  have hdigits : ∀ c ∈ ds, c.isDigit = true := by
    intro c hc
    rcases List.mem_append.1 hc with hc | hc
    · rw [List.eq_of_mem_replicate hc]
      rfl
    · exact isDigit_toDigits _ c hc
  have hlength : (-d.exponent).toNat + 1 ≤ ds.length := by
    simp only [ds, List.length_append, List.length_replicate]
    omega
  have hvalue : Nat.ofDigitChars 10 ds 0 = d.digits := by
    simp only [ds, Nat.ofDigitChars_append, Nat.ofDigitChars_replicate_zero, Nat.mul_zero]
    exact Nat.ofDigitChars_ten_toDigits
  refine ⟨ds.take (ds.length - (-d.exponent).toNat), ds.drop (ds.length - (-d.exponent).toNat),
    if_neg (by omega), fun c hc => hdigits c (List.mem_of_mem_take hc),
    fun c hc => hdigits c (List.mem_of_mem_drop hc), ?_, ?_, ?_⟩
  · intro hnil
    have := congrArg List.length hnil
    rw [List.length_take, List.length_nil] at this
    omega
  · rw [List.length_drop]
    omega
  · rw [List.take_append_drop, hvalue]

theorem positional_numeral (d : Decimal) : ∀ c ∈ d.positional, isNumeral c = true := by
  have hclass : ∀ c : Char, c.isDigit = true → isNumeral c = true := by
    intro c hc
    rw [isNumeral, hc, Bool.true_or]
  intro c hc
  by_cases h : 0 ≤ d.exponent
  · rw [positional_whole h] at hc
    rcases List.mem_append.1 hc with hc | hc
    · exact hclass c (isDigit_toDigits _ c hc)
    · rw [List.eq_of_mem_replicate hc]
      rfl
  · obtain ⟨whole, fraction, hpositional, hwhole, hfraction, -⟩ :=
      positional_fraction (d := d) (by omega)
    rw [hpositional, List.mem_append, List.mem_cons] at hc
    obtain hc | rfl | hc := hc
    · exact hclass c (hwhole c hc)
    · rfl
    · exact hclass c (hfraction c hc)

theorem point_mem_positional (d : Decimal) : '.' ∈ d.positional ↔ d.exponent < 0 := by
  constructor
  · intro hmem
    refine Int.not_le.1 fun h => ?_
    rw [positional_whole h, List.mem_append] at hmem
    rcases hmem with hmem | hmem
    · exact absurd (isDigit_toDigits _ _ hmem) (by decide)
    · exact absurd (List.eq_of_mem_replicate hmem) (by decide)
  · intro h
    obtain ⟨whole, fraction, hpositional, -⟩ := positional_fraction h
    rw [hpositional]
    exact List.mem_append_right _ List.mem_cons_self

theorem whole_run {whole : List Char} (h : ∀ c ∈ whole, c.isDigit = true) (fraction : List Char) :
    Text.Run Char.isDigit whole ('.' :: fraction) :=
  ⟨h, by rintro _ ⟨⟩; rfl⟩

/-- What is written alike has one value. -/
theorem same_of_positional {d d' : Decimal} (h : d.positional = d'.positional) : d.Same d' := by
  unfold Same
  have hpoint : d.exponent < 0 ↔ d'.exponent < 0 := by
    rw [← point_mem_positional, h, point_mem_positional]
  by_cases hd : d.exponent < 0
  · obtain ⟨whole, fraction, hpositional, hwhole, -, -, hplaces, hvalue⟩ :=
      positional_fraction (d := d) (by omega)
    obtain ⟨whole', fraction', hpositional', hwhole', -, -, hplaces', hvalue'⟩ :=
      positional_fraction (d := d') (by omega)
    rw [hpositional, hpositional'] at h
    obtain ⟨rfl, hfraction⟩ := (whole_run hwhole _).unique (whole_run hwhole' _) h
    obtain rfl := (List.cons.inj hfraction).2
    have hdigits : d.digits = d'.digits := hvalue.symm.trans hvalue'
    have hexponent : d.exponent = d'.exponent := by omega
    rw [hdigits, hexponent]
  · have hvalue := congrArg (fun ds => Nat.ofDigitChars 10 ds 0) h
    simp only [positional_whole (Int.not_lt.1 hd), positional_whole (Int.not_lt.1 (mt hpoint.2 hd)),
      Nat.ofDigitChars_append, Nat.ofDigitChars_ten_toDigits,
      Nat.ofDigitChars_replicate_zero] at hvalue
    have hnone : (-d.exponent).toNat = 0 ∧ (-d'.exponent).toNat = 0 := by omega
    rw [hnone.1, hnone.2, Nat.mul_comm d.digits, Nat.mul_comm d'.digits]
    exact congrArg (· * tenTo 0) hvalue

end Decimal

namespace Double

/-! ### The text -/

theorem bits_eq (d : Double) :
    d.bits.toNat = (if d.isNegative then signBit else 0) + d.magnitude := by
  have hlt := d.bits.toNat_lt
  unfold isNegative magnitude signBit
  split <;> simp_all <;> omega

theorem eq_of_fields {x y : Double} (hsign : x.isNegative = y.isNegative)
    (hmagnitude : x.magnitude = y.magnitude) : x = y := by
  have hbits : x.bits.toNat = y.bits.toNat := by rw [bits_eq, bits_eq, hsign, hmagnitude]
  cases x
  cases y
  exact congrArg Double.mk (UInt64.toNat_inj.1 hbits)

/-- What stands before a number. -/
def sign (d : Double) : List Char := if d.isNegative then ['-'] else []

theorem toList_sign (d : Double) : (if d.isNegative then "-" else "").toList = d.sign := by
  unfold sign
  split <;> rfl

theorem mem_sign {d : Double} {c : Char} : c ∈ d.sign ↔ d.isNegative = true ∧ c = '-' := by
  unfold sign
  split <;> simp_all

/-- A double is no number, an infinity or finite. -/
theorem sorts (d : Double) :
    d.isNaN = true ∧ d.isInfinite = false ∨ d.isNaN = false ∧ d.isInfinite = true ∨
      d.isNaN = false ∧ d.isInfinite = false ∧ d.isFinite = true := by
  simp only [isNaN, isInfinite, isFinite, decide_eq_true_eq, decide_eq_false_iff_not, beq_iff_eq,
    beq_eq_false_iff_ne]
  omega

theorem render_nan {d : Double} (h : d.isNaN = true) : d.render.toList = ['N', 'a', 'N'] := by
  rw [render, if_pos h]
  rfl

theorem render_infinite {d : Double} (hnan : d.isNaN = false) (h : d.isInfinite = true) :
    d.render.toList = d.sign ++ ['i', 'n', 'f'] := by
  rw [render, hnan, h]
  dsimp only
  rw [if_neg nofun, if_pos rfl, String.toList_append, toList_sign]
  rfl

theorem reads_zero : Reads 0 ⟨0, 0⟩ := by
  have hbelow : below 0 = 0 := by simp [below, digitsOf, binade]
  refine ⟨?_, ?_, fun hodd => absurd hodd (by decide)⟩
  · rw [hbelow, Nat.zero_mul]
    exact Nat.zero_le _
  · rw [Nat.zero_mul, Nat.zero_mul]
    exact Nat.zero_le _

/-- A finite double is written as a decimal that reads as it, after its sign. -/
theorem render_finite {d : Double} (hnan : d.isNaN = false) (hinfinite : d.isInfinite = false)
    (h : d.isFinite = true) :
    ∃ r, Reads d.magnitude r ∧ d.render.toList = d.sign ++ r.positional := by
  rw [render, hnan, hinfinite]
  dsimp only
  rw [if_neg nofun, if_neg nofun]
  by_cases hzero : d.magnitude = 0
  · refine ⟨⟨0, 0⟩, ?_, ?_⟩
    · rw [hzero]
      exact reads_zero
    · rw [if_pos hzero, String.toList_append, toList_sign]
      rfl
  · refine ⟨d.shortest, shortest_reads h (by omega), ?_⟩
    rw [if_neg hzero, String.toList_append, toList_sign, String.toList_ofList]

/-- A character that is in no decimal is of a sign or of a name. -/
theorem mem_render {c : Char} (hc : isNumeral c = false) (d : Double) : c ∈ d.render.toList ↔
    d.isNaN = true ∧ c ∈ ['N', 'a', 'N'] ∨
      d.isNaN = false ∧ (c ∈ d.sign ∨ d.isInfinite = true ∧ c ∈ ['i', 'n', 'f']) := by
  obtain ⟨hnan, hinfinite⟩ | ⟨hnan, hinfinite⟩ | ⟨hnan, hinfinite, hfinite⟩ := d.sorts
  · rw [render_nan hnan]
    simp [hnan]
  · rw [render_infinite hnan hinfinite]
    simp [hnan, hinfinite]
  · obtain ⟨r, -, hrender⟩ := render_finite hnan hinfinite hfinite
    have hpositional : c ∉ r.positional := by
      intro hmem
      have hnumeral := r.positional_numeral c hmem
      rw [hc] at hnumeral
      cases hnumeral
    rw [hrender]
    simp [hnan, hinfinite, hpositional]

theorem nan_iff (d : Double) : d.isNaN = true ↔ 'N' ∈ d.render.toList := by
  rw [mem_render (by decide)]
  simp [mem_sign]

theorem infinite_iff (d : Double) : d.isInfinite = true ↔ 'i' ∈ d.render.toList := by
  rw [mem_render (by decide)]
  obtain ⟨hnan, hinfinite⟩ | ⟨hnan, hinfinite⟩ | ⟨hnan, hinfinite, -⟩ := d.sorts <;>
    simp [hnan, hinfinite, mem_sign]

theorem negative_iff {d : Double} (hnan : d.isNaN = false) :
    d.isNegative = true ↔ '-' ∈ d.render.toList := by
  rw [mem_render (by decide)]
  simp [hnan, mem_sign]

/-- **Only doubles that are no number are written alike.** -/
theorem render_injective {x y : Double} (h : x.render = y.render) :
    x = y ∨ x.isNaN = true ∧ y.isNaN = true := by
  have hnan : x.isNaN = y.isNaN := by rw [Bool.eq_iff_iff, nan_iff, nan_iff, h]
  have hinfinite : x.isInfinite = y.isInfinite := by
    rw [Bool.eq_iff_iff, infinite_iff, infinite_iff, h]
  obtain ⟨hx, -⟩ | ⟨hx, hx'⟩ | ⟨hx, hx', hfinite⟩ := x.sorts
  · exact .inr ⟨hx, hnan ▸ hx⟩
  all_goals
    have hnegative : x.isNegative = y.isNegative := by
      rw [Bool.eq_iff_iff, negative_iff hx, negative_iff (hnan ▸ hx), h]
    refine .inl (eq_of_fields hnegative ?_)
  · have hy' : y.isInfinite = true := hinfinite ▸ hx'
    exact (eq_of_beq hx').trans (eq_of_beq hy').symm
  · have hy : y.isFinite = true := by
      obtain ⟨hy, -⟩ | ⟨-, hy⟩ | ⟨-, -, hy⟩ := y.sorts
      · rw [← hnan, hx] at hy
        cases hy
      · rw [← hinfinite, hx'] at hy
        cases hy
      · exact hy
    obtain ⟨r, hr, hrender⟩ := render_finite hx hx' hfinite
    obtain ⟨r', hr', hrender'⟩ := render_finite (hnan ▸ hx) (hinfinite ▸ hx') hy
    have hsign : x.sign = y.sign := by rw [sign, sign, hnegative]
    have hpositional : r.positional = r'.positional := by
      rw [h, hrender', hsign] at hrender
      exact (List.append_cancel_left hrender).symm
    exact hr.unique hr' (Decimal.same_of_positional hpositional)

theorem newline_not_mem_render (d : Double) : '\n' ∉ d.render.toList := by
  rw [mem_render (by decide)]
  simp [mem_sign]

end Double

end TinyScript.Number
