import TinyScript.Proofs.Token.Lexemes
import TinyScript.Token.Value

/-! Numerals. Decimal digits without a zero in front spell an integer literal, whose
value is the number they are the digits of, and so do the digits of another radix after
its prefix; digits with a point between them, and maybe an exponent after them, spell a
float literal. -/

namespace TinyScript.Token

open Number

theorem lexeme_number {c : Char} (h : isDecimal c = true) (cs : List Char) :
    lexeme c cs = number c cs := by
  unfold lexeme
  split
  case h_23 =>
    have hword : (isLetter c || decide (c = '_')) = false := by
      rw [← Bool.not_eq_true]
      change ¬isWordStart c = true
      rw [isWordStart_iff, isLetter_iff]
      rw [isDecimal_iff] at h
      omega
    rw [if_neg (by simp [hword]), if_pos h]
  all_goals exact absurd h (by decide)

/-- A literal that starts with a digit and is not in another radix is decimal. -/
theorem number_decimal {c : Char} {cs : List Char}
    (h : c = '0' → ∀ d ∈ cs.head?, isLetter d = false) : number c cs = decimal c cs := by
  unfold number
  split
  case isFalse => rfl
  case isTrue hzero =>
    split
    case h_5 => rfl
    all_goals exact absurd (h hzero _ rfl) (by decide)

/-- What starts with a digit starts a lexeme. -/
theorem digit_starts {c : Char} (h : isDecimal c = true) :
    isBlank c = false ∧ c ≠ '\x00' ∧ c ≠ '/' := by
  rw [isDecimal_iff] at h
  refine ⟨?_, ?_, ?_⟩
  · rw [← Bool.not_eq_true, isBlank_iff]
    omega
  · rintro rfl
    simp at h
  · rintro rfl
    simp at h

theorem isDecimal_of_isBreak (c : Char) (h : isBreak c = true) : isDecimal c = false := by
  rw [isBreak_iff, isBlank_iff] at h
  rw [← Bool.not_eq_true, isDecimal_iff]
  omega

theorem isLetter_of_isBreak (c : Char) (h : isBreak c = true) : isLetter c = false := by
  rw [isBreak_iff, isBlank_iff] at h
  rw [← Bool.not_eq_true, isLetter_iff]
  omega

theorem isLetter_of_isDecimal (c : Char) (h : isDecimal c = true) : isLetter c = false := by
  rw [isDecimal_iff] at h
  rw [← Bool.not_eq_true, isLetter_iff]
  omega

/-! ### Integers -/

theorem digits_decimal (n : Nat) : ∀ c ∈ Nat.toDigits 10 n, isDecimal c = true := by
  intro c hc
  have h := Nat.isDigit_of_mem_toDigits (by decide) (by decide) hc
  simpa [Char.isDigit, isDecimal, Char.le_def] using h

theorem digits_head {n : Nat} (h : 0 < n) : (Nat.toDigits 10 n).head? ≠ some '0' := by
  induction n using Nat.strongRecOn with
  | ind n ih =>
    rw [Nat.toDigits_eq_if (by decide)]
    split
    case isTrue hlt =>
      intro hhead
      have hdigit : ∀ m < 10, 0 < m → Nat.digitChar m ≠ '0' := by decide
      exact hdigit n hlt h (Option.some.inj hhead)
    case isFalse hle =>
      have hdiv : 0 < n / 10 := by omega
      have hhead := ih (n / 10) (by omega) hdiv
      cases hdigits : Nat.toDigits 10 (n / 10) with
      | nil => exact absurd hdigits Nat.toDigits_ne_nil
      | cons c cs =>
        rw [hdigits] at hhead
        exact hhead

/-- A zero in front is the whole number. -/
theorem digits_zero {n : Nat} {cs : List Char} (h : Nat.toDigits 10 n = '0' :: cs) : cs = [] := by
  rcases Nat.eq_zero_or_pos n with rfl | hpos
  · rw [Nat.toDigits_zero] at h
    exact (List.cons.inj h).2.symm
  · have hhead := digits_head hpos
    rw [h] at hhead
    exact absurd rfl hhead

/-- Digits with something apart after them are no float. -/
theorem lexeme_digits {c : Char} {cs rest : List Char} (hdigits : ∀ d ∈ c :: cs, isDecimal d = true)
    (apart : Apart rest) : lexeme c (cs ++ rest) = decimal.integer c (c :: cs) rest := by
  have hc := hdigits c List.mem_cons_self
  have hcs : ∀ d ∈ cs, isDecimal d = true := fun d hd => hdigits d (List.mem_cons_of_mem c hd)
  have hradix : c = '0' → ∀ d ∈ (cs ++ rest).head?, isLetter d = false := by
    intro _ d hd
    cases cs with
    | nil => exact isLetter_of_isBreak d (apart d hd)
    | cons d' ds =>
      cases hd
      exact isLetter_of_isDecimal d (hcs d List.mem_cons_self)
  obtain ⟨htake, hdrop⟩ := run_apart isDecimal_of_isBreak hcs apart
  rw [lexeme_number hc, number_decimal hradix, decimal, htake, hdrop]
  split
  case h_1 =>
    -- a point cannot stand apart
    exact absurd (apart '.' rfl) (by decide)
  case h_2 => rfl

theorem integer_spells {c : Char} {cs : List Char} (hdigits : ∀ d ∈ c :: cs, isDecimal d = true)
    (hzero : c = '0' → cs = []) :
    Spells ⟨.integerLiteral, String.ofList (c :: cs)⟩ c cs := by
  obtain ⟨hshown, hnul, hslash⟩ := digit_starts (hdigits c List.mem_cons_self)
  refine ⟨hshown, hnul, fun h => absurd h hslash, by simp, ?_⟩
  intro rest apart
  rw [lexeme_digits hdigits apart]
  unfold decimal.integer
  rw [if_neg]
  · rfl
  · rintro ⟨rfl, hne⟩
    exact hne (by rw [hzero rfl])

/-- An integer that is not negative, in decimal digits. -/
def integer (n : Nat) : Terminal := ⟨.integerLiteral, String.ofList (Nat.toDigits 10 n)⟩

theorem legible_integer (n : Nat) : (integer n).Legible := by
  cases hdigits : Nat.toDigits 10 n with
  | nil => exact absurd hdigits Nat.toDigits_ne_nil
  | cons c cs =>
    have hall := digits_decimal n
    rw [hdigits] at hall
    rw [integer, hdigits]
    refine Terminal.legible_plain (by simp) (String.toList_ofList) (integer_spells hall ?_)
    rintro rfl
    exact digits_zero hdigits

theorem extend_append (radix : Nat) (negative : Bool) (value : Int) (cs ds : List Char) :
    Radix.extend radix negative value (cs ++ ds) =
      (Radix.extend radix negative value cs).bind (Radix.extend radix negative · ds) := by
  induction cs generalizing value with
  | nil => rfl
  | cons c cs ih =>
    simp only [List.cons_append, Radix.extend]
    cases Radix.digit? radix c with
    | none => rfl
    | some d =>
      dsimp only
      generalize (if negative = true then value * radix - d else value * radix + d) = next
      by_cases hlow : next < Radix.least
      · simp [hlow, Except.bind]
      · by_cases hhigh : Radix.greatest < next
        · simp [hlow, hhigh, Except.bind]
        · simp [hlow, hhigh, ih]

theorem extend_digits {n : Nat} (h : (n : Int) ≤ Radix.greatest) :
    Radix.extend 10 false 0 (Nat.toDigits 10 n) = .ok n := by
  have hdigit : ∀ d < 10, Radix.digit? 10 (Nat.digitChar d) = some d := by decide
  have hone : ∀ {v d : Nat}, d < 10 → (v * 10 + d : Nat) ≤ Radix.greatest →
      Radix.extend 10 false v [Nat.digitChar d] = .ok (v * 10 + d : Nat) := by
    intro v d hd hle
    have hleast : Radix.least ≤ 0 := by decide
    simp only [Radix.extend, hdigit d hd]
    rw [if_neg (by simp; omega), if_neg (by simp; omega)]
    simp
  induction n using Nat.strongRecOn with
  | ind n ih =>
    rw [Nat.toDigits_eq_if (by decide)]
    split
    case isTrue hlt =>
      have := hone (v := 0) hlt (by simpa using h)
      simpa using this
    case isFalse hle =>
      rw [extend_append, ih (n / 10) (by omega) (by omega)]
      have := hone (v := n / 10) (Nat.mod_lt n (by decide)) (by rw [Nat.div_add_mod']; exact h)
      rw [Nat.div_add_mod'] at this
      exact this

theorem radixOf_digits (n : Nat) : radixOf (Nat.toDigits 10 n) = (Nat.toDigits 10 n, 10) := by
  cases hdigits : Nat.toDigits 10 n with
  | nil => exact absurd hdigits Nat.toDigits_ne_nil
  | cons c cs =>
    by_cases hzero : c = '0'
    · subst hzero
      rw [digits_zero hdigits]
      rfl
    · simp [radixOf, hzero]

theorem read_digits (n : Nat) :
    Radix.read 10 (Nat.toDigits 10 n) = Radix.extend 10 false 0 (Nat.toDigits 10 n) := by
  have hall := digits_decimal n
  cases hdigits : Nat.toDigits 10 n with
  | nil => exact absurd hdigits Nat.toDigits_ne_nil
  | cons c cs =>
    rw [hdigits] at hall
    have hc := hall c List.mem_cons_self
    have hsign : c ≠ '+' ∧ c ≠ '-' := by
      constructor <;> rintro rfl <;> exact absurd hc (by decide)
    simp [Radix.read, hsign]

theorem integerValue_integer {n : Nat} (h : (n : Int) ≤ Radix.greatest) :
    integerValue (integer n).text = .ok n := by
  rw [integerValue, integer, String.toList_ofList, radixOf_digits]
  exact (read_digits n).trans (extend_digits h)

/-- One or more digits. -/
def Digits (cs : List Char) : Prop := cs ≠ [] ∧ ∀ c ∈ cs, isDecimal c = true

/-- The integer lexemes. -/
inductive IsInteger : List Char → Prop where
  | zero : IsInteger ['0']
  | decimal {cs : List Char} (hdigits : Digits cs) (hlead : cs.head? ≠ some '0') : IsInteger cs
  | hexadecimal {x : Char} {ds : List Char} (hx : x = 'x' ∨ x = 'X') (hne : ds ≠ [])
      (hds : ∀ d ∈ ds, isHexadecimal d = true) : IsInteger ('0' :: x :: ds)
  | binary {x : Char} {ds : List Char} (hx : x = 'b' ∨ x = 'B') (hne : ds ≠ [])
      (hds : ∀ d ∈ ds, isBinary d = true) : IsInteger ('0' :: x :: ds)
  | octal {ds : List Char} (hne : ds ≠ []) (hds : ∀ d ∈ ds, isOctal d = true) :
      IsInteger ('0' :: ds)

theorem isHexadecimal_iff (c : Char) : isHexadecimal c = true ↔ isDecimal c = true ∨
    (97 ≤ c.toNat ∧ c.toNat ≤ 102) ∨ (65 ≤ c.toNat ∧ c.toNat ≤ 70) := by
  simp [isHexadecimal, Char.le_def, UInt32.le_iff_toNat_le, or_assoc]

theorem isBinary_iff (c : Char) : isBinary c = true ↔ c.toNat = 48 ∨ c.toNat = 49 := by
  simp [isBinary, ← Char.toNat_inj]

theorem isOctal_iff (c : Char) : isOctal c = true ↔ 48 ≤ c.toNat ∧ c.toNat ≤ 55 := by
  simp [isOctal, Char.le_def, UInt32.le_iff_toNat_le]

theorem isHexadecimal_of_isDecimal (c : Char) (h : isDecimal c = true) :
    isHexadecimal c = true :=
  (isHexadecimal_iff c).2 (.inl h)

theorem isDecimal_of_isOctal (c : Char) (h : isOctal c = true) : isDecimal c = true := by
  rw [isOctal_iff] at h
  rw [isDecimal_iff]
  omega

theorem isDecimal_of_isBinary (c : Char) (h : isBinary c = true) : isDecimal c = true := by
  rw [isBinary_iff] at h
  rw [isDecimal_iff]
  omega

/-- A digit in any radix may stand in a word. -/
theorem word_of_isHexadecimal (d : Char) (h : isHexadecimal d = true) :
    (isLetter d || isDecimal d) = true := by
  rw [isHexadecimal_iff, isDecimal_iff] at h
  rw [Bool.or_eq_true, isLetter_iff, isDecimal_iff]
  omega

theorem radixInteger_spelled {radix : String} {isDigit : Char → Bool} {lead ds rest : List Char}
    (hclass : ∀ d, isDigit d = true → (isLetter d || isDecimal d) = true) (hne : ds ≠ [])
    (hds : ∀ d ∈ ds, isDigit d = true) (apart : Apart rest) :
    radixInteger radix isDigit lead (ds ++ rest) =
      .plain .integerLiteral (lead ++ ds) rest := by
  have hbreak : ∀ d, isBreak d = true → (isLetter d || isDecimal d) = false := by
    intro d hd
    rw [isLetter_of_isBreak d hd, isDecimal_of_isBreak d hd]
    rfl
  obtain ⟨htake, hdrop⟩ := run_apart hbreak (fun d hd => hclass d (hds d hd)) apart
  have hbad : ds.find? (!isDigit ·) = none := by
    rw [List.find?_eq_none]
    intro d hd
    simp [hds d hd]
  rw [radixInteger, htake, hdrop, if_neg hne, hbad]

/-- A zero and one of the two letters of a radix before its digits. -/
theorem prefixed_spells {radix : String} {isDigit : Char → Bool} {small large x : Char}
    {ds : List Char} (hclass : ∀ d, isDigit d = true → isHexadecimal d = true)
    (hsmall : ∀ cs, number '0' (small :: cs) = radixInteger radix isDigit ['0', small] cs)
    (hlarge : ∀ cs, number '0' (large :: cs) = radixInteger radix isDigit ['0', large] cs)
    (hx : x = small ∨ x = large) (hne : ds ≠ []) (hds : ∀ d ∈ ds, isDigit d = true) :
    Spells ⟨.integerLiteral, String.ofList ('0' :: x :: ds)⟩ '0' (x :: ds) := by
  have hnumber : ∀ cs, number '0' (x :: cs) = radixInteger radix isDigit ['0', x] cs := by
    rcases hx with rfl | rfl
    · exact hsmall
    · exact hlarge
  refine ⟨by decide, by decide, fun h => absurd h (by decide), by simp, ?_⟩
  intro rest apart
  rw [lexeme_number (by decide), List.cons_append, hnumber,
    radixInteger_spelled (fun d hd => word_of_isHexadecimal d (hclass d hd)) hne hds apart]
  rfl

theorem octal_spells {ds : List Char} (hds : ∀ d ∈ ds, isOctal d = true) :
    Spells ⟨.integerLiteral, String.ofList ('0' :: ds)⟩ '0' ds := by
  have hoctal : ∀ d ∈ '0' :: ds, isOctal d = true := List.forall_mem_cons.2 ⟨by decide, hds⟩
  have hdecimal : ∀ d ∈ '0' :: ds, isDecimal d = true :=
    fun d hd => isDecimal_of_isOctal d (hoctal d hd)
  have hbad : ('0' :: ds).find? (!isOctal ·) = none := by
    rw [List.find?_eq_none]
    intro d hd
    simp [hoctal d hd]
  refine ⟨by decide, by decide, fun h => absurd h (by decide), by simp, ?_⟩
  intro rest apart
  rw [lexeme_digits hdecimal apart, decimal.integer, hbad]
  exact ite_self _

theorem isInteger_spells {cs : List Char} (h : IsInteger cs) :
    ∃ d ds, cs = d :: ds ∧ Spells ⟨.integerLiteral, String.ofList cs⟩ d ds := by
  cases h with
  | zero => exact ⟨'0', [], rfl, octal_spells nofun⟩
  | decimal hdigits hlead =>
    obtain ⟨d, ds, rfl⟩ := List.exists_cons_of_ne_nil hdigits.1
    refine ⟨d, ds, rfl, integer_spells hdigits.2 ?_⟩
    rintro rfl
    exact absurd rfl hlead
  | hexadecimal hx hne hds =>
    exact ⟨'0', _, rfl, prefixed_spells (fun _ h => h) (fun _ => rfl) (fun _ => rfl) hx hne hds⟩
  | binary hx hne hds =>
    refine ⟨'0', _, rfl, prefixed_spells ?_ (fun _ => rfl) (fun _ => rfl) hx hne hds⟩
    exact fun d h => isHexadecimal_of_isDecimal d (isDecimal_of_isBinary d h)
  | octal _ hds => exact ⟨'0', _, rfl, octal_spells hds⟩

/-! ### Floats -/

inductive IsExponent : List Char → Prop
  | none : IsExponent []
  | some {e : Char} {sign digits : List Char} (he : e = 'e' ∨ e = 'E')
      (hsign : sign = [] ∨ sign = ['+'] ∨ sign = ['-']) (hdigits : Digits digits) :
      IsExponent (e :: (sign ++ digits))

/-- The float lexemes. -/
def IsFloat (cs : List Char) : Prop :=
  ∃ whole fraction exponent, cs = whole ++ '.' :: (fraction ++ exponent) ∧ Digits whole ∧
    Digits fraction ∧ IsExponent exponent

theorem exponentSign_eq {sign digits rest : List Char}
    (hsign : sign = [] ∨ sign = ['+'] ∨ sign = ['-']) (hdigits : Digits digits) :
    exponentSign (sign ++ digits ++ rest) = (sign, digits ++ rest) := by
  rcases hsign with rfl | rfl | rfl
  · obtain ⟨hne, hall⟩ := hdigits
    cases digits with
    | nil => exact absurd rfl hne
    | cons d ds =>
      have hd := hall d List.mem_cons_self
      have hsign : d ≠ '+' ∧ d ≠ '-' := by
        constructor <;> rintro rfl <;> exact absurd hd (by decide)
      simp [exponentSign, hsign]
  · rfl
  · rfl

theorem exponent_spelled {cs rest : List Char} (h : IsExponent cs) (apart : Apart rest)
    (taken : List Char) :
    exponent taken (cs ++ rest) = .plain .floatLiteral (taken ++ cs) rest := by
  cases h with
  | none =>
    rw [List.nil_append, List.append_nil]
    cases rest with
    | nil => rfl
    | cons d ds =>
      have hd := apart d rfl
      have hne : ¬(d = 'e' ∨ d = 'E') := by
        rintro (rfl | rfl) <;> exact absurd hd (by decide)
      simp [exponent, hne]
  | @some e sign digits he hsign hdigits =>
    obtain ⟨htake, hdrop⟩ := run_apart isDecimal_of_isBreak hdigits.2 apart
    rw [List.cons_append, exponent, if_pos he, exponentSign_eq hsign hdigits]
    simp only [htake, hdrop]
    rw [if_neg hdigits.1]
    simp

/-- A fraction ends where an exponent starts or something stands apart. -/
theorem run_fraction {cs exp rest : List Char} (hcs : ∀ c ∈ cs, isDecimal c = true)
    (hexp : IsExponent exp) (apart : Apart rest) :
    (cs ++ (exp ++ rest)).takeWhile isDecimal = cs ∧
      (cs ++ (exp ++ rest)).dropWhile isDecimal = exp ++ rest := by
  cases hexp with
  | none => exact run_apart isDecimal_of_isBreak hcs apart
  | @some e sign digits he hsign hdigits =>
    have hstop : isDecimal e = false := by rcases he with rfl | rfl <;> decide
    rw [List.takeWhile_append_of_pos hcs, List.dropWhile_append_of_pos hcs]
    simp [hstop]

theorem decimal_float {first f : Char} {ds fs : List Char} (hds : ∀ c ∈ ds, isDecimal c = true)
    (hf : isDecimal f = true) :
    decimal first (ds ++ '.' :: f :: fs) =
      exponent (first :: ds ++ '.' :: (f :: fs).takeWhile isDecimal)
        ((f :: fs).dropWhile isDecimal) := by
  have hpoint : isDecimal '.' = false := by decide
  rw [decimal, List.takeWhile_append_of_pos hds, List.dropWhile_append_of_pos hds]
  simp [hpoint, hf]

theorem float_spells {cs : List Char} (h : IsFloat cs) :
    ∃ d ds, cs = d :: ds ∧ Spells ⟨.floatLiteral, String.ofList cs⟩ d ds := by
  obtain ⟨whole, fraction, exp, rfl, ⟨hne, hwhole⟩, ⟨hfraction, hdigits⟩, hexp⟩ := h
  cases whole with
  | nil => exact absurd rfl hne
  | cons d ds =>
    have hd := hwhole d List.mem_cons_self
    have hds : ∀ c ∈ ds, isDecimal c = true := fun c hc => hwhole c (List.mem_cons_of_mem d hc)
    obtain ⟨hshown, hnul, hslash⟩ := digit_starts hd
    refine ⟨d, ds ++ '.' :: (fraction ++ exp), rfl, hshown, hnul, fun h => absurd h hslash,
      by simp, ?_⟩
    intro rest apart
    have hradix : d = '0' → ∀ c ∈ (ds ++ '.' :: (fraction ++ exp) ++ rest).head?,
        isLetter c = false := by
      intro _ c hc
      cases ds with
      | nil =>
        cases hc
        decide
      | cons c' cs' =>
        cases hc
        exact isLetter_of_isDecimal _ (hds _ List.mem_cons_self)
    obtain ⟨htake, hdrop⟩ := run_fraction hdigits hexp apart
    have htext : ds ++ '.' :: (fraction ++ exp) ++ rest =
        ds ++ '.' :: (fraction ++ (exp ++ rest)) := by simp
    rw [lexeme_number hd, number_decimal hradix, htext]
    cases fraction with
    | nil => exact absurd rfl hfraction
    | cons f fs =>
      rw [List.cons_append] at htake hdrop ⊢
      rw [decimal_float hds (hdigits f List.mem_cons_self), htake, hdrop,
        exponent_spelled hexp apart]
      simp [Lexeme.plain]

theorem legible_float {cs : List Char} (h : IsFloat cs) :
    Terminal.Legible ⟨.floatLiteral, String.ofList cs⟩ := by
  obtain ⟨d, ds, rfl, hspells⟩ := float_spells h
  exact Terminal.legible_plain (by simp) String.toList_ofList hspells

end TinyScript.Token
