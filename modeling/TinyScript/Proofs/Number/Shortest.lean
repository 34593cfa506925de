import TinyScript.Number.Decimal

/-! The fewest digits that read back. The numbers that read as one double lie between the
middles to its neighbours, so those of two doubles are apart; in quarters of the least
double the middles are whole numbers. The search through coarser and finer grids always
ends, with a number among the double's own. -/

namespace TinyScript.Number

/-- Two decimals of one value, without a division. -/
def Decimal.Same (d d' : Decimal) : Prop :=
  d.digits * tenTo d.exponent.toNat * tenTo (-d'.exponent).toNat =
    d'.digits * tenTo d'.exponent.toNat * tenTo (-d.exponent).toNat

/-! ### Neighbourhoods -/

namespace Double

/-- The exponents of doubles counted from one. -/
def grade (m : Nat) : Nat := max (m / binade) 1

/-- The significand of the double of a magnitude. -/
def digitsOf (m : Nat) : Nat := if m < binade then m else binade + m % binade

theorem digitsOf_add (m : Nat) : (grade m - 1) * binade + digitsOf m = m := by
  unfold grade digitsOf binade
  split
  · omega
  · have := Nat.div_add_mod m 0x10000000000000
    have : 1 ≤ m / 0x10000000000000 := by omega
    rw [Nat.max_eq_left this]
    omega

theorem digitsOf_lt (m : Nat) : digitsOf m < 2 * binade := by
  unfold digitsOf binade
  split <;> omega

theorem binade_le_digitsOf {m : Nat} (h : 1 < grade m) : binade ≤ digitsOf m := by
  unfold grade digitsOf binade at *
  split <;> omega

theorem digitsOf_pos {m : Nat} (h : 0 < m) : 0 < digitsOf m := by
  unfold digitsOf binade
  split <;> omega

/-- The middle to the double below, in quarters of the least double. -/
def below (m : Nat) : Nat :=
  (4 * digitsOf m - if digitsOf m = binade ∧ 1 < grade m then 1 else 2) * twoTo (grade m - 1)

/-- The middle to the double above. -/
def above (m : Nat) : Nat := (4 * digitsOf m + 2) * twoTo (grade m - 1)

theorem below_lt_above (m : Nat) : below m < above m := by
  refine Nat.mul_lt_mul_of_pos_right ?_ (twoTo_pos _)
  omega

/-- Grade and significand are all there is to a magnitude. -/
theorem grade_eq {m g s : Nat} (hm : m = (g - 1) * binade + s) (hg : 1 ≤ g)
    (hs : s < 2 * binade) (hlow : 1 < g → binade ≤ s) : grade m = g ∧ digitsOf m = s := by
  unfold grade digitsOf
  unfold binade at *
  split <;> omega

/-- The middle between neighbours, on which grade they may be. -/
theorem above_eq_below (m : Nat) : above m = below (m + 1) := by
  have hsum := digitsOf_add m
  have hlt := digitsOf_lt m
  have hgrade : 1 ≤ grade m := Nat.le_max_right _ _
  by_cases hlast : digitsOf m + 1 = 2 * binade
  · obtain ⟨hg, hs⟩ := @grade_eq (m + 1) (grade m + 1) binade
      (by unfold binade at *; omega) (by omega) (by decide) (fun _ => Nat.le_refl _)
    have htwice : twoTo (grade m) = 2 * twoTo (grade m - 1) := by
      obtain ⟨k, hk⟩ := Nat.exists_eq_add_of_le' hgrade
      rw [hk, twoTo_succ, Nat.add_sub_cancel, Nat.mul_comm]
    have hdigits : digitsOf m = 2 * binade - 1 := by omega
    rw [above, below, hg, hs, if_pos ⟨rfl, by omega⟩, Nat.add_sub_cancel, htwice, hdigits]
    unfold binade
    omega
  · obtain ⟨hg, hs⟩ := @grade_eq (m + 1) (grade m) (digitsOf m + 1) (by omega) hgrade (by omega)
      (fun h => Nat.le_succ_of_le (binade_le_digitsOf h))
    have hinner : ¬(digitsOf m + 1 = binade ∧ 1 < grade m) := by
      rintro ⟨hnext, h⟩
      have := binade_le_digitsOf h
      omega
    rw [above, below, hg, hs, if_neg hinner]
    rfl

theorem above_le_below {m m' : Nat} (h : m < m') : above m ≤ below m' := by
  obtain ⟨k, rfl⟩ := Nat.exists_eq_add_of_lt h
  induction k with
  | zero => exact Nat.le_of_eq (above_eq_below m)
  | succ k ih =>
    rw [← above_eq_below]
    exact Nat.le_trans (ih (by omega)) (Nat.le_of_lt (below_lt_above _))

theorem above_lt_below {m m' : Nat} (h : m + 1 < m') : above m < below m' := by
  have hle := above_le_below h
  rw [above_eq_below]
  exact Nat.lt_of_lt_of_le (below_lt_above _) hle

/-- A decimal reads as a magnitude: in quarters of the least double it is between the
middles to the neighbours, and one of them only if the magnitude is even. -/
structure Reads (m : Nat) (d : Decimal) : Prop where
  low : below m * tenTo (-d.exponent).toNat ≤ d.digits * tenTo d.exponent.toNat * twoTo 1076
  high : d.digits * tenTo d.exponent.toNat * twoTo 1076 ≤ above m * tenTo (-d.exponent).toNat
  inner : m % 2 = 1 →
    below m * tenTo (-d.exponent).toNat ≠ d.digits * tenTo d.exponent.toNat * twoTo 1076 ∧
      d.digits * tenTo d.exponent.toNat * twoTo 1076 ≠ above m * tenTo (-d.exponent).toNat

theorem Reads.not_lt {m m' : Nat} {d d' : Decimal} (h : Reads m d) (h' : Reads m' d')
    (hsame : d.Same d') : ¬m < m' := by
  intro hlt
  obtain ⟨-, hhigh, hinner⟩ := h
  obtain ⟨hlow, -, hinner'⟩ := h'
  unfold Decimal.Same at hsame
  have hb := tenTo_pos (-d.exponent).toNat
  have hb' := tenTo_pos (-d'.exponent).toNat
  generalize tenTo (-d.exponent).toNat = b at *
  generalize tenTo (-d'.exponent).toNat = b' at *
  generalize ha : d.digits * tenTo d.exponent.toNat = a at *
  generalize ha' : d'.digits * tenTo d'.exponent.toNat = a' at *
  have hcross : a * twoTo 1076 * b' = a' * twoTo 1076 * b := by
    rw [Nat.mul_right_comm, hsame, Nat.mul_right_comm]
  -- The first is at most its upper middle, the second at least its lower one, and they are
  -- one number, so both middles are it.
  have hmiddle := above_le_below hlt
  have hle : a * twoTo 1076 * b' ≤ above m * b * b' := Nat.mul_le_mul_right b' hhigh
  have hle' : below m' * b' * b ≤ a' * twoTo 1076 * b := Nat.mul_le_mul_right b hlow
  have hmiddles : above m * b * b' ≤ below m' * b' * b := by
    rw [Nat.mul_right_comm (below m')]
    exact Nat.mul_le_mul_right b' (Nat.mul_le_mul_right b hmiddle)
  have htop : a * twoTo 1076 = above m * b :=
    Nat.eq_of_mul_eq_mul_right hb' (by omega)
  have hbottom : below m' * b' = a' * twoTo 1076 :=
    Nat.eq_of_mul_eq_mul_right hb (by omega)
  have hone : above m = below m' := by
    refine Nat.eq_of_mul_eq_mul_right hb (Nat.eq_of_mul_eq_mul_right hb' ?_)
    rw [Nat.mul_right_comm (below m')]
    omega
  have hnext : m' = m + 1 := by
    by_cases hfar : m + 1 < m'
    · exact absurd hone (Nat.ne_of_lt (above_lt_below hfar))
    · omega
  rcases Nat.mod_two_eq_zero_or_one m with heven | hodd
  · exact (hinner' (by omega)).1 hbottom
  · exact (hinner hodd).2 htop

/-- No number reads as two magnitudes. -/
theorem Reads.unique {m m' : Nat} {d d' : Decimal} (h : Reads m d) (h' : Reads m' d')
    (hsame : d.Same d') : m = m' :=
  Nat.le_antisymm (Nat.not_lt.1 (h'.not_lt h hsame.symm)) (Nat.not_lt.1 (h.not_lt h' hsame))

theorem significand_eq (d : Double) : d.significand = digitsOf d.magnitude := rfl

theorem exponent_eq (d : Double) : d.exponent = (grade d.magnitude : Int) - 1075 := by
  simp [exponent, grade]

theorem tenTo_up (p : Int) : (if 0 ≤ p then tenTo p.toNat else 1) = tenTo p.toNat := by
  split
  · rfl
  · rw [Int.toNat_of_nonpos (by omega)]
    rfl

theorem tenTo_down (p : Int) : (if 0 ≤ p then 1 else tenTo (-p).toNat) = tenTo (-p).toNat := by
  split
  · rw [Int.toNat_of_nonpos (by omega)]
    rfl
  · rfl

theorem twoTo_add (a b : Nat) : twoTo (a + b) = twoTo a * twoTo b := Nat.pow_add 2 a b

theorem num_eq (d : Double) : d.neighbourhood.num = twoTo (grade d.magnitude - 1 - 1076) := by
  have hexponent := exponent_eq d
  show (scale 1 (d.exponent - 2)).1 = _
  unfold scale
  split
  · rw [Nat.one_mul]
    exact congrArg twoTo (by omega)
  · exact congrArg twoTo (show 0 = grade d.magnitude - 1 - 1076 by omega)

theorem den_eq (d : Double) : d.neighbourhood.den = twoTo (1076 - (grade d.magnitude - 1)) := by
  have hgrade : 1 ≤ grade d.magnitude := Nat.le_max_right _ _
  have hexponent := exponent_eq d
  show (scale 1 (d.exponent - 2)).2 = _
  unfold scale
  split
  · exact congrArg twoTo (show 0 = 1076 - (grade d.magnitude - 1) by omega)
  · have hplaces : (-(d.exponent - 2)).toNat = 1076 - (grade d.magnitude - 1) := by omega
    exact congrArg twoTo hplaces

/-- The unit of a neighbourhood in quarters of the least double. -/
theorem unit_eq (d : Double) : d.neighbourhood.num * twoTo 1076 =
    d.neighbourhood.den * twoTo (grade d.magnitude - 1) := by
  rw [num_eq, den_eq, ← twoTo_add, ← twoTo_add]
  exact congrArg twoTo (by omega)

theorem den_pos (d : Double) : 0 < d.neighbourhood.den := by
  rw [den_eq]
  exact twoTo_pos _

theorem num_pos (d : Double) : 0 < d.neighbourhood.num := by
  rw [num_eq]
  exact twoTo_pos _

theorem lo_eq (d : Double) :
    d.neighbourhood.lo * twoTo (grade d.magnitude - 1) = below d.magnitude := by
  have hgrade : (-1074 < d.exponent) = (1 < grade d.magnitude) := by
    rw [exponent_eq]
    exact propext ⟨fun h => by omega, fun h => by omega⟩
  show (4 * d.significand - if d.significand = binade ∧ -1074 < d.exponent then 1 else 2) * _ = _
  simp only [hgrade]
  rfl

/-- A comparison of a decimal with a multiple of the unit, in quarters of the least
double. -/
theorem compare_units {x t num den u a k : Nat} (h : num * k = den * u) (hden : 0 < den)
    (hk : 0 < k) : (x * (t * num) ≤ a * den ↔ x * u * t ≤ a * k) ∧
      (a * den ≤ x * (t * num) ↔ a * k ≤ x * u * t) := by
  have hleft : x * (t * num) * k = x * u * t * den := by
    calc x * (t * num) * k = x * t * (num * k) := by simp only [Nat.mul_assoc]
      _ = x * t * (den * u) := by rw [h]
      _ = x * u * t * den := by simp only [Nat.mul_comm, Nat.mul_left_comm]
  have hright : a * den * k = a * k * den := Nat.mul_right_comm ..
  constructor
  · rw [← Nat.mul_le_mul_right_iff hk, hleft, hright, Nat.mul_le_mul_right_iff hden]
  · rw [← Nat.mul_le_mul_right_iff hk, hleft, hright, Nat.mul_le_mul_right_iff hden]

theorem even_magnitude (d : Double) : d.magnitude % 2 = d.significand % 2 := by
  have h := digitsOf_add d.magnitude
  rw [significand_eq]
  unfold binade at h
  omega

/-- What a double's neighbourhood holds reads as it. -/
theorem reads_of_holds {d : Double} {n : Nat} {p : Int} (h : d.neighbourhood.holds n p = true) :
    Reads d.magnitude ⟨n, p⟩ := by
  have hcompare := fun x => @compare_units x (tenTo (-p).toNat) _ _ _ (n * tenTo p.toNat) _
    (unit_eq d) (den_pos d) (twoTo_pos 1076)
  have hlow := hcompare d.neighbourhood.lo
  have hhigh := hcompare d.neighbourhood.hi
  rw [lo_eq] at hlow
  have hhi : d.neighbourhood.hi * twoTo (grade d.magnitude - 1) = above d.magnitude := rfl
  rw [hhi] at hhigh
  have heven : d.neighbourhood.closed = decide (d.magnitude % 2 = 0) := by
    rw [even_magnitude]
    rfl
  unfold Neighbourhood.holds at h
  rw [tenTo_up, tenTo_down, heven] at h
  dsimp only at h
  split at h
  · simp only [Bool.and_eq_true, decide_eq_true_eq] at h
    rename_i hclosed
    refine ⟨hlow.1.1 h.1, hhigh.2.1 h.2, fun hodd => ?_⟩
    simp at hclosed
    omega
  · simp only [Bool.and_eq_true, decide_eq_true_eq] at h
    have hlow' := Nat.not_le.1 fun hle => Nat.not_le.2 h.1 (hlow.2.2 hle)
    have hhigh' := Nat.not_le.1 fun hle => Nat.not_le.2 h.2 (hhigh.1.2 hle)
    exact ⟨Nat.le_of_lt hlow', Nat.le_of_lt hhigh',
      fun _ => ⟨Nat.ne_of_lt hlow', Nat.ne_of_lt hhigh'⟩⟩

/-! ### The search -/

theorem holds_of_onGrid {w : Neighbourhood} {p : Int} {r : Decimal} (h : w.onGrid p = some r) :
    w.holds r.digits r.exponent = true := by
  unfold Neighbourhood.onGrid at h
  rw [tenTo_up, tenTo_down] at h
  dsimp only at h
  split at h
  · rename_i hup
    cases h
    exact (Bool.and_eq_true_iff.1 hup).1
  · split at h
    · cases h
      assumption
    · cases h

/-- A grid that is no coarser than the unit has a point below the middle. -/
theorem onGrid_of_fine {w : Neighbourhood} {p : Int} (hlo : w.lo < w.mid) (hhi : w.mid < w.hi)
    (hnum : 0 < w.num) (hden : 0 < w.den)
    (hfine : w.den * tenTo p.toNat ≤ w.num * tenTo (-p).toNat) : w.onGrid p ≠ none := by
  have hdown : w.holds (w.mid * w.num * tenTo (-p).toNat / (w.den * tenTo p.toNat)) p = true := by
    have hunit : 0 < w.num * tenTo (-p).toNat := Nat.mul_pos hnum (tenTo_pos _)
    unfold Neighbourhood.holds
    rw [tenTo_up, tenTo_down, Nat.mul_assoc w.mid, Nat.mul_comm _ w.num]
    have hgrid : 0 < w.den * tenTo p.toNat := Nat.mul_pos hden (tenTo_pos _)
    have hpoint : ∀ n, n * tenTo p.toNat * w.den = w.den * tenTo p.toNat * n := by
      intro n
      rw [Nat.mul_right_comm, Nat.mul_assoc, Nat.mul_comm]
    dsimp only
    rw [hpoint]
    generalize w.num * tenTo (-p).toNat = u at hunit hfine ⊢
    generalize w.den * tenTo p.toNat = b at hgrid hfine ⊢
    have hdiv := Nat.div_add_mod (w.mid * u) b
    have hmod := Nat.mod_lt (w.mid * u) hgrid
    have hlo' : (w.lo + 1) * u ≤ w.mid * u := Nat.mul_le_mul_right u hlo
    have hhi' : (w.mid + 1) * u ≤ w.hi * u := Nat.mul_le_mul_right u hhi
    rw [Nat.add_mul, Nat.one_mul] at hlo' hhi'
    have hinside : w.lo * u < b * (w.mid * u / b) ∧ b * (w.mid * u / b) < w.hi * u := by omega
    split <;> simp only [Bool.and_eq_true, decide_eq_true_eq] <;> omega
  unfold Neighbourhood.onGrid
  rw [tenTo_up, tenTo_down]
  simp only [hdown, if_true]
  split <;> nofun

/-- The last grid of the search is finer than the unit, on the whole range of units. -/
theorem last_grid_fine {j : Nat} (hj : j < 2046) :
    twoTo (1076 - j) * tenTo ((j * 30103 + 9264837) / 100000 - 421) ≤
      twoTo (j - 1076) * tenTo (421 - (j * 30103 + 9264837) / 100000) := by
  have hall : (List.range 2046).all fun j =>
      Nat.ble (twoTo (1076 - j) * tenTo ((j * 30103 + 9264837) / 100000 - 421))
        (twoTo (j - 1076) * tenTo (421 - (j * 30103 + 9264837) / 100000)) := by
    decide +kernel
  exact Nat.le_of_ble_eq_true (List.all_eq_true.1 hall j (List.mem_range.2 hj))

theorem tenTo_le {a b : Nat} (h : a ≤ b) : tenTo a ≤ tenTo b :=
  Nat.pow_le_pow_right (by decide) h

theorem grade_lt {d : Double} (h : d.isFinite = true) : grade d.magnitude - 1 < 2046 := by
  have hlt : d.magnitude < infiniteMagnitude := of_decide_eq_true h
  unfold infiniteMagnitude at hlt
  unfold grade binade
  omega

/-- How far up the search starts. -/
theorem bits_le {d : Double} (hpos : 0 < d.magnitude) :
    ((d.neighbourhood.mid * d.neighbourhood.num).log2 : Int) - d.neighbourhood.den.log2 + 1 ≤
      (grade d.magnitude - 1 : Nat) - 1021 := by
  have hsignificand := digitsOf_pos hpos
  have hlt := digitsOf_lt d.magnitude
  have hmid : d.neighbourhood.mid < twoTo 55 := by
    show 4 * digitsOf d.magnitude < twoTo 55
    have h55 : twoTo 55 = 8 * binade := rfl
    omega
  have hne : d.neighbourhood.mid * d.neighbourhood.num ≠ 0 := by
    have hmid' : 0 < 4 * digitsOf d.magnitude := by omega
    exact Nat.ne_of_gt (Nat.mul_pos hmid' (num_pos d))
  have hlog : (d.neighbourhood.mid * d.neighbourhood.num).log2 <
      55 + (grade d.magnitude - 1 - 1076) := by
    rw [Nat.log2_lt hne, num_eq]
    exact Nat.lt_of_lt_of_eq (Nat.mul_lt_mul_of_pos_right hmid (twoTo_pos _)) (twoTo_add ..).symm
  have hden : d.neighbourhood.den.log2 = 1076 - (grade d.magnitude - 1) := by
    rw [den_eq]
    exact Nat.log2_two_pow
  omega

theorem search_succeeds {d : Double} (hfinite : d.isFinite = true) (hpos : 0 < d.magnitude)
    {p : Int} (hp : p ≤ (((d.neighbourhood.mid * d.neighbourhood.num).log2 : Int) -
      d.neighbourhood.den.log2 + 1) * 30103 / 100000 - 21) : d.neighbourhood.onGrid p ≠ none := by
  have hbits := bits_le hpos
  have hgrade := grade_lt hfinite
  have hfine := last_grid_fine hgrade
  have hdigits := digitsOf_pos hpos
  refine onGrid_of_fine ?_ ?_ (num_pos d) (den_pos d) ?_
  · show 4 * digitsOf d.magnitude - _ < 4 * digitsOf d.magnitude
    split <;> omega
  · show 4 * digitsOf d.magnitude < 4 * digitsOf d.magnitude + 2
    omega
  · rw [num_eq, den_eq]
    refine Nat.le_trans (Nat.mul_le_mul_left _ (tenTo_le ?_))
      (Nat.le_trans hfine (Nat.mul_le_mul_left _ (tenTo_le ?_)))
    · omega
    · omega

/-- What the search finds reads as the double. -/
theorem shortest_reads {d : Double} (hfinite : d.isFinite = true) (hpos : 0 < d.magnitude) :
    Reads d.magnitude d.shortest := by
  unfold shortest
  dsimp only
  cases hfound : (List.range 24).findSome? _ with
  | none =>
    have hlast := List.findSome?_eq_none_iff.1 hfound 23 (by simp)
    exact absurd hlast (search_succeeds hfinite hpos (by omega))
  | some r =>
    obtain ⟨i, -, hi⟩ := List.exists_of_findSome?_eq_some hfound
    exact reads_of_holds (holds_of_onGrid hi)

end Double

end TinyScript.Number
