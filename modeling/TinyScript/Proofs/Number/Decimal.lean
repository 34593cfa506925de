import Mathlib.Logic.Basic
import TinyScript.Number.Decimal
import TinyScript.Proofs.Text.Run

/-! Which texts denote a double. Digits have an optional point among, before or after
them, and a power of ten and a sign are optional too; infinity and what is no number have
names. Nothing else is read. -/

namespace TinyScript.Number

namespace Decimal

inductive IsSign : List Char → Prop where
  | none : IsSign []
  | plus : IsSign ['+']
  | minus : IsSign ['-']

def IsDigits (ds : List Char) : Prop := ∀ d ∈ ds, d.isDigit = true

/-- A power of ten, or nothing. -/
inductive IsScale : List Char → Prop where
  | none : IsScale []
  | power {e : Char} {sign ds : List Char} (he : e = 'e' ∨ e = 'E') (hsign : IsSign sign)
      (hne : ds ≠ []) (hds : IsDigits ds) : IsScale (e :: (sign ++ ds))

inductive IsNumber : List Char → Prop where
  | whole {ds scale : List Char} (hne : ds ≠ []) (hds : IsDigits ds) (hscale : IsScale scale) :
      IsNumber (ds ++ scale)
  | pointed {ds fs scale : List Char} (hne : ds ≠ [] ∨ fs ≠ []) (hds : IsDigits ds)
      (hfs : IsDigits fs) (hscale : IsScale scale) : IsNumber (ds ++ '.' :: (fs ++ scale))

/-- A name, in any case. -/
def IsName (cs : List Char) : Prop :=
  cs.map Char.toLower ∈ ["inf".toList, "infinity".toList, "nan".toList]

/-- The texts that denote a double. -/
inductive IsReal : List Char → Prop where
  | number {sign cs : List Char} (hsign : IsSign sign) (h : IsNumber cs) : IsReal (sign ++ cs)
  | name {sign cs : List Char} (hsign : IsSign sign) (h : IsName cs) : IsReal (sign ++ cs)

/-! ### Reading -/

/-- Digits end where no digit follows. -/
theorem splitDigits_append {ds rest : List Char} (hds : IsDigits ds)
    (hrest : ∀ c ∈ rest.head?, c.isDigit = false) : splitDigits (ds ++ rest) = (ds, rest) := by
  obtain ⟨htake, hdrop⟩ := Text.Run.split ⟨hds, hrest⟩
  rw [splitDigits, htake, hdrop]

theorem splitSign_append {sign cs : List Char} (hsign : IsSign sign)
    (hcs : ∀ c ∈ cs.head?, c ≠ '+' ∧ c ≠ '-') : (splitSign (sign ++ cs)).2 = cs := by
  cases hsign with
  | none =>
    cases cs with
    | nil => rfl
    | cons c cs => simp [splitSign, hcs c rfl]
  | plus => rfl
  | minus => rfl

theorem head?_digits {ds : List Char} (hds : IsDigits ds) :
    ∀ c ∈ ds.head?, c ≠ '+' ∧ c ≠ '-' := by
  intro c hc
  have hdigit := hds c (List.mem_of_mem_head? hc)
  constructor <;> rintro rfl <;> exact absurd hdigit (by decide)

theorem IsScale.head? {scale : List Char} (h : IsScale scale) :
    ∀ c ∈ scale.head?, c = 'e' ∨ c = 'E' := by
  cases h with
  | none => nofun
  | power he => rintro _ ⟨⟩; exact he

theorem IsScale.notDigit {scale : List Char} (h : IsScale scale) :
    ∀ c ∈ scale.head?, c.isDigit = false := by
  intro c hc
  rcases h.head? c hc with rfl | rfl <;> decide

theorem isSome_readExponent {scale : List Char} (h : IsScale scale) :
    (readExponent scale).isSome = true := by
  cases h with
  | none => rfl
  | @power e sign ds he hsign hne hds =>
    have hdigits : splitDigits ds = (ds, []) := by
      have h := @splitDigits_append ds [] hds nofun
      rwa [List.append_nil] at h
    rw [readExponent, if_pos he]
    simp [splitSign_append hsign (head?_digits hds), hdigits, hne]

theorem isSome_read {cs : List Char} (h : IsNumber cs) : (read cs).isSome = true := by
  cases h with
  | @whole ds scale hne hds hscale =>
    have hsome := isSome_readExponent hscale
    rw [read, splitDigits_append hds hscale.notDigit]
    dsimp only
    split
    · exact absurd (hscale.head? '.' rfl) (by decide)
    · rwa [if_neg (by simp [hne]), Option.isSome_map]
  | @pointed ds fs scale hne hds hfs hscale =>
    rw [read, splitDigits_append hds (by rintro _ ⟨⟩; rfl)]
    simp only [splitDigits_append hfs hscale.notDigit]
    rw [if_neg (by rintro ⟨rfl, rfl⟩; simp at hne), Option.isSome_map]
    exact isSome_readExponent hscale

/-! ### What is read -/

theorem isDigits_splitDigits (cs : List Char) : IsDigits (splitDigits cs).1 :=
  List.all_eq_true.1 List.all_takeWhile

theorem append_splitDigits (cs : List Char) : (splitDigits cs).1 ++ (splitDigits cs).2 = cs :=
  List.takeWhile_append_dropWhile

theorem exists_sign (cs : List Char) : ∃ sign, IsSign sign ∧ cs = sign ++ (splitSign cs).2 := by
  unfold splitSign
  split
  · exact ⟨['-'], .minus, rfl⟩
  · exact ⟨['+'], .plus, rfl⟩
  · exact ⟨[], .none, rfl⟩

theorem isScale_of_readExponent {cs : List Char} {n : Int} (h : readExponent cs = some n) :
    IsScale cs := by
  unfold readExponent at h
  split at h
  · exact .none
  · rename_i e cs
    split at h
    · rename_i he
      obtain ⟨sign, hsign, hcs⟩ := exists_sign cs
      have happend := append_splitDigits (splitSign cs).2
      dsimp only at h
      split at h
      · cases h
      · rename_i hds
        rw [not_or, Decidable.not_not] at hds
        rw [hds.2, List.append_nil] at happend
        rw [hcs, ← happend]
        exact .power he hsign hds.1 (isDigits_splitDigits _)
    · cases h

theorem isNumber_of_read {cs : List Char} {d : Decimal} (h : read cs = some d) : IsNumber cs := by
  have happend := append_splitDigits cs
  have hdigits := isDigits_splitDigits cs
  unfold read at h
  generalize splitDigits cs = split at h happend hdigits
  obtain ⟨ds, rest⟩ := split
  dsimp only at h happend hdigits
  rw [← happend]
  split at h
  · rename_i rest'
    rw [Option.ite_none_left_eq_some] at h
    obtain ⟨n, hn, -⟩ := Option.map_eq_some_iff.1 h.2
    rw [← append_splitDigits rest']
    refine .pointed ?_ hdigits (isDigits_splitDigits rest') (isScale_of_readExponent hn)
    exact not_and_or.1 h.1
  · rw [Option.ite_none_left_eq_some] at h
    obtain ⟨n, hn, -⟩ := Option.map_eq_some_iff.1 h.2
    refine .whole ?_ hdigits (isScale_of_readExponent hn)
    simpa using h.1

theorem isSome_readName (negative : Bool) {cs : List Char} :
    (readName negative cs).isSome = true ↔ IsName cs := by
  unfold readName IsName
  dsimp only
  split
  · rename_i hinf
    simpa [← or_assoc] using Or.inl hinf
  · split <;> simp_all

/-- Nothing that is read after a sign starts with another. -/
theorem IsNumber.unsigned {cs : List Char} (h : IsNumber cs) :
    cs ≠ [] ∧ ∀ c ∈ cs.head?, c ≠ '+' ∧ c ≠ '-' := by
  cases h with
  | @whole ds scale hne hds =>
    obtain ⟨d, ds, rfl⟩ := List.exists_cons_of_ne_nil hne
    exact ⟨by simp, fun c hc => head?_digits hds c hc⟩
  | @pointed ds fs scale _ hds =>
    cases ds with
    | nil => exact ⟨by simp, by rintro _ ⟨⟩; decide⟩
    | cons d ds => exact ⟨by simp, fun c hc => head?_digits hds c hc⟩

theorem IsName.unsigned {cs : List Char} (h : IsName cs) :
    cs ≠ [] ∧ ∀ c ∈ cs.head?, c ≠ '+' ∧ c ≠ '-' := by
  cases cs with
  | nil => simp [IsName] at h
  | cons c cs =>
    refine ⟨by simp, ?_⟩
    rintro _ ⟨⟩
    have hlower : Char.toLower '+' = '+' ∧ Char.toLower '-' = '-' := by decide
    constructor <;> rintro rfl <;> simp [IsName, hlower] at h

/-- What has a form after its sign is read, as a number or as a name. -/
theorem read_of_form {sign cs : List Char} (hsign : IsSign sign)
    (hunsigned : cs ≠ [] ∧ ∀ c ∈ cs.head?, c ≠ '+' ∧ c ≠ '-') (h : IsNumber cs ∨ IsName cs) :
    ∃ d, Double.read (sign ++ cs) = .ok d := by
  have hne : sign ++ cs ≠ [] := by simp [hunsigned.1]
  rw [Double.read, if_neg hne]
  dsimp only
  rw [splitSign_append hsign hunsigned.2]
  cases hnumber : read cs with
  | some n => exact ⟨_, rfl⟩
  | none =>
    have hname : IsName cs := by
      refine h.resolve_left fun hcs => ?_
      have hsome := isSome_read hcs
      rw [hnumber] at hsome
      cases hsome
    have hsome := (isSome_readName (splitSign (sign ++ cs)).1).2 hname
    obtain ⟨d, hd⟩ := Option.isSome_iff_exists.1 hsome
    exact ⟨d, by rw [hd]⟩

end Decimal

/-- **Exactly the texts of the grammar denote a double.** -/
theorem Double.read_eq_ok_iff (cs : List Char) :
    (∃ d, Double.read cs = .ok d) ↔ Decimal.IsReal cs := by
  constructor
  · rintro ⟨d, h⟩
    obtain ⟨sign, hsign, hcs⟩ := Decimal.exists_sign cs
    unfold Double.read at h
    split at h
    · cases h
    · dsimp only at h
      rw [hcs]
      cases hnumber : Decimal.read (Decimal.splitSign cs).2 with
      | some n => exact .number hsign (Decimal.isNumber_of_read hnumber)
      | none =>
        rw [hnumber] at h
        cases hname : Decimal.readName (Decimal.splitSign cs).1 (Decimal.splitSign cs).2 with
        | some d' => exact .name hsign ((Decimal.isSome_readName _).1 (by rw [hname]; rfl))
        | none =>
          rw [hname] at h
          cases h
  · rintro (⟨hsign, h⟩ | ⟨hsign, h⟩)
    · exact Decimal.read_of_form hsign h.unsigned (.inl h)
    · exact Decimal.read_of_form hsign h.unsigned (.inr h)

end TinyScript.Number
