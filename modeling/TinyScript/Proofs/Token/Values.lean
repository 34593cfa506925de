import Mathlib.Data.Nat.Digits.Defs
import Mathlib.Tactic.IntervalCases
import TinyScript.Proofs.Number.Decimal
import TinyScript.Proofs.Token.Numerals
import TinyScript.Proofs.Token.Tiling

/-! What numerals stand for. An integer lexeme denotes the number that its digits spell
in the radix its prefix names, each digit by its place, and is read as that number if 64
bits hold it. The lexer takes the radix from the characters it meets, the reader from a
second look at the text; the two agree because every numeral of the lexer is a lexeme of
the grammar, and the grammar names the radix. -/

namespace TinyScript

namespace Number.Radix

/-! ### Digits by their places -/

/-- The digits of radix sixteen, small and capital. -/
def sixteen : List Char := "0123456789abcdefABCDEF".toList

/-- The place of a digit among the digits of radix sixteen. -/
def digitValue (c : Char) : Nat := "0123456789abcdef".toList.idxOf c.toLower

/-- The number that digits denote in a radix. -/
def positional (radix : Nat) (ds : List Char) : Nat :=
  Nat.ofDigits radix (ds.reverse.map digitValue)

theorem positional_concat (radix : Nat) (ds : List Char) (d : Char) :
    positional radix (ds ++ [d]) = positional radix ds * radix + digitValue d := by
  simp [positional, Nat.ofDigits_cons, Nat.add_comm, Nat.mul_comm]

theorem digit?_of_mem {radix : Nat} {c : Char} (hc : c ∈ sixteen)
    (hlt : digitValue c < radix) : digit? radix c = some (digitValue c) := by
  have hvalue : sixteen.all fun c =>
      (if '0' ≤ c ∧ c ≤ '9' then some (c.toNat - '0'.toNat)
        else if 'a' ≤ c ∧ c ≤ 'z' then some (c.toNat - 'a'.toNat + 10)
        else if 'A' ≤ c ∧ c ≤ 'Z' then some (c.toNat - 'A'.toNat + 10)
        else none) = some (digitValue c) := by decide
  have h := of_decide_eq_true (List.all_eq_true.1 hvalue c hc)
  unfold digit?
  dsimp only
  split_ifs at h with hdigit hsmall hcapital
  · rw [if_pos hdigit, Option.some.inj h, if_pos hlt]
  · rw [if_neg hdigit, if_pos hsmall, Option.some.inj h, if_pos hlt]
  · rw [if_neg hdigit, if_neg hsmall, if_pos hcapital, Option.some.inj h, if_pos hlt]

/-- Digits are read as the number they denote, unless that is too large. -/
theorem extend_positional {radix : Nat} {ds : List Char} (hradix : 0 < radix)
    (hds : ∀ d ∈ ds, digit? radix d = some (digitValue d)) :
    extend radix false 0 ds =
      if (positional radix ds : Int) ≤ greatest then .ok (positional radix ds)
      else .error .tooLarge := by
  have hleast : least ≤ 0 := by decide
  induction ds using List.reverseRecOn with
  | nil => rfl
  | append_singleton ds d ih =>
    have hd := hds d (by simp)
    have hmono : positional radix ds ≤ positional radix (ds ++ [d]) := by
      rw [positional_concat]
      exact (Nat.le_mul_of_pos_right _ hradix).trans (Nat.le_add_right _ _)
    have hnext : (positional radix (ds ++ [d]) : Int) =
        positional radix ds * radix + digitValue d := by
      rw [positional_concat]
      push_cast
      rfl
    rw [Token.extend_append, ih fun d' hd' => hds d' (by simp [hd'])]
    by_cases hle : (positional radix ds : Int) ≤ greatest
    · rw [if_pos hle]
      simp only [Except.bind, extend, hd, Bool.false_eq_true, if_false]
      rw [← hnext, if_neg (by omega)]
      simp only [← Int.not_le, ite_not]
    · rw [if_neg hle, if_neg (by omega)]
      rfl

end Number.Radix

namespace Token

open Number

/-! ### Integer lexemes -/

/-- The number an integer lexeme denotes: its digits after `0x` in radix sixteen, after `0b`
in radix two, after the zero of a longer lexeme in radix eight, and else in radix ten. -/
inductive Denotes : List Char → Nat → Prop where
  | hexadecimal {x : Char} {ds : List Char} (hx : x = 'x' ∨ x = 'X') (hne : ds ≠ [])
      (hds : ∀ d ∈ ds, isHexadecimal d = true) : Denotes ('0' :: x :: ds) (Radix.positional 16 ds)
  | binary {x : Char} {ds : List Char} (hx : x = 'b' ∨ x = 'B') (hne : ds ≠ [])
      (hds : ∀ d ∈ ds, isBinary d = true) : Denotes ('0' :: x :: ds) (Radix.positional 2 ds)
  | octal {ds : List Char} (hne : ds ≠ []) (hds : ∀ d ∈ ds, isOctal d = true) :
      Denotes ('0' :: ds) (Radix.positional 8 ds)
  | decimal {ds : List Char} (hds : Digits ds) (hlead : ds.head? = some '0' → ds = ['0']) :
      Denotes ds (Radix.positional 10 ds)

theorem IsInteger.denotes {cs : List Char} (h : IsInteger cs) : ∃ n, Denotes cs n := by
  cases h with
  | zero => exact ⟨_, .decimal ⟨nofun, by simp [isDecimal]⟩ fun _ => rfl⟩
  | decimal hdigits hlead => exact ⟨_, .decimal hdigits fun h => absurd h hlead⟩
  | hexadecimal hx hne hds => exact ⟨_, .hexadecimal hx hne hds⟩
  | binary hx hne hds => exact ⟨_, .binary hx hne hds⟩
  | octal hne hds => exact ⟨_, .octal hne hds⟩

theorem mem_of_isHexadecimal {c : Char} (h : isHexadecimal c = true) :
    c ∈ Radix.sixteen := by
  rw [isHexadecimal_iff, isDecimal_iff] at h
  rw [← Char.ofNat_toNat c]
  generalize c.toNat = n at h
  rcases h with ⟨hlo, hhi⟩ | ⟨hlo, hhi⟩ | ⟨hlo, hhi⟩ <;> interval_cases n <;> decide

/-- A class of digits of one radix. -/
theorem digit?_of_class {radix : Nat} {p : Char → Bool}
    (hclass : ∀ c, p c = true → isHexadecimal c = true)
    (hlt : Radix.sixteen.all fun c => p c → Radix.digitValue c < radix) {c : Char}
    (hc : p c = true) : Radix.digit? radix c = some (Radix.digitValue c) := by
  have hmem := mem_of_isHexadecimal (hclass c hc)
  exact Radix.digit?_of_mem hmem (of_decide_eq_true (List.all_eq_true.1 hlt c hmem) hc)

theorem digit?_hexadecimal {c : Char} (h : isHexadecimal c = true) :
    Radix.digit? 16 c = some (Radix.digitValue c) :=
  digit?_of_class (fun _ h => h) (by decide) h

theorem digit?_decimal {c : Char} (h : isDecimal c = true) :
    Radix.digit? 10 c = some (Radix.digitValue c) :=
  digit?_of_class isHexadecimal_of_isDecimal (by decide) h

theorem digit?_octal {c : Char} (h : isOctal c = true) :
    Radix.digit? 8 c = some (Radix.digitValue c) :=
  digit?_of_class (fun c h => isHexadecimal_of_isDecimal c (isDecimal_of_isOctal c h))
    (by decide) h

theorem digit?_binary {c : Char} (h : isBinary c = true) :
    Radix.digit? 2 c = some (Radix.digitValue c) :=
  digit?_of_class (fun c h => isHexadecimal_of_isDecimal c (isDecimal_of_isBinary c h))
    (by decide) h

/-- Digits alone, with no sign before them. -/
theorem read_positional {radix : Nat} {ds : List Char} (hradix : 0 < radix) (hne : ds ≠ [])
    (hds : ∀ d ∈ ds, Radix.digit? radix d = some (Radix.digitValue d)) :
    Radix.read radix ds =
      if (Radix.positional radix ds : Int) ≤ Radix.greatest then .ok (Radix.positional radix ds)
      else .error .tooLarge := by
  rw [← Radix.extend_positional hradix hds]
  obtain ⟨c, cs, rfl⟩ := List.exists_cons_of_ne_nil hne
  have hc := hds c List.mem_cons_self
  have hsign : c ≠ '+' ∧ c ≠ '-' := by
    constructor <;> rintro rfl <;> simp [Radix.digit?] at hc
  simp [Radix.read, hsign]

/-- The second look at a lexeme finds the radix and the digits that its form gives. -/
theorem Denotes.value {cs : List Char} {n : Nat} (h : Denotes cs n) :
    integerValue (String.ofList cs) =
      if (n : Int) ≤ Radix.greatest then .ok n else .error .tooLarge := by
  rw [integerValue, String.toList_ofList]
  cases h with
  | hexadecimal hx hne hds =>
    rw [← read_positional (by decide) hne fun d hd => digit?_hexadecimal (hds d hd)]
    rcases hx with rfl | rfl <;> rfl
  | binary hx hne hds =>
    rw [← read_positional (by decide) hne fun d hd => digit?_binary (hds d hd)]
    rcases hx with rfl | rfl <;> rfl
  | @octal ds hne hds =>
    rw [← read_positional (by decide) hne fun d hd => digit?_octal (hds d hd)]
    obtain ⟨d, ds, rfl⟩ := List.exists_cons_of_ne_nil hne
    have hd := hds d List.mem_cons_self
    have hletter : d ≠ 'x' ∧ d ≠ 'X' ∧ d ≠ 'b' ∧ d ≠ 'B' := by
      refine ⟨?_, ?_, ?_, ?_⟩ <;> rintro rfl <;> exact absurd hd (by decide)
    simp [radixOf, hletter]
  | decimal hds hlead =>
    rw [← read_positional (by decide) hds.1 fun d hd => digit?_decimal (hds.2 d hd)]
    obtain ⟨d, ds, rfl⟩ := List.exists_cons_of_ne_nil hds.1
    by_cases hzero : d = '0'
    · rw [hlead (by rw [hzero]; rfl)]
      rfl
    · simp [radixOf, hzero]

/-! ### Float lexemes -/

theorem Digits.isDigits {cs : List Char} (h : Digits cs) : Decimal.IsDigits cs := by
  intro c hc
  have hdecimal := h.2 c hc
  simpa [isDecimal, Char.isDigit, Char.le_def] using hdecimal

/-- A float lexeme is a number with a point and digits on both sides of it. -/
theorem IsFloat.isReal {cs : List Char} (h : IsFloat cs) : Decimal.IsReal cs := by
  obtain ⟨whole, fraction, scale, rfl, hwhole, hfraction, hexponent⟩ := h
  have hscale : Decimal.IsScale scale := by
    cases hexponent with
    | none => exact .none
    | some he hsign hdigits =>
      refine .power he ?_ hdigits.1 hdigits.isDigits
      rcases hsign with rfl | rfl | rfl
      · exact .none
      · exact .plus
      · exact .minus
  have hnumber := Decimal.IsNumber.pointed (.inl hwhole.1) hwhole.isDigits hfraction.isDigits hscale
  exact @Decimal.IsReal.number [] _ .none hnumber

/-! ### Numerals of the lexer -/

/-- A lexeme that is a numeral has the form of one. -/
structure Lexeme.Formed (l : Lexeme) : Prop where
  integer : l.kind = .integerLiteral → IsInteger l.taken
  float : l.kind = .floatLiteral → IsFloat l.taken

theorem Lexeme.formed_plain {kind : Kind} (hinteger : kind ≠ .integerLiteral)
    (hfloat : kind ≠ .floatLiteral) (taken rest : List Char) :
    (Lexeme.plain kind taken rest).Formed :=
  ⟨fun h => absurd h hinteger, fun h => absurd h hfloat⟩

theorem Lexeme.formed_wrong (message : String) (taken rest : List Char) :
    (Lexeme.wrong message taken rest).Formed :=
  ⟨nofun, nofun⟩

theorem Lexeme.formed_integer {taken : List Char} (h : IsInteger taken) (rest : List Char) :
    (Lexeme.plain .integerLiteral taken rest).Formed :=
  ⟨fun _ => h, nofun⟩

theorem Lexeme.formed_float {taken : List Char} (h : IsFloat taken) (rest : List Char) :
    (Lexeme.plain .floatLiteral taken rest).Formed :=
  ⟨nofun, fun _ => h⟩

theorem oneOrTwo_formed (first second : Char) {single double : Kind}
    (hsingle : single ≠ .integerLiteral ∧ single ≠ .floatLiteral)
    (hdouble : double ≠ .integerLiteral ∧ double ≠ .floatLiteral) (cs : List Char) :
    (oneOrTwo first second single double cs).Formed := by
  unfold oneOrTwo
  split
  · exact Lexeme.formed_plain hsingle.1 hsingle.2 _ _
  · split
    · exact Lexeme.formed_plain hdouble.1 hdouble.2 _ _
    · exact Lexeme.formed_plain hsingle.1 hsingle.2 _ _

theorem doubled_formed (first : Char) {kind : Kind}
    (hkind : kind ≠ .integerLiteral ∧ kind ≠ .floatLiteral) (cs : List Char) :
    (doubled first kind cs).Formed := by
  unfold doubled
  split
  · exact Lexeme.formed_wrong _ _ _
  · split
    · exact Lexeme.formed_plain hkind.1 hkind.2 _ _
    · exact Lexeme.formed_wrong _ _ _

theorem word_formed (first : Char) (cs : List Char) : (word first cs).Formed := by
  have hkeywords : Kind.integerLiteral ∉ keywords.map Prod.snd ∧
      Kind.floatLiteral ∉ keywords.map Prod.snd := by decide
  unfold word
  dsimp only
  rcases wordKind_eq (String.ofList (first :: cs.takeWhile isWordChar)) with h | h
  · rw [h]
    exact Lexeme.formed_plain (by nofun) (by nofun) _ _
  · exact Lexeme.formed_plain (fun heq => hkeywords.1 (heq ▸ h))
      (fun heq => hkeywords.2 (heq ▸ h)) _ _

theorem stringLiteral_formed (cs : List Char) : (stringLiteral cs).Formed := by
  unfold stringLiteral
  split
  · exact ⟨nofun, nofun⟩
  · exact Lexeme.formed_wrong _ _ _

theorem all_of_find?_eq_none {p : Char → Bool} {cs : List Char}
    (h : cs.find? (!p ·) = none) : ∀ c ∈ cs, p c = true := by
  simpa using h

theorem radixInteger_formed {radix : String} {isDigit : Char → Bool} {lead : List Char}
    (h : ∀ ds, ds ≠ [] → (∀ d ∈ ds, isDigit d = true) → IsInteger (lead ++ ds))
    (cs : List Char) : (radixInteger radix isDigit lead cs).Formed := by
  unfold radixInteger
  dsimp only
  split
  · exact Lexeme.formed_wrong _ _ _
  · rename_i hne
    split
    · exact Lexeme.formed_wrong _ _ _
    · rename_i hall
      exact Lexeme.formed_integer (h _ hne (all_of_find?_eq_none hall)) _

theorem takeWhile_digits (cs : List Char) : ∀ c ∈ cs.takeWhile isDecimal, isDecimal c = true :=
  List.all_eq_true.1 List.all_takeWhile

theorem exponentSign_sign (cs : List Char) : (exponentSign cs).1 = [] ∨
    (exponentSign cs).1 = ['+'] ∨ (exponentSign cs).1 = ['-'] := by
  unfold exponentSign
  split <;> simp

theorem exponent_formed {whole fraction : List Char} (hwhole : Digits whole)
    (hfraction : Digits fraction) (cs : List Char) :
    (exponent (whole ++ '.' :: fraction) cs).Formed := by
  have hplain : IsFloat (whole ++ '.' :: fraction) :=
    ⟨whole, fraction, [], by simp, hwhole, hfraction, .none⟩
  unfold exponent
  split
  · exact Lexeme.formed_float hplain _
  · rename_i e cs
    split
    · rename_i he
      dsimp only
      split
      · exact Lexeme.formed_wrong _ _ _
      · rename_i hne
        refine Lexeme.formed_float ⟨whole, fraction, _, ?_, hwhole, hfraction,
          .some he (exponentSign_sign cs) ⟨hne, takeWhile_digits _⟩⟩ _
        simp
    · exact Lexeme.formed_float hplain _

theorem integer_formed {first : Char} {cs rest : List Char}
    (hdigits : ∀ c ∈ first :: cs, isDecimal c = true) :
    (decimal.integer first (first :: cs) rest).Formed := by
  unfold decimal.integer
  split
  · rename_i hoctal
    obtain ⟨rfl, hne⟩ := hoctal
    split
    · exact Lexeme.formed_wrong _ _ _
    · rename_i hall
      have hds := all_of_find?_eq_none hall
      refine Lexeme.formed_integer (.octal ?_ fun d hd => hds d (List.mem_cons_of_mem _ hd)) _
      simpa using hne
  · rename_i hdecimal
    by_cases hzero : first = '0'
    · have hcs : cs = [] := by simpa [hzero] using hdecimal
      rw [hzero, hcs]
      exact Lexeme.formed_integer .zero _
    · exact Lexeme.formed_integer (.decimal ⟨by nofun, hdigits⟩ (by simpa using hzero)) _

theorem decimal_formed {first : Char} (hfirst : isDecimal first = true) (cs : List Char) :
    (decimal first cs).Formed := by
  have hdigits : ∀ c ∈ first :: cs.takeWhile isDecimal, isDecimal c = true :=
    List.forall_mem_cons.2 ⟨hfirst, takeWhile_digits cs⟩
  unfold decimal
  dsimp only
  split
  · split
    · rename_i d ds _ hd
      have hfraction : Digits ((d :: ds).takeWhile isDecimal) :=
        ⟨by simp [hd], takeWhile_digits _⟩
      exact exponent_formed ⟨by nofun, hdigits⟩ hfraction _
    · exact integer_formed hdigits
  · exact integer_formed hdigits

theorem number_formed {first : Char} (hfirst : isDecimal first = true) (cs : List Char) :
    (number first cs).Formed := by
  unfold number
  split
  · split
    · exact radixInteger_formed (fun ds hne hds => .hexadecimal (.inl rfl) hne hds) _
    · exact radixInteger_formed (fun ds hne hds => .hexadecimal (.inr rfl) hne hds) _
    · exact radixInteger_formed (fun ds hne hds => .binary (.inl rfl) hne hds) _
    · exact radixInteger_formed (fun ds hne hds => .binary (.inr rfl) hne hds) _
    · exact decimal_formed hfirst cs
  · exact decimal_formed hfirst cs

theorem lexeme_formed (c : Char) (cs : List Char) : (lexeme c cs).Formed := by
  unfold lexeme
  split
  all_goals first
    | exact Lexeme.formed_plain (by nofun) (by nofun) _ _
    | exact oneOrTwo_formed _ _ (by decide) (by decide) cs
    | exact doubled_formed _ (by decide) cs
    | exact stringLiteral_formed cs
    | skip
  · split
    · exact Lexeme.formed_plain (by nofun) (by nofun) _ _
    · exact oneOrTwo_formed _ _ (by decide) (by decide) cs
  · split
    · exact word_formed c cs
    · split
      · rename_i hc
        exact number_formed hc cs
      · exact Lexeme.formed_wrong _ _ _

/-- The form of a numeral among the tokens is that of its lexeme. -/
structure Formed (t : Token) : Prop where
  integer : t.kind = .integerLiteral → IsInteger t.text.toList
  float : t.kind = .floatLiteral → IsFloat t.text.toList

theorem next_formed (pos : Nat) (cs : List Char) : Formed (next pos cs).1 := by
  unfold next
  split
  · exact ⟨nofun, nofun⟩
  · exact ⟨nofun, nofun⟩
  · rename_i c rest _
    split
    · exact ⟨nofun, nofun⟩
    · have hcut := lexeme_cut c rest
      have hformed := lexeme_formed c rest
      constructor
      · intro hkind
        dsimp only at hkind ⊢
        rw [hcut.text (by simp [hkind]) (by simp [hkind]), String.toList_ofList]
        exact hformed.integer hkind
      · intro hkind
        dsimp only at hkind ⊢
        rw [hcut.text (by simp [hkind]) (by simp [hkind]), String.toList_ofList]
        exact hformed.float hkind

/-- What holds of every next token holds of all the tokens. -/
theorem forall_mem_tokensFrom {P : Token → Prop} (h : ∀ pos cs, P (next pos cs).1) (pos : Nat)
    (cs : List Char) : ∀ t ∈ tokensFrom pos cs, P t := by
  fun_induction tokensFrom pos cs with
  | case1 pos cs t _ => simpa using h pos cs
  | case2 pos cs t _ ih => exact List.forall_mem_cons.2 ⟨h pos cs, ih⟩

theorem tokens_formed (source : String) : ∀ t ∈ tokens source, Formed t :=
  forall_mem_tokensFrom next_formed 0 source.toList

end Token

end TinyScript
