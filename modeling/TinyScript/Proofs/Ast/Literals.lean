import TinyScript.Proofs.Ast.Errors
import TinyScript.Proofs.Token.Values

/-! Literals in programs. Every numeral of a source has the value it denotes, but for
integers that 64 bits do not hold, and those are all that a parse can say of a literal. -/

namespace TinyScript.Ast

open Number
open Token (Denotes integerValue floatValue)

theorem integer_read {source : String} {t : Token} (ht : t ∈ Token.tokens source)
    (hkind : t.kind = .integerLiteral) : ∃ n, Denotes t.text.toList n ∧
      integerValue t.text =
        if (n : Int) ≤ Radix.greatest then .ok n else .error .tooLarge := by
  obtain ⟨n, hn⟩ := ((Token.tokens_formed source t ht).integer hkind).denotes
  have hvalue := hn.value
  rw [String.ofList_toList] at hvalue
  exact ⟨n, hn, hvalue⟩

theorem float_read {source : String} {t : Token} (ht : t ∈ Token.tokens source)
    (hkind : t.kind = .floatLiteral) : Decimal.IsReal t.text.toList ∧
      ∃ d, floatValue t.text = .ok d := by
  have hreal := ((Token.tokens_formed source t ht).float hkind).isReal
  exact ⟨hreal, (Number.Double.read_eq_ok_iff _).2 hreal⟩

/-- An error about a literal is about a token of the source that has no value. -/
theorem parse_misreads {source : String} {e : ParseError} (h : Program.parse source = .error e) :
    ∃ t ∈ Token.tokens source, e.span = t.span ∧ e.value.Misreads t := by
  obtain ⟨before, t, after, hfault⟩ := exists_fault h
  exact ⟨t, by simp [hfault.split], hfault.blames.span, hfault.blames.literal⟩

/-- **Lexer and reader agree on numerals.** An integer literal is read as the number that
it denotes, or is too large, and a float literal is read as a double. So no float is
refused, and an integer only for its size. -/
theorem numerals_read (source : String) :
    (∀ t ∈ Token.tokens source,
      (t.kind = .integerLiteral → ∃ n, Denotes t.text.toList n ∧
        integerValue t.text =
          if (n : Int) ≤ Radix.greatest then .ok n else .error .tooLarge) ∧
      (t.kind = .floatLiteral → Decimal.IsReal t.text.toList ∧
        ∃ d, floatValue t.text = .ok d)) ∧
    ∀ e, Program.parse source = .error e →
      e.value ≠ .invalidFloat ∧
      (e.value = .integerOutOfRange → ∃ t ∈ Token.tokens source, t.kind = .integerLiteral ∧
        e.span = t.span ∧ ∃ n, Denotes t.text.toList n ∧ Radix.greatest < n) := by
  refine ⟨fun t ht => ⟨integer_read ht, float_read ht⟩, fun e h => ?_⟩
  obtain ⟨t, ht, hspan, hmisreads⟩ := parse_misreads h
  constructor
  · intro hvalue
    rw [hvalue] at hmisreads
    obtain ⟨hkind, err, herr⟩ := hmisreads
    obtain ⟨-, d, hd⟩ := float_read ht hkind
    rw [hd] at herr
    cases herr
  · intro hvalue
    rw [hvalue] at hmisreads
    obtain ⟨hkind, err, herr⟩ := hmisreads
    obtain ⟨n, hn, hread⟩ := integer_read ht hkind
    refine ⟨t, ht, hkind, hspan, n, hn, ?_⟩
    by_contra hle
    rw [if_pos (Int.not_lt.1 hle), herr] at hread
    cases hread

/-- Three numerals, the last of which is one too large. -/
def sum : String := "let x = 0b101 + 1.5e3 + 0x8000000000000000;"

theorem sum_overflows :
    (∃ n, Denotes "0b101".toList n ∧ integerValue "0b101" =
      if (n : Int) ≤ Radix.greatest then .ok n else .error .tooLarge) ∧
    Decimal.IsReal "1.5e3".toList ∧
    ∃ e, Program.parse sum = .error e ∧ e.value = .integerOutOfRange ∧
      ∃ t ∈ Token.tokens sum, e.span = t.span ∧ ∃ n, Denotes t.text.toList n ∧
        Radix.greatest < n := by
  have hinteger : ⟨.integerLiteral, "0b101", ⟨8, 13⟩⟩ ∈ Token.tokens sum := by decide +kernel
  have hfloat : ⟨.floatLiteral, "1.5e3", ⟨16, 21⟩⟩ ∈ Token.tokens sum := by decide +kernel
  have herror : (Program.parse sum).map (fun _ => ()) =
      .error ⟨.integerOutOfRange, ⟨24, 42⟩⟩ := by decide +kernel
  obtain ⟨hliterals, herrors⟩ := numerals_read sum
  refine ⟨(hliterals _ hinteger).1 rfl, ((hliterals _ hfloat).2 rfl).1, ?_⟩
  cases hparse : Program.parse sum with
  | ok p =>
    rw [hparse] at herror
    cases herror
  | error e =>
    rw [hparse] at herror
    cases herror
    obtain ⟨t, ht, -, hspan, hn⟩ := (herrors _ hparse).2 rfl
    exact ⟨_, rfl, rfl, t, ht, hspan, hn⟩

end TinyScript.Ast
