import TinyScript.Proofs.Token.Layout

/-! NUL among the characters of a lexeme. To the lexer it is a character that starts no
token, like any other control character. Another one of the same size may stand in its
place, and the lexeme has the same kind and takes as much. -/

namespace TinyScript.Token

open Text.Utf8 (size)

/-- A control character of the same size in place of NUL. -/
def masked (c : Char) : Char := if c = '\x00' then '\x01' else c

theorem masked_of_ne {c : Char} (h : c ≠ '\x00') : masked c = c := if_neg h

/-- No character but the two that are exchanged is taken for another. -/
theorem masked_eq_iff {c d : Char} (hd : d ≠ '\x00' ∧ d ≠ '\x01') : masked c = d ↔ c = d := by
  unfold masked
  split
  · rename_i hc
    subst hc
    exact ⟨fun h => absurd h.symm hd.2, fun h => absurd h.symm hd.1⟩
  · rfl

theorem masked_ne (c : Char) : masked c ≠ '\x00' := by
  unfold masked
  split
  · decide
  · assumption

theorem map_masked {cs : List Char} (h : ∀ c ∈ cs, c ≠ '\x00') : cs.map masked = cs :=
  (List.map_congr_left fun c hc => masked_of_ne (h c hc)).trans (List.map_id cs)

theorem utf8Size_masked (c : Char) : (masked c).utf8Size = c.utf8Size := by
  unfold masked
  split
  · rename_i hc
    subst hc
    rfl
  · rfl

theorem size_masked (cs : List Char) : size (cs.map masked) = size cs := by
  induction cs with
  | nil => rfl
  | cons c cs ih =>
    rw [List.map_cons, Text.Utf8.size_cons, utf8Size_masked, ih, Text.Utf8.size_cons]

/-! ### Lexemes -/

section Classes

-- A class of characters that has neither of the two.
variable {p : Char → Bool} (hp : p '\x00' = false ∧ p '\x01' = false)

include hp

theorem class_masked (c : Char) : p (masked c) = p c := by
  unfold masked
  split
  · rename_i hc
    rw [hc, hp.1, hp.2]
  · rfl

theorem map_takeWhile (cs : List Char) : (cs.takeWhile p).map masked = cs.takeWhile p := by
  refine map_masked fun c hc => ?_
  rintro rfl
  have hclass := List.all_eq_true.1 List.all_takeWhile _ hc
  rw [hp.1] at hclass
  cases hclass

theorem takeWhile_masked (cs : List Char) : (cs.map masked).takeWhile p = cs.takeWhile p := by
  have hcomp : p ∘ masked = p := funext (class_masked hp)
  rw [List.takeWhile_map, hcomp]
  exact map_takeWhile hp cs

theorem dropWhile_masked (cs : List Char) :
    (cs.map masked).dropWhile p = (cs.dropWhile p).map masked := by
  have hcomp : p ∘ masked = p := funext (class_masked hp)
  rw [List.dropWhile_map, hcomp]

end Classes

/-- The same lexeme but for the characters that are exchanged. -/
structure Lexeme.Masks (l l' : Lexeme) : Prop where
  kind : l'.kind = l.kind
  taken : l'.taken = l.taken.map masked
  rest : l'.rest = l.rest.map masked

theorem Lexeme.masks_plain {kind : Kind} {taken taken' rest rest' : List Char}
    (htaken : taken' = taken.map masked) (hrest : rest' = rest.map masked) :
    (Lexeme.plain kind taken rest).Masks (.plain kind taken' rest') :=
  ⟨rfl, htaken, hrest⟩

theorem Lexeme.masks_wrong {message message' : String} {taken taken' rest rest' : List Char}
    (htaken : taken' = taken.map masked) (hrest : rest' = rest.map masked) :
    (Lexeme.wrong message taken rest).Masks (.wrong message' taken' rest') :=
  ⟨rfl, htaken, hrest⟩

theorem oneOrTwo_masked {first second : Char} (hfirst : masked first = first)
    (hsecond : second ≠ '\x00' ∧ second ≠ '\x01') (single double : Kind) (cs : List Char) :
    (oneOrTwo first second single double cs).Masks
      (oneOrTwo first second single double (cs.map masked)) := by
  cases cs with
  | nil => exact Lexeme.masks_plain (by simp [hfirst]) rfl
  | cons c cs =>
    simp only [List.map_cons, oneOrTwo, masked_eq_iff hsecond]
    split
    · rename_i hc
      have hmasked : masked c = c := (masked_eq_iff hsecond).2 hc |>.trans hc.symm
      exact Lexeme.masks_plain (by simp [hfirst, hmasked]) rfl
    · exact Lexeme.masks_plain (by simp [hfirst]) rfl

theorem doubled_masked {first : Char} (hfirst : first ≠ '\x00' ∧ first ≠ '\x01') (kind : Kind)
    (cs : List Char) : (doubled first kind cs).Masks (doubled first kind (cs.map masked)) := by
  have hmasked : masked first = first := masked_of_ne hfirst.1
  cases cs with
  | nil => exact Lexeme.masks_wrong (by simp [hmasked]) rfl
  | cons c cs =>
    simp only [List.map_cons, doubled, masked_eq_iff hfirst]
    split
    · rename_i hc
      exact Lexeme.masks_plain (by simp [hc, hmasked]) rfl
    · exact Lexeme.masks_wrong (by simp [hmasked]) rfl

theorem word_masked {first : Char} (hfirst : masked first = first) (cs : List Char) :
    (word first cs).Masks (word first (cs.map masked)) := by
  have hclass : isWordChar '\x00' = false ∧ isWordChar '\x01' = false := by decide
  unfold word
  rw [takeWhile_masked hclass, dropWhile_masked hclass]
  exact Lexeme.masks_plain (by simp [hfirst, map_takeWhile hclass]) rfl

theorem radixInteger_masked {lead : List Char} (hlead : lead.map masked = lead) (radix : String)
    (isDigit : Char → Bool) (cs : List Char) :
    (radixInteger radix isDigit lead cs).Masks
      (radixInteger radix isDigit lead (cs.map masked)) := by
  have hclass : (isLetter '\x00' || isDecimal '\x00') = false ∧
      (isLetter '\x01' || isDecimal '\x01') = false := by decide
  have hdigits := map_takeWhile (p := fun c => isLetter c || isDecimal c) hclass cs
  have hrest := dropWhile_masked (p := fun c => isLetter c || isDecimal c) hclass cs
  unfold radixInteger
  rw [takeWhile_masked (p := fun c => isLetter c || isDecimal c) hclass, hrest]
  dsimp only
  split
  · exact Lexeme.masks_wrong (by simp [hlead, hdigits]) rfl
  · split
    · exact Lexeme.masks_wrong (by simp [hlead, hdigits]) rfl
    · exact Lexeme.masks_plain (by simp [hlead, hdigits]) rfl

theorem exponentSign_masked (cs : List Char) :
    exponentSign (cs.map masked) = ((exponentSign cs).1, (exponentSign cs).2.map masked) := by
  cases cs with
  | nil => rfl
  | cons c cs =>
    have hplus := masked_eq_iff (c := c) (d := '+') (by decide)
    have hminus := masked_eq_iff (c := c) (d := '-') (by decide)
    by_cases hc : c = '+'
    · subst hc; rfl
    · by_cases hc' : c = '-'
      · subst hc'; rfl
      · simp [exponentSign, hplus, hminus, hc, hc']

theorem exponentSign_plain (cs : List Char) :
    (exponentSign cs).1.map masked = (exponentSign cs).1 := by
  unfold exponentSign
  split <;> rfl

theorem isDecimal_apart : isDecimal '\x00' = false ∧ isDecimal '\x01' = false := by decide

theorem exponent_masked {taken : List Char} (htaken : taken.map masked = taken) (cs : List Char) :
    (exponent taken cs).Masks (exponent taken (cs.map masked)) := by
  cases cs with
  | nil => exact Lexeme.masks_plain htaken.symm rfl
  | cons e cs =>
    have hsmall := masked_eq_iff (c := e) (d := 'e') (by decide)
    have hcapital := masked_eq_iff (c := e) (d := 'E') (by decide)
    simp only [List.map_cons, exponent, hsmall, hcapital]
    split
    · rename_i he
      have hmasked : masked e = e := by rcases he with rfl | rfl <;> rfl
      rw [exponentSign_masked, takeWhile_masked isDecimal_apart, dropWhile_masked isDecimal_apart]
      split
      · exact Lexeme.masks_wrong
          (by simp [htaken, hmasked, exponentSign_plain, map_takeWhile isDecimal_apart]) rfl
      · exact Lexeme.masks_plain
          (by simp [htaken, hmasked, exponentSign_plain, map_takeWhile isDecimal_apart]) rfl
    · exact Lexeme.masks_plain htaken.symm rfl

theorem integer_masked {taken : List Char} (htaken : taken.map masked = taken) (first : Char)
    (rest : List Char) :
    (decimal.integer first taken rest).Masks
      (decimal.integer first taken (rest.map masked)) := by
  unfold decimal.integer
  split
  · split
    · exact Lexeme.masks_wrong htaken.symm rfl
    · exact Lexeme.masks_plain htaken.symm rfl
  · exact Lexeme.masks_plain htaken.symm rfl

theorem decimal_pointless {cs : List Char}
    (h : ∀ d ds, cs.dropWhile isDecimal ≠ '.' :: d :: ds) (first : Char) :
    decimal first cs =
      decimal.integer first (first :: cs.takeWhile isDecimal) (cs.dropWhile isDecimal) := by
  unfold decimal
  dsimp only
  split
  · exact absurd ‹_› (h _ _)
  · rfl

theorem decimal_pointed {cs ds : List Char} {d : Char}
    (h : cs.dropWhile isDecimal = '.' :: d :: ds) (first : Char) :
    decimal first cs =
      if isDecimal d then
        exponent (first :: cs.takeWhile isDecimal ++ '.' :: (d :: ds).takeWhile isDecimal)
          ((d :: ds).dropWhile isDecimal)
      else decimal.integer first (first :: cs.takeWhile isDecimal) ('.' :: d :: ds) := by
  unfold decimal
  simp only [h]

theorem decimal_masked {first : Char} (hfirst : masked first = first) (cs : List Char) :
    (decimal first cs).Masks (decimal first (cs.map masked)) := by
  have hdrop := dropWhile_masked isDecimal_apart cs
  have htaken : (first :: cs.takeWhile isDecimal).map masked = first :: cs.takeWhile isDecimal := by
    rw [List.map_cons, hfirst, map_takeWhile isDecimal_apart]
  by_cases hpoint : ∃ d ds, cs.dropWhile isDecimal = '.' :: d :: ds
  · obtain ⟨d, ds, h⟩ := hpoint
    have h' : (cs.map masked).dropWhile isDecimal = '.' :: masked d :: ds.map masked := by
      rw [hdrop, h]
      rfl
    rw [decimal_pointed h, decimal_pointed h', class_masked isDecimal_apart,
      takeWhile_masked isDecimal_apart]
    split
    · rw [← List.map_cons, takeWhile_masked isDecimal_apart, dropWhile_masked isDecimal_apart]
      refine exponent_masked ?_ _
      rw [List.map_append, htaken, List.map_cons, map_takeWhile isDecimal_apart]
      rfl
    · exact integer_masked htaken first ('.' :: d :: ds)
  · have hpoint' : ∀ d ds, (cs.map masked).dropWhile isDecimal ≠ '.' :: d :: ds := by
      intro d ds h
      rw [hdrop, List.map_eq_cons_iff] at h
      obtain ⟨c, rest, hcs, hc, hrest⟩ := h
      rw [masked_eq_iff (by decide)] at hc
      obtain ⟨d', ds', rfl, -, -⟩ := List.map_eq_cons_iff.1 hrest
      exact hpoint ⟨d', ds', by rw [hcs, hc]⟩
    rw [decimal_pointless (by simpa using hpoint), decimal_pointless hpoint', hdrop,
      takeWhile_masked isDecimal_apart]
    exact integer_masked htaken first _

theorem number_masked {first : Char} (hfirst : masked first = first) (cs : List Char) :
    (number first cs).Masks (number first (cs.map masked)) := by
  by_cases hzero : first = '0'
  · subst hzero
    cases cs with
    | nil =>
      have hfirst : masked '0' = '0' := rfl
      exact decimal_masked hfirst []
    | cons x cs =>
      by_cases hx : x ∈ ['x', 'X', 'b', 'B']
      · simp only [List.mem_cons, List.not_mem_nil, or_false] at hx
        rcases hx with rfl | rfl | rfl | rfl <;> exact radixInteger_masked rfl _ _ cs
      · have hdecimal : ∀ x' cs', x' ∉ ['x', 'X', 'b', 'B'] →
            number '0' (x' :: cs') = decimal '0' (x' :: cs') := by
          intro x' cs' hx'
          simp only [List.mem_cons, List.not_mem_nil, or_false, not_or] at hx'
          simp [number, hx']
        have hmem := class_masked (p := fun c => decide (c ∈ ['x', 'X', 'b', 'B'])) (by decide) x
        have hx' : masked x ∉ ['x', 'X', 'b', 'B'] := fun h => hx ((decide_eq_decide.1 hmem).1 h)
        rw [List.map_cons, hdecimal x cs hx, hdecimal _ _ hx']
        exact decimal_masked hfirst (x :: cs)
  · unfold number
    rw [if_neg hzero, if_neg hzero]
    exact decimal_masked hfirst cs

theorem stringBody_raw {c : Char} (hquote : c ≠ '"') (hbackslash : c ≠ '\\') (cs : List Char) :
    stringBody (c :: cs) =
      (stringBody cs).map fun (s, taken, rest) => (c :: s, c :: taken, rest) := by
  have h := Terminal.stringBody_quotes (.raw hquote hbackslash) cs
  exact h

/-- Between quotes the exchanged characters are contents like others. -/
theorem stringBody_masked (cs : List Char) :
    (stringBody (cs.map masked)).map Prod.snd =
      (stringBody cs).map fun (_, taken, rest) => (taken.map masked, rest.map masked) := by
  fun_induction stringBody cs with
  | case1 => rfl
  | case2 cs => rfl
  | case3 => rfl
  | case4 c cs ih =>
    have hescaped : stringBody (('\\' :: c :: cs).map masked) =
        (stringBody (cs.map masked)).map fun (s, taken, rest) =>
          (unescape (masked c) :: s, '\\' :: masked c :: taken, rest) := by
      show stringBody ('\\' :: masked c :: cs.map masked) = _
      rw [stringBody]
    rw [hescaped]
    cases hmasked : stringBody (cs.map masked) <;> cases hbody : stringBody cs <;>
      simp_all [masked]
  | case5 c cs hquote hend hescape ih =>
    have hbackslash : c ≠ '\\' := by
      rintro rfl
      cases cs with
      | nil => exact hend rfl rfl
      | cons d ds => exact hescape d ds rfl rfl
    have hquote' : masked c ≠ '"' := by rwa [Ne, masked_eq_iff (by decide)]
    have hbackslash' : masked c ≠ '\\' := by rwa [Ne, masked_eq_iff (by decide)]
    rw [List.map_cons, stringBody_raw hquote' hbackslash']
    cases hmasked : stringBody (cs.map masked) <;> cases hbody : stringBody cs <;>
      simp_all

theorem stringLiteral_masked (cs : List Char) :
    (stringLiteral cs).Masks (stringLiteral (cs.map masked)) := by
  have h := stringBody_masked cs
  unfold stringLiteral
  cases hbody : stringBody cs with
  | none =>
    rw [hbody, Option.map_none, Option.map_eq_none_iff] at h
    rw [h]
    exact Lexeme.masks_wrong rfl rfl
  | some r =>
    obtain ⟨s, taken, rest⟩ := r
    rw [hbody, Option.map_some, Option.map_eq_some_iff] at h
    obtain ⟨⟨s', taken', rest'⟩, hmasked, heq⟩ := h
    cases heq
    rw [hmasked]
    exact ⟨rfl, rfl, rfl⟩

theorem equals_masked (cs : List Char) :
    (lexeme '=' cs).Masks (lexeme '=' (cs.map masked)) := by
  have hplain : ∀ cs : List Char, cs.head? ≠ some '>' →
      lexeme '=' cs = oneOrTwo '=' '=' .assign .eqEq cs := by
    intro cs hhead
    rcases cs with _ | ⟨c, cs⟩
    · rfl
    · have hc : c ≠ '>' := by simpa using hhead
      simp [lexeme, hc]
  cases cs with
  | nil => exact Lexeme.masks_plain rfl rfl
  | cons c cs =>
    by_cases hc : c = '>'
    · subst hc
      exact Lexeme.masks_plain rfl rfl
    · have hc' : masked c ≠ '>' := by rwa [Ne, masked_eq_iff (by decide)]
      rw [hplain _ (by simpa using hc), hplain _ (by simpa using hc')]
      exact oneOrTwo_masked rfl (by decide) _ _ (c :: cs)

theorem lexeme_masked (c : Char) (cs : List Char) :
    (lexeme c cs).Masks (lexeme (masked c) (cs.map masked)) := by
  by_cases hnul : c = '\x00'
  · subst hnul
    exact Lexeme.masks_wrong rfl rfl
  · have hmasked := masked_of_ne hnul
    rw [hmasked]
    unfold lexeme
    split
    case h_23 =>
      split
      · exact word_masked hmasked cs
      · split
        · exact number_masked hmasked cs
        · exact Lexeme.masks_wrong (by simp [hmasked]) rfl
    case h_22 => exact stringLiteral_masked cs
    case h_19 => exact equals_masked cs
    case h_20 | h_21 => exact doubled_masked (by decide) _ cs
    case h_14 | h_15 | h_16 | h_17 | h_18 => exact oneOrTwo_masked rfl (by decide) _ _ cs
    all_goals exact Lexeme.masks_plain rfl rfl

end TinyScript.Token
