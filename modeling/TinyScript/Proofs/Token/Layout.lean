import TinyScript.Proofs.Token.Numerals
import TinyScript.Proofs.Token.Tiling

/-! Texts laid out of lexemes. What a lexeme is and what may stand between two is said
class by class, without the lexer. A gap between lexemes starts with a blank, which a
comment alone would not do: after a slash it would be another comment. Of a text laid
out like that the lexer makes the tokens of its lexemes, each at the place where it
stands, and the end of input after them. -/

namespace TinyScript.Token

open Text.Utf8 (size)

/-! ### Lexemes -/

/-- The lexemes of a terminal. Keywords, types and punctuation have one each, and any
other word is a name. -/
inductive Writes : Terminal → List Char → Prop where
  | fixed {k : Kind} (h : k.spelling ≠ "") : Writes (.fixed k) k.spelling.toList
  | name {cs : List Char} (hword : isWord cs = true)
      (hother : ∀ k : Kind, k.spelling ≠ String.ofList cs) :
      Writes ⟨.identifier, String.ofList cs⟩ cs
  | integer {cs : List Char} (h : IsInteger cs) : Writes ⟨.integerLiteral, String.ofList cs⟩ cs
  | float {cs : List Char} (h : IsFloat cs) : Writes ⟨.floatLiteral, String.ofList cs⟩ cs
  | string {s cs : List Char} (h : Contents s cs) :
      Writes ⟨.stringLiteral, String.ofList s⟩ ('"' :: (cs ++ ['"']))

theorem keywords_spelling : ∀ x ∈ keywords, x.2.spelling = x.1 := by decide

theorem wordKind_name {s : String} (h : ∀ k : Kind, k.spelling ≠ s) :
    wordKind s = .identifier := by
  unfold wordKind
  cases hlookup : keywords.lookup s with
  | none => rfl
  | some k =>
    obtain ⟨before, after, hkeywords, _⟩ := List.lookup_eq_some_iff.1 hlookup
    have hmem : (s, k) ∈ keywords := by simp [hkeywords]
    exact absurd (keywords_spelling _ hmem) (h k)

theorem fixed_spells {k : Kind} (h : k.spelling ≠ "") :
    ∃ c cs, k.spelling.toList = c :: cs ∧ Spells (.fixed k) c cs := by
  obtain ⟨c, cs, hwritten, hspells⟩ := Terminal.legible_fixed h
  have hkind : (Terminal.fixed k).kind ≠ .stringLiteral := by
    rintro rfl
    exact h rfl
  rw [Terminal.written, if_neg hkind] at hwritten
  exact ⟨c, cs, hwritten, hspells⟩

theorem name_spells {cs : List Char} (hword : isWord cs = true)
    (hother : ∀ k : Kind, k.spelling ≠ String.ofList cs) :
    ∃ d ds, cs = d :: ds ∧ Spells ⟨.identifier, String.ofList cs⟩ d ds := by
  have hlist : (String.ofList cs).toList = cs := String.toList_ofList
  obtain ⟨d, ds, hcs, hspells⟩ := word_spells (s := String.ofList cs) (by rwa [hlist])
  rw [wordKind_name hother] at hspells
  rw [hlist] at hcs
  exact ⟨d, ds, hcs, hspells⟩

theorem Writes.spells {t : Terminal} {cs : List Char} (h : Writes t cs) :
    ∃ d ds, cs = d :: ds ∧ Spells t d ds := by
  cases h with
  | fixed h => exact fixed_spells h
  | name hword hother => exact name_spells hword hother
  | integer h => exact isInteger_spells h
  | float h => exact float_spells h
  | string h => exact ⟨'"', _, rfl, Terminal.string_spells h⟩

/-! ### Gaps -/

/-- What goes on in a line comment: neither its end nor a NUL. -/
abbrev Comment (cs : List Char) : Prop := ∀ c ∈ cs, c ≠ '\n' ∧ c ≠ '\x00'

/-- Blanks and comments, each with its end: a line comment goes on to the end of its
line and holds no NUL, a block comment to the first `*/`. -/
inductive Filler : List Char → Prop where
  | nil : Filler []
  | blank {c : Char} {cs : List Char} (hc : isBlank c = true) (h : Filler cs) : Filler (c :: cs)
  | line {comment cs : List Char} (hcomment : ∀ c ∈ comment, c ≠ '\n' ∧ c ≠ '\x00')
      (h : Filler cs) : Filler ('/' :: '/' :: (comment ++ '\n' :: cs))
  | block {comment cs : List Char} (hcomment : ¬['*', '/'] <:+: comment) (h : Filler cs) :
      Filler ('/' :: '*' :: (comment ++ '*' :: '/' :: cs))

/-- What keeps two lexemes apart, whatever they are. -/
inductive Separator : List Char → Prop where
  | mk {c : Char} {cs : List Char} (hc : isBlank c = true) (h : Filler cs) : Separator (c :: cs)

theorem skip_comment {comment : List Char} (h : Comment comment) (pos : Nat) (cs : List Char) :
    skip .line pos (comment ++ cs) = skip .line (pos + size comment) cs := by
  induction comment generalizing pos with
  | nil => rfl
  | cons c comment ih =>
    obtain ⟨⟨hnewline, hnul⟩, h⟩ := List.forall_mem_cons.1 h
    rw [List.cons_append, skip, if_neg hnul, if_neg hnewline, ih h, Text.Utf8.size_cons,
      Nat.add_assoc pos]

theorem skip_line {comment : List Char} (h : Comment comment) (pos : Nat) (cs : List Char) :
    skip .line pos (comment ++ '\n' :: cs) = skip .code (pos + size comment + 1) cs := by
  rw [skip_comment h, skip, if_neg (by decide), if_pos rfl]

theorem skip_block {comment : List Char} (h : ¬['*', '/'] <:+: comment) (start pos : Nat)
    (cs : List Char) :
    skip (.block start) pos (comment ++ '*' :: '/' :: cs) =
      skip .code (pos + size comment + 2) cs := by
  induction comment generalizing pos with
  | nil => simp [skip]
  | cons c comment ih =>
    rw [List.infix_cons_iff, not_or] at h
    -- A star here with a slash after it would end the comment.
    have hends : ∀ rest, c = '*' → comment ++ '*' :: '/' :: cs = '/' :: rest → False := by
      rintro rest rfl hrest
      cases comment with
      | nil => cases hrest
      | cons d comment =>
        cases hrest
        exact h.1 ⟨comment, rfl⟩
    rw [List.cons_append, skip]
    · rw [ih h.2, Text.Utf8.size_cons, Nat.add_assoc pos]
    · exact hends

theorem skip_filler {gap : List Char} (h : Filler gap) (pos : Nat) (rest : List Char) :
    skip .code pos (gap ++ rest) = skip .code (pos + size gap) rest := by
  induction h generalizing pos with
  | nil => simp
  | @blank c cs hc _ ih =>
    have hslash : c ≠ '/' := by
      rintro rfl
      exact absurd hc (by decide)
    simp [skip, hslash, hc, ih, Nat.add_assoc]
  | @line comment cs hcomment _ ih =>
    have hsize : pos + size ('/' :: '/' :: (comment ++ '\n' :: cs)) =
        pos + 2 + size comment + 1 + size cs := by
      simp [Text.Utf8.size_append, show '/'.utf8Size = 1 from rfl, show '\n'.utf8Size = 1 from rfl]
      omega
    rw [hsize, ← ih, List.cons_append, List.cons_append, skip, List.append_assoc, List.cons_append,
      skip_line hcomment]
  | @block comment cs hcomment _ ih =>
    have hsize : pos + size ('/' :: '*' :: (comment ++ '*' :: '/' :: cs)) =
        pos + 2 + size comment + 2 + size cs := by
      simp [Text.Utf8.size_append, show '/'.utf8Size = 1 from rfl, show '*'.utf8Size = 1 from rfl]
      omega
    rw [hsize, ← ih, List.cons_append, List.cons_append, skip, List.append_assoc, List.cons_append,
      List.cons_append, skip_block hcomment]

theorem next_filler {gap : List Char} (h : Filler gap) (pos : Nat) (rest : List Char) :
    next pos (gap ++ rest) = next (pos + size gap) rest := by
  unfold next
  rw [skip_filler h]

theorem tokensFrom_filler {gap : List Char} (h : Filler gap) (pos : Nat) (rest : List Char) :
    tokensFrom pos (gap ++ rest) = tokensFrom (pos + size gap) rest := by
  rw [tokensFrom, next_filler h, ← tokensFrom]

/-! ### Layout -/

/-- A terminal as it is written, and the gap after it. -/
structure Piece where
  terminal : Terminal
  written : List Char
  gap : List Char

namespace Piece

/-- A gap and pieces after it. -/
def source (lead : List Char) (ps : List Piece) : String :=
  String.ofList (lead ++ ps.flatMap fun p => p.written ++ p.gap)

/-- The tokens of pieces from an offset on. -/
def tokens : Nat → List Piece → List Token
  | _, [] => []
  | pos, p :: ps => ⟨p.terminal.kind, p.terminal.text, ⟨pos, pos + size p.written⟩⟩ ::
      tokens (pos + size p.written + size p.gap) ps

/-- Lexemes with separators between them. Right after the last a comment may stand, unless
that is a slash, of which it would make another comment. -/
inductive LaidOut : List Piece → Prop where
  | nil : LaidOut []
  | last {p : Piece} (h : Writes p.terminal p.written) (hgap : Filler p.gap)
      (hslash : p.written = ['/'] → p.gap.head? ≠ some '/') : LaidOut [p]
  | cons {p q : Piece} {ps : List Piece} (h : Writes p.terminal p.written)
      (hgap : Separator p.gap) (hps : LaidOut (q :: ps)) : LaidOut (p :: q :: ps)

end Piece

theorem Filler.apart {gap : List Char} (h : Filler gap) : Apart gap := by
  cases h with
  | nil => nofun
  | blank hc _ =>
    rintro _ ⟨⟩
    simp [isBreak, hc]
  | line | block =>
    rintro _ ⟨⟩
    rfl

theorem Separator.filler {gap : List Char} (h : Separator gap) : Filler gap := by
  obtain ⟨hc, h⟩ := h
  exact .blank hc h

theorem Separator.apart {gap : List Char} (h : Separator gap) (rest : List Char) :
    Apart (gap ++ rest) := by
  obtain ⟨hc, _⟩ := h
  rintro _ ⟨⟩
  simp [isBreak, hc]

theorem Separator.head {gap : List Char} (h : Separator gap) (rest : List Char) :
    (gap ++ rest).head? ≠ some '/' := by
  obtain ⟨hc, _⟩ := h
  rintro ⟨⟩
  exact absurd hc (by decide)

/-- A lexeme is cut off the front, and the gap after it with it. -/
theorem tokensFrom_piece {p : Piece} {rest : List Char} (h : Writes p.terminal p.written)
    (hgap : Filler p.gap) (apart : Apart (p.gap ++ rest))
    (hslash : p.written = ['/'] → (p.gap ++ rest).head? ≠ some '/') (pos : Nat) :
    tokensFrom pos (p.written ++ (p.gap ++ rest)) =
      ⟨p.terminal.kind, p.terminal.text, ⟨pos, pos + size p.written⟩⟩ ::
        tokensFrom (pos + size p.written + size p.gap) rest := by
  obtain ⟨d, ds, hwritten, hspells⟩ := h.spells
  have single : d = '/' → (p.gap ++ rest).head? ≠ some '/' := by
    intro hd
    exact hslash (by rw [hwritten, hd, hspells.noComment hd])
  rw [hwritten, tokensFrom, next_spelled hspells apart single]
  simp only [hspells.notEnd, if_false]
  rw [tokensFrom_filler hgap]

theorem tokensFrom_nil (pos : Nat) : tokensFrom pos [] = [ended pos] := by
  rw [tokensFrom]
  simp [next, skip_code_nil, ended]

theorem tokensFrom_pieces {ps : List Piece} (h : Piece.LaidOut ps) (pos : Nat) :
    tokensFrom pos (ps.flatMap fun p => p.written ++ p.gap) =
      Piece.tokens pos ps ++ [ended (pos + size (ps.flatMap fun p => p.written ++ p.gap))] := by
  induction h generalizing pos with
  | nil => exact tokensFrom_nil pos
  | @last p h hgap hslash =>
    have hpiece := @tokensFrom_piece p [] h hgap (by simpa using hgap.apart)
      (by simpa using hslash) pos
    rw [List.append_nil, tokensFrom_nil] at hpiece
    rw [List.flatMap_singleton, hpiece, Text.Utf8.size_append, ← Nat.add_assoc]
    rfl
  | @cons p q ps h hgap _ ih =>
    have hsize : pos + size ((p :: q :: ps).flatMap fun p => p.written ++ p.gap) =
        pos + size p.written + size p.gap +
          size ((q :: ps).flatMap fun p => p.written ++ p.gap) := by
      rw [List.flatMap_cons, Text.Utf8.size_append, Text.Utf8.size_append]
      omega
    rw [hsize, List.flatMap_cons, List.append_assoc,
      tokensFrom_piece h hgap.filler (hgap.apart _) (fun _ => hgap.head _), ih]
    rfl

/-- **Laid out lexemes are recovered.** The tokens of a text are its lexemes', with their
kinds, texts and places, and the end of input. -/
theorem tokens_laid_out {lead : List Char} {ps : List Piece} (hlead : Filler lead)
    (hps : Piece.LaidOut ps) :
    tokens (Piece.source lead ps) =
      Piece.tokens (size lead) ps ++ [ended (Piece.source lead ps).utf8ByteSize] := by
  unfold tokens Piece.source
  rw [String.toList_ofList, tokensFrom_filler hlead, tokensFrom_pieces hps, ← Text.Utf8.size_toList,
    String.toList_ofList, Text.Utf8.size_append, Nat.zero_add]

/-- Comments of both kinds, a slash, a hexadecimal number, a float with an exponent and a
text with three sorts of characters in it, a comment right after the last lexeme. -/
def division : List Piece :=
  [⟨.fixed .kwLet, "let".toList, "\t// x\n".toList⟩,
    ⟨⟨.identifier, "let_1"⟩, "let_1".toList, " ".toList⟩,
    ⟨.fixed .assign, "=".toList, " /***/".toList⟩,
    ⟨⟨.integerLiteral, "0xFf"⟩, "0xFf".toList, " ".toList⟩,
    ⟨.fixed .slash, "/".toList, " //\n".toList⟩,
    ⟨⟨.floatLiteral, "02.5e-1"⟩, "02.5e-1".toList, " ".toList⟩,
    ⟨⟨.stringLiteral, "é\nq"⟩, "\"é\\n\\q\"".toList, "/*\x00*/".toList⟩]

theorem division_recovered :
    Filler "/*/*/".toList ∧ Piece.LaidOut division ∧
      tokens "/*/*/let\t// x\nlet_1 = /***/0xFf / //\n02.5e-1 \"é\\n\\q\"/*\x00*/" =
        [⟨.kwLet, "let", ⟨5, 8⟩⟩, ⟨.identifier, "let_1", ⟨14, 19⟩⟩, ⟨.assign, "=", ⟨20, 21⟩⟩,
          ⟨.integerLiteral, "0xFf", ⟨27, 31⟩⟩, ⟨.slash, "/", ⟨32, 33⟩⟩,
          ⟨.floatLiteral, "02.5e-1", ⟨37, 44⟩⟩, ⟨.stringLiteral, "é\nq", ⟨45, 53⟩⟩,
          ⟨.endOfInput, "", ⟨58, 58⟩⟩] := by
  have hspace : Separator [' '] := .mk rfl .nil
  have hlead : Filler "/*/*/".toList := @Filler.block ['/'] [] (by decide) .nil
  have hline : Separator "\t// x\n".toList :=
    .mk rfl (@Filler.line [' ', 'x'] [] (by simp) .nil)
  have hslash : Separator " //\n".toList := .mk rfl (@Filler.line [] [] nofun .nil)
  have hblock : Separator " /***/".toList :=
    .mk rfl (@Filler.block ['*'] [] (by decide) .nil)
  have hlast : Filler "/*\x00*/".toList := @Filler.block ['\x00'] [] (by decide) .nil
  have hname : Writes ⟨.identifier, "let_1"⟩ "let_1".toList :=
    @Writes.name "let_1".toList (by decide) (by intro k; cases k <;> decide)
  have hnumber : IsInteger "0xFf".toList :=
    @IsInteger.hexadecimal 'x' ['F', 'f'] (.inl rfl) nofun (List.all_eq_true.1 rfl)
  have hfloat : IsFloat "02.5e-1".toList := by
    have hexponent : IsExponent ['e', '-', '1'] :=
      @IsExponent.some 'e' ['-'] ['1'] (.inl rfl) (.inr (.inr rfl)) ⟨nofun, List.all_eq_true.1 rfl⟩
    exact ⟨['0', '2'], ['5'], _, rfl, ⟨nofun, List.all_eq_true.1 rfl⟩,
      ⟨nofun, List.all_eq_true.1 rfl⟩, hexponent⟩
  have htext : Contents "é\nq".toList "é\\n\\q".toList :=
    .cons (.raw (by decide) (by decide)) (.cons .newline (.cons (.itself (by decide)) .nil))
  have hps : Piece.LaidOut division :=
    .cons (.fixed (by decide)) hline <| .cons hname hspace <|
    .cons (.fixed (by decide)) hblock <|
    .cons (.integer hnumber) hspace <|
    .cons (.fixed (by decide)) hslash <| .cons (.float hfloat) hspace <|
    .last (.string htext) hlast nofun
  have hsource : Piece.source "/*/*/".toList division =
      "/*/*/let\t// x\nlet_1 = /***/0xFf / //\n02.5e-1 \"é\\n\\q\"/*\x00*/" := by
    decide +kernel
  have htokens := tokens_laid_out hlead hps
  rw [hsource] at htokens
  refine ⟨hlead, hps, htokens.trans ?_⟩
  decide +kernel

end TinyScript.Token
