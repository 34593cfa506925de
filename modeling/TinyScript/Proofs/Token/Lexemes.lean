import TinyScript.Proofs.Text.Run
import TinyScript.Token.Lexer

/-! Lexemes. A terminal is what is left of a token without its place. Characters
spell a terminal if the lexer makes it of them, whatever blank or comment comes after;
keywords and punctuation, other words, numbers and quoted text are spelled like that.
From a text that spells terminals with blanks between them the lexer makes just these
terminals. -/

namespace TinyScript.Token

/-- A token wherever it stands. -/
structure Terminal where
  kind : Kind
  text : String
  deriving DecidableEq, Repr

def terminal (t : Token) : Terminal := ⟨t.kind, t.text⟩

/-- A blank, or a slash, which may begin a comment. No lexeme but a string literal goes
on with either. -/
def isBreak (c : Char) : Bool := isBlank c || c = '/'

/-- The end, or a break. -/
def Apart (rest : List Char) : Prop := ∀ c ∈ rest.head?, isBreak c = true

/-- Characters that are one lexeme, whatever stands apart after them. -/
structure Spells (t : Terminal) (c : Char) (cs : List Char) : Prop where
  shown : isBlank c = false
  notNul : c ≠ '\x00'
  noComment : c = '/' → cs = []
  notEnd : t.kind ≠ .endOfInput
  taken : ∀ rest, Apart rest → lexeme c (cs ++ rest) = ⟨t.kind, t.text, c :: cs, rest⟩

/-! ### One lexeme after the other -/

/-- A slash is a lexeme only if no comment begins with it. -/
theorem skip_spelled {t : Terminal} {c : Char} {cs rest : List Char} (h : Spells t c cs)
    (apart : Apart rest) (single : c = '/' → rest.head? ≠ some '/') (pos : Nat) :
    skip .code pos (c :: cs ++ rest) = .next pos (c :: cs ++ rest) := by
  by_cases hslash : c = '/'
  · subst hslash
    rw [h.noComment rfl]
    cases rest with
    | nil => simp [skip, isBlank]
    | cons d ds =>
      have hslash : d ≠ '/' := fun hd => single rfl (congrArg some hd)
      have hstar : d ≠ '*' := by
        rintro rfl
        exact absurd (apart '*' rfl) (by decide)
      simp [skip, isBlank, hslash, hstar]
  · simp [skip, hslash, h.shown]

theorem next_spelled {t : Terminal} {c : Char} {cs rest : List Char} (h : Spells t c cs)
    (apart : Apart rest) (single : c = '/' → rest.head? ≠ some '/') (pos : Nat) :
    next pos (c :: cs ++ rest) = (⟨t.kind, t.text, ⟨pos, pos + Text.Utf8.size (c :: cs)⟩⟩,
      pos + Text.Utf8.size (c :: cs), rest) := by
  unfold next
  rw [skip_spelled h apart single]
  simp only [List.cons_append, h.notNul, false_and, if_false, h.taken rest apart]

theorem next_blank {c : Char} (h : isBlank c = true) (pos : Nat) (cs : List Char) :
    next pos (c :: cs) = next (pos + c.utf8Size) cs := by
  have hslash : c ≠ '/' := by
    rintro rfl
    exact absurd h (by decide)
  have hskip : skip .code pos (c :: cs) = skip .code (pos + c.utf8Size) cs := by
    simp [skip, hslash, h]
  unfold next
  rw [hskip]

/-! ### Characters -/

theorem isDecimal_iff (c : Char) : isDecimal c = true ↔ 48 ≤ c.toNat ∧ c.toNat ≤ 57 := by
  simp [isDecimal, Char.le_def, UInt32.le_iff_toNat_le]

theorem isLetter_iff (c : Char) : isLetter c = true ↔
    (97 ≤ c.toNat ∧ c.toNat ≤ 122) ∨ (65 ≤ c.toNat ∧ c.toNat ≤ 90) := by
  simp [isLetter, Char.le_def, UInt32.le_iff_toNat_le]

theorem isBlank_iff (c : Char) : isBlank c = true ↔
    c.toNat = 32 ∨ c.toNat = 9 ∨ c.toNat = 10 ∨ c.toNat = 12 ∨ c.toNat = 13 := by
  simp [isBlank, ← Char.toNat_inj, or_assoc]

theorem isBreak_iff (c : Char) : isBreak c = true ↔ isBlank c = true ∨ c.toNat = 47 := by
  simp [isBreak, ← Char.toNat_inj]

def isWordStart (c : Char) : Bool := isLetter c || c = '_'

theorem isWordStart_iff (c : Char) :
    isWordStart c = true ↔ isLetter c = true ∨ c.toNat = 95 := by
  simp [isWordStart, ← Char.toNat_inj]

theorem isWordChar_iff (c : Char) :
    isWordChar c = true ↔ isLetter c = true ∨ isDecimal c = true ∨ c.toNat = 95 := by
  simp [isWordChar, ← Char.toNat_inj, or_assoc]

/-- A run of characters of a class without breaks ends where something stands apart. -/
theorem run_apart {p : Char → Bool} (hp : ∀ c, isBreak c = true → p c = false)
    {cs rest : List Char} (h : ∀ c ∈ cs, p c = true) (apart : Apart rest) :
    (cs ++ rest).takeWhile p = cs ∧ (cs ++ rest).dropWhile p = rest :=
  Text.Run.split ⟨h, fun c hc => hp c (apart c hc)⟩

/-! ### Words -/

def isWord : List Char → Bool
  | [] => false
  | c :: cs => isWordStart c && cs.all isWordChar

theorem lexeme_word {c : Char} (h : isWordStart c = true) (cs : List Char) :
    lexeme c cs = word c cs := by
  unfold lexeme
  split
  case h_23 =>
    rw [isWordStart] at h
    rw [if_pos h]
  all_goals exact absurd h (by decide)

theorem wordKind_eq (s : String) :
    wordKind s = .identifier ∨ wordKind s ∈ keywords.map Prod.snd := by
  unfold wordKind
  cases h : keywords.lookup s with
  | none => exact .inl rfl
  | some k =>
    right
    obtain ⟨before, after, hkeywords, _⟩ := List.lookup_eq_some_iff.1 h
    rw [hkeywords]
    simp

theorem word_spells {s : String} (h : isWord s.toList = true) :
    ∃ c cs, s.toList = c :: cs ∧ Spells ⟨wordKind s, s⟩ c cs := by
  cases hs : s.toList with
  | nil =>
    rw [hs] at h
    cases h
  | cons c cs =>
    rw [hs, isWord, Bool.and_eq_true, List.all_eq_true] at h
    have hnat := (isWordStart_iff c).1 h.1
    rw [isLetter_iff] at hnat
    refine ⟨c, cs, rfl, ?_, ?_, ?_, ?_, ?_⟩
    · rw [← Bool.not_eq_true, isBlank_iff]
      omega
    · rintro rfl
      simp at hnat
    · rintro rfl
      simp at hnat
    · rcases wordKind_eq s with hkind | hkind
      · simp [hkind]
      · intro hend
        change wordKind s = .endOfInput at hend
        rw [hend] at hkind
        exact absurd hkind (by decide)
    · intro rest apart
      have hbreak : ∀ d, isBreak d = true → isWordChar d = false := by
        intro d hd
        rw [isBreak_iff, isBlank_iff] at hd
        rw [← Bool.not_eq_true, isWordChar_iff, isLetter_iff, isDecimal_iff]
        omega
      obtain ⟨htake, hdrop⟩ := run_apart hbreak h.2 apart
      rw [lexeme_word h.1, word, htake, hdrop, Lexeme.plain, ← hs, String.ofList_toList]

/-! ### Punctuation -/

theorem oneOrTwo_apart {first second : Char} (hsecond : isBreak second = false)
    {single double : Kind} {rest : List Char} (apart : Apart rest) :
    oneOrTwo first second single double rest = .plain single [first] rest := by
  cases rest with
  | nil => rfl
  | cons d ds =>
    have hne : d ≠ second := by
      rintro rfl
      rw [apart d rfl] at hsecond
      cases hsecond
    simp [oneOrTwo, hne]

/-- A kind with one lexeme, and that. -/
def Kind.spelling : Kind → String
  | kwLet => "let" | kwConst => "const" | kwVar => "var" | kwFunction => "function"
  | kwIf => "if" | kwElse => "else" | kwWhile => "while" | kwFor => "for" | kwDo => "do"
  | kwReturn => "return" | kwTrue => "true" | kwFalse => "false" | kwNull => "null"
  | kwUndefined => "undefined"
  | tyNumber => "number" | tyString => "string" | tyBoolean => "boolean"
  | tyI32 => "i32" | tyF64 => "f64"
  | lparen => "(" | rparen => ")" | lbrace => "\x7b" | rbrace => "\x7d"
  | lbracket => "[" | rbracket => "]"
  | semicolon => ";" | colon => ":" | comma => "," | dot => "."
  | plus => "+" | minus => "-" | star => "*" | slash => "/" | percent => "%"
  | assign => "=" | less => "<" | greater => ">" | bang => "!"
  | eqEq => "==" | notEq => "!=" | lessEq => "<=" | greaterEq => ">="
  | andAnd => "&&" | orOr => "||" | plusPlus => "++" | minusMinus => "--"
  | fatArrow => "=>"
  | identifier | stringLiteral | integerLiteral | floatLiteral | endOfInput | invalid => ""

/-! ### Written terminals -/

/-- How a character may stand between quotes: as it is, by its escape, or after a
backslash, if that makes no other character of it. -/
inductive Quotes : Char → List Char → Prop where
  | raw {c : Char} (hquote : c ≠ '"') (hbackslash : c ≠ '\\') : Quotes c [c]
  | newline : Quotes '\n' ['\\', 'n']
  | tab : Quotes '\t' ['\\', 't']
  | carriageReturn : Quotes '\r' ['\\', 'r']
  | nul : Quotes '\x00' ['\\', '0']
  | itself {c : Char} (hc : c ∉ ['n', 't', 'r', '0']) : Quotes c ['\\', c]

/-- How contents may stand between quotes. -/
inductive Contents : List Char → List Char → Prop where
  | nil : Contents [] []
  | cons {c : Char} {w s ws : List Char} (hc : Quotes c w) (hs : Contents s ws) :
      Contents (c :: s) (w ++ ws)

/-- A character between quotes, by its escape if it has one. -/
def escaped : Char → List Char
  | '"' => ['\\', '"']
  | '\\' => ['\\', '\\']
  | '\n' => ['\\', 'n']
  | '\t' => ['\\', 't']
  | '\r' => ['\\', 'r']
  | '\x00' => ['\\', '0']
  | c => [c]

/-- Text between quotes. -/
def quoted (cs : List Char) : List Char := '"' :: (cs.flatMap escaped ++ ['"'])

namespace Terminal

/-- How a terminal is written. -/
def written (t : Terminal) : List Char :=
  if t.kind = .stringLiteral then quoted t.text.toList else t.text.toList

/-- A terminal that the lexer makes of what is written for it. -/
def Legible (t : Terminal) : Prop := ∃ c cs, t.written = c :: cs ∧ Spells t c cs

/-- Terminals with a blank in front of each. -/
def spaced : List Terminal → List Char
  | [] => []
  | t :: ts => ' ' :: (t.written ++ spaced ts)

/-- Terminals with blanks between them. -/
def source (ts : List Terminal) : String := String.ofList (spaced ts).tail

/-- What is left at the end of a text. -/
def finish : Terminal := ⟨.endOfInput, ""⟩

theorem apart_spaced (ts : List Terminal) : Apart (spaced ts) := by
  intro c hc
  cases ts with
  | nil => cases hc
  | cons t ts =>
    cases hc
    rfl

theorem tokensFrom_nil (pos : Nat) : (tokensFrom pos []).map terminal = [finish] := by
  rw [tokensFrom]
  simp [next, skip, terminal, finish]

theorem tokensFrom_written {t : Terminal} (h : t.Legible) {ts : List Terminal}
    (ih : ∀ pos, (tokensFrom pos (spaced ts)).map terminal = ts ++ [finish]) (pos : Nat) :
    (tokensFrom pos (t.written ++ spaced ts)).map terminal = t :: ts ++ [finish] := by
  obtain ⟨c, cs, hwritten, hspells⟩ := h
  have single : c = '/' → (spaced ts).head? ≠ some '/' := by
    intro _
    cases ts <;> simp [spaced]
  rw [hwritten, tokensFrom, next_spelled hspells (apart_spaced ts) single]
  simp only [hspells.notEnd, if_false, List.map_cons, ih]
  rfl

theorem tokensFrom_spaced {ts : List Terminal} (h : ∀ t ∈ ts, t.Legible) (pos : Nat) :
    (tokensFrom pos (spaced ts)).map terminal = ts ++ [finish] := by
  induction ts generalizing pos with
  | nil => exact tokensFrom_nil pos
  | cons t ts ih =>
    have hblank : tokensFrom pos (spaced (t :: ts)) =
        tokensFrom (pos + ' '.utf8Size) (t.written ++ spaced ts) := by
      rw [tokensFrom, tokensFrom.eq_def (pos + ' '.utf8Size), spaced, next_blank (by decide)]
    rw [hblank]
    exact tokensFrom_written (h t List.mem_cons_self)
      (ih fun t' ht' => h t' (List.mem_cons_of_mem t ht')) _

/-- The lexer makes of written terminals what they were. -/
theorem tokens_source {ts : List Terminal} (h : ∀ t ∈ ts, t.Legible) :
    (tokens (source ts)).map terminal = ts ++ [finish] := by
  unfold tokens source
  rw [String.toList_ofList]
  cases ts with
  | nil => exact tokensFrom_nil 0
  | cons t ts =>
    exact tokensFrom_written (h t List.mem_cons_self)
      (tokensFrom_spaced fun t' ht' => h t' (List.mem_cons_of_mem t ht')) 0

/-! ### Legible terminals -/

theorem legible_plain {t : Terminal} {c : Char} {cs : List Char} (hkind : t.kind ≠ .stringLiteral)
    (htext : t.text.toList = c :: cs) (h : Spells t c cs) : t.Legible :=
  ⟨c, cs, by rw [written, if_neg hkind, htext], h⟩

theorem legible_word {s : String} (h : isWord s.toList = true) : Legible ⟨wordKind s, s⟩ := by
  obtain ⟨c, cs, hs, hspells⟩ := word_spells h
  refine legible_plain ?_ hs hspells
  intro hstring
  change wordKind s = .stringLiteral at hstring
  rcases wordKind_eq s with hkind | hkind
  · rw [hkind] at hstring
    cases hstring
  · rw [hstring] at hkind
    exact absurd hkind (by decide)

/-- Keywords and punctuation. -/
def fixed (k : Kind) : Terminal := ⟨k, k.spelling⟩

theorem legible_keyword {k : Kind} (hword : isWord k.spelling.toList = true)
    (hkind : wordKind k.spelling = k) : (fixed k).Legible := by
  have h := legible_word hword
  rw [hkind] at h
  exact h

theorem legible_symbol {k : Kind} {c : Char} {cs : List Char} (hkind : k ≠ .stringLiteral)
    (hend : k ≠ .endOfInput) (htext : k.spelling.toList = c :: cs) (hshown : isBlank c = false)
    (hnul : c ≠ '\x00') (hcomment : c = '/' → cs = [])
    (h : ∀ rest, Apart rest → lexeme c (cs ++ rest) = .plain k (c :: cs) rest) :
    (fixed k).Legible := by
  refine legible_plain hkind htext ⟨hshown, hnul, hcomment, hend, ?_⟩
  intro rest apart
  rw [h rest apart, Lexeme.plain, ← htext, String.ofList_toList]
  rfl

theorem lexeme_assign {rest : List Char} (apart : Apart rest) :
    lexeme '=' rest = .plain .assign ['='] rest := by
  cases rest with
  | nil => rfl
  | cons d ds =>
    have hd := apart d rfl
    have hne : d ≠ '>' := by
      rintro rfl
      exact absurd hd (by decide)
    simp only [lexeme]
    split
    · exact absurd (List.cons.inj ‹_›).1 hne
    · exact oneOrTwo_apart (by decide) apart

theorem legible_fixed {k : Kind} (h : k.spelling ≠ "") : (fixed k).Legible := by
  cases k with
  | identifier | stringLiteral | integerLiteral | floatLiteral | endOfInput | invalid =>
    exact absurd rfl h
  | kwLet | kwConst | kwVar | kwFunction | kwIf | kwElse | kwWhile | kwFor | kwDo | kwReturn
  | kwTrue | kwFalse | kwNull | kwUndefined | tyNumber | tyString | tyBoolean | tyI32 | tyF64 =>
    exact legible_keyword (by decide) (by decide)
  | lparen | rparen | lbrace | rbrace | lbracket | rbracket | semicolon | colon | comma | dot
  | star | slash | percent | eqEq | notEq | lessEq | greaterEq | andAnd | orOr | plusPlus
  | minusMinus | fatArrow =>
    exact legible_symbol (by decide) (by decide) rfl (by decide) (by decide) (by decide)
      fun _ _ => rfl
  | plus | minus | less | greater | bang =>
    exact legible_symbol (by decide) (by decide) rfl (by decide) (by decide) (by decide)
      fun _ apart => oneOrTwo_apart (by decide) apart
  | assign =>
    exact legible_symbol (by decide) (by decide) rfl (by decide) (by decide) (by decide)
      fun _ apart => lexeme_assign apart

theorem stringBody_quotes {c : Char} {w : List Char} (h : Quotes c w) (cs : List Char) :
    stringBody (w ++ cs) = (stringBody cs).map fun (s, taken, rest) =>
      (c :: s, w ++ taken, rest) := by
  cases h with
  | raw hquote hbackslash =>
    rw [List.singleton_append, stringBody]
    · rfl
    · exact hquote
    · exact fun h _ => hbackslash h
    · exact fun _ _ h _ => hbackslash h
  | newline | tab | carriageReturn | nul => simp [stringBody, unescape]
  | itself hc =>
    have hself : unescape c = c := by
      simp only [List.mem_cons, List.not_mem_nil, or_false, not_or] at hc
      simp [unescape, hc]
    rw [List.cons_append, List.singleton_append, stringBody, hself]
    rfl

/-- Between quotes stands what the contents are written as. -/
theorem stringBody_contents {s w : List Char} (h : Contents s w) (rest : List Char) :
    stringBody (w ++ '"' :: rest) = some (s, w ++ ['"'], rest) := by
  induction h with
  | nil => simp [stringBody]
  | cons hc _ ih =>
    rw [List.append_assoc, stringBody_quotes hc, ih]
    simp

theorem string_spells {s w : List Char} (h : Contents s w) :
    Spells ⟨.stringLiteral, String.ofList s⟩ '"' (w ++ ['"']) := by
  refine ⟨by decide, by decide, fun h => absurd h (by decide), by simp, ?_⟩
  intro rest _
  show stringLiteral _ = _
  rw [List.append_assoc, stringLiteral, List.singleton_append, stringBody_contents h]

theorem quotes_escaped (c : Char) : Quotes c (escaped c) := by
  unfold escaped
  split
  case h_7 hquote hbackslash _ _ _ _ => exact .raw hquote hbackslash
  case h_1 | h_2 => exact .itself (by decide)
  case h_3 => exact .newline
  case h_4 => exact .tab
  case h_5 => exact .carriageReturn
  case h_6 => exact .nul

theorem contents_escaped (cs : List Char) : Contents cs (cs.flatMap escaped) := by
  induction cs with
  | nil => exact .nil
  | cons c cs ih => exact .cons (quotes_escaped c) ih

/-- Every text can be written between quotes. -/
theorem legible_string (s : String) : Legible ⟨.stringLiteral, s⟩ := by
  have h := string_spells (contents_escaped s.toList)
  rw [String.ofList_toList] at h
  exact ⟨'"', s.toList.flatMap escaped ++ ['"'], rfl, h⟩

end Terminal

end TinyScript.Token
