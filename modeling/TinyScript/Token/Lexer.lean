import TinyScript.Token

/-! From source text to tokens. Between tokens stand blanks and comments. A text
that starts no token gives an invalid token with a message, and reading goes on
after it, so every text has a list of tokens that ends with the end of input. A
NUL is an ordinary character with two exceptions: it ends a line comment, and as
the very last character it is taken with the end of input. -/

namespace TinyScript.Token

open Text (Span Utf8.size)

def isBlank (c : Char) : Bool :=
  c = ' ' || c = '\t' || c = '\n' || c = '\x0c' || c = '\r'

def isDecimal (c : Char) : Bool := '0' ≤ c && c ≤ '9'

def isLetter (c : Char) : Bool := ('a' ≤ c && c ≤ 'z') || ('A' ≤ c && c ≤ 'Z')

/-- A character of a word after its first. -/
def isWordChar (c : Char) : Bool := isLetter c || isDecimal c || c = '_'

def isOctal (c : Char) : Bool := '0' ≤ c && c ≤ '7'

def isBinary (c : Char) : Bool := c = '0' || c = '1'

def isHexadecimal (c : Char) : Bool :=
  isDecimal c || ('a' ≤ c && c ≤ 'f') || ('A' ≤ c && c ≤ 'F')

/-! ### Blanks and comments -/

/-- Where a skipper of blanks and comments stands. A block comment remembers
where it started. -/
inductive Mode where
  | code
  | line
  | block (start : Nat)
  deriving DecidableEq, Repr

/-- What is found after blanks and comments: more text, or a block comment
without an end. Offsets are in bytes. -/
inductive Gap where
  | next (offset : Nat) (rest : List Char)
  | unterminated (start stop : Nat)
  deriving DecidableEq, Repr

/-- Skips blanks and comments from an offset. -/
def skip : Mode → Nat → List Char → Gap
  | .code, pos, [] => .next pos []
  | .code, pos, '/' :: '/' :: cs => skip .line (pos + 2) cs
  | .code, pos, '/' :: '*' :: cs => skip (.block pos) (pos + 2) cs
  | .code, pos, c :: cs =>
    if isBlank c then skip .code (pos + c.utf8Size) cs else .next pos (c :: cs)
  | .line, pos, [] => .next pos []
  | .line, pos, c :: cs =>
    if c = '\x00' then .next pos (c :: cs)
    else if c = '\n' then skip .code (pos + 1) cs
    else skip .line (pos + c.utf8Size) cs
  | .block start, pos, [] => .unterminated start pos
  | .block _, pos, '*' :: '/' :: cs => skip .code (pos + 2) cs
  | .block start, pos, c :: cs => skip (.block start) (pos + c.utf8Size) cs

/-! ### Lexemes -/

/-- A token's kind and text, the characters it takes and those after them. -/
structure Lexeme where
  kind : Kind
  text : String
  taken : List Char
  rest : List Char
  deriving DecidableEq, Repr

namespace Lexeme

/-- A lexeme whose text is what it takes. -/
def plain (kind : Kind) (taken rest : List Char) : Lexeme :=
  ⟨kind, String.ofList taken, taken, rest⟩

def wrong (message : String) (taken rest : List Char) : Lexeme :=
  ⟨.invalid, message, taken, rest⟩

end Lexeme

def unexpected (c : Char) (rest : List Char) : Lexeme :=
  .wrong ("unexpected character '" ++ c.toString ++ "'") [c] rest

def word (first : Char) (cs : List Char) : Lexeme :=
  let taken := first :: cs.takeWhile isWordChar
  .plain (wordKind (String.ofList taken)) taken (cs.dropWhile isWordChar)

/-- Digits in a radix with a prefix, which is already taken. Letters and digits
all belong to the literal, whether the radix has them or not. -/
def radixInteger (radix : String) (isDigit : Char → Bool) (lead cs : List Char) : Lexeme :=
  let digits := cs.takeWhile fun c => isLetter c || isDecimal c
  let rest := cs.dropWhile fun c => isLetter c || isDecimal c
  let taken := lead ++ digits
  if digits = [] then .wrong ("expected digits in " ++ radix ++ " literal") taken rest
  else
    match digits.find? (!isDigit ·) with
    | some bad =>
      .wrong ("invalid digit '" ++ bad.toString ++ "' in " ++ radix ++ " literal") taken rest
    | none => .plain .integerLiteral taken rest

/-- The sign of an exponent, if there is one. -/
def exponentSign : List Char → List Char × List Char
  | '+' :: cs => (['+'], cs)
  | '-' :: cs => (['-'], cs)
  | cs => ([], cs)

/-- An optional exponent after `taken`, which ends in a fraction. -/
def exponent (taken : List Char) : List Char → Lexeme
  | [] => .plain .floatLiteral taken []
  | e :: cs =>
    if e = 'e' ∨ e = 'E' then
      let (sign, cs) := exponentSign cs
      let digits := cs.takeWhile isDecimal
      let rest := cs.dropWhile isDecimal
      let taken := taken ++ e :: sign ++ digits
      if digits = [] then .wrong "expected digits in float exponent" taken rest
      else .plain .floatLiteral taken rest
    else .plain .floatLiteral taken (e :: cs)

/-- A decimal or octal literal from its first digit on. A point makes it a
float only if a digit follows. -/
def decimal (first : Char) (cs : List Char) : Lexeme :=
  let taken := first :: cs.takeWhile isDecimal
  let rest := cs.dropWhile isDecimal
  match rest with
  | '.' :: d :: ds =>
    if isDecimal d then
      exponent (taken ++ '.' :: (d :: ds).takeWhile isDecimal) ((d :: ds).dropWhile isDecimal)
    else integer taken rest
  | _ => integer taken rest
where
  integer (taken rest : List Char) : Lexeme :=
    if first = '0' ∧ taken ≠ ['0'] then
      match taken.find? (!isOctal ·) with
      | some bad =>
        .wrong ("invalid digit '" ++ bad.toString ++ "' in octal literal") taken rest
      | none => .plain .integerLiteral taken rest
    else .plain .integerLiteral taken rest

def number (first : Char) (cs : List Char) : Lexeme :=
  if first = '0' then
    match cs with
    | 'x' :: ds => radixInteger "hexadecimal" isHexadecimal ['0', 'x'] ds
    | 'X' :: ds => radixInteger "hexadecimal" isHexadecimal ['0', 'X'] ds
    | 'b' :: ds => radixInteger "binary" isBinary ['0', 'b'] ds
    | 'B' :: ds => radixInteger "binary" isBinary ['0', 'B'] ds
    | _ => decimal first cs
  else decimal first cs

/-- What a backslash and a character stand for; most stand for themselves. -/
def unescape : Char → Char
  | 'n' => '\n'
  | 't' => '\t'
  | 'r' => '\r'
  | '0' => '\x00'
  | c => c

/-- The contents of a string literal up to its closing quote, the characters
taken with that quote, and what follows. -/
def stringBody : List Char → Option (List Char × List Char × List Char)
  | [] => none
  | '"' :: cs => some ([], ['"'], cs)
  | ['\\'] => none
  | '\\' :: c :: cs => (stringBody cs).map fun (s, taken, rest) =>
      (unescape c :: s, '\\' :: c :: taken, rest)
  | c :: cs => (stringBody cs).map fun (s, taken, rest) => (c :: s, c :: taken, rest)

/-- A string literal after its opening quote. One that is never closed takes
everything. -/
def stringLiteral (cs : List Char) : Lexeme :=
  match stringBody cs with
  | some (s, taken, rest) => ⟨.stringLiteral, String.ofList s, '"' :: taken, rest⟩
  | none => .wrong "unterminated string literal" ('"' :: cs) []

/-- `double` if the next character is `second`, else `single`. -/
def oneOrTwo (first second : Char) (single double : Kind) : List Char → Lexeme
  | [] => .plain single [first] []
  | c :: cs => if c = second then .plain double [first, c] cs else .plain single [first] (c :: cs)

/-- A character that is a token only when doubled. -/
def doubled (first : Char) (kind : Kind) : List Char → Lexeme
  | [] => unexpected first []
  | c :: cs => if c = first then .plain kind [first, c] cs else unexpected first (c :: cs)

/-- The lexeme that starts with a character. -/
def lexeme (c : Char) (cs : List Char) : Lexeme :=
  match c with
  | '(' => .plain .lparen [c] cs
  | ')' => .plain .rparen [c] cs
  | '\x7b' => .plain .lbrace [c] cs
  | '\x7d' => .plain .rbrace [c] cs
  | '[' => .plain .lbracket [c] cs
  | ']' => .plain .rbracket [c] cs
  | ';' => .plain .semicolon [c] cs
  | ':' => .plain .colon [c] cs
  | ',' => .plain .comma [c] cs
  | '.' => .plain .dot [c] cs
  | '*' => .plain .star [c] cs
  | '/' => .plain .slash [c] cs
  | '%' => .plain .percent [c] cs
  | '+' => oneOrTwo '+' '+' .plus .plusPlus cs
  | '-' => oneOrTwo '-' '-' .minus .minusMinus cs
  | '!' => oneOrTwo '!' '=' .bang .notEq cs
  | '<' => oneOrTwo '<' '=' .less .lessEq cs
  | '>' => oneOrTwo '>' '=' .greater .greaterEq cs
  | '=' =>
    match cs with
    | '>' :: rest => .plain .fatArrow ['=', '>'] rest
    | _ => oneOrTwo '=' '=' .assign .eqEq cs
  | '&' => doubled '&' .andAnd cs
  | '|' => doubled '|' .orOr cs
  | '"' => stringLiteral cs
  | c =>
    if isLetter c || c = '_' then word c cs
    else if isDecimal c then number c cs
    else unexpected c cs

/-! ### Progress -/

theorem length_dropWhile_le {α : Type} (p : α → Bool) (xs : List α) :
    (xs.dropWhile p).length ≤ xs.length :=
  (List.dropWhile_sublist p).length_le

theorem rest_stringBody (cs : List Char) {s taken rest : List Char}
    (h : stringBody cs = some (s, taken, rest)) : rest.length < cs.length := by
  fun_induction stringBody cs generalizing s taken rest with
  | case1 => simp at h
  | case2 cs => simp at h; simp [h]
  | case3 => simp at h
  | case4 c cs ih =>
    obtain ⟨⟨s', t', r'⟩, hs, he⟩ := Option.map_eq_some_iff.1 h
    have := ih hs
    simp only [Prod.mk.injEq] at he
    simp only [List.length_cons, ← he.2.2]
    omega
  | case5 c cs _ _ _ ih =>
    obtain ⟨⟨s', t', r'⟩, hs, he⟩ := Option.map_eq_some_iff.1 h
    have := ih hs
    simp only [Prod.mk.injEq] at he
    simp only [List.length_cons, ← he.2.2]
    omega

theorem rest_oneOrTwo (a b : Char) (k l : Kind) (cs : List Char) :
    (oneOrTwo a b k l cs).rest.length ≤ cs.length := by
  unfold oneOrTwo
  split
  · simp [Lexeme.plain]
  · split <;> simp [Lexeme.plain]

theorem rest_doubled (a : Char) (k : Kind) (cs : List Char) :
    (doubled a k cs).rest.length ≤ cs.length := by
  unfold doubled
  split
  · simp [unexpected, Lexeme.wrong]
  · split <;> simp [unexpected, Lexeme.wrong, Lexeme.plain]

theorem rest_word (c : Char) (cs : List Char) : (word c cs).rest.length ≤ cs.length :=
  length_dropWhile_le _ _

theorem rest_radixInteger (radix : String) (p : Char → Bool) (lead cs : List Char) :
    (radixInteger radix p lead cs).rest.length ≤ cs.length := by
  have h := length_dropWhile_le (fun c => isLetter c || isDecimal c) cs
  unfold radixInteger
  dsimp only
  split
  · exact h
  · split <;> exact h

theorem length_exponentSign (cs : List Char) : (exponentSign cs).2.length ≤ cs.length := by
  unfold exponentSign
  split <;> simp

theorem rest_exponent (taken cs : List Char) : (exponent taken cs).rest.length ≤ cs.length := by
  unfold exponent
  split
  · simp [Lexeme.plain]
  · rename_i e cs
    split
    · have h := length_exponentSign cs
      have h' := length_dropWhile_le isDecimal (exponentSign cs).2
      dsimp only
      split <;> simp only [Lexeme.wrong, Lexeme.plain, List.length_cons] <;> omega
    · simp [Lexeme.plain]

theorem rest_integer (first : Char) (taken rest : List Char) :
    (decimal.integer first taken rest).rest = rest := by
  unfold decimal.integer
  split
  · split <;> rfl
  · rfl

theorem rest_decimal (first : Char) (cs : List Char) :
    (decimal first cs).rest.length ≤ cs.length := by
  have h := length_dropWhile_le isDecimal cs
  unfold decimal
  dsimp only
  split
  · rename_i d ds hd
    rw [hd] at h
    split
    · have h₁ := rest_exponent (first :: cs.takeWhile isDecimal ++
        '.' :: (d :: ds).takeWhile isDecimal) ((d :: ds).dropWhile isDecimal)
      have h₂ := length_dropWhile_le isDecimal (d :: ds)
      simp only [List.length_cons] at h h₂
      simp only [List.cons_append] at h₁ ⊢
      omega
    · rw [rest_integer, hd]; exact h
  · rw [rest_integer]; exact h

theorem rest_number (first : Char) (cs : List Char) :
    (number first cs).rest.length ≤ cs.length := by
  unfold number
  split
  · split
    · exact Nat.le_succ_of_le (rest_radixInteger ..)
    · exact Nat.le_succ_of_le (rest_radixInteger ..)
    · exact Nat.le_succ_of_le (rest_radixInteger ..)
    · exact Nat.le_succ_of_le (rest_radixInteger ..)
    · exact rest_decimal ..
  · exact rest_decimal ..

theorem rest_stringLiteral (cs : List Char) : (stringLiteral cs).rest.length ≤ cs.length := by
  unfold stringLiteral
  split
  · rename_i h
    exact Nat.le_of_lt (rest_stringBody cs h)
  · simp [Lexeme.wrong]

/-- A lexeme takes at least the character it starts with. -/
theorem rest_lexeme (c : Char) (cs : List Char) : (lexeme c cs).rest.length ≤ cs.length := by
  unfold lexeme
  split
  all_goals first
    | exact Nat.le_refl _
    | exact rest_oneOrTwo ..
    | exact rest_doubled ..
    | exact rest_stringLiteral ..
    | skip
  · split
    · simp [Lexeme.plain]
    · exact rest_oneOrTwo ..
  · split
    · exact rest_word ..
    · split
      · exact rest_number ..
      · exact Nat.le_refl _

theorem length_skip (mode : Mode) (pos : Nat) (cs : List Char) {pos' : Nat} {rest : List Char}
    (h : skip mode pos cs = .next pos' rest) : rest.length ≤ cs.length := by
  fun_induction skip mode pos cs with
  | case1 => simp_all
  | case2 _ _ ih => have := ih h; simp only [List.length_cons]; omega
  | case3 _ _ ih => have := ih h; simp only [List.length_cons]; omega
  | case4 _ _ _ _ _ _ ih => have := ih h; simp only [List.length_cons]; omega
  | case5 => simp_all
  | case6 => simp_all
  | case7 => simp_all
  | case8 _ _ _ ih => have := ih h; simp only [List.length_cons]; omega
  | case9 _ _ _ _ _ ih => have := ih h; simp only [List.length_cons]; omega
  | case10 => simp_all
  | case11 _ _ _ ih => have := ih h; simp only [List.length_cons]; omega
  | case12 _ _ _ _ _ ih => have := ih h; simp only [List.length_cons]; omega

/-! ### Tokens -/

/-- The token at an offset, and where and with what the text goes on. -/
def next (pos : Nat) (cs : List Char) : Token × Nat × List Char :=
  match skip .code pos cs with
  | .unterminated start stop =>
    (⟨.invalid, "unterminated block comment", ⟨start, stop⟩⟩, stop, [])
  | .next pos [] => (⟨.endOfInput, "", ⟨pos, pos⟩⟩, pos, [])
  | .next pos (c :: rest) =>
    if c = '\x00' ∧ rest = [] then (⟨.endOfInput, "", ⟨pos, pos + 1⟩⟩, pos + 1, [])
    else
      let l := lexeme c rest
      let stop := pos + Utf8.size l.taken
      (⟨l.kind, l.text, ⟨pos, stop⟩⟩, stop, l.rest)

theorem skip_code_nil (pos : Nat) : skip .code pos [] = .next pos [] := by
  simp [skip]

/-- Every token before the end of input takes something. -/
theorem next_progress (pos : Nat) (cs : List Char) (h : (next pos cs).1.kind ≠ .endOfInput) :
    (next pos cs).2.2.length < cs.length := by
  revert h
  unfold next
  split
  · intro _
    cases cs with
    | nil => simp_all [skip_code_nil]
    | cons => simp
  · simp
  · rename_i pos' c rest hs
    have hl := length_skip _ _ _ hs
    split
    · simp
    · intro _
      have := rest_lexeme c rest
      simp only [List.length_cons] at hl ⊢
      omega

/-- The tokens from an offset on, through the first end of input. -/
def tokensFrom (pos : Nat) (cs : List Char) : List Token :=
  let t := next pos cs
  if t.1.kind = .endOfInput then [t.1] else t.1 :: tokensFrom t.2.1 t.2.2
termination_by cs.length
decreasing_by exact next_progress pos cs (by assumption)

/-- The tokens of a text. -/
def tokens (source : String) : List Token :=
  tokensFrom 0 source.toList

/-- Puts the tokens of a text into a buffer, which must be empty. -/
def fill? (buffer : List Token) (source : String) : Option (List Token) :=
  if buffer = [] then some (tokens source) else none

/-- The first `n` tokens of a text; once it has ended, its end again and again. -/
def firstTokens (source : String) (n : Nat) : List Token :=
  go n 0 source.toList
where
  go : Nat → Nat → List Char → List Token
    | 0, _, _ => []
    | n + 1, pos, cs => let t := next pos cs; t.1 :: go n t.2.1 t.2.2

end TinyScript.Token
