import Mathlib.Data.List.Chain
import TinyScript.Proofs.Token.Lexemes

/-! Tokens tile their source. The lexer counts bytes on its way through the
characters, so a span is a place of the source only if the count has kept in step:
every lexeme and every gap is cut off the front of what is left, whatever its
characters, and the offset moves by their size. Between tokens stand blanks and
comments alone, and after the end of input comes nothing but the end of input. -/

namespace TinyScript

open Text (Span)
open Text.Utf8 (size)

/-! ### What a span covers -/

namespace Text.Span

theorem dropBytes_append (cs rest : List Char) : dropBytes (size cs) (cs ++ rest) = some rest := by
  induction cs with
  | nil => simp [dropBytes]
  | cons c cs ih =>
    obtain ⟨n, hn⟩ := Nat.exists_eq_add_of_lt (Nat.add_pos_left c.utf8Size_pos (size cs))
    rw [Utf8.size_cons, List.cons_append, hn, Nat.zero_add, dropBytes, if_pos (by omega),
      ← ih]
    congr 1
    omega

theorem takeBytes_append (cs rest : List Char) : takeBytes (size cs) (cs ++ rest) = some cs := by
  induction cs with
  | nil => simp [takeBytes]
  | cons c cs ih =>
    obtain ⟨n, hn⟩ := Nat.exists_eq_add_of_lt (Nat.add_pos_left c.utf8Size_pos (size cs))
    have hsize : n + 1 - c.utf8Size = size cs := by omega
    rw [Utf8.size_cons, List.cons_append, hn, Nat.zero_add, takeBytes, if_pos (by omega), hsize,
      ih]
    rfl

/-- A span whose bounds are counted off whole characters covers those between. -/
theorem text_append (before covered after : List Char) :
    (Span.mk (size before) (size before + size covered)).text (before ++ (covered ++ after)) =
      .ok covered := by
  unfold text
  dsimp only
  rw [if_neg (by omega), Utf8.size_append, if_neg (by omega), Utf8.size_append, if_neg (by omega),
    dropBytes_append]
  dsimp only
  rw [length, Nat.add_sub_cancel_left, takeBytes_append]

end Text.Span

theorem Text.Utf8.size_toList (s : String) : size s.toList = s.utf8ByteSize := by
  rw [← length_encode, encode, String.utf8ByteSize, ← s.ofList_toList, String.toByteArray_ofList,
    String.toList_ofList, List.utf8Encode, List.size_toByteArray]

namespace Token

/-! ### Gaps -/

/-- Blanks and comments. A line comment ends before its line does, and a block
comment with the first `*/` after its beginning. -/
inductive Trivia : List Char → Prop where
  | nil : Trivia []
  | blank {c : Char} {cs : List Char} : isBlank c = true → Trivia cs → Trivia (c :: cs)
  | line {comment cs : List Char} : '\n' ∉ comment → (∀ c ∈ cs.head?, c = '\n') → Trivia cs →
      Trivia ('/' :: '/' :: (comment ++ cs))
  | block {comment cs : List Char} : ¬['*', '/'] <:+: comment → Trivia cs →
      Trivia ('/' :: '*' :: (comment ++ '*' :: '/' :: cs))

/-- What may be skipped from where a skipper stands. -/
def Mode.Skips : Mode → List Char → Prop
  | .code, gap => Trivia gap
  | .line, gap => ∃ comment cs, gap = comment ++ cs ∧ '\n' ∉ comment ∧
      (∀ c ∈ cs.head?, c = '\n') ∧ Trivia cs
  | .block _, gap => ∃ comment cs, gap = comment ++ '*' :: '/' :: cs ∧
      ¬['*', '/'] <:+: comment ∧ Trivia cs

/-- What a skipper finds from an offset on. A comment without an end is either the
one it stands in or begins after a gap. -/
def Mode.Finds (mode : Mode) (pos : Nat) (cs : List Char) : Gap → Prop
  | .next pos' rest => ∃ gap, cs = gap ++ rest ∧ pos' = pos + size gap ∧ mode.Skips gap
  | .unterminated start stop => stop = pos + size cs ∧ (mode = .block start ∨
      ∃ gap comment, cs = gap ++ comment ∧ comment ≠ [] ∧ start = pos + size gap ∧ mode.Skips gap)

/-- A skipper takes some characters and goes on from where they lead. -/
theorem Mode.Finds.step {mode mode' : Mode} {pos : Nat} {cs : List Char} {g : Gap}
    (taken : List Char)
    (hskips : ∀ gap more, cs = gap ++ more → mode'.Skips gap → mode.Skips (taken ++ gap))
    (hblock : ∀ start, mode' = .block start →
      mode = .block start ∨ taken ≠ [] ∧ start = pos ∧ mode.Skips [])
    (h : mode'.Finds (pos + size taken) cs g) : mode.Finds pos (taken ++ cs) g := by
  cases g with
  | next pos' rest =>
    obtain ⟨gap, rfl, rfl, hgap⟩ := h
    refine ⟨taken ++ gap, by simp, by simp +arith, hskips gap rest rfl hgap⟩
  | unterminated start stop =>
    obtain ⟨rfl, hown | ⟨gap, comment, rfl, hne, rfl, hgap⟩⟩ := h
    · refine ⟨by simp +arith, (hblock start hown).imp_right ?_⟩
      rintro ⟨hne, rfl, hnil⟩
      exact ⟨[], taken ++ cs, rfl, by simp [hne], rfl, hnil⟩
    · refine ⟨by simp +arith, .inr ⟨taken ++ gap, comment, by simp, hne, by simp +arith, ?_⟩⟩
      exact hskips gap comment rfl hgap

theorem skip_finds (mode : Mode) (pos : Nat) (cs : List Char) :
    mode.Finds pos cs (skip mode pos cs) := by
  fun_induction skip mode pos cs with
  | case1 pos | case5 pos c cs => exact ⟨[], rfl, rfl, .nil⟩
  | case2 pos cs ih =>
    refine Mode.Finds.step ['/', '/'] ?_ (by rintro _ ⟨⟩) ih
    rintro _ more - ⟨comment, cs, rfl, hcomment, hhead, hcs⟩
    show Trivia ('/' :: '/' :: (comment ++ cs))
    exact .line hcomment hhead hcs
  | case3 pos cs ih =>
    refine Mode.Finds.step ['/', '*'] ?_ ?_ ih
    · rintro _ more - ⟨comment, cs, rfl, hcomment, hcs⟩
      exact .block hcomment hcs
    · rintro _ ⟨⟩
      exact .inr ⟨by simp, rfl, .nil⟩
  | case4 pos c cs _ _ hc ih =>
    refine Mode.Finds.step [c] ?_ (by rintro _ ⟨⟩) ih
    exact fun gap _ _ hgap => .blank hc hgap
  | case6 pos | case7 pos cs => exact ⟨[], rfl, rfl, [], [], rfl, by simp, by simp, .nil⟩
  | case8 pos cs _ ih =>
    refine Mode.Finds.step ['\n'] ?_ (by rintro _ ⟨⟩) ih
    exact fun gap _ _ hgap => ⟨[], '\n' :: gap, rfl, by simp, by simp, .blank rfl hgap⟩
  | case9 pos c cs _ hc ih =>
    refine Mode.Finds.step [c] ?_ (by rintro _ ⟨⟩) ih
    rintro _ more - ⟨comment, cs, rfl, hcomment, hcs⟩
    exact ⟨c :: comment, cs, rfl, by simp [hcomment, Ne.symm hc], hcs⟩
  | case10 start pos => exact ⟨rfl, .inl rfl⟩
  | case11 start pos cs ih =>
    refine Mode.Finds.step ['*', '/'] ?_ (by rintro _ ⟨⟩) ih
    exact fun gap _ _ hgap => ⟨[], gap, rfl, by simp, hgap⟩
  | case12 start pos c cs hc ih =>
    refine Mode.Finds.step [c] ?_ (fun _ h => .inl h) ih
    rintro _ more rfl ⟨comment, cs, rfl, hcomment, hcs⟩
    refine ⟨c :: comment, cs, rfl, ?_, hcs⟩
    -- The comment would end with this star if the next character were a slash.
    rw [List.infix_cons_iff]
    rintro (⟨more', heq⟩ | hinner)
    · cases heq
      exact hc _ rfl rfl
    · exact hcomment hinner

/-! ### Lexemes -/

/-- A lexeme cut off the front of some characters. -/
structure Lexeme.Cut (l : Lexeme) (cs : List Char) : Prop where
  whole : cs = l.taken ++ l.rest
  kind : l.kind ≠ .endOfInput
  text : l.kind ≠ .stringLiteral → l.kind ≠ .invalid → l.text = String.ofList l.taken

theorem Lexeme.cut_plain {kind : Kind} (hkind : kind ≠ .endOfInput) (taken rest : List Char) :
    (Lexeme.plain kind taken rest).Cut (taken ++ rest) :=
  ⟨rfl, hkind, fun _ _ => rfl⟩

theorem Lexeme.cut_wrong (message : String) (taken rest : List Char) :
    (Lexeme.wrong message taken rest).Cut (taken ++ rest) :=
  ⟨rfl, fun h => (nomatch h), fun _ h => absurd rfl h⟩

theorem oneOrTwo_cut (first second : Char) {single double : Kind} (hsingle : single ≠ .endOfInput)
    (hdouble : double ≠ .endOfInput) (cs : List Char) :
    (oneOrTwo first second single double cs).Cut (first :: cs) := by
  unfold oneOrTwo
  split
  · exact Lexeme.cut_plain hsingle [first] []
  · split
    · exact Lexeme.cut_plain hdouble [first, _] _
    · exact Lexeme.cut_plain hsingle [first] _

theorem doubled_cut (first : Char) {kind : Kind} (hkind : kind ≠ .endOfInput) (cs : List Char) :
    (doubled first kind cs).Cut (first :: cs) := by
  unfold doubled
  split
  · exact Lexeme.cut_wrong _ [first] []
  · split
    · exact Lexeme.cut_plain hkind [first, _] _
    · exact Lexeme.cut_wrong _ [first] _

theorem wordKind_ne_endOfInput (s : String) : wordKind s ≠ .endOfInput := by
  have hkeywords : Kind.endOfInput ∉ keywords.map Prod.snd := by decide
  rcases wordKind_eq s with h | h
  · simp [h]
  · exact fun heq => hkeywords (heq ▸ h)

theorem word_cut (first : Char) (cs : List Char) : (word first cs).Cut (first :: cs) := by
  have hcs : first :: cs = first :: cs.takeWhile isWordChar ++ cs.dropWhile isWordChar := by
    rw [List.cons_append, List.takeWhile_append_dropWhile]
  rw [hcs]
  exact Lexeme.cut_plain (wordKind_ne_endOfInput _) _ _

theorem radixInteger_cut (radix : String) (isDigit : Char → Bool) (lead cs : List Char) :
    (radixInteger radix isDigit lead cs).Cut (lead ++ cs) := by
  have hcs : lead ++ cs = lead ++ cs.takeWhile (fun c => isLetter c || isDecimal c) ++
      cs.dropWhile fun c => isLetter c || isDecimal c := by
    rw [List.append_assoc, List.takeWhile_append_dropWhile]
  rw [hcs]
  unfold radixInteger
  dsimp only
  split
  · exact Lexeme.cut_wrong _ _ _
  · split
    · exact Lexeme.cut_wrong _ _ _
    · exact Lexeme.cut_plain (by nofun) _ _

theorem exponentSign_append (cs : List Char) : (exponentSign cs).1 ++ (exponentSign cs).2 = cs := by
  unfold exponentSign
  split <;> rfl

theorem exponent_cut (taken cs : List Char) : (exponent taken cs).Cut (taken ++ cs) := by
  unfold exponent
  split
  · exact Lexeme.cut_plain (by nofun) _ _
  · rename_i e cs
    split
    · have hcs : taken ++ e :: cs = taken ++ e :: (exponentSign cs).1 ++
          (exponentSign cs).2.takeWhile isDecimal ++ (exponentSign cs).2.dropWhile isDecimal := by
        rw [List.append_assoc, List.takeWhile_append_dropWhile, List.append_assoc, List.cons_append,
          exponentSign_append]
      rw [hcs]
      dsimp only
      split
      · exact Lexeme.cut_wrong _ _ _
      · exact Lexeme.cut_plain (by nofun) _ _
    · exact Lexeme.cut_plain (by nofun) _ _

theorem integer_cut (first : Char) (taken rest : List Char) :
    (decimal.integer first taken rest).Cut (taken ++ rest) := by
  unfold decimal.integer
  split
  · split
    · exact Lexeme.cut_wrong _ _ _
    · exact Lexeme.cut_plain (by nofun) _ _
  · exact Lexeme.cut_plain (by nofun) _ _

theorem decimal_cut (first : Char) (cs : List Char) : (decimal first cs).Cut (first :: cs) := by
  have hcs : first :: cs = first :: cs.takeWhile isDecimal ++ cs.dropWhile isDecimal := by
    rw [List.cons_append, List.takeWhile_append_dropWhile]
  rw [hcs]
  unfold decimal
  dsimp only
  split
  · rename_i d ds hd
    split
    · have h := exponent_cut (first :: cs.takeWhile isDecimal ++
        '.' :: (d :: ds).takeWhile isDecimal) ((d :: ds).dropWhile isDecimal)
      rwa [List.append_assoc, List.cons_append (a := '.'), List.takeWhile_append_dropWhile,
        ← hd] at h
    · exact integer_cut _ _ _
  · exact integer_cut _ _ _

theorem number_cut (first : Char) (cs : List Char) : (number first cs).Cut (first :: cs) := by
  unfold number
  split
  · rename_i hfirst
    subst hfirst
    split
    · exact radixInteger_cut _ _ ['0', 'x'] _
    · exact radixInteger_cut _ _ ['0', 'X'] _
    · exact radixInteger_cut _ _ ['0', 'b'] _
    · exact radixInteger_cut _ _ ['0', 'B'] _
    · exact decimal_cut _ _
  · exact decimal_cut _ _

theorem stringBody_append {cs s taken rest : List Char}
    (h : stringBody cs = some (s, taken, rest)) : cs = taken ++ rest := by
  fun_induction stringBody cs generalizing s taken rest with
  | case1 => cases h
  | case2 cs =>
    cases h
    rfl
  | case3 => cases h
  | case4 c cs ih =>
    obtain ⟨⟨s', taken', rest'⟩, hbody, heq⟩ := Option.map_eq_some_iff.1 h
    cases heq
    rw [ih hbody, List.cons_append, List.cons_append]
  | case5 c cs _ _ _ ih =>
    obtain ⟨⟨s', taken', rest'⟩, hbody, heq⟩ := Option.map_eq_some_iff.1 h
    cases heq
    rw [ih hbody, List.cons_append]

theorem stringLiteral_cut (cs : List Char) : (stringLiteral cs).Cut ('"' :: cs) := by
  unfold stringLiteral
  split
  · rename_i s taken rest hbody
    refine ⟨?_, fun h => (nomatch h), fun h => absurd rfl h⟩
    rw [stringBody_append hbody, List.cons_append]
  · have h := Lexeme.cut_wrong "unterminated string literal" ('"' :: cs) []
    rwa [List.append_nil] at h

theorem lexeme_cut (c : Char) (cs : List Char) : (lexeme c cs).Cut (c :: cs) := by
  unfold lexeme
  split
  all_goals first
    | exact Lexeme.cut_plain (by nofun) [_] cs
    | exact oneOrTwo_cut _ _ (by nofun) (by nofun) cs
    | exact doubled_cut _ (by nofun) cs
    | exact stringLiteral_cut cs
    | skip
  · split
    · exact Lexeme.cut_plain (by nofun) ['=', '>'] _
    · exact oneOrTwo_cut _ _ (by nofun) (by nofun) cs
  · split
    · exact word_cut _ cs
    · split
      · exact number_cut _ cs
      · exact Lexeme.cut_wrong _ [_] cs

/-! ### Tokens -/

/-- A token after a gap: the characters it takes and its span are the same place. -/
structure Placed (pos : Nat) (gap taken : List Char) (t : Token) : Prop where
  after : Trivia gap
  span : t.span = ⟨pos + size gap, pos + size gap + size taken⟩
  some : t.kind ≠ .endOfInput → taken ≠ []
  text : t.kind ∉ [.stringLiteral, .invalid, .endOfInput] → t.text = String.ofList taken

/-- The next token is cut off the front, and nothing is left after the end of input. -/
theorem next_placed (pos : Nat) (cs : List Char) :
    ∃ gap taken, cs = gap ++ (taken ++ (next pos cs).2.2) ∧
      Placed pos gap taken (next pos cs).1 ∧
      (next pos cs).2.1 = pos + size gap + size taken ∧
      ((next pos cs).1.kind = .endOfInput → (next pos cs).2.2 = []) := by
  have hskip := skip_finds .code pos cs
  unfold next
  split
  · rename_i start stop h
    rw [h] at hskip
    obtain ⟨rfl, hown | ⟨gap, comment, rfl, hne, rfl, hgap⟩⟩ := hskip
    · cases hown
    · refine ⟨gap, comment, by simp, ⟨hgap, ?_, fun _ => hne, ?_⟩, ?_, fun _ => rfl⟩
      · simp +arith
      · simp
      · simp +arith
  · rename_i pos' h
    rw [h] at hskip
    obtain ⟨gap, rfl, rfl, hgap⟩ := hskip
    exact ⟨gap, [], by simp, ⟨hgap, rfl, fun h => absurd rfl h, by simp⟩, rfl, fun _ => rfl⟩
  · rename_i pos' c rest h
    rw [h] at hskip
    obtain ⟨gap, rfl, rfl, hgap⟩ := hskip
    split
    · rename_i hnul
      obtain ⟨rfl, rfl⟩ := hnul
      refine ⟨gap, ['\x00'], by simp, ⟨hgap, rfl, fun _ => by simp, by simp⟩, rfl, fun _ => rfl⟩
    · have hcut := lexeme_cut c rest
      have hne : (lexeme c rest).taken ≠ [] := by
        intro hnil
        have hlength := rest_lexeme c rest
        have hwhole := congrArg List.length hcut.whole
        rw [hnil] at hwhole
        simp only [List.length_cons, List.nil_append] at hwhole
        omega
      refine ⟨gap, (lexeme c rest).taken, ?_, ⟨hgap, rfl, fun _ => hne, ?_⟩, rfl, ?_⟩
      · rw [← hcut.whole]
      · intro hkind
        simp only [List.mem_cons, not_or] at hkind
        exact hcut.text hkind.1 hkind.2.1
      · exact fun hend => absurd hend hcut.kind

/-- Nothing but blanks and comments lies from one byte of a source to another. -/
def Gapped (source : String) (lo hi : Nat) : Prop :=
  lo ≤ hi ∧ ∃ gap, (Span.mk lo hi).text source.toList = .ok gap ∧ Trivia gap

/-- The place and the text of a token in a source. -/
structure Within (source : String) (t : Token) : Prop where
  ordered : t.span.lo ≤ t.span.hi
  inside : t.span.hi ≤ source.utf8ByteSize
  nonempty : t.kind ≠ .endOfInput → t.span.lo < t.span.hi
  covers : ∃ covered, t.span.text source.toList = .ok covered ∧
    (t.kind ∉ [.stringLiteral, .invalid, .endOfInput] → t.text = String.ofList covered)

/-- Tokens that tile a source from an offset on. -/
structure Tiles (source : String) (pos : Nat) (ts : List Token) : Prop where
  within : ∀ t ∈ ts, Within source t
  /-- Each token begins where the one before it has ended, the gap between them apart. -/
  gapped : List.IsChain (fun s t => Gapped source s.hi t.lo) (⟨pos, pos⟩ :: ts.map (·.span))
  count : ts.length + pos ≤ source.utf8ByteSize + 1
  /-- The last token is the only end of input, and it ends the source. -/
  ends : ∃ inner last, ts = inner ++ [last] ∧ (∀ t ∈ inner, t.kind ≠ .endOfInput) ∧
    last.kind = .endOfInput ∧ last.span.hi = source.utf8ByteSize

theorem Placed.gapped {source : String} {before gap taken rest : List Char} {t : Token}
    (h : Placed (size before) gap taken t)
    (hsource : source.toList = before ++ (gap ++ (taken ++ rest))) :
    Gapped source (size before) t.span.lo := by
  rw [h.span]
  refine ⟨Nat.le_add_right _ _, gap, ?_, h.after⟩
  rw [hsource]
  exact Text.Span.text_append before gap (taken ++ rest)

theorem Placed.within {source : String} {before gap taken rest : List Char} {t : Token}
    (h : Placed (size before) gap taken t)
    (hsource : source.toList = before ++ (gap ++ (taken ++ rest))) : Within source t := by
  refine ⟨?_, ?_, ?_, taken, ?_, h.text⟩
  · rw [h.span]
    exact Nat.le_add_right _ _
  · rw [h.span, ← Text.Utf8.size_toList, hsource]
    simp +arith
  · intro hkind
    obtain ⟨c, cs, rfl⟩ := List.exists_cons_of_ne_nil (h.some hkind)
    have hpos := c.utf8Size_pos
    rw [h.span]
    simp only [Text.Utf8.size_cons]
    omega
  · rw [h.span, hsource, ← Text.Utf8.size_append, ← List.append_assoc]
    exact Text.Span.text_append (before ++ gap) taken rest

/-- The end of input, when nothing is left after it. -/
theorem Placed.tiles_last {source : String} {before gap taken : List Char} {t : Token}
    (h : Placed (size before) gap taken t) (hsource : source.toList = before ++ (gap ++ taken))
    (hend : t.kind = .endOfInput) : Tiles source (size before) [t] := by
  have hsource' : source.toList = before ++ (gap ++ (taken ++ [])) := by
    rw [hsource, List.append_nil]
  have hhi : t.span.hi = source.utf8ByteSize := by
    rw [h.span, ← Text.Utf8.size_toList, hsource]
    simp +arith
  have hlo : size before ≤ t.span.lo := (h.gapped hsource').1
  have hwithin := h.within hsource'
  refine ⟨?_, ?_, ?_, [], t, rfl, by simp, hend, hhi⟩
  · simpa using hwithin
  · simpa using h.gapped hsource'
  · have := hwithin.ordered
    simp only [List.length_singleton]
    omega

/-- Any other token, before the tokens of what is left. -/
theorem Placed.tiles_cons {source : String} {before gap taken rest : List Char} {t : Token}
    {ts : List Token} (h : Placed (size before) gap taken t)
    (hsource : source.toList = before ++ (gap ++ (taken ++ rest))) (hkind : t.kind ≠ .endOfInput)
    (hts : Tiles source (size before + size gap + size taken) ts) :
    Tiles source (size before) (t :: ts) := by
  have hhi : t.span.hi = size before + size gap + size taken := by rw [h.span]
  have hwithin := h.within hsource
  have hgapped := h.gapped hsource
  obtain ⟨inner, last, rfl, hinner, hlast⟩ := hts.ends
  refine ⟨?_, ?_, ?_, t :: inner, last, rfl, ?_, hlast⟩
  · exact List.forall_mem_cons.2 ⟨hwithin, hts.within⟩
  · have hchain := List.isChain_cons.1 hts.gapped
    refine List.isChain_cons_cons.2 ⟨hgapped, List.isChain_cons.2 ⟨?_, hchain.2⟩⟩
    rw [hhi]
    exact hchain.1
  · have hlt := hwithin.nonempty hkind
    have hle := hgapped.1
    have hcount := hts.count
    simp only [List.length_cons]
    omega
  · exact List.forall_mem_cons.2 ⟨hkind, hinner⟩

theorem tokensFrom_tiles {source : String} (before cs : List Char)
    (hsource : source.toList = before ++ cs) :
    Tiles source (size before) (tokensFrom (size before) cs) := by
  obtain ⟨gap, taken, hcs, hplaced, hnext, hrest⟩ := next_placed (size before) cs
  rw [hcs] at hsource
  rw [tokensFrom]
  by_cases hend : (next (size before) cs).1.kind = .endOfInput
  · rw [if_pos hend]
    rw [hrest hend, List.append_nil] at hsource
    exact hplaced.tiles_last hsource hend
  · rw [if_neg hend]
    refine hplaced.tiles_cons hsource hend ?_
    have hsize : size before + size gap + size taken = size (before ++ (gap ++ taken)) := by
      simp +arith
    rw [hnext, hsize]
    exact tokensFrom_tiles (before ++ (gap ++ taken)) _ (by simp [hsource])
termination_by cs.length
decreasing_by exact next_progress _ _ hend

/-- Every token begins after the beginning of the one before it. -/
theorem tokensFrom_ordered (pos : Nat) (cs : List Char) :
    (∀ t ∈ tokensFrom pos cs, pos ≤ t.span.lo) ∧
      (tokensFrom pos cs).Pairwise fun s t => s.span.lo < t.span.lo := by
  obtain ⟨gap, taken, -, hplaced, hnext, -⟩ := next_placed pos cs
  have hlo : (next pos cs).1.span.lo = pos + size gap := by rw [hplaced.span]
  rw [tokensFrom]
  by_cases hend : (next pos cs).1.kind = .endOfInput
  · rw [if_pos hend]
    simp [hlo]
  · rw [if_neg hend]
    obtain ⟨c, cs', htaken⟩ := List.exists_cons_of_ne_nil (hplaced.some hend)
    have hpos := c.utf8Size_pos
    have hsize : size taken = c.utf8Size + size cs' := by rw [htaken, Text.Utf8.size_cons]
    obtain ⟨hle, hpairwise⟩ := tokensFrom_ordered (next pos cs).2.1 (next pos cs).2.2
    refine ⟨List.forall_mem_cons.2 ⟨?_, fun t ht => ?_⟩, List.pairwise_cons.2 ⟨fun t ht => ?_, ?_⟩⟩
    · omega
    · have := hle t ht
      omega
    · have := hle t ht
      omega
    · exact hpairwise
termination_by cs.length
decreasing_by exact next_progress _ _ hend

/-! ### After the end -/

/-- The end of input at an offset. -/
def ended (pos : Nat) : Token := ⟨.endOfInput, "", ⟨pos, pos⟩⟩

theorem go_nil (k pos : Nat) : firstTokens.go k pos [] = List.replicate k (ended pos) := by
  have hnext : next pos [] = (ended pos, pos, []) := by
    rw [next, skip_code_nil]
    rfl
  induction k with
  | zero => rfl
  | succ k ih =>
    rw [firstTokens.go, hnext, List.replicate_succ, ← ih]

/-- Asking for tokens again and again gives the tokens of the text, and then its end
as often as one asks. -/
theorem go_tokensFrom {source : String} (before cs : List Char)
    (hsource : source.toList = before ++ cs) (k : Nat) :
    firstTokens.go ((tokensFrom (size before) cs).length + k) (size before) cs =
      tokensFrom (size before) cs ++ List.replicate k (ended source.utf8ByteSize) := by
  obtain ⟨gap, taken, hcs, -, hnext, hrest⟩ := next_placed (size before) cs
  have hsize : size before + size gap + size taken = size (before ++ (gap ++ taken)) := by
    simp +arith
  rw [hcs] at hsource
  rw [tokensFrom]
  by_cases hend : (next (size before) cs).1.kind = .endOfInput
  · rw [if_pos hend, List.length_singleton, Nat.add_comm 1 k, firstTokens.go, hnext, hrest hend,
      go_nil, hsize]
    rw [hrest hend, List.append_nil] at hsource
    rw [← hsource, Text.Utf8.size_toList]
    rfl
  · have hsource' : source.toList =
        before ++ (gap ++ taken) ++ (next (size before) cs).2.2 := by simp [hsource]
    rw [if_neg hend, List.length_cons, Nat.add_right_comm, firstTokens.go, hnext, hsize,
      go_tokensFrom _ _ hsource' k]
    rfl
termination_by cs.length
decreasing_by exact next_progress _ _ hend

/-- **The tokens of a text tile it.** They lie in order inside it, with blanks and
comments between them, and end with its only end of input, which every later question
finds again at its last byte. -/
theorem tokens_tile (source : String) :
    Tiles source 0 (tokens source) ∧ ∀ k, firstTokens source ((tokens source).length + k) =
      tokens source ++ List.replicate k (ended source.utf8ByteSize) :=
  ⟨tokensFrom_tiles [] source.toList rfl, go_tokensFrom [] source.toList rfl⟩

end Token

end TinyScript
