import TinyScript.Proofs.Token.Masking

/-! Texts whose NULs are taken for the end. A line comment ends at a NUL, and a NUL where
a token is expected is the end of the text if nothing follows it. Of any other text the
tokens keep their kinds and places when its NULs are exchanged for another control
character, and of these texts they never do. -/

namespace TinyScript.Token

open Text.Utf8 (size)

/-! ### Gaps -/

/-- What is left of a text after blanks and closed comments. -/
inductive Leads : List Char → Prop where
  | ended : Leads []
  | token {c : Char} {cs : List Char} (hblank : isBlank c = false)
      (hslash : c = '/' → cs.head? ≠ some '/' ∧ cs.head? ≠ some '*') : Leads (c :: cs)
  | line {comment : List Char} (hcomment : Comment comment) : Leads ('/' :: '/' :: comment)
  | cut {comment cs : List Char} (hcomment : Comment comment) :
      Leads ('/' :: '/' :: (comment ++ '\x00' :: cs))
  | block {comment : List Char} (hcomment : ¬['*', '/'] <:+: comment) :
      Leads ('/' :: '*' :: comment)

theorem comment_cases (cs : List Char) :
    Comment cs ∨ ∃ comment c rest, cs = comment ++ c :: rest ∧ Comment comment ∧
      (c = '\n' ∨ c = '\x00') := by
  induction cs with
  | nil => exact .inl nofun
  | cons c cs ih =>
    by_cases hc : c = '\n' ∨ c = '\x00'
    · exact .inr ⟨[], c, cs, rfl, nofun, hc⟩
    · obtain hopen | ⟨comment, d, rest, rfl, hcomment, hd⟩ := ih
      · exact .inl (List.forall_mem_cons.2 ⟨not_or.1 hc, hopen⟩)
      · exact .inr ⟨c :: comment, d, rest, rfl,
          List.forall_mem_cons.2 ⟨not_or.1 hc, hcomment⟩, hd⟩

theorem block_cases (cs : List Char) :
    ¬['*', '/'] <:+: cs ∨
      ∃ comment rest, cs = comment ++ '*' :: '/' :: rest ∧ ¬['*', '/'] <:+: comment := by
  induction cs with
  | nil => exact .inl (by simp)
  | cons c cs ih =>
    by_cases hends : ['*', '/'] <+: c :: cs
    · obtain ⟨rest, hrest⟩ := hends
      exact .inr ⟨[], rest, hrest.symm, by simp⟩
    · obtain hnone | ⟨comment, rest, rfl, hcomment⟩ := ih
      · exact .inl (by simp [List.infix_cons_iff, hends, hnone])
      · refine .inr ⟨c :: comment, rest, rfl, ?_⟩
        rw [List.infix_cons_iff, not_or]
        exact ⟨fun h => hends (h.trans (by simp)), hcomment⟩

/-- Every text begins with blanks and closed comments, and then something else. -/
theorem exists_lead (cs : List Char) :
    ∃ gap rest, cs = gap ++ rest ∧ Filler gap ∧ Leads rest := by
  rcases cs with _ | ⟨c, cs⟩
  · exact ⟨[], [], rfl, .nil, .ended⟩
  by_cases hblank : isBlank c = true
  · obtain ⟨gap, rest, rfl, hgap, hleads⟩ := exists_lead cs
    exact ⟨c :: gap, rest, rfl, .blank hblank hgap, hleads⟩
  by_cases hline : c = '/' ∧ cs.head? = some '/'
  · obtain ⟨rfl, hhead⟩ := hline
    obtain ⟨cs, rfl⟩ := List.head?_eq_some_iff.1 hhead
    obtain hopen | ⟨comment, _, rest, rfl, hcomment, rfl | rfl⟩ := comment_cases cs
    · exact ⟨[], '/' :: '/' :: cs, rfl, .nil, .line hopen⟩
    · obtain ⟨gap, rest, rfl, hgap, hleads⟩ := exists_lead rest
      exact ⟨'/' :: '/' :: (comment ++ '\n' :: gap), rest, by simp, .line hcomment hgap, hleads⟩
    · exact ⟨[], '/' :: '/' :: (comment ++ '\x00' :: rest), rfl, .nil, .cut hcomment⟩
  by_cases hblock : c = '/' ∧ cs.head? = some '*'
  · obtain ⟨rfl, hhead⟩ := hblock
    obtain ⟨cs, rfl⟩ := List.head?_eq_some_iff.1 hhead
    obtain hopen | ⟨comment, rest, rfl, hcomment⟩ := block_cases cs
    · exact ⟨[], '/' :: '*' :: cs, rfl, .nil, .block hopen⟩
    · obtain ⟨gap, rest, rfl, hgap, hleads⟩ := exists_lead rest
      exact ⟨'/' :: '*' :: (comment ++ '*' :: '/' :: gap), rest, by simp,
        .block hcomment hgap, hleads⟩
  refine ⟨[], c :: cs, rfl, .nil, .token (Bool.eq_false_iff.2 hblank) fun hc => ?_⟩
  exact ⟨fun h => hline ⟨hc, h⟩, fun h => hblock ⟨hc, h⟩⟩
termination_by cs.length
decreasing_by all_goals (subst_vars; simp +arith)

theorem infix_masked (cs : List Char) : ['*', '/'] <:+: cs.map masked ↔ ['*', '/'] <:+: cs := by
  induction cs with
  | nil => rfl
  | cons c cs ih =>
    rw [List.map_cons, List.infix_cons_iff, List.infix_cons_iff, ih]
    have hstar := masked_eq_iff (c := c) (d := '*') (by decide)
    rcases cs with _ | ⟨d, cs⟩
    · simp [List.prefix_cons_iff]
    · have hslash := masked_eq_iff (c := d) (d := '/') (by decide)
      simp [List.cons_prefix_cons, @eq_comm _ '*', @eq_comm _ '/', hstar, hslash]

theorem Comment.masked {cs : List Char} (h : Comment cs) : cs.map masked = cs :=
  map_masked fun c hc => (h c hc).2

theorem Filler.masked {gap : List Char} (h : Filler gap) : Filler (gap.map masked) := by
  induction h with
  | nil => exact .nil
  | @blank c cs hc _ ih =>
    refine .blank ?_ ih
    rwa [class_masked (p := isBlank) (by decide)]
  | @line comment cs hcomment _ ih =>
    rw [List.map_cons, List.map_cons, List.map_append, Comment.masked hcomment]
    exact .line hcomment ih
  | @block comment cs hcomment _ ih =>
    rw [List.map_cons, List.map_cons, List.map_append]
    exact .block (by rwa [infix_masked]) ih

/-! ### The next token -/

theorem skip_token {c : Char} {cs : List Char} (hblank : isBlank c = false)
    (hslash : c = '/' → cs.head? ≠ some '/' ∧ cs.head? ≠ some '*') (pos : Nat) :
    skip .code pos (c :: cs) = .next pos (c :: cs) := by
  by_cases hc : c = '/'
  · obtain ⟨hline, hblock⟩ := hslash hc
    subst hc
    rcases cs with _ | ⟨d, cs⟩
    · simp [skip, hblank]
    · have hline : d ≠ '/' := by simpa using hline
      have hblock : d ≠ '*' := by simpa using hblock
      simp [skip, hblank, hline, hblock]
  · simp [skip, hblank, hc]

theorem skip_open {comment : List Char} (h : ¬['*', '/'] <:+: comment) (start pos : Nat) :
    skip (.block start) pos comment = .unterminated start (pos + size comment) := by
  induction comment generalizing pos with
  | nil => rfl
  | cons c comment ih =>
    rw [List.infix_cons_iff, not_or] at h
    have hends : ∀ rest, c = '*' → comment = '/' :: rest → False := by
      rintro rest rfl rfl
      exact h.1 (by simp)
    rw [skip]
    · rw [ih h.2, Text.Utf8.size_cons, Nat.add_assoc pos]
    · exact hends

/-- The same token but for its text, and the same text after it but for the characters
that are exchanged. -/
structure Agree (r r' : Token × Nat × List Char) : Prop where
  kind : r'.1.kind = r.1.kind
  span : r'.1.span = r.1.span
  stop : r'.2.1 = r.2.1
  rest : r'.2.2 = r.2.2.map masked

theorem agree_token {c : Char} {cs : List Char} (hblank : isBlank c = false)
    (hslash : c = '/' → cs.head? ≠ some '/' ∧ cs.head? ≠ some '*')
    (hlast : ¬(c = '\x00' ∧ cs = [])) (pos : Nat) :
    Agree (next pos (c :: cs)) (next pos ((c :: cs).map masked)) := by
  have hmasks := lexeme_masked c cs
  have hskip : skip .code pos (masked c :: cs.map masked) =
      .next pos (masked c :: cs.map masked) := by
    refine skip_token ((class_masked (by decide) c).trans hblank) (fun hc => ?_) pos
    rw [masked_eq_iff (by decide)] at hc
    simpa [masked_eq_iff] using hslash hc
  have hnul : ¬(masked c = '\x00' ∧ cs.map masked = []) := fun hnul => masked_ne c hnul.1
  simp only [next, List.map_cons, skip_token hblank hslash, hskip, if_neg hlast, if_neg hnul]
  exact ⟨hmasks.kind, by rw [hmasks.taken, size_masked], by rw [hmasks.taken, size_masked],
    hmasks.rest⟩

theorem agree_line {comment : List Char} (hcomment : Comment comment) (pos : Nat) :
    Agree (next pos ('/' :: '/' :: comment)) (next pos (('/' :: '/' :: comment).map masked)) := by
  have hskip : skip .code pos ('/' :: '/' :: comment) = .next (pos + 2 + size comment) [] := by
    have := skip_comment hcomment (pos + 2) []
    rw [List.append_nil] at this
    rw [skip, this, skip]
  have hmap : ('/' :: '/' :: comment).map masked = '/' :: '/' :: comment := by
    rw [List.map_cons, List.map_cons, hcomment.masked]
    rfl
  rw [hmap]
  unfold next
  rw [hskip]
  exact ⟨rfl, rfl, rfl, rfl⟩

theorem agree_block {comment : List Char} (hcomment : ¬['*', '/'] <:+: comment) (pos : Nat) :
    Agree (next pos ('/' :: '*' :: comment)) (next pos (('/' :: '*' :: comment).map masked)) := by
  have hskip : ∀ {comment : List Char}, ¬['*', '/'] <:+: comment →
      skip .code pos ('/' :: '*' :: comment) = .unterminated pos (pos + 2 + size comment) := by
    intro comment h
    rw [skip, skip_open h]
  rw [List.map_cons, List.map_cons]
  unfold next
  rw [hskip hcomment, show masked '/' = '/' from rfl, show masked '*' = '*' from rfl,
    hskip (by rwa [infix_masked]), size_masked]
  exact ⟨rfl, rfl, rfl, rfl⟩

/-- A NUL stands where the text is taken to end: in a line comment, or where a token is
expected and nothing follows. -/
inductive Ends : List Char → Prop where
  | comment {gap comment cs : List Char} (hgap : Filler gap) (hcomment : Comment comment) :
      Ends (gap ++ '/' :: '/' :: (comment ++ '\x00' :: cs))
  | last {gap : List Char} (hgap : Filler gap) : Ends (gap ++ ['\x00'])

theorem next_agrees {cs : List Char} (h : ¬Ends cs) (pos : Nat) :
    Agree (next pos cs) (next pos (cs.map masked)) := by
  obtain ⟨gap, rest, rfl, hgap, hleads⟩ := exists_lead cs
  rw [List.map_append, next_filler hgap, next_filler hgap.masked, size_masked]
  cases hleads with
  | ended => exact ⟨rfl, rfl, rfl, rfl⟩
  | token hblank hslash =>
    refine agree_token hblank hslash ?_ _
    rintro ⟨rfl, rfl⟩
    exact h (.last hgap)
  | line hcomment => exact agree_line hcomment _
  | cut hcomment => exact absurd (.comment hgap hcomment) h
  | block hcomment => exact agree_block hcomment _

/-- What a token is and where it stands. -/
def place (t : Token) : Kind × Text.Span := (t.kind, t.span)

theorem Agree.place {r r' : Token × Nat × List Char} (h : Agree r r') :
    place r'.1 = place r.1 :=
  Prod.ext h.kind h.span

theorem next_lo (pos : Nat) (cs : List Char) :
    (next pos cs).1.span.lo =
      match skip .code pos cs with
      | .next pos' _ => pos'
      | .unterminated start _ => start := by
  unfold next
  split <;> rename_i hskip <;> rw [hskip]
  dsimp only
  split <;> rfl

/-- A token after the beginning of a line comment stands after that beginning. -/
theorem le_next_lo {pos start : Nat} {cs cs' : List Char}
    (h : skip .code pos cs = skip .line start cs') : start ≤ (next pos cs).1.span.lo := by
  have hfinds := skip_finds .line start cs'
  rw [next_lo, h]
  cases hskip : skip .line start cs' with
  | next pos' rest =>
    rw [hskip] at hfinds
    obtain ⟨gap, -, rfl, -⟩ := hfinds
    exact Nat.le_add_right _ _
  | unterminated start' stop =>
    rw [hskip] at hfinds
    obtain ⟨-, hown | ⟨gap, -, -, -, rfl, -⟩⟩ := hfinds
    · cases hown
    · exact Nat.le_add_right _ _

theorem skip_opening {comment : List Char} (h : Comment comment) (pos : Nat) (cs : List Char) :
    skip .code pos ('/' :: '/' :: (comment ++ cs)) = skip .line (pos + 2 + size comment) cs := by
  rw [skip, skip_comment h]

/-- Where the text ends too early the next token is another or stands elsewhere. -/
theorem Ends.next {cs : List Char} (h : Ends cs) (pos : Nat) :
    place (next pos (cs.map masked)).1 ≠ place (next pos cs).1 := by
  intro heq
  obtain ⟨hkind, hspan⟩ := Prod.ext_iff.1 heq
  cases h with
  | @comment gap comment cs hgap hcomment =>
    rw [List.map_append, next_filler hgap, next_filler hgap.masked, size_masked] at hspan
    have hmap : ('/' :: '/' :: (comment ++ '\x00' :: cs)).map masked =
        '/' :: '/' :: (comment ++ '\x01' :: cs.map masked) := by
      rw [List.map_cons, List.map_cons, List.map_append, hcomment.masked]
      rfl
    have hlo : (Token.next (pos + size gap) ('/' :: '/' :: (comment ++ '\x00' :: cs))).1.span.lo =
        pos + size gap + 2 + size comment := by
      rw [next_lo, skip_opening hcomment, skip, if_pos rfl]
    have hskip : skip .code (pos + size gap) ('/' :: '/' :: (comment ++ '\x01' :: cs.map masked)) =
        skip .line (pos + size gap + 2 + size comment + 1) (cs.map masked) := by
      rw [skip_opening hcomment, skip, if_neg (by decide), if_neg (by decide)]
      rfl
    have hlo' := le_next_lo hskip
    have hspan : Token.span _ = Token.span _ := hspan
    rw [hmap] at hspan
    rw [hspan, hlo] at hlo'
    omega
  | @last gap hgap =>
    rw [List.map_append, next_filler hgap, next_filler hgap.masked, size_masked] at hkind
    have hend : (Token.next (pos + size gap) ['\x00']).1.kind = .endOfInput := by
      simp [Token.next, skip, isBlank]
    have hwrong : (Token.next (pos + size gap) ['\x01']).1.kind = .invalid := by
      simp [Token.next, skip, isBlank]
      rfl
    have hkind : Token.kind _ = Token.kind _ := hkind
    exact absurd (hwrong.symm.trans (hkind.trans hend)) (by decide)

/-- Somewhere along the tokens from an offset on a NUL is taken for the end. -/
inductive Spoilt : Nat → List Char → Prop where
  | here {pos : Nat} {cs : List Char} (h : Ends cs) : Spoilt pos cs
  | later {pos : Nat} {cs : List Char} (hkind : (next pos cs).1.kind ≠ .endOfInput)
      (h : Spoilt (next pos cs).2.1 (next pos cs).2.2) : Spoilt pos cs

theorem head?_places (pos : Nat) (cs : List Char) :
    ((tokensFrom pos cs).map place).head? = some (place (next pos cs).1) := by
  rw [tokensFrom]
  split <;> rfl

theorem places_masked (pos : Nat) (cs : List Char) :
    (tokensFrom pos (cs.map masked)).map place = (tokensFrom pos cs).map place ↔
      ¬Spoilt pos cs := by
  by_cases hends : Ends cs
  · refine iff_of_false (fun heq => hends.next pos ?_) (not_not_intro (.here hends))
    have hhead := congrArg List.head? heq
    rw [head?_places, head?_places] at hhead
    exact Option.some.inj hhead
  · have hagree := next_agrees hends pos
    rw [tokensFrom, tokensFrom.eq_def pos cs]
    dsimp only
    rw [hagree.kind, hagree.stop, hagree.rest]
    by_cases hend : (next pos cs).1.kind = .endOfInput
    · rw [if_pos hend, if_pos hend]
      refine iff_of_true (congrArg ([·]) hagree.place) ?_
      rintro (hhere | ⟨hkind, -⟩)
      · exact hends hhere
      · exact hkind hend
    · have ih := places_masked (next pos cs).2.1 (next pos cs).2.2
      have hlater : Spoilt pos cs ↔ Spoilt (next pos cs).2.1 (next pos cs).2.2 := by
        refine ⟨?_, .later hend⟩
        rintro (hhere | ⟨-, hlater⟩)
        · exact absurd hhere hends
        · exact hlater
      rw [if_neg hend, if_neg hend, List.map_cons, List.map_cons, hagree.place, hlater, ← ih,
        List.cons.injEq, and_iff_right rfl]
termination_by cs.length
decreasing_by exact next_progress _ _ hend

/-- A text with another control character in place of every NUL. -/
def exchanged (source : String) : String := String.ofList (source.toList.map masked)

/-- **NUL is a character like others but where it is taken for the end.** With another
control character in place of every NUL the tokens of a text have the same kinds and
spans exactly if none of the NULs ends a line comment or is, where a token is expected,
the last character. -/
theorem tokens_exchanged (source : String) :
    (tokens (exchanged source)).map place = (tokens source).map place ↔
      ¬Spoilt 0 source.toList := by
  unfold tokens exchanged
  rw [String.toList_ofList]
  exact places_masked 0 source.toList

/-- What stands after the NUL in this comment becomes tokens. -/
theorem comment_ends_early :
    (tokens "//\x00a").map place =
        [(.invalid, ⟨2, 3⟩), (.identifier, ⟨3, 4⟩), (.endOfInput, ⟨4, 4⟩)] ∧
      (tokens (exchanged "//\x00a")).map place = [(.endOfInput, ⟨4, 4⟩)] := by
  decide +kernel

end TinyScript.Token
