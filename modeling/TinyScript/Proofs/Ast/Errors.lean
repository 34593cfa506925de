import TinyScript.Proofs.Ast.Locality
import TinyScript.Proofs.Token.Tiling

/-! What a failed parse says about its source. An error is about one token of the source,
with nothing wrong before that token, and it comes as early as it can: whatever else had
followed the tokens it rests on, there would have been no program. A token that is wrong
by itself is never passed over, so it is the error unless the program went wrong before. -/

open TinyScript.Ast.Parser

namespace TinyScript.Ast

variable {source : String} {e : ParseError} {ts us : List Token} {t : Token}

/-- No tokens that start like these are a program. -/
def Hopeless (ts : List Token) : Prop :=
  ∀ us, ts <+: us → ∃ e, Program.ofTokens us = .error e

theorem Hopeless.of_isPrefix (h : Hopeless ts) (hus : ts <+: us) : Hopeless us :=
  fun vs hvs => h vs (hus.trans hvs)

namespace Parser

/-! ### Whole inputs -/

theorem beforeEnd_append (hts : ∀ t ∈ ts, t.kind ≠ .endOfInput) (us : List Token) :
    beforeEnd (ts ++ us) = ts ++ beforeEnd us :=
  List.takeWhile_append_of_pos (by simpa using hts)

theorem beforeEnd_cons_end (ht : t.kind = .endOfInput) (us : List Token) :
    beforeEnd (t :: us) = [] :=
  List.takeWhile_cons_of_neg (by simpa using ht)

theorem endOf_append (hts : ∀ t ∈ ts, t.kind ≠ .endOfInput) (ht : t.kind = .endOfInput)
    (us : List Token) : endOf (ts ++ t :: us) = t := by
  have hnone : ts.find? (·.kind = .endOfInput) = none := by simpa using hts
  rw [endOf, List.find?_append, hnone, Option.none_or, List.find?_cons_of_pos (by simpa using ht)]
  rfl

/-- Nothing after the end of input is read. -/
theorem ofTokens_ended (hts : ∀ t ∈ ts, t.kind ≠ .endOfInput) (ht : t.kind = .endOfInput)
    (us : List Token) : Program.ofTokens (ts ++ t :: us) = program t ts := by
  rw [Program.ofTokens, endOf_append hts ht, beforeEnd_append hts, beforeEnd_cons_end ht,
    List.append_nil]

theorem whole_eq_error {fin : Token} : whole fin ts = .error e ↔ program fin ts = .error e := by
  rw [whole]
  cases program fin ts <;> simp [bind, Except.bind, pure, Except.pure]

theorem hopeless_of_doomed (hts : ∀ t ∈ ts, t.kind ≠ .endOfInput) (h : Doomed whole ts) :
    Hopeless ts := by
  rintro _ ⟨us, rfl⟩
  obtain ⟨e, he⟩ := h (endOf (ts ++ us)) (beforeEnd us)
  rw [whole_eq_error, ← beforeEnd_append hts] at he
  exact ⟨e, he⟩

end Parser

/-! ### The tokens of a source -/

/-- The tokens of a source are some, and then its end. -/
theorem tokens_ended (source : String) : ∃ inner last, Token.tokens source = inner ++ [last] ∧
    (∀ t ∈ inner, t.kind ≠ .endOfInput) ∧ last.kind = .endOfInput := by
  obtain ⟨inner, last, htokens, hinner, hlast, -⟩ :=
    (Token.tokensFrom_tiles [] source.toList rfl).ends
  exact ⟨inner, last, htokens, hinner, hlast⟩

/-- Tokens with one span are one token. -/
theorem tokens_index_unique {i j : Nat} {s : Token} (hi : (Token.tokens source)[i]? = some s)
    (hj : (Token.tokens source)[j]? = some t) (hspan : s.span = t.span) : i = j := by
  have hordered := List.pairwise_iff_getElem.1 (Token.tokensFrom_ordered 0 source.toList).2
  obtain ⟨hi', rfl⟩ := List.getElem?_eq_some_iff.1 hi
  obtain ⟨hj', rfl⟩ := List.getElem?_eq_some_iff.1 hj
  have hlo := congrArg Text.Span.lo hspan
  rcases Nat.lt_trichotomy i j with hlt | heq | hlt
  · exact absurd hlo (Nat.ne_of_lt (hordered i j hi' hj' hlt))
  · exact heq
  · exact absurd hlo (Nat.ne_of_gt (hordered j i hj' hi' hlt))

/-- What an error is about: a token of the source, before which nothing is wrong. With the
tokens it rests on there is no program any more. -/
structure Fault (source : String) (e : ParseError) (before : List Token) (t : Token)
    (after : List Token) : Prop where
  split : Token.tokens source = before ++ t :: after
  clean : Clean before
  blames : Blames e t
  hopeless {n : Nat} : e.value.reach = some n →
    Hopeless ((Token.tokens source).take (before.length + 1 + n))

theorem upTo_isPrefix (before after : List Token) (last : Token) (n : Nat) :
    before ++ t :: after.take n <+:
      (before ++ t :: (after ++ [last])).take (before.length + 1 + n) := by
  rw [Nat.add_assoc, List.take_length_add_append, Nat.add_comm 1 n, List.take_succ_cons,
    List.prefix_append_right_inj, List.prefix_cons_inj]
  rw [List.take_append]
  exact List.prefix_append _ _

theorem exists_fault (h : Program.parse source = .error e) :
    ∃ before t after, Fault source e before t after := by
  obtain ⟨inner, last, htokens, hinner, hlast⟩ := tokens_ended source
  have hprogram : program last inner = .error e := by
    rw [Program.parse, htokens, ofTokens_ended hinner hlast] at h
    exact h
  cases (whole_local inner).faults (whole_eq_error.2 hprogram) with
  | finish clean blames =>
    refine ⟨inner, last, [], htokens, clean, blames, fun {n} _ => ?_⟩
    -- Whatever follows the end of input, the same tokens are read.
    rw [htokens, List.take_of_length_le (by simp)]
    rintro _ ⟨us, rfl⟩
    rw [List.append_assoc, List.singleton_append, ofTokens_ended hinner hlast]
    exact ⟨e, hprogram⟩
  | token before after t split clean blames doomed =>
    subst split
    have hsplit : Token.tokens source = before ++ t :: (after ++ [last]) := by simp [htokens]
    refine ⟨before, t, after ++ [last], hsplit, clean, blames, fun {n} hn => ?_⟩
    have hends : ∀ u ∈ before ++ t :: after.take n, u.kind ≠ .endOfInput := by
      refine fun u hu => hinner u ?_
      exact ((List.take_sublist n after).cons_cons t |>.append_left before).subset hu
    rw [hsplit]
    exact (hopeless_of_doomed hends (doomed n hn)).of_isPrefix (upTo_isPrefix before after last n)

/-- A program has no token that is wrong by itself. -/
theorem clean_of_parse {p : Program} (h : Program.parse source = .ok p) :
    Clean (Token.tokens source) := by
  obtain ⟨inner, last, htokens, hinner, hlast⟩ := tokens_ended source
  rw [Program.parse, htokens, ofTokens_ended hinner hlast] at h
  have hwhole : whole last inner = .ok (p, []) := by
    rw [whole, h]
    rfl
  obtain ⟨used, hused, hclean, -⟩ := (whole_local inner).takes hwhole
  rw [List.append_nil] at hused
  rw [htokens, hused]
  exact hclean.append (List.forall_mem_singleton.2 (by simp [hlast]))

/-! ### The earliest token -/

theorem Fault.index {before after : List Token} {u : Token} {k : Nat}
    (h : Fault source e before u after) (ht : (Token.tokens source)[k]? = some t)
    (hspan : e.span = t.span) : k = before.length := by
  have hu : (Token.tokens source)[before.length]? = some u := by simp [h.split]
  exact tokens_index_unique ht hu (hspan.symm.trans h.blames.span)

/-- **Errors come as early as they can.** A token that an error is about leaves no
program to be read, whatever follows it, and that a function is unknown needs the token
after its name besides. Only of an element that is not assigned to is more read. -/
theorem parse_fails_early {k : Nat} (h : Program.parse source = .error e)
    (ht : (Token.tokens source)[k]? = some t) (hspan : e.span = t.span) :
    (e.value ≠ .bareIndexExpression → (∀ name, e.value ≠ .unknownFunction name) →
      Hopeless ((Token.tokens source).take (k + 1))) ∧
    (∀ name, e.value = .unknownFunction name → Hopeless ((Token.tokens source).take (k + 2))) := by
  obtain ⟨before, u, after, hfault⟩ := exists_fault h
  obtain rfl := hfault.index ht hspan
  constructor
  · intro hbare hunknown
    refine hfault.hopeless (n := 0) ?_
    cases hvalue : e.value with
    | bareIndexExpression => exact absurd hvalue hbare
    | unknownFunction name => exact absurd hvalue (hunknown name)
    | _ => rfl
  · intro name hvalue
    refine hfault.hopeless (n := 1) ?_
    rw [hvalue]
    rfl

theorem missing_value_fails_early :
    Program.parse "let x = ); let y = 1;" = .error ⟨.expectedExpression .rparen, ⟨8, 9⟩⟩ ∧
      (Token.tokens "let x = ); let y = 1;")[3]? = some ⟨.rparen, ")", ⟨8, 9⟩⟩ ∧
      Hopeless ((Token.tokens "let x = ); let y = 1;").take 4) := by
  have htoken : (Token.tokens "let x = ); let y = 1;")[3]? = some ⟨.rparen, ")", ⟨8, 9⟩⟩ := by
    decide +kernel
  have herror : (Program.parse "let x = ); let y = 1;").map (fun _ => ()) =
      .error ⟨.expectedExpression .rparen, ⟨8, 9⟩⟩ := by
    decide +kernel
  cases hparse : Program.parse "let x = ); let y = 1;" with
  | ok p =>
    rw [hparse] at herror
    cases herror
  | error e =>
    rw [hparse] at herror
    cases herror
    exact ⟨rfl, htoken, (parse_fails_early hparse htoken rfl).1 nofun nofun⟩

/-! ### Tokens that are wrong by themselves -/

/-- The first token that is wrong by itself. -/
def firstInvalid? (source : String) : Option Token :=
  (Token.tokens source).find? (·.kind = .invalid)

theorem Fault.firstInvalid? {before after : List Token} (h : Fault source e before t after)
    (ht : t.kind = .invalid) : firstInvalid? source = some t := by
  have hnone : before.find? (·.kind = .invalid) = none := by simpa [Clean] using h.clean
  rw [Ast.firstInvalid?, h.split, List.find?_append, hnone, Option.none_or,
    List.find?_cons_of_pos (by simpa using ht)]

theorem Fault.le_invalid {before after : List Token} {u : Token}
    (h : Fault source e before t after) (hu : u ∈ Token.tokens source)
    (hinvalid : u.kind = .invalid) : e.span.lo ≤ u.span.lo := by
  have hordered := (Token.tokensFrom_ordered 0 source.toList).2
  rw [← Token.tokens, h.split, List.pairwise_append, List.pairwise_cons] at hordered
  rw [h.blames.span]
  rw [h.split, List.mem_append, List.mem_cons] at hu
  rcases hu with hbefore | rfl | hafter
  · exact absurd hinvalid (h.clean u hbefore)
  · exact Nat.le_refl _
  · exact Nat.le_of_lt (hordered.2.1.1 u hafter)

/-- **No token that is wrong by itself is passed over.** The error is about it or one before
it. It is lexical of the first such token only and says what that says, and of any such
token it is lexical. Every error is about a token of the source. -/
theorem parse_surfaces_invalid (source : String) :
    (∀ t, firstInvalid? source = some t →
      ∃ e, Program.parse source = .error e ∧ e.span.lo ≤ t.span.lo) ∧
    ∀ e, Program.parse source = .error e →
      (∃ t ∈ Token.tokens source, e.span = t.span) ∧
      (∀ message, e.value = .lexical message →
        ∃ t, firstInvalid? source = some t ∧ message = t.text ∧ e.span = t.span) ∧
      (∀ t ∈ Token.tokens source, t.kind = .invalid → e.span = t.span →
        ∃ message, e.value = .lexical message) := by
  constructor
  · intro t ht
    have hmem := List.mem_of_find?_eq_some ht
    have hinvalid : t.kind = .invalid := by simpa using List.find?_some ht
    cases hparse : Program.parse source with
    | ok p => exact absurd hinvalid (clean_of_parse hparse t hmem)
    | error e =>
      obtain ⟨before, u, after, hfault⟩ := exists_fault hparse
      exact ⟨e, rfl, hfault.le_invalid hmem hinvalid⟩
  · intro e h
    obtain ⟨before, u, after, hfault⟩ := exists_fault h
    refine ⟨⟨u, by simp [hfault.split], hfault.blames.span⟩, ?_, ?_⟩
    · intro message hlexical
      obtain ⟨hinvalid, htext⟩ := (hfault.blames.lexical message).1 hlexical
      exact ⟨u, hfault.firstInvalid? hinvalid, htext, hfault.blames.span⟩
    · intro t ht hinvalid hspan
      obtain ⟨k, hk⟩ := List.mem_iff_getElem?.1 ht
      have hindex := hfault.index hk hspan
      have htu : t = u := by simpa [hindex, hfault.split] using hk.symm
      exact ⟨u.text, (hfault.blames.lexical u.text).2 ⟨htu ▸ hinvalid, rfl⟩⟩

theorem stray_sign_surfaces :
    firstInvalid? "let x = @;" = some ⟨.invalid, "unexpected character '@'", ⟨8, 9⟩⟩ ∧
      ∃ e, Program.parse "let x = @;" = .error e ∧ e.span.lo ≤ 8 := by
  have hfirst : firstInvalid? "let x = @;" =
      some ⟨.invalid, "unexpected character '@'", ⟨8, 9⟩⟩ := by
    decide +kernel
  exact ⟨hfirst, (parse_surfaces_invalid "let x = @;").1 _ hfirst⟩

end TinyScript.Ast
