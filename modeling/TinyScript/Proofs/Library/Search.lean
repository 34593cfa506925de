import TinyScript.Proofs.Library.Strings

/-! Strings found in strings. A search gives the number of bytes before the first occurrence,
and lengths and cuts count bytes too, so what is found can be cut out again. Among the bytes of
characters the bytes of other characters are found only where whole characters are
(`Text.Utf8.exists_occurrence`), so the first occurrence among the bytes is the first among the
characters, and it is never inside one. -/

namespace TinyScript.Library.Strings

open Text (Bytes)
open Text.Utf8 (encode Valid)

variable {s part : Bytes}

/-! ### The first occurrence -/

/-- A string begins with another from some place on, and from no place before it. -/
structure FirstAt (part s : Bytes) (k : Nat) : Prop where
  within : k ≤ s.length
  occurs : part <+: s.drop k
  first : ∀ j < k, ¬ part <+: s.drop j

theorem findFrom_cases (part s : Bytes) :
    (∃ k, findFrom part s = some k ∧ FirstAt part s k) ∨
      (findFrom part s = none ∧ ∀ j, ¬ part <+: s.drop j) := by
  induction s with
  | nil =>
    by_cases h : part = []
    · exact .inl ⟨0, by rw [findFrom, if_pos h], Nat.le_refl _, by simp [h], by simp⟩
    · exact .inr ⟨by rw [findFrom, if_neg h], by simpa using h⟩
  | cons b s ih =>
    by_cases h : part.isPrefixOf (b :: s) = true
    · have hhere : part <+: (b :: s).drop 0 := List.isPrefixOf_iff_prefix.1 h
      exact .inl ⟨0, by rw [findFrom, if_pos h], Nat.zero_le _, hhere, by simp⟩
    · have hhere : ¬ part <+: (b :: s).drop 0 := fun hp => h (List.isPrefixOf_iff_prefix.2 hp)
      rcases ih with ⟨k, hfind, hfirst⟩ | ⟨hfind, hnone⟩
      · refine .inl ⟨k + 1, ?_, Nat.succ_le_succ hfirst.within, hfirst.occurs, fun j hj => ?_⟩
        · rw [findFrom, if_neg h, hfind]
          rfl
        · cases j with
          | zero => exact hhere
          | succ j => exact hfirst.first j (Nat.lt_of_succ_lt_succ hj)
      · refine .inr ⟨?_, fun j => ?_⟩
        · rw [findFrom, if_neg h, hfind]
          rfl
        · cases j with
          | zero => exact hhere
          | succ j => exact hnone j

theorem wellFormed_of_valid (h : Valid s) : wellFormed s = s :=
  (Text.Utf8.encode_decode_iff s).2 h

/-- What a search among characters gives. -/
theorem find_cases (hs : Held s) (hvalid : Valid s) (hvalid' : Valid part) :
    (∃ k : Nat, (find s part).toInt = k ∧ FirstAt part s k) ∨
      (find s part = -1 ∧ ∀ j, ¬ part <+: s.drop j) := by
  rw [find, wellFormed_of_valid hvalid, wellFormed_of_valid hvalid']
  rcases findFrom_cases part s with ⟨k, hfind, hfirst⟩ | ⟨hfind, hnone⟩
  · have hmax : (k : Int) ≤ Int32.maxValue.toInt :=
      Int.le_trans (Int.ofNat_le.2 hfirst.within) hs.length
    have hlt : (k : Int) ≤ 2147483647 := hmax
    rw [hfind]
    dsimp only
    rw [if_pos hmax]
    exact .inl ⟨k, Int32.toInt_ofNat_of_lt (by omega), hfirst⟩
  · rw [hfind]
    exact .inr ⟨rfl, hnone⟩

/-- Whole characters are before what is found among characters, and after it. -/
theorem FirstAt.between_characters {k : Nat} (h : FirstAt part s k) (hvalid : Valid s)
    (hvalid' : Valid part) :
    ∃ before after, s = encode before ++ (part ++ encode after) ∧ (encode before).length = k := by
  obtain ⟨cs, rfl⟩ := hvalid
  obtain ⟨found, rfl⟩ := hvalid'
  obtain ⟨rest, hrest⟩ := h.occurs
  have hsplit : encode cs = (encode cs).take k ++ (encode found ++ rest) := by
    rw [hrest, List.take_append_drop]
  by_cases hfound : found = []
  · subst hfound
    obtain rfl : k = 0 := Nat.eq_zero_of_not_pos fun hpos => h.first 0 hpos List.nil_prefix
    exact ⟨[], cs, rfl, rfl⟩
  · obtain ⟨before, after, -, hbefore, hafter⟩ := Text.Utf8.exists_occurrence hfound hsplit
    refine ⟨before, after, by rw [hbefore, hafter, ← hsplit], ?_⟩
    rw [hbefore, List.length_take_of_le h.within]

/-! ### Cutting out -/

/-- The piece of `s` from the `j`-th byte on that is as long as `part` is `part`. -/
def CutsOut (w : World) (s : Bytes) (j : Int32) (part : Bytes) : Prop :=
  ∃ n, Function.call? w .stringLength [.str (some part)] = plain w (.i32 n) ∧
    Function.call? w .stringSubstring [.str (some s), .i32 j, .i32 n] =
      plain w (.str (some part))

theorem toNat_length (s : Bytes) : (length s).toInt.toNat = min s.length 2147483647 := by
  have hmax : Int32.maxValue.toInt.toNat = 2147483647 := rfl
  rw [length, clampInt32, hmax, Int32.toInt_ofNat_of_lt (by omega), Int.toNat_natCast]

/-- What can be cut out of a string is what it has there. A string that is too long to be
measured is found nowhere. -/
theorem cutsOut_iff (w : World) (hs : Held s) (j : Int32) :
    CutsOut w s j part ↔ part <+: s.drop j.toInt.toNat := by
  have hcut : CutsOut w s j part ↔
      (s.drop j.toInt.toNat).take (min part.length 2147483647) = part := by
    rw [← toNat_length]
    constructor
    · rintro ⟨n, hlength, hsub⟩
      cases hlength
      rw [call_substring w hs.noNul] at hsub
      have hresult := congrArg (Option.map Outcome.result) hsub
      exact Option.some.inj (Value.str.inj (Option.some.inj hresult))
    · intro h
      refine ⟨length part, rfl, ?_⟩
      rw [call_substring w hs.noNul, h]
  rw [hcut]
  constructor
  · intro h
    rw [← h]
    exact List.take_prefix ..
  · intro h
    have hle := h.length_le
    have hlength : (s.length : Int) ≤ 2147483647 := hs.length
    rw [List.length_drop] at hle
    rw [Nat.min_eq_left (by omega)]
    exact (List.prefix_iff_eq_take.1 h).symm

/-- **What is found can be cut out, and nowhere before.** In a string of characters that can be
counted, a search for characters gives the least number of bytes after which they can be cut
out again, and whole characters are before and after them; or minus one, if they can be cut
out nowhere. -/
theorem find_agrees_with_substring (w : World) (s part : Bytes) (hs : Held s) (hvalid : Valid s)
    (hvalid' : Valid part) :
    ∃ k, Function.call? w .stringFind [.str (some s), .str (some part)] = plain w (.i32 k) ∧
      ((0 ≤ k ∧ CutsOut w s k part ∧ (∀ j, 0 ≤ j → j < k → ¬ CutsOut w s j part) ∧
          ∃ before after, s = encode before ++ (part ++ encode after) ∧
            ((encode before).length : Int) = k.toInt) ∨
        (k = -1 ∧ ∀ j, ¬ CutsOut w s j part)) := by
  refine ⟨find s part, rfl, ?_⟩
  simp only [cutsOut_iff w hs, Int32.le_iff_toInt_le, Int32.lt_iff_toInt_lt, Int32.toInt_zero]
  rcases find_cases hs hvalid hvalid' with ⟨k, hk, hfirst⟩ | ⟨hnone, hnowhere⟩
  · refine .inl ⟨?_, ?_, fun j hj hlt => ?_, ?_⟩
    · omega
    · rw [hk, Int.toNat_natCast]
      exact hfirst.occurs
    · exact hfirst.first _ (by omega)
    · obtain ⟨before, after, hsplit, hlength⟩ := hfirst.between_characters hvalid hvalid'
      exact ⟨before, after, hsplit, by rw [hlength, hk]⟩
  · exact .inr ⟨hnone, fun j => hnowhere _⟩

/-- The second of two letters of two bytes, which begin alike. -/
theorem second_letter_found :
    (Held [0xC3, 0xA8, 0xC3, 0xA9] ∧ Valid [0xC3, 0xA8, 0xC3, 0xA9] ∧ Valid [0xC3, 0xA9]) ∧
      Function.call? .initial .stringFind
          [.str (some [0xC3, 0xA8, 0xC3, 0xA9]), .str (some [0xC3, 0xA9])] =
        plain .initial (.i32 2) ∧
      CutsOut .initial [0xC3, 0xA8, 0xC3, 0xA9] 2 [0xC3, 0xA9] := by
  have hheld : Held [0xC3, 0xA8, 0xC3, 0xA9] := ⟨by decide, by decide⟩
  have hvalid : Valid [0xC3, 0xA8, 0xC3, 0xA9] := ⟨['è', 'é'], by decide⟩
  have hvalid' : Valid [0xC3, 0xA9] := ⟨['é'], by decide⟩
  have hfind : find [0xC3, 0xA8, 0xC3, 0xA9] [0xC3, 0xA9] = 2 := by decide +kernel
  obtain ⟨k, hcall, hfound⟩ :=
    find_agrees_with_substring .initial _ _ hheld hvalid hvalid'
  have hk : 2 = k := by
    have hresult := congrArg (Option.map Outcome.result) hcall
    rw [← hfind]
    exact Value.i32.inj (Option.some.inj hresult)
  subst hk
  rcases hfound with ⟨-, hcut, -⟩ | ⟨hnone, -⟩
  · exact ⟨⟨hheld, hvalid, hvalid'⟩, hcall, hcut⟩
  · exact absurd hnone (by decide)

end TinyScript.Library.Strings
