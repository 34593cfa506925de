import TinyScript.Library.Call
import TinyScript.Proofs.Text.Utf8

/-! Strings cut and joined. Lengths and cuts count bytes and may fall inside a character,
but joining goes through characters: every ill-formed piece of either string is replaced.
So the bytes of two strings stand one after the other in the string joined of them
exactly if both are characters' bytes, and a string is its two parts joined exactly if
the cut is between characters and nothing in it is ill-formed. -/

namespace TinyScript.Library.Strings

open Text (Bytes)
open Text.Utf8 (decode Valid)

/-- Strings that programs can hold: without NUL, and no longer than can be counted. -/
structure Held (s : Bytes) : Prop where
  noNul : 0 ∉ s
  length : (s.length : Int) ≤ Int32.maxValue.toInt

theorem wellFormed_eq (s : Bytes) : wellFormed s = Text.Utf8.encode (decode s) := rfl

theorem given_eq {s : Bytes} (h : 0 ∉ s) : given s = .str (some s) := by
  have hkept : ∀ b ∈ s, decide (b ≠ 0) = true := by
    intro b hb
    simp only [decide_eq_true_eq]
    rintro rfl
    exact h hb
  rw [given, List.filter_eq_self.2 hkept]

theorem zero_not_mem_concat {a b : Bytes} (ha : 0 ∉ a) (hb : 0 ∉ b) : 0 ∉ concat a b := by
  intro h
  rcases List.mem_append.1 h with h | h
  · exact Text.Utf8.zero_not_mem_encode_decode ha h
  · exact Text.Utf8.zero_not_mem_encode_decode hb h

/-- The characters of a joined string are those of the first and then those of the second. -/
theorem decode_concat (a b : Bytes) : decode (concat a b) = decode a ++ decode b := by
  rw [concat, wellFormed_eq, wellFormed_eq, ← Text.Utf8.encode_append, Text.Utf8.decode_encode]

theorem concat_eq_append_iff (a b : Bytes) : concat a b = a ++ b ↔ Valid a ∧ Valid b := by
  rw [concat, ← Text.Utf8.encode_decode_iff, ← Text.Utf8.encode_decode_iff]
  constructor
  · intro h
    have ha := Text.Utf8.length_le_mended a
    have hb := Text.Utf8.length_le_mended b
    have htotal := congrArg List.length h
    simp only [List.length_append, wellFormed_eq] at htotal
    exact List.append_inj h (show (Text.Utf8.encode (decode a)).length = a.length by omega)
  · rintro ⟨ha, hb⟩
    rw [wellFormed_eq, wellFormed_eq, ha, hb]

theorem toInt_length {s : Bytes} (h : Held s) : (length s).toInt = s.length := by
  have hmax : (s.length : Int) ≤ 2147483647 := h.length
  have hclamp : min s.length Int32.maxValue.toInt.toNat = s.length :=
    Nat.min_eq_left (show s.length ≤ 2147483647 by omega)
  rw [length, clampInt32, hclamp]
  exact Int32.toInt_ofNat_of_lt (by omega)

theorem call_concat (w : World) {a b : Bytes} (ha : 0 ∉ a) (hb : 0 ∉ b) :
    Function.call? w .stringConcat [.str (some a), .str (some b)] =
      plain w (.str (some (concat a b))) := by
  rw [← given_eq (zero_not_mem_concat ha hb)]
  rfl

theorem call_substring (w : World) {s : Bytes} (hs : 0 ∉ s) (start len : Int32) :
    Function.call? w .stringSubstring [.str (some s), .i32 start, .i32 len] =
      plain w (.str (some ((s.drop start.toInt.toNat).take len.toInt.toNat))) := by
  have hpart : 0 ∉ (s.drop start.toInt.toNat).take len.toInt.toNat :=
    fun h => hs (List.mem_of_mem_drop (List.mem_of_mem_take h))
  rw [← given_eq hpart]
  rfl

/-- The calls that cut a string after `k` bytes and join it again: its length, its two
parts, and what is joined of them. -/
structure Rejoins (w : World) (s : Bytes) (k n : Int32) (left right joined : Bytes) : Prop where
  counted : Function.call? w .stringLength [.str (some s)] = plain w (.i32 n)
  first : Function.call? w .stringSubstring [.str (some s), .i32 0, .i32 k] =
    plain w (.str (some left))
  second : Function.call? w .stringSubstring [.str (some s), .i32 k, .i32 (n - k)] =
    plain w (.str (some right))
  both : Function.call? w .stringConcat [.str (some left), .str (some right)] =
    plain w (.str (some joined))

theorem rejoins (w : World) {s : Bytes} {k : Int32} (hs : Held s) (hk : 0 ≤ k)
    (hle : k ≤ length s) :
    Rejoins w s k (length s) (s.take k.toInt.toNat) (s.drop k.toInt.toNat)
      (concat (s.take k.toInt.toNat) (s.drop k.toInt.toNat)) := by
  have hlength := toInt_length hs
  have hk' : 0 ≤ k.toInt := Int32.le_iff_toInt_le.1 hk
  have hleft : (s.drop (0 : Int32).toInt.toNat).take k.toInt.toNat = s.take k.toInt.toNat := rfl
  have hright : (s.drop k.toInt.toNat).take (length s - k).toInt.toNat = s.drop k.toInt.toNat := by
    refine List.take_of_length_le ?_
    rw [Int32.toInt_sub_of_le _ _ hk hle, hlength, List.length_drop]
    omega
  refine ⟨rfl, ?_, ?_, ?_⟩
  · rw [call_substring w hs.noNul, hleft]
  · rw [call_substring w hs.noNul, hright]
  · exact call_concat w (fun h => hs.noNul (List.mem_of_mem_take h))
      (fun h => hs.noNul (List.mem_of_mem_drop h))

/-- **Joining keeps the bytes of characters, and no others.** What is joined of two
strings has the characters of the first and then those of the second, and their bytes
exactly if both are well formed. A string that is cut and joined again comes back exactly
if both parts are. -/
theorem joining_keeps_characters (w : World) :
    (∀ a b : Bytes, Held a → Held b → ∃ joined,
      Function.call? w .stringConcat [.str (some a), .str (some b)] =
          plain w (.str (some joined)) ∧
        decode joined = decode a ++ decode b ∧ (joined = a ++ b ↔ Valid a ∧ Valid b)) ∧
      ∀ (s : Bytes) (k : Int32), Held s → 0 ≤ k → k ≤ length s → ∃ left right joined,
        Rejoins w s k (length s) left right joined ∧ left ++ right = s ∧
          (left.length : Int) = k.toInt ∧ (joined = s ↔ Valid left ∧ Valid right) := by
  constructor
  · intro a b ha hb
    exact ⟨_, call_concat w ha.noNul hb.noNul, decode_concat a b, concat_eq_append_iff a b⟩
  · intro s k hs hk hle
    have hlength := toInt_length hs
    have hk' : 0 ≤ k.toInt := Int32.le_iff_toInt_le.1 hk
    have hle' := Int32.le_iff_toInt_le.1 hle
    refine ⟨_, _, _, rejoins w hs hk hle, List.take_append_drop .., ?_, ?_⟩
    · rw [List.length_take]
      omega
    · rw [← concat_eq_append_iff, List.take_append_drop]

/-- Two letters, the second of two bytes, cut between them. -/
theorem letters_rejoined :
    Rejoins .initial [0x61, 0xC3, 0xA9] 1 3 [0x61] [0xC3, 0xA9] [0x61, 0xC3, 0xA9] := by
  have hheld : Held [0x61, 0xC3, 0xA9] := ⟨by decide, by decide⟩
  obtain ⟨left, right, joined, hrejoins, hparts, hlength, hsame⟩ :=
    (joining_keeps_characters .initial).2 [0x61, 0xC3, 0xA9] 1 hheld (by decide) (by decide)
  have hlength' : left.length = [(0x61 : UInt8)].length := Int.ofNat_inj.1 hlength
  have hparts' : left ++ right = [0x61] ++ [0xC3, 0xA9] := hparts
  obtain ⟨rfl, rfl⟩ := List.append_inj hparts' hlength'
  have hjoined : joined = [0x61, 0xC3, 0xA9] := hsame.2 ⟨⟨['a'], rfl⟩, ⟨['é'], rfl⟩⟩
  rwa [hjoined] at hrejoins

/-- A letter of two bytes cut in the middle: each half comes back as a replacement
character. -/
theorem halves_replaced :
    Held [0xC3, 0xA9] ∧
      Rejoins .initial [0xC3, 0xA9] 1 2 [0xC3] [0xA9] [0xEF, 0xBF, 0xBD, 0xEF, 0xBF, 0xBD] := by
  have hheld : Held [0xC3, 0xA9] := ⟨by decide, by decide⟩
  have hconcat : concat [0xC3] [0xA9] = [0xEF, 0xBF, 0xBD, 0xEF, 0xBF, 0xBD] := by
    decide +kernel
  have hrejoins : Rejoins .initial [0xC3, 0xA9] 1 2 [0xC3] [0xA9] (concat [0xC3] [0xA9]) :=
    rejoins .initial hheld (by decide) (by decide)
  rw [hconcat] at hrejoins
  exact ⟨hheld, hrejoins⟩

end TinyScript.Library.Strings
