import TinyScript.Text.Utf8

/-! Decoding against encoding. What is decoded off the front of a byte list is either a
character, and then its bytes are what was taken, or a replacement for at most three
bytes. So decoding undoes encoding, well-formed byte lists are the encoded ones, and no
byte list gets shorter when its ill-formed pieces are replaced. A byte that continues no
character begins one, so the bytes of characters never occur across those of others. -/

namespace TinyScript.Text.Utf8

open String (utf8EncodeChar)

/-! ### Bytes -/

theorem ofNat_eq {b : UInt8} {n : Nat} (h : b.toNat = n) : UInt8.ofNat n = b := by
  rw [← h, UInt8.ofNat_toNat]

theorem within_iff {lo hi b : UInt8} :
    within lo hi b = true ↔ lo.toNat ≤ b.toNat ∧ b.toNat ≤ hi.toNat := by
  simp [within, UInt8.le_iff_toNat_le]

theorem isTail_iff {b : UInt8} : isTail b = true ↔ 0x80 ≤ b.toNat ∧ b.toNat ≤ 0xBF :=
  within_iff

/-- What a first byte announces, by its number. The second of three or four bytes is not
what would make the code one of fewer bytes, a surrogate or greater than the last. -/
def Lead.Fits (n : Nat) : Lead → Prop
  | .one => n < 0x80
  | .stray => 0x80 ≤ n ∧ n < 0xC2 ∨ 0xF5 ≤ n
  | .two => 0xC2 ≤ n ∧ n < 0xE0
  | .three lo hi => (0xE0 ≤ n ∧ n < 0xF0) ∧ ∀ c, within lo hi c = true ↔
      (0x80 ≤ c.toNat ∧ c.toNat ≤ 0xBF) ∧
        (n = 0xE0 → 0xA0 ≤ c.toNat) ∧ (n = 0xED → c.toNat ≤ 0x9F)
  | .four lo hi => (0xF0 ≤ n ∧ n < 0xF5) ∧ ∀ c, within lo hi c = true ↔
      (0x80 ≤ c.toNat ∧ c.toNat ≤ 0xBF) ∧
        (n = 0xF0 → 0x90 ≤ c.toNat) ∧ (n = 0xF4 → c.toNat ≤ 0x8F)

theorem lead_fits (b : UInt8) : (lead b).Fits b.toNat := by
  have hlt : b.toNat < 256 := b.toNat_lt
  simp only [lead, UInt8.lt_iff_toNat_lt, ← UInt8.toNat_inj, UInt8.reduceToNat]
  generalize b.toNat = n at hlt
  repeat' refine iteInduction (fun _ => ?_) fun _ => ?_
  all_goals
    simp only [Lead.Fits, within_iff, UInt8.reduceToNat]
    first
    | omega
    | exact ⟨by omega, fun c => by omega⟩

/-! ### One character -/

theorem toNat_assemble {first : Nat} {tails : List UInt8}
    (h : (tails.foldl (fun n b => n * 64 + b.toNat % 64) first).isValidChar) :
    (assemble first tails).val.toNat = tails.foldl (fun n b => n * 64 + b.toNat % 64) first := by
  rw [assemble, Char.ofNat, dif_pos h]
  exact UInt32.toNat_ofNatLT ..

theorem encode_one {b : UInt8} (hb : lead b = .one) :
    utf8EncodeChar (Char.ofNat b.toNat) = [b] := by
  have hfits := lead_fits b
  rw [hb] at hfits
  have hb : b.toNat < 0x80 := hfits
  have hval : (Char.ofNat b.toNat).val.toNat = b.toNat := by
    exact @toNat_assemble b.toNat [] (.inl (by simp; omega))
  simp only [utf8EncodeChar, hval]
  rw [if_pos (by omega), UInt8.ofNat_toNat]

theorem encode_two {b c : UInt8} (hb : lead b = .two) (hc : isTail c = true) :
    utf8EncodeChar (assemble (b.toNat % 32) [c]) = [b, c] := by
  have hfits := lead_fits b
  rw [hb] at hfits
  obtain ⟨hb, hb'⟩ := hfits
  rw [isTail_iff] at hc
  have hval := @toNat_assemble (b.toNat % 32) [c] (.inl (by simp; omega))
  simp only [utf8EncodeChar, hval, List.foldl_cons, List.foldl_nil]
  rw [if_neg (by omega), if_pos (by omega), ofNat_eq (b := b) (by omega),
    ofNat_eq (b := c) (by omega)]

theorem encode_three {b c d lo hi : UInt8} (hb : lead b = .three lo hi)
    (hc : within lo hi c = true) (hd : isTail d = true) :
    utf8EncodeChar (assemble (b.toNat % 16) [c, d]) = [b, c, d] := by
  have hfits := lead_fits b
  rw [hb] at hfits
  obtain ⟨⟨hb, hb'⟩, hsecond⟩ := hfits
  rw [hsecond] at hc
  rw [isTail_iff] at hd
  have hval := @toNat_assemble (b.toNat % 16) [c, d] (by
    simp only [Nat.isValidChar, List.foldl_cons, List.foldl_nil]
    omega)
  simp only [utf8EncodeChar, hval, List.foldl_cons, List.foldl_nil]
  rw [if_neg (by omega), if_neg (by omega), if_pos (by omega), ofNat_eq (b := b) (by omega),
    ofNat_eq (b := c) (by omega), ofNat_eq (b := d) (by omega)]

theorem encode_four {b c d e lo hi : UInt8} (hb : lead b = .four lo hi)
    (hc : within lo hi c = true) (hd : isTail d = true) (he : isTail e = true) :
    utf8EncodeChar (assemble (b.toNat % 8) [c, d, e]) = [b, c, d, e] := by
  have hfits := lead_fits b
  rw [hb] at hfits
  obtain ⟨⟨hb, hb'⟩, hsecond⟩ := hfits
  rw [hsecond] at hc
  rw [isTail_iff] at hd he
  have hval := @toNat_assemble (b.toNat % 8) [c, d, e] (by
    simp only [Nat.isValidChar, List.foldl_cons, List.foldl_nil]
    omega)
  simp only [utf8EncodeChar, hval, List.foldl_cons, List.foldl_nil]
  rw [if_neg (by omega), if_neg (by omega), if_neg (by omega), ofNat_eq (b := b) (by omega),
    ofNat_eq (b := c) (by omega), ofNat_eq (b := d) (by omega), ofNat_eq (b := e) (by omega)]

/-- What one step of decoding may give: a character and how many of the bytes are further
ones of its own, or the replacement character for at most three bytes. -/
inductive Step (b : UInt8) (rest : Bytes) : Char × Nat → Prop where
  | char {c : Char} {n : Nat} (h : b :: rest = utf8EncodeChar c ++ rest.drop n) :
      Step b rest (c, n)
  | replaced {n : Nat} (h : n ≤ 2) : Step b rest (replacement, n)

theorem decodeOne_step (b : UInt8) (rest : Bytes) : Step b rest (decodeOne b rest) := by
  unfold decodeOne
  split
  case h_1 hb => exact .char (by simp [encode_one hb])
  case h_2 => exact .replaced (by decide)
  case h_3 hb =>
    rcases rest with _ | ⟨c, rest⟩ <;> dsimp only
    · exact .replaced (by decide)
    · cases hc : isTail c
      · exact .replaced (by decide)
      · exact .char (by simp [encode_two hb hc])
  case h_4 lo hi hb =>
    rcases rest with _ | ⟨c, _ | ⟨d, rest⟩⟩ <;> dsimp only
    · exact .replaced (by decide)
    · exact .replaced (by split <;> decide)
    · cases hc : within lo hi c
      · exact .replaced (by decide)
      · cases hd : isTail d
        · exact .replaced (by decide)
        · exact .char (by simp [encode_three hb hc hd])
  case h_5 lo hi hb =>
    rcases rest with _ | ⟨c, _ | ⟨d, _ | ⟨e, rest⟩⟩⟩ <;> dsimp only
    · exact .replaced (by decide)
    · exact .replaced (by split <;> decide)
    · exact .replaced (by cases within lo hi c <;> cases isTail d <;> decide)
    · cases hc : within lo hi c
      · exact .replaced (by decide)
      · cases hd : isTail d
        · exact .replaced (by decide)
        · cases he : isTail e
          · exact .replaced (by decide)
          · exact .char (by simp [encode_four hb hc hd he])

theorem assemble_eq {c : Char} {first : Nat} {tails : List UInt8}
    (h : tails.foldl (fun n b => n * 64 + b.toNat % 64) first = c.val.toNat) :
    assemble first tails = c := by
  rw [assemble, h]
  exact Char.ofNat_toNat c

theorem decodeOne_one {b : UInt8} (h : b.toNat < 0x80) (rest : Bytes) :
    decodeOne b rest = (Char.ofNat b.toNat, 0) := by
  have hfits := lead_fits b
  cases hlead : lead b <;> rw [hlead] at hfits <;> simp only [Lead.Fits] at hfits
  case one => simp only [decodeOne, hlead]
  all_goals omega

theorem decodeOne_two {b c : UInt8} (hb : 0xC2 ≤ b.toNat ∧ b.toNat < 0xE0) (hc : isTail c = true)
    (rest : Bytes) : decodeOne b (c :: rest) = (assemble (b.toNat % 32) [c], 1) := by
  have hfits := lead_fits b
  cases hlead : lead b <;> rw [hlead] at hfits <;> simp only [Lead.Fits] at hfits
  case two => simp only [decodeOne, hlead, hc, if_true]
  all_goals omega

theorem decodeOne_three {b c d : UInt8} (hb : 0xE0 ≤ b.toNat ∧ b.toNat < 0xF0)
    (hc : (0x80 ≤ c.toNat ∧ c.toNat ≤ 0xBF) ∧
      (b.toNat = 0xE0 → 0xA0 ≤ c.toNat) ∧ (b.toNat = 0xED → c.toNat ≤ 0x9F))
    (hd : isTail d = true) (rest : Bytes) :
    decodeOne b (c :: d :: rest) = (assemble (b.toNat % 16) [c, d], 2) := by
  have hfits := lead_fits b
  cases hlead : lead b <;> rw [hlead] at hfits <;> simp only [Lead.Fits] at hfits
  case three => simp [decodeOne, hlead, (hfits.2 c).2 hc, hd]
  all_goals omega

theorem decodeOne_four {b c d e : UInt8} (hb : 0xF0 ≤ b.toNat ∧ b.toNat < 0xF5)
    (hc : (0x80 ≤ c.toNat ∧ c.toNat ≤ 0xBF) ∧
      (b.toNat = 0xF0 → 0x90 ≤ c.toNat) ∧ (b.toNat = 0xF4 → c.toNat ≤ 0x8F))
    (hd : isTail d = true) (he : isTail e = true) (rest : Bytes) :
    decodeOne b (c :: d :: e :: rest) = (assemble (b.toNat % 8) [c, d, e], 3) := by
  have hfits := lead_fits b
  cases hlead : lead b <;> rw [hlead] at hfits <;> simp only [Lead.Fits] at hfits
  case four => simp [decodeOne, hlead, (hfits.2 c).2 hc, hd, he]
  all_goals omega

theorem toNat_ofNat {n : Nat} (h : n < 256) : (UInt8.ofNat n).toNat = n :=
  UInt8.toNat_ofNat_of_lt' h

/-- The bytes of a character are decoded to it. -/
theorem decodeOne_encode (c : Char) (more : Bytes) :
    ∃ b tail, utf8EncodeChar c = b :: tail ∧ decodeOne b (tail ++ more) = (c, tail.length) := by
  have hvalid : c.val.toNat.isValidChar := c.valid
  unfold Nat.isValidChar at hvalid
  unfold utf8EncodeChar
  generalize hv : c.val.toNat = v at hvalid
  dsimp only
  have htail : ∀ n, (UInt8.ofNat (n % 0x40 + 0x80)).toNat = n % 0x40 + 0x80 :=
    fun n => toNat_ofNat (by omega)
  split
  · have hb : (UInt8.ofNat v).toNat = v := toNat_ofNat (by omega)
    refine ⟨_, _, rfl, ?_⟩
    rw [decodeOne_one (by omega), hb, ← hv]
    simp [Char.ofNat_toNat]
  split
  · have hb : (UInt8.ofNat (v / 64 % 0x20 + 0xc0)).toNat = v / 64 + 0xc0 := by
      rw [toNat_ofNat (by omega)]
      omega
    refine ⟨_, _, rfl, ?_⟩
    rw [List.cons_append, decodeOne_two (by omega) (by rw [isTail_iff, htail]; omega)]
    rw [assemble_eq]
    · rfl
    · rw [List.foldl_cons, List.foldl_nil, hb, htail, hv]
      omega
  split
  · have hb : (UInt8.ofNat (v / 4096 % 0x10 + 0xe0)).toNat = v / 4096 + 0xe0 := by
      rw [toNat_ofNat (by omega)]
      omega
    refine ⟨_, _, rfl, ?_⟩
    rw [List.cons_append, List.cons_append, decodeOne_three (by omega)
      (by rw [hb, htail]; omega) (by rw [isTail_iff, htail]; omega), assemble_eq]
    · rfl
    · simp only [List.foldl_cons, List.foldl_nil, hb, htail, hv]
      omega
  · have hb : (UInt8.ofNat (v / 262144 % 0x08 + 0xf0)).toNat = v / 262144 + 0xf0 := by
      rw [toNat_ofNat (by omega)]
      omega
    refine ⟨_, _, rfl, ?_⟩
    rw [List.cons_append, List.cons_append, List.cons_append, decodeOne_four (by omega)
      (by rw [hb, htail]; omega) (by rw [isTail_iff, htail]; omega)
      (by rw [isTail_iff, htail]; omega), assemble_eq]
    · rfl
    · simp only [List.foldl_cons, List.foldl_nil, hb, htail, hv]
      omega

theorem encode_cons (c : Char) (cs : List Char) :
    encode (c :: cs) = utf8EncodeChar c ++ encode cs :=
  List.flatMap_cons

theorem decode_encode_append (cs : List Char) (more : Bytes) :
    decode (encode cs ++ more) = cs ++ decode more := by
  induction cs with
  | nil => rfl
  | cons c cs ih =>
    obtain ⟨b, tail, hchar, hone⟩ := decodeOne_encode c (encode cs ++ more)
    rw [encode_cons, List.append_assoc, hchar, List.cons_append, decode, hone]
    dsimp only
    rw [List.drop_left, ih, List.cons_append]

/-- **Decoding undoes encoding.** -/
theorem decode_encode (cs : List Char) : decode (encode cs) = cs := by
  have h := decode_encode_append cs []
  rwa [List.append_nil, decode, List.append_nil] at h

/-! ### Where characters begin -/

/-- Of the bytes of a character, the first shows that it is. -/
theorem utf8EncodeChar_eq_cons (c : Char) :
    ∃ b tail, utf8EncodeChar c = b :: tail ∧ isTail b = false ∧ ∀ t ∈ tail, isTail t = true := by
  have hvalid : c.val.toNat.isValidChar := c.valid
  unfold Nat.isValidChar at hvalid
  unfold utf8EncodeChar
  generalize c.val.toNat = v at hvalid
  dsimp only
  have htail : ∀ n, isTail (UInt8.ofNat (n % 0x40 + 0x80)) = true := by
    intro n
    rw [isTail_iff, toNat_ofNat (by omega)]
    omega
  have hlast : ∀ n, ∀ t ∈ [UInt8.ofNat (n % 0x40 + 0x80)], isTail t = true := by
    intro n
    simp only [List.mem_singleton, forall_eq, htail]
  have hhead : ∀ n < 256, n < 0x80 ∨ 0xC0 ≤ n → isTail (UInt8.ofNat n) = false := by
    intro n hlt hn
    rw [Bool.eq_false_iff, Ne, isTail_iff, toNat_ofNat hlt]
    omega
  split
  · exact ⟨_, _, rfl, hhead _ (by omega) (by omega), by simp⟩
  split
  · exact ⟨_, _, rfl, hhead _ (by omega) (by omega), hlast _⟩
  split
  · exact ⟨_, _, rfl, hhead _ (by omega) (by omega),
      List.forall_mem_cons.2 ⟨htail _, hlast _⟩⟩
  · exact ⟨_, _, rfl, hhead _ (by omega) (by omega),
      List.forall_mem_cons.2 ⟨htail _, List.forall_mem_cons.2 ⟨htail _, hlast _⟩⟩⟩

/-- A byte that continues no character begins one, so whole characters are before it. -/
theorem exists_split {cs : List Char} {p q : Bytes} {b : UInt8} (h : encode cs = p ++ b :: q)
    (hb : isTail b = false) :
    ∃ before after, cs = before ++ after ∧ encode before = p ∧ encode after = b :: q := by
  induction cs generalizing p with
  | nil => cases p <;> cases h
  | cons c cs ih =>
    obtain ⟨b', tail, hchar, -, htail⟩ := utf8EncodeChar_eq_cons c
    cases p with
    | nil => exact ⟨[], c :: cs, rfl, rfl, h⟩
    | cons _ p =>
      rw [encode_cons, hchar, List.cons_append, List.cons_append, List.cons.injEq] at h
      obtain ⟨rfl, h⟩ := h
      -- The byte is not among those that continue the first character.
      have hpast : ∃ r, p = tail ++ r ∧ encode cs = r ++ b :: q := by
        rcases List.append_eq_append_iff.1 h with hpast | ⟨r, htails, hrest⟩
        · exact hpast
        · cases r with
          | nil => exact ⟨[], by simpa using htails.symm, hrest.symm⟩
          | cons t r =>
            obtain ⟨rfl, -⟩ := List.cons.inj hrest
            have hcontinues := htail b (by simp [htails])
            rw [hb] at hcontinues
            cases hcontinues
      obtain ⟨r, rfl, hrest⟩ := hpast
      obtain ⟨before, after, rfl, hbefore, hafter⟩ := ih hrest
      refine ⟨c :: before, after, rfl, ?_, hafter⟩
      rw [encode_cons, hchar, hbefore, List.cons_append]

/-- Where the bytes of some characters are found among those of others, the characters are:
whole characters are before and after them. -/
theorem exists_occurrence {cs part : List Char} {p q : Bytes} (hpart : part ≠ [])
    (h : encode cs = p ++ (encode part ++ q)) :
    ∃ before after, cs = before ++ (part ++ after) ∧ encode before = p ∧ encode after = q := by
  obtain ⟨c, part, rfl⟩ := List.exists_cons_of_ne_nil hpart
  obtain ⟨b, tail, hchar, hhead, -⟩ := utf8EncodeChar_eq_cons c
  have hstart : encode (c :: part) ++ q = b :: (tail ++ encode part ++ q) := by
    rw [encode_cons, hchar]
    rfl
  obtain ⟨before, after, rfl, hbefore, hafter⟩ := exists_split (hstart ▸ h) hhead
  rw [← hstart] at hafter
  have hchars := decode_encode_append (c :: part) q
  rw [← hafter, decode_encode] at hchars
  rw [hchars, encode_append] at hafter
  exact ⟨before, decode q, by rw [hchars], hbefore, List.append_cancel_left hafter⟩

/-! ### Ill-formed pieces -/

/-- Bytes of characters. -/
def Valid (bytes : Bytes) : Prop := ∃ cs, bytes = encode cs

/-- Bytes with the replacement character in place of some pieces between characters, each
of at most three bytes. -/
inductive Mended : Bytes → Bytes → Prop where
  | nil : Mended [] []
  | char {c : Char} {s t : Bytes} (h : Mended s t) :
      Mended (utf8EncodeChar c ++ s) (utf8EncodeChar c ++ t)
  | piece {p s t : Bytes} (hlength : p.length ≤ 3) (h : Mended s t) :
      Mended (p ++ s) (utf8EncodeChar replacement ++ t)

theorem mended_decode (s : Bytes) : Mended s (encode (decode s)) := by
  fun_induction decode s with
  | case1 => exact .nil
  | case2 b rest ih =>
    rw [encode_cons]
    have hstep := decodeOne_step b rest
    generalize decodeOne b rest = r at ih hstep
    cases hstep with
    | char h =>
      rw [h]
      exact .char ih
    | @replaced n h =>
      have hpiece : b :: rest = (b :: rest.take n) ++ rest.drop n := by simp
      rw [hpiece]
      exact .piece (by simp; omega) ih

namespace Mended

variable {s t : Bytes}

theorem length_le (h : Mended s t) : s.length ≤ t.length := by
  induction h with
  | nil => exact Nat.le_refl _
  | char _ ih => simpa using ih
  | piece hlength _ ih =>
    have hreplacement : (utf8EncodeChar replacement).length = 3 := rfl
    simp only [List.length_append]
    omega

theorem mem (h : Mended s t) {b : UInt8} (hb : b ∈ t) :
    b ∈ s ∨ b ∈ utf8EncodeChar replacement := by
  induction h with
  | nil => exact .inl hb
  | char _ ih =>
    rcases List.mem_append.1 hb with hb | hb
    · exact .inl (List.mem_append_left _ hb)
    · exact (ih hb).imp_left (List.mem_append_right _)
  | piece _ _ ih =>
    rcases List.mem_append.1 hb with hb | hb
    · exact .inr hb
    · exact (ih hb).imp_left (List.mem_append_right _)

/-- Where nothing changes there was nothing to replace: a piece that is its own replacement
is a character. -/
theorem valid (h : Mended s t) (heq : s = t) : Valid s := by
  induction h with
  | nil => exact ⟨[], rfl⟩
  | @char c s t _ ih =>
    obtain ⟨cs, rfl⟩ := ih (List.append_cancel_left heq)
    exact ⟨c :: cs, (encode_cons c cs).symm⟩
  | @piece p s t hlength h ih =>
    have hle := h.length_le
    have hreplacement : (utf8EncodeChar replacement).length = 3 := rfl
    have htotal := congrArg List.length heq
    simp only [List.length_append] at htotal
    obtain ⟨rfl, hrest⟩ := List.append_inj heq (by omega)
    obtain ⟨cs, rfl⟩ := ih hrest
    exact ⟨replacement :: cs, (encode_cons replacement cs).symm⟩

end Mended

theorem length_le_mended (s : Bytes) : s.length ≤ (encode (decode s)).length :=
  (mended_decode s).length_le

/-- Replacing ill-formed pieces leaves exactly the bytes of characters alone. -/
theorem encode_decode_iff (s : Bytes) : encode (decode s) = s ↔ Valid s := by
  constructor
  · exact fun h => (mended_decode s).valid h.symm
  · rintro ⟨cs, rfl⟩
    rw [decode_encode]

theorem zero_not_mem_encode_decode {s : Bytes} (h : 0 ∉ s) : 0 ∉ encode (decode s) := by
  intro hzero
  rcases (mended_decode s).mem hzero with hmem | hmem
  · exact h hmem
  · revert hmem
    decide

end TinyScript.Text.Utf8
