import TinyScript.Proofs.Text.Run
import TinyScript.Text.Quoted

/-! Quoted text read back. What a character is written as begins with a backslash or is
the character, and what follows a backslash shows where it ends, so characters come off
the front one by one and no two texts are quoted alike. A quoted text is on one line. -/

namespace TinyScript.Text.Quoted

/-! ### Numbers -/

/-- The value of a hexadecimal digit in lower case. -/
def hexDigit (c : Char) : Nat :=
  if c.isDigit then c.toNat - '0'.toNat else c.toNat - 'a'.toNat + 10

def hexValue (cs : List Char) : Nat :=
  cs.foldl (fun n c => n * 16 + hexDigit c) 0

theorem hex_step (n : Nat) :
    hex n = if n < 16 then [n.digitChar] else hex (n / 16) ++ [(n % 16).digitChar] :=
  Nat.toDigits_eq_if (by decide)

theorem hexDigit_digitChar : ∀ d < 16, hexDigit d.digitChar = d := by decide

theorem hexValue_hex (n : Nat) : hexValue (hex n) = n := by
  induction n using Nat.strongRecOn with
  | ind n ih =>
    rw [hex_step]
    split
    · rename_i hn
      simp [hexValue, hexDigit_digitChar n hn]
    · have hdigit := hexDigit_digitChar (n % 16) (Nat.mod_lt _ (by decide))
      have hrest : hexValue (hex (n / 16)) = n / 16 := ih _ (by omega)
      rw [hexValue] at hrest ⊢
      rw [List.foldl_append, hrest, List.foldl_cons, List.foldl_nil, hdigit]
      omega

/-- What is none of the sixteen digits is in no number. -/
theorem not_mem_hex {c : Char} (h : ∀ d < 16, d.digitChar ≠ c) (n : Nat) : c ∉ hex n := by
  induction n using Nat.strongRecOn with
  | ind n ih =>
    rw [hex_step]
    split
    · rename_i hn
      simpa using (h n hn).symm
    · rw [List.mem_append, List.mem_singleton, not_or]
      exact ⟨ih _ (by omega), (h _ (Nat.mod_lt _ (by decide))).symm⟩

/-! ### Characters -/

/-- A character off the front of quoted contents, and what follows it. -/
def readChar : List Char → Option (Char × List Char)
  | [] => none
  | '\\' :: '0' :: cs => some ('\x00', cs)
  | '\\' :: 't' :: cs => some ('\t', cs)
  | '\\' :: 'r' :: cs => some ('\r', cs)
  | '\\' :: 'n' :: cs => some ('\n', cs)
  | '\\' :: 'u' :: cs =>
    some (Char.ofNat (hexValue ((cs.drop 1).takeWhile (· ≠ '\x7d'))),
      ((cs.drop 1).dropWhile (· ≠ '\x7d')).drop 1)
  | '\\' :: c :: cs => some (c, cs)
  | c :: cs => some (c, cs)

theorem readChar_byNumber (c : Char) (cs : List Char) :
    readChar (byNumber c ++ cs) = some (c, cs) := by
  obtain ⟨htake, hdrop⟩ := (Run.before (not_mem_hex (c := '\x7d') (by decide) c.toNat) cs).split
  have hwritten : byNumber c ++ cs =
      '\\' :: 'u' :: '\x7b' :: (hex c.toNat ++ '\x7d' :: cs) := by simp [byNumber]
  rw [hwritten, readChar, List.drop_succ_cons, List.drop_zero, htake, hdrop, hexValue_hex,
    Char.ofNat_toNat, List.drop_succ_cons, List.drop_zero]

/-- A written character is read back. -/
theorem readChar_escape (c : Char) (cs : List Char) :
    readChar (escape c ++ cs) = some (c, cs) := by
  unfold escape
  split
  case h_7 =>
    rename_i hbackslash hquote
    split
    · exact readChar_byNumber c cs
    · rw [List.cons_append, List.nil_append, readChar]
      all_goals simp_all
  all_goals rfl

theorem escape_ne_nil (c : Char) : escape c ≠ [] := by
  intro h
  have hread := readChar_escape c []
  rw [h] at hread
  cases hread

theorem contents_injective {cs ds : List Char} (h : cs.flatMap escape = ds.flatMap escape) :
    cs = ds := by
  induction cs generalizing ds with
  | nil =>
    cases ds with
    | nil => rfl
    | cons d ds =>
      rw [List.flatMap_nil, List.flatMap_cons] at h
      exact absurd (List.append_eq_nil_iff.1 h.symm).1 (escape_ne_nil d)
  | cons c cs ih =>
    cases ds with
    | nil =>
      rw [List.flatMap_nil, List.flatMap_cons] at h
      exact absurd (List.append_eq_nil_iff.1 h).1 (escape_ne_nil c)
    | cons d ds =>
      have hread := congrArg readChar h
      rw [List.flatMap_cons, List.flatMap_cons, readChar_escape, readChar_escape] at hread
      obtain ⟨rfl, hrest⟩ := Prod.mk.inj (Option.some.inj hread)
      rw [ih hrest]

/-- **Quoting loses nothing.** -/
theorem render_injective {s t : String} (h : render s = render t) : s = t := by
  have hlist := congrArg String.toList h
  simp only [render, quote, String.toList_ofList, List.cons.injEq, true_and,
    List.cons_append, List.append_cancel_right_eq] at hlist
  exact String.toList_inj.1 (contents_injective hlist)

theorem newline_not_mem_escape (c : Char) : '\n' ∉ escape c := by
  have hnumber : '\n' ∉ byNumber c := by
    have hdigits := not_mem_hex (c := '\n') (by decide) c.toNat
    simp [byNumber, hdigits]
  unfold escape
  split
  case h_7 hnewline _ _ =>
    split
    · exact hnumber
    · simpa using fun h => hnewline h.symm
  all_goals decide

theorem newline_not_mem_render (s : String) : '\n' ∉ (render s).toList := by
  simp only [render, quote, String.toList_ofList, List.cons_append, List.mem_cons, List.mem_append,
    List.mem_flatMap, List.not_mem_nil, or_false, not_or, not_exists, not_and]
  exact ⟨by decide, fun c _ => newline_not_mem_escape c, by decide⟩

end TinyScript.Text.Quoted
