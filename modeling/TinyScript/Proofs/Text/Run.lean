/-! Runs of characters of one class. A run ends where a character of another class
follows, so a text that begins with one shows it and what comes after it. -/

namespace TinyScript.Text

variable {p : Char → Bool} {cs cs' rest rest' : List Char}

/-- Characters of a class, and after them none or first one that is not of it. -/
structure Run (p : Char → Bool) (cs rest : List Char) : Prop where
  inside : ∀ c ∈ cs, p c = true
  after : ∀ c ∈ rest.head?, p c = false

namespace Run

theorem split (h : Run p cs rest) :
    (cs ++ rest).takeWhile p = cs ∧ (cs ++ rest).dropWhile p = rest := by
  rw [List.takeWhile_append_of_pos h.inside, List.dropWhile_append_of_pos h.inside]
  cases rest with
  | nil => simp
  | cons c rest => simp [h.after c rfl]

theorem unique (h : Run p cs rest) (h' : Run p cs' rest') (htext : cs ++ rest = cs' ++ rest') :
    cs = cs' ∧ rest = rest' := by
  obtain ⟨htake, hdrop⟩ := h.split
  obtain ⟨htake', hdrop'⟩ := h'.split
  rw [htext] at htake hdrop
  exact ⟨htake.symm.trans htake', hdrop.symm.trans hdrop'⟩

/-- What is before a separator. -/
theorem before {c : Char} (h : c ∉ cs) (rest : List Char) :
    Run (· ≠ c) cs (c :: rest) := by
  refine ⟨fun d hd => ?_, by simp⟩
  rw [decide_eq_true_eq]
  rintro rfl
  exact h hd

end Run

end TinyScript.Text
