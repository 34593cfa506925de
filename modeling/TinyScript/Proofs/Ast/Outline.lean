import TinyScript.Ast.Tree
import TinyScript.Proofs.Text.Run

/-! Indented lines read back. A line's first word ends at its first blank, a line ends at
its line break, and what stands under a line is what follows it with more blanks in
front. So the text shows the lines, and the lines show the tree that was laid out. -/

namespace TinyScript.Ast.Tree

/-! ### Labels -/

/-- First words of lines. -/
inductive Head where
  | string | int | float | bool | var | binary | array | index | object | property | member
  | call | declare | assign | setElement | expr | branch | loopWhile | doWhile | loopFor
  | cond | yes | no | body | init | step
  deriving DecidableEq

namespace Head

def word : Head → String
  | string => "string" | int => "int" | float => "float" | bool => "bool" | var => "var"
  | binary => "binary" | array => "array" | index => "index" | object => "object"
  | property => "property" | member => "member" | call => "call" | declare => "let"
  | assign => "assign" | setElement => "index-assign" | expr => "expr" | branch => "if"
  | loopWhile => "while" | doWhile => "do-while" | loopFor => "for" | cond => "cond"
  | yes => "then" | no => "else" | body => "body" | init => "init" | step => "step"

def all : List Head :=
  [string, int, float, bool, var, binary, array, index, object, property, member, call,
    declare, assign, setElement, expr, branch, loopWhile, doWhile, loopFor, cond, yes, no,
    body, init, step]

def ofWord? (word : String) : Option Head :=
  all.find? (·.word == word)

theorem ofWord?_word (h : Head) : ofWord? h.word = some h := by
  cases h <;> decide

theorem word_injective {h h' : Head} (hword : h.word = h'.word) : h = h' := by
  have hread := ofWord?_word h
  rw [hword, ofWord?_word] at hread
  exact (Option.some.inj hread).symm

theorem word_plain (h : Head) : ∀ c ∈ h.word.toList, c ≠ ' ' ∧ c ≠ '\n' := by
  have hall : h.word.toList.all fun c => c ≠ ' ' ∧ c ≠ '\n' := by
    cases h <;> decide
  simpa using hall

theorem word_ne_nil (h : Head) : h.word.toList ≠ [] := by
  cases h <;> decide

end Head

/-- A line's first word and, after a blank, the rest of the line. -/
structure Label where
  head : Head
  detail : Option String

namespace Label

def text (l : Label) : String :=
  match l.detail with
  | none => l.head.word
  | some detail => l.head.word ++ " " ++ detail

/-- What stands after the first word. -/
def tail (l : Label) : List Char :=
  match l.detail with
  | none => []
  | some detail => ' ' :: detail.toList

theorem text_eq (l : Label) : l.text.toList = l.head.word.toList ++ l.tail := by
  unfold text tail
  split <;> simp

theorem tail_injective {l l' : Label} (h : l.tail = l'.tail) : l.detail = l'.detail := by
  unfold tail at h
  split at h <;> split at h
  · simp_all
  · cases h
  · cases h
  · simp_all [String.toList_inj]

theorem text_injective {l l' : Label} (h : l.text = l'.text) : l = l' := by
  have hlist : l.head.word.toList ++ l.tail = l'.head.word.toList ++ l'.tail := by
    rw [← text_eq, ← text_eq, h]
  have hrun : ∀ l : Label, Text.Run (· ≠ ' ') l.head.word.toList l.tail := by
    intro l
    refine ⟨fun c hc => by simpa using (l.head.word_plain c hc).1, ?_⟩
    unfold tail
    split <;> simp
  obtain ⟨hword, htail⟩ := (hrun l).unique (hrun l') hlist
  have hhead := Head.word_injective (String.toList_inj.1 hword)
  have hdetail := tail_injective htail
  cases l
  cases l'
  simp_all

end Label

/-! ### Lines -/

/-- Text of one line that begins with a word. -/
structure Fits (text : String) : Prop where
  oneLine : '\n' ∉ text.toList
  begins : text.toList.head? ≠ some ' '

theorem fits_label {l : Label} (h : ∀ detail ∈ l.detail, '\n' ∉ detail.toList) : Fits l.text := by
  obtain ⟨c, cs, hword⟩ := List.exists_cons_of_ne_nil l.head.word_ne_nil
  have hplain := l.head.word_plain
  constructor
  · rw [Label.text_eq, List.mem_append, not_or]
    refine ⟨fun hmem => (hplain _ hmem).2 rfl, ?_⟩
    unfold Label.tail
    split
    · nofun
    · rename_i detail hdetail
      rw [List.mem_cons, not_or]
      exact ⟨by decide, h detail hdetail⟩
  · rw [Label.text_eq, hword]
    intro hhead
    exact (hplain c (by rw [hword]; exact List.mem_cons_self)).1 (Option.some.inj hhead)

theorem render_cons (l : Line) (ls : List Line) :
    (render (l :: ls)).toList =
      List.replicate (2 * l.depth) ' ' ++ l.text.toList ++ '\n' :: (render ls).toList := by
  simp [render, Line.render, String.join_cons]

/-- The depth and the text of a line from its characters. -/
theorem indented_injective {n n' : Nat} {cs cs' : List Char} (h : cs.head? ≠ some ' ')
    (h' : cs'.head? ≠ some ' ')
    (heq : List.replicate n ' ' ++ cs = List.replicate n' ' ' ++ cs') : n = n' ∧ cs = cs' := by
  have hrun : ∀ {n : Nat} {cs : List Char}, cs.head? ≠ some ' ' →
      Text.Run (· = ' ') (List.replicate n ' ') cs := by
    refine fun hcs => ⟨fun c hc => by simp [List.eq_of_mem_replicate hc], fun c hc => ?_⟩
    rw [decide_eq_false_iff_not]
    rintro rfl
    exact hcs hc
  obtain ⟨hblanks, hcs⟩ := (hrun h).unique (hrun h') heq
  exact ⟨by simpa using congrArg List.length hblanks, hcs⟩

/-- **The text of a tree shows its lines.** -/
theorem render_injective {ls ls' : List Line} (hls : ∀ l ∈ ls, Fits l.text)
    (hls' : ∀ l ∈ ls', Fits l.text) (h : render ls = render ls') : ls = ls' := by
  induction ls generalizing ls' with
  | nil =>
    cases ls' with
    | nil => rfl
    | cons l' ls' =>
      have hlist := congrArg String.toList h
      rw [render_cons] at hlist
      simp [render] at hlist
  | cons l ls ih =>
    cases ls' with
    | nil =>
      have hlist := congrArg String.toList h
      rw [render_cons] at hlist
      simp [render] at hlist
    | cons l' ls' =>
      obtain ⟨hl, hls⟩ := List.forall_mem_cons.1 hls
      obtain ⟨hl', hls'⟩ := List.forall_mem_cons.1 hls'
      have hlist := congrArg String.toList h
      rw [render_cons, render_cons] at hlist
      have hbody : ∀ l : Line, Fits l.text →
          '\n' ∉ List.replicate (2 * l.depth) ' ' ++ l.text.toList := by
        intro l hl
        rw [List.mem_append, not_or]
        exact ⟨fun hc => absurd (List.eq_of_mem_replicate hc) (by decide), hl.oneLine⟩
      obtain ⟨hindented, hrest⟩ :=
        (Text.Run.before (hbody l hl) _).unique (Text.Run.before (hbody l' hl') _) hlist
      obtain ⟨hdepth, htext⟩ := indented_injective hl.begins hl'.begins hindented
      have hline : l = l' := by
        cases l
        cases l'
        exact congr (congrArg Line.mk (Nat.eq_of_mul_eq_mul_left (by decide) hdepth))
          (String.toList_inj.1 htext)
      rw [hline, ih hls hls' (String.toList_inj.1 (List.cons.inj hrest).2)]

/-! ### Outlines -/

/-- A label with what stands under it. -/
inductive Outline where
  | node (label : Label) (parts : List Outline)

mutual

def Outline.lines (depth : Nat) : Outline → List Line
  | .node label parts => ⟨depth, label.text⟩ :: Outline.forest (depth + 1) parts

def Outline.forest (depth : Nat) : List Outline → List Line
  | [] => []
  | t :: ts => t.lines depth ++ Outline.forest depth ts

end

namespace Outline

theorem forest_append (depth : Nat) (ts us : List Outline) :
    forest depth (ts ++ us) = forest depth ts ++ forest depth us := by
  induction ts with
  | nil => rfl
  | cons t ts ih => rw [List.cons_append, forest, forest, ih, List.append_assoc]

/-- Lines that end what stands at a depth: none, or first one with fewer blanks. -/
def Ends (depth : Nat) (ls : List Line) : Prop := ∀ l ∈ ls.head?, l.depth < depth

theorem forest_ends (depth : Nat) (ts : List Outline) {rest : List Line} (h : Ends depth rest) :
    Ends (depth + 1) (forest depth ts ++ rest) := by
  cases ts with
  | nil => exact fun l hl => Nat.lt_succ_of_lt (h l hl)
  | cons t ts =>
    cases t
    rintro _ ⟨⟩
    exact Nat.lt_succ_self depth

mutual

theorem lines_injective {depth : Nat} (t t' : Outline) {rest rest' : List Line}
    (hrest : Ends (depth + 1) rest) (hrest' : Ends (depth + 1) rest')
    (h : t.lines depth ++ rest = t'.lines depth ++ rest') : t = t' ∧ rest = rest' := by
  obtain ⟨label, parts⟩ := t
  obtain ⟨label', parts'⟩ := t'
  rw [lines, lines, List.cons_append, List.cons_append] at h
  obtain ⟨hline, hunder⟩ := List.cons.inj h
  have hlabel := Label.text_injective (Line.mk.inj hline).2
  obtain ⟨hparts, hrests⟩ := forest_injective parts parts' hrest hrest' hunder
  exact ⟨by rw [hlabel, hparts], hrests⟩

/-- **Lines show the tree.** -/
theorem forest_injective {depth : Nat} (ts ts' : List Outline) {rest rest' : List Line}
    (hrest : Ends depth rest) (hrest' : Ends depth rest')
    (h : forest depth ts ++ rest = forest depth ts' ++ rest') : ts = ts' ∧ rest = rest' := by
  match ts, ts' with
  | [], [] => exact ⟨rfl, h⟩
  | [], .node label parts :: ts' =>
    refine absurd (hrest ⟨depth, label.text⟩ ?_) (Nat.lt_irrefl depth)
    have hhead := congrArg List.head? h
    exact hhead
  | .node label parts :: ts, [] =>
    refine absurd (hrest' ⟨depth, label.text⟩ ?_) (Nat.lt_irrefl depth)
    have hhead := congrArg List.head? h
    exact hhead.symm
  | t :: ts, t' :: ts' =>
    rw [forest, forest, List.append_assoc, List.append_assoc] at h
    obtain ⟨rfl, hmore⟩ := lines_injective t t' (forest_ends depth ts hrest)
      (forest_ends depth ts' hrest') h
    obtain ⟨rfl, hrests⟩ := forest_injective ts ts' hrest hrest' hmore
    exact ⟨rfl, hrests⟩

end

/-- Every label is on one line. -/
inductive Clean : Outline → Prop where
  | node {label : Label} {parts : List Outline}
      (hlabel : ∀ detail ∈ label.detail, '\n' ∉ detail.toList)
      (hparts : ∀ t ∈ parts, Clean t) : Clean (.node label parts)

theorem mem_forest {depth : Nat} {ts : List Outline} {l : Line} :
    l ∈ forest depth ts ↔ ∃ t ∈ ts, l ∈ t.lines depth := by
  induction ts with
  | nil => simp [forest]
  | cons t ts ih => simp [forest, ih]

theorem Clean.fits {t : Outline} (h : t.Clean) {depth : Nat} {l : Line} (hl : l ∈ t.lines depth) :
    Fits l.text := by
  induction h generalizing depth with
  | node hlabel _ ih =>
    rw [lines, List.mem_cons] at hl
    obtain rfl | hl := hl
    · exact fits_label hlabel
    · obtain ⟨t, ht, hl⟩ := mem_forest.1 hl
      exact ih t ht hl

end Outline

end TinyScript.Ast.Tree
