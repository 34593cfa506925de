import Mathlib.Data.List.Forall2
import TinyScript.Ir.Printer
import TinyScript.Proofs.Ir.Emission
import TinyScript.Proofs.Ir.Functions

/-! The string constants of a module in print. All of them would like to have one name, so
they are told apart by a number, which is counted over all names of the module. Functions
never ask for a name that is taken and no name of theirs starts with a point; so the number
of a constant is how many constants stand before it. -/

namespace TinyScript.Ir

open Text (Bytes)
open Printer (Names)

/-! ### Names -/

/-- The name of a string constant with some others before it. -/
def globalName : Nat → String
  | 0 => ".str"
  | k + 1 => ".str." ++ toString (k + 1)

theorem toList_globalName_succ (k : Nat) :
    (globalName (k + 1)).toList = ".str.".toList ++ Nat.toDigits 10 (k + 1) := by
  simp [globalName]

theorem globalName_succ_ne_zero (k : Nat) : globalName (k + 1) ≠ globalName 0 := by
  intro h
  have hlength := congrArg (fun s => s.toList.length) h
  rw [toList_globalName_succ] at hlength
  simp [globalName] at hlength

theorem globalName_injective {j k : Nat} (h : globalName j = globalName k) : j = k := by
  cases j with
  | zero =>
    cases k with
    | zero => rfl
    | succ k => exact absurd h.symm (globalName_succ_ne_zero k)
  | succ j =>
    cases k with
    | zero => exact absurd h (globalName_succ_ne_zero j)
    | succ k =>
      have hlist := congrArg String.toList h
      rw [toList_globalName_succ, toList_globalName_succ] at hlist
      have hdigits := List.append_cancel_left hlist
      have hvalue := congrArg (fun ds => Nat.ofDigitChars 10 ds 0) hdigits
      simpa using hvalue

theorem head?_globalName (k : Nat) : (globalName k).toList.head? = some '.' := by
  cases k with
  | zero => rfl
  | succ k =>
    rw [toList_globalName_succ]
    rfl

/-- No name of a function starts with a point. -/
theorem External.head?_name (f : External) : f.name.toList.head? ≠ some '.' := by
  have hall : ∀ f ∈ all, f.name.toList.head? ≠ some '.' := by decide +kernel
  exact hall f f.mem_all

theorem globalName_ne_name (k : Nat) (f : External) : globalName k ≠ f.name := by
  intro h
  exact f.head?_name (h ▸ head?_globalName k)

theorem globalName_ne_main (k : Nat) : globalName k ≠ "main" := by
  intro h
  have hhead := head?_globalName k
  rw [h] at hhead
  exact absurd hhead (by decide)

/-- What a symbol would like to be called. -/
def Symbol.wish : Symbol → String
  | .text _ => ".str"
  | .function d => d.name

/-- What symbols are called with this many string constants before them. -/
def symbolNames (k : Nat) : List Symbol → List String
  | [] => []
  | .text _ :: ss => globalName k :: symbolNames (k + 1) ss
  | .function d :: ss => d.name :: symbolNames k ss

/-- Of the names of string constants, those of the first few are taken. -/
def Taken (k : Nat) (taken : List String) : Prop := ∀ i, globalName i ∈ taken ↔ i < k

/-- The count of numbers is one behind the constants, the first of which needs none. -/
theorem fresh_text {taken : List String} {k : Nat} (h : Taken k taken) :
    Naming.fresh "." ".str" taken (k - 1) = (globalName k, k) := by
  cases k with
  | zero =>
    have hfree : ".str" ∉ taken := fun hmem => Nat.not_lt_zero 0 ((h 0).1 hmem)
    rw [Naming.fresh, if_neg hfree]
    rfl
  | succ k =>
    have htaken : ".str" ∈ taken := (h 0).2 k.succ_pos
    have hfree : globalName (k + 1) ∉ taken := fun hmem => Nat.lt_irrefl _ ((h _).1 hmem)
    rw [Naming.fresh, if_pos htaken]
    cases taken with
    | nil => cases htaken
    | cons name names =>
      rw [List.length_cons, Naming.numbered]
      exact if_neg hfree

theorem Taken.text {taken : List String} {k : Nat} (h : Taken k taken) :
    Taken (k + 1) (globalName k :: taken) := by
  intro i
  rw [List.mem_cons, h i]
  constructor
  · rintro (heq | hlt)
    · rw [globalName_injective heq]
      exact Nat.lt_succ_self k
    · omega
  · intro hlt
    rcases Nat.lt_succ_iff_lt_or_eq.1 hlt with hlt | rfl
    · exact .inr hlt
    · exact .inl rfl

theorem Taken.other {taken : List String} {k : Nat} (h : Taken k taken) {name : String}
    (hname : ∀ i, globalName i ≠ name) : Taken k (name :: taken) := by
  intro i
  rw [List.mem_cons, h i]
  exact or_iff_right (hname i)

/-- A module whose functions have names of their own: one is the function to start with, and
the others are different functions that a module can declare. -/
structure Module.Named (m : Module) : Prop where
  main : m.main.name = "main"
  declared : ∀ d ∈ m.declarations, ∃ f : External, d = f.declaration
  distinct : m.declarations.Nodup

/-- Constants are numbered and functions keep their names, as none of these is taken. -/
theorem assign_symbols {ss : List Symbol} {taken : List String} {k : Nat} (htaken : Taken k taken)
    (hdeclared : ∀ d ∈ ss.filterMap Symbol.declaration?, ∃ f : External, d = f.declaration)
    (hnodup : (ss.filterMap Symbol.declaration?).Nodup)
    (hfree : ∀ d ∈ ss.filterMap Symbol.declaration?, d.name ∉ taken) :
    Naming.assign "." taken (k - 1) (ss.map Symbol.wish) = symbolNames k ss := by
  induction ss generalizing taken k with
  | nil => rfl
  | cons s ss ih =>
    cases s with
    | text t =>
      -- What a constant takes is no wish of a function that is still to come.
      have htail := ih htaken.text hdeclared hnodup fun d hd hmem => by
        rcases List.mem_cons.1 hmem with heq | hmem
        · obtain ⟨f, rfl⟩ := hdeclared d hd
          exact globalName_ne_name k f heq.symm
        · exact hfree d hd hmem
      rw [List.map_cons, Symbol.wish, Naming.assign, fresh_text htaken]
      exact congrArg (globalName k :: ·) htail
    | function d =>
      change ∀ e ∈ d :: ss.filterMap Symbol.declaration?, ∃ f : External, e = f.declaration
        at hdeclared
      change (d :: ss.filterMap Symbol.declaration?).Nodup at hnodup
      change ∀ e ∈ d :: ss.filterMap Symbol.declaration?, e.name ∉ taken at hfree
      obtain ⟨⟨f, rfl⟩, hrest⟩ := List.forall_mem_cons.1 hdeclared
      obtain ⟨hnew, hnodup⟩ := List.nodup_cons.1 hnodup
      obtain ⟨hf, hfree⟩ := List.forall_mem_cons.1 hfree
      have hother := htaken.other fun i => globalName_ne_name i f
      have htail := ih hother hrest hnodup fun d hd hmem => by
        rcases List.mem_cons.1 hmem with heq | hmem
        · obtain ⟨g, rfl⟩ := hrest d hd
          exact hnew (External.name_injective heq ▸ hd)
        · exact hfree d hd hmem
      rw [List.map_cons, Symbol.wish, Naming.assign, Naming.fresh, if_neg hf]
      exact congrArg (f.name :: ·) htail

/-- The names under which a module prints its symbols. -/
theorem names_symbols {m : Module} (h : m.Named) :
    (Names.ofModule m).symbols = (symbolNames 0 m.symbols).toArray := by
  have hmain : Taken 0 ["main"] := Taken.other (fun i => by simp) globalName_ne_main
  have hassigned := assign_symbols hmain h.declared h.distinct fun d hd hmem => by
    obtain ⟨f, rfl⟩ := h.declared d hd
    exact f.name_ne_main (List.mem_singleton.1 hmem)
  show ((Naming.unique "." (m.main.name :: m.symbols.map Symbol.wish)).drop 1).toArray = _
  rw [h.main, ← hassigned]
  rfl

/-! ### Constants -/

/-- A string constant as it is printed. -/
structure Global where
  name : String
  bytes : Bytes
  deriving DecidableEq, Repr

/-- What is stored for a text: its bytes before the first NUL, and one NUL. -/
def stored (t : String) : Bytes := Bytes.cut (Text.Utf8.encode t.toList) ++ [0]

/-- The string constants among symbols, under their names. -/
def globalsIn (names : List String) (ss : List Symbol) : List Global :=
  (names.zip ss).filterMap fun (name, s) => s.text?.map fun t => ⟨name, stored t⟩

/-- The string constants of a module, in its order. -/
def Module.globals (m : Module) : List Global :=
  globalsIn (Names.ofModule m).symbols.toList m.symbols

/-- The string constant that is the symbol with an index. -/
def Module.global? (m : Module) (k : Nat) : Option Global :=
  (m.text? k).map fun t => ⟨(Names.ofModule m).symbols.getD k "", stored t⟩

/-- A string constant in print. -/
def Global.line (g : Global) : String :=
  "@" ++ g.name ++ " = private unnamed_addr constant " ++ (Ty.array g.bytes.length .i8).render ++
    " c\"" ++ Printer.escape g.bytes ++ "\", align 1"

theorem globalsIn_symbolNames (k : Nat) (ss : List Symbol) :
    globalsIn (symbolNames k ss) ss =
      (ss.filterMap Symbol.text?).mapIdx fun i t => ⟨globalName (k + i), stored t⟩ := by
  induction ss generalizing k with
  | nil => rfl
  | cons s ss ih =>
    cases s with
    | text t =>
      have htail := ih (k + 1)
      simp only [Nat.add_assoc, Nat.add_comm 1] at htail
      show _ = (t :: ss.filterMap Symbol.text?).mapIdx _
      rw [List.mapIdx_cons, ← htail]
      rfl
    | function d => exact ih k

/-- The string constants of a module are its texts, numbered in their order. -/
theorem Module.globals_eq {m : Module} (h : m.Named) :
    m.globals =
      (m.symbols.filterMap Symbol.text?).mapIdx fun i t => ⟨globalName i, stored t⟩ := by
  rw [globals, names_symbols h]
  simpa using globalsIn_symbolNames 0 m.symbols

theorem constants_eq (names locals : Array String) (slots : Array Slot) (i : Nat)
    (ss : List Symbol) (h : i + ss.length ≤ names.size) :
    Printer.constants ⟨locals, names, slots⟩ i ss =
      (globalsIn (names.toList.drop i) ss).map Global.line := by
  induction ss generalizing i with
  | nil => simp [Printer.constants, globalsIn]
  | cons s ss ih =>
    rw [List.length_cons] at h
    have hlt : i < names.toList.length := by
      rw [Array.length_toList]
      omega
    have htail := ih (i + 1) (by omega)
    rw [List.drop_eq_getElem_cons hlt]
    cases s with
    | text t =>
      have hname : names.getD i "" = names.toList[i] := by
        simp [Array.getD, show i < names.size by omega]
      rw [Printer.constants, htail]
      show _ = Global.line ⟨names.toList[i], stored t⟩ :: _
      rw [← hname]
      rfl
    | function d =>
      rw [Printer.constants, htail]
      rfl

/-- They are what is printed for them. -/
theorem Module.constants_globals (m : Module) :
    Printer.constants (Names.ofModule m) 0 m.symbols = m.globals.map Global.line := by
  have hsize : 0 + m.symbols.length ≤ (Names.ofModule m).symbols.size := by
    simp [Names.ofModule, Naming.length_unique]
  exact constants_eq _ _ _ 0 m.symbols hsize

/-- An operand is printed as the name of its constant. -/
theorem Module.operand_global {m : Module} {k : Nat} {g : Global} (h : m.global? k = some g) :
    Printer.operand (Names.ofModule m) (.text k) = "@" ++ g.name := by
  obtain ⟨t, _, rfl⟩ := Option.map_eq_some_iff.1 h
  rfl

theorem symbolNames_text {ss : List Symbol} {j : Nat} {t : String} (h : ss[j]? = some (.text t))
    (k : Nat) : ∃ i, (ss.filterMap Symbol.text?)[i]? = some t ∧
      (symbolNames k ss)[j]? = some (globalName (k + i)) := by
  induction ss generalizing j k with
  | nil => cases h
  | cons s ss ih =>
    cases j with
    | zero =>
      cases h
      exact ⟨0, rfl, rfl⟩
    | succ j =>
      cases s with
      | text u =>
        obtain ⟨i, htext, hname⟩ := ih h (k + 1)
        rw [Nat.add_assoc, Nat.add_comm 1] at hname
        exact ⟨i + 1, htext, hname⟩
      | function d => exact ih h k

/-- The constant of an operand is the one of its text. -/
theorem Module.global?_eq {m : Module} (h : m.Named) {k : Nat} {t : String}
    (ht : m.text? k = some t) : ∃ i, (m.symbols.filterMap Symbol.text?)[i]? = some t ∧
      m.global? k = some ⟨globalName i, stored t⟩ := by
  have hsymbol : m.symbols[k]? = some (.text t) := by
    obtain ⟨s, hs, hst⟩ := Option.bind_eq_some_iff.1 ht
    cases s <;> cases hst
    exact hs
  obtain ⟨i, htext, hname⟩ := symbolNames_text hsymbol 0
  refine ⟨i, htext, ?_⟩
  rw [global?, ht, names_symbols h]
  rw [Nat.zero_add] at hname
  simp [Array.getD_eq_getD_getElem?, hname]

/-! ### Pools -/

/-- The string constants of a module are a pool of texts, and its string operands, block
after block in an order of the blocks that is given by their numbers, stand for certain of
these texts. -/
structure Module.Pools (m : Module) (order : List Nat) (pool used : List String) : Prop where
  /-- No text is stored twice. -/
  texts : pool.Nodup
  /-- The constants are numbered in the order of the pool. -/
  globals : m.globals = pool.mapIdx fun i t => ⟨globalName i, stored t⟩
  /-- No two constants share a name. -/
  names : (m.globals.map Global.name).Nodup
  /-- They stand in the text of the module. -/
  lines : Printer.constants (Names.ofModule m) 0 m.symbols = m.globals.map Global.line
  /-- The order is one of all blocks. -/
  blocks : order.Perm (m.main.blocks.map Block.id)
  /-- The operands, one for one, are the constants of these texts. -/
  operands : List.Forall₂ (fun k t => ∃ i, pool[i]? = some t ∧
      m.global? k = some ⟨globalName i, stored t⟩ ∧
      Printer.operand (Names.ofModule m) (.text k) = "@" ++ globalName i)
    ((order.filterMap m.main.block?).flatMap Block.texts) used

theorem nodup_globalNames (pool : List String) :
    ((pool.mapIdx fun i t => (⟨globalName i, stored t⟩ : Global)).map Global.name).Nodup := by
  rw [List.Nodup, List.pairwise_iff_getElem]
  intro i j hi hj hlt heq
  simp only [List.getElem_map, List.getElem_mapIdx] at heq
  exact absurd (globalName_injective heq) (Nat.ne_of_lt hlt)

theorem block?_order {m : Module} (h : (m.main.blocks.map Block.id).Nodup) {bs : List Block}
    (hbs : ∀ b ∈ bs, b ∈ m.main.blocks) : (bs.map Block.id).filterMap m.main.block? = bs := by
  rw [List.filterMap_map]
  exact (List.filterMap_congr fun b hb => Function.block?_of_mem h (hbs b hb)).trans
    List.filterMap_some

/-- A module that has no text and no function twice pools its texts. -/
theorem Module.pools {m : Module} {used : List String} (h : m.Named) (hsymbols : m.symbols.Nodup)
    (hids : (m.main.blocks.map Block.id).Nodup) {bs : List Block} (hbs : bs.Perm m.main.blocks)
    (hused : (bs.flatMap Block.texts).map m.text? = used.map some) :
    m.Pools (bs.map Block.id) (m.symbols.filterMap Symbol.text?) used := by
  have hglobals := globals_eq h
  refine ⟨?_, hglobals, ?_, constants_globals m, hbs.map Block.id, ?_⟩
  · exact hsymbols.filterMap fun _ _ _ ht ht' => Symbol.text?_injective ht ht'
  · rw [hglobals]
    exact nodup_globalNames _
  · rw [block?_order hids fun b hb => hbs.mem_iff.1 hb]
    rw [← List.forall₂_eq_eq_eq, List.forall₂_map_left_iff, List.forall₂_map_right_iff] at hused
    refine hused.imp fun k t ht => ?_
    obtain ⟨i, hi, hglobal⟩ := global?_eq h ht
    exact ⟨i, hi, hglobal, operand_global hglobal⟩

end TinyScript.Ir
