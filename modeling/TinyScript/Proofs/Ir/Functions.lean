import Mathlib.Data.List.Nodup
import TinyScript.Ir.Link
import TinyScript.Library.Call

/-! The functions that a module can declare, and where they are found. No two of them share
a name, so a name says which function is meant. A declared function is found at an address
of the runtime unless it is one of the C library, and what is there does what the function
does. Linking succeeds exactly if everything without a body is found in one of the two
places and there is a function to start with. -/

namespace TinyScript

theorem Library.Function.mem_all (f : Library.Function) : f ∈ all :=
  List.mem_of_find?_eq_some (ofName?_name f)

/-- The registry knows every function of the library by its name. -/
theorem Builtin.ofName?_library (f : Library.Function) : ofName? f.name = some (.library f) := by
  have hother {name : String} (hnone : Library.Function.ofName? name = none) : f.name ≠ name := by
    rintro rfl
    rw [Library.Function.ofName?_name] at hnone
    cases hnone
  have hprint := hother (show Library.Function.ofName? "print" = none by decide +kernel)
  have hprintln := hother (show Library.Function.ofName? "println" = none by decide +kernel)
  rw [ofName?, if_neg hprint, if_neg hprintln, Library.Function.ofName?_name]
  rfl

namespace Ir

/-! ### Names -/

namespace External

/-- The functions that a module can declare. -/
def all : List External :=
  [printf, puts, strcmp, boundsFail] ++ Library.Function.all.map library

theorem mem_all (f : External) : f ∈ all := by
  cases f with
  | library g => exact List.mem_append_right _ (List.mem_map_of_mem g.mem_all)
  | _ => decide

/-- No two of them share a name. -/
theorem name_injective {f g : External} (h : f.name = g.name) : f = g := by
  have hnodup : (all.map name).Nodup := by decide +kernel
  exact List.inj_on_of_nodup_map hnodup f.mem_all g.mem_all h

theorem declaration_injective : (declaration : External → Declaration).Injective :=
  fun _ _ h => name_injective (congrArg Declaration.name h)

theorem name_ne_main (f : External) : f.name ≠ "main" := by
  have hall : ∀ f ∈ all, f.name ≠ "main" := by decide +kernel
  exact hall f f.mem_all

end External

/-! ### Addresses -/

/-- Whether what is at an address does what a function is declared for. -/
def Routine.Serves : Routine → External → Prop
  | .boundsFail, .boundsFail => True
  | .library g, .library f => g.signature = f.signature ∧ ∀ w, g.call? w = f.call? w
  | _, _ => False

/-- A name of the library leads to a routine that does the same. Some functions share one. -/
theorem address?_library (f : Library.Function) : ∃ g, address? f.name = some (.library g) ∧
    g.signature = f.signature ∧ ∀ w, g.call? w = f.call? w := by
  have hown : ∀ f ∈ Library.Function.all, f = .simdArraySum ∨ f = .simdArrayMax ∨
      f = .simdArrayMin ∨ address? f.name = some (.library f) := by decide +kernel
  rcases hown f f.mem_all with rfl | rfl | rfl | haddress
  · exact ⟨.arraySum, by decide +kernel, rfl, fun _ => rfl⟩
  · exact ⟨.arrayMax, by decide +kernel, rfl, fun _ => rfl⟩
  · exact ⟨.arrayMin, by decide +kernel, rfl, fun _ => rfl⟩
  · exact ⟨f, haddress, rfl, fun _ => rfl⟩

/-- Only the functions of the C library have no address in the runtime. -/
theorem address?_eq_none (f : External) : address? f.name = none ↔ f.name ∈ cLibrary := by
  have hall : ∀ f ∈ External.all, address? f.name = none ↔ f.name ∈ cLibrary := by decide +kernel
  exact hall f f.mem_all

theorem address?_serves (f : External) {r : Routine} (h : address? f.name = some r) :
    r.Serves f := by
  cases f with
  | library f =>
    obtain ⟨g, hg, hsame⟩ := address?_library f
    cases hg.symm.trans h
    exact hsame
  | boundsFail =>
    cases h
    trivial
  | _ => cases h

/-! ### Linking -/

namespace Linkable

/-- A function that is neither here nor anywhere else. -/
def Missing (f : Linkable) : Prop := f.blocks = 0 ∧ address? f.name = none ∧ f.name ∉ cLibrary

/-- What a function without a body is mapped to, if it is found in the runtime. -/
def mapped? (f : Linkable) : Option (String × Routine) :=
  if f.blocks > 0 then none else (address? f.name).map (f.name, ·)

theorem mapped?_eq_none {f : Linkable} (h : f.blocks > 0) : f.mapped? = none := if_pos h

theorem mapped?_eq {f : Linkable} (h : ¬f.blocks > 0) :
    f.mapped? = (address? f.name).map (f.name, ·) := if_neg h

end Linkable

/-- Whatever has no body has to be found, and is mapped to what is at its address. -/
theorem resolve_eq_ok {fs : List Linkable} {mapping : List (String × Routine)} :
    resolve fs = .ok mapping ↔
      (∀ f ∈ fs, ¬f.Missing) ∧ mapping = fs.filterMap Linkable.mapped? := by
  induction fs generalizing mapping with
  | nil => simp [resolve, eq_comm]
  | cons f fs ih =>
    rw [resolve, List.forall_mem_cons]
    by_cases hbody : f.blocks > 0
    · have hfound : ¬f.Missing := fun h => Nat.ne_of_gt hbody h.1
      rw [if_pos hbody, ih, List.filterMap_cons_none (Linkable.mapped?_eq_none hbody)]
      simp [hfound]
    · have hblocks : f.blocks = 0 := Nat.eq_zero_of_not_pos hbody
      have hmapped := Linkable.mapped?_eq hbody
      rw [if_neg hbody]
      cases haddress : address? f.name with
      | some r =>
        have hfound : ¬f.Missing := fun h => nomatch haddress.symm.trans h.2.1
        rw [haddress] at hmapped
        rw [List.filterMap_cons_some hmapped]
        cases hrest : resolve fs with
        | ok rest =>
          obtain ⟨hall, rfl⟩ := ih.1 hrest
          have hall' : (¬f.Missing ∧ ∀ g ∈ fs, ¬g.Missing) ↔ True := iff_true_intro ⟨hfound, hall⟩
          rw [hall', true_and]
          exact (Except.ok.injEq _ _).to_iff.trans eq_comm
        | error e =>
          have hmissing : ¬∀ f ∈ fs, ¬f.Missing := fun h => nomatch hrest.symm.trans (ih.2 ⟨h, rfl⟩)
          simp [Except.map, hmissing]
      | none =>
        rw [haddress] at hmapped
        rw [List.filterMap_cons_none hmapped]
        by_cases hmem : f.name ∈ cLibrary
        · have hfound : ¬f.Missing := fun h => h.2.2 hmem
          simp [hmem, hfound, ih]
        · have hmissing : f.Missing := ⟨hblocks, haddress, hmem⟩
          simp [hmem, hmissing]

/-- **What can be linked.** Everything without a body is found, and there is a function to
start with. -/
theorem link_eq_ok {fs : List Linkable} {mapping : List (String × Routine)} :
    link fs = .ok mapping ↔
      (∀ f ∈ fs, ¬f.Missing) ∧ (∃ f ∈ fs, f.name = "main" ∧ f.blocks > 0) ∧
        mapping = fs.filterMap Linkable.mapped? := by
  have hmain : (fs.any fun f => f.name = "main" && f.blocks > 0) = true ↔
      ∃ f ∈ fs, f.name = "main" ∧ f.blocks > 0 := by simp
  unfold link
  cases hresolve : resolve fs with
  | error e =>
    have hmissing : ¬∀ f ∈ fs, ¬f.Missing :=
      fun h => nomatch hresolve.symm.trans (resolve_eq_ok.2 ⟨h, rfl⟩)
    simp [hmissing]
  | ok found =>
    obtain ⟨hall, rfl⟩ := resolve_eq_ok.1 hresolve
    show (if (fs.any fun f => f.name = "main" && f.blocks > 0) = true then _ else _) = _ ↔ _
    by_cases hstart : (fs.any fun f => f.name = "main" && f.blocks > 0) = true
    · rw [if_pos hstart, Except.ok.injEq]
      exact ⟨fun h => ⟨hall, hmain.1 hstart, h.symm⟩, fun h => h.2.2.symm⟩
    · rw [if_neg hstart]
      exact ⟨fun h => (nomatch h), fun h => absurd (hmain.2 h.2.1) hstart⟩

/-- In a mapping stands what is at the address of a name. -/
theorem lookup_mapped {fs : List Linkable} {name : String} (h : ⟨name, 0⟩ ∈ fs) :
    (fs.filterMap Linkable.mapped?).lookup name = address? name := by
  -- Whatever else has the name is mapped to the same.
  have hsame : ∀ e ∈ fs.filterMap Linkable.mapped?, address? e.1 = some e.2 := by
    intro e he
    obtain ⟨f, -, hf⟩ := List.mem_filterMap.1 he
    unfold Linkable.mapped? at hf
    split at hf
    · cases hf
    · obtain ⟨r, hr, rfl⟩ := Option.map_eq_some_iff.1 hf
      exact hr
  cases hlookup : (fs.filterMap Linkable.mapped?).lookup name with
  | some r =>
    obtain ⟨before, after, heq, -⟩ := List.lookup_eq_some_iff.1 hlookup
    exact (hsame (name, r) (heq ▸ List.mem_append_right _ List.mem_cons_self)).symm
  | none =>
    cases haddress : address? name with
    | none => rfl
    | some r =>
      have hmem : (name, r) ∈ fs.filterMap Linkable.mapped? :=
        List.mem_filterMap.2 ⟨_, h, by simp [Linkable.mapped?, haddress]⟩
      simpa using List.lookup_eq_none_iff.1 hlookup (name, r) hmem

/-- A module can be linked if it declares only functions that are known. -/
theorem Module.link_functions {m : Module} (hname : m.main.name = "main")
    (hbody : m.main.sections ≠ [])
    (hdeclared : ∀ d ∈ m.declarations, ∃ f : External, d = f.declaration) :
    link m.functions = .ok (m.functions.filterMap Linkable.mapped?) := by
  have hlength : m.main.sections.length > 0 := List.length_pos_iff.2 hbody
  refine link_eq_ok.2 ⟨List.forall_mem_cons.2 ⟨?_, ?_⟩, ?_, rfl⟩
  · exact fun h => Nat.ne_of_gt hlength h.1
  · refine List.forall_mem_map.2 fun d hd hmissing => ?_
    obtain ⟨f, rfl⟩ := hdeclared d hd
    exact hmissing.2.2 ((address?_eq_none f).1 hmissing.2.1)
  · exact ⟨_, List.mem_cons_self, hname, hlength⟩

end Ir

end TinyScript
