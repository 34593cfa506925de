import TinyScript.Proofs.Ir.Emission
import TinyScript.Proofs.Ir.Functions

/-! Modules that link. Linking knows functions by their names only. In a linked module the
names are those of different functions, so what stands under the name of a call is what the
call was made for: a declaration of the type that its arguments were lowered against, and
at its address a routine that does what the function does. -/

namespace TinyScript.Ir

/-- The functions that a module may declare although the registry does not know them. -/
def unregistered : List String := ["printf", "puts", "strcmp", "__cype_bounds_fail"]

/-- A module whose calls all find what they were made for. -/
structure Module.Linked (m : Module) : Prop where
  /-- One function has a body, and it is the one to start with. -/
  defined : m.functions.filter (·.blocks > 0) = [⟨"main", m.main.sections.length⟩]
  /-- It takes nothing and gives an `i32`. -/
  type : m.main.type = ⟨.i32, [], false⟩
  /-- No two functions share a name. -/
  names : (m.functions.map Linkable.name).Nodup
  /-- What is declared is what is called. -/
  called : ∀ d, d ∈ m.declarations ↔
    ∃ b ∈ m.main.blocks, ∃ f ∈ b.callees, f.declaration = d
  /-- The registry knows it, with its type, or it is one of four others. -/
  known : ∀ d ∈ m.declarations, d.name ∈ unregistered ∨
    ∃ g, Builtin.ofName? d.name = some (.library g) ∧ d.type = .ofSignature g.signature
  /-- Under the name of a call stands a declaration that takes the arguments of the call. -/
  calls : ∀ b ∈ m.main.blocks, ∀ i ∈ b.body, ∀ f args, i.op = .call f args →
    m.declarations.find? (·.name = f.name) = some ⟨f.name, f.type⟩ ∧
      f.type.Takes (args.map Operand.type) ∧ (i.id = none ↔ f.type.result = .void)
  /-- All but the functions of the C library have an address in the runtime. -/
  addresses : ∀ d ∈ m.declarations, (address? d.name).isSome ↔ d.name ∉ cLibrary
  /-- What is at the address of a call does what the call is for. -/
  serves : ∀ b ∈ m.main.blocks, ∀ f ∈ b.callees, ∀ r, address? f.name = some r → r.Serves f
  /-- Linking finds everything, each function at its address. -/
  links : ∃ mapping, link m.functions = .ok mapping ∧
    ∀ d ∈ m.declarations, mapping.lookup d.name = address? d.name

theorem External.known (f : External) : f.name ∈ unregistered ∨
    ∃ g, Builtin.ofName? f.name = some (.library g) ∧ f.type = .ofSignature g.signature := by
  cases f with
  | library g => exact .inr ⟨g, Builtin.ofName?_library g, rfl⟩
  | _ => exact .inl (by decide)

/-- Among the declarations of different functions, a name leads to the one it was taken from. -/
theorem find?_declaration {ds : List Declaration} (h : (ds.map Declaration.name).Nodup)
    {d : Declaration} (hd : d ∈ ds) : ds.find? (·.name = d.name) = some d := by
  cases hfind : ds.find? (·.name = d.name) with
  | none => exact absurd (List.find?_eq_none.1 hfind d hd) (by simp)
  | some d' =>
    have hname : d'.name = d.name := by simpa using List.find?_some hfind
    rw [List.inj_on_of_nodup_map h (List.mem_of_find?_eq_some hfind) hd hname]

namespace Module

variable {m : Module}

/-- If all calls of a module are declared, and nothing else, what is declared is what is
called. -/
theorem mem_declarations {order : List Block} (horder : order.Perm m.main.blocks)
    (hcalled : m.declarations =
      (order.flatMap Block.callees).eraseDups.map External.declaration) (d : Declaration) :
    d ∈ m.declarations ↔ ∃ b ∈ m.main.blocks, ∃ f ∈ b.callees, f.declaration = d := by
  simp only [hcalled, List.mem_map, List.mem_eraseDups, List.mem_flatMap, horder.mem_iff]
  exact ⟨fun ⟨f, ⟨b, hb, hf⟩, hd⟩ => ⟨b, hb, f, hf, hd⟩,
    fun ⟨b, hb, f, hf, hd⟩ => ⟨f, ⟨b, hb, hf⟩, hd⟩⟩

/-- Only the function that code was added to has a body. -/
theorem functions_defined (hsections : m.main.sections ≠ []) :
    m.functions.filter (·.blocks > 0) = [⟨m.main.name, m.main.sections.length⟩] := by
  have hbody : m.main.sections.length > 0 := List.length_pos_iff.2 hsections
  rw [functions, List.filter_cons_of_pos (by simpa using hbody),
    List.filter_eq_nil_iff.2 (List.forall_mem_map.2 fun d _ => by simp)]

/-- No declared function is called like the one with a body. -/
theorem functions_nodup (hname : m.main.name = "main")
    (hdeclared : ∀ d ∈ m.declarations, ∃ f : External, d = f.declaration)
    (hnames : (m.declarations.map Declaration.name).Nodup) :
    (m.functions.map Linkable.name).Nodup := by
  rw [functions, List.map_cons, List.map_map, hname]
  refine List.nodup_cons.2 ⟨fun hmain => ?_, hnames⟩
  obtain ⟨d, hd, hdname⟩ := List.mem_map.1 hmain
  obtain ⟨f, rfl⟩ := hdeclared d hd
  exact f.name_ne_main hdname

/-- A well-formed module that declares what it calls is linked. -/
theorem WellFormed.linked (h : m.WellFormed) (hname : m.main.name = "main")
    (htype : m.main.type = ⟨.i32, [], false⟩) {order : List Block}
    (horder : order.Perm m.main.blocks)
    (hcalled : m.declarations =
      (order.flatMap Block.callees).eraseDups.map External.declaration) : m.Linked := by
  have hsections : m.main.sections ≠ [] := by
    obtain ⟨entry, rest, _, hsections, -⟩ := h.hoisted
    rw [hsections]
    exact List.cons_ne_nil _ _
  have hmem := mem_declarations horder hcalled
  have hdeclared : ∀ d ∈ m.declarations, ∃ f : External, d = f.declaration := by
    intro d hd
    obtain ⟨_, _, f, _, rfl⟩ := (hmem d).1 hd
    exact ⟨f, rfl⟩
  have hnames : (m.declarations.map Declaration.name).Nodup := by
    rw [hcalled, List.map_map]
    exact (nodup_eraseDups _).map fun _ _ => External.name_injective
  refine {
    defined := hname ▸ functions_defined hsections
    type := htype
    names := functions_nodup hname hdeclared hnames
    called := hmem
    known := ?_
    calls := ?_
    addresses := ?_
    serves := fun _ _ f _ _ hr => address?_serves f hr
    links := ⟨_, link_functions hname hsections hdeclared, ?_⟩ }
  · intro d hd
    obtain ⟨f, rfl⟩ := hdeclared d hd
    exact f.known
  · intro b hb i hi f args hop
    obtain ⟨htyped, hid⟩ := h.instrs b hb i hi
    rw [hop] at htyped hid
    have hd : f.declaration ∈ m.declarations := List.mem_filterMap.2 ⟨_, htyped.1, rfl⟩
    exact ⟨find?_declaration hnames hd, htyped.2, hid⟩
  · intro d hd
    obtain ⟨f, rfl⟩ := hdeclared d hd
    rw [Option.isSome_iff_ne_none]
    exact not_congr (address?_eq_none f)
  · exact fun d hd => lookup_mapped (List.mem_cons_of_mem _ (List.mem_map.2 ⟨d, hd, rfl⟩))

end Module

end TinyScript.Ir
