import TinyScript.Proofs.Core.Typing
import TinyScript.Proofs.Induction
import TinyScript.Proofs.Library.Typing

/-! Nothing that holds a value is void. The types of declarations and of elements
come from names, and no name stands for the type without values or for arrays of
it; so the places of a program hold values, and every typed expression gives one. -/

namespace TinyScript

/-- A type that has values, down to the elements of its arrays. -/
def Ty.Solid : Ty → Prop
  | .void => False
  | .array elem => elem.Solid
  | _ => True

theorem Ty.Solid.ne_void {t : Ty} (h : t.Solid) : t ≠ .void := by
  rintro rfl
  exact h

theorem Ty.Solid.hasValues {t : Ty} (h : t.Solid) : t.hasValues = true := by
  induction t with
  | void => cases h
  | array elem ih => exact ih h
  | _ => rfl

theorem Ty.solid_scalarOfName? {name : String} {t : Ty} (h : scalarOfName? name = some t) :
    t.Solid := by
  unfold scalarOfName? at h
  split at h <;> cases h
  all_goals trivial

theorem Ty.solid_ofName? {name : String} {t : Ty} (h : ofName? name = some t) : t.Solid := by
  unfold ofName? at h
  split at h
  · obtain ⟨elem, helem, rfl⟩ := Option.map_eq_some_iff.1 h
    show elem.Solid
    exact solid_scalarOfName? helem
  · exact solid_scalarOfName? h

theorem Ty.solid_nameOrInt (name : String) : ((ofName? name).getD .i32).Solid := by
  cases h : ofName? name with
  | none => trivial
  | some t => exact solid_ofName? h

namespace Meaning

def Place.Solid : Place → Prop
  | cell t => t.Solid
  | storage elem _ => elem.Solid

/-- All of these places hold values. -/
def Solid (P : List Place) : Prop := ∀ place ∈ P, place.Solid

theorem Solid.nil : Solid [] := fun _ h => (nomatch h)

theorem Solid.append {P Q : List Place} (hP : Solid P) (hQ : Solid Q) : Solid (P ++ Q) :=
  List.forall_mem_append.2 ⟨hP, hQ⟩

theorem Solid.single {place : Place} (h : place.Solid) : Solid [place] :=
  List.forall_mem_singleton.2 h

theorem Solid.get {P : List Place} (h : Solid P) {k : Nat} {place : Place}
    (hk : P[k]? = some place) : place.Solid := h place (List.mem_of_getElem? hk)

namespace Source

/-! ### Places of the parts of a program -/

section Parts

variable {R : Place → Prop}

theorem forall_placesIn {es : List Ast.Expr} (h : ∀ e ∈ es, ∀ place ∈ places e, R place) :
    ∀ place ∈ placesIn es, R place := by
  induction es with
  | nil => exact nofun
  | cons e es ih =>
    rw [List.forall_mem_cons] at h
    exact List.forall_mem_append.2 ⟨h.1, ih h.2⟩

theorem forall_optionPlaces {e : Option Ast.Expr} (h : ∀ e' ∈ e, ∀ place ∈ places e', R place) :
    ∀ place ∈ (e.map places).getD [], R place := by
  cases e with
  | none => exact nofun
  | some e => exact h e rfl

theorem forall_stmtsPlaces {ss : List Ast.Stmt} (h : ∀ s ∈ ss, ∀ place ∈ stmtPlaces s, R place) :
    ∀ place ∈ stmtsPlaces ss, R place := by
  induction ss with
  | nil => exact nofun
  | cons s ss ih =>
    rw [List.forall_mem_cons] at h
    exact List.forall_mem_append.2 ⟨h.1, ih h.2⟩

theorem forall_clausePlaces {s : Option Ast.Stmt} (h : ∀ s' ∈ s, ∀ place ∈ stmtPlaces s', R place) :
    ∀ place ∈ clausePlaces s, R place := by
  cases s with
  | none => exact nofun
  | some s => exact h s rfl

end Parts

/-! ### All places hold values -/

theorem places_solid (e : Ast.Expr) : Solid (places e) := by
  induction e using Ast.Expr.induct with
  | str s => exact .nil
  | int n => exact .nil
  | float d => exact .nil
  | bool b => exact .nil
  | var x => exact .nil
  | binary op l r hl hr => exact hl.append hr
  | array hint es hes =>
    exact Solid.append (forall_placesIn hes) (.single (Ty.solid_nameOrInt hint))
  | index a i ha hi => exact ha.append hi
  | object fields _ => exact .nil
  | member base x hbase => exact hbase
  | call x args hargs => exact forall_placesIn hargs

theorem option_solid (e : Option Ast.Expr) : Solid ((e.map places).getD []) :=
  forall_optionPlaces fun e _ => places_solid e

theorem declaredType_solid (type : String) (init : Option Ast.Expr) :
    (declaredType type init).Solid := by
  unfold declaredType
  split
  · split
    · trivial
    · trivial
    · trivial
    · exact Ty.solid_nameOrInt _
    · trivial
  · exact Ty.solid_nameOrInt type

theorem stmtPlaces_solid (s : Ast.Stmt) : Solid (stmtPlaces s) := by
  induction s using Ast.Stmt.induct with
  | declare x t init => exact (option_solid init).append (.single (declaredType_solid t init))
  | assign x e => exact places_solid e
  | setElement a i e => exact ((places_solid a).append (places_solid i)).append (places_solid e)
  | expr e => exact places_solid e
  | branch cond yes no hyes hno =>
    exact ((places_solid cond).append (forall_stmtsPlaces hyes)).append (forall_stmtsPlaces hno)
  | loopWhile cond body hbody => exact (places_solid cond).append (forall_stmtsPlaces hbody)
  | doWhile body cond hbody => exact Solid.append (forall_stmtsPlaces hbody) (places_solid cond)
  | loopFor init cond step body hinit hstep hbody =>
    have hstart := Solid.append (forall_clausePlaces hinit) (option_solid cond)
    exact (hstart.append (forall_stmtsPlaces hbody)).append (forall_clausePlaces hstep)

/-- The places of a program hold values. -/
theorem program_solid (p : Ast.Program) : Solid (stmtsPlaces p) :=
  forall_stmtsPlaces fun s _ => stmtPlaces_solid s

end Source

/-- A typed expression gives a value. -/
theorem Solid.type {L : List Place} (h : Solid L) {e : Core.Expr} (he : Core.Typed L e) :
    e.type.Solid := by
  induction he with
  | load place => exact h.get place
  | array _ _ place => exact h.get place
  | element _ _ atype _ ha =>
    rw [atype] at ha
    exact ha
  | @call f es _ _ result =>
    show f.signature.result.Solid
    cases hr : f.signature.result with
    | void => exact absurd hr result
    | array elem => exact absurd hr (f.result_not_array elem)
    | _ => trivial
  | _ => trivial

end Meaning

end TinyScript
