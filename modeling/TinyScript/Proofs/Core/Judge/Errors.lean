import TinyScript.Proofs.Ast.Sourced
import TinyScript.Proofs.Core.Judge

/-! What may be wrong with a program that has a text. A type name is unknown only where
a declaration is annotated with it, since the type names that array literals suggest are
all known; and no call is of an unknown function. -/

namespace TinyScript.Core.Judge

open Ast (Annotates)

/-- What may be wrong with a program that was read from tokens. -/
def Possible (ts : List Token) : CheckError → Prop
  | .unknownFunction _ => False
  | .unknownType name => Annotates name ts ∧ Ty.ofName? name = none
  | .unsupported feature => feature ∈
      ["an integer literal outside the i32 range", "object literal", "object property access"]
  | _ => True

/-- A verdict that is only wrong as is possible. -/
def Fails {α : Type} (ts : List Token) (x : Verdict α) : Prop := ∀ e, x = .error e → Possible ts e

section Fails

variable {α β : Type} {ts : List Token} {types : Types}

theorem Fails.ok (a : α) : Fails ts (.ok a) := nofun

theorem Fails.error {e : CheckError} (h : Possible ts e) : Fails ts (.error e : Verdict α) := by
  rintro _ ⟨⟩
  exact h

theorem Fails.bind {x : Verdict α} {f : α → Verdict β} (hx : Fails ts x)
    (hf : ∀ a, Fails ts (f a)) : Fails ts (x >>= f) := by
  cases x with
  | error e =>
    rintro _ ⟨⟩
    exact hx e rfl
  | ok a => exact hf a

/-! ### Expressions -/

end Fails

end TinyScript.Core.Judge
