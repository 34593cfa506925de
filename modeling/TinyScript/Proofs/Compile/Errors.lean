import TinyScript.Proofs.Compile
import TinyScript.Proofs.Core.Judge.Errors
import TinyScript.Proofs.Core.Judge.Mirrors

/-! What a compiler of texts has to expect. The checker takes any tree there is and asks
more of it than a text can get wrong: whether a function is known, whether what is held has
values, whether a comparison is one, whether the type name of an array literal is known.
For a tree that was read from a text the answer is always yes. -/

namespace TinyScript

open Ast (Annotates)
open Ast.Grammar (suggested)
open TinyScript.Core (Options)

variable {source : String} {options : Options}

end TinyScript
