import TinyScript.Library.Signature
import TinyScript.Number.Double
import TinyScript.Text.Utf8

/-! What library functions take and give. A string is its bytes, none of them
NUL, or missing altogether; an array is passed with the elements it has at the
time. -/

namespace TinyScript.Library

open Number (Double)
open Text (Bytes)

inductive Value where
  | void
  | i32 (value : Int32)
  | f64 (value : Double)
  | str (bytes : Option Bytes)
  | array (elements : List Int32)
  deriving DecidableEq, Repr

/-- A text as a string argument. It ends at its first NUL. -/
def Value.ofText (text : String) : Value :=
  .str (some (Text.Bytes.cut (Text.Utf8.encode text.toList)))

end TinyScript.Library
