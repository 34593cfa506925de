import TinyScript.Text.Escaped

/-! Text between double quotes, with every character that would not show as
itself written as an escape. -/

namespace TinyScript.Text.Quoted

/-- Lower-case hexadecimal digits, without padding. -/
def hex (n : Nat) : List Char :=
  Nat.toDigits 16 n

/-- A backslash, `u` and the code point in braces. -/
def byNumber (c : Char) : List Char :=
  ['\\', 'u', '\x7b'] ++ hex c.toNat ++ ['\x7d']

def escape (c : Char) : List Char :=
  match c with
  | '\x00' => ['\\', '0']
  | '\t' => ['\\', 't']
  | '\r' => ['\\', 'r']
  | '\n' => ['\\', 'n']
  | '\\' => ['\\', '\\']
  | '"' => ['\\', '"']
  | c => if isEscaped c then byNumber c else [c]

def quote (cs : List Char) : List Char :=
  '"' :: cs.flatMap escape ++ ['"']

/-- A string in its quoted form. -/
def render (s : String) : String :=
  String.ofList (quote s.toList)

end TinyScript.Text.Quoted
