/-! Characters as bytes and bytes as characters. A program's strings are byte
lists that need not be well formed: a cut can fall inside a character. `decode`
reads any byte list, and each maximal ill-formed piece of it becomes one
replacement character, so decoding what was encoded gives the characters back
and nothing else is promised. -/

namespace TinyScript.Text

abbrev Bytes := List UInt8

namespace Utf8

def encode (cs : List Char) : Bytes :=
  cs.flatMap String.utf8EncodeChar

/-- How many bytes the characters take. -/
def size : List Char → Nat
  | [] => 0
  | c :: cs => c.utf8Size + size cs

@[simp]
theorem size_nil : size [] = 0 := rfl

@[simp]
theorem size_cons (c : Char) (cs : List Char) : size (c :: cs) = c.utf8Size + size cs := rfl

@[simp]
theorem size_append (cs ds : List Char) : size (cs ++ ds) = size cs + size ds := by
  induction cs with
  | nil => simp
  | cons c cs ih => simp [ih, Nat.add_assoc]

theorem length_encode (cs : List Char) : (encode cs).length = size cs := by
  induction cs with
  | nil => rfl
  | cons c cs ih => simp_all [encode]

theorem encode_append (cs ds : List Char) : encode (cs ++ ds) = encode cs ++ encode ds := by
  simp [encode]

/-- What a first byte announces: how many bytes follow it and, where not every
continuation byte may come second, the bounds of the second. -/
inductive Lead where
  | one
  | two
  | three (lo hi : UInt8)
  | four (lo hi : UInt8)
  | stray
  deriving DecidableEq

def lead (b : UInt8) : Lead :=
  if b < 0x80 then .one
  else if b < 0xC2 then .stray
  else if b < 0xE0 then .two
  else if b = 0xE0 then .three 0xA0 0xBF
  else if b = 0xED then .three 0x80 0x9F
  else if b < 0xF0 then .three 0x80 0xBF
  else if b = 0xF0 then .four 0x90 0xBF
  else if b < 0xF4 then .four 0x80 0xBF
  else if b = 0xF4 then .four 0x80 0x8F
  else .stray

def within (lo hi b : UInt8) : Bool :=
  lo ≤ b && b ≤ hi

def isTail (b : UInt8) : Bool :=
  within 0x80 0xBF b

/-- The character whose code has the given low six bits after each shift. -/
def assemble (first : Nat) (tails : List UInt8) : Char :=
  Char.ofNat (tails.foldl (fun n b => n * 64 + b.toNat % 64) first)

/-- Stands for a piece that is no character. -/
def replacement : Char := '\uFFFD'

/-- One character off the front of a nonempty byte list and the number of
further bytes that went into it. An ill-formed front gives the replacement
character and takes the longest beginning of a character that is there. -/
def decodeOne (b : UInt8) (rest : Bytes) : Char × Nat :=
  match lead b with
  | .one => (Char.ofNat b.toNat, 0)
  | .stray => (replacement, 0)
  | .two =>
    match rest with
    | c :: _ => if isTail c then (assemble (b.toNat % 32) [c], 1) else (replacement, 0)
    | [] => (replacement, 0)
  | .three lo hi =>
    match rest with
    | c :: d :: _ =>
      if !within lo hi c then (replacement, 0)
      else if !isTail d then (replacement, 1)
      else (assemble (b.toNat % 16) [c, d], 2)
    | [c] => (replacement, if within lo hi c then 1 else 0)
    | [] => (replacement, 0)
  | .four lo hi =>
    match rest with
    | c :: d :: e :: _ =>
      if !within lo hi c then (replacement, 0)
      else if !isTail d then (replacement, 1)
      else if !isTail e then (replacement, 2)
      else (assemble (b.toNat % 8) [c, d, e], 3)
    | [c, d] =>
      (replacement, if !within lo hi c then 0 else if !isTail d then 1 else 2)
    | [c] => (replacement, if within lo hi c then 1 else 0)
    | [] => (replacement, 0)

/-- The characters of a byte list, ill-formed pieces replaced. -/
def decode : Bytes → List Char
  | [] => []
  | b :: rest => (decodeOne b rest).1 :: decode (rest.drop (decodeOne b rest).2)
termination_by bytes => bytes.length
decreasing_by simp only [List.length_drop, List.length_cons]; omega

end Utf8

/-- The bytes before the first NUL. -/
def Bytes.cut (bytes : Bytes) : Bytes :=
  bytes.takeWhile (· ≠ 0)

end TinyScript.Text
