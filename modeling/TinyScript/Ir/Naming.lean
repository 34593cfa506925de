/-! Distinct names from names that may repeat. The first to ask for a name gets
it; whoever asks later gets it with a number, counted up over all names until
the result is free. -/

namespace TinyScript.Ir.Naming

/-- `base` with the first number after `count` that makes it free, trying
`fuel` numbers and then taking the next. -/
def numbered (separator base : String) (taken : List String) : Nat → Nat → String × Nat
  | 0, count => (base ++ separator ++ toString (count + 1), count + 1)
  | fuel + 1, count =>
    let name := base ++ separator ++ toString (count + 1)
    if name ∈ taken then numbered separator base taken fuel (count + 1) else (name, count + 1)

/-- A name that is not taken. There are more numbers to try than names taken. -/
def fresh (separator base : String) (taken : List String) (count : Nat) : String × Nat :=
  if base ∈ taken then numbered separator base taken taken.length count else (base, count)

/-- Names for a list of wishes, given the names taken before (latest first). -/
def assign (separator : String) (taken : List String) (count : Nat) : List String → List String
  | [] => []
  | base :: rest =>
    let (name, count) := fresh separator base taken count
    name :: assign separator (name :: taken) count rest

/-- Distinct names for a list of wishes. -/
def unique (separator : String) (wishes : List String) : List String :=
  assign separator [] 0 wishes

theorem length_assign (separator : String) (taken : List String) (count : Nat)
    (wishes : List String) : (assign separator taken count wishes).length = wishes.length := by
  induction wishes generalizing taken count with
  | nil => rfl
  | cons base rest ih => simp [assign, ih]

theorem length_unique (separator : String) (wishes : List String) :
    (unique separator wishes).length = wishes.length :=
  length_assign ..

end TinyScript.Ir.Naming
