/-! The arguments of the command line. They are read from left to right, and the
first that is wrong makes the whole line wrong; what comes after `--help` or
`--version` is not read. -/

namespace TinyScript.CommandLine

/-- What to make of a program. -/
inductive Emit where
  | tokens
  | ast
  | ir
  deriving DecidableEq, Repr

def Emit.ofName? : String → Option Emit
  | "tokens" => some tokens
  | "ast" => some ast
  | "ir" => some ir
  | _ => none

/-- What was asked for; what was not is missing. -/
structure Arguments where
  input : Option String
  output : Option String
  emit : Option Emit
  run : Bool
  moduleName : Option String
  noBoundsChecks : Bool
  deriving DecidableEq, Repr

namespace Arguments

def none : Arguments := ⟨.none, .none, .none, false, .none, false⟩

end Arguments

/-- What a command line asks for. -/
inductive Request where
  | help
  | version
  | process (arguments : Arguments)
  deriving DecidableEq, Repr

/-- Options without a value. -/
inductive Switch where
  | run
  | noBoundsChecks
  deriving DecidableEq, Repr

/-- Options with a value. -/
inductive Setting where
  | output
  | emit
  | moduleName
  deriving DecidableEq, Repr

/-- What an argument is by its form. -/
inductive Form where
  | help
  | version
  | switch (switch : Switch)
  /-- The value may be attached, or be the next argument. -/
  | setting (setting : Setting) (value : Option String)
  | endOfOptions
  | operand
  | unknown
  deriving DecidableEq, Repr

namespace Form

/-- Options written out, without a value attached. -/
def ofLongName : String → Form
  | "help" => .help
  | "version" => .version
  | "run" => .switch .run
  | "no-bounds-checks" => .switch .noBoundsChecks
  | "output" => .setting .output none
  | "emit" => .setting .emit none
  | "module-name" => .setting .moduleName none
  | _ => .unknown

/-- Only a setting takes an attached value. -/
def attach (value : String) : Form → Form
  | .setting s none => .setting s (some value)
  | _ => .unknown

/-- What follows two dashes. -/
def ofLong (cs : List Char) : Form :=
  let name := ofLongName (String.ofList (cs.takeWhile (· ≠ '=')))
  match cs.dropWhile (· ≠ '=') with
  | [] => name
  | _ :: value => name.attach (String.ofList value)

/-- What follows one dash. A value may be attached with an equals sign or
without. -/
def ofShort : List Char → Form
  | 'h' :: _ => .help
  | 'V' :: _ => .version
  | ['o'] => .setting .output none
  | 'o' :: '=' :: value => .setting .output (some (String.ofList value))
  | 'o' :: value => .setting .output (some (String.ofList value))
  | _ => .unknown

/-- A dash alone is an operand. -/
def ofArgument (arg : String) : Form :=
  match arg.toList with
  | ['-', '-'] => .endOfOptions
  | '-' :: '-' :: cs => ofLong cs
  | ['-'] => .operand
  | '-' :: cs => ofShort cs
  | _ => .operand

end Form

namespace Arguments

/-- No switch is given twice. -/
def turnOn (a : Arguments) : Switch → Option Arguments
  | .run => if a.run then .none else some { a with run := true }
  | .noBoundsChecks => if a.noBoundsChecks then .none else some { a with noBoundsChecks := true }

/-- A path is not empty. -/
def path? (value : String) : Option String := if value = "" then .none else some value

/-- No setting is given twice. -/
def set (a : Arguments) (s : Setting) (value : String) : Option Arguments :=
  match s with
  | .output =>
    if a.output.isSome then .none
    else (path? value).map fun path => { a with output := some path }
  | .emit =>
    if a.emit.isSome then .none
    else (Emit.ofName? value).map fun emit => { a with emit := some emit }
  | .moduleName =>
    if a.moduleName.isSome then .none else some { a with moduleName := some value }

/-- There is one operand at most. -/
def operand (a : Arguments) (value : String) : Option Arguments :=
  if a.input.isSome then .none
  else (path? value).map fun path => { a with input := some path }

/-- Reads arguments that are all operands. -/
def operands (a : Arguments) : List String → Option Arguments
  | [] => some a
  | value :: rest => (a.operand value).bind (operands · rest)

end Arguments

/-- Reads arguments after those that `a` holds. -/
def Request.readAfter (a : Arguments) : List String → Option Request
  | [] => some (.process a)
  | arg :: rest =>
    match Form.ofArgument arg with
    | .help => some .help
    | .version => some .version
    | .switch s => (a.turnOn s).bind (readAfter · rest)
    | .setting s (some value) => (a.set s value).bind (readAfter · rest)
    | .setting s none =>
      match rest with
      | [] => none
      | value :: rest =>
        if Form.ofArgument value = .operand then (a.set s value).bind (readAfter · rest)
        else none
    | .endOfOptions => (a.operands rest).map .process
    | .operand => (a.operand arg).bind (readAfter · rest)
    | .unknown => none

/-- What a command line asks for, if it is well formed. -/
def Request.read? (args : List String) : Option Request := readAfter .none args

end TinyScript.CommandLine
