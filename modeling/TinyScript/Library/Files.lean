import TinyScript.Text.Utf8

/-! The files that programs and the command line see: one directory with files
and nothing below it. -/

namespace TinyScript.Library

open Text (Bytes)

inductive FileError where
  | notFound
  | notADirectory
  | isADirectory
  | nameTooLong
  deriving DecidableEq, Repr

def FileError.message : FileError → String
  | notFound => "No such file or directory (os error 2)"
  | notADirectory => "Not a directory (os error 20)"
  | isADirectory => "Is a directory (os error 21)"
  | nameTooLong => "File name too long (os error 36)"

/-- Names and contents, each name once. -/
structure Files where
  entries : List (String × Bytes)
  deriving DecidableEq, Repr

namespace Files

def empty : Files := ⟨[]⟩

def get? (files : Files) (name : String) : Option Bytes := files.entries.lookup name

def insert (files : Files) (name : String) (contents : Bytes) : Files :=
  ⟨(name, contents) :: files.entries.filter (·.1 ≠ name)⟩

/-- Where a walk along a path stands. -/
inductive Place where
  /-- The directory of the files. -/
  | here
  /-- A directory above it. Nothing is known to be in it. -/
  | above
  deriving DecidableEq, Repr

/-- What a path leads to. -/
inductive Target where
  | directory
  /-- A name in a directory, whether there is such a file or not, and whether a
  slash follows it. -/
  | entry (place : Place) (name : List Char) (slash : Bool)
  deriving DecidableEq, Repr

/-- The parts of a path between slashes. -/
def splitPath : List Char → List (List Char)
  | [] => [[]]
  | c :: cs =>
    match splitPath cs with
    | part :: parts => if c = '/' then [] :: part :: parts else (c :: part) :: parts
    | [] => [[c]]

/-- A name has at most 255 bytes. -/
def isTooLong (name : List Char) : Bool := 255 < Text.Utf8.size name

/-- The contents of the file of a name. -/
def find (files : Files) (place : Place) (name : List Char) : Except FileError Bytes :=
  if isTooLong name then .error .nameTooLong
  else
    match place, files.get? (String.ofList name) with
    | .here, some contents => .ok contents
    | _, _ => .error .notFound

/-- Takes a part of a path that is not the last. There are no directories but
those above, so a name always ends the walk. -/
def enter (files : Files) (place : Place) (part : List Char) : Except FileError Place :=
  if part = ['.'] then .ok place
  else if part = ['.', '.'] then .ok .above
  else
    match files.find place part with
    | .ok _ => .error .notADirectory
    | .error e => .error e

/-- Follows a path up to its last part. A path has fewer than 4096 bytes. -/
def resolve (files : Files) (path : List Char) : Except FileError Target :=
  if path = [] then .error .notFound
  else if 4096 ≤ Text.Utf8.size path then .error .nameTooLong
  else
    let parts := (splitPath path).filter (· ≠ [])
    match parts.getLast? with
    | none => .ok .directory
    | some last => do
      let start := if path.head? = some '/' then .above else .here
      let place ← parts.dropLast.foldlM files.enter start
      if last = ['.'] ∨ last = ['.', '.'] then return .directory
      return .entry place last (path.getLast? = some '/')

def read (files : Files) (path : List Char) : Except FileError Bytes := do
  match ← files.resolve path with
  | .directory => .error .isADirectory
  | .entry place name slash =>
    let contents ← files.find place name
    if slash then .error .notADirectory
    return contents

/-- Creates the file if need be. A slash after its name asks for a directory,
which writing never gives. -/
def write (files : Files) (path : List Char) (contents : Bytes) : Except FileError Files := do
  match ← files.resolve path with
  | .directory => .error .isADirectory
  | .entry place name slash =>
    if slash then .error .isADirectory
    if isTooLong name then .error .nameTooLong
    match place with
    | .here => return files.insert (String.ofList name) contents
    | .above => .error .notFound

def contains (files : Files) (path : List Char) : Bool :=
  match files.resolve path with
  | .ok .directory => true
  | .ok (.entry place name slash) => !slash && (files.find place name).isOk
  | .error _ => false

end Files

end TinyScript.Library
